import IngressController.Generator.PolicySteps
import IngressController.Generator.RenderRuns

/-! # Variables of policies

The variables that policies define begin with fixed words, so they are never those of splits,
matches or requests.
-/

namespace IngressController.Configs

open GoString Version2 List

/-- What the variables of policies begin with. -/
def policyHeads : List String :=
  ["$rl_", "$pol_rl_", "$cors_origin_", "$apikey_", "$jwt_"]

def isPolicyVariable (v : String) : Bool := policyHeads.any (hasPrefix v)

theorem isPolicyVariable_of_toList (head : String) (hhead : head ∈ policyHeads) {s : String}
    (h : head.toList <+: s.toList) : isPolicyVariable s = true :=
  any_eq_true.mpr ⟨head, hhead, isPrefixOf_iff_prefix.mpr h⟩

theorem isPolicyVariable_jwtGroupVariable (opts : PolicyOptions) (owner : PolicyOwnerDetails)
    (claim context path : String) :
    isPolicyVariable (jwtGroupVariable opts owner claim context path) = true := by
  refine isPolicyVariable_of_toList "$rl_" (by decide) ?_
  simp [jwtGroupVariable, rateLimitHead, rfc1123ToSnake, replaceAll]

theorem isPolicyVariable_variableGroupVariable (owner : PolicyOwnerDetails)
    (name context path : String) :
    isPolicyVariable (variableGroupVariable owner name context path) = true := by
  refine isPolicyVariable_of_toList "$rl_" (by decide) ?_
  simp [variableGroupVariable, rateLimitHead, rfc1123ToSnake, replaceAll]

theorem isPolicyVariable_zone (opts : PolicyOptions) (policy : ObjectMeta)
    (owner : PolicyOwnerDetails) :
    isPolicyVariable ("$" ++ rfc1123ToSnake (rateLimitZoneName opts policy owner)) = true := by
  refine isPolicyVariable_of_toList "$pol_rl_" (by decide) ?_
  unfold rateLimitZoneName
  dsimp only
  split <;> simp [rfc1123ToSnake, replaceAll]

theorem isPolicyVariable_claimSet (claim : String) (owner : PolicyOwnerDetails) :
    isPolicyVariable (generateAuthJwtClaimSetVariable claim owner) = true := by
  refine isPolicyVariable_of_toList "$jwt_" (by decide) ?_
  simp [generateAuthJwtClaimSetVariable, replaceAll]

theorem isPolicyVariable_cors (polKey : String) (owner : PolicyOwnerDetails) :
    isPolicyVariable ("$" ++ generateCORSVariableName polKey owner) = true := by
  refine isPolicyVariable_of_toList "$cors_origin_" (by decide) ?_
  simp [generateCORSVariableName]

theorem isPolicyVariable_apiKey (owner : PolicyOwnerDetails) (snakeName : String) :
    isPolicyVariable ("$" ++ apiKeyMapName owner snakeName) = true := by
  have hhead : "$" ++ "apikey_auth_client_name_" = "$apikey_" ++ "auth_client_name_" := by decide
  refine isPolicyVariable_of_toList "$apikey_" (by decide) ?_
  unfold apiKeyMapName
  simp only [← String.append_assoc, hhead]
  simp only [String.toList_append, append_assoc]
  exact prefix_append _ _

/-- All variables some settings define are those of policies. -/
structure HasPolicyHeads (cfg : PoliciesCfg) : Prop where
  maps : ∀ m ∈ policyMaps cfg, isPolicyVariable m.variableName = true
  zones : ∀ z ∈ cfg.rateLimit.zones, z.groupVariable ≠ "" →
    isPolicyVariable z.groupVariable = true
  claimSets : ∀ s ∈ cfg.rateLimit.authJWTClaimSets, isPolicyVariable s.variableName = true
  apiKey : ∀ k ∈ cfg.apiKey.key, isPolicyVariable ("$" ++ k.mapName) = true
  clientMap : cfg.apiKey.clientMap = ∅

section

variable {opts : PolicyOptions} {ctx : PolicyContext} {ref : PolicyReference} {pol : Policy}
  {cfg cfg' : PoliciesCfg}

theorem groupVariable_generateGroupedLimitReqZone (opts : PolicyOptions)
    (zoneName policyName : String) (rateLimitPol : RateLimit) (condition : RateLimitCondition)
    (owner : PolicyOwnerDetails) (context path : String) :
    let lrz := generateGroupedLimitReqZone opts zoneName policyName rateLimitPol condition owner
      context path
    lrz.zoneName = zoneName ∧
      (lrz.groupVariable ≠ "" → isPolicyVariable lrz.groupVariable = true) := by
  unfold generateGroupedLimitReqZone
  dsimp only
  split
  · exact ⟨rfl, fun _ => isPolicyVariable_variableGroupVariable owner _ context path⟩
  · exact ⟨rfl, fun _ => isPolicyVariable_jwtGroupVariable opts owner _ context path⟩
  · exact ⟨rfl, fun h => absurd rfl h⟩

theorem hasPolicyHeads_addRateLimitConfig (h : HasPolicyHeads cfg) (policy : ObjectMeta)
    (s : RateLimit) (owner : PolicyOwnerDetails) (context path : String) :
    HasPolicyHeads (addRateLimitConfig opts cfg policy s owner context path) := by
  unfold addRateLimitConfig
  dsimp only
  cases s.condition with
  | none =>
    refine ⟨h.maps, ?_, h.claimSets, h.apiKey, h.clientMap⟩
    intro z hz hne
    rcases mem_append.mp hz with hz | hz
    · exact h.zones z hz hne
    · obtain rfl := mem_singleton.mp hz
      exact absurd rfl hne
  | some condition =>
    obtain ⟨hzone, hgroup⟩ := groupVariable_generateGroupedLimitReqZone opts
      (rateLimitZoneName opts policy owner) policy.name.val s condition owner context path
    refine ⟨?_, ?_, ?_, h.apiKey, h.clientMap⟩
    · intro m hm
      simp only [policyMaps, RateLimitCfg.addReq, mem_append, mem_singleton] at hm
      rcases hm with (hm | hm | rfl) | hm
      · exact h.maps m (by simp [policyMaps, hm])
      · exact h.maps m (by simp [policyMaps, hm])
      · rw [generateLRZPolicyGroupMap, hzone]
        exact isPolicyVariable_zone opts policy owner
      · exact h.maps m (by simpa [policyMaps] using Or.inr (Or.inr hm))
    · intro z hz hne
      rcases mem_append.mp hz with hz | hz
      · exact h.zones z hz hne
      · obtain rfl := mem_singleton.mp hz
        exact hgroup hne
    · intro set hset
      rcases mem_append.mp hset with hset | hset
      · exact h.claimSets set hset
      unfold claimSetsOf at hset
      split at hset
      · split at hset
        · obtain rfl := mem_singleton.mp hset
          exact isPolicyVariable_claimSet _ owner
        · cases hset
      · cases hset

theorem hasPolicyHeads_addCORSConfig (h : HasPolicyHeads cfg) (cors : CORS) (polKey : String)
    (owner : PolicyOwnerDetails) : HasPolicyHeads (addCORSConfig opts cfg cors polKey owner) := by
  have hcors : ∀ headers, HasPolicyHeads { cfg with
      corsHeaders := headers
      corsMap := some (generateCORSOriginMap opts cors.allowOrigin
        (generateCORSVariableName polKey owner)) } := by
    refine fun headers => ⟨?_, h.zones, h.claimSets, h.apiKey, h.clientMap⟩
    intro m hm
    rcases mem_append.mp hm with hm | hm
    · exact h.maps m (mem_append_left _ hm)
    · obtain rfl := mem_singleton.mp hm
      exact isPolicyVariable_cors polKey owner
  have hheaders : ∀ headers, HasPolicyHeads { cfg with corsHeaders := headers } :=
    fun headers => ⟨h.maps, h.zones, h.claimSets, h.apiKey, h.clientMap⟩
  unfold addCORSConfig
  dsimp only
  split
  · exact hheaders _
  · split
    · exact hheaders _
    · split
      · exact hheaders _
      · exact hcors _
  · exact hcors _

theorem PolicyStep.hasPolicyHeads (hstep : PolicyStep opts ctx ref pol cfg cfg')
    (h : HasPolicyHeads cfg) : HasPolicyHeads cfg' := by
  cases hstep with
  | rateLimit s hkind hstep =>
    rw [hstep]
    exact hasPolicyHeads_addRateLimitConfig h _ s _ _ _
  | externalAuth s hkind hstep =>
    rcases addExternalAuthConfig_spec hstep with ⟨-, rfl⟩ | ⟨-, auth, -, rfl⟩
    · exact h
    · exact ⟨h.maps, h.zones, h.claimSets, h.apiKey, h.clientMap⟩
  | apiKey s hkind hstep =>
    obtain ⟨-, ref, secret, snakeName, suppliedIn, -, -, -, -, rfl⟩ := addAPIKeyConfig_spec hstep
    refine ⟨h.maps, h.zones, h.claimSets, ?_, h.clientMap⟩
    rintro k hk
    cases hk
    exact isPolicyVariable_apiKey ctx.owner snakeName
  | wallarm s hkind hstep =>
    rw [hstep, addWallarmConfig_eq]
    exact ⟨h.maps, h.zones, h.claimSets, h.apiKey, h.clientMap⟩
  | cors s hkind hstep =>
    rw [hstep]
    exact hasPolicyHeads_addCORSConfig h s _ _
  | other hstep =>
    rw [hstep]
    exact ⟨h.maps, h.zones, h.claimSets, h.apiKey, h.clientMap⟩

/-- A group is named by the variable of one of its tiers. -/
theorem isPolicyVariable_of_groups {zones : List LimitReqZone}
    (h : ∀ z ∈ zones, z.groupVariable ≠ "" → isPolicyVariable z.groupVariable = true)
    {k : String} {m : Map} (hm : (generateLRZGroupMaps zones)[k]? = some m) :
    isPolicyVariable m.variableName = true := by
  have hfold : ∀ (groups : GoMap Map) (zones : List LimitReqZone),
      (∀ z ∈ zones, z.groupVariable ≠ "" → isPolicyVariable z.groupVariable = true) →
      (∀ (k : String) (m : Map), groups[k]? = some m → isPolicyVariable m.variableName = true) →
      ∀ (k : String) (m : Map), (zones.foldl addToGroup groups)[k]? = some m →
        isPolicyVariable m.variableName = true := by
    intro groups zones
    induction zones generalizing groups with
    | nil => exact fun _ hgroups => hgroups
    | cons z zones ih =>
      intro hzones hgroups
      refine ih (addToGroup groups z) (fun z' hz' => hzones z' (mem_cons_of_mem z hz')) ?_
      intro k m hm
      unfold addToGroup at hm
      split at hm
      · rename_i hne
        rw [Table.get_insert] at hm
        split at hm
        · cases hm
          exact hzones z mem_cons_self hne
        · exact hgroups k m hm
      · exact hgroups k m hm
  exact hfold ∅ zones h (by simp) k m hm

theorem hasPolicyHeads_finishPolicies (h : HasPolicyHeads cfg) :
    HasPolicyHeads (finishPolicies opts ctx cfg) := by
  unfold finishPolicies
  split
  · exact h
  dsimp only
  split
  · exact ⟨by simp [policyMaps, errorPoliciesCfg], by simp [errorPoliciesCfg],
      by simp [errorPoliciesCfg], by simp [errorPoliciesCfg], rfl⟩
  rename_i maps hmaps
  refine ⟨?_, h.zones, h.claimSets, h.apiKey, h.clientMap⟩
  intro m hm
  simp only [policyMaps, mem_append] at hm
  rcases hm with ((hm | hm) | hm) | hm
  · exact h.maps m (by simp [policyMaps, hm])
  · unfold groupMaps at hmaps
    split at hmaps
    · cases hmaps
    · cases hmaps
      obtain ⟨k, -, hk⟩ := mem_filterMap.mp hm
      exact isPolicyVariable_of_groups h.zones hk
  · exact h.maps m (by simp [policyMaps, hm])
  · exact h.maps m (by simpa [policyMaps] using Or.inr (Or.inr hm))

theorem hasPolicyHeads_generatePolicies {policies : GoMap Policy} {state : OidcState}
    {refs : List PolicyReference} {locations : OidcLocations}
    (h : generatePolicies opts policies state ctx refs = some (cfg, locations)) :
    HasPolicyHeads cfg := by
  refine generatePolicies_invariant ?_ ?_ ?_ ?_ h
  · exact ⟨by simp [policyMaps], by simp, by simp, by simp, rfl⟩
  · exact ⟨by simp [policyMaps, errorPoliciesCfg], by simp [errorPoliciesCfg],
      by simp [errorPoliciesCfg], by simp [errorPoliciesCfg], rfl⟩
  · exact fun ref _ pol cfg cfg' _ hstep hcfg => hstep.hasPolicyHeads hcfg
  · exact fun cfg hcfg => hasPolicyHeads_finishPolicies hcfg

end

end IngressController.Configs
