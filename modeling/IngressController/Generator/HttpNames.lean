import IngressController.Generator.InternalNames
import IngressController.Generator.VirtualServer
import IngressController.Library.Pieces

/-! # Names at the http level

Variables and zones are global in NGINX. Their names are joined from namespaces and names with
underscores, and most of them replace hyphens by underscores, so a name tells the pieces of what it
is joined from but not where one part ends and the next begins.
-/

namespace IngressController.Configs

open GoString NumberedText List
open String (ofList toList_inj toList_append)

/-- A name that a VirtualServer or a policy of an owner has at the http level. -/
inductive HttpName where
  | internal (vs : VirtualServer) (v : InternalVariable)
  | keyvalZone (vs : VirtualServer) (i : Nat)
  | rateLimitZone (policy : ObjectMeta) (owner : PolicyOwnerDetails)
  | rateLimitKey (policy : ObjectMeta) (owner : PolicyOwnerDetails)
  | jwtGroup (owner : PolicyOwnerDetails) (claim context path : String)
  | variableGroup (owner : PolicyOwnerDetails) (name context path : String)
  | claimSet (owner : PolicyOwnerDetails) (claim : String)
  | oidcProvider (owner : PolicyOwnerDetails) (polKey polNamespace : String)
  | oidcSession (owner : PolicyOwnerDetails) (polKey polNamespace : String)
  | corsOrigin (owner : PolicyOwnerDetails) (polKey : String)
  | cacheZone (owner : PolicyOwnerDetails) (cache : Cache)

inductive HttpNameKind where
  | internal | keyvalZone | rateLimitZone | rateLimitKey | jwtGroup | variableGroup | claimSet
  | oidcProvider | oidcSession | corsOrigin | cacheZone
deriving DecidableEq

namespace HttpName

def kind : HttpName → HttpNameKind
  | internal _ _ => .internal
  | keyvalZone _ _ => .keyvalZone
  | rateLimitZone _ _ => .rateLimitZone
  | rateLimitKey _ _ => .rateLimitKey
  | jwtGroup _ _ _ _ => .jwtGroup
  | variableGroup _ _ _ _ => .variableGroup
  | claimSet _ _ => .claimSet
  | oidcProvider _ _ _ => .oidcProvider
  | oidcSession _ _ _ => .oidcSession
  | corsOrigin _ _ => .corsOrigin
  | cacheZone _ _ => .cacheZone

def text (opts : PolicyOptions) : HttpName → String
  | internal vs v => v.text (newVSVariableNamer vs)
  | keyvalZone vs i => (newVSVariableNamer vs).getNameOfKeyvalZoneForSplitClientIndex i
  | rateLimitZone policy owner => rateLimitZoneName opts policy owner
  | rateLimitKey policy owner => "$" ++ rfc1123ToSnake (rateLimitZoneName opts policy owner)
  | jwtGroup owner claim context path => jwtGroupVariable opts owner claim context path
  | variableGroup owner name context path => variableGroupVariable owner name context path
  | claimSet owner claim => generateAuthJwtClaimSetVariable claim owner
  | oidcProvider owner polKey polNamespace => oidcProviderName owner polKey polNamespace
  | oidcSession owner polKey polNamespace =>
    "oidc_sessions_" ++ oidcProviderName owner polKey polNamespace
  | corsOrigin owner polKey => generateCORSVariableName polKey owner
  | cacheZone owner cache => cacheZoneName cache owner

end HttpName

def parentParts (owner : PolicyOwnerDetails) : List String :=
  [owner.parentNamespace, owner.parentName, owner.parentType]

/-- A VirtualServerRoute is named besides its VirtualServer. -/
def ownerParts (owner : PolicyOwnerDetails) : List String :=
  if owner.parentNamespace = owner.ownerNamespace && owner.parentName = owner.ownerName then []
  else [owner.ownerNamespace, owner.ownerName]

def policyParts (polKey : String) : List String :=
  match splitAtMost '/' 1 polKey.toList with
  | [polNamespace, polName] =>
    if polNamespace = [] || polName = [] then []
    else [ofList polNamespace, ofList polName]
  | _ => []

namespace HttpName

def parts (opts : PolicyOptions) : HttpName → List String
  | internal vs _ | keyvalZone vs _ => [vs.objectMeta.nspace.val, vs.objectMeta.name.val]
  | rateLimitZone policy owner
  | rateLimitKey policy owner => [policy.nspace.val, policy.name.val] ++ parentParts owner
  | jwtGroup owner claim context path =>
    parentParts owner ++ ["group", opts.lower (joinClaim claim "_"), context, base64URLEncode path]
  | variableGroup owner name context path =>
    parentParts owner ++
      ["variable", ofList (name.toList.filter (· ≠ '$')), context, base64URLEncode path]
  | claimSet owner claim => parentParts owner ++ [joinClaim claim "_"]
  | oidcProvider owner polKey polNamespace =>
    [polNamespace, (parseResourceReference polKey polNamespace).2] ++ parentParts owner
  | oidcSession owner polKey polNamespace =>
    [polNamespace, (parseResourceReference polKey polNamespace).2] ++ parentParts owner
  | corsOrigin owner polKey => parentParts owner ++ ownerParts owner ++ policyParts polKey
  | cacheZone owner cache => parentParts owner ++ ownerParts owner ++ [cache.cacheZoneName]

/-- The pieces of the parts. Names of cache zones keep their hyphens. -/
def partPieces (opts : PolicyOptions) (x : HttpName) : List (List Char) :=
  if x.kind = .cacheZone then (x.parts opts).flatMap fun part => part.toList.splitOn '_'
  else (x.parts opts).flatMap pieces

def index : HttpName → Option (InternalVariable ⊕ Nat)
  | internal _ v => some (.inl v)
  | keyvalZone _ i => some (.inr i)
  | _ => none

end HttpName

/-! ## Names of VirtualServers -/

namespace InternalVariable

/-- What follows the name of the VirtualServer, piece by piece. -/
def words : InternalVariable → List (List Char)
  | splitClients i => ["splits".toList, ofNat i]
  | splitClientsForWeights i w w' =>
    ["split".toList, "clients".toList, ofNat i, ofNat w, ofNat w']
  | splitClientsMap i => ["map".toList, "split".toList, "clients".toList, ofNat i]
  | keyval i => ["keyval".toList, "split".toList, "clients".toList, ofNat i]
  | condition index i j =>
    ["matches".toList, ofNat index, "match".toList, ofNat i, "cond".toList, ofNat j]
  | matchesMap index => ["matches".toList, ofNat index]

theorem score_notMem_ofNat (n : Nat) : '_' ∉ ofNat n := by
  intro h
  exact absurd (isDigit_of_mem_ofNat h) (by decide)

variable (v : InternalVariable)

theorem render_eq : v.numbered.render = ['_'].intercalate v.words := by
  cases v <;> simp [numbered, render, renderParts, words]

theorem splitOn_render : v.numbered.render.splitOn '_' = v.words := by
  have hwords : ∀ word ∈ v.words, '_' ∉ word := by
    cases v <;> simp [words, score_notMem_ofNat]
  have hne : v.words ≠ [] := by cases v <;> simp [words]
  rw [render_eq, splitOn_intercalate '_' hwords hne]

def lastWord : InternalVariable → List Char
  | splitClients _ => "splits".toList
  | splitClientsForWeights _ w _ => ofNat w
  | splitClientsMap _ | keyval _ => "clients".toList
  | condition _ _ _ => "cond".toList
  | matchesMap _ => "matches".toList

theorem exists_words_eq : ∃ front number, v.words = front ++ [v.lastWord, number] := by
  cases v with
  | splitClients i => exact ⟨[], _, rfl⟩
  | splitClientsForWeights i w w' => exact ⟨[_, _, _], _, rfl⟩
  | splitClientsMap | keyval => exact ⟨[_, _], _, rfl⟩
  | condition index i j => exact ⟨[_, _, _, _], _, rfl⟩
  | matchesMap index => exact ⟨[], _, rfl⟩

/-- The last word, unless it is a number. -/
def mark : InternalVariable → Option String
  | splitClients _ => some "splits"
  | splitClientsForWeights _ _ _ => none
  | splitClientsMap _ | keyval _ => some "clients"
  | condition _ _ _ => some "cond"
  | matchesMap _ => some "matches"

theorem mark_eq :
    v.mark = if v.lastWord.all isDigit then none else some (ofList v.lastWord) := by
  have hnumber : ∀ n, (ofNat n).all isDigit = true := fun n =>
    all_eq_true.mpr fun c hc => isDigit_of_mem_ofNat hc
  have hword : ∀ word : String, word.toList.all isDigit = false →
      some word = if word.toList.all isDigit then none else some (ofList word.toList) := by
    intro word hword
    rw [if_neg (by simp [hword]), String.ofList_toList]
  cases v with
  | splitClients i => exact hword "splits" (by decide)
  | splitClientsForWeights i w w' => exact (if_pos (hnumber w)).symm
  | splitClientsMap | keyval => exact hword "clients" (by decide)
  | condition index i j => exact hword "cond" (by decide)
  | matchesMap index => exact hword "matches" (by decide)

def width : Option String → Nat
  | none => 5
  | some word => if word = "clients" then 4 else if word = "cond" then 6 else 2

theorem length_words : v.words.length = width v.mark := by
  cases v <;> rfl

/-- Pieces in front of the words do not hide them. -/
theorem words_inj {front front' : List (List Char)} {v v' : InternalVariable}
    (h : front ++ v.words = front' ++ v'.words) : front = front' ∧ v = v' := by
  obtain ⟨pre, number, hwords⟩ := v.exists_words_eq
  obtain ⟨pre', number', hwords'⟩ := v'.exists_words_eq
  have hlast : v.lastWord = v'.lastWord := by
    rw [hwords, hwords', ← append_assoc, ← append_assoc] at h
    exact (cons.inj (append_inj' h rfl).2).1
  -- the last word tells how many words there are
  have hlength : v.words.length = v'.words.length := by
    rw [length_words, length_words, mark_eq, mark_eq, hlast]
  obtain ⟨hfront, heq⟩ := append_inj' h hlength
  refine ⟨hfront, numbered_inj (render_inj v.isSeparated_numbered v'.isSeparated_numbered ?_)⟩
  rw [render_eq, render_eq, heq]

end InternalVariable

namespace HttpName

/-- The words that a kind of names begins with. Names of cache zones have none. -/
def head : HttpNameKind → List (List Char)
  | .internal => pieces "$vs"
  | .keyvalZone => pieces "vs"
  | .rateLimitZone => pieces "pol_rl"
  | .rateLimitKey => pieces "$pol_rl"
  | .jwtGroup | .variableGroup => pieces "$rl"
  | .claimSet => pieces "$jwt"
  | .oidcProvider => pieces "oidc"
  | .oidcSession => pieces "oidc_sessions_oidc"
  | .corsOrigin => pieces "cors_origin"
  | .cacheZone => []

variable (opts : PolicyOptions)

def syncWords : List (List Char) :=
  if opts.zoneSync then ["sync".toList] else []

def tail : HttpName → List (List Char)
  | internal _ v => v.words
  | keyvalZone _ i => ["keyval".toList, "zone".toList, "split".toList, "clients".toList, ofNat i]
  | rateLimitZone _ _ | rateLimitKey _ _ => syncWords opts
  | _ => []

def namePieces (x : HttpName) : List (List Char) :=
  head x.kind ++ x.partPieces opts ++ x.tail opts

variable (opts : PolicyOptions) (vs : VirtualServer)

theorem splitOn_safeNsName : (newVSVariableNamer vs).safeNsName.toList.splitOn '_' =
      pieces vs.objectMeta.nspace.val ++ pieces vs.objectMeta.name.val := by
  rw [newVSVariableNamer, splitOn_replaceAll, pieces_join]

theorem splitOn_internal (v : InternalVariable) :
    (v.text (newVSVariableNamer vs)).toList.splitOn '_' = "$vs".toList ::
        (pieces vs.objectMeta.nspace.val ++ pieces vs.objectMeta.name.val ++ v.words) := by
  have hlist : (v.text (newVSVariableNamer vs)).toList = "$vs".toList ++ '_' ::
      ((newVSVariableNamer vs).safeNsName.toList ++ '_' :: v.numbered.render) := by
    rw [InternalVariable.toList_text]
    simp
  rw [hlist, splitOn_append_cons_self_of_not_mem (by decide), splitOn_append_cons_self,
    splitOn_safeNsName, InternalVariable.splitOn_render]

theorem splitOn_keyvalZone (i : Nat) :
    ((newVSVariableNamer vs).getNameOfKeyvalZoneForSplitClientIndex i).toList.splitOn '_' =
      "vs".toList :: (pieces vs.objectMeta.nspace.val ++ pieces vs.objectMeta.name.val ++
        ["keyval".toList, "zone".toList, "split".toList, "clients".toList, ofNat i]) := by
  have htext : (newVSVariableNamer vs).getNameOfKeyvalZoneForSplitClientIndex i =
      joined "vs" [(newVSVariableNamer vs).safeNsName, "keyval", "zone", "split", "clients",
        toString i] := by
    rw [← toList_inj]
    simp [VariableNamer.getNameOfKeyvalZoneForSplitClientIndex, joined, toList_append]
  have hnumber : (toString i).toList.splitOn '_' = [ofNat i] :=
    splitOn_eq_singleton (InternalVariable.score_notMem_ofNat i)
  rw [htext, splitOn_joined]
  simp only [flatMap_cons, flatMap_nil, hnumber, splitOn_safeNsName]
  rfl

/-- Names that replace the hyphens of joined parts. -/
theorem splitOn_snake (head : String) (parts : List String) :
    (rfc1123ToSnake (joined head parts)).toList.splitOn '_' =
      pieces head ++ parts.flatMap pieces := by
  unfold rfc1123ToSnake
  rw [splitOn_replaceAll, pieces_joined]

theorem rateLimitZoneName_eq (policy : ObjectMeta) (owner : PolicyOwnerDetails) :
    rateLimitZoneName opts policy owner =
      rfc1123ToSnake (joined "pol_rl" ((rateLimitZone policy owner).parts opts)) ++
        if opts.zoneSync then "_sync" else "" := by
  have hjoined : "pol_rl_" ++ policy.nspace.val ++ "_" ++ policy.name.val ++ "_" ++
      owner.parentNamespace ++ "_" ++ owner.parentName ++ "_" ++ owner.parentType =
        joined "pol_rl" ((rateLimitZone policy owner).parts opts) := by
    rw [← toList_inj]
    simp [joined, parts, parentParts, toList_append]
  unfold rateLimitZoneName
  rw [hjoined]
  dsimp only
  split
  · rfl
  · exact String.append_empty.symm

theorem toSnake_rateLimitZoneName (policy : ObjectMeta) (owner : PolicyOwnerDetails) :
    rfc1123ToSnake (rateLimitZoneName opts policy owner) = rateLimitZoneName opts policy owner := by
  have hsync : '-' ∉ (if opts.zoneSync then "_sync" else "").toList := by
    split <;> decide
  have hfree : '-' ∉ (rateLimitZoneName opts policy owner).toList := by
    rw [rateLimitZoneName_eq, toList_append, mem_append, not_or]
    exact ⟨not_mem_replaceAll (by decide) _, hsync⟩
  unfold rfc1123ToSnake
  rw [replaceAll_of_not_mem hfree]

variable (owner : PolicyOwnerDetails)

theorem corsVariableName_eq (polKey : String) : generateCORSVariableName polKey owner =
      rfc1123ToSnake (joined "cors_origin" ((corsOrigin owner polKey).parts opts)) := by
  have hparts : generateCORSVariableName polKey owner = "cors_origin_" ++ String.intercalate "_"
      ((parentParts owner ++ ownerParts owner ++ policyParts polKey).map rfc1123ToSnake) := rfl
  have hhead : rfc1123ToSnake "cors_origin" = "cors_origin" := by decide
  have hcons : (parentParts owner ++ ownerParts owner ++ policyParts polKey).map rfc1123ToSnake =
      rfc1123ToSnake owner.parentNamespace :: ([owner.parentName, owner.parentType] ++
        ownerParts owner ++ policyParts polKey).map rfc1123ToSnake := rfl
  have hsnake := replaceAll_joined "cors_origin" ((corsOrigin owner polKey).parts opts)
  rw [hparts, hcons, intercalate_eq_joined, ← append_joined]
  refine Eq.trans ?_ hsnake
  rw [show replaceAll "cors_origin" '-' '_' = "cors_origin" from hhead]
  rfl

theorem cacheZoneName_eq (cache : Cache) : cacheZoneName cache owner = joined owner.parentNamespace
      (owner.parentName :: owner.parentType :: (ownerParts owner ++ [cache.cacheZoneName])) := by
  unfold cacheZoneName ownerParts
  dsimp only
  split <;> rfl

theorem append_snake {front : String} (h : rfc1123ToSnake front = front) (name : String) :
    front ++ rfc1123ToSnake name = rfc1123ToSnake (front ++ name) := by
  unfold rfc1123ToSnake at *
  rw [replaceAll_append, h]

theorem splitOn_rateLimitZoneName (front : String) (h : rfc1123ToSnake front = front)
    (policy : ObjectMeta) (owner : PolicyOwnerDetails) :
    (front ++ rateLimitZoneName opts policy owner).toList.splitOn '_' =
      pieces (front ++ "pol_rl") ++ ((rateLimitZone policy owner).parts opts).flatMap pieces ++
        syncWords opts := by
  rw [rateLimitZoneName_eq, ← String.append_assoc, append_snake h, ← append_joined]
  unfold syncWords
  split
  · have hsync : "_sync" = "_" ++ "sync" := by decide
    have hword : "sync".toList.splitOn '_' = ["sync".toList] := by decide
    rw [hsync, ← String.append_assoc, splitOn_join, splitOn_snake, hword]
  · rw [String.append_empty, splitOn_snake, append_nil]

/-- A name falls into the words of its kind and the pieces of its parts. -/
theorem splitOn_text (x : HttpName) : (x.text opts).toList.splitOn '_' = x.namePieces opts := by
  have hplain : ∀ {name head : String} {parts : List String},
      name.toList = (joined head parts).toList →
      (rfc1123ToSnake name).toList.splitOn '_' = pieces head ++ parts.flatMap pieces ++ [] := by
    intro name head parts h
    rw [String.toList_inj.mp h, splitOn_snake, append_nil]
  cases x with
  | internal vs v =>
    have hhead : pieces "$vs" = ["$vs".toList] := by decide
    rw [text, splitOn_internal]
    simp [namePieces, partPieces, kind, parts, tail, head, hhead]
  | keyvalZone vs i =>
    have hhead : pieces "vs" = ["vs".toList] := by decide
    rw [text, splitOn_keyvalZone]
    simp [namePieces, partPieces, kind, parts, tail, head, hhead]
  | rateLimitZone policy owner =>
    have hzone := splitOn_rateLimitZoneName opts "" (by decide) policy owner
    rw [String.empty_append, String.empty_append] at hzone
    exact hzone
  | rateLimitKey policy owner =>
    rw [text, toSnake_rateLimitZoneName]
    exact splitOn_rateLimitZoneName opts "$" (by decide) policy owner
  | jwtGroup | variableGroup =>
    exact hplain (by simp [joined, parts, parentParts, rateLimitHead, toList_append])
  | claimSet | oidcProvider =>
    exact hplain (by simp [joined, parts, parentParts, toList_append])
  | oidcSession owner polKey polNamespace =>
    rw [text, oidcProviderName, append_snake (by decide)]
    exact hplain (by simp [joined, parts, parentParts, toList_append])
  | corsOrigin owner polKey =>
    rw [text, corsVariableName_eq opts]
    exact hplain rfl
  | cacheZone owner cache =>
    rw [text, cacheZoneName_eq, splitOn_joined]
    exact (append_nil _).symm

/-- The number of a name is read off its end. -/
theorem append_tail_eq_iff {x y : HttpName} (h : x.kind = y.kind)
    {front front' : List (List Char)} :
    front ++ x.tail opts = front' ++ y.tail opts ↔ front = front' ∧ x.index = y.index := by
  have hplain : ∀ words : List (List Char), front ++ words = front' ++ words ↔
      front = front' ∧ (none : Option (InternalVariable ⊕ Nat)) = none := by simp
  cases x with
  | internal vs v =>
    cases y with
    | internal vs' v' =>
      constructor
      · intro heq
        obtain ⟨hfront, hindex⟩ := InternalVariable.words_inj heq
        exact ⟨hfront, congrArg (some ∘ Sum.inl) hindex⟩
      · rintro ⟨rfl, hindex⟩
        cases hindex
        rfl
    | _ => cases h
  | keyvalZone vs i =>
    cases y with
    | keyvalZone vs' i' =>
      constructor
      · intro heq
        obtain ⟨hfront, hwords⟩ := append_inj' heq (by simp [tail])
        simp only [tail, cons.injEq, true_and, and_true] at hwords
        exact ⟨hfront, congrArg (some ∘ Sum.inr) (ofNat_inj hwords)⟩
      · rintro ⟨rfl, hindex⟩
        cases hindex
        rfl
    | _ => cases h
  | _ => cases y <;> first | exact hplain _ | cases h

/-- Names are different exactly if their pieces are. In one kind of names only the pieces of the
parts and the numbers count. -/
theorem text_ne_iff (x y : HttpName) :
    (x.text opts ≠ y.text opts ↔ x.namePieces opts ≠ y.namePieces opts) ∧
      (x.kind = y.kind → (x.text opts ≠ y.text opts ↔
        x.partPieces opts ≠ y.partPieces opts ∨ x.index ≠ y.index)) := by
  have hpieces : x.text opts = y.text opts ↔ x.namePieces opts = y.namePieces opts := by
    rw [← splitOn_text, ← splitOn_text, splitOn_inj]
  refine ⟨not_congr hpieces, fun h => ?_⟩
  have hparts : x.namePieces opts = y.namePieces opts ↔
      x.partPieces opts = y.partPieces opts ∧ x.index = y.index := by
    unfold namePieces
    rw [← h, append_tail_eq_iff opts h, append_cancel_left_eq]
  rw [ne_eq, hpieces.trans hparts, not_and_or]

end HttpName

/-- The options of a VirtualServer without TLS, and trivial libraries. -/
def PolicyOptions.plain : PolicyOptions where
  parseURL _ := none
  lower := id
  sha256Hex := id
  isPrint _ := true
  scaleRatelimit rate _ := rate
  validateBundle path := some path
  order := .asGiven

def keyvalCache : Cache := { cacheZoneName := "tea_keyval_zone_split_clients_0" }

def emptyVirtualServer (m : ObjectMeta) : VirtualServer := ⟨m, { host := "shop.example.com" }⟩

/-- A VirtualServer that owns the policies it references. -/
def virtualServerOwner (nspace name : String) : PolicyOwnerDetails :=
  ⟨name, nspace, nspace, name, "vs"⟩

namespace HttpName

/-- `shop-eu/tea` and `shop/eu-tea` name their variables alike, policies of different namespaces
share a zone, an origin map and sessions, and a cache zone has the name of a key-value zone. -/
theorem different_resources_share_names :
    (internal (emptyVirtualServer (namedMeta "shop-eu" "tea")) (.matchesMap 0)).text .plain =
      (internal (emptyVirtualServer (namedMeta "shop" "eu-tea")) (.matchesMap 0)).text .plain ∧
    (rateLimitZone (namedMeta "shop-eu" "limit") (virtualServerOwner "shop" "tea")).text .plain =
      (rateLimitZone (namedMeta "shop" "eu-limit") (virtualServerOwner "shop" "tea")).text .plain ∧
    (corsOrigin (virtualServerOwner "shop" "tea") "shop-eu/cors").text .plain =
      (corsOrigin (virtualServerOwner "shop" "tea") "shop/eu-cors").text .plain ∧
    (oidcSession (virtualServerOwner "shop" "tea") "shop-eu/login" "shop-eu").text .plain =
      (oidcSession (virtualServerOwner "shop" "tea") "shop/eu-login" "shop").text .plain ∧
    (cacheZone (virtualServerOwner "vs" "shop") keyvalCache).text .plain =
      (keyvalZone (emptyVirtualServer (namedMeta "shop" "vs-tea")) 0).text .plain := by
  decide +kernel

/-- The VirtualServers `shop/tea` and `shop/coffee` do not share variables. -/
theorem text_ne_iff_teaAndCoffee :
    (internal (emptyVirtualServer (namedMeta "shop" "tea")) (.matchesMap 0)).text .plain ≠
      (internal (emptyVirtualServer (namedMeta "shop" "coffee")) (.matchesMap 0)).text .plain :=
  ((text_ne_iff .plain (internal (emptyVirtualServer (namedMeta "shop" "tea")) (.matchesMap 0))
    (internal (emptyVirtualServer (namedMeta "shop" "coffee")) (.matchesMap 0))).2 rfl).mpr
      (.inl (by decide +kernel))

end HttpName

end IngressController.Configs
