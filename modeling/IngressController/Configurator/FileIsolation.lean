import IngressController.Configurator.Resources

/-! # Files of different objects

An operation on an object changes the files of that object and files that objects share. Whether
these can be files of another object depends on the names: a hyphen joins namespace and name, and it
may occur in both.
-/

namespace IngressController.Nginx

/-- What both calls keep, a sequence of them keeps. -/
theorem andThen_rel {σ : Type} {R : σ → σ → Prop}
    (htrans : ∀ {s s' s''}, R s s' → R s' s'' → R s s'')
    {s : σ} {first : Outcome × σ} {next : Bool → σ → Outcome × σ} (hfirst : R s first.2)
    (hnext : ∀ changed s', R s' (next changed s').2) : R s (andThen first next).2 := by
  obtain ⟨outcome, s'⟩ := first
  cases outcome with
  | returned changed => exact htrans hfirst (hnext changed s')
  | failed | exited => exact hfirst

end IngressController.Nginx

namespace IngressController.Configs

open Nginx Nginx.ConfigRollbackManager JoinedText
open String (append_assoc append_empty toList_append singleton)
open List (mem_cons_of_mem mem_singleton mem_cons_self mem_pair mem_cons mem_map)

/-! ## Objects and their files -/

inductive ObjectKind where
  | ingress | virtualServer | transportServer | secret

inductive Object where
  | ingress (m : ObjectMeta)
  | virtualServer (m : ObjectMeta)
  | transportServer (m : ObjectMeta)
  | secret (m : ObjectMeta) (type : SecretType)

/-- What follows the name of a Secret in the names of its files. -/
def secretParts (type : SecretType) : List String :=
  if type = .ca then ["-" ++ caCrtKey, "-" ++ caCrlKey]
  else if type = .oidc ∨ type = .apiKey ∨ type = secretTypeLicense then []
  else [""]

variable (m : ObjectMeta)

def secretPath (part : String) : String :=
  getFilenameForSecret ((objectMetaToFileName m).val ++ part)

def ingressPath : String := getFilenameForConfig (objectMetaToFileName m)

def transportServerPath : String :=
  getFilenameForStreamConfig (getFileNameForTransportServer m)

namespace Object

def kind : Object → ObjectKind
  | ingress _ => .ingress
  | virtualServer _ => .virtualServer
  | transportServer _ => .transportServer
  | secret _ _ => .secret

def objectMeta : Object → ObjectMeta
  | ingress m | virtualServer m | transportServer m | secret m _ => m

def IsSame (o o' : Object) : Prop :=
  o.kind = o'.kind ∧ o.objectMeta.nspace = o'.objectMeta.nspace ∧
    o.objectMeta.name = o'.objectMeta.name

/-- The files that belong to an object. An Ingress for the empty host leaves its file unused. -/
def files : Object → List String
  | ingress m => [ingressPath m]
  | virtualServer m => [serverPath m, oidcPath m]
  | transportServer m => [transportServerPath m]
  | secret m type => (secretParts type).map (secretPath m)

/-- The deletion of a Secret does not read its type. -/
def touched : Object → List String
  | secret m type => secretPath m "" :: (secretParts type).map (secretPath m)
  | o => o.files

theorem files_subset_touched {o : Object} {p : String} (h : p ∈ o.files) : p ∈ o.touched := by
  cases o with
  | ingress | virtualServer | transportServer => exact h
  | secret m type => exact mem_cons_of_mem _ h

end Object

/-- Files that do not belong to one of the objects. -/
def IsShared (p : String) : Prop :=
  p = configVersionFilename ∨ p = defaultServerConfFilename ∨ p = tlsPassthroughHostsFilename ∨
    ∃ f : ProtectFile, f.path = p

inductive Operation where
  | addOrUpdateIngress (m : ObjectMeta) (emptyHost : Bool) (protectFiles : List ProtectFile)
      (content : Except String String)
  | addOrUpdateMergeableIngress (m : ObjectMeta) (emptyHost : Bool)
      (protectFiles : List ProtectFile) (content : Except String String)
  | deleteIngress (m : ObjectMeta) (skipReload : Bool)
  | addOrUpdateVirtualServer (m : ObjectMeta) (hasOIDC hasWeights : Bool)
      (protectFiles : List ProtectFile) (rendered : Except String RenderedVirtualServer)
  | deleteVirtualServer (m : ObjectMeta) (skipReload : Bool)
  | addOrUpdateTransportServer (m : ObjectMeta) (content : Except String String)
      (passthrough : Option TlsPassthroughPair)
  | deleteTransportServer (m : ObjectMeta)
  | addOrUpdateSecret (m : ObjectMeta) (type : SecretType) (contents : SecretContents)
  | deleteSecret (m : ObjectMeta) (type : SecretType)

namespace Operation

def target : Operation → Object
  | addOrUpdateIngress m _ _ _ | addOrUpdateMergeableIngress m _ _ _
  | deleteIngress m _ => .ingress m
  | addOrUpdateVirtualServer m _ _ _ _ | deleteVirtualServer m _ => .virtualServer m
  | addOrUpdateTransportServer m _ _ | deleteTransportServer m => .transportServer m
  | addOrUpdateSecret m type _ | deleteSecret m type => .secret m type

end Operation

namespace Configurator

/-- Changes of weights are sent to a running NGINX. -/
def enableReloads (hasWeights : Bool) (cnf : Configurator) : Configurator :=
  { cnf with isReloadsEnabled := cnf.isReloadsEnabled || hasWeights }

end Configurator

namespace Operation

/-- An update with the errors of its caller, and a reload. -/
def updated (host : Host) (described : String) (m : ObjectMeta) (reloaded : String)
    (result : Outcome × Configurator) : Outcome × Configurator :=
  Configurator.reloadAfter host
    ("error reloading NGINX for " ++ reloaded ++ getResourceKey m ++ ": ")
    (result.map (Outcome.context (described ++ getResourceKey m ++ ": ")) id)

def run (host : Host) (shared : SharedTemplates) (cnf : Configurator) : Operation → Configurator
  | addOrUpdateIngress m emptyHost protectFiles content =>
    (updated host "error adding or updating ingress " m ""
      (cnf.addOrUpdateIngress host shared m emptyHost protectFiles content)).2
  | addOrUpdateMergeableIngress m emptyHost protectFiles content =>
    (updated host "error when adding or updating ingress " m ""
      (cnf.addOrUpdateMergeableIngress host shared m emptyHost protectFiles content)).2
  | deleteIngress m skipReload => (cnf.deleteIngress host shared (getResourceKey m) skipReload).2
  | addOrUpdateVirtualServer m hasOIDC hasWeights protectFiles rendered =>
    (updated host "error adding or updating VirtualServer " m "VirtualServer "
      (andThen (cnf.addOrUpdateVirtualServer host m hasOIDC protectFiles rendered)
        fun changed cnf => (.returned changed, cnf.enableReloads hasWeights))).2
  | deleteVirtualServer m skipReload =>
    (cnf.deleteVirtualServer host (getResourceKey m) skipReload).2
  | addOrUpdateTransportServer m content passthrough =>
    (updated host "error adding or updating TransportServer " m "TransportServer "
      (cnf.addOrUpdateTransportServer host shared m content passthrough)).2
  | deleteTransportServer m => (cnf.deleteTransportServer host shared (getResourceKey m)).2
  | addOrUpdateSecret m type contents => (cnf.addOrUpdateSecret host m type contents).2
  | deleteSecret m _ => cnf.deleteSecret (getResourceKey m)

end Operation

/-! ## What an operation changes -/

namespace Configurator

def KeepsOutside (P : String → Prop) (cnf cnf' : Configurator) : Prop :=
  FileTree.ChangesOnly P cnf.manager.files cnf'.manager.files

variable {host : Host} {shared : SharedTemplates} {P : String → Prop} {m : ObjectMeta}
  {cnf cnf' cnf'' : Configurator}

theorem KeepsOutside.refl (P : String → Prop) (cnf : Configurator) : KeepsOutside P cnf cnf :=
  FileTree.ChangesOnly.refl P _

theorem KeepsOutside.trans (h : KeepsOutside P cnf cnf') (h' : KeepsOutside P cnf' cnf'') :
    KeepsOutside P cnf cnf'' :=
  FileTree.ChangesOnly.trans h h'

theorem keepsOutside_andThen {first : Outcome × Configurator}
    {next : Bool → Configurator → Outcome × Configurator} (hfirst : KeepsOutside P cnf first.2)
    (hnext : ∀ changed cnf', KeepsOutside P cnf' (next changed cnf').2) :
    KeepsOutside P cnf (andThen first next).2 :=
  andThen_rel (R := KeepsOutside P) KeepsOutside.trans hfirst hnext

theorem keepsOutside_reload (hversion : P configVersionFilename) :
    KeepsOutside P cnf (cnf.reload host).2 := by
  unfold reload
  split
  · exact reload_changesOnly hversion
  · exact .refl P cnf

theorem keepsOutside_reloadAfter (hversion : P configVersionFilename) (text : String)
    {result : Outcome × Configurator} (h : KeepsOutside P cnf result.2) :
    KeepsOutside P cnf (reloadAfter host text result).2 := by
  refine keepsOutside_andThen h fun changed cnf' => ?_
  exact keepsOutside_andThen (keepsOutside_reload hversion) fun _ _ => .refl P _

theorem keepsOutside_writeProtectFiles (hP : ∀ f : ProtectFile, P f.path)
    (files : List ProtectFile) : KeepsOutside P cnf (cnf.writeProtectFiles host files).2 := by
  have hframe : ∀ (cm cm' : ConfigRollbackManager),
      createAppProtectResourceFiles host cm files = some cm' →
        FileTree.ChangesOnly P cm.files cm'.files := by
    induction files with
    | nil =>
      intro cm cm' h
      cases h
      exact .refl P _
    | cons f rest ih =>
      intro cm cm' h
      rw [createAppProtectResourceFiles] at h
      split at h
      · cases h
      · rename_i written hwrite
        exact (createFileAndWrite_changesOnly (hP f) hwrite).trans (ih written cm' h)
  unfold writeProtectFiles
  split
  · exact .refl P cnf
  · rename_i cm h
    exact hframe cnf.manager cm h

section Ingress

variable (hversion : P configVersionFilename) (hdefault : P defaultServerConfFilename)
  (hprotect : ∀ f : ProtectFile, P f.path)

include hversion hdefault

theorem keepsOutside_syncDefaultServerConfig :
    KeepsOutside P cnf (cnf.syncDefaultServerConfig host shared).2 := by
  unfold syncDefaultServerConfig writeDefaultServer
  split
  · exact .refl P cnf
  · split
    · exact .refl P cnf
    · rw [Prod.map_snd, id_eq]
      refine createConfig_changesOnly ?_ hversion
      rwa [getFilenameForConfig_defaultServer]

theorem keepsOutside_writeIngress (hpath : P (ingressPath m)) (described : String)
    (emptyHost : Bool) (content : String) :
    KeepsOutside P cnf (cnf.writeIngress host shared described m emptyHost content).2 := by
  have hname : P (getFilenameForConfig (ingressConfigName m emptyHost)) := by
    unfold ingressConfigName
    split
    · rwa [getFilenameForConfig_defaultServer]
    · exact hpath
  have hstale : ∀ cnf : Configurator, KeepsOutside P cnf (cnf.deleteStaleConfig m emptyHost) := by
    intro cnf
    unfold deleteStaleConfig
    split
    · exact deleteConfig_changesOnly hpath
    · exact .refl P cnf
  unfold writeIngress
  dsimp only
  refine keepsOutside_andThen ?_ fun _ cnf' => ?_
  · rw [Prod.map_snd, id_eq]
    exact createConfig_changesOnly hname hversion
  · refine keepsOutside_andThen ?_ fun _ _ => .refl P _
    rw [Prod.map_snd, id_eq]
    exact (hstale cnf').trans (keepsOutside_syncDefaultServerConfig hversion hdefault)

include hprotect

theorem keepsOutside_renderedIngress (hpath : P (ingressPath m)) (described : String)
    (emptyHost : Bool) (protectFiles : List ProtectFile) (content : Except String String) :
    KeepsOutside P cnf
      (cnf.renderedIngress host shared described m emptyHost protectFiles content).2 := by
  refine keepsOutside_andThen (keepsOutside_writeProtectFiles hprotect protectFiles) ?_
  intro _ cnf'
  cases content with
  | error err => exact .refl P cnf'
  | ok content =>
    exact keepsOutside_writeIngress hversion hdefault hpath described emptyHost content

omit hprotect

theorem keepsOutside_deleteIngress (hpath : P (ingressPath m)) (skipReload : Bool) :
    KeepsOutside P cnf (cnf.deleteIngress host shared (getResourceKey m) skipReload).2 := by
  have hdelete : KeepsOutside P cnf (cnf.deleteIngressConfig (objectMetaToFileName m)) := by
    unfold deleteIngressConfig
    split
    · exact .refl P cnf
    · exact deleteConfig_changesOnly hpath
  have hsynced : KeepsOutside P cnf
      (((cnf.deleteIngressConfig (objectMetaToFileName m)).forgetIngress
        (objectMetaToFileName m)).syncDefaultServerConfig host shared).2 :=
    hdelete.trans (keepsOutside_syncDefaultServerConfig hversion hdefault)
  unfold deleteIngress
  rw [keyToFileName_getResourceKey]
  dsimp only
  split
  · exact hsynced
  · exact keepsOutside_reloadAfter hversion _ hsynced

omit hversion hdefault in
theorem deleteIngress_skip :
    (cnf.deleteIngress host shared (getResourceKey m) true).2 =
      (((cnf.deleteIngressConfig (objectMetaToFileName m)).forgetIngress
        (objectMetaToFileName m)).syncDefaultServerConfig host shared).2 := by
  unfold deleteIngress
  rw [keyToFileName_getResourceKey]
  dsimp only
  rw [if_pos rfl, Prod.map_snd]
  rfl

end Ingress

section VirtualServer

theorem keepsOutside_addOrUpdateVirtualServer (hversion : P configVersionFilename)
    (hprotect : ∀ f : ProtectFile, P f.path) (hserver : P (serverPath m)) (hoidc : P (oidcPath m))
    (hasOIDC : Bool) (protectFiles : List ProtectFile)
    (rendered : Except String RenderedVirtualServer) :
    KeepsOutside P cnf (cnf.addOrUpdateVirtualServer host m hasOIDC protectFiles rendered).2 := by
  have hwritten : ∀ (cm : ConfigRollbackManager) (rendered : RenderedVirtualServer),
      FileTree.ChangesOnly P cm.files (writeVirtualServer host cm m rendered).2.files := by
    intro cm rendered
    have hfirst : FileTree.ChangesOnly P cm.files (writeOIDC host cm m rendered.oidc).2.files := by
      unfold writeOIDC
      split
      · exact .refl P _
      · exact createLocalConfig_changesOnly hoidc
    unfold writeVirtualServer
    split
    · rename_i changed cm' h
      rw [h] at hfirst
      have hsecond : FileTree.ChangesOnly P cm'.files
          (cm'.createConfig host (getFileNameForVirtualServer m) rendered.server).2.files :=
        createConfig_changesOnly hserver hversion
      split
      all_goals
        rename_i h'
        rw [h'] at hsecond
        exact hfirst.trans hsecond
    · exact hfirst
  refine keepsOutside_andThen (keepsOutside_writeProtectFiles hprotect protectFiles) ?_
  intro _ cnf'
  cases rendered with
  | error err => exact .refl P cnf'
  | ok rendered =>
    exact keepsOutside_andThen (hwritten cnf'.manager rendered) fun _ => .refl P

theorem keepsOutside_deleteVirtualServer (hversion : P configVersionFilename)
    (hserver : P (serverPath m)) (hoidc : P (oidcPath m)) (skipReload : Bool) :
    KeepsOutside P cnf (cnf.deleteVirtualServer host (getResourceKey m) skipReload).2 := by
  have hforgotten : KeepsOutside P cnf
      ((({ cnf with manager := cnf.manager.deleteConfig (serverPath m) } :
        Configurator).deleteOIDCConfig
          cnf.virtualServers[(getFileNameForVirtualServer m).val]?).forgetVirtualServer
            (getFileNameForVirtualServer m)) := by
    refine FileTree.ChangesOnly.trans (deleteConfig_changesOnly hserver) ?_
    unfold deleteOIDCConfig
    split
    · exact .refl P _
    rename_i recorded hrecorded
    split
    · refine deleteConfig_changesOnly ?_
      obtain ⟨hnspace, hname⟩ := joinNames_inj (Subtype.ext (cnf.named _ recorded hrecorded))
      have heq : getFileNameForOIDCVirtualServer recorded.objectMeta =
          getFileNameForOIDCVirtualServer m := by
        apply Subtype.ext
        dsimp only [getFileNameForOIDCVirtualServer, joinNames]
        rw [hnspace, hname]
      rw [heq]
      exact hoidc
    · exact .refl P _
  unfold deleteVirtualServer
  rw [getFileNameForVirtualServerFromKey_getResourceKey]
  dsimp only
  split
  · exact hforgotten
  · exact keepsOutside_reloadAfter hversion _ hforgotten

end VirtualServer

section TransportServer

variable (hversion : P configVersionFilename) (hhosts : P tlsPassthroughHostsFilename)

include hhosts

theorem keepsOutside_updateTLSPassthroughHostsConfig :
    KeepsOutside P cnf (cnf.updateTLSPassthroughHostsConfig host shared).2 := by
  unfold updateTLSPassthroughHostsConfig
  split
  · exact .refl P cnf
  · exact createLocalConfig_changesOnly hhosts

include hversion

theorem keepsOutside_addOrUpdateTransportServer (hpath : P (transportServerPath m))
    (content : Except String String) (passthrough : Option TlsPassthroughPair) :
    KeepsOutside P cnf (cnf.addOrUpdateTransportServer host shared m content passthrough).2 := by
  unfold addOrUpdateTransportServer
  cases content with
  | error err => exact .refl P cnf
  | ok content =>
    dsimp only
    refine keepsOutside_andThen ?_ fun changed cnf' => ?_
    · rw [Prod.map_snd, id_eq]
      exact createStreamConfig_changesOnly hpath hversion
    unfold writePassthrough
    split
    · exact .refl P cnf'
    · rename_i pair
      have hhosts : KeepsOutside P cnf' ((cnf'.recordPassthrough m
          pair).updateTLSPassthroughHostsConfig host shared).2 :=
        keepsOutside_updateTLSPassthroughHostsConfig hhosts
      exact keepsOutside_andThen hhosts fun _ cnf => .refl P cnf

theorem keepsOutside_deleteTransportServer (hpath : P (transportServerPath m)) :
    KeepsOutside P cnf (cnf.deleteTransportServer host shared (getResourceKey m)).2 := by
  have hforgotten : ∀ cnf : Configurator,
      KeepsOutside P cnf (cnf.forgetPassthrough host shared (getResourceKey m)).2 := by
    intro cnf
    unfold forgetPassthrough
    split
    · have hhosts : KeepsOutside P cnf (({ cnf with
          tlsPassthroughPairs := cnf.tlsPassthroughPairs.erase (getResourceKey m) } :
            Configurator).updateTLSPassthroughHostsConfig host shared).2 :=
        keepsOutside_updateTLSPassthroughHostsConfig hhosts
      exact hhosts
    · exact .refl P cnf
  unfold deleteTransportServer
  rw [getFileNameForTransportServerFromKey_getResourceKey]
  dsimp only
  refine keepsOutside_reloadAfter hversion _ ?_
  rw [Prod.map_snd, id_eq]
  exact FileTree.ChangesOnly.trans (deleteConfig_changesOnly hpath) (hforgotten _)

end TransportServer

section Secret

theorem keepsOutside_createSecret {name : String} (hpath : P (getFilenameForSecret name))
    (content : String) : KeepsOutside P cnf (cnf.createSecret host name content).2 := by
  unfold createSecret
  split
  · exact .refl P cnf
  · rename_i cm h
    exact (createFileAndWrite_changesOnly hpath h :)

theorem keepsOutside_addOrUpdateSecret {type : SecretType}
    (hparts : ∀ part ∈ secretParts type, P (secretPath m part)) (contents : SecretContents) :
    KeepsOutside P cnf (cnf.addOrUpdateSecret host m type contents).2 := by
  unfold addOrUpdateSecret
  unfold secretParts at hparts
  dsimp only
  split
  · rename_i hca
    rw [if_pos hca] at hparts
    have hcrt := hparts ("-" ++ caCrtKey) (by simp)
    have hcrl := hparts ("-" ++ caCrlKey) (by simp)
    unfold secretPath at hcrt hcrl
    rw [← append_assoc] at hcrt hcrl
    have hfirst : KeepsOutside P cnf (cnf.createSecret host _ contents.caCrt).2 :=
      keepsOutside_createSecret hcrt contents.caCrt
    unfold addOrUpdateCASecret
    split
    · rename_i h
      rw [h] at hfirst
      exact hfirst
    · rename_i h
      rw [h] at hfirst
      exact hfirst.trans (keepsOutside_createSecret hcrl contents.caCrl)
  · rename_i hca
    rw [if_neg hca] at hparts
    split
    · exact .refl P cnf
    rename_i hnone
    rw [if_neg hnone] at hparts
    have hfile := hparts "" (by simp)
    unfold secretPath at hfile
    rw [append_empty] at hfile
    exact keepsOutside_createSecret hfile contents.file

theorem keepsOutside_deleteSecret (hpath : P (secretPath m "")) :
    KeepsOutside P cnf (cnf.deleteSecret (getResourceKey m)) := by
  unfold secretPath at hpath
  rw [append_empty] at hpath
  unfold deleteSecret
  rw [keyToFileName_getResourceKey]
  exact deleteConfig_changesOnly hpath

end Secret

end Configurator

open Configurator

theorem Operation.keepsOutside_updated {host : Host} {P : String → Prop} {cnf : Configurator}
    (hversion : P configVersionFilename) (described : String) (m : ObjectMeta) (reloaded : String)
    {result : Outcome × Configurator} (h : KeepsOutside P cnf result.2) :
    KeepsOutside P cnf (updated host described m reloaded result).2 := by
  unfold updated
  exact keepsOutside_reloadAfter hversion _ h

theorem Operation.keepsOutside_run (host : Host) (shared : SharedTemplates) (cnf : Configurator)
    (op : Operation) :
    KeepsOutside (fun p => p ∈ op.target.touched ∨ IsShared p) cnf (op.run host shared cnf) := by
  have hversion : IsShared configVersionFilename := .inl rfl
  have hdefault : IsShared defaultServerConfFilename := .inr (.inl rfl)
  have hhosts : IsShared tlsPassthroughHostsFilename := .inr (.inr (.inl rfl))
  have hprotect : ∀ f : ProtectFile, IsShared f.path := fun f => .inr (.inr (.inr ⟨f, rfl⟩))
  cases op with
  | addOrUpdateIngress m | addOrUpdateMergeableIngress m =>
    exact keepsOutside_updated (.inr hversion) _ m _
      (keepsOutside_renderedIngress (.inr hversion) (.inr hdefault)
        (fun f => .inr (hprotect f)) (.inl (mem_singleton.mpr rfl)) _ _ _ _)
  | deleteIngress m skipReload =>
    exact keepsOutside_deleteIngress (.inr hversion) (.inr hdefault)
      (.inl (mem_singleton.mpr rfl)) skipReload
  | addOrUpdateVirtualServer m hasOIDC hasWeights protectFiles rendered =>
    refine keepsOutside_updated (.inr hversion) _ m _ ?_
    refine keepsOutside_andThen ?_ fun _ cnf => .refl _ cnf
    exact keepsOutside_addOrUpdateVirtualServer (.inr hversion)
      (fun f => .inr (hprotect f)) (.inl mem_cons_self)
      (.inl (mem_cons_of_mem _ mem_cons_self)) _ _ _
  | deleteVirtualServer m skipReload =>
    exact keepsOutside_deleteVirtualServer (.inr hversion)
      (.inl mem_cons_self) (.inl (mem_cons_of_mem _ mem_cons_self)) skipReload
  | addOrUpdateTransportServer m content passthrough =>
    exact keepsOutside_updated (.inr hversion) _ m _
      (keepsOutside_addOrUpdateTransportServer (.inr hversion) (.inr hhosts)
        (.inl (mem_singleton.mpr rfl)) content passthrough)
  | deleteTransportServer m =>
    exact keepsOutside_deleteTransportServer (.inr hversion) (.inr hhosts)
      (.inl (mem_singleton.mpr rfl))
  | addOrUpdateSecret m type contents =>
    refine keepsOutside_addOrUpdateSecret (fun part hpart => .inl ?_) contents
    exact mem_cons_of_mem _ (List.mem_map_of_mem hpart)
  | deleteSecret m type =>
    exact keepsOutside_deleteSecret (.inl mem_cons_self)

/-! ## Files of different kinds -/

/-- The kind of object whose file a path is. -/
def kindOf (p : String) : ObjectKind :=
  if p.toList[11]? = some 's' then
    if p.toList[12]? = some 't' then .transportServer else .secret
  else if '_' ∈ p.toList then .virtualServer else .ingress

variable (m : ObjectMeta)

theorem letters_secret (part : String) :
    (secretPath m part).toList[11]? = some 's' ∧ (secretPath m part).toList[12]? = some 'e' :=
  ⟨letter_of_append (by decide) _, letter_of_append (by decide) _⟩

theorem letters_transportServer : (transportServerPath m).toList[11]? = some 's' ∧
      (transportServerPath m).toList[12]? = some 't' := by
  exact ⟨letter_streamConf _, letter_of_append (letter_of_append (by decide) _) _⟩

theorem score_not_mem_ingressPath : '_' ∉ (ingressPath m).toList := by
  have hscore : isNameChar '_' = false := by decide
  change '_' ∉ ("/etc/nginx/conf.d/" ++ ("" ++ m.nspace.val ++ "-" ++ m.name.val) ++ ".conf").toList
  simp only [toList_append, List.mem_append, not_or]
  exact ⟨⟨by decide, ⟨⟨by decide, m.nspace.not_mem hscore⟩, by decide⟩, m.name.not_mem hscore⟩,
    by decide⟩

theorem score_mem_serverPath : '_' ∈ (serverPath m).toList := by
  change '_' ∈ ("/etc/nginx/conf.d/" ++ ("vs_" ++ m.nspace.val ++ "_" ++ m.name.val) ++
    ".conf").toList
  simp [toList_append]

theorem score_mem_oidcPath : '_' ∈ (oidcPath m).toList := by
  change '_' ∈ ("/etc/nginx/oidc-conf.d/" ++ ("oidc_" ++ m.nspace.val ++ "_" ++ m.name.val) ++
    ".conf").toList
  simp [toList_append]

variable {o : Object} {p : String}

theorem kindOf_of_mem_touched (h : p ∈ o.touched) : kindOf p = o.kind := by
  have hsecret : ∀ m part, kindOf (secretPath m part) = .secret := by
    intro m part
    obtain ⟨hs, he⟩ := letters_secret m part
    rw [kindOf, if_pos hs, if_neg (by rw [he]; decide)]
  cases o with
  | ingress m =>
    have hp : p = ingressPath m := mem_singleton.mp h
    have hc : (ingressPath m).toList[11]? = some 'c' := letter_conf _
    rw [hp, kindOf, if_neg (by rw [hc]; decide), if_neg (score_not_mem_ingressPath m)]
    rfl
  | virtualServer m =>
    rcases mem_pair.mp h with rfl | rfl
    · have hc : (serverPath m).toList[11]? = some 'c' := letter_conf _
      rw [kindOf, if_neg (by rw [hc]; decide), if_pos (score_mem_serverPath m)]
      rfl
    · have ho : (oidcPath m).toList[11]? = some 'o' := letter_oidcConf _
      rw [kindOf, if_neg (by rw [ho]; decide), if_pos (score_mem_oidcPath m)]
      rfl
  | transportServer m =>
    have hp : p = transportServerPath m := mem_singleton.mp h
    obtain ⟨hs, ht⟩ := letters_transportServer m
    rw [hp, kindOf, if_pos hs, if_pos ht]
    rfl
  | secret m type =>
    rcases mem_cons.mp h with rfl | h
    · exact hsecret m ""
    · obtain ⟨part, -, rfl⟩ := mem_map.mp h
      exact hsecret m part

theorem letter_of_isShared (h : IsShared p) :
    p = configVersionFilename ∨ p = defaultServerConfFilename ∨
      ∃ c ∈ ['t', 'w', 'd'], p.toList[11]? = some c := by
  obtain h | h | rfl | ⟨f, rfl⟩ := h
  · exact .inl h
  · exact .inr (.inl h)
  · exact .inr (.inr ⟨'t', by decide⟩)
  · obtain hf | hf := letter_protect f
    · exact .inr (.inr ⟨'w', by decide, hf⟩)
    · exact .inr (.inr ⟨'d', by decide, hf⟩)

theorem not_shared_of_mem_files (h : p ∈ o.files) : ¬ IsShared p := by
  have hletter : ∀ c ∈ ['s', 'o'], p.toList[11]? = some c → ¬ IsShared p := by
    intro c hc hp hshared
    obtain rfl | rfl | ⟨d, hd, hp'⟩ := letter_of_isShared hshared
    · cases hp
      exact absurd hc (by decide)
    · cases hp
      exact absurd hc (by decide)
    · cases hp.symm.trans hp'
      exact (by simp : ∀ d ∈ ['t', 'w', 'd'], d ∉ ['s', 'o']) c hd hc
  have hconf : ∀ name : FileName, name ≠ defaultServerConfigName →
      ¬ IsShared (getFilenameForConfig name) := by
    intro name hname hshared
    obtain heq | heq | ⟨c, hc, heq⟩ := letter_of_isShared hshared
    · exact getFilenameForConfig_ne_version name heq
    · rw [← getFilenameForConfig_defaultServer] at heq
      exact hname (getFilenameForConfig_inj heq)
    · cases (letter_conf name).symm.trans heq
      exact absurd hc (by decide)
  cases o with
  | ingress m =>
    have hp : p = ingressPath m := mem_singleton.mp h
    rw [hp]
    refine hconf _ fun heq => ?_
    have hscore := score_not_mem_ingressPath m
    unfold ingressPath at hscore
    rw [heq] at hscore
    exact hscore (by decide)
  | virtualServer m =>
    rcases mem_pair.mp h with rfl | rfl
    · exact hconf _ (getFileNameForVirtualServer_ne_default m)
    exact hletter 'o' (by decide) (letter_oidcConf (getFileNameForOIDCVirtualServer m))
  | transportServer m =>
    have hp : p = transportServerPath m := mem_singleton.mp h
    exact hletter 's' (by decide) (hp ▸ (letters_transportServer m).1)
  | secret m type =>
    obtain ⟨part, -, rfl⟩ := mem_map.mp h
    exact hletter 's' (by decide) (letters_secret m part).1

/-- Names for which two objects of one kind have a common file. -/
def Clash : Object → Object → Prop
  | .ingress m, .ingress m' => SameJoin "-" m.nspace.val m.name.val m'.nspace.val m'.name.val
  | .secret m type, .secret m' type' =>
    ∃ part ∈ "" :: secretParts type, ∃ part' ∈ secretParts type',
      SameJoin "-" m.nspace.val (m.name.val ++ part) m'.nspace.val (m'.name.val ++ part')
  | _, _ => False

/-- No operation on the first object changes a file of the second, and they have no common file. -/
def IsIsolatedFrom (o o' : Object) : Prop :=
  (∀ host shared cnf (op : Operation), op.target = o → ∀ p ∈ o'.files,
    (op.run host shared cnf).manager.files[p]? = cnf.manager.files[p]?) ∧
  ∀ p ∈ o.files, p ∉ o'.files

variable {m m' : ObjectMeta}

theorem ingressPath_eq_iff :
    ingressPath m = ingressPath m' ↔
      SameJoin "-" m.nspace.val m.name.val m'.nspace.val m'.name.val := by
  have hname : ∀ m : ObjectMeta, (objectMetaToFileName m).val =
      m.nspace.val ++ singleton '-' ++ m.name.val := by
    intro m
    change "" ++ m.nspace.val ++ "-" ++ m.name.val = _
    rw [String.empty_append]
    rfl
  rw [show "-" = singleton '-' from rfl, ← join_eq_iff, ← hname, ← hname]
  constructor
  · intro h
    rw [getFilenameForConfig_inj h]
  · intro h
    unfold ingressPath
    rw [Subtype.ext h]

variable {part : String}

theorem secretPath_eq_iff {part' : String} :
    secretPath m part = secretPath m' part' ↔
      SameJoin "-" m.nspace.val (m.name.val ++ part) m'.nspace.val (m'.name.val ++ part') := by
  have hpath : ∀ (m : ObjectMeta) part, secretPath m part =
      "/etc/nginx/secrets/" ++ (m.nspace.val ++ singleton '-' ++ (m.name.val ++ part)) := by
    intro m part
    change "/etc/nginx/secrets/" ++ ("" ++ m.nspace.val ++ "-" ++ m.name.val ++ part) = _
    have hassoc : m.nspace.val ++ "-" ++ m.name.val ++ part =
        m.nspace.val ++ "-" ++ (m.name.val ++ part) := append_assoc
    rw [String.empty_append, hassoc]
    rfl
  rw [show "-" = singleton '-' from rfl, ← join_eq_iff, hpath, hpath,
    String.append_right_inj]

theorem virtualServer_same
    (h : p ∈ (Object.virtualServer m).files) (h' : p ∈ (Object.virtualServer m').files) :
    m.nspace = m'.nspace ∧ m.name = m'.name := by
  rcases mem_pair.mp h with rfl | rfl
  · rcases mem_pair.mp h' with heq | heq
    · exact joinNames_inj (getFilenameForConfig_inj heq)
    · exact absurd heq (ne_of_letter (by decide) (letter_conf _) (letter_oidcConf _))
  · rcases mem_pair.mp h' with heq | heq
    · exact absurd heq (ne_of_letter (by decide) (letter_oidcConf _) (letter_conf _))
    · exact joinNames_inj (getFilenameForOIDCConfig_inj heq)

theorem clash_of_mem {o' : Object} (hne : ¬ o.IsSame o') (h : p ∈ o.touched)
    (h' : p ∈ o'.files) : Clash o o' := by
  have hkind : o.kind = o'.kind := by
    rw [← kindOf_of_mem_touched h, kindOf_of_mem_touched (Object.files_subset_touched h')]
  have hsame : o.objectMeta.nspace = o'.objectMeta.nspace ∧
      o.objectMeta.name = o'.objectMeta.name → False := fun hmeta => hne ⟨hkind, hmeta⟩
  cases o with
  | ingress m =>
    cases o' with
    | ingress m' =>
      rw [mem_singleton.mp h] at h'
      exact ingressPath_eq_iff.mp (mem_singleton.mp h')
    | _ => cases hkind
  | virtualServer m =>
    cases o' with
    | virtualServer m' => exact (hsame (virtualServer_same h h')).elim
    | _ => cases hkind
  | transportServer m =>
    cases o' with
    | transportServer m' =>
      rw [mem_singleton.mp h] at h'
      exact (hsame (joinNames_inj (getFilenameForStreamConfig_inj (mem_singleton.mp h')))).elim
    | _ => cases hkind
  | secret m type =>
    cases o' with
    | secret m' type' =>
      obtain ⟨part, hpart, rfl⟩ : ∃ part ∈ "" :: secretParts type, secretPath m part = p := by
        rcases mem_cons.mp h with rfl | h
        · exact ⟨"", mem_cons_self, rfl⟩
        · obtain ⟨part, hpart, hp⟩ := mem_map.mp h
          exact ⟨part, mem_cons_of_mem _ hpart, hp⟩
      obtain ⟨part', hpart', heq⟩ := mem_map.mp h'
      exact ⟨part, hpart, part', hpart', secretPath_eq_iff.mp heq.symm⟩
    | _ => cases hkind

def Configurator.withFile (p : String) : Configurator :=
  { manager := { files := (∅ : FileTree).insert p "", loaded := ∅ } }

theorem Configurator.get_withFile (p : String) : (withFile p).manager.files[p]? = some "" := by
  simp [withFile]

def acceptingHost : Host where
  passes _ := true

def failingTemplates : SharedTemplates := ⟨.error "", fun _ => .error ""⟩

theorem deleteIngress_deletes (m : ObjectMeta) :
    ((Operation.deleteIngress m true).run acceptingHost failingTemplates
      (withFile (ingressPath m))).manager.files[ingressPath m]? = none := by
  have hfree : ¬ IsShared (ingressPath m) := by
    have hmem : ingressPath m ∈ (Object.ingress m).files := mem_singleton.mpr rfl
    exact not_shared_of_mem_files hmem
  have hsync : ∀ cnf : Configurator, KeepsOutside IsShared cnf
      (cnf.syncDefaultServerConfig acceptingHost failingTemplates).2 := fun _ =>
    keepsOutside_syncDefaultServerConfig (.inl rfl) (.inr (.inl rfl))
  have hdeleted : (withFile (ingressPath m)).deleteIngressConfig
      (objectMetaToFileName m) = { withFile (ingressPath m) with
        manager := (withFile (ingressPath m)).manager.deleteConfig (ingressPath m) } := by
    unfold deleteIngressConfig
    rw [if_neg (by simp [withFile])]
    rfl
  dsimp only [Operation.run]
  rw [deleteIngress_skip, hsync _ _ hfree, hdeleted]
  dsimp only [forgetIngress]
  rw [deleteConfig_eq, files_update, Table.get_erase, if_pos rfl]

theorem deleteSecret_deletes (m : ObjectMeta) (type : SecretType) :
    ((Operation.deleteSecret m type).run acceptingHost failingTemplates
      (withFile (secretPath m ""))).manager.files[secretPath m ""]? = none := by
  change ((withFile (secretPath m "")).manager.deleteConfig
    (getFilenameForSecret (keyToFileName (getResourceKey m)).val)).files[secretPath m ""]? = none
  unfold secretPath
  rw [keyToFileName_getResourceKey, append_empty, deleteConfig_eq, files_update,
    Table.get_erase, if_pos rfl]

theorem addOrUpdateSecret_writes (m : ObjectMeta) (h : part ∈ secretParts .ca) :
    ((Operation.addOrUpdateSecret m .ca ⟨"", "new", "new"⟩).run acceptingHost failingTemplates
      (withFile (secretPath m part))).manager.files[secretPath m part]? = some "new" := by
  have hparts : part = "-" ++ caCrtKey ∨ part = "-" ++ caCrlKey := mem_pair.mp h
  have hrun : ∀ cnf : Configurator,
      ((Operation.addOrUpdateSecret m .ca ⟨"", "new", "new"⟩).run acceptingHost failingTemplates
        cnf).manager.files =
      (cnf.manager.files.insert (secretPath m ("-" ++ caCrtKey)) "new").insert
        (secretPath m ("-" ++ caCrlKey)) "new" := by
    intro cnf
    have hwritable : acceptingHost.IsWritable := fun _ _ => rfl
    unfold secretPath
    rw [← append_assoc, ← append_assoc]
    simp [Operation.run, addOrUpdateSecret, createSecret, addOrUpdateCASecret,
      createFileAndWrite_of_writable hwritable, files_update]
  rw [hrun, Table.get_insert, Table.get_insert]
  rcases hparts with rfl | rfl
  · split
    · rfl
    · simp
  · simp

theorem secretParts_cases {type : SecretType} (h : part ∈ secretParts type) :
    part = "" ∨ type = .ca := by
  unfold secretParts at h
  split at h
  · rename_i hca
    exact .inr hca
  · split at h
    · cases h
    · exact .inl (mem_singleton.mp h)

theorem ingress_not_isolated (h : ingressPath m = ingressPath m') :
    ¬ IsIsolatedFrom (.ingress m) (.ingress m') := by
  rintro ⟨hkept, -⟩
  have hmem : ingressPath m ∈ (Object.ingress m').files := mem_singleton.mpr h
  have hget := hkept acceptingHost failingTemplates (withFile (ingressPath m))
    (.deleteIngress m true) rfl _ hmem
  rw [deleteIngress_deletes, get_withFile] at hget
  cases hget

theorem secret_not_isolated {type type' : SecretType} {part' : String}
    (hpart : part ∈ "" :: secretParts type) (hpart' : part' ∈ secretParts type')
    (h : secretPath m part = secretPath m' part') :
    ¬ IsIsolatedFrom (.secret m type) (.secret m' type') := by
  rintro ⟨hkept, -⟩
  have hmem : secretPath m part ∈ (Object.secret m' type').files :=
    mem_map.mpr ⟨part', hpart', h.symm⟩
  have hcase : part = "" ∨ type = .ca ∧ part ∈ secretParts .ca := by
    rcases mem_cons.mp hpart with rfl | hpart
    · exact .inl rfl
    · rcases secretParts_cases hpart with rfl | rfl
      · exact .inl rfl
      · exact .inr ⟨rfl, hpart⟩
  rcases hcase with rfl | ⟨rfl, hca⟩
  · have hget := hkept acceptingHost failingTemplates (withFile (secretPath m ""))
      (.deleteSecret m type) rfl _ hmem
    rw [deleteSecret_deletes, get_withFile] at hget
    cases hget
  · have hget := hkept acceptingHost failingTemplates (withFile (secretPath m part))
      (.addOrUpdateSecret m .ca ⟨"", "new", "new"⟩) rfl _ hmem
    rw [addOrUpdateSecret_writes m hca, get_withFile] at hget
    exact absurd (Option.some.inj hget) (by decide)

theorem not_isolated_of_clash {o' : Object} (h : Clash o o') : ¬ IsIsolatedFrom o o' := by
  cases o with
  | ingress m =>
    cases o' with
    | ingress m' => exact ingress_not_isolated (ingressPath_eq_iff.mpr h)
    | _ => exact h.elim
  | secret m type =>
    cases o' with
    | secret m' type' =>
      obtain ⟨part, hpart, part', hpart', hjoin⟩ := h
      exact secret_not_isolated hpart hpart' (secretPath_eq_iff.mpr hjoin)
    | _ => exact h.elim
  | virtualServer | transportServer => exact h.elim

/-- Different objects are isolated exactly if their names do not clash. -/
theorem isIsolatedFrom_iff {o o' : Object} (hne : ¬ o.IsSame o') :
    IsIsolatedFrom o o' ↔ ¬ Clash o o' := by
  constructor
  · exact fun h hclash => not_isolated_of_clash hclash h
  intro hclash
  refine ⟨?_, fun p hp hp' => hclash (clash_of_mem hne (Object.files_subset_touched hp) hp')⟩
  rintro host shared cnf op rfl p hp
  refine op.keepsOutside_run host shared cnf p ?_
  rintro (htouched | hshared)
  · exact hclash (clash_of_mem hne htouched hp)
  · exact not_shared_of_mem_files hp hshared

/-- Deleting `shop/eu-tea` deletes the file of `shop-eu/tea`, and the CA Secret `shop/tea`
overwrites the file of the Secret `shop/tea-ca.crt`. -/
theorem operations_reach_other_objects :
    ingressPath (namedMeta "shop-eu" "tea") ∈ (Object.ingress (namedMeta "shop-eu" "tea")).files ∧
    (withFile (ingressPath (namedMeta "shop-eu" "tea"))).manager.files[
      ingressPath (namedMeta "shop-eu" "tea")]? = some "" ∧
    ((Operation.deleteIngress (namedMeta "shop" "eu-tea") true).run acceptingHost failingTemplates
      (withFile (ingressPath (namedMeta "shop-eu" "tea")))).manager.files[
        ingressPath (namedMeta "shop-eu" "tea")]? = none ∧
    secretPath (namedMeta "shop" "tea-ca.crt") "" ∈
      (Object.secret (namedMeta "shop" "tea-ca.crt") .tls).files ∧
    ((Operation.addOrUpdateSecret (namedMeta "shop" "tea") .ca ⟨"", "ca", ""⟩).run acceptingHost
      failingTemplates (withFile (secretPath (namedMeta "shop" "tea-ca.crt") ""))
      ).manager.files[secretPath (namedMeta "shop" "tea-ca.crt") ""]? = some "ca" := by
  refine ⟨?_, ?_, ?_, ?_, ?_⟩ <;> decide +kernel

theorem isIsolatedFrom_iff_teaAndCoffee :
    ¬ (Object.ingress (namedMeta "shop" "tea")).IsSame (.ingress (namedMeta "shop" "coffee")) ∧
      IsIsolatedFrom (.ingress (namedMeta "shop" "tea"))
        (.ingress (namedMeta "shop" "coffee")) := by
  have hne : ¬ (Object.ingress (namedMeta "shop" "tea")).IsSame
      (.ingress (namedMeta "shop" "coffee")) := by
    rintro ⟨-, -, hname⟩
    exact absurd hname (by decide)
  refine ⟨hne, (isIsolatedFrom_iff hne).mpr fun hclash => ?_⟩
  exact absurd (ingressPath_eq_iff.mpr hclash) (by decide +kernel)

end IngressController.Configs
