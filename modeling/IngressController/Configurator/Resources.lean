import IngressController.Configurator.VirtualServerUpdate

/-! # Resources of the Configurator

Adding, updating and deleting a resource is a sequence of calls of the manager. The first call that
fails ends the sequence.
-/

namespace IngressController.Nginx

def getFilenameForSecret (name : String) : String := "/etc/nginx/secrets/" ++ name

/-- The error of a call with the text of its caller. -/
def Outcome.context (text : String) : Outcome → Outcome
  | .failed err => .failed (text ++ err)
  | .returned changed => .returned changed
  | .exited => .exited

/-- The next call, unless the first one failed. -/
def andThen {σ : Type} (first : Outcome × σ) (next : Bool → σ → Outcome × σ) : Outcome × σ :=
  match first with
  | (.returned changed, s) => next changed s
  | (.failed err, s) => (.failed err, s)
  | (.exited, s) => (.exited, s)

end IngressController.Nginx

namespace IngressController.Configs

open Nginx

structure TlsPassthroughPair where
  host : String
  unixSocket : String

/-- The contents of the files that resources share, or the errors of their templates. -/
structure SharedTemplates where
  defaultServer : Except String String
  tlsPassthroughHosts : GoMap TlsPassthroughPair → Except String String

structure RecordedVirtualServer where
  objectMeta : ObjectMeta
  hasOIDC : Bool

/-- For an Ingress it is kept whether it serves the empty host. A VirtualServer is kept under the
name of its file. -/
structure Configurator where
  manager : ConfigRollbackManager
  ingresses : GoMap Bool := ∅
  virtualServers : GoMap RecordedVirtualServer := ∅
  tlsPassthroughPairs : GoMap TlsPassthroughPair := ∅
  isReloadsEnabled : Bool := true
  named : ∀ name recorded, virtualServers[name]? = some recorded →
    (getFileNameForVirtualServer recorded.objectMeta).val = name := by simp

namespace Configurator

variable (host : Host) (shared : SharedTemplates) (cnf : Configurator)

def calls (result : Outcome × ConfigRollbackManager) : Outcome × Configurator :=
  (result.1, { cnf with manager := result.2 })

def reload : Outcome × Configurator :=
  if cnf.isReloadsEnabled then cnf.calls (cnf.manager.reload host) else (.returned false, cnf)

def reloadAfter (text : String) (result : Outcome × Configurator) : Outcome × Configurator :=
  andThen result fun changed cnf =>
    andThen ((cnf.reload host).map (Outcome.context text) id) fun _ cnf => (.returned changed, cnf)

def writeProtectFiles (files : List ProtectFile) : Outcome × Configurator :=
  match createAppProtectResourceFiles host cnf.manager files with
  | none => (.exited, cnf)
  | some cm => cnf.calls (.returned false, cm)

def hasActiveEmptyHostIngress : Bool :=
  cnf.ingresses.keys.any fun name => cnf.ingresses[name]? = some true

def writeDefaultServer (content : Except String String) : Outcome × Configurator :=
  match content with
  | .error err => (.failed ("error generating default server config: " ++ err), cnf)
  | .ok content =>
    (cnf.calls (cnf.manager.createConfig host defaultServerConfigName content)).map
      (Outcome.context "error writing default server config: ") id

def syncDefaultServerConfig : Outcome × Configurator :=
  if cnf.hasActiveEmptyHostIngress then (.returned false, cnf)
  else cnf.writeDefaultServer host shared.defaultServer

variable (m : ObjectMeta) (emptyHost : Bool)

/-- An Ingress for the empty host has no file of its own. -/
def ingressConfigName : FileName :=
  if emptyHost then defaultServerConfigName else objectMetaToFileName m

/-- The file of an Ingress that has moved to the file of the default server is stale. -/
def deleteStaleConfig : Configurator :=
  if emptyHost ∧ cnf.ingresses[(objectMetaToFileName m).val]? = some false then
    { cnf with
      manager := cnf.manager.deleteConfig (getFilenameForConfig (objectMetaToFileName m)) }
  else cnf

def recordIngress : Configurator :=
  { cnf with ingresses := cnf.ingresses.insert (objectMetaToFileName m).val emptyHost }

def writeIngress (described : String) (m : ObjectMeta) (emptyHost : Bool) (content : String) :
    Outcome × Configurator :=
  let name := ingressConfigName m emptyHost
  andThen ((cnf.calls (cnf.manager.createConfig host name content)).map
      (Outcome.context ("error validating Ingress config " ++ name.val ++ ": ")) id)
    fun changed cnf =>
      let recorded := (cnf.deleteStaleConfig m emptyHost).recordIngress m emptyHost
      andThen ((recorded.syncDefaultServerConfig host shared).map
          (Outcome.context ("error syncing default server config for " ++ described ++ " " ++
            (objectMetaToFileName m).val ++ ": ")) id)
        fun _ cnf => (.returned changed, cnf)

def renderedIngress (described : String) (m : ObjectMeta) (emptyHost : Bool)
    (protectFiles : List ProtectFile) (content : Except String String) : Outcome × Configurator :=
  andThen (cnf.writeProtectFiles host protectFiles) fun _ cnf =>
    match content with
    | .error err =>
      (.failed ("error generating Ingress Config " ++ (ingressConfigName m emptyHost).val ++
        ": " ++ err), cnf)
    | .ok content => cnf.writeIngress host shared described m emptyHost content

def addOrUpdateIngress (protectFiles : List ProtectFile)
    (content : Except String String) : Outcome × Configurator :=
  cnf.renderedIngress host shared "ingress" m emptyHost protectFiles content

def addOrUpdateMergeableIngress
    (protectFiles : List ProtectFile) (content : Except String String) : Outcome × Configurator :=
  cnf.renderedIngress host shared "mergeable ingress" m emptyHost protectFiles content

/-- An Ingress for the empty host leaves the file of the default server to the next write. -/
def deleteIngressConfig (name : FileName) : Configurator :=
  if cnf.ingresses[name.val]? = some true then cnf
  else { cnf with manager := cnf.manager.deleteConfig (getFilenameForConfig name) }

def forgetIngress (name : FileName) : Configurator :=
  { cnf with ingresses := cnf.ingresses.erase name.val }

variable (key : String)

def deleteIngress (skipReload : Bool) : Outcome × Configurator :=
  let deleted := (cnf.deleteIngressConfig (keyToFileName key)).forgetIngress (keyToFileName key)
  let synced := (deleted.syncDefaultServerConfig host shared).map
    (Outcome.context ("error syncing default server config after deleting ingress " ++ key ++
      ": ")) id
  if skipReload then synced
  else reloadAfter host ("error when removing ingress " ++ key ++ ": ") synced

def recordVirtualServer (hasOIDC : Bool) : Configurator :=
  { cnf with
    virtualServers := cnf.virtualServers.insert (getFileNameForVirtualServer m).val ⟨m, hasOIDC⟩
    named := by
      intro name recorded h
      rw [Table.get_insert] at h
      split at h
      · rename_i hname
        cases h
        exact hname
      · exact cnf.named name recorded h }

def addOrUpdateVirtualServer (hasOIDC : Bool) (protectFiles : List ProtectFile)
    (rendered : Except String RenderedVirtualServer) : Outcome × Configurator :=
  andThen (cnf.writeProtectFiles host protectFiles) fun _ cnf =>
    match rendered with
    | .error err => (.failed err, cnf)
    | .ok rendered =>
      andThen (cnf.calls (writeVirtualServer host cnf.manager m rendered)) fun changed cnf =>
        (.returned changed, cnf.recordVirtualServer m hasOIDC)

def deleteOIDCConfig (recorded : Option RecordedVirtualServer) : Configurator :=
  match recorded with
  | none => cnf
  | some recorded =>
    if recorded.hasOIDC then
      { cnf with
        manager := cnf.manager.deleteConfig
          (getFilenameForOIDCConfig (getFileNameForOIDCVirtualServer recorded.objectMeta)) }
    else cnf

def forgetVirtualServer (name : FileName) : Configurator :=
  { cnf with
    virtualServers := cnf.virtualServers.erase name.val
    named := by
      intro name' recorded h
      rw [Table.get_erase] at h
      split at h
      · cases h
      · exact cnf.named name' recorded h }

def deleteVirtualServer (skipReload : Bool) : Outcome × Configurator :=
  let name := getFileNameForVirtualServerFromKey key
  let deleted : Configurator :=
    { cnf with manager := cnf.manager.deleteConfig (getFilenameForConfig name) }
  let forgotten := (deleted.deleteOIDCConfig cnf.virtualServers[name.val]?).forgetVirtualServer name
  if skipReload then (.returned true, forgotten)
  else reloadAfter host ("error when removing VirtualServer " ++ key ++ ": ")
    (.returned true, forgotten)

def updateTLSPassthroughHostsConfig : Outcome × Configurator :=
  match shared.tlsPassthroughHosts cnf.tlsPassthroughPairs with
  | .error err =>
    (.failed ("error generating config for TLS Passthrough Unix Sockets map: " ++ err), cnf)
  | .ok content => cnf.calls (cnf.manager.createTLSPassthroughHostsConfig host content)

def recordPassthrough (pair : TlsPassthroughPair) : Configurator :=
  { cnf with tlsPassthroughPairs := cnf.tlsPassthroughPairs.insert (getResourceKey m) pair }

def writePassthrough (passthrough : Option TlsPassthroughPair) (changed : Bool) :
    Outcome × Configurator :=
  match passthrough with
  | none => (.returned changed, cnf)
  | some pair =>
    andThen ((cnf.recordPassthrough m pair).updateTLSPassthroughHostsConfig host shared)
      fun ptChanged cnf => (.returned (changed || ptChanged), cnf)

def addOrUpdateTransportServer (content : Except String String)
    (passthrough : Option TlsPassthroughPair) : Outcome × Configurator :=
  let name := getFileNameForTransportServer m
  match content with
  | .error err =>
    (.failed ("error generating TransportServer config " ++ name.val ++ ": " ++ err), cnf)
  | .ok content =>
    andThen ((cnf.calls (cnf.manager.createStreamConfig host name content)).map
        (Outcome.context ("error validating TransportServer config " ++ name.val ++ ": ")) id)
      fun changed cnf => cnf.writePassthrough host shared m passthrough changed

def forgetPassthrough : Outcome × Configurator :=
  if key ∈ cnf.tlsPassthroughPairs then
    ({ cnf with tlsPassthroughPairs := cnf.tlsPassthroughPairs.erase key } :
      Configurator).updateTLSPassthroughHostsConfig host shared
  else (.returned true, cnf)

def deleteTransportServer : Outcome × Configurator :=
  let deleted : Configurator :=
    { cnf with
      manager := cnf.manager.deleteConfig
        (getFilenameForStreamConfig (getFileNameForTransportServerFromKey key)) }
  reloadAfter host ("error when removing TransportServer " ++ key ++ ": ")
    ((deleted.forgetPassthrough host shared key).map
      (Outcome.context ("error when removing TransportServer " ++ key ++ ": ")) id)

end Configurator

def caCrtKey : String := "ca.crt"

def secretTypeLicense : SecretType := .other "nginx.com/license"

structure SecretContents where
  file : String := ""
  caCrt : String := ""
  caCrl : String := ""

namespace Configurator

variable (host : Host) (shared : SharedTemplates) (cnf : Configurator)

/-- The path of the new file; `none` ends the process. -/
def createSecret (name content : String) : Option String × Configurator :=
  match cnf.manager.createFileAndWrite host (getFilenameForSecret name) content with
  | none => (none, cnf)
  | some cm => (some (getFilenameForSecret name), { cnf with manager := cm })

def addOrUpdateCASecret (crtFileName crlFileName : String) (contents : SecretContents) :
    Option String × Configurator :=
  match cnf.createSecret host crtFileName contents.caCrt with
  | (none, cnf) => (none, cnf)
  | (some crtFilePath, cnf) =>
    (cnf.createSecret host crlFileName contents.caCrl).map
      (Option.map fun crlFilePath => crtFilePath ++ " " ++ crlFilePath) id

/-- Which contents a type has on disk. -/
def addOrUpdateSecret (m : ObjectMeta) (type : SecretType) (contents : SecretContents) :
    Option String × Configurator :=
  let name := (objectMetaToFileName m).val
  if type = .ca then
    cnf.addOrUpdateCASecret host (name ++ "-" ++ caCrtKey) (name ++ "-" ++ caCrlKey) contents
  else if type = .oidc ∨ type = .apiKey ∨ type = secretTypeLicense then (some "", cnf)
  else cnf.createSecret host name contents.file

def deleteSecret (key : String) : Configurator :=
  { cnf with manager := cnf.manager.deleteConfig (getFilenameForSecret (keyToFileName key)) }

end Configurator

end IngressController.Configs
