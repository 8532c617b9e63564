import IngressController.Configuration.Listeners
import IngressController.Validation.Buffers

/-! # Operations on the configuration

Every operation stores or removes one object and rebuilds what depends on it. The
host table is left alone until startup is complete; the listener table is not.
The last two operations are those of the dynamic weight path, which writes the
stores from outside.
-/

namespace IngressController

open Validation (balanceProxiesForUpstreams)

structure Report where
  changes : List ResourceChange := []
  problems : List ConfigurationProblem := []

namespace Configuration

variable (env : Env) (ord : Order)

/-! ## Minion index -/

variable (key : String)

def removeMinionFromIndex (minionsByHost : GoMap (GoMap Bool)) : GoMap (GoMap Bool) :=
  let found := (ord.visit .minionIndex minionsByHost.keys).find? fun host =>
    ((minionsByHost[host]?).getD ∅)[key]? = some true
  match found with
  | none => minionsByHost
  | some host =>
    let keys := ((minionsByHost[host]?).getD ∅).erase key
    if keys.isEmpty then minionsByHost.erase host else minionsByHost.insert host keys

def updateMinionIndex (ing : Option Ingress) (minionsByHost : GoMap (GoMap Bool)) :
    GoMap (GoMap Bool) :=
  let removed := removeMinionFromIndex ord key minionsByHost
  match ing with
  | some ing =>
    if isMinion ing && !ing.spec.rules.isEmpty then
      removed.insert ing.firstHost (((removed[ing.firstHost]?).getD ∅).insert key true)
    else removed
  | none => removed

/-! ## Rebuilding -/

variable (c : Configuration)

def rebuildHostsAfterStartup : Configuration × Report :=
  if c.startupComplete then
    let (c', changes, problems) := rebuildHosts env c ord
    (c', { changes, problems })
  else (c, {})

def rebuildBoth (hostsToo : Bool) (c : Configuration) : Configuration × Report :=
  let (c', changes, problems) := rebuildListenerHosts c ord
  if hostsToo then
    let (c'', hosts) := rebuildHostsAfterStartup env ord c'
    (c'', { changes := changes ++ hosts.changes, problems := problems ++ hosts.problems })
  else (c', { changes, problems })

/-! ## Rejections -/

def rejected (object : ConfigurationObject) (message : String) : ConfigurationProblem :=
  ⟨object, true, eventReasonRejected, message⟩

def rejectedWithError (kind : String) (m : ObjectMeta) (err : String) : String :=
  kind ++ " " ++ getResourceKey m ++ " was rejected with error: " ++ err

/-- Put the error into the first change of a resource; `none` if it has no change. -/
def attachError (keyWithKind err : String) : List ResourceChange → Option (List ResourceChange)
  | [] => none
  | change :: rest =>
    if change.resource.getKeyWithKind = keyWithKind then some ({ change with error := err } :: rest)
    else (attachError keyWithKind err rest).map (change :: ·)

/-- Report a validation error with the change that removes the resource or, when there is no such
change, as a problem. -/
def Report.reject (keyWithKind err : String) (problem : ConfigurationProblem) (report : Report) :
    Report :=
  match attachError keyWithKind err report.changes with
  | some changes => { report with changes }
  | none => { report with problems := report.problems ++ [problem] }

/-- Before startup is complete a rejection is always a problem: there are no changes. -/
def Report.rejectIf (keyWithKind : String) (problem : String → ConfigurationProblem)
    (validationError : Option String) (report : Report) : Report :=
  match validationError with
  | some err => Report.reject keyWithKind err (problem err) report
  | none => report

/-! ## Ingresses -/

def storeIngress (ing : Ingress) (c : Configuration) : Configuration × Option String :=
  let correctClass := env.hasCorrectIngressClass (.ingress ing)
  let err := env.validateIngress ing
  let (ingresses, validationError) := c.ingresses.accept correctClass err ing
  let indexed := if correctClass && err.isNone then some ing else none
  ({ c with
      ingresses
      minionsByHost := updateMinionIndex ord (objectKey ing) indexed c.minionsByHost },
    validationError)

def addOrUpdateIngress (ing : Ingress) (c : Configuration) : Configuration × Report :=
  let (stored, validationError) := storeIngress env ord ing c
  let (c', report) := rebuildHostsAfterStartup env ord stored
  (c', Report.rejectIf (getResourceKeyWithKind ingressKind ing.objectMeta)
    (rejected (.ingress ing)) validationError report)

def deleteIngress : Configuration × Report :=
  if (c.ingresses.get key).isSome then
    rebuildHostsAfterStartup env ord { c with
      ingresses := c.ingresses.remove key
      minionsByHost := removeMinionFromIndex ord key c.minionsByHost }
  else (c, {})

/-! ## VirtualServers and VirtualServerRoutes -/

def balanceUpstreamProxies (upstreams : List Upstream) : List Upstream :=
  upstreams.map fun u => balanceProxiesForUpstreams u env.isDirectiveAutoadjustEnabled

def balancedVirtualServer (vs : VirtualServer) : VirtualServer :=
  { vs with spec.upstreams := balanceUpstreamProxies env vs.spec.upstreams }

variable (vsr : VirtualServerRoute)

def balancedVirtualServerRoute : VirtualServerRoute :=
  { vsr with spec.upstreams := balanceUpstreamProxies env vsr.spec.upstreams }

def storeVirtualServer (vs : VirtualServer) (c : Configuration) : Configuration × Option String :=
  let (virtualServers, validationError) := c.virtualServers.accept
    (env.hasCorrectIngressClass (.virtualServer vs)) (env.validateVirtualServer vs)
    (balancedVirtualServer env vs)
  ({ c with virtualServers }, validationError)

def addOrUpdateVirtualServer (vs : VirtualServer) (c : Configuration) : Configuration × Report :=
  let (stored, validationError) := storeVirtualServer env vs c
  let (c', report) := rebuildHostsAfterStartup env ord stored
  (c', Report.rejectIf (getResourceKeyWithKind virtualServerKind vs.objectMeta)
    (fun err => rejected (.virtualServer vs)
      (rejectedWithError virtualServerKind vs.objectMeta err))
    validationError report)

def deleteVirtualServer : Configuration × Report :=
  if (c.virtualServers.get key).isSome then
    rebuildHostsAfterStartup env ord { c with virtualServers := c.virtualServers.remove key }
  else (c, {})

def storeVirtualServerRoute (c : Configuration) : Configuration × Option String :=
  let (virtualServerRoutes, validationError) := c.virtualServerRoutes.accept
    (env.hasCorrectIngressClass (.virtualServerRoute vsr)) (env.validateVirtualServerRoute vsr)
    (balancedVirtualServerRoute env vsr)
  ({ c with virtualServerRoutes }, validationError)

/-- No change is named after a VirtualServerRoute, so its rejection is always a problem. -/
def addOrUpdateVirtualServerRoute (c : Configuration) : Configuration × Report :=
  let (stored, validationError) := storeVirtualServerRoute env vsr c
  let (c', report) := rebuildHostsAfterStartup env ord stored
  match validationError with
  | some err => (c', { report with problems := report.problems ++
      [rejected (.virtualServerRoute vsr)
        (rejectedWithError virtualServerRouteKind vsr.objectMeta err)] })
  | none => (c', report)

def deleteVirtualServerRoute : Configuration × Report :=
  if (c.virtualServerRoutes.get key).isSome then
    rebuildHostsAfterStartup env ord
      { c with virtualServerRoutes := c.virtualServerRoutes.remove key }
  else (c, {})

/-! ## GlobalConfiguration -/

def setGlobalConfigListenerMap : Configuration :=
  { c with listenerMap := match c.globalConfiguration with
    | some gc => gc.listeners.foldl (fun m l => m.insert l.name l) ∅
    | none => ∅ }

def setGlobalConfiguration (gc : Option GlobalConfiguration) (c : Configuration) : Configuration :=
  setGlobalConfigListenerMap { c with globalConfiguration := gc }

/-- The GlobalConfiguration is stored with its valid listeners even when some were invalid. -/
def addOrUpdateGlobalConfiguration (gc : GlobalConfiguration) (c : Configuration) :
    (Configuration × Report) × Option String :=
  let (valid, validationErr) := env.validateGlobalConfiguration gc
  (rebuildBoth env ord true (setGlobalConfiguration (some valid) c), validationErr)

def deleteGlobalConfiguration : Configuration × Report :=
  rebuildBoth env ord true (setGlobalConfiguration none c)

/-! ## TransportServers -/

def storeTransportServer (ts : TransportServer) (c : Configuration) :
    Configuration × Option String :=
  let (transportServers, validationError) := c.transportServers.accept
    (env.hasCorrectIngressClass (.transportServer ts)) (env.validateTransportServer ts) ts
  ({ c with transportServers }, validationError)

def addOrUpdateTransportServer (ts : TransportServer) (c : Configuration) :
    Configuration × Report :=
  let (stored, validationErr) := storeTransportServer env ts c
  let (c', report) := rebuildBoth env ord env.isTLSPassthroughEnabled stored
  (c', Report.rejectIf (getResourceKeyWithKind transportServerKind ts.objectMeta)
    (fun err => rejected (.transportServer ts)
      (rejectedWithError transportServerKind ts.objectMeta err))
    validationErr report)

def deleteTransportServer : Configuration × Report :=
  if (c.transportServers.get key).isSome then
    rebuildBoth env ord env.isTLSPassthroughEnabled
      { c with transportServers := c.transportServers.remove key }
  else (c, {})

/-! ## Startup and weights -/

def completeStartup : Configuration × Report :=
  rebuildHostsAfterStartup env ord { c with startupComplete := true }

/-- The weight path stores the new VirtualServer without asking for its class. After a rebuild with
changes it stores it again, also when it was rejected. -/
def haltIfVSConfigInvalid (vsNew : VirtualServer) (c : Configuration) : Configuration × Report :=
  let validationError := env.validateVirtualServer vsNew
  let stored := match validationError with
    | some _ => { c with virtualServers := c.virtualServers.remove (objectKey vsNew) }
    | none => { c with virtualServers := c.virtualServers.put vsNew }
  let (c', changes, problems) := rebuildHosts env stored ord
  let report : Report := match validationError with
    | some err =>
      let kind := getResourceKeyWithKind virtualServerKind vsNew.objectMeta
      { changes := changes.map fun change =>
          if change.resource.getKeyWithKind = kind then { change with error := err } else change
        problems := problems ++ [rejected (.virtualServer vsNew)
          (rejectedWithError virtualServerKind vsNew.objectMeta err)] }
    | none => { changes, problems }
  if changes.isEmpty then (c', report)
  else ({ c' with virtualServers := c'.virtualServers.put vsNew }, report)

/-- The problems of the rebuild are dropped. A rejected route is left to the queue. -/
def haltIfVSRConfigInvalid (vsrNew : VirtualServerRoute) (c : Configuration) :
    Configuration × Report :=
  match env.validateVirtualServerRoute vsrNew with
  | some _ => (c, {})
  | none =>
    let stored := { c with virtualServerRoutes := c.virtualServerRoutes.put vsrNew }
    let (c', changes, _) := rebuildHosts env stored ord
    (c', { changes })

/-- The weight path rebuilds the hosts from other VirtualServers and may write the store again. -/
theorem haltIfVSConfigInvalid_rebuilds (vsNew : VirtualServer) (c : Configuration) :
    ∃ vss vss' : Store VirtualServer, (c.haltIfVSConfigInvalid env ord vsNew).1 =
      { (rebuildHosts env { c with virtualServers := vss } ord).1 with
        virtualServers := vss' } := by
  unfold haltIfVSConfigInvalid
  cases env.validateVirtualServer vsNew <;> dsimp only <;> split <;> exact ⟨_, _, rfl⟩

end Configuration

/-! ## Runs -/

inductive Call where
  | addOrUpdateIngress (ing : Ingress)
  | deleteIngress (key : String)
  | addOrUpdateVirtualServer (vs : VirtualServer)
  | deleteVirtualServer (key : String)
  | addOrUpdateVirtualServerRoute (vsr : VirtualServerRoute)
  | deleteVirtualServerRoute (key : String)
  | addOrUpdateTransportServer (ts : TransportServer)
  | deleteTransportServer (key : String)
  | addOrUpdateGlobalConfiguration (gc : GlobalConfiguration)
  | deleteGlobalConfiguration

inductive Op where
  | api (call : Call)
  | completeStartup
  | haltIfVSConfigInvalid (vsNew : VirtualServer)
  | haltIfVSRConfigInvalid (vsrNew : VirtualServerRoute)

variable (env : Env)

def Call.run (ord : Order) (c : Configuration) : Call → Configuration × Report
  | .addOrUpdateIngress ing => c.addOrUpdateIngress env ord ing
  | .deleteIngress key => c.deleteIngress env ord key
  | .addOrUpdateVirtualServer vs => c.addOrUpdateVirtualServer env ord vs
  | .deleteVirtualServer key => c.deleteVirtualServer env ord key
  | .addOrUpdateVirtualServerRoute vsr => c.addOrUpdateVirtualServerRoute env ord vsr
  | .deleteVirtualServerRoute key => c.deleteVirtualServerRoute env ord key
  | .addOrUpdateTransportServer ts => c.addOrUpdateTransportServer env ord ts
  | .deleteTransportServer key => c.deleteTransportServer env ord key
  | .addOrUpdateGlobalConfiguration gc => (c.addOrUpdateGlobalConfiguration env ord gc).1
  | .deleteGlobalConfiguration => c.deleteGlobalConfiguration env ord

def Op.run (ord : Order) (c : Configuration) : Op → Configuration × Report
  | .api call => call.run env ord c
  | .completeStartup => c.completeStartup env ord
  | .haltIfVSConfigInvalid vsNew => c.haltIfVSConfigInvalid env ord vsNew
  | .haltIfVSRConfigInvalid vsrNew => c.haltIfVSRConfigInvalid env ord vsrNew

/-- A run: each step comes with the visiting orders of its loops. -/
def Op.runs (c : Configuration) (steps : List (Order × Op)) : Configuration :=
  steps.foldl (fun c step => (step.2.run env step.1 c).1) c

/-- The states of all runs from the empty configuration, with any visiting orders. -/
inductive Reachable (env : Env) : Configuration → Prop
  | init : Reachable env {}
  | step {c : Configuration} (h : Reachable env c) (ord : Order) (op : Op) :
      Reachable env (op.run env ord c).1

theorem Reachable.runs {env : Env} {c : Configuration} (h : Reachable env c)
    (steps : List (Order × Op)) : Reachable env (Op.runs env c steps) := by
  induction steps generalizing c with
  | nil => exact h
  | cons step steps ih => exact ih (h.step step.1 step.2)

end IngressController
