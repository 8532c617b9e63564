import IngressController.Configuration.Hosts

/-! # Rebuilding the listener hosts

TCP and UDP TransportServers claim a listener of the GlobalConfiguration together
with a host. The loop visits the TransportServers in an open order.
-/

namespace IngressController

def TransportServerConfiguration.listen (tsc : TransportServerConfiguration) (l : Listener) :
    TransportServerConfiguration :=
  { tsc with listenerPort := l.port, ipv4 := l.ipv4, ipv6 := l.ipv6 }

def TransportServerConfiguration.addWarning (warning : String)
    (tsc : TransportServerConfiguration) : TransportServerConfiguration :=
  { tsc with warnings := tsc.warnings ++ [warning] }

namespace Configuration

variable (c : Configuration)

/-- Places hold the keys of TransportServers. -/
structure ListenerBuild where
  listenerHosts : Table ListenerHostKey String := ∅
  tsConfigs : GoMap TransportServerConfiguration := ∅

/-- The listener with the name and the protocol a TransportServer asks for. -/
def findListener (ts : TransportServer) : Option Listener :=
  match c.globalConfiguration with
  | none => none
  | some gc => gc.listeners.find? fun l =>
    ts.spec.listener.name = l.name && ts.spec.listener.protocol = l.protocol

def ListenerBuild.warn (key : String) (place : ListenerHostKey) (b : ListenerBuild) :
    ListenerBuild :=
  { b with tsConfigs := b.tsConfigs.modify key (TransportServerConfiguration.addWarning
      ("listener " ++ place.listenerName ++ " and host " ++ place.host ++
        " are taken by another resource")) }

/-- A TransportServer claims a place. The holder keeps it only if it wins. -/
def ListenerBuild.claimPlace (ts : TransportServer) (place : ListenerHostKey)
    (b : ListenerBuild) : ListenerBuild :=
  let key := objectKey ts
  match b.listenerHosts[place]? with
  | none => { b with listenerHosts := b.listenerHosts.insert place key }
  | some holder =>
    let holderWins := match b.tsConfigs[holder]? with
      | some h => chooseObjectMetaWinner h.transportServer.objectMeta ts.objectMeta
      | none => false
    if holderWins then b.warn key place
    else { b with listenerHosts := b.listenerHosts.insert place key }.warn holder place

def ListenerBuild.addTransportServer (b : ListenerBuild) (key : String) : ListenerBuild :=
  match c.transportServers.get key with
  | none => b
  | some ts =>
    if ts.spec.listener.protocol = tlsPassthroughListenerProtocol then b
    else
      let tsc : TransportServerConfiguration := { transportServer := ts }
      match findListener c ts with
      | none => { b with tsConfigs := b.tsConfigs.insert key tsc }
      | some listener =>
        let configured := b.tsConfigs.insert key (tsc.listen listener)
        { b with tsConfigs := configured }.claimPlace ts ⟨listener.name, ts.spec.host⟩

def buildListenerHostsAndTSConfigurations (ord : Order) : ListenerBuild :=
  (ord.visit .transportServers c.transportServers.sortedKeys).foldl
    (ListenerBuild.addTransportServer c) {}

def resolveListenerHosts (b : ListenerBuild) :
    Table ListenerHostKey TransportServerConfiguration :=
  b.listenerHosts.filterMap fun _ key => b.tsConfigs[key]?

end Configuration

def detectChangesInListenerHosts
    (oldListenerHosts newListenerHosts : Table ListenerHostKey TransportServerConfiguration) :
    TableChanges ListenerHostKey where
  removed := oldListenerHosts.keys.filter fun key => newListenerHosts[key]?.isNone
  updated := newListenerHosts.toList.filterMap fun (key, newConfig) =>
    match oldListenerHosts[key]? with
    | some oldConfig => if oldConfig.isEqual newConfig then none else some key
    | none => none
  added := newListenerHosts.keys.filter fun key => oldListenerHosts[key]?.isNone

def listenerResources (listenerHosts : Table ListenerHostKey TransportServerConfiguration) :
    Table ListenerHostKey Resource :=
  listenerHosts.map fun _ tsc => .transportServer tsc

def createResourceChangesForListeners (detected : TableChanges ListenerHostKey)
    (oldListeners newListeners : Table ListenerHostKey TransportServerConfiguration) :
    List ResourceChange :=
  ChangeLog.createResourceChanges Resource.getKeyWithKind detected.removed detected.updated
    detected.added (listenerResources oldListeners) (listenerResources newListeners)

namespace Configuration

variable (c : Configuration)

def problemWithoutActiveListener
    (listenerHosts : Table ListenerHostKey TransportServerConfiguration)
    (tsc : TransportServerConfiguration) : Option ConfigurationProblem :=
  let listenerName := tsc.transportServer.spec.listener.name
  let host := tsc.transportServer.spec.host
  let hostDescription := if host = "" then "empty host" else host
  match listenerHosts[(⟨listenerName, host⟩ : ListenerHostKey)]? with
  | none => some ⟨.transportServer tsc.transportServer, false, eventReasonRejected,
      "Listener " ++ listenerName ++ " doesn't exist"⟩
  | some holder =>
    if tsc.isEqual holder then none
    else some ⟨.transportServer tsc.transportServer, false, eventReasonRejected,
      "Listener " ++ listenerName ++ " with host " ++ hostDescription ++
        " is taken by another resource"⟩

def addProblemsForTSConfigsWithoutActiveListener
    (listenerHosts : Table ListenerHostKey TransportServerConfiguration)
    (tsConfigs : GoMap TransportServerConfiguration) (problems : GoMap ConfigurationProblem) :
    GoMap ConfigurationProblem :=
  (Table.values tsConfigs).foldl (fun problems tsc =>
    match problemWithoutActiveListener listenerHosts tsc with
    | some p => problems.insert (Resource.transportServer tsc).getKeyWithKind p
    | none => problems) problems

variable (ord : Order)

def newListenerHosts : Table ListenerHostKey TransportServerConfiguration :=
  resolveListenerHosts (buildListenerHostsAndTSConfigurations c ord)

def newListenerProblems : GoMap ConfigurationProblem :=
  addProblemsForTSConfigsWithoutActiveListener (newListenerHosts c ord)
    (buildListenerHostsAndTSConfigurations c ord).tsConfigs ∅

def rebuildListenerHosts : Configuration × List ResourceChange × List ConfigurationProblem :=
  let newTSConfigs := (buildListenerHostsAndTSConfigurations c ord).tsConfigs
  let detected := detectChangesInListenerHosts c.listenerHosts (newListenerHosts c ord)
  let changes := ChangeLog.squashResourceChanges Resource.getKeyWithKind
    (createResourceChangesForListeners detected c.listenerHosts (newListenerHosts c ord))
  -- the configurations are filed under `namespace/name`, the changes are named with the kind
  ({ c with
      listenerHosts := newListenerHosts c ord
      listenerProblems := newListenerProblems c ord },
    referToLatest (newTSConfigs.map fun _ tsc => .transportServer tsc) changes,
    detectChangesInProblems (newListenerProblems c ord) c.listenerProblems)

end Configuration

end IngressController
