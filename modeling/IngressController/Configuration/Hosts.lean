import IngressController.Configuration.Routes

/-! # Rebuilding the hosts

Resources claim hosts one after another: Ingresses, VirtualServers and, with TLS
passthrough, TransportServers. A resource is shared by all hosts it holds and
warnings are added to it later, so a host under construction holds the name of
its resource and the names are resolved at the end.
-/

namespace IngressController

namespace Configuration

variable (env : Env) (c : Configuration)

/-! ## Minions -/

/-- The minions of a host under construction; a path holds the key of its minion. -/
structure MinionBuild where
  minions : GoMap MinionConfiguration := ∅
  paths : GoMap String := ∅
  childWarnings : GoMap (List String) := ∅

def MinionBuild.setValid (key path : String) (valid : Bool) (b : MinionBuild) : MinionBuild :=
  { b with minions := b.minions.modify key fun m =>
      { m with validPaths := m.validPaths.insert path valid } }

def MinionBuild.warn (key path : String) (b : MinionBuild) : MinionBuild :=
  let warning := "path " ++ path ++ " is taken by another resource"
  { b with childWarnings :=
      b.childWarnings.insert key ((b.childWarnings[key]?).getD [] ++ [warning]) }

def MinionBuild.claimPath (ingress : Ingress) (b : MinionBuild) (p : HTTPIngressPath) :
    MinionBuild :=
  let key := objectKey ingress
  match b.paths[p.path]? with
  | none => { b with paths := b.paths.insert p.path key }.setValid key p.path true
  | some holder =>
    let holderWins := match b.minions[holder]? with
      | some m => chooseObjectMetaWinner m.ingress.objectMeta ingress.objectMeta
      | none => false
    if holderWins then b.warn key p.path
    else
      -- the holder loses the path last, also when a minion repeats its own path
      (({ b with paths := b.paths.insert p.path key }.setValid key p.path true).setValid
        holder p.path false).warn holder p.path

def buildMinionConfigs (masterHost : String) :
    List MinionConfiguration × GoMap (List String) :=
  let sortedKeys := ((c.minionsByHost[masterHost]?).getD ∅).keys
  let b := sortedKeys.foldl (fun b minionKey =>
    match c.ingresses.get minionKey with
    | none => b
    | some ingress =>
      ingress.firstPaths.foldl (MinionBuild.claimPath ingress)
        { b with minions := b.minions.insert minionKey { ingress } }) ({} : MinionBuild)
  (Table.values b.minions, b.childWarnings)

/-! ## Challenge Ingresses -/

def isChallengeIngressOwnerVs (host : String) : Bool :=
  c.virtualServers.sorted.any fun vs => host = vs.spec.host

variable (ing : Ingress)

/-- The route a challenge Ingress stands for when a VirtualServer has its host. An accepted
challenge Ingress has one rule with one path to a service. -/
def convertIngressToVSR : Option VirtualServerRoute :=
  if isChallengeIngressOwnerVs c ing.firstHost then
    match ing.firstPaths with
    | { path, pathType := _, backend := { service := some service, resource := _ } } :: _ =>
      some {
        objectMeta := { nspace := ing.objectMeta.nspace, name := ing.objectMeta.name }
        spec := {
          host := ing.firstHost
          upstreams := [{
            name := "challenge", service := service.name
            port := service.port.number % 2 ^ 16 }]
          subroutes := [{ path, action := some { pass := "challenge" } }] } }
    | _ => none
  else none

/-- The route of an Ingress that is converted; other Ingresses claim hosts. -/
def challengeVSR : Option VirtualServerRoute :=
  if env.isCertManagerEnabled && isChallengeIngress ing then convertIngressToVSR c ing else none

/-! ## Claims -/

/-- Hosts hold the names of resources. -/
structure HostBuild where
  hosts : GoMap String := ∅
  resources : GoMap Resource := ∅
  challengesVSR : List VirtualServerRoute := []

def hostTaken (host : String) : String := "host " ++ host ++ " is taken by another resource"

def HostBuild.warn (key warning : String) (b : HostBuild) : HostBuild :=
  { b with resources := b.resources.modify key (Resource.addWarning warning) }

/-- A resource claims a host. The holder keeps it only if it wins. -/
def HostBuild.claimHost (resource : Resource) (b : HostBuild) (host : String) : HostBuild :=
  let key := resource.getKeyWithKind
  match b.hosts[host]? with
  | none => { b with hosts := b.hosts.insert host key }
  | some holder =>
    let holderWins := match b.resources[holder]? with
      | some r => r.wins resource
      | none => false
    if holderWins then b.warn key (hostTaken host)
    else { b with hosts := b.hosts.insert host key }.warn holder (hostTaken host)

def HostBuild.addResource (resource : Resource) (claimed : List String) (b : HostBuild) :
    HostBuild :=
  claimed.foldl (HostBuild.claimHost resource)
    { b with resources := b.resources.insert resource.getKeyWithKind resource }

/-! ## Building -/

def ingressResource : Resource :=
  if isMaster ing then
    let (minions, childWarnings) := buildMinionConfigs c ing.firstHost
    .ingress { ingress := ing, isMaster := true, minions, childWarnings }
  else .ingress { ingress := ing }

/-- A custom listener serves its block of the VirtualServer when it is an HTTP listener and
agrees about SSL. -/
def assignListener (listenerName : String) (isSSL : Bool) : Option Listener :=
  match c.listenerMap[listenerName]? with
  | some gcListener =>
    if gcListener.protocol = httpProtocol && gcListener.ssl = isSSL then some gcListener else none
  | none => none

def buildListenersForVSConfiguration (vsc : VirtualServerConfiguration) :
    VirtualServerConfiguration :=
  match vsc.virtualServer.spec.listener, c.globalConfiguration with
  | some listener, some _ =>
    let vsc := match assignListener c listener.http false with
      | some l => { vsc with httpPort := l.port, httpIPv4 := l.ipv4, httpIPv6 := l.ipv6 }
      | none => vsc
    match assignListener c listener.https true with
    | some l => { vsc with httpsPort := l.port, httpsIPv4 := l.ipv4, httpsIPv6 := l.ipv6 }
    | none => vsc
  | _, _ => vsc

variable (ord : Order)

def virtualServerResource (challengesVSR : List VirtualServerRoute)
    (vs : VirtualServer) : Resource :=
  let (vsrs, vsrSelectors, warnings) := buildVirtualServerRoutes env c.virtualServerRoutes ord vs
  .virtualServer (buildListenersForVSConfiguration c {
    virtualServer := vs
    virtualServerRoutes := vsrs ++ challengesVSR.filter fun vsr => vs.spec.host = vsr.spec.host
    virtualServerRouteSelectors := vsrSelectors
    warnings })

def isTLSPassthrough (ts : TransportServer) : Bool :=
  ts.spec.listener.name = tlsPassthroughListenerName ||
    ts.spec.listener.protocol = tlsPassthroughListenerProtocol

variable (b : HostBuild)

def HostBuild.addIngress (ing : Ingress) : HostBuild :=
  if isMinion ing then b
  else
    match challengeVSR env c ing with
    | some vsr => { b with challengesVSR := b.challengesVSR ++ [vsr] }
    | none => b.addResource (ingressResource c ing) (ing.spec.rules.map IngressRule.host)

def HostBuild.addVirtualServer (vs : VirtualServer) : HostBuild :=
  b.addResource (virtualServerResource env c ord b.challengesVSR vs) [vs.spec.host]

def HostBuild.addTransportServer (ts : TransportServer) : HostBuild :=
  if isTLSPassthrough ts then
    b.addResource (.transportServer { transportServer := ts }) [ts.spec.host]
  else b

def buildHostsAndResources : HostBuild :=
  let ingressHosts := c.ingresses.sorted.foldl (HostBuild.addIngress env c) {}
  let httpHosts := c.virtualServers.sorted.foldl (HostBuild.addVirtualServer env c ord) ingressHosts
  if env.isTLSPassthroughEnabled then
    c.transportServers.sorted.foldl HostBuild.addTransportServer httpHosts
  else httpHosts

variable (hosts : GoMap String)

/-- An Ingress serves those of its hosts that it holds. -/
def activate (r : Resource) : Resource :=
  match r with
  | .ingress ic => .ingress { ic with
      validHosts := ic.ingress.spec.rules.foldl (fun valid rule =>
        valid.insert rule.host (hosts[rule.host]? = some r.getKeyWithKind)) ic.validHosts }
  | _ => r

def updateActiveHostsForIngresses (resources : GoMap Resource) : GoMap Resource :=
  resources.map fun _ r => activate hosts r

def resolveHosts (resources : GoMap Resource) : GoMap Resource :=
  hosts.filterMap fun _ key => resources[key]?

end Configuration

/-! ## Changes -/

@[ext] structure TableChanges (κ : Type) where
  removed : List κ
  updated : List κ
  added : List κ

/-- The resource of a host changed. A host may be listed several times. -/
def hostUpdates (h : String) (oldR newR : Resource) : List String :=
  if oldR.isEqual newR then
    match newR, oldR with
    | .virtualServer newVsc, .virtualServer oldVsc =>
      (if newVsc.httpPort ≠ oldVsc.httpPort ∨ newVsc.httpsPort ≠ oldVsc.httpsPort then [h]
        else []) ++
      (if newVsc.httpIPv4 ≠ oldVsc.httpIPv4 then [h] else []) ++
      (if newVsc.httpIPv6 ≠ oldVsc.httpIPv6 then [h] else [])
    | _, _ => []
  else [h]

def detectChangesInHosts (oldHosts newHosts : GoMap Resource) : TableChanges String where
  removed := oldHosts.keys.filter fun h => newHosts[h]?.isNone
  updated := newHosts.toList.flatMap fun (h, newR) =>
    match oldHosts[h]? with
    | some oldR => hostUpdates h oldR newR
    | none => []
  added := newHosts.keys.filter fun h => oldHosts[h]?.isNone

def createResourceChangesForHosts (detected : TableChanges String)
    (oldHosts newHosts : GoMap Resource) : List ResourceChange :=
  ChangeLog.createResourceChanges Resource.getKeyWithKind detected.removed detected.updated
    detected.added oldHosts newHosts

/-- Refer to the latest version of a resource, so that its warnings are reported. -/
def referToLatest (resources : GoMap Resource) (changes : List ResourceChange) :
    List ResourceChange :=
  changes.map fun change =>
    match resources[change.resource.getKeyWithKind]? with
    | some r => { change with resource := r }
    | none => change

namespace Configuration

variable (env : Env) (c : Configuration)

/-! ## Problems -/

def problemWithoutActiveHost (hosts : GoMap String) (r : Resource) : Option ConfigurationProblem :=
  match r with
  | .ingress ic =>
    if (Table.values ic.validHosts).any id then none
    else some ⟨.ingress ic.ingress, false, eventReasonRejected,
      "All hosts are taken by other resources"⟩
  | .virtualServer vsc =>
    if hosts[vsc.virtualServer.spec.host]? = some r.getKeyWithKind then none
    else some ⟨.virtualServer vsc.virtualServer, false, eventReasonRejected,
      "Host is taken by another resource"⟩
  | .transportServer tsc =>
    if hosts[tsc.transportServer.spec.host]? = some r.getKeyWithKind then none
    else some ⟨.transportServer tsc.transportServer, false, eventReasonRejected,
      "Host is taken by another resource"⟩

def addProblemsForResourcesWithoutActiveHost (hosts : GoMap String) (resources : GoMap Resource)
    (problems : GoMap ConfigurationProblem) : GoMap ConfigurationProblem :=
  (Table.values resources).foldl (fun problems r =>
    match problemWithoutActiveHost hosts r with
    | some p => problems.insert r.getKeyWithKind p
    | none => problems) problems

variable (hosts : GoMap Resource)

def hasMaster (host : String) : Bool :=
  match hosts[host]? with
  | some (.ingress ic) => ic.isMaster
  | _ => false

def addProblemsForOrphanMinions
    (problems : GoMap ConfigurationProblem) : GoMap ConfigurationProblem :=
  c.minionsByHost.toList.foldl (fun problems (host, minionKeys) =>
    if hasMaster hosts host then problems
    else minionKeys.keys.foldl (fun problems key =>
      match c.ingresses.get key with
      | none => problems
      | some ing =>
        problems.insert (getResourceKeyWithKind ingressKind ing.objectMeta)
          ⟨.ingress ing, false, eventReasonNoIngressMasterFound,
            "Ingress master is invalid or doesn't exist"⟩) problems) problems

def problemOfVsr (vsr : VirtualServerRoute) : Option ConfigurationProblem :=
  match hosts[vsr.spec.host]? with
  | some (.virtualServer vsConfig) =>
    if vsConfig.virtualServerRoutes.any fun v =>
        vsr.objectMeta.nspace = v.objectMeta.nspace &&
          vsr.objectMeta.name = v.objectMeta.name then
      none
    else some ⟨.virtualServerRoute vsr, false, eventReasonIgnored,
      "VirtualServer " ++ objectKey vsConfig.virtualServer ++ " ignores VirtualServerRoute"⟩
  | _ => some ⟨.virtualServerRoute vsr, false, eventReasonNoVirtualServerFound,
      "VirtualServer is invalid or doesn't exist"⟩

def addProblemsForOrphanOrIgnoredVsrs
    (problems : GoMap ConfigurationProblem) : GoMap ConfigurationProblem :=
  c.virtualServerRoutes.sorted.foldl (fun problems vsr =>
    match problemOfVsr hosts vsr with
    | some p =>
      problems.insert (getResourceKeyWithKind virtualServerRouteKind vsr.objectMeta) p
    | none => problems) problems

/-! ## Listener warnings -/

def isListenerInCorrectBlock (listenerName : String) (expectedSsl : Bool) : Bool :=
  match c.listenerMap[listenerName]? with
  | some listener => listener.ssl = expectedSsl
  | none => true

/-- The first thing wrong with the custom listeners of a VirtualServer. -/
def listenerWarning (listener : VirtualServerListener) : Option String :=
  if c.globalConfiguration.isNone then
    some "Listeners defined, but no GlobalConfiguration is deployed"
  else if !isListenerInCorrectBlock c listener.http false then
    some ("Listener " ++ listener.http ++
      " can't be use in `listener.http` context as SSL is enabled for that listener.")
  else if !isListenerInCorrectBlock c listener.https true then
    some ("Listener " ++ listener.https ++
      " can't be use in `listener.https` context as SSL is not enabled for that listener.")
  else if listener.http ≠ "" && c.listenerMap[listener.http]?.isNone then
    some ("Listener " ++ listener.http ++ " is not defined in GlobalConfiguration")
  else if listener.https ≠ "" && c.listenerMap[listener.https]?.isNone then
    some ("Listener " ++ listener.https ++ " is not defined in GlobalConfiguration")
  else none

/-- The warning goes to the holder of the host, which may be another resource. -/
def addWarningsForVirtualServersWithMissConfiguredListeners (order : List String)
    (hosts : GoMap String) (resources : GoMap Resource) : GoMap Resource :=
  order.foldl (fun (resources : GoMap Resource) (key : String) =>
    match resources[key]? with
    | some (.virtualServer vsc) =>
      match vsc.virtualServer.spec.listener.bind (listenerWarning c),
        hosts[vsc.virtualServer.spec.host]? with
      | some warning, some holder => resources.modify holder (Resource.addWarning warning)
      | _, _ => resources
    | _ => resources) resources

/-! ## Rebuilding -/

variable (ord : Order)

def newResources : GoMap Resource :=
  let build := buildHostsAndResources env c ord
  updateActiveHostsForIngresses build.hosts build.resources

def newHosts : GoMap Resource :=
  resolveHosts (buildHostsAndResources env c ord).hosts (newResources env c ord)

def warnedResources : GoMap Resource :=
  addWarningsForVirtualServersWithMissConfiguredListeners c
    (ord.visit .listenerWarnings (newResources env c ord).keys)
    (buildHostsAndResources env c ord).hosts (newResources env c ord)

def newHostProblems : GoMap ConfigurationProblem :=
  addProblemsForOrphanOrIgnoredVsrs c (newHosts env c ord)
    (addProblemsForOrphanMinions c (newHosts env c ord)
      (addProblemsForResourcesWithoutActiveHost (buildHostsAndResources env c ord).hosts
        (newResources env c ord) ∅))

def rebuildHosts : Configuration × List ResourceChange × List ConfigurationProblem :=
  let detected := detectChangesInHosts c.hosts (newHosts env c ord)
  let changes := ChangeLog.squashResourceChanges Resource.getKeyWithKind
    (createResourceChangesForHosts detected c.hosts (newHosts env c ord))
  -- the hosts share the resources that the last warnings were added to
  ({ c with
      hosts := resolveHosts (buildHostsAndResources env c ord).hosts (warnedResources env c ord)
      hostProblems := newHostProblems env c ord },
    referToLatest (warnedResources env c ord) changes,
    detectChangesInProblems (newHostProblems env c ord) c.hostProblems)

end Configuration

end IngressController
