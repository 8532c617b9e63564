import Mathlib.Data.List.Dedup
import IngressController.Api.Networking
import IngressController.Library.GoString

/-! # Endpoints of services

The two lookups that turn the backend port of a service into the addresses of its pods.
-/

namespace IngressController.Controller

open GoString List

/-- A port number; the zero of the source is an absent one. -/
abbrev Port := { n : Nat // 0 < n }

inductive TargetPort where
  | unset
  | number (n : Port)
  | named (name : String)

structure ServicePort where
  name : String := ""
  port : Port
  targetPort : TargetPort := .unset

structure Service where
  name : String
  ports : List ServicePort

/-- `targetRef` is the namespace and the name of the pod. -/
structure Endpoint where
  addresses : List String
  ready : Option Bool
  targetRef : Option (String × String) := none

structure EndpointSlice where
  ports : List (Option Port)
  endpoints : List Endpoint

structure Pod where
  podIP : String
  owner : String × String

structure PodEndpoint where
  address : String
  podName : String := ""
  owner : String × String := ("", "")
deriving DecidableEq

/-- What the pod lister answers: the type and name of a pod's owner, and named target ports. -/
structure Lister where
  getPodOwnerTypeAndNameFromAddress : String × String → String × String
  findPort : ServicePort → Except String Port

def selectEndpointSlicesForPort (targetPort : Port) (esx : List EndpointSlice) :
    List EndpointSlice :=
  esx.flatMap fun es => (es.ports.filter (· = some targetPort)).map fun _ => es

def filterReadyEndpointsFrom (esx : List EndpointSlice) : List Endpoint :=
  esx.flatMap fun es => es.endpoints.filter (·.ready = some true)

def getPodName (targetRef : Option (String × String)) : String := (targetRef.map Prod.snd).getD ""

/-- `net.JoinHostPort`. -/
def ipv6SafeAddrPort (addr : String) (port : Port) : String :=
  (if containsAny addr ":%" then "[" ++ addr ++ "]:" else addr ++ ":") ++ toString port.val

section

variable (lister : Lister) (svc : Service) (endpointSlices : List EndpointSlice)

def getTargetPort (svcPort : ServicePort) : Except String Port :=
  match svcPort.targetPort with
  | .unset => .ok svcPort.port
  | .number n => .ok n
  | .named _ => lister.findPort svcPort

def getServicePortForIngressPort (backendPort : ServiceBackendPort) : Option ServicePort :=
  svc.ports.find? fun port =>
    (backendPort.name = "" && port.port.val = backendPort.number) || port.name = backendPort.name

def Endpoint.owner (ep : Endpoint) : String × String :=
  (ep.targetRef.map lister.getPodOwnerTypeAndNameFromAddress).getD ("", "")

def podEndpoint (port : Port) (ep : Endpoint) (addr : String) : PodEndpoint where
  address := ipv6SafeAddrPort addr port
  podName := getPodName ep.targetRef
  owner := ep.owner lister

/-- The elements before they go into a set. -/
def podEndpoints (port : Port) : List PodEndpoint :=
  (filterReadyEndpointsFrom (selectEndpointSlicesForPort port endpointSlices)).flatMap fun ep =>
    ep.addresses.map (podEndpoint lister port ep)

/-- Both lookups go on with the target port of the service port they have found. -/
def withTargetPort (found : Option ServicePort) (missing context : String)
    (next : Port → Except String (List PodEndpoint)) : Except String (List PodEndpoint) :=
  match found with
  | none => .error (missing ++ " in service " ++ svc.name)
  | some port =>
    match getTargetPort lister port with
    | .error err => .error (context ++ ": " ++ err)
    | .ok targetPort => next targetPort

def getEndpointsForPortFromEndpointSlices (backendPort : ServiceBackendPort) :
    Except String (List PodEndpoint) :=
  let port := "port \x7b" ++ backendPort.name ++ " " ++ toString backendPort.number ++ "\x7d"
  withTargetPort lister svc (getServicePortForIngressPort svc backendPort) ("no " ++ port)
    ("error determining target port for " ++ port ++ " in Ingress") fun targetPort =>
      let endpoints := (podEndpoints lister endpointSlices targetPort).dedup
      if endpoints = [] then
        .error ("no endpointslices for target port " ++ toString targetPort.val ++ " in service " ++
          svc.name)
      else .ok endpoints

def getEndpointsFromEndpointSlicesForSubselectedPods (targetPort : Port) (pods : List Pod) :
    List PodEndpoint :=
  (pods.flatMap fun pod =>
    (filterReadyEndpointsFrom (selectEndpointSlicesForPort targetPort endpointSlices)).flatMap
      fun endpoint => (endpoint.addresses.filter (pod.podIP = ·)).map fun _ =>
        ⟨ipv6SafeAddrPort pod.podIP targetPort, getPodName endpoint.targetRef, pod.owner⟩).dedup

/-- The pods are those of the service that the subselector matches. -/
def getEndpointsForSubselector (servicePort : Nat) (pods : List Pod) :
    Except String (List PodEndpoint) :=
  let port := "port " ++ toString servicePort
  withTargetPort lister svc (svc.ports.find? (·.port.val = servicePort)) ("no " ++ port)
    ("error determining target port for " ++ port ++ " in service " ++ svc.name) fun targetPort =>
      .ok (getEndpointsFromEndpointSlicesForSubselectedPods endpointSlices targetPort pods)

variable (backendPort : ServiceBackendPort)

/-- The port a reference is to: by its name if it has one, by its number otherwise. -/
def referenced : Option ServicePort :=
  svc.ports.find? fun port =>
    if backendPort.name = "" then port.port.val = backendPort.number
    else port.name = backendPort.name

def targetPort : Option Port :=
  (referenced svc backendPort).bind fun port => (getTargetPort lister port).toOption

/-- A ready endpoint of a slice that exposes the port. -/
def IsReady (port : Port) (ep : Endpoint) : Prop :=
  ∃ es ∈ endpointSlices, some port ∈ es.ports ∧ ep ∈ es.endpoints ∧ ep.ready = some true

/-- `eps` has every address of the ready endpoints with `p`, and no other, once. -/
def Lists (p : String → Prop) (port : Port) (eps : List PodEndpoint) : Prop :=
  (eps.map PodEndpoint.address).Nodup ∧ ∀ text, text ∈ eps.map PodEndpoint.address ↔
    ∃ ep addr, IsReady endpointSlices port ep ∧ addr ∈ ep.addresses ∧ p addr ∧
      text = ipv6SafeAddrPort addr port

/-- The result is an error unless the target port `has` endpoints; otherwise it `lists` them. -/
def Finds (result : Except String (List PodEndpoint)) (has : Port → Prop)
    (lists : Port → List PodEndpoint → Prop) : Prop :=
  ((∃ eps, result = .ok eps) ↔ ∃ port ∈ targetPort lister svc backendPort, has port) ∧
    ∀ eps, result = .ok eps → ∀ port ∈ targetPort lister svc backendPort, lists port eps

/-- The addresses of the referenced port are found, each once; of those for a number, a subselector
takes the ones of its pods. -/
def IsExact (servicePort : Nat) (pods : List Pod) : Prop :=
  getServicePortForIngressPort svc backendPort = referenced svc backendPort ∧
  Finds lister svc backendPort
    (getEndpointsForPortFromEndpointSlices lister svc endpointSlices backendPort)
    (fun port => ∃ ep, IsReady endpointSlices port ep ∧ ep.addresses ≠ [])
    (Lists endpointSlices fun _ => True) ∧
  Finds lister svc { number := servicePort }
    (getEndpointsForSubselector lister svc endpointSlices servicePort pods) (fun _ => True)
    (Lists endpointSlices fun addr => ∃ pod ∈ pods, pod.podIP = addr)

/-- Ready endpoints that share an address are of one pod. -/
def SharesPods (port : Port) : Prop :=
  ∀ ep ep', IsReady endpointSlices port ep → IsReady endpointSlices port ep' →
    ∀ addr ∈ ep.addresses, addr ∈ ep'.addresses →
      getPodName ep.targetRef = getPodName ep'.targetRef ∧ ep.owner lister = ep'.owner lister

/-- Pods with one ready address have one owner, and their endpoints name one pod. -/
def SharesOwners (pods : List Pod) (port : Port) : Prop :=
  ∀ pod ∈ pods, ∀ pod' ∈ pods, pod.podIP = pod'.podIP →
    ∀ ep ep', IsReady endpointSlices port ep → IsReady endpointSlices port ep' →
      pod.podIP ∈ ep.addresses → pod'.podIP ∈ ep'.addresses →
        getPodName ep.targetRef = getPodName ep'.targetRef ∧ pod.owner = pod'.owner

/-- The first service port that is unnamed or has the number of the reference, has the number. -/
def HasNumberFirst : Prop :=
  ∀ port ∈ svc.ports.find? fun port => port.port.val = backendPort.number || port.name = "",
    port.port.val = backendPort.number

end

variable {lister : Lister} {svc : Service} {endpointSlices : List EndpointSlice} {port : Port}
  {backendPort : ServiceBackendPort}

theorem finds_iff {result : Except String (List PodEndpoint)} {has : Port → Prop}
    {lists : Port → List PodEndpoint → Prop} (f : Port → List PodEndpoint)
    (h : ∀ eps, result = .ok eps ↔
      ∃ port ∈ targetPort lister svc backendPort, has port ∧ eps = f port) :
    Finds lister svc backendPort result has lists ↔
      ∀ port ∈ targetPort lister svc backendPort, has port → lists port (f port) := by
  simp only [Finds, h]
  cases targetPort lister svc backendPort <;> simp

theorem withTargetPort_eq_ok {found : Option ServicePort} {missing context : String}
    {next : Port → Except String (List PodEndpoint)} {eps : List PodEndpoint} :
    withTargetPort lister svc found missing context next = .ok eps ↔
      ∃ port ∈ found.bind fun svcPort => (getTargetPort lister svcPort).toOption,
        next port = .ok eps := by
  unfold withTargetPort
  cases found with
  | none => simp
  | some port => cases h : getTargetPort lister port <;> simp [h, Except.toOption]

/-- An address with a colon stands in brackets, and no other one has brackets and a colon. -/
theorem ipv6SafeAddrPort_inj {addr addr' : String} :
    ipv6SafeAddrPort addr port = ipv6SafeAddrPort addr' port ↔ addr = addr' := by
  refine ⟨fun h => ?_, fun h => h ▸ rfl⟩
  have hbrackets : ∀ {a b : String}, containsAny a ":%" = true → ¬ containsAny b ":%" = true →
      '[' :: a.toList ++ [']'] ≠ b.toList := by
    intro a b ha hb heq
    refine hb ?_
    rw [containsAny, any_eq_true] at ha ⊢
    obtain ⟨c, hc, hin⟩ := ha
    exact ⟨c, heq ▸ by simp [hc], hin⟩
  have htext : ∀ a, (ipv6SafeAddrPort a port).toList =
      (if containsAny a ":%" then '[' :: a.toList ++ [']'] else a.toList) ++
        ':' :: (toString port.val).toList := by
    intro a
    unfold ipv6SafeAddrPort
    split_ifs <;> simp
  have hhost := congrArg String.toList h
  rw [htext, htext, append_cancel_right_eq] at hhost
  split_ifs at hhost with ha hb hb
  · simpa [← String.toList_inj] using hhost
  · exact absurd hhost (hbrackets ha hb)
  · exact absurd hhost.symm (hbrackets hb ha)
  · exact String.toList_inj.mp hhost

theorem mem_filterReadyEndpointsFrom {ep : Endpoint} :
    ep ∈ filterReadyEndpointsFrom (selectEndpointSlicesForPort port endpointSlices) ↔
      IsReady endpointSlices port ep := by
  simp only [filterReadyEndpointsFrom, selectEndpointSlicesForPort, IsReady, mem_flatMap,
    mem_map, mem_filter, decide_eq_true_eq]
  constructor
  · rintro ⟨_, ⟨es, hes, _, ⟨hport, rfl⟩, rfl⟩, hep⟩
    exact ⟨es, hes, hport, hep⟩
  · rintro ⟨es, hes, hport, hep⟩
    exact ⟨es, ⟨es, hes, _, ⟨hport, rfl⟩, rfl⟩, hep⟩

theorem mem_podEndpoints {x : PodEndpoint} : x ∈ podEndpoints lister endpointSlices port ↔
    ∃ ep addr, IsReady endpointSlices port ep ∧ addr ∈ ep.addresses ∧
      podEndpoint lister port ep addr = x := by
  simp only [podEndpoints, mem_flatMap, mem_filterReadyEndpointsFrom, mem_map]
  simp only [← exists_and_left]

theorem lists_podEndpoints_iff :
    Lists endpointSlices (fun _ => True) port (podEndpoints lister endpointSlices port).dedup ↔
      SharesPods lister endpointSlices port := by
  rw [Lists, and_iff_left, nodup_map_iff_inj_on (nodup_dedup _)]
  · simp only [mem_dedup, mem_podEndpoints]
    constructor
    · intro h ep ep' hep hep' addr haddr haddr'
      have heq := h _ ⟨ep, addr, hep, haddr, rfl⟩ _ ⟨ep', addr, hep', haddr', rfl⟩ rfl
      exact ⟨congrArg PodEndpoint.podName heq, congrArg PodEndpoint.owner heq⟩
    · rintro h _ ⟨ep, addr, hep, haddr, rfl⟩ _ ⟨ep', addr', hep', haddr', rfl⟩ haddress
      obtain rfl := ipv6SafeAddrPort_inj.mp haddress
      obtain ⟨hname, howner⟩ := h ep ep' hep hep' addr haddr haddr'
      rw [podEndpoint, podEndpoint, hname, howner]
  · intro text
    simp only [mem_map, mem_dedup, mem_podEndpoints]
    constructor
    · rintro ⟨_, ⟨ep, addr, hep, haddr, rfl⟩, rfl⟩
      exact ⟨ep, addr, hep, haddr, trivial, rfl⟩
    · rintro ⟨ep, addr, hep, haddr, -, rfl⟩
      exact ⟨_, ⟨ep, addr, hep, haddr, rfl⟩, rfl⟩

theorem mem_subselected {pods : List Pod} {x : PodEndpoint} :
    x ∈ getEndpointsFromEndpointSlicesForSubselectedPods endpointSlices port pods ↔
      ∃ pod ∈ pods, ∃ ep, IsReady endpointSlices port ep ∧ pod.podIP ∈ ep.addresses ∧
        ⟨ipv6SafeAddrPort pod.podIP port, getPodName ep.targetRef, pod.owner⟩ = x := by
  simp only [getEndpointsFromEndpointSlicesForSubselectedPods, mem_map, mem_dedup,
    mem_flatMap, mem_filterReadyEndpointsFrom, mem_filter, decide_eq_true_eq]
  refine exists_congr fun pod => and_congr_right fun _ => exists_congr fun ep =>
    and_congr_right fun _ => ?_
  constructor
  · rintro ⟨_, ⟨hin, rfl⟩, rfl⟩
    exact ⟨hin, rfl⟩
  · rintro ⟨hin, rfl⟩
    exact ⟨_, ⟨hin, rfl⟩, rfl⟩

theorem lists_subselected_iff (pods : List Pod) :
    Lists endpointSlices (fun addr => ∃ pod ∈ pods, pod.podIP = addr) port
      (getEndpointsFromEndpointSlicesForSubselectedPods endpointSlices port pods) ↔
        SharesOwners endpointSlices pods port := by
  have hnodup : (getEndpointsFromEndpointSlicesForSubselectedPods endpointSlices port pods).Nodup :=
    nodup_dedup _
  rw [Lists, and_iff_left, nodup_map_iff_inj_on hnodup]
  · simp only [mem_subselected]
    constructor
    · intro h pod hpod pod' hpod' hip ep ep' hep hep' hin hin'
      have heq := h _ ⟨pod, hpod, ep, hep, hin, rfl⟩ _ ⟨pod', hpod', ep', hep', hin', rfl⟩
        (by rw [hip])
      exact ⟨congrArg PodEndpoint.podName heq, congrArg PodEndpoint.owner heq⟩
    · rintro h _ ⟨pod, hpod, ep, hep, hin, rfl⟩ _ ⟨pod', hpod', ep', hep', hin', rfl⟩ haddress
      have hip := ipv6SafeAddrPort_inj.mp haddress
      obtain ⟨hname, howner⟩ := h pod hpod pod' hpod' hip ep ep' hep hep' hin hin'
      rw [hip, hname, howner]
  · intro text
    simp only [mem_map, mem_subselected]
    constructor
    · rintro ⟨_, ⟨pod, hpod, ep, hep, hin, rfl⟩, rfl⟩
      exact ⟨ep, pod.podIP, hep, hin, ⟨pod, hpod, rfl⟩, rfl⟩
    · rintro ⟨ep, _, hep, hin, ⟨pod, hpod, rfl⟩, rfl⟩
      exact ⟨_, ⟨pod, hpod, ep, hep, hin, rfl⟩, rfl⟩

theorem getServicePortForIngressPort_eq_iff :
    getServicePortForIngressPort svc backendPort = referenced svc backendPort ↔
      (backendPort.name = "" → HasNumberFirst svc backendPort) := by
  unfold getServicePortForIngressPort referenced HasNumberFirst
  by_cases hname : backendPort.name = ""
  · simp only [hname, decide_true, Bool.true_and, if_true, true_imp_iff]
    induction svc.ports with
    | nil => simp
    | cons port ports ih =>
      by_cases hnumber : port.port.val = backendPort.number
      · simp [hnumber]
      · by_cases hport : port.name = ""
        · have hfound : ports.find? (fun port => port.port.val = backendPort.number) ≠ some port :=
            fun h => hnumber (by simpa using find?_some h)
          simp [hnumber, hport, Ne.symm hfound]
        · simpa [hnumber, hport] using ih
  · simp [hname]

theorem exists_isReady_iff (lister : Lister) :
    (∃ ep, IsReady endpointSlices port ep ∧ ep.addresses ≠ []) ↔
      podEndpoints lister endpointSlices port ≠ [] := by
  constructor
  · rintro ⟨ep, hep, haddresses⟩
    obtain ⟨addr, haddr⟩ := exists_mem_of_ne_nil _ haddresses
    exact ne_nil_of_mem (mem_podEndpoints.mpr ⟨ep, addr, hep, haddr, rfl⟩)
  · intro hne
    obtain ⟨x, hx⟩ := exists_mem_of_ne_nil _ hne
    obtain ⟨ep, addr, hep, haddr, -⟩ := mem_podEndpoints.mp hx
    exact ⟨ep, hep, ne_nil_of_mem haddr⟩

/-- The lookups are exact up to unnamed service ports before the port with the number, and ready
addresses that several pods share. -/
theorem isExact_iff (servicePort : Nat) (pods : List Pod) :
    IsExact lister svc endpointSlices backendPort servicePort pods ↔
      (backendPort.name = "" → HasNumberFirst svc backendPort) ∧
      (∀ port ∈ targetPort lister svc backendPort, SharesPods lister endpointSlices port) ∧
      ∀ port ∈ targetPort lister svc { number := servicePort },
        SharesOwners endpointSlices pods port := by
  rw [IsExact, ← getServicePortForIngressPort_eq_iff]
  refine and_congr_right fun hport => and_congr ?_ ?_
  · rw [finds_iff fun port => (podEndpoints lister endpointSlices port).dedup]
    · refine forall₂_congr fun port _ => ?_
      rw [lists_podEndpoints_iff]
      exact ⟨fun h ep ep' hep hep' addr haddr => h ⟨ep, hep, ne_nil_of_mem haddr⟩ ep ep' hep hep'
        addr haddr, fun h _ => h⟩
    · intro eps
      rw [getEndpointsForPortFromEndpointSlices, withTargetPort_eq_ok, hport]
      simp only [exists_isReady_iff lister, targetPort, dedup_eq_nil]
      refine exists_congr fun port => and_congr_right fun _ => ?_
      by_cases hnil : podEndpoints lister endpointSlices port = [] <;> simp [hnil, eq_comm]
  · rw [finds_iff fun port => getEndpointsFromEndpointSlicesForSubselectedPods endpointSlices port
      pods]
    · simp only [lists_subselected_iff, true_imp_iff]
    · intro eps
      rw [getEndpointsForSubselector, withTargetPort_eq_ok]
      simp [targetPort, referenced, eq_comm]

/-- The only port of a service is unnamed and answers for every number. -/
theorem unnamed_port_answers_other_number :
    let port : Port := ⟨80, by decide⟩
    let slice : EndpointSlice := ⟨[some port], [⟨["10.0.0.1"], some true, none⟩]⟩
    (getEndpointsForPortFromEndpointSlices ⟨fun _ => ("", ""), fun _ => .error ""⟩
      ⟨"tea", [{ port }]⟩ [slice] { number := 8080 }).toOption =
        some [{ address := "10.0.0.1:80" }] := by
  decide +kernel

end IngressController.Controller
