import IngressController.Api.Meta
import IngressController.Library.GoString
import IngressController.Library.StatusLog

/-! # The App Protect DoS configuration

The stores of DosProtectedResources and of the policies and log configurations they refer
to. Every event returns the changes for the resources it affects.
-/

namespace IngressController.AppProtectDos

open GoString (contains)

inductive Operation where
  | delete
  | addOrUpdate
deriving DecidableEq

/-- A policy or a log configuration. Its content is read by the validation only. -/
structure Unstructured where
  objectMeta : ObjectMeta
  content : String := ""

structure DosSecurityLog where
  apDosLogConf : String

/-- The other settings are read by the validation only. -/
structure DosProtectedResource where
  objectMeta : ObjectMeta
  apDosPolicy : String := ""
  dosSecurityLog : Option DosSecurityLog := none
  settings : String := ""

/-- `DosPolicyEx`, `DosLogConfEx` and `DosProtectedResourceEx`. -/
structure StoredEx (α : Type) where
  obj : α
  isValid : Bool
  errorMsg : String := ""

abbrev DosPolicyEx := StoredEx Unstructured
abbrev DosLogConfEx := StoredEx Unstructured
abbrev DosProtectedResourceEx := StoredEx DosProtectedResource

inductive Resource where
  | policy (ex : DosPolicyEx)
  | logConf (ex : DosLogConfEx)
  | protectedResource (ex : DosProtectedResourceEx)

structure Change where
  op : Operation
  resource : Resource

structure Problem where
  object : ObjectMeta
  reason : String
  message : String

structure Configuration where
  dosPolicies : GoMap DosPolicyEx := ∅
  dosLogConfs : GoMap DosLogConfEx := ∅
  dosProtectedResource : GoMap DosProtectedResourceEx := ∅
  isDosEnabled : Bool

def newConfiguration (isDosEnabled : Bool) : Configuration := { isDosEnabled }

/-- The checks of `pkg/apis/dos/validation`: an error, and a warning for log configurations. -/
structure Validation where
  validateAppProtectDosPolicy : Unstructured → Option String
  validateAppProtectDosLogConf : Unstructured → String × Option String
  validateDosProtectedResource : DosProtectedResource → Option String

/-- The order of the loops over the protected resources. -/
abbrev Order := IterOrder Unit String

variable (v : Validation)

def storedEx {α : Type} (kind : String) (obj : α) (warning : String) : Option String → StoredEx α
  | some err => ⟨obj, false, "failed to store " ++ kind ++ ": " ++ err⟩
  | none => ⟨obj, true, warning⟩

def createAppProtectDosPolicyEx (obj : Unstructured) : DosPolicyEx × Option String :=
  let err := v.validateAppProtectDosPolicy obj
  (storedEx "ApDosPolicy" obj "" err, err)

def createAppProtectDosLogConfEx (obj : Unstructured) : DosLogConfEx × Option String :=
  let (warning, err) := v.validateAppProtectDosLogConf obj
  (storedEx "ApDosLogconf" obj warning err, err)

def createDosProtectedResourceEx (obj : DosProtectedResource) :
    DosProtectedResourceEx × Option String :=
  let err := v.validateDosProtectedResource obj
  (storedEx "DosProtectedResource" obj "" err, err)

def getNsName (defaultNamespace name : String) : String :=
  if contains name '/' then name else defaultNamespace ++ "/" ++ name

/-- `getPolicy` and `getLogConf`. -/
def getValid (kind : String) (table : GoMap (StoredEx Unstructured)) (key : String) :
    Except String Unstructured :=
  match table[key]? with
  | none => .error (kind ++ " " ++ key ++ " not found")
  | some ex => if ex.isValid then .ok ex.obj else .error ex.errorMsg

/-- What a reference of a protected resource leads to; an error comes with the full name. -/
def follow (kind : String) (table : GoMap (StoredEx Unstructured)) (p : DosProtectedResource)
    (reference : String) : Except (String × String) (Option Unstructured) :=
  if reference = "" then .ok none
  else
    let key := getNsName p.objectMeta.nspace reference
    match getValid kind table key with
    | .error err => .error (key, err)
    | .ok obj => .ok (some obj)

def DosProtectedResource.logConfReference (p : DosProtectedResource) : String :=
  match p.dosSecurityLog with
  | some log => log.apDosLogConf
  | none => ""

namespace Configuration

variable (c : Configuration) (p : DosProtectedResource)

def followPolicy : Except (String × String) (Option Unstructured) :=
  follow "DosPolicy" c.dosPolicies p p.apDosPolicy

def followLogConf : Except (String × String) (Option Unstructured) :=
  follow "DosLogConf" c.dosLogConfs p p.logConfReference

def verdict : Operation × List Problem :=
  let rejected message := (Operation.delete, [⟨p.objectMeta, "Rejected", message⟩])
  match (createDosProtectedResourceEx v p).2, c.followPolicy p, c.followLogConf p with
  | some err, _, _ => rejected err
  | none, .error (key, err), _ =>
    rejected ("dos protected refers (" ++ key ++ ") to an invalid DosPolicy: " ++ err)
  | none, .ok _, .error (key, err) =>
    rejected ("dos protected refers (" ++ key ++ ") to an invalid DosLogConf: " ++ err)
  | none, .ok _, .ok _ => (.addOrUpdate, [])

def addOrUpdateDosProtectedResource : Configuration × List Change × List Problem :=
  let ex := (createDosProtectedResourceEx v p).1
  let c := { c with
    dosProtectedResource := c.dosProtectedResource.insert (getResourceKey p.objectMeta) ex }
  let (op, problems) := c.verdict v p
  (c, [⟨op, .protectedResource ex⟩], problems)

structure DosEx where
  dosProtected : DosProtectedResource
  dosPolicy : Option Unstructured
  dosLogConf : Option Unstructured

def getValidDosEx (parentNamespace nsName : String) : Except String DosEx :=
  let key := getNsName parentNamespace nsName
  if c.isDosEnabled = false then
    .error ("DosProtectedResource is referenced but Dos feature is not enabled. resource: " ++ key)
  else match c.dosProtectedResource[key]? with
    | none => .error ("DosProtectedResource " ++ key ++ " not found")
    | some ex =>
      if ex.isValid = false then .error ex.errorMsg
      else match c.followPolicy ex.obj, c.followLogConf ex.obj with
        | .error (_, err), _ =>
          .error ("DosProtectedResource references a missing DosPolicy: " ++ err)
        | .ok _, .error (_, err) =>
          .error ("DosProtectedResource references a missing DosLogConf: " ++ err)
        | .ok dosPolicy, .ok dosLogConf => .ok ⟨ex.obj, dosPolicy, dosLogConf⟩

variable (ord : Order)

/-- The stored resources a loop over the store selects. -/
def protectedThat (selects : DosProtectedResource → Bool) : List DosProtectedResource :=
  (ord.visit () c.dosProtectedResource.keys).filterMap fun key =>
    (c.dosProtectedResource[key]?.map StoredEx.obj).filter selects

variable (key : String)

/-- A reference mentions a key with or without the namespace of its owner. -/
def mentions (p : DosProtectedResource) (reference : String) : Bool :=
  key = reference || key = p.objectMeta.nspace.val ++ "/" ++ reference

def getDosProtectedThatReferencedDosPolicy : List DosProtectedResource :=
  c.protectedThat ord fun p => mentions key p p.apDosPolicy

def getDosProtectedThatReferencedDosLogConf : List DosProtectedResource :=
  c.protectedThat ord fun p => p.dosSecurityLog.any fun log => mentions key p log.apDosLogConf

/-- The loop over the affected resources that every policy and log configuration event ends
with. -/
def addOrUpdateAll : List DosProtectedResource → Configuration × List Change × List Problem →
    Configuration × List Change × List Problem
  | [], done => done
  | p :: ps, (c, changes, problems) =>
    let (c, more, moreProblems) := c.addOrUpdateDosProtectedResource v p
    addOrUpdateAll ps (c, changes ++ more, problems ++ moreProblems)

variable (obj : Unstructured)

/-- The change and the problem of a stored policy or log configuration. -/
def storedChange (resource : Resource) :
    Option String → List Change × List Problem
  | some err => ([⟨.delete, resource⟩], [⟨obj.objectMeta, "Rejected", err⟩])
  | none => ([⟨.addOrUpdate, resource⟩], [])

def addOrUpdatePolicy : Configuration × List Change × List Problem :=
  let key := getResourceKey obj.objectMeta
  let (policy, err) := createAppProtectDosPolicyEx v obj
  let c := { c with dosPolicies := c.dosPolicies.insert key policy }
  addOrUpdateAll v (c.getDosProtectedThatReferencedDosPolicy ord key)
    (c, storedChange obj (.policy policy) err)

def addOrUpdateLogConf : Configuration × List Change × List Problem :=
  let key := getResourceKey obj.objectMeta
  let (logConf, err) := createAppProtectDosLogConfEx v obj
  let c := { c with dosLogConfs := c.dosLogConfs.insert key logConf }
  addOrUpdateAll v (c.getDosProtectedThatReferencedDosLogConf ord key)
    (c, storedChange obj (.logConf logConf) err)

def deletePolicy : Configuration × List Change × List Problem :=
  let changes := c.dosPolicies[key]?.toList.map fun ex => ⟨.delete, .policy ex⟩
  let c := { c with dosPolicies := c.dosPolicies.erase key }
  addOrUpdateAll v (c.getDosProtectedThatReferencedDosPolicy ord key) (c, changes, [])

def deleteLogConf : Configuration × List Change × List Problem :=
  let changes := c.dosLogConfs[key]?.toList.map fun ex => ⟨.delete, .logConf ex⟩
  let c := { c with dosLogConfs := c.dosLogConfs.erase key }
  addOrUpdateAll v (c.getDosProtectedThatReferencedDosLogConf ord key) (c, changes, [])

def deleteProtectedResource : Configuration × List Change × List Problem :=
  match c.dosProtectedResource[key]? with
  | some ex =>
    ({ c with dosProtectedResource := c.dosProtectedResource.erase key },
      [⟨.delete, .protectedResource ex⟩], [])
  | none => (c, [], [])

end Configuration

inductive Event where
  | addOrUpdatePolicy (obj : Unstructured)
  | addOrUpdateLogConf (obj : Unstructured)
  | addOrUpdateDosProtectedResource (obj : DosProtectedResource)
  | deletePolicy (key : String)
  | deleteLogConf (key : String)
  | deleteProtectedResource (key : String)

def Event.run (ord : Order) (c : Configuration) : Event → Configuration × List Change × List Problem
  | addOrUpdatePolicy obj => c.addOrUpdatePolicy v ord obj
  | addOrUpdateLogConf obj => c.addOrUpdateLogConf v ord obj
  | addOrUpdateDosProtectedResource obj => c.addOrUpdateDosProtectedResource v obj
  | deletePolicy key => c.deletePolicy v ord key
  | deleteLogConf key => c.deleteLogConf v ord key
  | deleteProtectedResource key => c.deleteProtectedResource key

/-- The configuration after a run, with all changes in the order they were returned. -/
def Event.runs (c : Configuration) : List (Order × Event) → Configuration × List Change
  | [] => (c, [])
  | (ord, e) :: rest =>
    let (c, changes, _) := e.run v ord c
    let (c, more) := runs c rest
    (c, changes ++ more)

end IngressController.AppProtectDos
