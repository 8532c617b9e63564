import Mathlib.Data.Prod.Lex
import Mathlib.Order.OrderDual
import IngressController.Library.GoMap

/-! # Object metadata

Names and namespaces are made of the characters the API server admits. They contain no
slash, so the key `namespace/name` determines both.
-/

namespace IngressController

/-- The characters of DNS subdomains. -/
def isNameChar (c : Char) : Bool :=
  ('a' ≤ c && c ≤ 'z') || ('0' ≤ c && c ≤ '9') || c = '-' || c = '.'

/-- A name the API server admits for an object or a namespace. -/
def ResourceName := { s : String // s.toList.all isNameChar = true }
deriving DecidableEq

theorem ResourceName.not_mem (n : ResourceName) {c : Char} (hc : isNameChar c = false) :
    c ∉ n.val.toList := by
  intro hin
  have hname := List.all_eq_true.mp n.property c hin
  rw [hc] at hname
  cases hname

/-- A literal name. -/
def ResourceName.of (s : String) (h : s.toList.all isNameChar = true := by exact Eq.refl true) :
    ResourceName := ⟨s, h⟩

instance : Coe ResourceName String := ⟨Subtype.val⟩

/-- The part of `metav1.ObjectMeta` the controller reads. A nil annotation map is `none`. -/
structure ObjectMeta where
  nspace : ResourceName
  name : ResourceName
  uid : String := ""
  generation : Int := 0
  creationTimestamp : Int := 0
  labels : GoMap String := ∅
  annotations : Option (GoMap String) := none
deriving DecidableEq

/-- Reading a possibly nil map; a missing key gives the empty string. -/
def ObjectMeta.annotation (m : ObjectMeta) (name : String) : String :=
  ((m.annotations.getD ∅)[name]?).getD ""

def getResourceKey (m : ObjectMeta) : String :=
  m.nspace.val ++ "/" ++ m.name.val

def ingressKind : String := "Ingress"
def virtualServerKind : String := "VirtualServer"
def virtualServerRouteKind : String := "VirtualServerRoute"
def transportServerKind : String := "TransportServer"

def getResourceKeyWithKind (kind : String) (m : ObjectMeta) : String :=
  kind ++ "/" ++ m.nspace.val ++ "/" ++ m.name.val

variable (meta1 meta2 : ObjectMeta)

def compareObjectMetas : Bool :=
  meta1.nspace = meta2.nspace && meta1.name = meta2.name && meta1.generation = meta2.generation

def compareObjectMetasWithAnnotations : Bool :=
  compareObjectMetas meta1 meta2 && meta1.annotations = meta2.annotations

def chooseObjectMetaWinner : Bool :=
  if meta1.creationTimestamp = meta2.creationTimestamp then meta1.uid > meta2.uid
  else meta1.creationTimestamp < meta2.creationTimestamp

theorem getResourceKeyWithKind_eq (kind : String) (m : ObjectMeta) :
    getResourceKeyWithKind kind m = kind ++ "/" ++ getResourceKey m := by
  simp [getResourceKeyWithKind, getResourceKey, String.append_assoc]

private theorem append_slash_inj {a b c d : List Char} (ha : '/' ∉ a) (hc : '/' ∉ c)
    (h : a ++ '/' :: b = c ++ '/' :: d) : a = c ∧ b = d := by
  have hhead : ∀ xs ys : List Char, '/' ∉ xs → (xs ++ '/' :: ys).takeWhile (· ≠ '/') = xs := by
    intro xs ys hxs
    rw [List.takeWhile_append_of_pos (by
      intro x hx
      simpa using fun he : x = '/' => hxs (he ▸ hx))]
    simp
  have hac : a = c := by rw [← hhead a b ha, h, hhead c d hc]
  subst hac
  simpa using h

/-- A slash-free head can be read off a string that has a slash right after it. -/
theorem slash_split {a b c d : String} (ha : '/' ∉ a.toList) (hc : '/' ∉ c.toList)
    (h : a ++ "/" ++ b = c ++ "/" ++ d) : a = c ∧ b = d := by
  have hlist : a.toList ++ '/' :: b.toList = c.toList ++ '/' :: d.toList := by
    simpa [String.toList_append] using congrArg String.toList h
  obtain ⟨h1, h2⟩ := append_slash_inj ha hc hlist
  exact ⟨String.toList_inj.mp h1, String.toList_inj.mp h2⟩

variable {m m' : ObjectMeta}

theorem getResourceKey_inj :
    getResourceKey m = getResourceKey m' ↔ m.nspace = m'.nspace ∧ m.name = m'.name := by
  constructor
  · intro h
    obtain ⟨h1, h2⟩ := slash_split (m.nspace.not_mem (by decide)) (m'.nspace.not_mem (by decide)) h
    exact ⟨Subtype.ext h1, Subtype.ext h2⟩
  · rintro ⟨h1, h2⟩
    simp [getResourceKey, h1, h2]

/-- A key holds one slash, a key with its kind two. -/
theorem getResourceKey_ne_withKind (kind : String) (m m' : ObjectMeta) :
    getResourceKey m ≠ getResourceKeyWithKind kind m' := by
  intro h
  have hcount := congrArg (fun s => s.toList.count '/') h
  have hzero : ∀ n : ResourceName, n.val.toList.count '/' = 0 := fun n =>
    List.count_eq_zero.mpr (n.not_mem (by decide))
  simp [getResourceKey, getResourceKeyWithKind, String.toList_append, List.count_append,
    hzero] at hcount

theorem compareObjectMetas_iff :
    compareObjectMetas m m' = true ↔
      m.nspace = m'.nspace ∧ m.name = m'.name ∧ m.generation = m'.generation := by
  simp [compareObjectMetas, and_assoc]

/-- The order of arbitration: older first, and of equally old ones the greater UID first. -/
def ObjectMeta.age (m : ObjectMeta) : ℤ ×ₗ Stringᵒᵈ :=
  toLex (m.creationTimestamp, OrderDual.toDual m.uid)

theorem chooseObjectMetaWinner_iff :
    chooseObjectMetaWinner m m' = true ↔ m.age < m'.age := by
  unfold chooseObjectMetaWinner ObjectMeta.age
  rw [Prod.Lex.toLex_lt_toLex]
  split
  · rename_i h
    simp [h]
  · rename_i h
    simp [h]

theorem ObjectMeta.age_inj (h : m.age = m'.age) : m.uid = m'.uid := by
  have := congrArg (fun p => OrderDual.ofDual (ofLex p).2) h
  simpa [ObjectMeta.age] using this

end IngressController
