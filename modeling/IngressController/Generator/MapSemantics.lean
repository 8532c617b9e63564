import IngressController.Generator.Config

/-! # What maps compute

How NGINX evaluates the maps of a configuration. The source of a map is a concatenation of
variables. A map looks its value up among the exact keys, then among the regular expressions in
their order, and takes the default if there is neither. The only regular expressions here are
literal beginnings.
-/

namespace IngressController.Configs

open GoString Version2 List

def unescape : List Char → List Char
  | [] => []
  | [c] => [c]
  | c :: d :: rest =>
    if c = '\\' then
      if d = '"' || d = '\'' || d = '\\' then d :: unescape rest
      else if d = 't' then '\t' :: unescape rest
      else if d = 'r' then '\r' :: unescape rest
      else if d = 'n' then '\n' :: unescape rest
      else c :: unescape (d :: rest)
    else c :: unescape (d :: rest)

variable (value : String)

/-- The exact key of an entry: quotes are removed, and a backslash before a special parameter. -/
def keyText : String :=
  match value.toList with
  | '"' :: rest => String.ofList (unescape rest.dropLast)
  | '\\' :: rest => String.ofList rest
  | cs => String.ofList cs

/-- The literal text a regular expression of the form `~^text` asks for. -/
def literalStart : Option (List Char) :=
  match value.toList with
  | '~' :: '^' :: text => some text
  | _ => none

def hasKey (key : String) (p : Parameter) : Bool :=
  p.value ≠ "default" && (literalStart p.value).isNone && keyText p.value = key

def hasStart (p : Parameter) : Bool :=
  (literalStart p.value).any (·.isPrefixOf value.toList)

def lookupParameter (parameters : List Parameter) (value : String) : Option Parameter :=
  ((parameters.find? (hasKey value)).or (parameters.find? (hasStart value))).or
    (parameters.find? (·.value = "default"))

def lookupMap (m : Map) (value : String) : String :=
  ((lookupParameter m.parameters value).map Parameter.result).getD ""

def sourceVariables (source : String) : List String :=
  ((source.toList.splitOn '$').tail).map fun name => String.ofList ('$' :: name)

section

variable (maps : List Map) (env : String → String)

/-- The value of a variable: that of its map, or what the request gives. Results that are variables
are evaluated in turn, with `fuel` for chains of maps. -/
def valueOf : Nat → String → Option String
  | 0, _ => none
  | fuel + 1, v =>
    match maps.find? (·.variableName = v) with
    | none => some (env v)
    | some m => do
        let values ← (sourceVariables m.source).mapM (valueOf fuel)
        let result := lookupMap m (String.join values)
        if hasPrefix result "$" then valueOf fuel result else some result

def selectedBy (fuel : Nat) (m : Map) : Option String := do
  let values ← (sourceVariables m.source).mapM (valueOf maps env fuel)
  some (lookupMap m (String.join values))

def selected (fuel : Nat) (v : String) : Option String :=
  (maps.find? (·.variableName = v)).bind (selectedBy maps env fuel)

end

section

variable {maps : List Map} (env : String → String) (fuel : Nat) {m : Map} {v : String}

theorem find?_of_unique {α : Type} {l : List α} {p : α → Bool} {a : α} (ha : a ∈ l)
    (hp : p a = true) (hunique : ∀ b ∈ l, p b = true → b = a) : l.find? p = some a := by
  cases hfind : l.find? p with
  | none => exact absurd hp (find?_eq_none.mp hfind a ha)
  | some b => rw [hunique b (mem_of_find?_eq_some hfind) (find?_some hfind)]

theorem valueOf_request (h : ∀ m ∈ maps, m.variableName ≠ v) :
    valueOf maps env (fuel + 1) v = some (env v) := by
  have hnone : maps.find? (·.variableName = v) = none := by
    rw [find?_eq_none]
    exact fun m hm => by simpa using h m hm
  rw [valueOf, hnone]

theorem valueOf_map (hm : m ∈ maps)
    (hunique : ∀ m' ∈ maps, m'.variableName = m.variableName → m' = m) :
    valueOf maps env (fuel + 1) m.variableName = (selectedBy maps env fuel m).bind fun result =>
        if hasPrefix result "$" then valueOf maps env fuel result else some result := by
  have hfind : maps.find? (·.variableName = m.variableName) = some m :=
    find?_of_unique hm (by simp) fun m' hm' heq => hunique m' hm' (by simpa using heq)
  rw [valueOf, hfind]
  simp only [selectedBy, Option.bind_eq_bind, Option.bind_assoc, Option.bind_some]

theorem selected_map (hm : m ∈ maps)
    (hunique : ∀ m' ∈ maps, m'.variableName = m.variableName → m' = m) :
    selected maps env fuel m.variableName = selectedBy maps env fuel m := by
  have hfind : maps.find? (·.variableName = m.variableName) = some m :=
    find?_of_unique hm (by simp) fun m' hm' heq => hunique m' hm' (by simpa using heq)
  rw [selected, hfind, Option.bind_some]

/-- A text is a variable: a dollar sign and a name without one. -/
def IsVariable (v : String) : Prop := ∃ name : List Char, v.toList = '$' :: name ∧ '$' ∉ name

theorem splitOn_append {sep : Char} {cs : List Char} (h : sep ∉ cs) (rest : List Char) :
    (cs ++ rest).splitOn sep = (rest.splitOn sep).modifyHead (cs ++ ·) := by
  induction cs with
  | nil => cases hrest : rest.splitOn sep <;> simp [hrest]
  | cons c cs ih =>
    rw [mem_cons, not_or] at h
    rw [cons_append, splitOn_cons, if_neg (Ne.symm h.1), ih h.2, modifyHead_modifyHead]
    rfl

/-- A concatenation of variables consists of these variables. -/
theorem sourceVariables_join {vs : List String} (h : ∀ v ∈ vs, IsVariable v) :
    sourceVariables (String.join vs) = vs := by
  have hnames : ∃ names, (String.join vs).toList.splitOn '$' = [] :: names ∧
      names.map (fun name => String.ofList ('$' :: name)) = vs := by
    induction vs with
    | nil => exact ⟨[], rfl, rfl⟩
    | cons v vs ih =>
      obtain ⟨names, hsplit, hnames⟩ := ih fun v' hv' => h v' (mem_cons_of_mem _ hv')
      obtain ⟨name, hv, hname⟩ := h v mem_cons_self
      refine ⟨name :: names, ?_, ?_⟩
      · rw [String.join_cons, String.toList_append, hv, cons_append, splitOn_cons, if_pos rfl,
          splitOn_append hname, hsplit]
        simp
      · rw [map_cons, hnames, ← hv, String.ofList_toList]
  obtain ⟨names, hsplit, hnames⟩ := hnames
  rw [sourceVariables, hsplit, tail_cons, hnames]

theorem sourceVariables_of_isVariable (h : IsVariable v) : sourceVariables v = [v] := by
  have hjoin : sourceVariables (String.join [v]) = [v] := sourceVariables_join (by simpa using h)
  simpa using hjoin

end

end IngressController.Configs
