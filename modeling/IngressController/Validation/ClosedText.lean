import IngressController.Validation.Text

/-! # Variables of accepted texts

What NGINX reads as variables in a text that `validateStringWithVariables` accepts.
-/

namespace IngressController.Validation

open GoString

/-- A concatenation of characters other than `$` and of references to variables that are `ok`. -/
inductive IsClosed (ok : String → Prop) : List Char → Prop
  | nil : IsClosed ok []
  | text {c cs} (hc : c ≠ '$') (hcs : IsClosed ok cs) : IsClosed ok (c :: cs)
  | reference {v cs} (hv : ok v) (hcs : IsClosed ok cs) :
      IsClosed ok ('$' :: '\x7b' :: (v.toList ++ '\x7d' :: cs))

def isWordChar (c : Char) : Bool :=
  c = '_' || ('A' ≤ c && c ≤ 'Z') || ('a' ≤ c && c ≤ 'z') || isDigit c

/-- What NGINX's script compiler has read last; a name may be in brackets. -/
inductive Reading
  | text
  | dollar
  | name (bracket : Bool) (read : List Char)

/-- The variables that `ngx_http_script_compile` reads in a text, or none if it refuses the text.
A digit after the dollar sign is a group of the last match. -/
def scriptVariables : Reading → List Char → Option (List String)
  | .text, [] => some []
  | .text, c :: rest => scriptVariables (if c = '$' then .dollar else .text) rest
  | .dollar, [] => none
  | .dollar, c :: rest =>
    if '1' ≤ c && c ≤ '9' then (scriptVariables .text rest).map (String.ofList [c] :: ·)
    else if c = '\x7b' then scriptVariables (.name true []) rest
    else if isWordChar c then scriptVariables (.name false [c]) rest
    else none
  | .name bracket read, [] => if bracket then none else some [String.ofList read]
  | .name bracket read, c :: rest =>
    if isWordChar c then scriptVariables (.name bracket (read ++ [c])) rest
    else if !bracket then
      (scriptVariables (if c = '$' then .dollar else .text) rest).map (String.ofList read :: ·)
    else if c = '\x7d' ∧ read ≠ [] then
      (scriptVariables .text rest).map (String.ofList read :: ·)
    else none

/-- Header names consist of letters, digits and dashes. -/
def HasWordHeaders (lib : Libraries) : Prop :=
  ∀ name, lib.isHTTPHeaderName name = [] → isWord (replaceAll name '-' '_') = true

/-- A name that NGINX can read as a variable. -/
abbrev VariableName := { v : String // isWord v = true }

/-- A name with a special prefix needs a valid suffix, even if it is among the variables. -/
def IsAllowed (lib : Libraries) (isPlus : Bool) (path : String) (specialVars : List String)
    (vars : List VariableName) (v : String) : Prop :=
  if specialVars.any (hasPrefix v) then validateSpecialVariable lib isPlus v path = []
  else v ∈ vars.map Subtype.val

variable {ok : String → Prop} {s : String} {v cs : List Char}

theorem captureFrom_name (hv : '\x7d' ∉ v) (name : List Char) :
    captureFrom (some name) (v ++ '\x7d' :: cs) =
      String.ofList (name ++ v) :: captureFrom none cs := by
  induction v generalizing name with
  | nil => simp [captureFrom]
  | cons c v ih =>
    rw [List.mem_cons, not_or] at hv
    simp [captureFrom, Ne.symm hv.1, ih hv.2]

theorem scriptVariables_name (hv : ∀ c ∈ v, isWordChar c = true) (name : List Char)
    (hne : name ++ v ≠ []) :
    scriptVariables (.name true name) (v ++ '\x7d' :: cs) =
      (scriptVariables .text cs).map (String.ofList (name ++ v) :: ·) := by
  induction v generalizing name with
  | nil =>
    have hbrace : isWordChar '\x7d' = false := by decide
    simp_all [scriptVariables]
  | cons c v ih =>
    rw [List.forall_mem_cons] at hv
    simp [scriptVariables, hv.1, ih hv.2 (name ++ [c]) (by simp)]

theorem hasBareDollar_of_append (h : hasBareDollar (v ++ cs) = false) :
    hasBareDollar cs = false := by
  induction v with
  | nil => exact h
  | cons c v ih => exact ih (Bool.or_eq_false_iff.mp h).2

theorem hasBareDollar_append (hv : '$' ∉ v) : hasBareDollar (v ++ cs) = hasBareDollar cs := by
  induction v with
  | nil => rfl
  | cons c v ih =>
    rw [List.mem_cons, not_or] at hv
    simp [hasBareDollar, Ne.symm hv.1, ih hv.2]

theorem isClosed_of_captured {cs : List Char} (hbare : hasBareDollar cs = false)
    (hok : ∀ v ∈ captureFrom none cs, ok v) : IsClosed ok cs := by
  match cs with
  | [] => exact .nil
  | c :: rest =>
    by_cases hc : c = '$'
    · subst hc
      have hopen : rest.head? = some '\x7b' ∧ '\x7d' ∈ rest := by
        simpa using (Bool.or_eq_false_iff.mp hbare).1
      obtain ⟨inner, rfl⟩ := List.head?_eq_some_iff.mp hopen.1
      have hmem : '\x7d' ∈ inner := by simpa using hopen.2
      obtain ⟨v, cs, rfl, hv⟩ := List.eq_append_cons_of_mem hmem
      have hcapture : captureFrom none ('$' :: '\x7b' :: (v ++ '\x7d' :: cs)) =
        String.ofList v :: captureFrom none cs := captureFrom_name hv []
      rw [hcapture, List.forall_mem_cons] at hok
      have hrest : hasBareDollar cs = false :=
        hasBareDollar_of_append (v := '$' :: '\x7b' :: (v ++ ['\x7d'])) (by simpa using hbare)
      simpa using IsClosed.reference hok.1 (isClosed_of_captured hrest hok.2)
    · have hcapture : captureFrom none (c :: rest) = captureFrom none rest := by
        simp [captureFrom, hc]
      rw [hcapture] at hok
      exact .text hc (isClosed_of_captured (hasBareDollar_of_append (v := [c]) hbare) hok)
termination_by cs.length

theorem isWord_iff : isWord s = true ↔ s ≠ "" ∧ ∀ c ∈ s.toList, isWordChar c = true := by
  simp [isWord, isWordChar]

/-- NGINX reads in a closed text the names that the validator captures. -/
theorem IsClosed.scans (hword : ∀ v, ok v → isWord v = true) (h : IsClosed ok cs) :
    hasBareDollar cs = false ∧ (∀ v ∈ captureFrom none cs, ok v) ∧
      scriptVariables .text cs = some (captureFrom none cs) := by
  induction h with
  | nil => simp [hasBareDollar, captureFrom, scriptVariables]
  | @text c cs hc _ ih => simpa [hasBareDollar, captureFrom, scriptVariables, hc] using ih
  | @reference v cs hv _ ih =>
    obtain ⟨hne, hchars⟩ := isWord_iff.mp (hword v hv)
    have hdollar : '$' ∉ v.toList := fun hin => absurd (hchars _ hin) (by decide)
    have hbrace : '\x7d' ∉ v.toList := fun hin => absurd (hchars _ hin) (by decide)
    have hcapture := @captureFrom_name v.toList cs hbrace []
    have hscript := @scriptVariables_name v.toList cs hchars [] (by simpa using hne)
    refine ⟨?_, ?_, ?_⟩
    · simp [hasBareDollar, hasBareDollar_append hdollar, ih.1]
    · simp [captureFrom, hcapture, hv]
      exact ih.2.1
    · simp [scriptVariables, captureFrom, hcapture, hscript, ih.2.2]

theorem intercalate_splitAtMost (sep : Char) (n : Nat) (cs : List Char) :
    [sep].intercalate (splitAtMost sep n cs) = cs := by
  induction n generalizing cs with
  | zero => simp [splitAtMost]
  | succ n ih =>
    have happ := @List.takeWhile_append_dropWhile _ (· ≠ sep) cs
    rw [splitAtMost]
    cases hdrop : cs.dropWhile (· ≠ sep) with
    | nil => simp
    | cons c rest =>
      have hc := List.head?_dropWhile_not (· ≠ sep) cs
      rw [hdrop] at happ hc
      simp only
      rw [List.intercalate_cons_of_ne_nil (splitAtMost_ne_nil sep n rest), ih]
      simp_all

theorem parseSpecialVariable_eq {nVar name value : String}
    (h : parseSpecialVariable nVar = some (name, value)) :
    nVar.toList = name.toList ++ '_' :: value.toList := by
  unfold parseSpecialVariable at h
  split at h <;> split at h <;> cases h
  · rename_i first second rest hsplit
    have := intercalate_splitAtMost '_' 2 nVar.toList
    rw [hsplit] at this
    simp [← this]
  · rename_i first rest hsplit
    have := intercalate_splitAtMost '_' 1 nVar.toList
    rw [hsplit] at this
    simp [← this]

variable {lib : Libraries} {isPlus : Bool} {path : String} {specialVars : List String}
  {vars : List VariableName} (hlib : HasWordHeaders lib)
include hlib

theorem isWord_of_isValidSpecialHeaderLikeVariable
    (h : isValidSpecialHeaderLikeVariable lib s = []) : isWord s = true := by
  have hs : lib.isHTTPHeaderName (replaceAll s '_' '-') = [] ∧ '-' ∉ s.toList := by
    simpa [isValidSpecialHeaderLikeVariable, contains] using h
  have hback : replaceAll (replaceAll s '_' '-') '-' '_' = s := by
    apply String.toList_inj.mp
    simp only [replaceAll, String.toList_ofList, List.map_map]
    refine (List.map_congr_left fun c hc => ?_).trans (List.map_id _)
    have hdash : c ≠ '-' := fun heq => hs.2 (heq ▸ hc)
    by_cases hunder : c = '_' <;> simp [hunder, hdash]
  exact hback ▸ hlib _ hs.1

theorem isWord_of_validateSpecialVariable (h : validateSpecialVariable lib isPlus s path = []) :
    isWord s = true := by
  unfold validateSpecialVariable at h
  split at h
  · cases h
  rename_i name value hparse
  have hparts : name.toList.all isWordChar = true ∧ isWord value = true := by
    have hheader := @isWord_of_isValidSpecialHeaderLikeVariable value lib hlib
    split_ifs at h with harg hhttp hcookie hjwt hplus hapikey <;> simp only [invalidAll_eq_nil] at h
    · exact ⟨harg ▸ by decide, by simpa [isArgumentName] using h⟩
    · exact ⟨hhttp ▸ by decide, hheader h⟩
    · exact ⟨hcookie ▸ by decide, by simpa [isCookieName] using h⟩
    · exact ⟨by rcases hjwt with rfl | rfl <;> decide, hheader h⟩
    · exact ⟨hapikey ▸ by decide, hheader h⟩
  have hs := parseSpecialVariable_eq hparse
  refine isWord_iff.mpr ⟨?_, ?_⟩
  · rintro rfl
    simp at hs
  · rw [hs, List.forall_mem_append, List.forall_mem_cons]
    exact ⟨List.all_eq_true.mp hparts.1, by decide, (isWord_iff.mp hparts.2).2⟩

theorem isWord_of_isAllowed (h : IsAllowed lib isPlus path specialVars vars s) :
    isWord s = true := by
  unfold IsAllowed at h
  split at h
  · exact isWord_of_validateSpecialVariable hlib h
  · obtain ⟨a, -, rfl⟩ := List.mem_map.mp h
    exact a.property

omit hlib in
theorem isAllowed_iff (v : String) : IsAllowed lib isPlus path specialVars vars v ↔
    (if specialVars.any (hasPrefix v) then validateSpecialVariable lib isPlus v path
      else validateVariable v (vars.map Subtype.val) path) = [] := by
  unfold IsAllowed
  split <;> simp [validateVariable]

/-- A text is accepted exactly if it is closed, and NGINX reads only allowed variables in it. -/
theorem validateStringWithVariables_eq_nil_iff :
    (validateStringWithVariables lib isPlus s path specialVars (vars.map Subtype.val) = [] ↔
      IsClosed (IsAllowed lib isPlus path specialVars vars) s.toList) ∧
    (validateStringWithVariables lib isPlus s path specialVars (vars.map Subtype.val) = [] →
      ∃ read, scriptVariables .text s.toList = some read ∧
        ∀ v ∈ read, IsAllowed lib isPlus path specialVars vars v) := by
  have haccept :
      validateStringWithVariables lib isPlus s path specialVars (vars.map Subtype.val) = [] ↔
      hasBareDollar s.toList = false ∧
        ∀ v ∈ captureVariables s, IsAllowed lib isPlus path specialVars vars v := by
    unfold validateStringWithVariables
    split_ifs with hsuffix hbare
    · -- the last dollar sign is followed by nothing
      obtain ⟨start, hstart⟩ := List.isSuffixOf_iff_suffix.mp hsuffix
      have hend : hasBareDollar s.toList ≠ false := fun h =>
        absurd (hasBareDollar_of_append (hstart ▸ h)) (by decide)
      simp [hend]
    · simp [hbare]
    · simp [isAllowed_iff, hbare]
  have hscans := fun h : IsClosed (IsAllowed lib isPlus path specialVars vars) s.toList =>
    h.scans fun _ => isWord_of_isAllowed hlib
  have hiff := haccept.trans ⟨fun h => isClosed_of_captured h.1 h.2,
    fun h => ⟨(hscans h).1, (hscans h).2.1⟩⟩
  exact ⟨hiff, fun h => ⟨_, (hscans (hiff.mp h)).2.2, (hscans (hiff.mp h)).2.1⟩⟩

omit hlib

def wordLibraries : Libraries :=
  { Libraries.permissive with
    isHTTPHeaderName := fun name => if isWord (replaceAll name '-' '_') then [] else [name] }

theorem isClosed_host_argument :
    IsClosed (IsAllowed wordLibraries false "url" ["arg_"] [⟨"host", by decide⟩])
      "$\x7bhost\x7d/$\x7barg_q\x7d".toList := by
  have hlib : HasWordHeaders wordLibraries := fun name h => by
    simpa [wordLibraries] using h
  exact (validateStringWithVariables_eq_nil_iff hlib).1.mp (by decide +kernel)

/-- A special prefix overrides the list of variables. -/
theorem listed_special_variable_refused :
    IsClosed (fun v => v ∈ ["arg_"] ∨ ["arg_"].any (hasPrefix v) ∧
      validateSpecialVariable .permissive false v "url" = []) "$\x7barg_\x7d".toList ∧
    validateStringWithVariables .permissive false "$\x7barg_\x7d" "url" ["arg_"] ["arg_"] ≠ [] :=
  ⟨@IsClosed.reference _ "arg_" [] (.inl (by simp)) .nil, by decide +kernel⟩

end IngressController.Validation
