import IngressController.Annotations.Values

/-! # The duration of a time

A time is a sequence of numbers with units. Its normal form leaves out the white space and gives
every number its unit, which changes nothing about the duration.
-/

namespace IngressController.Configs

open GoString Validation List

def skipSpace (cs : List Char) : List Char := cs.dropWhile isRegexSpace

/-- What stands between a number and the next number or white space. -/
def isUnitChar (c : Char) : Bool := !isDigit c && !isRegexSpace c

/-- A number with its unit and what follows. -/
structure TimeTerm where
  number : List Char
  unit : List Char
  rest : List Char

def readTerm (cs : List Char) : TimeTerm where
  number := (skipSpace cs).takeWhile isDigit
  unit := ((skipSpace cs).dropWhile isDigit).takeWhile isUnitChar
  rest := ((skipSpace cs).dropWhile isDigit).dropWhile isUnitChar

/-- The grammar of NGINX: numbers with units in decreasing order, each counted in milliseconds. -/
def durationFrom : List (List (List Char) × Nat) → List Char → Option Nat
  | [], cs => if skipSpace cs = [] then some 0 else none
  | (names, scale) :: units, cs =>
    let term := readTerm cs
    if term.number ≠ [] ∧ names.contains term.unit then
      (durationFrom units term.rest).map (decimalValue term.number * scale + ·)
    else durationFrom units cs

/-- Years of 365 days, months of 30 days, weeks, days, hours, minutes, seconds, milliseconds. -/
def timeScales : List Nat :=
  [31536000000, 2592000000, 604800000, 86400000, 3600000, 60000, 1000, 1]

/-- A number without a unit counts seconds. -/
def duration (s : String) : Option Nat := durationFrom (timeUnits.zip timeScales) s.toList

variable {unit : List (List Char)} {units : List (List (List Char))} {cs : List Char}
  {groups : List (List Char)}

theorem skipSpace_afterUnit (units : List (List (List Char))) (cs : List Char) :
    skipSpace (afterUnit units cs) = skipSpace cs := by
  unfold afterUnit
  split
  · rfl
  · exact dropWhile_idempotent _ _

theorem afterUnit_of_head {c : Char} (h : isRegexSpace c = false) :
    afterUnit units (c :: cs) = c :: cs := by
  unfold afterUnit
  split <;> simp [h]

theorem isSpace_of_isRegexSpace {c : Char} (h : isRegexSpace c = true) : isSpace c = true := by
  simp only [isRegexSpace, Bool.or_eq_true, decide_eq_true_eq] at h
  rcases h with (((rfl | rfl) | rfl) | rfl) | rfl <;> decide

theorem isRegexSpace_of_isDigit {c : Char} (h : isDigit c = true) : isRegexSpace c = false := by
  by_contra hspace
  rw [Bool.not_eq_false] at hspace
  exact absurd (isSpace_of_isRegexSpace hspace) (by simp [isSpace_of_isDigit h])

/-- A matched text starts with a number or white space. -/
theorem head_of_match (h : matchTime units (afterUnit units cs) = some groups) :
    ∀ c ∈ cs.head?, isUnitChar c = false := by
  cases cs with
  | nil => simp
  | cons c cs =>
    cases hspace : isRegexSpace c with
    | true => simp [isUnitChar, hspace]
    | false =>
      rw [afterUnit_of_head hspace] at h
      induction units generalizing groups with
      | nil => cases h
      | cons unit units ih =>
        obtain ⟨rest, hrest, -⟩ | ⟨digits, suffix, tail, rest, htext, hne, hdigits, -⟩ :=
          matchTime_cons h
        · rw [afterUnit_of_head hspace] at hrest
          exact ih hrest
        · cases digits with
          | nil => exact absurd rfl hne
          | cons d digits =>
            obtain rfl : c = d := (cons.inj htext).1
            simp [isUnitChar, hdigits c mem_cons_self]

theorem readTerm_append {digits name tail : List Char} (hne : digits ≠ [])
    (hdigits : ∀ c ∈ digits, isDigit c = true) (hends : EndsNumber (name ++ tail))
    (hname : ∀ c ∈ name, isUnitChar c = true) (htail : ∀ c ∈ tail.head?, isUnitChar c = false) :
    readTerm (digits ++ name ++ tail) = ⟨digits, name, tail⟩ := by
  have hskip : skipSpace (digits ++ (name ++ tail)) = digits ++ (name ++ tail) := by
    cases digits with
    | nil => exact absurd rfl hne
    | cons c digits => simp [skipSpace, isRegexSpace_of_isDigit (hdigits c mem_cons_self)]
  simp only [readTerm, append_assoc, hskip, span_append hdigits hends, span_append hname htail]

/-- Units with names of their own, the first of which is not empty. Only seconds have another. -/
structure AreUnits (units : List (List (List Char))) : Prop where
  names : ∀ name ∈ units.flatten, ∀ c ∈ name, isUnitChar c = true
  distinct : units.flatten.Nodup
  forms : ∀ unit ∈ units, unit = [['s'], []] ∨ ∃ name, unit = [name] ∧ name ≠ []

theorem areUnits_timeUnits : AreUnits timeUnits where
  names := by simp [timeUnits, isUnitChar, isDigit, isRegexSpace]
  distinct := by decide
  forms := by simp [timeUnits]

theorem AreUnits.tail (h : AreUnits (unit :: units)) : AreUnits units where
  names name hname := h.names name (mem_append_right _ hname)
  distinct := (nodup_append.mp h.distinct).2.1
  forms u hu := h.forms u (mem_cons_of_mem _ hu)

/-- A unit is skipped, or it is the unit of the first number. -/
theorem match_cases (hunits : AreUnits (unit :: units))
    (h : matchTime (unit :: units) cs = some groups) :
    (∃ rest, matchTime units (afterUnit units cs) = some rest ∧ groups = [] :: rest) ∨
      ∃ digits name tail rest, readTerm cs = ⟨digits, name, tail⟩ ∧ digits ≠ [] ∧
        (∀ c ∈ digits, isDigit c = true) ∧ name ∈ unit ∧
        matchTime units (afterUnit units tail) = some rest ∧ groups = (digits ++ name) :: rest := by
  refine (matchTime_cons h).imp_right ?_
  rintro ⟨digits, name, tail, rest, rfl, hne, hdigits, hends, hname, hrest, rfl⟩
  exact ⟨digits, name, tail, rest, readTerm_append hne hdigits hends
    (hunits.names name (mem_append_left _ hname)) (head_of_match hrest), hne, hdigits, hname, hrest,
    rfl⟩

theorem readTerm_congr {cs' : List Char} (h : skipSpace cs = skipSpace cs') :
    readTerm cs = readTerm cs' := by
  rw [readTerm, readTerm, h]

/-- The unit of the first number is one of those that are matched. -/
theorem unit_of_match (hunits : AreUnits units) (h : matchTime units cs = some groups)
    (hne : (readTerm cs).number ≠ []) : (readTerm cs).unit ∈ units.flatten := by
  induction units generalizing cs groups with
  | nil =>
    rw [matchTime] at h
    split_ifs at h with hnil
    exact absurd (by rw [hnil]; rfl) hne
  | cons unit units ih =>
    obtain ⟨rest, hrest, -⟩ | ⟨digits, name, tail, rest, hread, -, -, hname, -⟩ :=
      match_cases hunits h
    · rw [← readTerm_congr (skipSpace_afterUnit units cs)] at hne ⊢
      exact mem_append_right _ (ih hunits.tail hrest hne)
    · rw [hread]
      exact mem_append_left _ hname

theorem not_mem_of_match (hunits : AreUnits (unit :: units))
    (h : matchTime units (afterUnit units cs) = some groups) :
    ¬ ((readTerm cs).number ≠ [] ∧ unit.contains (readTerm cs).unit = true) := by
  rintro ⟨hne, hunit⟩
  rw [← readTerm_congr (skipSpace_afterUnit units cs)] at hne hunit
  exact (nodup_append.mp hunits.distinct).2.2 _ (contains_iff_mem.mp hunit) _
    (unit_of_match hunits.tail h hne) rfl

theorem durationFrom_congr (units : List (List (List Char) × Nat)) {cs cs' : List Char}
    (h : skipSpace cs = skipSpace cs') : durationFrom units cs = durationFrom units cs' := by
  induction units with
  | nil => simp [durationFrom, h]
  | cons u units ih =>
    unfold durationFrom
    rw [readTerm_congr h, ih]

/-- A number of seconds gets its unit. -/
def normalGroup (unit : List (List Char)) (group : List Char) : List Char :=
  if unit.contains [] ∧ group ≠ [] ∧ group.getLast? ≠ some 's' then group ++ ['s'] else group

/-- A group in normal form ends with the first name of its unit. -/
theorem normalGroup_term (hunits : AreUnits (unit :: units)) {digits name : List Char}
    (hne : digits ≠ []) (hdigits : ∀ c ∈ digits, isDigit c = true) (hname : name ∈ unit) :
    ∃ first more, unit = first :: more ∧ first ≠ [] ∧
      normalGroup unit (digits ++ name) = digits ++ first ∧
      normalGroup unit (digits ++ first) = digits ++ first := by
  obtain rfl | ⟨first, rfl, hfirst⟩ := hunits.forms unit mem_cons_self
  · refine ⟨['s'], _, rfl, by simp, ?_, by simp [normalGroup]⟩
    obtain rfl | rfl : name = ['s'] ∨ name = [] := by simpa using hname
    · simp [normalGroup]
    · have hlast : digits.getLast? ≠ some 's' := fun hs => by cases hdigits _ (mem_of_getLast? hs)
      simp [normalGroup, hne, hlast]
  · obtain rfl : name = first := by simpa using hname
    have hsame : normalGroup [name] (digits ++ name) = digits ++ name := by
      simp [normalGroup, hfirst.symm]
    exact ⟨name, [], rfl, hfirst, hsame, hsame⟩

/-- A number with the first name of a unit is read and matched by that unit. -/
theorem match_term {name digits : List Char} {more : List (List Char)}
    (hunits : AreUnits ((name :: more) :: units)) (hname : name ≠ []) (hne : digits ≠ [])
    (hdigits : ∀ c ∈ digits, isDigit c = true) (hspace : afterUnit units cs = cs)
    (h : matchTime units cs = some groups) :
    readTerm (digits ++ name ++ cs) = ⟨digits, name, cs⟩ ∧
      matchTime ((name :: more) :: units) (digits ++ name ++ cs) =
        some ((digits ++ name) :: groups) := by
  have hchars := hunits.names name (mem_append_left _ mem_cons_self)
  have hends : EndsNumber (name ++ cs) := by
    cases name with
    | nil => exact absurd rfl hname
    | cons c name =>
      have hc := hchars c mem_cons_self
      rw [isUnitChar, Bool.and_eq_true, Bool.not_eq_true'] at hc
      simp [EndsNumber, hc.1]
  have hread := readTerm_append hne hdigits hends hchars (head_of_match (hspace.symm ▸ h))
  have hskip : matchTime units (afterUnit units (digits ++ name ++ cs)) = none := by
    cases hmatch : matchTime units (afterUnit units (digits ++ name ++ cs)) with
    | none => rfl
    | some rest =>
      have hnot := not_mem_of_match hunits hmatch
      rw [hread] at hnot
      exact absurd ⟨hne, by simp⟩ hnot
  refine ⟨hread, ?_⟩
  rw [matchTime_cons_eq, hskip, append_assoc, (span_append hdigits hends).1,
    (span_append hdigits hends).2, if_neg hne]
  simp [hspace, h]

/-- The groups of a matched text in normal form: they are what their own text matches, and it lasts
as long. -/
structure NormalGroups (units : List (List (List Char) × Nat)) (cs : List Char)
    (normal : List (List Char)) : Prop where
  matched : matchTime (units.map Prod.fst) normal.flatten = some normal
  again : zipWith normalGroup (units.map Prod.fst) normal = normal
  head : ∀ c ∈ normal.flatten.head?, isDigit c = true
  blank : normal.flatten = [] → skipSpace cs = []
  lasts : ∃ ms, durationFrom units cs = some ms ∧ durationFrom units normal.flatten = some ms

theorem normalGroups_of_match {units : List (List (List Char) × Nat)}
    (hunits : AreUnits (units.map Prod.fst))
    (h : matchTime (units.map Prod.fst) cs = some groups) :
    NormalGroups units cs (zipWith normalGroup (units.map Prod.fst) groups) := by
  induction units generalizing cs groups with
  | nil =>
    rw [map_nil, matchTime] at h
    split_ifs at h with hnil
    cases h
    subst hnil
    exact ⟨rfl, rfl, by simp, fun _ => rfl, 0, rfl, rfl⟩
  | cons u units ih =>
    rw [map_cons] at hunits h ⊢
    have hafter : ∀ {flat : List Char}, (∀ c ∈ flat.head?, isDigit c = true) →
        afterUnit (units.map Prod.fst) flat = flat := by
      intro flat hflat
      cases flat with
      | nil => simp [afterUnit]
      | cons c flat => exact afterUnit_of_head (isRegexSpace_of_isDigit (hflat c rfl))
    obtain ⟨rest, hrest, rfl⟩ | ⟨digits, name, tail, rest, hread, hne, hdigits, hname,
      hrest, rfl⟩ :=
      match_cases hunits h
    · have hih := ih hunits.tail hrest
      obtain ⟨ms, hms, hflat⟩ := hih.lasts
      have hmatched := hih.matched
      rw [← hafter hih.head] at hmatched
      have hnil : normalGroup u.1 [] = [] := by simp [normalGroup]
      rw [zipWith_cons_cons, hnil]
      refine ⟨?_, ?_, hih.head, fun h => ?_, ms, ?_, ?_⟩
      · rw [map_cons, matchTime_cons_eq, flatten_cons, nil_append, hmatched]
        rfl
      · rw [map_cons, zipWith_cons_cons, hih.again, hnil]
      · exact (skipSpace_afterUnit _ cs).symm.trans (hih.blank h)
      · rw [durationFrom, if_neg (not_mem_of_match hunits hrest),
          durationFrom_congr units (skipSpace_afterUnit _ cs).symm, hms]
      · rw [durationFrom, flatten_cons, nil_append,
          if_neg (not_mem_of_match hunits hmatched), hflat]
    · have hih := ih hunits.tail hrest
      obtain ⟨ms, hms, hflat⟩ := hih.lasts
      obtain ⟨first, more, hform, hfirst, hgroup, hagain⟩ :=
        normalGroup_term hunits hne hdigits hname
      rw [hform] at hunits
      obtain ⟨hreadFlat, hmatched⟩ :=
        match_term hunits hfirst hne hdigits (hafter hih.head) hih.matched
      rw [zipWith_cons_cons, hgroup]
      refine ⟨?_, ?_, ?_, by simp [hne], decimalValue digits * u.2 + ms, ?_, ?_⟩
      · rw [map_cons, flatten_cons, hform]
        exact hmatched
      · rw [map_cons, zipWith_cons_cons, hih.again, hagain]
      · cases digits with
        | nil => exact absurd rfl hne
        | cons c digits => simpa using hdigits c mem_cons_self
      · rw [durationFrom, hread, if_pos ⟨hne, contains_iff_mem.mpr hname⟩,
          durationFrom_congr units (skipSpace_afterUnit _ tail).symm, hms]
        rfl
      · rw [durationFrom, flatten_cons, hreadFlat, hform, if_pos ⟨hne, by simp⟩, hflat]
        rfl

/-- The parser rebuilds the text from the groups in normal form. -/
theorem parseTime_normal (s : String) : parseTime s = some
    (if trimSpace s.toList = [] then none
    else (matchTime timeUnits s.toList).map fun groups =>
      String.ofList (zipWith normalGroup timeUnits groups).flatten) := by
  unfold parseTime
  split_ifs with hblank
  · rfl
  cases hmatch : matchTime timeUnits s.toList with
  | none => rfl
  | some groups =>
    obtain ⟨a, b, c, d, e, f, g, h, rfl⟩ := groups_of_match hmatch
    simp [timeUnits, normalGroup]

/-- What the parser returns is a fixed point of it and lasts as long as its argument. -/
theorem duration_preserved (s r : String) (h : parseTime s = some (some r)) :
    parseTime r = some (some r) ∧ ∃ ms, duration s = some ms ∧ duration r = some ms := by
  rw [parseTime_normal, Option.some_inj] at h
  split_ifs at h with hblank
  obtain ⟨groups, hmatch, hr⟩ := Option.map_eq_some_iff.mp h
  have hnormal : NormalGroups (timeUnits.zip timeScales) s.toList
      (zipWith normalGroup timeUnits groups) := normalGroups_of_match areUnits_timeUnits hmatch
  have htext : (zipWith normalGroup timeUnits groups).flatten = r.toList := by
    rw [← hr, String.toList_ofList]
  obtain ⟨hmatched, hagain, hhead, hempty, hlasts⟩ := hnormal
  rw [htext] at hmatched hhead hempty hlasts
  refine ⟨?_, hlasts⟩
  have hnot : trimSpace r.toList ≠ [] := by
    cases hflat : r.toList with
    | nil =>
      have hspaces := dropWhile_eq_nil_iff.mp (hempty hflat)
      have hall : s.toList.dropWhile isSpace = [] :=
        dropWhile_eq_nil_iff.mpr fun c hc => isSpace_of_isRegexSpace (hspaces c hc)
      exact absurd (by rw [trimSpace, hall]; rfl) hblank
    | cons c flat =>
      rw [hflat] at hhead
      exact trimSpace_ne_nil (isSpace_of_isDigit (hhead c rfl))
  have hmatched : matchTime timeUnits r.toList = some (zipWith normalGroup timeUnits groups) :=
    hmatched
  rw [parseTime_normal, if_neg hnot, hmatched, Option.map_some]
  exact congrArg (fun groups : List (List Char) => some (some (String.ofList groups.flatten)))
    hagain |>.trans (congrArg (fun r => some (some r)) hr)

theorem duration_preserved_hour :
    parseTime "1h 30m5" = some (some "1h30m5s") ∧
      parseTime "1h30m5s" = some (some "1h30m5s") := by
  have h : parseTime "1h 30m5" = some (some "1h30m5s") := by decide +kernel
  exact ⟨h, (duration_preserved _ _ h).1⟩

end IngressController.Configs
