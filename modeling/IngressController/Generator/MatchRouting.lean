import Mathlib.Algebra.Order.BigOperators.Group.List
import IngressController.Configuration.LocationPaths
import IngressController.Generator.MapSemantics
import IngressController.Generator.Targets

/-! # Matches are tried in order

The maps of a route with matches send a request to the first match all of whose conditions hold,
and to the default of the route if there is none. Each match contributes one character to the
source of the main map, because the maps of its conditions form a chain that ends in `0` or `1`.
-/

namespace IngressController.Configs

open GoString Version2 Validation InternalVariable RoutingParts List
open String (ofList toList_ofList)

variable (value : String)

/-- The text a condition compares with, and whether it is negated. -/
def comparedWith : String × Bool :=
  match value.toList with
  | '!' :: rest => (ofList (unescape rest), true)
  | cs => (ofList (unescape cs), false)

/-- Whether a condition holds for the values of variables. -/
def holdsFor (env : String → String) (c : Condition) : Bool :=
  (env (getNameForSourceForMatchesRouteMapFromCondition c) = (comparedWith c.value).1) !=
    (comparedWith c.value).2

def isFulfilled (env : String → String) (m : Match) : Bool := m.conditions.all (holdsFor env)

theorem unescape_special {value : String} (h : value ∈ specialMapParameters) :
    unescape value.toList = value.toList := by
  simp only [specialMapParameters, mem_cons, not_mem_nil, or_false] at h
  rcases h with rfl | rfl | rfl | rfl <;> decide

/-- The key of an entry is what the condition compares with. -/
theorem keyText_generateValue :
    keyText (generateValueForMatchesRouteMap value).1 = (comparedWith value).1 ∧
      (generateValueForMatchesRouteMap value).2 = (comparedWith value).2 := by
  have hkey : ∀ s : String,
      keyText (if s ∈ specialMapParameters then "\\" ++ s else "\"" ++ s ++ "\"") =
        ofList (unescape s.toList) := by
    intro s
    split
    · rename_i hspecial
      simp [keyText, unescape_special hspecial]
    · simp [keyText]
  unfold generateValueForMatchesRouteMap comparedWith
  cases hvalue : value.toList with
  | nil =>
    have hempty : keyText "\"\"" = ofList (unescape []) := by decide
    exact ⟨hempty, rfl⟩
  | cons c cs =>
    by_cases hc : c = '!'
    · subst hc
      refine ⟨?_, rfl⟩
      have h := hkey (ofList cs)
      rwa [toList_ofList] at h
    have h := hkey value
    rw [hvalue] at h
    simpa [hc] using h

/-- Entries of conditions are exact. -/
theorem literalStart_generateValue :
    literalStart (generateValueForMatchesRouteMap value).1 = none ∧
      (generateValueForMatchesRouteMap value).1 ≠ "default" := by
  have hkey : ∀ s : String,
      let entry := if s ∈ specialMapParameters then "\\" ++ s else "\"" ++ s ++ "\""
      literalStart entry = none ∧ entry ≠ "default" := by
    intro s
    dsimp only
    split
    all_goals
      refine ⟨by simp [literalStart], fun h => ?_⟩
      have hhead := congrArg (head? ∘ String.toList) h
      simp at hhead
  unfold generateValueForMatchesRouteMap
  dsimp only
  split
  · exact ⟨by decide, by decide⟩
  · exact hkey _
  · exact hkey _

theorem lookupMap_parameters (m : Map) (value result x : String)
    (hm : m.parameters = generateParametersForMatchesRouteMap value result) :
    lookupMap m x =
      if (decide (x = (comparedWith value).1) != (comparedWith value).2) = true then result
      else "0" := by
  obtain ⟨hkey, hneg⟩ := keyText_generateValue value
  obtain ⟨hstart, hdefault⟩ := literalStart_generateValue value
  have hother : literalStart "default" = none := by decide
  unfold lookupMap lookupParameter
  rw [hm, generateParametersForMatchesRouteMap]
  generalize generateValueForMatchesRouteMap value = entry at *
  obtain ⟨entry, isNegative⟩ := entry
  dsimp only at *
  subst hneg
  by_cases hx : x = (comparedWith value).1
  · cases hvalue : (comparedWith value).2 <;> simp [hasKey, hstart, hdefault, hkey, hx]
  · cases hvalue : (comparedWith value).2 <;>
      simp [hasKey, hasStart, hstart, hother, hdefault, hkey, hx, Ne.symm hx]

/-- Header names have no dollar sign. -/
def HasPlainHeaders (lib : Libraries) : Prop :=
  ∀ name, lib.isHTTPHeaderName name = [] → '$' ∉ name.toList

variable {s : String}

theorem notMem_of_isWord (h : isWord s = true) : '$' ∉ s.toList := by
  intro hin
  rw [isWord, Bool.and_eq_true] at h
  exact absurd (all_eq_true.mp h.2 '$' hin) (by decide)

theorem isVariable_of_append {head : String}
    (hhead : ∃ name, head.toList = '$' :: name ∧ '$' ∉ name)
    (hs : '$' ∉ s.toList) : IsVariable (head ++ s) := by
  obtain ⟨name, hname, hnot⟩ := hhead
  exact ⟨name ++ s.toList, by simp [hname], by simp [hnot, hs]⟩

/-- The source of an accepted condition is a variable of the request. -/
structure IsRequestVariable (v : String) : Prop where
  isVariable : IsVariable v
  external : v.toList[1]? ≠ some 'v'

theorem IsRequestVariable.ne_text {v : String} (h : IsRequestVariable v) (namer : VariableNamer)
    (w : InternalVariable) : w.text namer ≠ v := by
  rintro rfl
  have hexternal := h.external
  rw [toList_text] at hexternal
  exact hexternal rfl

theorem isRequestVariable_of_accepted {lib : Libraries} (hlib : HasPlainHeaders lib) {c : Condition}
    {path : String} (h : validateCondition lib c path = []) :
    IsRequestVariable (getNameForSourceForMatchesRouteMapFromCondition c) := by
  have haccepted := acceptedCondition h
  simp only [validateCondition, append_eq_nil_iff] at h
  obtain ⟨⟨⟨⟨⟨hheader, hcookie⟩, hargument⟩, -⟩, -⟩, -⟩ := h
  unfold getNameForSourceForMatchesRouteMapFromCondition
  split
  · rename_i hne
    rw [if_pos hne, invalidAll_eq_nil] at hheader
    have hnot : '$' ∉ (replaceAll c.header '-' '_').toList := by
      have hplain := hlib c.header hheader
      simp only [replaceAll, toList_ofList, mem_map, not_exists, not_and]
      intro d hd
      split
      · decide
      · rintro rfl
        exact hplain hd
    refine ⟨isVariable_of_append ⟨"http_".toList, by decide, by decide⟩ hnot, by simp⟩
  · split
    · rename_i hne
      rw [if_pos hne, invalidAll_eq_nil] at hcookie
      refine ⟨isVariable_of_append ⟨"cookie_".toList, by decide, by decide⟩
        (notMem_of_isWord (by simpa [isCookieName] using hcookie)), by simp⟩
    split
    · rename_i hne
      rw [if_pos hne, invalidAll_eq_nil] at hargument
      refine ⟨isVariable_of_append ⟨"arg_".toList, by decide, by decide⟩
        (notMem_of_isWord (by simpa [isArgumentName] using hargument)), by simp⟩
    rename_i hheader hcookie hargument
    rw [not_not] at hheader hcookie hargument
    have hsingle := haccepted.single
    have hne : c.variableName ≠ "" := by
      rintro hempty
      simp [countSet, hheader, hcookie, hargument, hempty] at hsingle
    have hvalid := haccepted.variableName hne
    simp only [validVariableNames, mem_cons, not_mem_nil, or_false] at hvalid
    rcases hvalid with h | h | h | h | h | h | h | h | h | h | h <;> rw [h] <;>
      exact ⟨⟨_, rfl, by decide⟩, by decide⟩

/-! ## The maps of conditions -/

/-- Maps among which the conditions of matches form chains. -/
structure Chained (maps : List Map) (namer : VariableNamer) (index : Nat) (ms : List Match) :
    Prop where
  isInternal : ∀ m ∈ maps, ∃ v : InternalVariable, m.variableName = v.text namer
  mem : ∀ cm ∈ conditionMaps namer index ms, cm ∈ maps
  unique : ∀ m ∈ maps, ∀ i j, m.variableName = (condition index i j).text namer →
    m ∈ conditionMaps namer index ms
  source : ∀ m ∈ ms, ∀ c ∈ m.conditions,
    IsRequestVariable (getNameForSourceForMatchesRouteMapFromCondition c)

variable {fuel : Nat}

section Chains

variable {maps : List Map} {namer : VariableNamer} {index : Nat} {ms : List Match}
  (env : String → String)

/-- A condition is determined by its place. -/
theorem conditionMaps_unique {cm cm' : Map} (hcm : cm ∈ conditionMaps namer index ms)
    (hcm' : cm' ∈ conditionMaps namer index ms) (h : cm'.variableName = cm.variableName) :
    cm' = cm := by
  obtain ⟨i, m, j, c, hm, hc, rfl⟩ := mem_conditionMaps.mp hcm
  obtain ⟨i', m', j', c', hm', hc', rfl⟩ := mem_conditionMaps.mp hcm'
  have heq : condition index i' j' = .condition index i j := text_inj h
  cases heq
  obtain rfl : m' = m := Option.some.inj (hm'.symm.trans hm)
  obtain rfl : c' = c := Option.some.inj (hc'.symm.trans hc)
  rfl

theorem isVariable_text (v : InternalVariable) (hnamer : '$' ∉ namer.safeNsName.toList) :
    IsVariable (v.text namer) := by
  refine ⟨_, v.toList_text namer, ?_⟩
  have hrender := v.notMem_render
  simp [hnamer, hrender]

theorem hasPrefix_text (v : InternalVariable) : hasPrefix (v.text namer) "$" = true := by
  simp [hasPrefix, toList_text]

/-- The value of a condition's variable says whether it and all later conditions hold. -/
theorem valueOf_condition (h : Chained maps namer index ms) {i : Nat} {m : Match}
    (hm : ms[i]? = some m) {j : Nat} (hj : j < m.conditions.length)
    (hfuel : m.conditions.length - j + 1 ≤ fuel) :
    valueOf maps env fuel ((condition index i j).text namer) =
      some (if (m.conditions.drop j).all (holdsFor env) then "1" else "0") := by
  -- by induction on the number of conditions from `j` on
  obtain ⟨rest, hrest⟩ : ∃ rest, rest = m.conditions.length - j := ⟨_, rfl⟩
  induction rest generalizing j fuel with
  | zero => omega
  | succ rest ih =>
    obtain ⟨n, rfl⟩ : ∃ n, fuel = n + 1 + 1 := ⟨fuel - 2, by omega⟩
    have hget : m.conditions[j]? = some m.conditions[j] := getElem?_eq_getElem hj
    have hin : m ∈ ms := mem_of_getElem? hm
    have hsource := h.source m hin m.conditions[j] (getElem_mem hj)
    have hmem : conditionMap namer index i j m.conditions.length m.conditions[j] ∈
        conditionMaps namer index ms := mem_conditionMaps.mpr ⟨i, m, j, _, hm, hget, rfl⟩
    have hselected : selectedBy maps env (n + 1)
        (conditionMap namer index i j m.conditions.length m.conditions[j]) =
          some (if holdsFor env m.conditions[j] then
            (if j + 1 < m.conditions.length then
              (condition index i (j + 1)).text namer else "1") else "0") := by
      have hvalue := valueOf_request env n fun m' hm' heq => by
        obtain ⟨v, hv⟩ := h.isInternal m' hm'
        exact hsource.ne_text namer v (hv.symm.trans heq)
      rw [selectedBy, conditionMap, sourceVariables_of_isVariable hsource.isVariable]
      simp only [mapM_cons, hvalue, mapM_nil, Option.pure_def, Option.bind_eq_bind,
        Option.bind_some]
      rw [lookupMap_parameters _ _ _ _ rfl]
      simp [holdsFor, text]
    have hmap := valueOf_map env (n + 1) (h.mem _ hmem) fun m' hm' heq =>
      conditionMaps_unique hmem (h.unique m' hm' i j heq) heq
    rw [hselected, Option.bind_some] at hmap
    refine hmap.trans ?_
    rw [drop_eq_getElem_cons hj, all_cons]
    have hzero : hasPrefix "0" "$" = false := by decide
    have hone : hasPrefix "1" "$" = false := by decide
    cases hholds : holdsFor env m.conditions[j] with
    | false => simp [hzero]
    | true =>
      by_cases hlast : j + 1 < m.conditions.length
      · have hfuel' : m.conditions.length - (j + 1) + 1 ≤ n + 1 := by omega
        have hnext := ih hlast hfuel' (by omega)
        simpa [hlast, hasPrefix_text] using hnext
      · have hend : m.conditions.drop (j + 1) = [] := drop_eq_nil_of_le (by omega)
        simp [hlast, hend, hone]

def outcomes (env : String → String) (ms : List Match) : List String :=
  ms.map fun m => if isFulfilled env m then "1" else "0"

theorem mapM_valueOf_conditions (h : Chained maps namer index ms)
    (hne : ∀ m ∈ ms, m.conditions ≠ []) (hfuel : ∀ m ∈ ms, m.conditions.length + 1 ≤ fuel) :
    (ms.zipIdx.map fun (_, i) => namer.getNameForVariableForMatchesRouteMap index i 0).mapM
      (valueOf maps env fuel) = some (outcomes env ms) := by
  suffices ∀ (rest : List Match) (k : Nat), (∀ i, rest[i]? = ms[k + i]?) →
      ((rest.zipIdx k).map fun (_, i) =>
        namer.getNameForVariableForMatchesRouteMap index i 0).mapM (valueOf maps env fuel) =
          some (outcomes env rest) from this ms 0 (by simp)
  intro rest
  induction rest with
  | nil =>
    intro k _
    rfl
  | cons m rest ih =>
    intro k hrest
    have hm : ms[k]? = some m := by simpa using (hrest 0).symm
    have hin : m ∈ ms := mem_of_getElem? hm
    have hvalue := valueOf_condition env h hm (length_pos_iff.mpr (hne m hin))
      (by simpa using hfuel m hin)
    rw [drop_zero] at hvalue
    have htail := ih (k + 1) fun i => by
      have hi := hrest (i + 1)
      rw [getElem?_cons_succ] at hi
      rw [hi, Nat.add_assoc, Nat.add_comm 1]
    simp only [zipIdx_cons, map_cons, mapM_cons, Option.bind_eq_bind]
    rw [htail]
    simp only [text] at hvalue
    simp [hvalue, outcomes, isFulfilled]

end Chains

/-! ## The main map -/

def matchEntry (i : Nat) : String := "~^" ++ ofList (replicate i '0') ++ "1"

theorem literalStart_matchEntry (i : Nat) :
    literalStart (matchEntry i) = some (replicate i '0' ++ ['1']) := by
  simp [literalStart, matchEntry]

theorem hasKey_matchEntry (i : Nat) (value : String) {p : Parameter} (hp : p.value = matchEntry i) :
    hasKey value p = false := by
  simp [hasKey, hp, literalStart_matchEntry]

theorem toList_join_outcomes (env : String → String) (ms : List Match) :
    (String.join (outcomes env ms)).toList =
      ms.map fun m => if isFulfilled env m then '1' else '0' := by
  induction ms with
  | nil => rfl
  | cons m ms ih =>
    have hcons : outcomes env (m :: ms) =
        (if isFulfilled env m then "1" else "0") :: outcomes env ms := rfl
    rw [hcons, String.join_cons, String.toList_append, ih]
    cases hm : isFulfilled env m <;> simp [hm]

theorem mainParameters_values (namer : VariableNamer) (dynamicReload : Bool) (index scIndex k : Nat)
    (ms : List Match) :
    ((mainParameters namer dynamicReload index scIndex k ms).1).map Parameter.value =
      (range' k ms.length).map matchEntry := by
  induction ms generalizing scIndex k with
  | nil => rfl
  | cons m ms ih => simp [mainParameters, ih, range'_succ, matchEntry]

variable {parameters : List Parameter}

/-- The first regular expression that fits is that of the first fulfilled match. -/
theorem find?_hasStart {env : String → String} {value : String} {ms : List Match} {k : Nat}
    (hvalues : parameters.map Parameter.value = (range' k ms.length).map matchEntry)
    (hvalue : value.toList = replicate k '0' ++ ms.map fun m =>
      if isFulfilled env m then '1' else '0') :
    parameters.find? (hasStart value) =
      ((ms.zip parameters).find? fun e => isFulfilled env e.1).map Prod.snd := by
  induction ms generalizing parameters k with
  | nil =>
    obtain rfl : parameters = [] := by simpa using hvalues
    rfl
  | cons m ms ih =>
    cases parameters with
    | nil => simp [range'_succ] at hvalues
    | cons p parameters =>
      simp only [map_cons, length_cons, range'_succ, cons.injEq] at hvalues
      have hstart : hasStart value p = isFulfilled env m := by
        rw [hasStart, hvalues.1, literalStart_matchEntry, hvalue, Option.any_some,
          Bool.eq_iff_iff, isPrefixOf_iff_prefix, prefix_append_right_inj]
        simp
      rw [zip_cons_cons, find?_cons, find?_cons, hstart]
      cases hm : isFulfilled env m with
      | true => rfl
      | false =>
        refine ih hvalues.2 ?_
        rw [hvalue, map_cons, hm, replicate_succ', append_assoc]
        rfl

section Entries

variable {params : LocationParams} {namer : VariableNamer} {dynamicReload : Bool} {index : Nat}
  {ps : List RoutingParts}

/-- The first pass names what the second pass generates. -/
theorem mainParameters_entries {ms : List Match} {k scIndex retLocIndex : Nat}
    (h : runTargets params namer dynamicReload scIndex retLocIndex
      ((ms.zipIdx k).map (matchTargetOf index)) = some ps) :
    Forall₂ (fun p entry => entryOf p = some entry.result) ps
        (mainParameters namer dynamicReload index scIndex k ms).1 ∧
      (mainParameters namer dynamicReload index scIndex k ms).2 =
        scIndex + (join ps).splitClients.length := by
  induction ms generalizing k scIndex retLocIndex ps with
  | nil =>
    obtain rfl : ps = [] := by simpa [runTargets] using h.symm
    exact ⟨List.Forall₂.nil, rfl⟩
  | cons m ms ih =>
    simp only [zipIdx_cons, map_cons, runTargets, Option.bind_eq_bind,
      Option.bind_eq_some_iff, Option.some.injEq] at h
    obtain ⟨p, hp, rest, hrest, rfl⟩ := h
    have hlength : p.splitClients.length = splitClientsAmount dynamicReload m.splits :=
      length_splitClients hp
    obtain ⟨hentries, hnext⟩ := ih hrest
    rw [hlength] at hentries hnext
    refine ⟨List.Forall₂.cons ?_ hentries, ?_⟩
    · have hslash : generatePath (matchLocationPath index k) = matchLocationPath index k :=
        generatePath_of_slash (by simp [matchLocationPath])
      have hpath : (matchTargetOf index (m, k)).path = matchLocationPath index k := rfl
      rw [entryOf_partsAt hp, hpath, hslash]
      rfl
    · simp only [mainParameters, hnext, join, flatMap_cons, length_append, hlength, Nat.add_assoc]

variable (env : String → String)

/-- The parts of the first fulfilled match, or those of the default. -/
def chosenParts (ms : List Match) (parts : List RoutingParts)
    (defaultParts : RoutingParts) : RoutingParts :=
  (((ms.zip parts).find? fun e => isFulfilled env e.1).map Prod.snd).getD defaultParts

theorem find?_zip_entries (ms : List Match)
    (h : Forall₂ (fun p entry => entryOf p = some entry.result) ps parameters) :
    ((ms.zip ps).find? fun e => isFulfilled env e.1).map (fun e => entryOf e.2) =
      ((ms.zip parameters).find? fun e => isFulfilled env e.1).map fun e => some e.2.result := by
  induction h generalizing ms with
  | nil => simp
  | cons hentry _ ih =>
    cases ms with
    | nil => rfl
    | cons m ms =>
      simp only [zip_cons_cons, find?_cons]
      cases isFulfilled env m with
      | true => simpa using hentry
      | false => exact ih ms

/-- The parts that are due have the entry that is selected. -/
theorem entryOf_chosenParts {env : String → String} {ms : List Match} {fallback : RoutingParts}
    {target : String}
    (h : Forall₂ (fun p entry => entryOf p = some entry.result) ps parameters)
    (hfallback : entryOf fallback = some target) : entryOf (chosenParts env ms ps fallback) =
      some ((((ms.zip parameters).find? fun e => isFulfilled env e.1).map
        fun e => e.2.result).getD target) := by
  have hzip := find?_zip_entries env ms h
  unfold chosenParts
  cases hps : (ms.zip ps).find? (fun e => isFulfilled env e.1) with
  | none =>
    rw [hps] at hzip
    rw [Option.map_eq_none_iff.mp hzip.symm]
    exact hfallback
  | some e =>
    rw [hps] at hzip
    obtain ⟨e', he', heq⟩ := Option.map_eq_some_iff.mp hzip.symm
    rw [he']
    exact heq.symm

theorem lookupMap_mainMap {r : Route} {scIndex : Nat} :
    lookupMap (mainMap namer dynamicReload index scIndex r)
        (String.join (outcomes env r.routeMatches)) =
      (((r.routeMatches.zip
          (mainParameters namer dynamicReload index scIndex 0 r.routeMatches).1).find?
            fun e => isFulfilled env e.1).map fun e => e.2.result).getD
        (defaultTarget namer dynamicReload index
          (mainParameters namer dynamicReload index scIndex 0 r.routeMatches).2 r.splits) := by
  have hvalues := mainParameters_values namer dynamicReload index scIndex 0 r.routeMatches
  unfold lookupMap lookupParameter mainMap
  dsimp only
  generalize (mainParameters namer dynamicReload index scIndex 0 r.routeMatches).1 = parameters at *
  generalize (mainParameters namer dynamicReload index scIndex 0 r.routeMatches).2 = next
  have hword : literalStart "default" = none := by decide
  have hentry : ∀ p ∈ parameters, ∃ i, p.value = matchEntry i := by
    intro p hp
    have hin : p.value ∈ (range' 0 r.routeMatches.length).map matchEntry :=
      hvalues ▸ mem_map_of_mem hp
    obtain ⟨i, -, hi⟩ := mem_map.mp hin
    exact ⟨i, hi.symm⟩
  have hkey : parameters.find? (hasKey (String.join (outcomes env r.routeMatches))) = none := by
    rw [find?_eq_none]
    intro p hp
    obtain ⟨i, hi⟩ := hentry p hp
    simp [hasKey_matchEntry i _ hi]
  have hdefault : parameters.find? (fun p => p.value = "default") = none := by
    rw [find?_eq_none]
    intro p hp
    obtain ⟨i, hi⟩ := hentry p hp
    have hstart := literalStart_matchEntry i
    rw [decide_eq_true_eq, hi]
    intro heq
    rw [heq, hword] at hstart
    cases hstart
  have hstart := find?_hasStart hvalues (toList_join_outcomes env r.routeMatches)
  rw [find?_append, find?_append, find?_append, hkey, hdefault, hstart]
  cases (r.routeMatches.zip parameters).find? (fun e => isFulfilled env e.1) with
  | some e => simp [hasKey]
  | none => simp [hasKey, hasStart, hword]

end Entries

/-! ## Routes with matches -/

theorem safeNsName_plain (vs : VirtualServer) :
    '$' ∉ (newVSVariableNamer vs).safeNsName.toList := by
  have hns := vs.objectMeta.nspace.not_mem (c := '$') (by decide)
  have hname := vs.objectMeta.name.not_mem (c := '$') (by decide)
  simp only [newVSVariableNamer, replaceAll, toList_ofList, String.toList_append,
    mem_map, mem_append, not_exists, not_and]
  intro c hc
  split
  · decide
  · rintro rfl
    rcases hc with (hc | hc) | hc
    · exact hns hc
    · exact absurd hc (by decide)
    · exact hname hc

/-- The parts are what is generated for these splits or this action. -/
def ArePartsOf (params : LocationParams) (namer : VariableNamer) (dynamicReload : Bool)
    (splits : List Split) (action : Option Action) (parts : RoutingParts) : Prop :=
  ∃ location scIndex retLocIndex, partsAt params namer dynamicReload scIndex retLocIndex
    { location := some location, splits, action } = some parts

/-- A routing that sends every request to the first fulfilled match: the configuration consists of
the parts of the matches and of the default, and for all values of variables the maps select the
entry of the parts that are due. -/
structure RoutesToFirstMatch (params : LocationParams) (namer : VariableNamer)
    (dynamicReload : Bool) (r : Route) (cfg : RoutingCfg) (parts : List RoutingParts)
    (fallback : RoutingParts) : Prop where
  matchParts : Forall₂ (fun m => ArePartsOf params namer dynamicReload m.splits m.action)
    r.routeMatches parts
  defaultParts : ArePartsOf params namer dynamicReload r.splits r.action fallback
  locations : cfg.locations = (parts ++ [fallback]).flatMap locations
  splitClients : cfg.splitClients = (parts ++ [fallback]).flatMap splitClients
  maps : ∀ p ∈ parts ++ [fallback], ∀ m ∈ p.maps, m ∈ cfg.maps
  redirect : ∃ redirect, cfg.internalRedirectLocation = some redirect ∧
    redirect.path = generatePath r.path ∧
      ∀ env : String → String, ∃ target,
        entryOf (chosenParts env r.routeMatches parts fallback) = some target ∧
          ∃ steps, ∀ fuel ≥ steps, selected cfg.maps env fuel redirect.destination = some target

section Maps

variable {params : LocationParams} {namer : VariableNamer} {dynamicReload : Bool}
  {index scIndex retLocIndex : Nat} {r : Route} {ps : List RoutingParts}
  (hrun : runTargets params namer dynamicReload scIndex retLocIndex (targetsOf index r) = some ps)
include hrun

/-- The maps of a route with matches, by their variables. -/
theorem map_cases {m : Map} (hm : m ∈ conditionMaps namer index r.routeMatches ++
      [mainMap namer dynamicReload index scIndex r] ++ ps.flatMap maps) :
    (m ∈ conditionMaps namer index r.routeMatches ∧
      ∃ i j, m.variableName = (condition index i j).text namer) ∨
    m = mainMap namer dynamicReload index scIndex r ∨
    ∃ i, m.variableName = (splitClientsMap i).text namer := by
  rw [append_assoc, mem_append, mem_append, mem_singleton] at hm
  rcases hm with hm | hm | hm
  · obtain ⟨i, _, j, c, -, -, rfl⟩ := mem_conditionMaps.mp hm
    exact .inl ⟨hm, i, j, rfl⟩
  · exact .inr (.inl hm)
  · obtain ⟨p, hp, hm⟩ := mem_flatMap.mp hm
    obtain ⟨t, -, sc, ret, hat⟩ := exists_partsAt_of_mem hrun hp
    exact .inr (.inr ⟨sc, variableName_of_partsAt hat hm⟩)

theorem chained_of_runTargets
    (hsource : ∀ m ∈ r.routeMatches, ∀ c ∈ m.conditions,
      IsRequestVariable (getNameForSourceForMatchesRouteMapFromCondition c)) :
    Chained (conditionMaps namer index r.routeMatches ++
        [mainMap namer dynamicReload index scIndex r] ++
          ps.flatMap maps) namer index r.routeMatches := by
  refine ⟨?_, ?_, ?_, hsource⟩
  · intro m hm
    obtain ⟨-, i, j, hname⟩ | rfl | ⟨i, hname⟩ := map_cases hrun hm
    · exact ⟨_, hname⟩
    · exact ⟨.matchesMap index, rfl⟩
    · exact ⟨_, hname⟩
  · intro cm hcm
    simp [hcm]
  · intro m hm i j hname
    obtain ⟨hin, -⟩ | rfl | ⟨i', hi'⟩ := map_cases hrun hm
    · exact hin
    · have heq : matchesMap index = .condition index i j := text_inj hname
      cases heq
    · cases text_inj (hi'.symm.trans hname)

theorem mainMap_unique {m : Map}
    (hm : m ∈ conditionMaps namer index r.routeMatches ++
      [mainMap namer dynamicReload index scIndex r] ++ ps.flatMap maps)
    (hname : m.variableName = (mainMap namer dynamicReload index scIndex r).variableName) :
    m = mainMap namer dynamicReload index scIndex r := by
  have hname : m.variableName = (matchesMap index).text namer := hname
  obtain ⟨-, i, j, hi⟩ | heq | ⟨i, hi⟩ := map_cases hrun hm
  · cases text_inj (hi.symm.trans hname)
  · exact heq
  · cases text_inj (hi.symm.trans hname)

omit hrun

theorem selectedBy_mainMap {maps : List Map} (hnamer : '$' ∉ namer.safeNsName.toList)
    (hchained : Chained maps namer index r.routeMatches)
    (hne : ∀ m ∈ r.routeMatches, m.conditions ≠ []) (env : String → String)
    (hfuel : ∀ m ∈ r.routeMatches, m.conditions.length + 1 ≤ fuel) :
    selectedBy maps env fuel (mainMap namer dynamicReload index scIndex r) =
      some (lookupMap (mainMap namer dynamicReload index scIndex r)
        (String.join (outcomes env r.routeMatches))) := by
  have hsource : sourceVariables (mainMap namer dynamicReload index scIndex r).source =
      r.routeMatches.zipIdx.map fun (_, i) =>
        namer.getNameForVariableForMatchesRouteMap index i 0 := by
    refine sourceVariables_join fun v hv => ?_
    obtain ⟨⟨m, i⟩, -, rfl⟩ := mem_map.mp hv
    exact isVariable_text (.condition index i 0) hnamer
  rw [selectedBy, hsource, mapM_valueOf_conditions env hchained hne hfuel]
  rfl

end Maps

/-- For every route with matches that is accepted, the maps send each request to the first match
all of whose conditions hold, and otherwise to the default of the route. -/
theorem matches_select_first_fulfilled (vsv : VirtualServerValidator)
    (hlib : HasPlainHeaders vsv.lib) (vs : VirtualServer) (params : LocationParams)
    (dynamicReload : Bool) (index scIndex retLocIndex : Nat) (r : Route)
    (isRouteFieldForbidden : Bool) (haccepted : PassesValidateRoute vsv r isRouteFieldForbidden)
    (hmatches : r.routeMatches ≠ []) (cfg : RoutingCfg)
    (hcfg : generateMatchesConfig params (newVSVariableNamer vs) dynamicReload index scIndex
      retLocIndex r = some cfg) :
    ∃ parts fallback, RoutesToFirstMatch params (newVSVariableNamer vs) dynamicReload r cfg parts
      fallback := by
  have hnamer := safeNsName_plain vs
  generalize newVSVariableNamer vs = namer at *
  have hrouting := generateRouting_eq params namer dynamicReload ⟨index, scIndex, retLocIndex⟩ r
  rw [generateRouting, if_pos hmatches, hcfg] at hrouting
  obtain ⟨ps, hrun, hjoin⟩ := Option.map_eq_some_iff.mp hrouting.symm
  have hall := hrun
  rw [targetsOf, runTargets_append] at hrun
  obtain ⟨parts, hparts, hrest⟩ := Option.bind_eq_some_iff.mp hrun
  obtain ⟨fallback, hfallback, hps⟩ := Option.map_eq_some_iff.mp hrest
  obtain rfl : parts ++ [fallback] = ps := hps
  obtain ⟨hentries, hnext⟩ := mainParameters_entries hparts
  have hsource : ∀ m ∈ r.routeMatches, ∀ c ∈ m.conditions,
      IsRequestVariable (getNameForSourceForMatchesRouteMapFromCondition c) := by
    intro m hm c hc
    obtain ⟨path, hpath⟩ := haccepted.conditions m hm c hc
    exact isRequestVariable_of_accepted hlib hpath
  have hne : ∀ m ∈ r.routeMatches, m.conditions ≠ [] :=
    fun m hm => (haccepted.accepted.routeMatch m hm).conditions
  have hmaps : cfg.maps = conditionMaps namer index r.routeMatches ++
      [mainMap namer dynamicReload index scIndex r] ++ (parts ++ [fallback]).flatMap maps := by
    rw [← hjoin, matchMaps, if_pos hmatches]
    rfl
  have hfallbackEntry : entryOf fallback = some (defaultTarget namer dynamicReload index
      (mainParameters namer dynamicReload index scIndex 0 r.routeMatches).2 r.splits) := by
    have hslash : generatePath (defaultLocationPath index) = defaultLocationPath index :=
      generatePath_of_slash (by simp [defaultLocationPath])
    rw [entryOf_partsAt hfallback, hnext, (defaultTargetOf_of_matches index hmatches).1, hslash]
    rfl
  refine ⟨parts, fallback, ?_, ?_, ?_, ?_, ?_, ?_⟩
  · have hforall := runTargets_forall₂ hparts
    have hfst : r.routeMatches.zipIdx.map Prod.fst = r.routeMatches := by simp
    rw [forall₂_map_left_iff] at hforall
    rw [← hfst, forall₂_map_left_iff]
    refine hforall.imp fun e p h => ?_
    obtain ⟨sc, ret, hp⟩ := h
    exact ⟨.routeMatch index e.2, sc, ret, hp⟩
  · obtain ⟨hpath, hinternal⟩ := defaultTargetOf_of_matches index hmatches
    rw [partsAt, hpath, hinternal] at hfallback
    exact ⟨.matchDefault index, _, _, hfallback⟩
  · rw [← hjoin]
    rfl
  · rw [← hjoin]
    rfl
  · intro p hp m hm
    rw [hmaps]
    exact mem_append_right _ (mem_flatMap.mpr ⟨p, hp, hm⟩)
  refine ⟨{
    path := generatePath r.path
    destination := namer.getNameForVariableForMatchesRouteMainMap index },
    ?_, rfl, fun env => ⟨_, entryOf_chosenParts hentries hfallbackEntry, ?_⟩⟩
  · rw [← hjoin]
    exact if_pos hmatches
  refine ⟨(r.routeMatches.map fun m => m.conditions.length + 1).sum, fun fuel hfuel => ?_⟩
  have hchained := chained_of_runTargets hall hsource
  rw [← hmaps] at hchained
  have hmem : mainMap namer dynamicReload index scIndex r ∈ cfg.maps := by
    simp [hmaps]
  have hmain := selected_map env fuel hmem fun m hm hname =>
    mainMap_unique hall (hmaps ▸ hm) hname
  refine hmain.trans ?_
  rw [selectedBy_mainMap hnamer hchained hne env, lookupMap_mainMap]
  intro m hm
  have hin : m.conditions.length + 1 ∈ r.routeMatches.map fun m => m.conditions.length + 1 :=
    mem_map.mpr ⟨m, hm, rfl⟩
  exact Nat.le_trans (le_sum_of_mem hin) hfuel

/-- A validator that admits letters, digits and dashes in names of headers. -/
def headerValidator : VirtualServerValidator :=
  { plainValidator with
    lib := { Libraries.permissive with
      isHTTPHeaderName := fun name =>
        if name.toList.all fun c => c.isAlphanum || c = '-' then [] else ["invalid header name"] } }

theorem hasPlainHeaders_headerValidator : HasPlainHeaders headerValidator.lib := by
  intro name h hin
  simp only [headerValidator, ite_eq_left_iff, cons_ne_self, imp_false, not_not] at h
  exact absurd (all_eq_true.mp h '$' hin) (by decide)

/-- A header selects the beta, a cookie without the value `none` a split. -/
def versions : Route where
  path := "/version"
  action := some { pass := "stable" }
  routeMatches := [
    { conditions := [{ header := "x-version", value := "beta" },
      { argument := "try", value := "1" }]
      action := some { pass := "beta" } },
    { conditions := [{ cookie := "group", value := "!none" }]
      splits := [
        { weight := 90, action := some { pass := "stable" } },
        { weight := 10, action := some { pass := "beta" } }] }]

def versionParams : LocationParams where
  upstreamNamer := newUpstreamNamerForVirtualServer teaAtRoot
  crUpstreams := ∅
  errorPages := { pages := [], index := 0 }
  originalPath := "/version"
  locSnippets := ""
  enableSnippets := false
  defaultSnippets := []
  isVSR := false
  vsrName := ""
  vsrNamespace := ""

theorem matches_select_first_fulfilled_versions :
    ∃ cfg, generateMatchesConfig versionParams (newVSVariableNamer teaAtRoot) true 0 0 0 versions =
        some cfg ∧
      ∃ parts fallback, RoutesToFirstMatch versionParams (newVSVariableNamer teaAtRoot) true
        versions cfg parts fallback := by
  have hsome : (generateMatchesConfig versionParams (newVSVariableNamer teaAtRoot) true 0 0 0
      versions).isSome = true := by decide +kernel
  obtain ⟨cfg, hcfg⟩ := Option.isSome_iff_exists.mp hsome
  have haccepted : PassesValidateRoute headerValidator versions false :=
    ⟨"spec.routes[0]", ["stable", "beta"], "default", by decide +kernel⟩
  exact ⟨cfg, hcfg, matches_select_first_fulfilled headerValidator hasPlainHeaders_headerValidator
    teaAtRoot versionParams true 0 0 0 versions false haccepted (by decide) cfg hcfg⟩

end IngressController.Configs
