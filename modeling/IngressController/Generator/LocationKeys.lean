import IngressController.Generator.ClosedNames

/-! # Paths that are one location

The validator compares paths up to the white space after a modifier. NGINX compares what it reads
from the rendered arguments of a location, and a prefix is one location with `^~` and without it.
-/

namespace IngressController.Configs

open GoString Validation List
open String (ofList toList_inj)

/-- `makeLocationPath` of the templates for VirtualServers. -/
def makeLocationPath (isPrint : Char → Bool) (path : String) : String :=
  if hasPrefix path "@" || hasPrefix path "\"" then path
  else if hasPrefix path "^~" then "^~ " ++ quote isPrint (locationOf path "^~")
  else if hasPrefix path "=" then "= " ++ quote isPrint (locationOf path "=")
  else if hasPrefix path "~" then path
  else quote isPrint path

inductive LocationKind where
  | exact | prefixed | regex | caselessRegex
deriving DecidableEq

/-- What NGINX tells locations apart by, read from the arguments of the directive. -/
def locationKey (arguments : String) : LocationKind × String :=
  match arguments.toList with
  | '=' :: ' ' :: name => (.exact, tokenText name)
  | '^' :: '~' :: ' ' :: name => (.prefixed, tokenText name)
  | '~' :: '*' :: ' ' :: name => (.caselessRegex, tokenText name)
  | '~' :: ' ' :: name => (.regex, tokenText name)
  | name => (.prefixed, tokenText name)

def keyOfPath (lib : Libraries) (path : String) : LocationKind × String :=
  locationKey (makeLocationPath lib.isPrint (generatePath path))

variable {lib : Libraries} {p q fp fq : String}

theorem unescape_of_plain {cs : List Char} (h : '\\' ∉ cs) : unescape cs = cs := by
  fun_induction unescape cs with
  | case1 | case2 => rfl
  | _ => simp_all

theorem unescape_cons {c : Char} {cs : List Char} (h : c ≠ '\\') :
    unescape (c :: cs) = c :: unescape cs := by
  cases cs <;> simp [unescape, h]

/-- NGINX reads an accepted URI as it is. -/
theorem locationKey_of_uri {uri : String} (h : validateLocationPath lib uri fp = []) :
    (∃ rest, unescape rest = rest ∧ uri = ofList ('/' :: rest)) ∧
      locationKey (makeLocationPath lib.isPrint uri) = (.prefixed, uri) ∧
      locationKey (makeLocationPath lib.isPrint ("^~ " ++ uri)) = (.prefixed, uri) ∧
      locationKey (makeLocationPath lib.isPrint ("= " ++ uri)) = (.exact, uri) := by
  rw [validateLocationPath, append_eq_nil_iff] at h
  obtain ⟨hpath, hunquoted⟩ := h
  unfold validatePath at hpath
  split_ifs at hpath with _ _ _ htext hprint
  rw [Bool.not_eq_true, Bool.not_eq_false', all_eq_true] at hprint
  obtain ⟨rest, hrest, hback⟩ : ∃ rest, uri.toList = '/' :: rest ∧ '\\' ∉ uri.toList := by
    unfold isPathText at htext
    split at htext
    · rename_i rest hrest
      refine ⟨rest, hrest, fun hin => htext ?_⟩
      have hin : '\\' ∈ rest := by simpa [hrest] using hin
      simp only [Bool.not_eq_true', all_eq_false]
      exact ⟨_, hin, by decide⟩
    · simp at htext
  have hplain : '"' ∉ uri.toList := by
    intro hin
    have hany : containsAny uri "#\"`" = true := any_eq_true.mpr ⟨_, hin, by decide⟩
    simp [validateUnquotedPath, hany] at hunquoted
  have hquote : quote lib.isPrint uri = "\"" ++ uri ++ "\"" := by
    have hbody : uri.toList.flatMap (fun c => if c = '"' ∨ c = '\\' then ['\\', c]
        else if lib.isPrint c then [c] else escape c) = uri.toList := by
      refine (flatMap_congr fun c hc => ?_).trans (flatMap_singleton' _)
      have hne : ¬ (c = '"' ∨ c = '\\') := by
        rintro (rfl | rfl)
        · exact hplain hc
        · exact hback hc
      rw [if_neg hne, if_pos (hprint c hc)]
    rw [quote, hbody, String.ofList_toList]
  have hdrop : dropWhile isSpace (' ' :: '/' :: rest) = '/' :: rest := rfl
  have hcaret : locationOf ("^~ " ++ uri) "^~" = uri := by
    simp [locationOf, trimPrefix, hasPrefix, hrest, hdrop, ← toList_inj]
  have hexact : locationOf ("= " ++ uri) "=" = uri := by
    simp [locationOf, trimPrefix, hasPrefix, hrest, hdrop, ← toList_inj]
  have hread := unescape_of_plain hback
  have htail : unescape rest = rest := by simpa [hrest, unescape_cons] using hread
  refine ⟨⟨rest, htail, by rw [← hrest, String.ofList_toList]⟩, ?_, ?_, ?_⟩
  · have hmade : makeLocationPath lib.isPrint uri = "\"" ++ uri ++ "\"" := by
      simp [makeLocationPath, hasPrefix, hrest, hquote]
    simp [hmade, locationKey, tokenText, hread]
  · simp [makeLocationPath, hasPrefix, hcaret, hquote, locationKey, tokenText, hread]
  · simp [makeLocationPath, hasPrefix, hexact, hquote, locationKey, tokenText, hread]

/-- How an accepted path is compared, and what NGINX tells its location apart by. -/
inductive KeyCase (path : String) : LocationKind × String → Prop where
  | plain (rest : List Char) (hrest : unescape rest = rest) (hstar : hasPrefix path "~*" = false)
      (hn : normalizePath path = ofList ('/' :: rest)) :
      KeyCase path (.prefixed, ofList ('/' :: rest))
  | caret (rest : List Char) (hrest : unescape rest = rest) (hstar : hasPrefix path "~*" = false)
      (hn : normalizePath path = "^~" ++ ofList ('/' :: rest)) :
      KeyCase path (.prefixed, ofList ('/' :: rest))
  | exact (rest : List Char) (hrest : unescape rest = rest) (hstar : hasPrefix path "~*" = false)
      (hn : normalizePath path = "=" ++ ofList ('/' :: rest)) :
      KeyCase path (.exact, ofList ('/' :: rest))
  | regex (regex : String) (hstar : hasPrefix path "~*" = false)
      (hn : normalizePath path = "~" ++ regex) :
      KeyCase path (.regex, ofList (unescape regex.toList))
  | caseless (regex : String) (hstar : hasPrefix path "~*" = true)
      (hn : normalizePath path = "~*" ++ regex) :
      KeyCase path (.caselessRegex, ofList (unescape regex.toList))

theorem keyCase_of_accepted (h : validateRoutePath lib p fp = []) :
    KeyCase p (keyOfPath lib p) := by
  have hne : p ≠ "" := by
    rintro rfl
    simp [validateRoutePath] at h
  rw [validateRoutePath, if_neg hne] at h
  unfold keyOfPath
  obtain ⟨hcaret, hg, hn⟩ | ⟨hstar, hg, hn⟩ | ⟨hstar, hg, hn⟩ | ⟨hexact, hg, hn⟩ |
    ⟨hg, hn, h1, h2, h3⟩ := path_forms p
  · rw [if_pos hcaret] at h
    obtain ⟨⟨rest, hrest, huri⟩, -, hkey, -⟩ := locationKey_of_uri h
    rw [huri] at hn
    rw [hg, hkey, huri]
    exact .caret rest hrest (hasPrefix_eq_false hcaret rfl rfl (by decide)) hn
  · have hkey := KeyCase.caseless _ hstar hn
    simpa [hg, makeLocationPath, hasPrefix, locationKey, tokenText] using hkey
  · have hkey := KeyCase.regex _ hstar hn
    simpa [hg, makeLocationPath, hasPrefix, locationKey, tokenText] using hkey
  · have hother : ∀ m c, m.toList.head? = some c → '=' ≠ c → hasPrefix p m = false :=
      fun m c => hasPrefix_eq_false hexact rfl
    have h1 := hother "^~" _ rfl (by decide)
    have h2 := hother "~" _ rfl (by decide)
    have h3 := hother "/" _ rfl (by decide)
    simp only [h1, h2, h3, hexact, if_true, Bool.false_eq_true, if_false] at h
    obtain ⟨⟨rest, hrest, huri⟩, -, -, hkey⟩ := locationKey_of_uri h
    rw [huri] at hn
    rw [hg, hkey, huri]
    exact .exact rest hrest (hother "~*" _ rfl (by decide)) hn
  · simp only [h1, h2, h3, Bool.false_eq_true, if_false] at h
    split_ifs at h with hslash
    obtain ⟨⟨rest, hrest, huri⟩, hkey, -⟩ := locationKey_of_uri h
    have hcase := KeyCase.plain rest hrest (hasPrefix_eq_false hslash rfl rfl (by decide))
      (hn.trans huri)
    rw [← huri] at hcase
    rwa [hg, hkey]

/-- No prefix is given with `^~` and without it, no two regular expressions differ only in what
the tokenizer removes, and a `*` is part of the modifier in both paths. -/
def Separable (p q : String) : Prop :=
  (normalizePath q ≠ "^~" ++ normalizePath p ∧ normalizePath p ≠ "^~" ++ normalizePath q) ∧
  (normalizePath p = normalizePath q → hasPrefix p "~*" = hasPrefix q "~*") ∧
  (hasPrefix p "~*" = hasPrefix q "~*" →
    unescape (normalizePath p).toList = unescape (normalizePath q).toList →
      normalizePath p = normalizePath q)

/-- Accepted paths are one location exactly if the validator takes them for equal, unless they are
not separable. -/
theorem keys_agree_iff (hp : validateRoutePath lib p fp = [])
    (hq : validateRoutePath lib q fq = []) :
    (keyOfPath lib p = keyOfPath lib q ↔ normalizePath p = normalizePath q) ↔ Separable p q := by
  have hpcase := keyCase_of_accepted hp
  have hqcase := keyCase_of_accepted hq
  generalize keyOfPath lib p = k at *
  generalize keyOfPath lib q = k' at *
  unfold Separable
  cases hpcase <;> cases hqcase <;> simp_all [← String.toList_inj, unescape_cons]
  case plain.caret => exact not_congr eq_comm
  all_goals exact ⟨Iff.mp, fun h => ⟨h, fun heq => by rw [heq]⟩⟩

/-- NGINX refuses the two locations, although the validator accepts the two paths. -/
theorem prefixed_location_is_given_twice :
    let lib := Libraries.permissive
    validateRoutePath lib "/tea" "" = [] ∧ validateRoutePath lib "^~ /tea" "" = [] ∧
      keyOfPath lib "/tea" = keyOfPath lib "^~ /tea" ∧
      normalizePath "/tea" ≠ normalizePath "^~ /tea" := by
  decide +kernel

theorem keys_agree_iff_spaced :
    keyOfPath Libraries.permissive "=/tea" = keyOfPath Libraries.permissive "=  /tea" ↔
      normalizePath "=/tea" = normalizePath "=  /tea" :=
  (keys_agree_iff (show validateRoutePath _ _ "" = [] by decide +kernel)
    (show validateRoutePath _ _ "" = [] by decide +kernel)).mpr
      (by unfold Separable; decide +kernel)

end IngressController.Configs
