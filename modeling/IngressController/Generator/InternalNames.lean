import IngressController.Generator.Names
import IngressController.Library.NumberedText

/-! # Internal names

The variables and locations a generated configuration refers to, as data. Different data have
different texts.
-/

namespace IngressController.Configs

open GoString NumberedText VariableNamer

inductive InternalVariable where
  | splitClients (i : Nat)
  | splitClientsForWeights (i w w' : Nat)
  | splitClientsMap (i : Nat)
  | keyval (i : Nat)
  | condition (index i j : Nat)
  | matchesMap (index : Nat)

namespace InternalVariable

def text (namer : VariableNamer) : InternalVariable → String
  | splitClients i => namer.getNameForSplitClientVariable i
  | splitClientsForWeights i w w' => namer.getNameOfSplitClientsForWeights i w w'
  | splitClientsMap i => namer.getNameOfMapForSplitClientIndex i
  | keyval i => namer.getNameOfKeyvalForSplitClientIndex i
  | condition index i j => namer.getNameForVariableForMatchesRouteMap index i j
  | matchesMap index => namer.getNameForVariableForMatchesRouteMainMap index

/-- What follows the name of the VirtualServer. -/
def numbered : InternalVariable → NumberedText
  | splitClients i => { parts := [("splits_", i)] }
  | splitClientsForWeights i w w' => { parts := [("split_clients_", i), ("_", w), ("_", w')] }
  | splitClientsMap i => { parts := [("map_split_clients_", i)] }
  | keyval i => { parts := [("keyval_split_clients_", i)] }
  | condition index i j => { parts := [("matches_", index), ("_match_", i), ("_cond_", j)] }
  | matchesMap index => { parts := [("matches_", index)] }

theorem isSeparated_numbered (v : InternalVariable) : v.numbered.isSeparated = true := by
  cases v <;> simp only [numbered, isSeparated, List.map] <;> decide

theorem numbered_inj {v v' : InternalVariable} (h : v.numbered = v'.numbered) : v = v' := by
  cases v <;> cases v' <;> simp_all [numbered]

theorem toList_text (namer : VariableNamer) (v : InternalVariable) :
    (v.text namer).toList =
      '$' :: ("vs_".toList ++ (namer.safeNsName.toList ++ '_' :: v.numbered.render)) := by
  cases v <;>
    simp [text, numbered, render, renderParts, ofNat,
      getNameForSplitClientVariable, getNameOfSplitClientsForWeights,
      getNameOfMapForSplitClientIndex,
      getNameOfKeyvalForSplitClientIndex,
      getNameForVariableForMatchesRouteMap,
      getNameForVariableForMatchesRouteMainMap]

theorem text_inj {namer : VariableNamer} {v v' : InternalVariable}
    (h : v.text namer = v'.text namer) : v = v' := by
  have hlist := congrArg String.toList h
  rw [toList_text, toList_text] at hlist
  have hrender := (List.cons.inj (List.append_cancel_left (List.append_cancel_left
    (List.cons.inj hlist).2))).2
  exact numbered_inj (render_inj v.isSeparated_numbered v'.isSeparated_numbered hrender)

theorem notMem_render (v : InternalVariable) : '$' ∉ v.numbered.render := by
  intro h
  have hword := hasWordWith_of_mem_render h (by decide)
  revert hword
  cases v <;> simp only [numbered, hasWordWith, List.map] <;> decide

end InternalVariable

inductive InternalLocation where
  | split (scIndex i : Nat)
  | routeMatch (index i : Nat)
  | matchDefault (index : Nat)
  | ret (retLocIndex : Nat)
  | errorPage (errPageIndex i : Nat)

namespace InternalLocation

def text : InternalLocation → String
  | split scIndex i => splitLocationPath scIndex i
  | routeMatch index i => matchLocationPath index i
  | matchDefault index => defaultLocationPath index
  | ret retLocIndex => returnLocationName retLocIndex
  | errorPage errPageIndex i => generateErrorPageName errPageIndex i

def numbered : InternalLocation → NumberedText
  | split scIndex i =>
    { parts := [("/internal_location_splits_", scIndex), ("_split_", i)] }
  | routeMatch index i =>
    { parts := [("/internal_location_matches_", index), ("_match_", i)] }
  | matchDefault index =>
    { parts := [("/internal_location_matches_", index)], last := "_default" }
  | ret retLocIndex => { parts := [("@return_", retLocIndex)] }
  | errorPage errPageIndex i => { parts := [("@error_page_", errPageIndex), ("_", i)] }

theorem isSeparated_numbered (l : InternalLocation) : l.numbered.isSeparated = true := by
  cases l <;> simp only [numbered, isSeparated, List.map] <;> decide

theorem numbered_inj {l l' : InternalLocation} (h : l.numbered = l'.numbered) : l = l' := by
  cases l <;> cases l' <;> simp_all [numbered]

theorem toList_text (l : InternalLocation) : l.text.toList = l.numbered.render := by
  cases l <;>
    simp [text, numbered, render, renderParts, ofNat, splitLocationPath,
      matchLocationPath, defaultLocationPath, returnLocationName, generateErrorPageName,
      internalLocationPrefix]

theorem text_inj {l l' : InternalLocation} (h : l.text = l'.text) : l = l' := by
  have hlist := congrArg String.toList h
  rw [toList_text, toList_text] at hlist
  exact numbered_inj (render_inj l.isSeparated_numbered l'.isSeparated_numbered hlist)

end InternalLocation

end IngressController.Configs
