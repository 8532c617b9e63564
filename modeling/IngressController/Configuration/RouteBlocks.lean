import IngressController.Configuration.AttachedRoutes
import IngressController.Library.Pruning

/-! # The routes of a VirtualServer as blocks

Every route of a VirtualServer offers some VirtualServerRoutes. Those that no earlier route offered
form its block; only the blocks of selectors depend on the order of the loop over the stored routes.
The attached routes are the blocks and the regex routes, pruned by the paths of their subroutes.
-/

namespace IngressController

open GoString Pruning PathConflicts VsrCollection List
open Validation (normalizePath)

def subroutePaths (vsr : VirtualServerRoute) : List String :=
  vsr.spec.subroutes.map fun s => normalizePath s.path

def removalName (vsr : VirtualServerRoute) : String :=
  getResourceKeyWithKind virtualServerRouteKind vsr.objectMeta

variable {v : VirtualServerRoute}

section Conflicts

def PathConflicts.Files (acc : PathConflicts) (seen : List String) : Prop :=
  ∀ p : String, acc.paths[p]?.isSome = true ↔ p ∈ seen

variable {acc : PathConflicts} {seen : List String}

/-- One subroute is filed, and its VirtualServerRoute is to go if the path was filed before. -/
theorem PathConflicts.Files.visit (vsr : VirtualServerRoute) (h : acc.Files seen) (s : Route) :
    (visit vsr acc s).Files (seen ++ [normalizePath s.path]) ∧
      ∀ name, name ∈ (visit vsr acc s).vsrsToRemove ↔
        name ∈ acc.vsrsToRemove ∨ name = removalName vsr ∧ normalizePath s.path ∈ seen := by
  have hpath := h (normalizePath s.path)
  simp only [PathConflicts.visit]
  cases hget : acc.paths[normalizePath s.path]? with
  | some holder =>
    have hseen : normalizePath s.path ∈ seen := hpath.mp (by rw [hget]; rfl)
    refine ⟨fun p => ?_, fun name => by simp [removalName, hseen]⟩
    rw [h p, mem_append, mem_singleton]
    grind
  | none =>
    have hseen : normalizePath s.path ∉ seen := by simpa [hget] using hpath
    refine ⟨fun p => ?_, fun name => by simp [hseen]⟩
    rw [Table.get_insert, mem_append, mem_singleton, ← h p]
    grind

/-- All subroutes are filed, and the VirtualServerRoute is to go unless its paths are new. -/
theorem PathConflicts.Files.visits (vsr : VirtualServerRoute) (h : acc.Files seen)
    (subroutes : List Route) :
    (subroutes.foldl (PathConflicts.visit vsr) acc).Files
        (seen ++ subroutes.map fun s => normalizePath s.path) ∧
      ∀ name, name ∈ (subroutes.foldl (PathConflicts.visit vsr) acc).vsrsToRemove ↔
        name ∈ acc.vsrsToRemove ∨ name = removalName vsr ∧
          ¬ ((subroutes.map fun s => normalizePath s.path).Nodup ∧
            ∀ p ∈ subroutes.map fun s => normalizePath s.path, p ∉ seen) := by
  induction subroutes generalizing acc seen with
  | nil => exact ⟨by simpa using h, by simp⟩
  | cons s subroutes ih =>
    obtain ⟨hfiles, hremove⟩ := h.visit vsr s
    obtain ⟨hfiles', hremove'⟩ := ih hfiles
    refine ⟨by simpa using hfiles', fun name => ?_⟩
    rw [foldl_cons, hremove' name, hremove name, or_assoc, ← and_or_left]
    refine or_congr_right (and_congr_right fun _ => ?_)
    simp only [map_cons, nodup_cons, forall_mem_cons, mem_append, mem_singleton]
    grind

theorem removalName_eq_iff {w : VirtualServerRoute} :
    removalName v = removalName w ↔ objectKey v = objectKey w := by
  unfold removalName
  rw [getResourceKeyWithKind_eq, getResourceKeyWithKind_eq]
  simp only [String.append_right_inj]
  rfl

variable {vsrs : List VirtualServerRoute}

theorem filter_vsrsToRemove (h : acc.Files seen) (hnodup : (vsrs.map removalName).Nodup)
    (hnew : ∀ v ∈ vsrs, removalName v ∉ acc.vsrsToRemove) :
    let final := vsrs.foldl (fun acc v => v.spec.subroutes.foldl (PathConflicts.visit v) acc) acc
    vsrs.filter (fun v => removalName v ∉ final.vsrsToRemove) = prune subroutePaths seen vsrs ∧
      ∀ name, name ∉ vsrs.map removalName →
        (name ∈ final.vsrsToRemove ↔ name ∈ acc.vsrsToRemove) := by
  induction vsrs generalizing acc seen with
  | nil => simp [prune]
  | cons v vsrs ih =>
    rw [map_cons, nodup_cons] at hnodup
    obtain ⟨hfiles, hremove⟩ := h.visits v v.spec.subroutes
    have hnew' : ∀ w ∈ vsrs, removalName w ∉
        (v.spec.subroutes.foldl (visit v) acc).vsrsToRemove := by
      intro w hw hin
      obtain hin | ⟨heq, -⟩ := (hremove _).mp hin
      · exact hnew w (mem_cons_of_mem v hw) hin
      · exact hnodup.1 (heq ▸ mem_map_of_mem hw)
    obtain ⟨hfilter, hother⟩ := ih hfiles hnodup.2 hnew'
    -- later routes have other names, so the fate of this one is settled by its own subroutes
    have hfate : removalName v ∈ (vsrs.foldl (fun acc v => v.spec.subroutes.foldl (visit v) acc)
        (v.spec.subroutes.foldl (visit v) acc)).vsrsToRemove ↔ ¬ Fresh subroutePaths seen v := by
      rw [hother _ hnodup.1, hremove]
      simp [hnew v mem_cons_self, Fresh, subroutePaths]
    refine ⟨?_, fun name hname => ?_⟩
    · rw [foldl_cons, filter_cons, prune, hfilter]
      simp only [hfate, not_not, decide_eq_true_eq]
      rfl
    · rw [map_cons, mem_cons, not_or] at hname
      rw [foldl_cons, hother name hname.2, hremove]
      simp [hname.1]

theorem eraseP_eq_filter {α β : Type} [DecidableEq β] {f : α → β} {l : List α}
    (hnodup : (l.map f).Nodup) (b : β) :
    (l.eraseP fun a => f a = b) = l.filter fun a => f a ≠ b := by
  induction l with
  | nil => rfl
  | cons a l ih =>
    rw [map_cons, nodup_cons] at hnodup
    by_cases ha : f a = b
    · rw [eraseP_cons_of_pos (by simpa using ha), filter_cons_of_neg (by simpa using ha)]
      refine (filter_eq_self.mpr fun a' ha' => ?_).symm
      simp only [ne_eq, decide_not, Bool.not_eq_eq_eq_not, Bool.not_true, decide_eq_false_iff_not]
      exact fun heq => hnodup.1 (mem_map.mpr ⟨a', ha', heq.trans ha.symm⟩)
    · rw [eraseP_cons_of_neg (by simpa using ha), filter_cons_of_pos (by simpa using ha),
        ih hnodup.2]

/-- In a list without repetitions removing by name keeps the others. -/
theorem foldl_removeFromVSRSlice {names : List String} (hnodup : (vsrs.map removalName).Nodup) :
    names.foldl removeFromVSRSlice vsrs = vsrs.filter fun v => removalName v ∉ names := by
  induction names generalizing vsrs with
  | nil => simp
  | cons name names ih =>
    have hstep : removeFromVSRSlice vsrs name = vsrs.filter fun v => removalName v ≠ name :=
      eraseP_eq_filter hnodup name
    rw [foldl_cons, hstep, ih ((filter_sublist.map removalName).nodup hnodup), filter_filter]
    refine filter_congr fun v _ => ?_
    simp [Bool.and_comm]

theorem validateDuplicateVSRPaths_eq (hnodup : (vsrs.map objectKey).Nodup) :
    (validateDuplicateVSRPaths vsrs).1 = prune subroutePaths [] vsrs := by
  have hnames : (vsrs.map removalName).Nodup := by
    rw [Nodup, pairwise_map] at hnodup ⊢
    exact hnodup.imp fun hne heq => hne (removalName_eq_iff.mp heq)
  have hfiles : ({} : PathConflicts).Files [] := fun p => by simp
  have hfilter := (filter_vsrsToRemove hfiles hnames fun v _ => not_mem_nil).1
  rw [← hfilter]
  exact foldl_removeFromVSRSlice hnames

theorem map_subroutesOf (vsrs : List VirtualServerRoute) :
    ((subroutesOf vsrs).map fun e => normalizePath e.2.path) = vsrs.flatMap subroutePaths := by
  rw [subroutesOf, map_flatMap]
  simp only [map_map, Function.comp_def]
  rfl

theorem nodup_validateDuplicateVSRPaths (hnodup : (vsrs.map objectKey).Nodup) :
    ((subroutesOf (validateDuplicateVSRPaths vsrs).1).map
      fun e => normalizePath e.2.path).Nodup := by
  rw [map_subroutesOf, validateDuplicateVSRPaths_eq hnodup]
  exact (nodup_flatMap_prune [] vsrs).1

end Conflicts

/-! ## Routes that were seen -/

section Seen

variable {vs : ObjectMeta} {vsrs : List VirtualServerRoute} {seen seen' : List String}

/-- The only mark of a route is its key. -/
def keyMark (v : VirtualServerRoute) : List String := [objectKey v]

theorem flatMap_keyMark (vsrs : List VirtualServerRoute) :
    vsrs.flatMap keyMark = vsrs.map objectKey :=
  map_eq_flatMap.symm

theorem fresh_keyMark : Fresh keyMark seen v ↔ objectKey v ∉ seen := by
  simp [Fresh, keyMark]

/-- Dropping the routes that were seen is pruning by the keys. -/
theorem dropSeenVSRs_eq : (dropSeenVSRs vs seen vsrs).1 = prune keyMark seen vsrs := by
  induction vsrs generalizing seen with
  | nil => rfl
  | cons v vsrs ih =>
    rw [dropSeenVSRs, prune]
    simp only [fresh_keyMark]
    split
    · rename_i hin
      refine ih.trans (prune_congr fun k => ?_)
      simp only [keyMark, mem_append, mem_singleton]
      exact ⟨.inl, fun hk => hk.elim id fun heq => heq ▸ hin⟩
    · exact congrArg (v :: ·) (ih.trans (prune_congr fun k => by simp [keyMark, or_comm]))

theorem mem_seen_dropSeenVSRs (k : String) :
    k ∈ (dropSeenVSRs vs seen vsrs).2.2 ↔ k ∈ seen ∨ k ∈ vsrs.map objectKey := by
  induction vsrs generalizing seen with
  | nil => simp [dropSeenVSRs]
  | cons v vsrs ih =>
    unfold dropSeenVSRs
    split
    · rename_i hin
      simp only [ih, map_cons, mem_cons]
      grind
    · simp only [ih, map_cons, mem_cons]
      grind

theorem prune_keyMark (hnodup : (vsrs.map objectKey).Nodup) :
    prune keyMark seen vsrs = vsrs.filter fun v => objectKey v ∉ seen := by
  induction vsrs generalizing seen with
  | nil => rfl
  | cons v vsrs ih =>
    rw [map_cons, nodup_cons] at hnodup
    have hrest : prune keyMark (seen ++ keyMark v) vsrs =
        vsrs.filter fun w => objectKey w ∉ seen := by
      rw [ih hnodup.2]
      refine filter_congr fun w hw => ?_
      have hne : objectKey w ≠ objectKey v := fun heq => hnodup.1 (heq ▸ mem_map_of_mem hw)
      simp [keyMark, hne]
    rw [prune, hrest, filter_cons]
    simp only [fresh_keyMark, decide_eq_true_eq]

theorem nodup_prune_keyMark (seen : List String) (vsrs : List VirtualServerRoute) :
    ((prune keyMark seen vsrs).map objectKey).Nodup ∧
      ∀ v ∈ prune keyMark seen vsrs, objectKey v ∉ seen := by
  rw [← flatMap_keyMark]
  exact ⟨(nodup_flatMap_prune seen vsrs).1, fun v hv => fresh_keyMark.mp (fresh_of_mem_prune hv)⟩

end Seen

/-- The routes that each list adds to those before it. -/
def newcomers : List String → List (List VirtualServerRoute) → List (List VirtualServerRoute)
  | _, [] => []
  | seen, vsrs :: rest =>
    (vsrs.filter fun v => objectKey v ∉ seen) :: newcomers (vsrs.map objectKey ++ seen) rest

section Blocks

variable (env : Env) (routes : Store VirtualServerRoute) (vs : VirtualServer)

/-- The VirtualServerRoutes that a route of the VirtualServer refers to and validation accepts. The
regex routes are validated later, all paths of a VirtualServerRoute at once. -/
def offered (order : List String) (r : Route) : List VirtualServerRoute :=
  if r.route ≠ "" ∧ hasPrefix r.path "~" then []
  else if r.route ≠ "" then (validateVSRs env routes r vs.spec.host vs.objectMeta.nspace).1
  else
    match r.routeSelector with
    | some selector => (validateVSRSelectors env routes order selector r.path vs.spec.host).1
    | none => []

variable (ord : Order)

/-- The order in which the loop of a route visits the stored routes. -/
def visited (i : Nat) : List String :=
  ord.visit (.selector (objectKey vs) i) routes.sortedKeys

def offeredAt (e : Route × Nat) : List VirtualServerRoute :=
  offered env routes vs (visited routes vs ord e.2) e.1

/-- The VirtualServerRoutes that every route of the VirtualServer adds. -/
def routeBlocks : List (List VirtualServerRoute) :=
  newcomers [] (vs.spec.routes.zipIdx.map (offeredAt env routes vs ord))

end Blocks

section Newcomers

variable {seen seen' : List String} {vsrs : List VirtualServerRoute}

theorem filter_seen_congr (hseen : ∀ k, k ∈ seen ↔ k ∈ seen') :
    (vsrs.filter fun v => objectKey v ∉ seen) = vsrs.filter fun v => objectKey v ∉ seen' :=
  filter_congr fun v _ => by simp [hseen]

variable {lists : List (List VirtualServerRoute)}

theorem newcomers_congr (hseen : ∀ k, k ∈ seen ↔ k ∈ seen') :
    newcomers seen lists = newcomers seen' lists := by
  induction lists generalizing seen seen' with
  | nil => rfl
  | cons vsrs lists ih =>
    have hnext : newcomers (vsrs.map objectKey ++ seen) lists =
        newcomers (vsrs.map objectKey ++ seen') lists :=
      ih fun k => by rw [mem_append, mem_append, hseen k]
    rw [newcomers, newcomers, filter_seen_congr hseen, hnext]

theorem newcomers_append (seen : List String) (lists lists' : List (List VirtualServerRoute)) :
    newcomers seen (lists ++ lists') =
      newcomers seen lists ++ newcomers (lists.flatten.map objectKey ++ seen) lists' := by
  induction lists generalizing seen with
  | nil => rfl
  | cons vsrs lists ih =>
    rw [cons_append, newcomers, newcomers, ih, cons_append]
    congr 2
    refine newcomers_congr fun k => ?_
    simp only [flatten_cons, map_append, mem_append]
    tauto

/-- A block comes from one of the lists. -/
theorem newcomers_eq_append {before after : List (List VirtualServerRoute)}
    {block : List VirtualServerRoute} (h : newcomers seen lists = before ++ block :: after) :
    ∃ first vsrs last, lists = first ++ vsrs :: last ∧ before = newcomers seen first ∧
      block = vsrs.filter (fun v => objectKey v ∉ first.flatten.map objectKey ++ seen) ∧
      after = newcomers (vsrs.map objectKey ++ (first.flatten.map objectKey ++ seen)) last := by
  induction lists generalizing seen before with
  | nil => simp [newcomers] at h
  | cons vsrs lists ih =>
    rw [newcomers] at h
    cases before with
    | nil =>
      obtain ⟨rfl, rfl⟩ := cons.inj h
      exact ⟨[], vsrs, lists, rfl, rfl, rfl, rfl⟩
    | cons head before =>
      obtain ⟨rfl, htail⟩ := cons.inj h
      obtain ⟨first, vsrs', last, rfl, rfl, rfl, rfl⟩ := ih htail
      have hkeys : ∀ k, k ∈ first.flatten.map objectKey ++ (vsrs.map objectKey ++ seen) ↔
          k ∈ (vsrs :: first).flatten.map objectKey ++ seen := fun k => by
        simp only [flatten_cons, map_append, mem_append]
        tauto
      refine ⟨vsrs :: first, vsrs', last, rfl, rfl, filter_seen_congr hkeys, ?_⟩
      refine newcomers_congr fun k => ?_
      rw [mem_append, hkeys k, ← mem_append]

theorem newcomers_perm {lists' : List (List VirtualServerRoute)}
    (h : Forall₂ Perm lists lists') :
    Forall₂ Perm (newcomers seen lists) (newcomers seen lists') := by
  induction h generalizing seen with
  | nil => exact .nil
  | @cons vsrs vsrs' lists lists' hperm _ ih =>
    have hcongr : newcomers (vsrs.map objectKey ++ seen) lists' =
        newcomers (vsrs'.map objectKey ++ seen) lists' :=
      newcomers_congr fun k => by rw [mem_append, mem_append, (hperm.map objectKey).mem_iff]
    rw [newcomers, newcomers, ← hcongr]
    exact .cons (hperm.filter _) ih

theorem flatten_newcomers (h : ∀ vsrs ∈ lists, (vsrs.map objectKey).Nodup) :
    (newcomers seen lists).flatten = prune keyMark seen lists.flatten := by
  induction lists generalizing seen with
  | nil => rfl
  | cons vsrs lists ih =>
    rw [newcomers, flatten_cons, flatten_cons, prune_append, flatMap_keyMark,
      prune_keyMark (h vsrs mem_cons_self), ih (forall_mem_of_forall_mem_cons h)]
    exact congrArg _ (prune_congr fun k => by simp [or_comm])

end Newcomers

/-! ## What a selector finds -/

section Selector

variable {env : Env} {routes : Store VirtualServerRoute}

/-- The stored route of the key, if the selector matches it and validation accepts it. -/
def picked (env : Env) (routes : Store VirtualServerRoute) (sel : LabelSelector)
    (vsHost path key : String) : Option VirtualServerRoute :=
  (routes.get key).filter fun vsr => sel.selects vsr.objectMeta.labels &&
    env.validateVirtualServerRouteForVirtualServer vsr vsHost [path] = none

theorem key_of_picked {sel : LabelSelector} {vsHost path key : String}
    (h : picked env routes sel vsHost path key = some v) : objectKey v = key :=
  routes.key_of_get (Option.filter_eq_some_iff.mp h).1

theorem visit_eq (sel : LabelSelector) (vsHost path : String) (acc : SelectorMatches)
    (key : String) :
    (acc.visit env routes sel vsHost path key).vsrs =
        acc.vsrs ++ (picked env routes sel vsHost path key).toList ∧
      (acc.visit env routes sel vsHost path key).keys =
        acc.keys ++ (picked env routes sel vsHost path key).toList.map objectKey := by
  unfold SelectorMatches.visit picked
  cases hget : routes.get key with
  | none => simp
  | some vsr =>
    have hkey : objectKey vsr = key := routes.key_of_get hget
    by_cases hsel : sel.selects vsr.objectMeta.labels = true
    · cases hvalid : env.validateVirtualServerRouteForVirtualServer vsr vsHost [path] with
      | none => simp [Option.filter, hsel, hvalid, hkey]
      | some err => simp [Option.filter, hsel, hvalid]
    · simp [Option.filter, hsel]

theorem found_eq (order : List String) (sel : LabelSelector) (vsHost path : String) :
    let found := order.foldl (SelectorMatches.visit env routes sel vsHost path) {}
    found.vsrs = order.filterMap (picked env routes sel vsHost path) ∧
      found.keys = (order.filterMap (picked env routes sel vsHost path)).map objectKey := by
  induction order using reverseRecOn with
  | nil => exact ⟨rfl, rfl⟩
  | append_singleton order key ih =>
    obtain ⟨hvsrs, hkeys⟩ := ih
    have hsingle : [key].filterMap (picked env routes sel vsHost path) =
        (picked env routes sel vsHost path key).toList := by
      cases hpicked : picked env routes sel vsHost path key <;> simp [hpicked]
    simp only [foldl_append, foldl_cons, foldl_nil, visit_eq, hvsrs, hkeys,
      filterMap_append, map_append, hsingle, and_self]

variable {vs : VirtualServer} {order : List String}

theorem nodup_picked (hnodup : order.Nodup) (sel : LabelSelector) (vsHost path : String) :
    ((order.filterMap (picked env routes sel vsHost path)).map objectKey).Nodup := by
  rw [← (found_eq order sel vsHost path).2]
  exact ((found_foldl order sel vsHost path).keys).nodup hnodup

/-- A selector offers the stored routes it picks, other routes offer at most one. -/
theorem offered_cases (r : Route) :
    (∃ sel : LabelSelector, ∀ order, offered env routes vs order r =
      order.filterMap (picked env routes sel vs.spec.host r.path)) ∨
    ∃ vsrs : List VirtualServerRoute, vsrs.length ≤ 1 ∧
      ∀ order, offered env routes vs order r = vsrs := by
  unfold offered
  split
  · exact .inr ⟨[], by simp, fun _ => rfl⟩
  split
  · refine .inr ⟨_, ?_, fun _ => rfl⟩
    simp only [validateVSRs]
    split
    · simp
    · split <;> simp
  · cases r.routeSelector with
    | none => exact .inr ⟨[], by simp, fun _ => rfl⟩
    | some selector =>
      simp only [validateVSRSelectors]
      cases env.labelSelectorAsSelector selector.matchLabels with
      | error err => exact .inr ⟨[], by simp, fun _ => rfl⟩
      | ok sel => exact .inl ⟨sel, fun order => (found_eq order sel vs.spec.host r.path).1⟩

theorem nodup_offered (hnodup : order.Nodup) (r : Route) :
    ((offered env routes vs order r).map objectKey).Nodup := by
  obtain ⟨sel, hoffered⟩ | ⟨vsrs, hshort, hoffered⟩ := offered_cases r
  · rw [hoffered]
    exact nodup_picked hnodup sel vs.spec.host r.path
  · rw [hoffered]
    match vsrs, hshort with
    | [], _ => exact nodup_nil
    | [v], _ => exact nodup_singleton _

theorem offered_perm {order' : List String} (hperm : order.Perm order') (r : Route) :
    (offered env routes vs order r).Perm (offered env routes vs order' r) := by
  obtain ⟨sel, hoffered⟩ | ⟨vsrs, -, hoffered⟩ := offered_cases r
  · rw [hoffered, hoffered]
    exact hperm.filterMap _
  · rw [hoffered, hoffered]

/-- The keys of a selector are sorted, so that they do not depend on the order. -/
theorem selectors_perm {order' : List String} (hperm : order.Perm order')
    (selector : RouteSelector) (path vsHost : String) :
    (validateVSRSelectors env routes order selector path vsHost).2.1 =
      (validateVSRSelectors env routes order' selector path vsHost).2.1 := by
  unfold validateVSRSelectors
  cases env.labelSelectorAsSelector selector.matchLabels with
  | error err => rfl
  | ok sel =>
    have hkeys := (hperm.filterMap (picked env routes sel vsHost path)).map objectKey
    rw [← (found_eq order sel vsHost path).2, ← (found_eq order' sel vsHost path).2] at hkeys
    simp only
    congr 1
    exact List.Perm.eq_of_pairwise' (List.pairwise_insertionSort (· ≤ ·) _)
      (List.pairwise_insertionSort (· ≤ ·) _)
      (((perm_insertionSort (· ≤ ·) _).trans hkeys).trans
        (perm_insertionSort (· ≤ ·) _).symm)

/-- Some order of the stored routes picks the new ones in a given order. -/
theorem exists_order_picking {seen : List String} {sel : LabelSelector} {vsHost path : String}
    {ys : List VirtualServerRoute}
    (hperm : ys.Perm ((routes.sortedKeys.filterMap (picked env routes sel vsHost path)).filter
      fun v => objectKey v ∉ seen)) :
    ∃ order : List String, order.Perm routes.sortedKeys ∧
      ((order.filterMap (picked env routes sel vsHost path)).filter
        fun v => objectKey v ∉ seen) = ys := by
  have hys : ∀ v ∈ ys, picked env routes sel vsHost path (objectKey v) = some v ∧
      objectKey v ∈ routes.sortedKeys ∧ objectKey v ∉ seen := by
    intro v hv
    obtain ⟨hin, hseen⟩ := mem_filter.mp (hperm.mem_iff.mp hv)
    obtain ⟨k, hk, hpicked⟩ := mem_filterMap.mp hin
    have hkey : objectKey v = k := key_of_picked hpicked
    exact ⟨hkey ▸ hpicked, hkey ▸ hk, by simpa using hseen⟩
  have hnodup : (ys.map objectKey).Nodup := by
    refine (hperm.map objectKey).nodup_iff.mpr ((filter_sublist.map objectKey).nodup ?_)
    exact nodup_picked routes.nodup_sortedKeys sel vsHost path
  -- first the keys of the new routes, then the others
  have hkeys : (ys.map objectKey ++ routes.sortedKeys.diff (ys.map objectKey)).Perm
      routes.sortedKeys := by
    refine subperm_append_diff_self_of_count_le (subperm_ext_iff.mp (subperm_of_subset hnodup ?_))
    exact forall_mem_map.mpr fun v hv => (hys v hv).2.1
  refine ⟨_, hkeys, ?_⟩
  have hfirst : (ys.map objectKey).filterMap (picked env routes sel vsHost path) = ys := by
    rw [filterMap_map]
    exact (filterMap_congr fun v hv => (hys v hv).1).trans filterMap_some
  have hlast : ((routes.sortedKeys.diff (ys.map objectKey)).filterMap
      (picked env routes sel vsHost path)).filter (fun v => objectKey v ∉ seen) = [] := by
    rw [filter_eq_nil_iff]
    intro v hv hnew
    obtain ⟨k, hk, hpicked⟩ := mem_filterMap.mp hv
    obtain ⟨hk, hother⟩ := routes.nodup_sortedKeys.mem_sdiff_iff.mp hk
    have hin : v ∈ ys := hperm.mem_iff.mpr
      (mem_filter.mpr ⟨mem_filterMap.mpr ⟨k, hk, hpicked⟩, hnew⟩)
    exact hother (key_of_picked hpicked ▸ mem_map_of_mem hin)
  rw [filterMap_append, filter_append, hfirst, hlast, append_nil]
  exact filter_eq_self.mpr fun v hv => by simpa using (hys v hv).2.2

theorem exists_order_offering {seen : List String} {r : Route} {ys : List VirtualServerRoute}
    (hperm : ys.Perm ((offered env routes vs routes.sortedKeys r).filter
      fun v => objectKey v ∉ seen)) :
    ∃ order : List String, order.Perm routes.sortedKeys ∧
      ((offered env routes vs order r).filter fun v => objectKey v ∉ seen) = ys := by
  obtain ⟨sel, hoffered⟩ | ⟨vsrs, hshort, hoffered⟩ := @offered_cases env routes vs r
  · simp only [hoffered] at hperm ⊢
    exact exists_order_picking hperm
  simp only [hoffered] at hperm ⊢
  refine ⟨routes.sortedKeys, List.Perm.refl _, ?_⟩
  have hlength := (length_filter_le (fun v => decide (objectKey v ∉ seen)) vsrs).trans hshort
  match hlist : vsrs.filter fun v => objectKey v ∉ seen, hlength with
  | [], _ =>
    rw [hlist] at hperm
    exact hperm.eq_nil.symm
  | [v], _ =>
    rw [hlist] at hperm
    exact (perm_singleton.mp hperm).symm

end Selector

/-! ## The pass over the routes -/

section Pass

variable {env : Env} {routes : Store VirtualServerRoute} {vs : VirtualServer}

theorem addValid_vsrs {validVsrs : List VirtualServerRoute}
    (hnodup : (validVsrs.map objectKey).Nodup) (col : VsrCollection) :
    (addValid vs validVsrs col).vsrs =
        col.vsrs ++ validVsrs.filter (fun v => objectKey v ∉ col.seenVSRs) ∧
      ∀ k, k ∈ (addValid vs validVsrs col).seenVSRs ↔
        k ∈ col.seenVSRs ∨ k ∈ validVsrs.map objectKey :=
  ⟨congrArg (col.vsrs ++ ·) (dropSeenVSRs_eq.trans (prune_keyMark hnodup)), mem_seen_dropSeenVSRs⟩

theorem collectRoute_vsrs (ord : Order) (col : VsrCollection) (e : Route × Nat) :
    (col.collectRoute env routes ord vs e.1 e.2).vsrs = col.vsrs ++
        (offeredAt env routes vs ord e).filter (fun v => objectKey v ∉ col.seenVSRs) ∧
      ∀ k, k ∈ (col.collectRoute env routes ord vs e.1 e.2).seenVSRs ↔ k ∈ col.seenVSRs ∨
        k ∈ (offeredAt env routes vs ord e).map objectKey := by
  obtain ⟨r, i⟩ := e
  have hnodup : ((offeredAt env routes vs ord (r, i)).map objectKey).Nodup :=
    nodup_offered (ord.nodup_visit _ routes.nodup_sortedKeys) r
  simp only [collectRoute]
  unfold offeredAt offered visited at hnodup ⊢
  split
  · simp only [collectRegexNamedRoute]
    split
    · simp
    · split
      · split <;> simp
      · simp
  rename_i hregex
  rw [if_neg hregex] at hnodup
  split
  · rename_i hroute
    rw [if_pos hroute] at hnodup
    exact addValid_vsrs hnodup _
  rename_i hroute
  rw [if_neg hroute] at hnodup
  cases hselector : r.routeSelector with
  | none => simp
  | some selector =>
    rw [hselector] at hnodup
    exact addValid_vsrs hnodup _

theorem classify_vsrs (ord : Order) :
    (classifyAndCollectVSRs env routes ord vs).vsrs = (routeBlocks env routes vs ord).flatten := by
  suffices h : ∀ rs : List (Route × Nat),
      let col := rs.foldl (fun col e => col.collectRoute env routes ord vs e.1 e.2)
        ({} : VsrCollection)
      let lists := rs.map (offeredAt env routes vs ord)
      col.vsrs = (newcomers [] lists).flatten ∧
        ∀ k, k ∈ col.seenVSRs ↔ k ∈ lists.flatten.map objectKey from
    (h vs.spec.routes.zipIdx).1
  intro rs
  induction rs using reverseRecOn with
  | nil => simp [newcomers]
  | append_singleton rs e ih =>
    obtain ⟨hvsrs, hseen⟩ := ih
    obtain ⟨hstep, hstepSeen⟩ := @collectRoute_vsrs env routes vs ord
      (rs.foldl (fun col e => col.collectRoute env routes ord vs e.1 e.2) {}) e
    simp only [foldl_append, foldl_cons, foldl_nil, map_append, map_cons, map_nil]
    refine ⟨?_, fun k => ?_⟩
    · rw [hstep, hvsrs, newcomers_append, flatten_append, filter_seen_congr hseen]
      simp only [newcomers, flatten_cons, flatten_nil, append_nil]
    · rw [hstepSeen k, hseen k]
      simp

/-- The tables the pass keeps on the side. -/
structure SameSides (col col' : VsrCollection) : Prop where
  regexEntries : col.regexEntries = col'.regexEntries
  regexSeenPaths : col.regexSeenPaths = col'.regexSeenPaths
  vsrSelectors : col.vsrSelectors = col'.vsrSelectors

theorem SameSides.collectRoute {col col' : VsrCollection} (h : SameSides col col')
    (ord ord' : Order) (r : Route) (i : Nat) :
    SameSides (col.collectRoute env routes ord vs r i)
      (col'.collectRoute env routes ord' vs r i) := by
  obtain ⟨hentries, hpaths, hselectors⟩ := h
  simp only [VsrCollection.collectRoute]
  split
  · simp only [collectRegexNamedRoute, hentries, hpaths]
    cases routes.get (vsrKeyOf vs.objectMeta.nspace r.route) with
    | none => exact ⟨rfl, rfl, hselectors⟩
    | some vsr =>
      simp only
      split
      · split
        · exact ⟨hentries, hpaths, hselectors⟩
        · exact ⟨rfl, rfl, hselectors⟩
      · exact ⟨rfl, rfl, hselectors⟩
  · split
    · exact ⟨hentries, hpaths, hselectors⟩
    cases r.routeSelector with
    | none => exact ⟨hentries, hpaths, hselectors⟩
    | some selector =>
      refine ⟨hentries, hpaths, ?_⟩
      have hsame := @selectors_perm env routes _ _
        ((ord.perm (.selector (objectKey vs) i) routes.sortedKeys).trans
          (ord'.perm (.selector (objectKey vs) i) routes.sortedKeys).symm)
        selector r.path vs.spec.host
      simp only [collectSelectorRoute, addValid, hselectors, hsame]

variable (env routes vs) (ord ord' : Order)

theorem sameSides_classify :
    SameSides (classifyAndCollectVSRs env routes ord vs)
      (classifyAndCollectVSRs env routes ord' vs) := by
  unfold classifyAndCollectVSRs
  generalize vs.spec.routes.zipIdx = rs
  induction rs using reverseRecOn with
  | nil => exact ⟨rfl, rfl, rfl⟩
  | append_singleton rs e ih =>
    rw [foldl_append, foldl_append]
    exact ih.collectRoute ord ord' e.1 e.2

/-- The blocks of two orders differ in the order of their members. -/
theorem routeBlocks_perm :
    Forall₂ Perm (routeBlocks env routes vs ord) (routeBlocks env routes vs ord') := by
  refine newcomers_perm ?_
  rw [forall₂_map_left_iff, forall₂_map_right_iff]
  refine forall₂_same.mpr fun e _ => offered_perm ?_ e.1
  exact (ord.perm _ _).trans (ord'.perm _ _).symm

theorem nodup_routeBlocks : ((routeBlocks env routes vs ord).flatten.map objectKey).Nodup := by
  rw [routeBlocks, flatten_newcomers fun vsrs hin => ?_]
  · exact (nodup_prune_keyMark _ _).1
  obtain ⟨e, -, rfl⟩ := mem_map.mp hin
  exact nodup_offered (ord.nodup_visit _ routes.nodup_sortedKeys) e.1

/-- The regex routes, without those that are in a block. -/
def lateRoutes : List VirtualServerRoute :=
  (dropSeenVSRs vs.objectMeta ((routeBlocks env routes vs ord).flatten.map objectKey)
    (validateAndBuildRegexVSRs env (classifyAndCollectVSRs env routes ord vs).regexEntries
      vs.spec.host).1).1

theorem lateRoutes_eq : lateRoutes env routes vs ord = lateRoutes env routes vs ord' := by
  have hperm := List.Perm.flatten_congr (routeBlocks_perm env routes vs ord ord')
  unfold lateRoutes
  rw [(sameSides_classify env routes vs ord ord').regexEntries, dropSeenVSRs_eq, dropSeenVSRs_eq]
  exact prune_congr fun k => (hperm.map objectKey).mem_iff

theorem attached_eq :
    (buildVirtualServerRoutes env routes ord vs).1 = prune subroutePaths []
        ((routeBlocks env routes vs ord).flatten ++ lateRoutes env routes vs .asGiven) := by
  have hdistinct : (dropSeenVSRs vs.objectMeta []
      ((classifyAndCollectVSRs env routes ord vs).vsrs ++ (validateAndBuildRegexVSRs env
        (classifyAndCollectVSRs env routes ord vs).regexEntries vs.spec.host).1)).1 =
      (routeBlocks env routes vs ord).flatten ++ lateRoutes env routes vs .asGiven := by
    rw [dropSeenVSRs_eq, prune_append, classify_vsrs, flatMap_keyMark,
      prune_keyMark (nodup_routeBlocks env routes vs ord), lateRoutes_eq _ _ _ .asGiven ord,
      filter_eq_self.mpr fun v _ => by simp, lateRoutes, dropSeenVSRs_eq]
    rfl
  rw [← hdistinct]
  refine validateDuplicateVSRPaths_eq ?_
  rw [dropSeenVSRs_eq]
  exact (nodup_prune_keyMark _ _).1

theorem nodup_subroutes_attached :
    ((subroutesOf (buildVirtualServerRoutes env routes ord vs).1).map
      fun e => normalizePath e.2.path).Nodup :=
  nodup_validateDuplicateVSRPaths (dropSeenVSRs_eq ▸ (nodup_prune_keyMark _ _).1)

end Pass

/-! ## Orders that attach the same routes -/

section Orders

variable {env : Env} {routes : Store VirtualServerRoute} {vs : VirtualServer}
  {before after : List (List VirtualServerRoute)} {block ys : List VirtualServerRoute}

theorem exists_order_arranging
    (h : routeBlocks env routes vs .asGiven = before ++ block :: after) (hperm : ys.Perm block) :
    ∃ ord, routeBlocks env routes vs ord = before ++ ys :: after := by
  obtain ⟨first, vsrs, last, hoffers, rfl, rfl, rfl⟩ := newcomers_eq_append h
  obtain ⟨es, es', hsplit, rfl, hlast⟩ := map_eq_append_iff.mp hoffers
  obtain ⟨e, es', rfl, rfl, rfl⟩ := map_eq_cons_iff.mp hlast
  obtain ⟨order, horder, hys⟩ := exists_order_offering hperm
  obtain ⟨ord, hvisit, hothers⟩ := IterOrder.exists_visit (Loop.selector (objectKey vs) e.2) horder
  -- the other routes have other numbers, so their loops take the stored routes as given
  have hnumbers : ((es ++ e :: es').map Prod.snd).Nodup := by
    rw [← hsplit, zipIdx_map_snd]
    exact nodup_range'
  have hsame : ∀ e' : Route × Nat, e'.2 ≠ e.2 →
      offeredAt env routes vs ord e' = offeredAt env routes vs .asGiven e' := by
    intro e' hne
    unfold offeredAt visited
    rw [hothers _ (by simpa using hne)]
    rfl
  rw [map_append, map_cons, nodup_append, nodup_cons] at hnumbers
  obtain ⟨-, ⟨hlater, -⟩, hearlier⟩ := hnumbers
  have hfirst : es.map (offeredAt env routes vs ord) = es.map (offeredAt env routes vs .asGiven) :=
    map_congr_left fun e' he' => hsame e' (hearlier _ (mem_map_of_mem he') _ mem_cons_self)
  have hrest : es'.map (offeredAt env routes vs ord) = es'.map (offeredAt env routes vs .asGiven) :=
    map_congr_left fun e' he' => hsame e' fun heq => hlater (heq ▸ mem_map_of_mem he')
  have hthis : offeredAt env routes vs ord e = offered env routes vs order e.1 := by
    unfold offeredAt visited
    rw [hvisit]
  refine ⟨ord, ?_⟩
  rw [routeBlocks, hsplit, map_append, map_cons, hfirst, hrest, hthis, newcomers_append,
    newcomers, hys]
  congr 2
  refine newcomers_congr fun k => ?_
  have hkeys : k ∈ (offered env routes vs order e.1).map objectKey ↔
      k ∈ (offeredAt env routes vs .asGiven e).map objectKey :=
    ((offered_perm horder e.1).map objectKey).mem_iff
  rw [mem_append, hkeys, ← mem_append]

variable {ord : Order}

/-- The attached routes before, in and after a block that is rearranged. -/
theorem attached_arranged (h : routeBlocks env routes vs ord = before ++ ys :: after)
    (hperm : ys.Perm block) :
    (buildVirtualServerRoutes env routes ord vs).1 = prune subroutePaths [] before.flatten ++
        (prune subroutePaths (before.flatten.flatMap subroutePaths) ys ++
          prune subroutePaths ((before.flatten ++ block).flatMap subroutePaths)
            (after.flatten ++ lateRoutes env routes vs .asGiven)) := by
  rw [attached_eq, h, flatten_append, flatten_cons, append_assoc, append_assoc,
    ← append_assoc _ ys, prune_middle hperm, append_assoc]
  rfl

theorem nodup_block (h : routeBlocks env routes vs ord = before ++ block :: after) :
    block.Nodup ∧ ∀ v ∈ block, v ∉ before.flatten ∧
      v ∉ after.flatten ++ lateRoutes env routes vs .asGiven := by
  have hnodup := nodup_routeBlocks env routes vs ord
  rw [h, flatten_append, flatten_cons, map_append, map_append, nodup_append, nodup_append] at hnodup
  obtain ⟨-, ⟨hblock, -, hlater⟩, hearlier⟩ := hnodup
  refine ⟨hblock.of_map, fun v hv => ⟨fun hin => ?_, fun hin => ?_⟩⟩
  · exact hearlier _ (mem_map_of_mem hin) _ (mem_append_left _ (mem_map_of_mem hv)) rfl
  obtain hin | hin := mem_append.mp hin
  · exact hlater _ (mem_map_of_mem hv) _ (mem_map_of_mem hin) rfl
  · -- a late route has a key that is in no block
    rw [lateRoutes_eq env routes vs .asGiven ord, lateRoutes, dropSeenVSRs_eq] at hin
    refine (nodup_prune_keyMark _ _).2 v hin (mem_map_of_mem ?_)
    rw [h, flatten_append, flatten_cons]
    exact mem_append_right _ (mem_append_left _ hv)

theorem mem_attached_iff (h : routeBlocks env routes vs ord = before ++ ys :: after) (hv : v ∈ ys) :
    v ∈ (buildVirtualServerRoutes env routes ord vs).1 ↔
      v ∈ prune subroutePaths (before.flatten.flatMap subroutePaths) ys := by
  obtain ⟨hearlier, hlater⟩ := (nodup_block h).2 v hv
  rw [attached_arranged h (List.Perm.refl ys), mem_append, mem_append]
  constructor
  · rintro (hin | hin | hin)
    · exact absurd ((sublist_prune _ _).subset hin) hearlier
    · exact hin
    · exact absurd ((sublist_prune _ _).subset hin) hlater
  · exact fun hin => .inr (.inl hin)

theorem prune_lateRoutes (ord : Order) :
    prune subroutePaths ((routeBlocks env routes vs ord).flatten.flatMap subroutePaths)
        (lateRoutes env routes vs .asGiven) =
      prune subroutePaths ((routeBlocks env routes vs .asGiven).flatten.flatMap subroutePaths)
        (lateRoutes env routes vs .asGiven) := by
  have hperm := List.Perm.flatten_congr (routeBlocks_perm env routes vs ord .asGiven)
  refine prune_congr fun p => ?_
  simp [hperm.mem_iff]

/-- The routes two orders attach are related if those of all blocks are. -/
theorem attached_of_blocks {R : List VirtualServerRoute → List VirtualServerRoute → Prop}
    (hR : Equivalence R) (happend : ∀ {a b c d}, R a b → R c d → R (a ++ c) (b ++ d))
    (h : AtBlocks (fun before block => ∀ ys, ys.Perm block →
      R (prune subroutePaths (before.flatMap subroutePaths) ys)
        (prune subroutePaths (before.flatMap subroutePaths) block))
      (routeBlocks env routes vs .asGiven)) (ord ord' : Order) :
    R (buildVirtualServerRoutes env routes ord vs).1
      (buildVirtualServerRoutes env routes ord' vs).1 := by
  have hgiven : ∀ ord, R (buildVirtualServerRoutes env routes ord vs).1
      (buildVirtualServerRoutes env routes .asGiven vs).1 := by
    intro ord
    rw [attached_eq, attached_eq, prune_append, prune_append, nil_append, nil_append,
      prune_lateRoutes ord]
    exact happend (prune_arranged hR.refl happend (routeBlocks_perm env routes vs ord .asGiven) h)
      (hR.refl _)
  exact hR.trans (hgiven ord) (hR.symm (hgiven ord'))

/-- No route of the block that could stay has a path in common with another one. -/
def NoCompetitors (before block : List VirtualServerRoute) : Prop :=
  ∀ v ∈ block, Fresh subroutePaths (before.flatMap subroutePaths) v →
    Isolated subroutePaths block v

/-- At most one route of the block could stay. -/
def OneStays (before block : List VirtualServerRoute) : Prop :=
  ∀ v ∈ block, ∀ w ∈ block, Fresh subroutePaths (before.flatMap subroutePaths) v →
    Fresh subroutePaths (before.flatMap subroutePaths) w → v = w

/-- Every order attaches the same routes exactly if no route that could stay has a path in common
with another one of its block. -/
theorem attached_members_iff :
    (∀ ord ord' v, v ∈ (buildVirtualServerRoutes env routes ord vs).1 ↔
      v ∈ (buildVirtualServerRoutes env routes ord' vs).1) ↔
      AtBlocks NoCompetitors (routeBlocks env routes vs .asGiven) := by
  constructor
  · intro h before block after hblocks
    obtain ⟨hnodup, -⟩ := nodup_block hblocks
    refine (members_perm_iff hnodup).mp fun ys hperm v => ?_
    obtain ⟨ord, hord⟩ := exists_order_arranging hblocks hperm
    by_cases hv : v ∈ block
    · rw [← mem_attached_iff hord (hperm.mem_iff.mpr hv), ← mem_attached_iff hblocks hv]
      exact h ord .asGiven v
    · refine iff_of_false (fun hin => hv ?_) fun hin => hv ((sublist_prune _ _).subset hin)
      exact hperm.mem_iff.mp ((sublist_prune _ _).subset hin)
  · intro h
    have hsame := attached_of_blocks
      (R := fun a b : List VirtualServerRoute => ∀ v, v ∈ a ↔ v ∈ b)
      ⟨fun _ _ => .rfl, fun h v => (h v).symm, fun h h' v => (h v).trans (h' v)⟩
      (fun h h' v => by rw [mem_append, mem_append, h v, h' v])
      fun _ _ _ heq => (members_perm_iff (nodup_block heq).1).mpr (h _ _ _ heq)
    exact hsame

/-- Every order attaches the same list of routes exactly if moreover at most one route of every
block could stay. -/
theorem attached_eq_iff :
    (∀ ord ord', (buildVirtualServerRoutes env routes ord vs).1 =
      (buildVirtualServerRoutes env routes ord' vs).1) ↔
      AtBlocks (fun before block => NoCompetitors before block ∧ OneStays before block)
        (routeBlocks env routes vs .asGiven) := by
  constructor
  · intro h before block after hblocks
    obtain ⟨hnodup, -⟩ := nodup_block hblocks
    refine (prune_perm_iff hnodup).mp fun ys hperm => ?_
    obtain ⟨ord, hord⟩ := exists_order_arranging hblocks hperm
    have hsame := h ord .asGiven
    rw [attached_arranged hord hperm, attached_arranged hblocks (List.Perm.refl block)] at hsame
    exact append_cancel_right (append_cancel_left hsame)
  · exact fun h => attached_of_blocks eq_equivalence (fun h h' => by rw [h, h'])
      fun _ _ _ heq => (prune_perm_iff (nodup_block heq).1).mpr (h _ _ _ heq)

end Orders

end IngressController
