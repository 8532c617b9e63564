import Mathlib.Data.List.Flatten
import IngressController.Configuration.AcceptedObjects
import IngressController.Configuration.RouteBlocks
import IngressController.Generator.Locations
import IngressController.Validation.AcceptedRoutes

/-! # Locations of one server

Every path is checked against the paths of its own list: the routes of a VirtualServer by
the validator, the subroutes of all its VirtualServerRoutes by the configuration. A route of
the VirtualServer is never checked against a subroute.
-/

namespace IngressController

open GoString Validation Configs List

/-- A path has at most one of the heads of the modifiers. -/
theorem hasPrefix_eq_false {p m m' : String} {c c' : Char} (h : hasPrefix p m = true)
    (hm : m.toList.head? = some c) (hm' : m'.toList.head? = some c') (hne : c ≠ c') :
    hasPrefix p m' = false := by
  cases hp : p.toList with
  | nil =>
    cases hl : m.toList with
    | nil => simp [hl] at hm
    | cons a l => simp [hasPrefix, hp, hl] at h
  | cons x xs =>
    cases hl : m.toList with
    | nil => simp [hl] at hm
    | cons a l =>
      cases hl' : m'.toList with
      | nil => simp [hl'] at hm'
      | cons a' l' =>
        simp only [hasPrefix, hp, hl, hl', isPrefixOf, Bool.and_eq_true, beq_iff_eq,
          head?_cons, Option.some.injEq] at h hm hm' ⊢
        simp only [Bool.and_eq_false_iff, beq_eq_false_iff_ne]
        left
        rw [← h.1, hm, hm']
        exact Ne.symm hne

/-- A location and a normalized path keep the modifier of a path and what follows it. -/
theorem path_forms (p : String) :
    (hasPrefix p "^~" = true ∧ generatePath p = "^~ " ++ locationOf p "^~" ∧
      normalizePath p = "^~" ++ locationOf p "^~") ∨
    (hasPrefix p "~*" = true ∧ generatePath p = "~* \"" ++ locationOf p "~*" ++ "\"" ∧
      normalizePath p = "~*" ++ locationOf p "~*") ∨
    (hasPrefix p "~*" = false ∧ generatePath p = "~ \"" ++ locationOf p "~" ++ "\"" ∧
      normalizePath p = "~" ++ locationOf p "~") ∨
    (hasPrefix p "=" = true ∧ generatePath p = "= " ++ locationOf p "=" ∧
      normalizePath p = "=" ++ locationOf p "=") ∨
    generatePath p = p ∧ normalizePath p = p ∧ hasPrefix p "^~" = false ∧
      hasPrefix p "~" = false ∧ hasPrefix p "=" = false := by
  by_cases hcaret : hasPrefix p "^~" = true
  · have h1 : hasPrefix p "~*" = false := hasPrefix_eq_false hcaret rfl rfl (by decide)
    have h2 : hasPrefix p "~" = false := hasPrefix_eq_false hcaret rfl rfl (by decide)
    exact .inl ⟨hcaret, by simp [generatePath, hcaret],
      by simp [normalizePath, pathModifiers, find?, h1, h2, hcaret, locationOf]⟩
  by_cases hstar : hasPrefix p "~*" = true
  · exact .inr (.inl ⟨hstar, by simp [generatePath, hcaret, hstar],
      by simp [normalizePath, pathModifiers, hstar, locationOf]⟩)
  by_cases htilde : hasPrefix p "~" = true
  · exact .inr (.inr (.inl ⟨by simpa using hstar, by simp [generatePath, hcaret, hstar, htilde],
      by simp [normalizePath, pathModifiers, find?, hstar, htilde, locationOf]⟩))
  by_cases hexact : hasPrefix p "=" = true
  · exact .inr (.inr (.inr (.inl ⟨hexact,
      by simp [generatePath, hcaret, hstar, htilde, hexact],
      by simp [normalizePath, pathModifiers, find?, hstar, htilde, hcaret, hexact, locationOf]⟩)))
  · refine .inr (.inr (.inr (.inr ⟨?_, ?_, ?_, ?_, ?_⟩)))
    · simp [generatePath, hcaret, hstar, htilde, hexact]
    · simp [normalizePath, pathModifiers, find?, hcaret, hstar, htilde, hexact]
    · simpa using hcaret
    · simpa using htilde
    · simpa using hexact

/-- The path a location path was generated from, without the white space after the modifier. -/
def ofLocationPath : List Char → List Char
  | '^' :: '~' :: ' ' :: rest => '^' :: '~' :: rest
  | '~' :: '*' :: ' ' :: '"' :: rest => '~' :: '*' :: rest.dropLast
  | '~' :: ' ' :: '"' :: rest => '~' :: rest.dropLast
  | '=' :: ' ' :: rest => '=' :: rest
  | path => path

theorem ofLocationPath_generatePath (p : String) :
    ofLocationPath (generatePath p).toList = (normalizePath p).toList := by
  obtain ⟨-, hg, hn⟩ | ⟨-, hg, hn⟩ | ⟨-, hg, hn⟩ | ⟨-, hg, hn⟩ | ⟨hg, hn, h1, h2, h3⟩ :=
    path_forms p
  iterate 4 · simp [hg, hn, String.toList_append, ofLocationPath]
  rw [hg, hn]
  unfold ofLocationPath
  split <;> simp_all [hasPrefix]

/-- Paths with equal locations are equal up to the white space after the modifier. -/
theorem normalizePath_eq_of_generatePath_eq {p q : String} (h : generatePath p = generatePath q) :
    normalizePath p = normalizePath q := by
  apply String.toList_inj.mp
  rw [← ofLocationPath_generatePath, h, ofLocationPath_generatePath]

def routeLocationPaths (vs : VirtualServer) : List String :=
  (vs.spec.routes.filter rendersLocations).map fun r => generatePath r.path

def subrouteLocationPaths (vsrs : List VirtualServerRoute) : List String :=
  (subroutesOf vsrs).map fun e => generatePath e.2.path

def locationPaths (vs : VirtualServer) (vsrs : List VirtualServerRoute) : List String :=
  routeLocationPaths vs ++ subrouteLocationPaths vsrs

theorem nodup_generatePath {α : Type} {l : List α} {f : α → String}
    (h : (l.map fun a => normalizePath (f a)).Nodup) :
    (l.map fun a => generatePath (f a)).Nodup := by
  rw [Nodup, pairwise_map] at h ⊢
  exact h.imp fun hne heq => hne (normalizePath_eq_of_generatePath_eq heq)

/-- The locations of a server are distinct unless a subroute has the location of a route of the
VirtualServer. -/
theorem nodup_locationPaths_iff (vsv : VirtualServerValidator) (env : Env)
    (routes : Store VirtualServerRoute) (ord : Order) (vs : VirtualServer)
    (haccepted : vsv.validateVirtualServer vs = none) :
    (locationPaths vs (buildVirtualServerRoutes env routes ord vs).1).Nodup ↔
      ∀ r ∈ vs.spec.routes, rendersLocations r = true →
        ∀ vsr ∈ (buildVirtualServerRoutes env routes ord vs).1, ∀ s ∈ vsr.spec.subroutes,
          generatePath s.path ≠ generatePath r.path := by
  have hroutes : (routeLocationPaths vs).Nodup := by
    refine nodup_generatePath (f := Route.path) ?_
    exact (filter_sublist.map _).nodup (nodup_routes_of_accepted haccepted)
  have hsubroutes : (subrouteLocationPaths (buildVirtualServerRoutes env routes ord vs).1).Nodup :=
    nodup_generatePath (f := fun e : VirtualServerRoute × Route => e.2.path)
      (nodup_subroutes_attached env routes vs ord)
  rw [locationPaths, nodup_append]
  constructor
  · rintro ⟨-, -, hdisjoint⟩ r hr hrenders vsr hvsr s hs heq
    refine hdisjoint (generatePath r.path) ?_ (generatePath s.path) ?_ heq.symm
    · exact mem_map_of_mem (mem_filter.mpr ⟨hr, hrenders⟩)
    · exact mem_map.mpr ⟨(vsr, s), mem_flatMap.mpr
        ⟨vsr, hvsr, mem_map_of_mem hs⟩, rfl⟩
  · intro hdistinct
    refine ⟨hroutes, hsubroutes, ?_⟩
    intro p hp p' hp' heq
    obtain ⟨r, hr, rfl⟩ := mem_map.mp hp
    obtain ⟨e, he, rfl⟩ := mem_map.mp hp'
    obtain ⟨vsr, hvsr, hin⟩ := mem_flatMap.mp he
    obtain ⟨s, hs, rfl⟩ := mem_map.mp hin
    obtain ⟨hr, hrenders⟩ := mem_filter.mp hr
    exact hdistinct r hr hrenders vsr hvsr s hs heq.symm

/-- The root delegates, and `/tea` is a route of its own. -/
def teaAtRoot : VirtualServer where
  objectMeta := { nspace := .of "default", name := .of "cafe" }
  spec := {
    host := "cafe.example.com"
    upstreams := [{ name := "tea", service := "tea-svc", port := 80 }]
    routes := [
      { path := "/", route := "drinks" },
      { path := "/tea", action := some { pass := "tea" } }] }

def drinks : VirtualServerRoute where
  objectMeta := { nspace := .of "default", name := .of "drinks" }
  spec := {
    host := "cafe.example.com"
    upstreams := [{ name := "green-tea", service := "green-tea-svc", port := 80 }]
    subroutes := [{ path := "/tea", action := some { pass := "green-tea" } }] }

def drinksStore : Store VirtualServerRoute := Store.empty.put drinks

theorem subroute_repeats_route_location :
    let env := (Env.permissive false).validatedBy plainValidator
    plainValidator.validateVirtualServer teaAtRoot = none ∧
      env.validateVirtualServerRoute drinks = none ∧
      (buildVirtualServerRoutes env drinksStore .asGiven teaAtRoot).1 = [drinks] ∧
      locationPaths teaAtRoot [drinks] = ["/tea", "/tea"] := by
  decide +kernel

def drinksWith (name : ResourceName) (paths : List String) : VirtualServerRoute where
  objectMeta := { nspace := .of "default", name }
  spec := { drinks.spec with
    subroutes := paths.map fun path => { path, action := some { pass := "green-tea" } } }

/-- With other subroutes, of two VirtualServerRoutes, all locations differ. -/
theorem nodup_locationPaths_iff_milk :
    let vs := { teaAtRoot with spec.routes :=
      teaAtRoot.spec.routes ++ [{ path := "/milk", route := "milk" }] }
    let attached := [drinksWith (.of "drinks") ["/coffee", "/juice"],
      drinksWith (.of "milk") ["/milk"]]
    let routes : Store VirtualServerRoute := attached.foldl Store.put .empty
    plainValidator.validateVirtualServer vs = none ∧
      (buildVirtualServerRoutes (Env.permissive false) routes .asGiven vs).1 = attached ∧
      (locationPaths vs
        (buildVirtualServerRoutes (Env.permissive false) routes .asGiven vs).1).Nodup := by
  intro vs attached routes
  have haccepted : plainValidator.validateVirtualServer vs = none := by decide +kernel
  have hattached : (buildVirtualServerRoutes (Env.permissive false) routes .asGiven vs).1 =
      attached := by decide +kernel
  refine ⟨haccepted, hattached, (nodup_locationPaths_iff plainValidator _ _ _ _ haccepted).mpr ?_⟩
  rw [hattached]
  decide +kernel

/-- Every path is kept once, and only what competes with a kept VirtualServerRoute is removed. -/
structure PrunedMinimally (vsrs kept : List VirtualServerRoute) : Prop where
  distinct : ((subroutesOf kept).map fun e => normalizePath e.2.path).Nodup
  removed : ∀ v ∈ vsrs, v ∉ kept → ∃ w ∈ kept, ¬ Disjoint (subroutePaths v) (subroutePaths w)
  served : ∀ v ∈ vsrs,
    (∀ w ∈ vsrs, w ≠ v → ¬ Disjoint (subroutePaths v) (subroutePaths w) → w ∉ kept) →
    ∀ p ∈ subroutePaths v, ∃ w ∈ kept, p ∈ subroutePaths w

def mixedDrinks : VirtualServerRoute := drinksWith (.of "mixed") ["/tea", "/milk"]

def milkDrinks : VirtualServerRoute := drinksWith (.of "milk") ["/milk"]

end IngressController
