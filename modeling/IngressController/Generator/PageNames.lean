import Mathlib.Data.List.Sigma
import IngressController.Generator.AcceptedSpecs
import IngressController.Generator.InternalNames

/-! # Names of error pages

Error pages are numbered by the locations before those of their route, which a subroute that
inherits them keeps. So all of them lead to locations that exist.
-/

namespace IngressController.Configs

open Version2 Offsets List

def namedPages (index : Nat) (pages : List IngressController.ErrorPage) : List InternalLocation :=
  (locatedPages pages).map fun e => .errorPage index e.2

def pageNames (e : Nat × Route) : List InternalLocation := namedPages e.1 (e.2.errorPages.getD [])

theorem name_pageLocations {index : Nat} {routes : List Route}
    {locations : List ErrorPageLocation} (h : pageLocations index routes = some locations) :
    locations.map ErrorPageLocation.name =
      ((place pageCount index routes).flatMap pageNames).map InternalLocation.text := by
  induction routes generalizing index locations with
  | nil =>
    obtain rfl : locations = [] := by simpa [pageLocations] using h.symm
    rfl
  | cons r routes ih =>
    simp only [pageLocations, Option.bind_eq_bind, Option.bind_eq_some_iff, Option.some.injEq] at h
    obtain ⟨first, hfirst, rest, hrest, rfl⟩ := h
    rw [map_append, name_generateErrorPageLocations hfirst, ih hrest, place_cons,
      flatMap_cons, map_append, pageNames, namedPages, map_map]
    rfl

theorem length_pageNames (e : Nat × Route) : (pageNames e).length = pageCount e.2 := by
  rw [pageNames, namedPages, length_map, length_locatedPages, pageCount]

theorem nodup_pageNames (routes : List Route) :
    ((place pageCount 0 routes).flatMap pageNames).Nodup := by
  refine nodup_flatMap_place (fun e => ?_) (fun hl => ?_) fun hl hl' => ?_
  · have hsnd := nodup_zipIdx_map_snd (e.2.errorPages.getD [])
    refine List.Pairwise.map _ ?_ (((pairwise_map.mp hsnd).filter _))
    intro p p' hne heq
    rw [InternalLocation.errorPage.injEq] at heq
    exact hne heq.2
  · rw [← length_pageNames]
    exact length_pos_of_mem hl
  · obtain ⟨p, -, rfl⟩ := mem_map.mp hl
    obtain ⟨p', -, heq⟩ := mem_map.mp hl'
    rw [InternalLocation.errorPage.injEq] at heq
    exact heq.1.symm

theorem name_of_mem_generateErrorPages {index : Nat} {pages : List IngressController.ErrorPage}
    {generated : List Version2.ErrorPage} (h : generateErrorPages index pages = some generated)
    {page : Version2.ErrorPage} (hpage : page ∈ generated) :
    (∃ e ∈ pages, ∃ redirect, e.redirect = some redirect ∧ page.name = redirect.url) ∨
      ∃ l ∈ namedPages index pages, page.name = l.text := by
  unfold generateErrorPages at h
  obtain ⟨⟨e, i⟩, he, heq⟩ := GoPanic.exists_of_mem_mapM h hpage
  simp only [generateErrorPage] at heq
  cases hredirect : e.redirect with
  | some redirect =>
    rw [hredirect] at heq
    cases heq
    exact .inl ⟨e, fst_mem_of_mem_zipIdx he, redirect, hredirect, rfl⟩
  | none =>
    simp only [hredirect, Option.bind_eq_bind, Option.bind_eq_some_iff, Option.some.injEq] at heq
    obtain ⟨ret, -, rfl⟩ := heq
    refine .inr ⟨.errorPage index i, mem_map.mpr ⟨(e, i), ?_, rfl⟩, rfl⟩
    exact mem_filter.mpr ⟨he, by rw [hredirect]; rfl⟩

end IngressController.Configs
