import IngressController.Library.GoMap

/-! # Trees of files

A tree maps paths to contents. Removing or renaming a missing file fails, and a file that is renamed
replaces what its new path held. A file is hidden by renaming it to a path that is not read.
-/

abbrev FileTree := GoMap String

namespace FileTree

open Table List

variable {t t' t'' : FileTree} {p q : String}

/-- `os.Remove` -/
def remove (t : FileTree) (path : String) : Option FileTree :=
  if path ∈ t then some (t.erase path) else none

/-- `os.Rename` -/
def rename (t : FileTree) (source target : String) : Option FileTree :=
  t[source]?.map fun content => (t.erase source).insert target content

theorem mem_iff {path : String} : path ∈ t ↔ ∃ content, t[path]? = some content := by
  rw [Std.ExtTreeMap.mem_iff_isSome_getElem?, Option.isSome_iff_exists]

theorem mem_of_get_eq (h : t'[p]? = t[p]?) (hp : p ∈ t) : p ∈ t' := by
  obtain ⟨content, hcontent⟩ := mem_iff.mp hp
  exact mem_iff.mpr ⟨content, h.trans hcontent⟩

theorem remove_of_mem {path : String} (h : path ∈ t) : remove t path = some (t.erase path) :=
  if_pos h

variable {content : String}

theorem insert_of_get (h : t[p]? = some content) : t.insert p content = t := by
  apply Std.ExtTreeMap.ext_getElem?
  intro q
  rw [get_insert]
  split
  · rename_i heq
    rw [← heq, h]
  · rfl

theorem insert_insert_of_get (h : t[p]? = some content) (other : String) :
    (t.insert p other).insert p content = t := by
  apply Std.ExtTreeMap.ext_getElem?
  intro q
  rw [get_insert, get_insert]
  split
  · rename_i heq
    rw [← heq, h]
  · rfl

theorem erase_of_not_mem (h : p ∉ t) : t.erase p = t := by
  apply Std.ExtTreeMap.ext_getElem?
  intro q
  rw [get_erase]
  split
  · rename_i heq
    rw [← heq, Std.ExtTreeMap.getElem?_eq_none h]
  · rfl

theorem erase_insert (content : String) : (t.insert p content).erase p = t.erase p := by
  apply Std.ExtTreeMap.ext_getElem?
  intro q
  simp only [get_erase, get_insert]
  split <;> rfl

/-- Only files with some property are created, written or removed. -/
def ChangesOnly (P : String → Prop) (t t' : FileTree) : Prop := ∀ p, ¬ P p → t'[p]? = t[p]?

namespace ChangesOnly

variable {P Q : String → Prop}

theorem refl (P : String → Prop) (t : FileTree) : ChangesOnly P t t := fun _ _ => rfl

theorem trans (h : ChangesOnly P t t') (h' : ChangesOnly P t' t'') : ChangesOnly P t t'' :=
  fun p hp => (h' p hp).trans (h p hp)

theorem insert (hp : P p) (content : String) : ChangesOnly P t (t.insert p content) := by
  intro q hq
  rw [get_insert, if_neg]
  rintro rfl
  exact hq hp

theorem erase (hp : P p) : ChangesOnly P t (t.erase p) := by
  intro q hq
  rw [get_erase, if_neg]
  rintro rfl
  exact hq hp

end ChangesOnly

/-- A renaming of the paths that are read to paths that are not. -/
structure Cover where
  IsRead : String → Prop
  name : String → String
  not_read : ∀ p, IsRead p → ¬ IsRead (name p)
  inj : ∀ p q, IsRead p → IsRead q → name p = name q → p = q

namespace Cover

variable (cover : Cover)

/-- A file that cannot be renamed stays. -/
def hide (t : FileTree) (path : String) : FileTree :=
  (rename t path (cover.name path)).getD t

def restore (t : FileTree) (path : String) : FileTree :=
  (rename t (cover.name path) path).getD t

/-- The files of `ps` are hidden in `t'`, and nothing else differs from `t`. -/
structure Hidden (ps : List String) (t t' : FileTree) : Prop where
  gone : ∀ p ∈ ps, t'[p]? = none
  kept : ∀ p ∈ ps, t'[cover.name p]? = t[p]?
  others : ∀ q, q ∉ ps → (∀ p ∈ ps, cover.name p ≠ q) → t'[q]? = t[q]?

/-- Nothing differs from `t` but hidden files that are gone. -/
structure Restored (ps : List String) (t t' : FileTree) : Prop where
  hidden : ∀ p ∈ ps, t'[cover.name p]? = none ∨ t'[cover.name p]? = t[cover.name p]?
  others : ∀ q, (∀ p ∈ ps, cover.name p ≠ q) → t'[q]? = t[q]?

variable {cover} {ps qs : List String}

theorem hide_of_get (h : t[p]? = some content) :
    cover.hide t p = (t.erase p).insert (cover.name p) content := by
  simp [hide, rename, h]

theorem restore_of_get (h : t[cover.name p]? = some content) :
    cover.restore t p = (t.erase (cover.name p)).insert p content := by
  simp [restore, rename, h]

/-- The first of some files is none of the others, and its hidden name is new. -/
theorem names_ne (hnodup : (p :: ps).Nodup) (hread : ∀ q ∈ p :: ps, cover.IsRead q) :
    (∀ q ∈ ps, p ≠ q) ∧ (∀ q, cover.IsRead q → cover.name p ≠ q) ∧
      ∀ q ∈ ps, cover.name q ≠ cover.name p := by
  obtain ⟨hp, -⟩ := nodup_cons.mp hnodup
  obtain ⟨hreadp, hread⟩ := forall_mem_cons.mp hread
  refine ⟨fun q hq heq => hp (heq ▸ hq), fun q hq heq => cover.not_read p hreadp (heq ▸ hq), ?_⟩
  intro q hq heq
  exact hp (cover.inj q p (hread q hq) hreadp heq ▸ hq)

/-- What cover a list of files does. -/
theorem hidden_foldl_hide (hnodup : ps.Nodup) (hread : ∀ p ∈ ps, cover.IsRead p)
    (hmem : ∀ p ∈ ps, p ∈ t) : cover.Hidden ps t (ps.foldl cover.hide t) := by
  induction ps generalizing t with
  | nil => exact ⟨by simp, by simp, by simp⟩
  | cons p ps ih =>
    obtain ⟨hne, hname, hnames⟩ := names_ne hnodup hread
    obtain ⟨hp, hnodup⟩ := nodup_cons.mp hnodup
    obtain ⟨hreadp, hread⟩ := forall_mem_cons.mp hread
    obtain ⟨hmemp, hmem⟩ := forall_mem_cons.mp hmem
    obtain ⟨content, hcontent⟩ := mem_iff.mp hmemp
    -- the other files are still there after the first one is hidden
    have hget : ∀ q, cover.name p ≠ q → p ≠ q → (cover.hide t p)[q]? = t[q]? := by
      intro q hq hpq
      simp [hide_of_get hcontent, hq, hpq]
    have hrest : cover.Hidden ps (cover.hide t p) (ps.foldl cover.hide (cover.hide t p)) := by
      refine ih hnodup hread fun q hq => ?_
      obtain ⟨content', hcontent'⟩ := mem_iff.mp (hmem q hq)
      exact mem_iff.mpr ⟨content', by rw [hget q (hname q (hread q hq)) (hne q hq), hcontent']⟩
    rw [foldl_cons]
    refine ⟨?_, ?_, ?_⟩
    · refine forall_mem_cons.mpr ⟨?_, hrest.gone⟩
      rw [hrest.others p hp fun q hq heq => cover.not_read q (hread q hq) (heq ▸ hreadp)]
      simp [hide_of_get hcontent, hname p hreadp]
    · refine forall_mem_cons.mpr ⟨?_, fun q hq => ?_⟩
      · rw [hrest.others _ (fun hin => hname _ (hread _ hin) rfl) hnames,
          hide_of_get hcontent, get_insert, if_pos rfl, hcontent]
      · rw [hrest.kept q hq, hget q (hname q (hread q hq)) (hne q hq)]
    · intro q hq hnames'
      obtain ⟨hpq, hq⟩ := not_or.mp (mt mem_cons.mpr hq)
      obtain ⟨hnamep, hnames'⟩ := forall_mem_cons.mp hnames'
      rw [hrest.others q hq hnames', hget q hnamep (Ne.symm hpq)]

theorem Hidden.restored_foldl_restore (h : cover.Hidden ps t t') (hnodup : ps.Nodup)
    (hread : ∀ p ∈ ps, cover.IsRead p) (hmem : ∀ p ∈ ps, p ∈ t) :
    cover.Restored ps t (ps.foldl cover.restore t') := by
  induction ps generalizing t t' with
  | nil => exact ⟨by simp, fun q _ => h.others q (by simp) (by simp)⟩
  | cons p ps ih =>
    obtain ⟨hne, hname, hnames⟩ := names_ne hnodup hread
    obtain ⟨hp, hnodup⟩ := nodup_cons.mp hnodup
    obtain ⟨hreadp, hread⟩ := forall_mem_cons.mp hread
    obtain ⟨hmemp, hmem⟩ := forall_mem_cons.mp hmem
    obtain ⟨content, hcontent⟩ := mem_iff.mp hmemp
    have hhidden : t'[cover.name p]? = some content := by
      rw [h.kept p mem_cons_self, hcontent]
    -- the first file is back, and its hidden copy is gone
    have hfirst : cover.Hidden ps (t.erase (cover.name p)) (cover.restore t' p) := by
      rw [restore_of_get hhidden]
      refine ⟨fun q hq => ?_, fun q hq => ?_, fun q hq hnames' => ?_⟩
      · simp [hne q hq, h.gone q (mem_cons_of_mem p hq)]
      · have hqp : p ≠ cover.name q := fun heq => cover.not_read q (hread q hq) (heq ▸ hreadp)
        simp [hqp, (hnames q hq).symm, hname q (hread q hq), h.kept q (mem_cons_of_mem p hq)]
      by_cases hpq : p = q
      · subst hpq
        simp [hname p hreadp, hcontent]
      · by_cases hnamep : cover.name p = q
        · simp [hpq, hnamep]
        · simp only [get_insert, hpq, get_erase, hnamep, if_false]
          refine h.others q ?_ (forall_mem_cons.mpr ⟨hnamep, hnames'⟩)
          exact fun hin => (mem_cons.mp hin).elim (fun heq => hpq heq.symm) hq
    have hrest := ih hfirst hnodup hread fun q hq => by
      obtain ⟨content', hcontent'⟩ := mem_iff.mp (hmem q hq)
      exact mem_iff.mpr ⟨content', by simp [hname q (hread q hq), hcontent']⟩
    rw [foldl_cons]
    refine ⟨forall_mem_cons.mpr ⟨?_, fun q hq => ?_⟩, fun q hnames' => ?_⟩
    · refine .inl ?_
      rw [hrest.others _ hnames]
      simp
    · have hcopy := hrest.hidden q hq
      rwa [get_erase, if_neg (hnames q hq).symm] at hcopy
    · obtain ⟨hnamep, hnames'⟩ := forall_mem_cons.mp hnames'
      rw [hrest.others q hnames', get_erase, if_neg hnamep]

theorem Restored.refl (ps : List String) (t : FileTree) : cover.Restored ps t t :=
  ⟨fun _ _ => .inr rfl, fun _ _ => rfl⟩

variable (h : cover.Restored ps t t')
include h

theorem Restored.trans (h' : cover.Restored ps t' t'') : cover.Restored ps t t'' := by
  refine ⟨fun p hp => ?_, fun q hq => by rw [h'.others q hq, h.others q hq]⟩
  rcases h'.hidden p hp with hnone | heq
  · exact .inl hnone
  · rw [heq]
    exact h.hidden p hp

theorem Restored.mono (hsub : ∀ p ∈ ps, p ∈ qs) : cover.Restored qs t t' := by
  refine ⟨fun p _ => ?_, fun q hq => h.others q fun p hp => hq p (hsub p hp)⟩
  by_cases hin : ∃ p' ∈ ps, cover.name p' = cover.name p
  · obtain ⟨p', hp', heq⟩ := hin
    rw [← heq]
    exact h.hidden p' hp'
  · refine .inr (h.others _ fun p' hp' heq => hin ⟨p', hp', heq⟩)

theorem Restored.get_cases (q : String) : t'[q]? = none ∨ t'[q]? = t[q]? := by
  by_cases hin : ∃ p ∈ ps, cover.name p = q
  · obtain ⟨p, hp, rfl⟩ := hin
    exact h.hidden p hp
  · exact .inr (h.others q fun p hp heq => hin ⟨p, hp, heq⟩)

theorem Restored.get_of_read (hread : ∀ p ∈ ps, cover.IsRead p) (hq : cover.IsRead q) :
    t'[q]? = t[q]? :=
  h.others q fun p hp heq => cover.not_read p (hread p hp) (heq ▸ hq)

omit h

/-- Restoring other files keeps the hidden ones hidden. -/
theorem Hidden.of_restored (h : cover.Hidden ps t t') (h' : cover.Restored qs t' t'')
    (hps : ∀ p ∈ ps, cover.IsRead p) (hqs : ∀ q ∈ qs, cover.IsRead q)
    (hdisjoint : ∀ p ∈ ps, p ∉ qs) :
    ∃ base, cover.Restored qs t base ∧ cover.Hidden ps base t'' := by
  classical
  -- the base loses the hidden copies that are gone
  have hbase : ∃ base : FileTree, ∀ q, base[q]? =
      if (∃ p ∈ qs, cover.name p = q) ∧ t''[q]? = none then none else t[q]? := by
    refine ⟨t.filterMap fun q c =>
      if (∃ p ∈ qs, cover.name p = q) ∧ t''[q]? = none then none else some c, fun q => ?_⟩
    rw [get_filterMap]
    by_cases hgone : (∃ p ∈ qs, cover.name p = q) ∧ t''[q]? = none
    · simp only [if_pos hgone, Option.bind_fun_none]
    · simp only [if_neg hgone, Option.bind_fun_some]
  obtain ⟨base, hbase⟩ := hbase
  have hread : ∀ q, cover.IsRead q → ¬ ∃ p ∈ qs, cover.name p = q := by
    rintro q hq ⟨p, hp, rfl⟩
    exact cover.not_read p (hqs p hp) hq
  have hother : ∀ q, (¬ ∃ p ∈ qs, cover.name p = q) → base[q]? = t[q]? := by
    intro q hq
    rw [hbase, if_neg fun hgone => hq hgone.1]
  have hother' : ∀ q, (¬ ∃ p ∈ qs, cover.name p = q) → t''[q]? = t'[q]? :=
    fun q hq => h'.others q fun p hp heq => hq ⟨p, hp, heq⟩
  refine ⟨base, ⟨fun p hp => ?_, fun q hq => hother q fun ⟨p, hp, heq⟩ => hq p hp heq⟩, ?_⟩
  · rw [hbase]
    split
    · exact .inl rfl
    · exact .inr rfl
  refine ⟨fun p hp => ?_, fun p hp => ?_, fun q hq hnames => ?_⟩
  · rw [hother' p (hread p (hps p hp)), h.gone p hp]
  · have hname : ¬ ∃ p' ∈ qs, cover.name p' = cover.name p := by
      rintro ⟨p', hp', heq⟩
      obtain rfl := cover.inj p' p (hqs p' hp') (hps p hp) heq
      exact hdisjoint p' hp hp'
    rw [hother' _ hname, h.kept p hp, hother p (hread p (hps p hp))]
  by_cases hin : ∃ p ∈ qs, cover.name p = q
  · obtain ⟨p, hp, rfl⟩ := hin
    rw [hbase]
    split
    · rename_i hgone
      exact hgone.2
    · rename_i hgone
      rcases h'.hidden p hp with hnone | heq
      · exact absurd ⟨⟨p, hp, rfl⟩, hnone⟩ hgone
      · rw [heq]
        exact h.others _ hq hnames
  · rw [hother' q hin, hother q hin, h.others q hq hnames]

/-- Files that are hidden while others are hidden and restored are restored after them. -/
theorem Hidden.restored_after (h : cover.Hidden ps t t') (h' : cover.Restored qs t' t'')
    (hnodup : ps.Nodup) (hps : ∀ p ∈ ps, cover.IsRead p) (hqs : ∀ q ∈ qs, cover.IsRead q)
    (hdisjoint : ∀ p ∈ ps, p ∉ qs) (hmem : ∀ p ∈ ps, p ∈ t) {rs : List String}
    (hrs : ∀ p, p ∈ ps ∨ p ∈ qs → p ∈ rs) :
    cover.Restored rs t (ps.foldl cover.restore t'') := by
  obtain ⟨base, hbase, hhidden⟩ := h.of_restored h' hps hqs hdisjoint
  have hbasemem : ∀ p ∈ ps, p ∈ base := by
    intro p hp
    obtain ⟨content, hcontent⟩ := mem_iff.mp (hmem p hp)
    exact mem_iff.mpr ⟨content, (hbase.get_of_read hqs (hps p hp)).trans hcontent⟩
  have hrestored := hhidden.restored_foldl_restore hnodup hps hbasemem
  exact (hbase.mono fun q hq => hrs q (.inr hq)).trans
    (hrestored.mono fun p hp => hrs p (.inl hp))

end Cover

end FileTree
