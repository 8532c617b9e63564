import Mathlib.Data.List.Nodup
import IngressController.Library.GoMap
import IngressController.Library.Champion

/-! # Arbitration of places

Contenders enter one after another and claim places. A holder keeps a place only
against contenders it ranks strictly below; whoever does not get or keep a place
gets a note about it. At the end every place belongs to the champion of its
claimants and every contender has one note for each place it claimed and does
not hold.
-/

namespace Arbitration

open Champion List

/-- Places hold the names of contenders, because contenders change when they lose a place. -/
structure State (π α : Type) [Ord π] where
  holders : Table π String := ∅
  contenders : GoMap α := ∅

/-- How contenders are named, ranked and told. A contender that loses a place gets a note about
it; `core` is what notes leave unchanged. -/
structure Contest (π α β γ ν : Type) where
  name : α → String
  rank : α → β
  core : α → γ
  note : π → ν
  notes : α → List ν
  lose : π → α → α
  name_core : ∀ {a b}, core a = core b → name a = name b
  rank_core : ∀ {a b}, core a = core b → rank a = rank b
  core_lose : ∀ p a, core (lose p a) = core a
  notes_lose : ∀ p a, notes (lose p a) = notes a ++ [note p]

variable {π α β γ ν : Type} [Ord π] [Std.TransOrd π] [DecidableEq π] [LinearOrder β]
  (C : Contest π α β γ ν)

def claim (x : α) (s : State π α) (p : π) : State π α :=
  match s.holders[p]? with
  | none => { s with holders := s.holders.insert p (C.name x) }
  | some holder =>
    let holderWins := match s.contenders[holder]? with
      | some y => decide (C.rank y < C.rank x)
      | none => false
    if holderWins then { s with contenders := s.contenders.modify (C.name x) (C.lose p) }
    else
      { holders := s.holders.insert p (C.name x)
        contenders := s.contenders.modify holder (C.lose p) }

def enter (s : State π α) (entry : α × List π) : State π α :=
  entry.2.foldl (claim C entry.1)
    { s with contenders := s.contenders.insert (C.name entry.1) entry.1 }

def run (entries : List (α × List π)) : State π α := entries.foldl (enter C) {}

def claimants (p : π) (entries : List (α × List π)) : List α :=
  (entries.filter fun e => p ∈ e.2).map Prod.fst

omit [Ord π] [Std.TransOrd π] in
theorem claimants_concat (p : π) (entries : List (α × List π)) (x : α) (places : List π) :
    claimants p (entries ++ [(x, places)]) =
      claimants p entries ++ if p ∈ places then [x] else [] := by
  by_cases h : p ∈ places <;> simp [claimants, filter_append, h]

/-- The places of a contender that it does not hold. -/
def lost (holders : Table π String) (name : String) (places : List π) : List π :=
  places.filter fun p => holders[p]? ≠ some name

/-- What is true after the entries. -/
structure Settled (entries : List (α × List π)) (s : State π α) : Prop where
  holder : ∀ p, s.holders[p]? = (champion C.rank (claimants p entries)).map C.name
  contender : ∀ e ∈ entries, ∃ y, s.contenders[C.name e.1]? = some y ∧ C.core y = C.core e.1 ∧
    (C.notes y).Perm (C.notes e.1 ++ (lost s.holders (C.name e.1) e.2).map C.note)
  known : ∀ (k : String) y, s.contenders[k]? = some y → ∃ e ∈ entries, C.name e.1 = k

variable {C}

theorem Settled.empty : Settled C [] ({} : State π α) where
  holder p := by simp [claimants]
  contender e he := by simp at he
  known k y hy := by simp at hy

omit [Ord π] [Std.TransOrd π] in
theorem claimants_map {δ : Type} (f : α → δ) (p : π) (entries : List (α × List π)) :
    claimants p (entries.map fun e => (f e.1, e.2)) = (claimants p entries).map f := by
  simp only [claimants, filter_map, map_map, Function.comp_def]

/-- A contender is an entry up to its notes. -/
theorem Settled.entry_of_contender {entries : List (α × List π)} {s : State π α}
    (h : Settled C entries s) {k : String} {y : α} (hy : s.contenders[k]? = some y) :
    C.name y = k ∧ ∃ e ∈ entries, C.core y = C.core e.1 ∧
      (C.notes y).Perm (C.notes e.1 ++ (lost s.holders k e.2).map C.note) := by
  obtain ⟨e, he, rfl⟩ := h.known k y hy
  obtain ⟨z, hz, hcore, hnotes⟩ := h.contender e he
  obtain rfl : y = z := Option.some.inj (hy.symm.trans hz)
  exact ⟨C.name_core hcore, e, he, hcore, hnotes⟩

/-- What two states know about a contender agrees as far as their entries do. -/
theorem Settled.contenders_eq {entries entries' : List (α × List π)} {s s' : State π α}
    {δ : Type} {f : α → δ} (hcore : ∀ a b, C.core a = C.core b → f a = f b)
    (hname : ∀ a b, f a = f b → C.name a = C.name b) (h : Settled C entries s)
    (h' : Settled C entries' s')
    (hentries : entries.map (fun e => f e.1) ⊆ entries'.map fun e => f e.1) {k : String} {y : α}
    (hy : s.contenders[k]? = some y) : ∃ y', s'.contenders[k]? = some y' ∧ f y' = f y := by
  obtain ⟨rfl, e, he, hzcore, -⟩ := h.entry_of_contender hy
  obtain ⟨e', he', heq⟩ := mem_map.mp (hentries (mem_map_of_mem he))
  obtain ⟨y', hy', hycore, -⟩ := h'.contender e' he'
  exact ⟨y', by rw [C.name_core hzcore, ← hname _ _ heq, hy'],
    by rw [hcore _ _ hycore, heq, hcore _ _ hzcore]⟩

variable {entries : List (α × List π)} {s : State π α} {x : α} {places : List π} {q : π}

/-- The holder of a place claims it and has the least rank of those who do. -/
theorem Settled.entry_of_holder (h : Settled C entries s) {k : String}
    (hk : s.holders[q]? = some k) :
    ∃ e ∈ entries, q ∈ e.2 ∧ (∀ w ∈ claimants q entries, C.rank e.1 ≤ C.rank w) ∧
      ∃ y, s.contenders[k]? = some y ∧ C.core y = C.core e.1 ∧ C.name y = k := by
  obtain ⟨w, hw, rfl⟩ := Option.map_eq_some_iff.mp ((h.holder q).symm.trans hk)
  obtain ⟨hin, hleast⟩ := champion_spec _ hw
  obtain ⟨e, he, rfl⟩ := mem_map.mp hin
  obtain ⟨he, hq⟩ := mem_filter.mp he
  obtain ⟨y, hy, hcore, -⟩ := h.contender e he
  exact ⟨e, he, by simpa using hq, hleast, y, hy, hcore, C.name_core hcore⟩

/-- The champion of a place is its holder, as far as notes leave it unchanged. -/
theorem Settled.champion_iff {δ : Type} {f : α → δ} (hcore : ∀ a b, C.core a = C.core b → f a = f b)
    (h : Settled C entries s) {d : δ} :
    (∃ w, champion C.rank (claimants q entries) = some w ∧ f w = d) ↔
      ∃ k y, s.holders[q]? = some k ∧ s.contenders[k]? = some y ∧ f y = d := by
  have hcontender : ∀ w, champion C.rank (claimants q entries) = some w →
      ∃ y, s.contenders[C.name w]? = some y ∧ f y = f w := by
    intro w hw
    obtain ⟨e, he, rfl⟩ := mem_map.mp (champion_spec _ hw).1
    obtain ⟨y, hy, hsame, -⟩ := h.contender e (mem_filter.mp he).1
    exact ⟨y, hy, hcore _ _ hsame⟩
  simp only [h.holder, Option.map_eq_some_iff]
  constructor
  · rintro ⟨w, hw, rfl⟩
    obtain ⟨y, hy, hsame⟩ := hcontender w hw
    exact ⟨_, y, ⟨w, hw, rfl⟩, hy, hsame⟩
  · rintro ⟨_, y, ⟨w, hw, rfl⟩, hy, rfl⟩
    obtain ⟨y', hy', hsame⟩ := hcontender w hw
    rw [hy, Option.some.injEq] at hy'
    exact ⟨w, hw, hy' ▸ hsame.symm⟩

theorem Settled.entering (h : Settled C entries s)
    (hname : C.name x ∉ entries.map fun e => C.name e.1) :
    Settled C (entries ++ [(x, [])])
      { s with contenders := s.contenders.insert (C.name x) x } where
  holder p := by
    rw [claimants_concat]
    simpa using h.holder p
  contender e he := by
    rcases mem_append.mp he with he | he
    · have hne : C.name x ≠ C.name e.1 := fun heq =>
        hname (heq ▸ mem_map_of_mem he)
      obtain ⟨y, hy, hrest⟩ := h.contender e he
      exact ⟨y, by rw [Table.get_insert, if_neg hne, hy], hrest⟩
    · rw [mem_singleton.mp he]
      exact ⟨x, by simp, rfl, by simp [lost]⟩
  known k y hy := by
    rw [Table.get_insert] at hy
    by_cases hk : C.name x = k
    · exact ⟨(x, []), by simp, hk⟩
    · rw [if_neg hk] at hy
      obtain ⟨e, he, hname⟩ := h.known k y hy
      exact ⟨e, mem_append_left _ he, hname⟩

variable {holders : Table π String} {places : List π}

omit [DecidableEq π] in
theorem mem_lost {name : String} {p : π} :
    p ∈ lost holders name places ↔ p ∈ places ∧ holders[p]? ≠ some name := by
  simp [lost]

omit [DecidableEq π] in
theorem lost_congr {holders' : Table π String} {name : String}
    (h : ∀ p ∈ places, holders[p]? = some name ↔ holders'[p]? = some name) :
    lost holders name places = lost holders' name places :=
  filter_congr fun p hp => by simp [h p hp]

omit [DecidableEq π] in
theorem lost_concat (holders : Table π String) (name : String) (places : List π) (q : π) :
    lost holders name (places ++ [q]) =
      lost holders name places ++ if holders[q]? = some name then [] else [q] := by
  by_cases h : holders[q]? = some name <;> simp [lost, filter_append, h]

theorem lost_displaced [Std.LawfulEqOrd π] {name other : String}
    {q : π} (hnodup : places.Nodup) (hq : q ∈ places)
    (hheld : holders[q]? = some name) (hne : other ≠ name) :
    (lost (holders.insert q other) name places).Perm (lost holders name places ++ [q]) := by
  have hq' : q ∉ lost holders name places := by simp [lost, hheld]
  refine (perm_ext_iff_of_nodup (hnodup.filter _) ?_).mpr fun p => ?_
  · exact nodup_append.mpr ⟨hnodup.filter _, nodup_singleton q, fun a ha b hb hab =>
      hq' (mem_singleton.mp hb ▸ hab ▸ ha)⟩
  · simp only [lost, mem_append, mem_filter, mem_singleton, Table.get_insert]
    by_cases hp : q = p
    · subst hp
      simp [hq, hne]
    · simp [hp, Ne.symm hp]

theorem exists_of_get_modify {m : GoMap α} {k k' : String} {f : α → α} {y : α}
    (h : (m.modify k f)[k']? = some y) : ∃ y', m[k']? = some y' := by
  rw [Table.get_modify] at h
  split at h
  · obtain ⟨y', hy', -⟩ := Option.map_eq_some_iff.mp h
    exact ⟨y', hy'⟩
  · exact ⟨y, h⟩

section Claim

variable [Std.LawfulEqOrd π] (h : Settled C (entries ++ [(x, places)]) s) (hq : q ∉ places)
  (hname : C.name x ∉ entries.map fun e => C.name e.1)

include h hq

omit [Std.LawfulEqOrd π] in
theorem Settled.holder_before :
    s.holders[q]? = (champion C.rank (claimants q entries)).map C.name := by
  rw [h.holder q, claimants_concat, if_neg hq, append_nil]

omit [Std.LawfulEqOrd π] in
/-- The champion of a place after one more claimant, read off the table of holders. -/
theorem Settled.holder_after (winner : α) {holders : Table π String}
    (hwinner : champion C.rank (claimants q entries ++ [x]) = some winner)
    (hat : holders[q]? = some (C.name winner))
    (hother : ∀ p, p ≠ q → holders[p]? = s.holders[p]?) (p : π) :
    holders[p]? = (champion C.rank
      (claimants p (entries ++ [(x, places ++ [q])]))).map C.name := by
  by_cases hp : p = q
  · subst hp
    rw [claimants_concat, if_pos (by simp), hwinner, hat]
    rfl
  · rw [hother p hp, h.holder p, claimants_concat, claimants_concat]
    simp [hp]

omit [Std.LawfulEqOrd π] hq in
/-- Claiming and losing a place adds no contender. -/
theorem Settled.known_after {contenders : GoMap α}
    (hsame : ∀ (k : String) y, contenders[k]? = some y → ∃ y', s.contenders[k]? = some y')
    (k : String) (y : α) (hy : contenders[k]? = some y) :
    ∃ e ∈ entries ++ [(x, places ++ [q])], C.name e.1 = k := by
  obtain ⟨y', hy'⟩ := hsame k y hy
  obtain ⟨e, he, hname⟩ := h.known k y' hy'
  rcases mem_append.mp he with he | he
  · exact ⟨e, mem_append_left _ he, hname⟩
  · exact ⟨(x, places ++ [q]), by simp, by rw [← hname, mem_singleton.mp he]⟩

omit h hq in
theorem holders_insert_other {holders : Table π String} {name other : String} {places : List π}
    (hq : q ∉ places) : ∀ p ∈ places,
      holders[p]? = some name ↔ (holders.insert q other)[p]? = some name := by
  intro p hp
  have hne : q ≠ p := fun heq => hq (heq ▸ hp)
  rw [Table.get_insert, if_neg hne]

theorem Settled.claim_free (hfree : s.holders[q]? = none) :
    Settled C (entries ++ [(x, places ++ [q])])
      { s with holders := s.holders.insert q (C.name x) } := by
  have hnone : claimants q entries = [] := by
    have := h.holder_before hq
    rw [hfree, eq_comm, Option.map_eq_none_iff] at this
    exact (champion_eq_none _).mp this
  refine ⟨h.holder_after hq x (by simp [hnone, champion, challenge])
    (by simp) (fun p hp => by simp [Ne.symm hp]), fun e he => ?_,
    h.known_after fun k y hy => ⟨y, hy⟩⟩
  rcases mem_append.mp he with he | he
  · obtain ⟨y, hy, hcore, hnotes⟩ := h.contender e (mem_append_left _ he)
    have hunclaimed : q ∉ e.2 := by
      intro hin
      have : e.1 ∈ claimants q entries :=
        mem_map_of_mem (mem_filter.mpr ⟨he, by simpa using hin⟩)
      simp [hnone] at this
    rw [lost_congr (holders_insert_other hunclaimed)] at hnotes
    exact ⟨y, hy, hcore, hnotes⟩
  · rw [mem_singleton.mp he]
    obtain ⟨y, hy, hcore, hnotes⟩ := h.contender (x, places) (by simp)
    rw [lost_congr (holders_insert_other hq)] at hnotes
    refine ⟨y, hy, hcore, ?_⟩
    rw [lost_concat, if_pos (by simp), append_nil]
    exact hnotes

include hname

omit [Std.LawfulEqOrd π] in
theorem Settled.claim_lost {winner : α}
    (hwinner : champion C.rank (claimants q entries) = some winner)
    (hwins : C.rank winner < C.rank x) :
    Settled C (entries ++ [(x, places ++ [q])])
      { s with contenders := s.contenders.modify (C.name x) (C.lose q) } := by
  have hat : s.holders[q]? = some (C.name winner) := by
    rw [h.holder_before hq, hwinner]
    rfl
  have hnew : C.name winner ≠ C.name x := by
    intro heq
    obtain ⟨hin, -⟩ := champion_spec _ hwinner
    obtain ⟨e, he, hex⟩ := mem_map.mp hin
    exact hname (heq ▸ hex ▸ mem_map_of_mem (mem_filter.mp he).1)
  refine ⟨h.holder_after hq winner ?_ hat fun p _ => rfl, fun e he => ?_,
    h.known_after fun k y hy => exists_of_get_modify hy⟩
  · rw [champion_concat, hwinner]
    simp [challenge, hwins]
  rcases mem_append.mp he with he | he
  · have hne : C.name x ≠ C.name e.1 := fun heq => hname (heq ▸ mem_map_of_mem he)
    obtain ⟨y, hy, hrest⟩ := h.contender e (mem_append_left _ he)
    exact ⟨y, by rw [Table.get_modify, if_neg hne, hy], hrest⟩
  rw [mem_singleton.mp he]
  obtain ⟨y, hy, hcore, hnotes⟩ := h.contender (x, places) (by simp)
  refine ⟨C.lose q y, by simp [hy], by rw [C.core_lose, hcore], ?_⟩
  rw [C.notes_lose, lost_concat, if_neg (by simp [hat, hnew]), map_append, ← append_assoc]
  exact hnotes.append (List.Perm.refl _)

theorem Settled.claim_won {loser : α} (hnodup : (entries.map fun e => C.name e.1).Nodup)
    (hplaces : ∀ e ∈ entries, e.2.Nodup)
    (hloser : champion C.rank (claimants q entries) = some loser)
    (hwins : ¬ C.rank loser < C.rank x) :
    Settled C (entries ++ [(x, places ++ [q])])
      { holders := s.holders.insert q (C.name x)
        contenders := s.contenders.modify (C.name loser) (C.lose q) } := by
  have hat : s.holders[q]? = some (C.name loser) := by
    rw [h.holder_before hq, hloser]
    rfl
  obtain ⟨hin, -⟩ := champion_spec _ hloser
  obtain ⟨e₀, he₀, rfl⟩ := mem_map.mp hin
  obtain ⟨he₀, hq₀⟩ := mem_filter.mp he₀
  have hnew : C.name e₀.1 ≠ C.name x := fun heq => hname (heq ▸ mem_map_of_mem he₀)
  refine ⟨h.holder_after hq x ?_ (by simp) (fun p hp => by simp [Ne.symm hp]),
    fun e he => ?_, h.known_after fun k y hy => exists_of_get_modify hy⟩
  · rw [champion_concat, hloser]
    simp [challenge, hwins]
  rcases mem_append.mp he with he | he
  · have hne : C.name x ≠ C.name e.1 := fun heq => hname (heq ▸ mem_map_of_mem he)
    obtain ⟨y, hy, hcore, hnotes⟩ := h.contender e (mem_append_left _ he)
    by_cases hsame : C.name e₀.1 = C.name e.1
    · have heq : e₀ = e := inj_on_of_nodup_map hnodup he₀ he hsame
      subst heq
      refine ⟨C.lose q y, by simp [hy], by rw [C.core_lose, hcore], ?_⟩
      have hdisplaced := (lost_displaced (hplaces e₀ he) (by simpa using hq₀) hat hne).map C.note
      rw [map_append] at hdisplaced
      rw [C.notes_lose]
      refine (hnotes.append (List.Perm.refl _)).trans ?_
      rw [append_assoc]
      exact hdisplaced.symm.append_left _
    · have hunheld : ∀ p ∈ e.2, s.holders[p]? = some (C.name e.1) ↔
          (s.holders.insert q (C.name x))[p]? = some (C.name e.1) := by
        intro p _
        rw [Table.get_insert]
        by_cases hp : q = p
        · subst hp
          simp [hat, hsame, hne]
        · simp [hp]
      rw [lost_congr hunheld] at hnotes
      exact ⟨y, by simp [hsame, hy], hcore, hnotes⟩
  · rw [mem_singleton.mp he]
    obtain ⟨y, hy, hcore, hnotes⟩ := h.contender (x, places) (by simp)
    rw [lost_congr (holders_insert_other hq)] at hnotes
    refine ⟨y, by simp [hnew, hy], hcore, ?_⟩
    rw [lost_concat, if_pos (by simp), append_nil]
    exact hnotes

theorem Settled.claim (hnodup : (entries.map fun e => C.name e.1).Nodup)
    (hplaces : ∀ e ∈ entries, e.2.Nodup) :
    Settled C (entries ++ [(x, places ++ [q])]) (claim C x s q) := by
  unfold Arbitration.claim
  cases hc : champion C.rank (claimants q entries) with
  | none =>
    have hfree : s.holders[q]? = none := by
      rw [h.holder_before hq, hc]
      rfl
    rw [hfree]
    exact h.claim_free hq hfree
  | some holder =>
    have hat : s.holders[q]? = some (C.name holder) := by
      rw [h.holder_before hq, hc]
      rfl
    obtain ⟨hin, -⟩ := champion_spec _ hc
    obtain ⟨e, he, rfl⟩ := mem_map.mp hin
    obtain ⟨y, hy, hcore, -⟩ :=
      h.contender e (mem_append_left _ (mem_filter.mp he).1)
    have hrank : C.rank y = C.rank e.1 := C.rank_core hcore
    simp only [hat, hy, hrank, decide_eq_true_eq]
    by_cases hwins : C.rank e.1 < C.rank x
    · rw [if_pos hwins]
      exact h.claim_lost hq hname hc hwins
    · rw [if_neg hwins]
      exact h.claim_won hq hname hnodup hplaces hc hwins

end Claim

variable [Std.LawfulEqOrd π]

theorem Settled.enter (h : Settled C entries s)
    (hname : C.name x ∉ entries.map fun e => C.name e.1)
    (hnodup : (entries.map fun e => C.name e.1).Nodup) (hentries : ∀ e ∈ entries, e.2.Nodup)
    (hplaces : places.Nodup) :
    Settled C (entries ++ [(x, places)]) (enter C s (x, places)) := by
  unfold Arbitration.enter
  induction places using reverseRecOn with
  | nil => exact h.entering hname
  | append_singleton places q ih =>
    rw [nodup_append] at hplaces
    have hq : q ∉ places := fun hin => hplaces.2.2 q hin q (by simp) rfl
    rw [foldl_append]
    exact (ih hplaces.1).claim hq hname hnodup hentries

/-- A run over contenders with distinct names settles every place. -/
theorem settled_run (hnodup : (entries.map fun e => C.name e.1).Nodup)
    (hplaces : ∀ e ∈ entries, e.2.Nodup) : Settled C entries (run C entries) := by
  unfold Arbitration.run
  induction entries using reverseRecOn with
  | nil => exact Settled.empty
  | append_singleton entries e ih =>
    rw [map_append, nodup_append] at hnodup
    have hname : C.name e.1 ∉ entries.map fun e => C.name e.1 := fun hin =>
      hnodup.2.2 _ hin _ (by simp) rfl
    rw [foldl_append]
    have hentries : ∀ e' ∈ entries, e'.2.Nodup := fun e' he' =>
      hplaces e' (mem_append_left _ he')
    exact (ih hnodup.1 hentries).enter hname hnodup.1 hentries (hplaces e (by simp))

end Arbitration
