import Mathlib

/-!
# Groups that grow one element at a time

The elements are `0, 1, …` in the order in which they arrive. An element opens a group of its own or
joins one that is there. A group is named by its opener, and one of its members represents it; an
element that joins may take over as the representative. That every group has an opener and a
representative among its members is part of the structure, so that the ways to add an element are
the only things to check.
-/

namespace FaultMesh

open Function

/-- The elements below `size` in groups; `opener i` opened the group of `i`, and `rep o` represents
the group that `o` opened. -/
structure Groups where
  size : Nat
  opener : Nat → Nat
  rep : Nat → Nat
  opener_le : ∀ i < size, opener i ≤ i
  opener_opener : ∀ i < size, opener (opener i) = opener i
  rep_lt : ∀ o < size, opener o = o → rep o < size
  opener_rep : ∀ o < size, opener o = o → opener (rep o) = o

namespace Groups

def empty : Groups where
  size := 0
  opener := id
  rep := id
  opener_le := nofun
  opener_opener := nofun
  rep_lt := nofun
  opener_rep := nofun

def IsOpener (g : Groups) (o : Nat) : Prop := o < g.size ∧ g.opener o = o

instance (g : Groups) (o : Nat) : Decidable (g.IsOpener o) := inferInstanceAs (Decidable (_ ∧ _))

def openNew (g : Groups) : Groups where
  size := g.size + 1
  opener := update g.opener g.size g.size
  rep := update g.rep g.size g.size
  opener_le i hi := by
    rcases Nat.lt_succ_iff_lt_or_eq.1 hi with h | rfl
    · rw [update_of_ne h.ne]
      exact g.opener_le i h
    · simp
  opener_opener i hi := by
    rcases Nat.lt_succ_iff_lt_or_eq.1 hi with h | rfl
    · have hle := g.opener_le i h
      rw [update_of_ne h.ne, update_of_ne (by omega)]
      exact g.opener_opener i h
    · simp
  rep_lt o ho hopen := by
    rcases Nat.lt_succ_iff_lt_or_eq.1 ho with h | rfl
    · rw [update_of_ne h.ne] at hopen ⊢
      exact (g.rep_lt o h hopen).trans (Nat.lt_succ_self _)
    · simp
  opener_rep o ho hopen := by
    rcases Nat.lt_succ_iff_lt_or_eq.1 ho with h | rfl
    · rw [update_of_ne h.ne] at hopen ⊢
      rw [update_of_ne (g.rep_lt o h hopen).ne]
      exact g.opener_rep o h hopen
    · simp

/-- The next element joins the group of `o` and may take over as its representative. -/
def join (g : Groups) (o : Nat) (ho : g.IsOpener o) (takesOver : Bool) : Groups where
  size := g.size + 1
  opener := update g.opener g.size o
  rep := if takesOver then update g.rep o g.size else g.rep
  opener_le i hi := by
    rcases Nat.lt_succ_iff_lt_or_eq.1 hi with h | rfl
    · rw [update_of_ne h.ne]
      exact g.opener_le i h
    · simpa using ho.1.le
  opener_opener i hi := by
    rcases Nat.lt_succ_iff_lt_or_eq.1 hi with h | rfl
    · have hle := g.opener_le i h
      rw [update_of_ne h.ne, update_of_ne (by omega)]
      exact g.opener_opener i h
    · simp [update_of_ne ho.1.ne, ho.2]
  rep_lt i hi hopen := by
    rcases Nat.lt_succ_iff_lt_or_eq.1 hi with h | rfl
    · rw [update_of_ne h.ne] at hopen
      have hrep := (g.rep_lt i h hopen).trans (Nat.lt_succ_self _)
      split
      · by_cases hio : i = o
        · simp [hio]
        · rwa [update_of_ne hio]
      · exact hrep
    · rw [update_self] at hopen
      exact absurd hopen ho.1.ne
  opener_rep i hi hopen := by
    rcases Nat.lt_succ_iff_lt_or_eq.1 hi with h | rfl
    · rw [update_of_ne h.ne] at hopen
      have hrep : update g.opener g.size o (g.rep i) = i := by
        rw [update_of_ne (g.rep_lt i h hopen).ne]
        exact g.opener_rep i h hopen
      split
      · by_cases hio : i = o
        · simp [hio]
        · rwa [update_of_ne hio]
      · exact hrep
    · rw [update_self] at hopen
      exact absurd hopen ho.1.ne

variable (g : Groups)

theorem isOpener_opener {i : Nat} (hi : i < g.size) : g.IsOpener (g.opener i) :=
  ⟨(g.opener_le i hi).trans_lt hi, g.opener_opener i hi⟩

/-! ## Members -/

def members (o : Nat) : Finset Nat := (Finset.range g.size).filter fun i => g.opener i = o

def openers : Finset Nat := (Finset.range g.size).filter fun i => g.opener i = i

def reps : Finset Nat := (Finset.range g.size).filter fun i => g.rep (g.opener i) = i

variable {g}

@[simp] theorem mem_members {o i : Nat} : i ∈ g.members o ↔ i < g.size ∧ g.opener i = o := by
  simp [members]

@[simp] theorem mem_openers {o : Nat} : o ∈ g.openers ↔ g.IsOpener o := by
  simp [openers, IsOpener]

@[simp] theorem mem_reps {i : Nat} : i ∈ g.reps ↔ i < g.size ∧ g.rep (g.opener i) = i := by
  simp [reps]

theorem IsOpener.rep_mem {o : Nat} (h : g.IsOpener o) : g.rep o ∈ g.members o :=
  mem_members.2 ⟨g.rep_lt o h.1 h.2, g.opener_rep o h.1 h.2⟩

theorem IsOpener.rep_mem_reps {o : Nat} (h : g.IsOpener o) : g.rep o ∈ g.reps := by
  obtain ⟨hlt, hopener⟩ := mem_members.1 h.rep_mem
  exact mem_reps.2 ⟨hlt, by rw [hopener]⟩

/-- **A sum over the representatives** is a sum over the groups. -/
theorem sum_reps (f : Nat → Nat) : ∑ i ∈ g.reps, f i = ∑ o ∈ g.openers, f (g.rep o) := by
  symm
  apply Finset.sum_nbij' g.rep g.opener
  · intro o ho
    exact (mem_openers.1 ho).rep_mem_reps
  · intro i hi
    exact mem_openers.2 (g.isOpener_opener (mem_reps.1 hi).1)
  · intro o ho
    exact (mem_members.1 (mem_openers.1 ho).rep_mem).2
  · intro i hi
    exact (mem_reps.1 hi).2
  · intro o _
    rfl

theorem card_reps : g.reps.card = g.openers.card := by
  simpa using g.sum_reps fun _ => 1

theorem sum_card_members : ∑ o ∈ g.openers, (g.members o).card = g.size := by
  have hfiber := Finset.card_eq_sum_card_fiberwise (s := Finset.range g.size) (t := g.openers)
    (f := g.opener) fun i hi => mem_openers.2 (g.isOpener_opener (Finset.mem_range.1 hi))
  rw [Finset.card_range] at hfiber
  exact hfiber.symm

/-- **Shares of the groups**: if none is larger than its group, they add up to the number of elements
iff each is as large. -/
theorem sum_eq_size_iff {f : Nat → Nat} (hle : ∀ o ∈ g.openers, f o ≤ (g.members o).card) :
    ∑ o ∈ g.openers, f o = g.size ↔ ∀ o ∈ g.openers, f o = (g.members o).card := by
  rw [← g.sum_card_members]
  exact Finset.sum_eq_sum_iff_of_le hle

/-! ## Adding an element -/

section Add

variable {o i : Nat} {ho : g.IsOpener o} {takesOver : Bool}

theorem openNew_opener_of_lt (hi : i < g.size) : g.openNew.opener i = g.opener i :=
  update_of_ne hi.ne _ _

theorem join_opener_of_lt (hi : i < g.size) : (g.join o ho takesOver).opener i = g.opener i :=
  update_of_ne hi.ne _ _

@[simp] theorem openNew_opener_size : g.openNew.opener g.size = g.size := update_self ..

@[simp] theorem join_opener_size : (g.join o ho takesOver).opener g.size = o :=
  update_self ..

theorem openNew_rep_of_lt (hi : i < g.size) : g.openNew.rep i = g.rep i :=
  update_of_ne hi.ne _ _

@[simp] theorem openNew_rep_size : g.openNew.rep g.size = g.size := update_self ..

theorem join_rep : (g.join o ho takesOver).rep i =
    if takesOver = true ∧ i = o then g.size else g.rep i := by
  cases takesOver with
  | false => simp [join]
  | true => simp [join, update_apply]

/-- The arguments below `n + 1` with the value `i`, for a function that is changed at `n`. -/
theorem filter_update (f : Nat → Nat) (n x i : Nat) :
    ((Finset.range (n + 1)).filter fun k => update f n x k = i) =
      if x = i then insert n ((Finset.range n).filter fun k => f k = i)
      else (Finset.range n).filter fun k => f k = i := by
  have hbelow : ((Finset.range n).filter fun k => update f n x k = i) =
      (Finset.range n).filter fun k => f k = i := by
    apply Finset.filter_congr
    intro k hk
    rw [update_of_ne (Finset.mem_range.1 hk).ne]
  rw [Finset.range_add_one, Finset.filter_insert, update_self, hbelow]

theorem members_openNew_of_lt (hi : i < g.size) : g.openNew.members i = g.members i :=
  (filter_update ..).trans (if_neg hi.ne')

theorem members_openNew_size : g.openNew.members g.size = {g.size} := by
  refine (filter_update ..).trans ?_
  rw [if_pos rfl, Finset.filter_eq_empty_iff.2, insert_empty_eq]
  intro k hk
  have hlt := Finset.mem_range.1 hk
  exact ((g.opener_le k hlt).trans_lt hlt).ne

theorem members_join_self : (g.join o ho takesOver).members o = insert g.size (g.members o) :=
  (filter_update ..).trans (if_pos rfl)

theorem members_join_of_ne (hne : i ≠ o) : (g.join o ho takesOver).members i = g.members i :=
  (filter_update ..).trans (if_neg hne.symm)

theorem isOpener_openNew_iff : g.openNew.IsOpener i ↔ g.IsOpener i ∨ i = g.size := by
  show i < g.size + 1 ∧ _ ↔ _
  rcases Nat.lt_trichotomy i g.size with hi | rfl | hi
  · simp [openNew_opener_of_lt hi, IsOpener, hi, hi.ne, Nat.lt_succ_of_lt hi]
  · simp
  · simp [IsOpener, Nat.not_lt.2 hi.le, Nat.not_lt.2 (Nat.succ_le_of_lt hi), hi.ne']

theorem isOpener_join_iff : (g.join o ho takesOver).IsOpener i ↔ g.IsOpener i := by
  show i < g.size + 1 ∧ _ ↔ _
  rcases Nat.lt_trichotomy i g.size with hi | rfl | hi
  · simp [join_opener_of_lt hi, IsOpener, hi, Nat.lt_succ_of_lt hi]
  · simp [IsOpener, ho.1.ne]
  · simp [IsOpener, Nat.not_lt.2 hi.le, Nat.not_lt.2 (Nat.succ_le_of_lt hi)]

end Add

end Groups

end FaultMesh
