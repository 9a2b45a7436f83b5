import Mathlib

/-!
# Counting the members that satisfy a predicate

The members of a family are numbered; the census of a predicate is how many of the first `n`
satisfy it. Steps of one member and of several members change it by a known amount.
-/

namespace FaultMesh

open Function

variable {α β : Type*} {n : Nat} {f : Nat → α} {g : Nat → β} {P : α → Bool} {Q : β → Bool}

/-- How many of the first `n` members satisfy the predicate. -/
def census (n : Nat) (f : Nat → α) (P : α → Bool) : Nat :=
  ((Finset.range n).filter fun w => P (f w)).card

theorem census_mono (h : ∀ w < n, P (f w) → Q (g w)) : census n f P ≤ census n g Q := by
  apply Finset.card_le_card
  intro w hw
  rw [Finset.mem_filter, Finset.mem_range] at hw ⊢
  exact ⟨hw.1, h w hw.1 hw.2⟩

theorem census_eq_card (h : ∀ w < n, P (f w)) : census n f P = n := by
  have hall : (Finset.range n).filter (fun w => P (f w)) = Finset.range n :=
    Finset.filter_true_of_mem fun w hw => h w (Finset.mem_range.1 hw)
  rw [census, hall, Finset.card_range]

/-- At most the given member stops being counted. -/
theorem census_le_succ (w₀ : Nat) (h : ∀ w < n, w ≠ w₀ → P (f w) → Q (g w)) :
    census n f P ≤ census n g Q + 1 := by
  refine le_trans (Finset.card_le_card ?_) (Finset.card_insert_le w₀ _)
  intro w hw
  rw [Finset.mem_filter, Finset.mem_range] at hw
  rw [Finset.mem_insert, Finset.mem_filter, Finset.mem_range]
  by_cases hne : w = w₀
  · exact .inl hne
  · exact .inr ⟨hw.1, h w hw.1 hne hw.2⟩

theorem census_update_mono {w : Nat} {a : α} (h : P (f w) → P a) :
    census n f P ≤ census n (update f w a) P := by
  apply census_mono
  intro w' _ hP
  by_cases hw : w' = w
  · subst hw
    rw [update_self]
    exact h hP
  · rw [update_of_ne hw]
    exact hP

theorem census_update_le_succ (w : Nat) (a : α) : census n f P ≤ census n (update f w a) P + 1 := by
  apply census_le_succ w
  intro w' _ hne hP
  rw [update_of_ne hne]
  exact hP

/-- Nobody stops being counted, and the members of a list are counted from now on. -/
theorem census_add_length_le {l : List Nat} (hkeep : ∀ w < n, P (f w) → Q (g w))
    (hnodup : l.Nodup) (hnew : ∀ w ∈ l, w < n ∧ P (f w) = false ∧ Q (g w)) :
    census n f P + l.length ≤ census n g Q := by
  rw [← List.toFinset_card_of_nodup hnodup, census, ← Finset.card_union_of_disjoint]
  · apply Finset.card_le_card
    intro w hw
    rw [Finset.mem_union, Finset.mem_filter, Finset.mem_range, List.mem_toFinset] at hw
    rw [Finset.mem_filter, Finset.mem_range]
    rcases hw with ⟨hlt, hP⟩ | hmem
    · exact ⟨hlt, hkeep w hlt hP⟩
    · exact ⟨(hnew w hmem).1, (hnew w hmem).2.2⟩
  · rw [Finset.disjoint_left]
    intro w hw hmem
    rw [Finset.mem_filter] at hw
    rw [List.mem_toFinset] at hmem
    rw [(hnew w hmem).2.1] at hw
    exact Bool.false_ne_true hw.2

end FaultMesh
