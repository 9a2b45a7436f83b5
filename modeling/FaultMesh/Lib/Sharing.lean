import Mathlib

/-!
# Sharing out items

Parties share a finite set of items. An item is in the pot, in the hand of one party, or done.
Parties take items from the pot, put items aside for good, or finish them. Items may get lost on
the way; none is ever in two places. So when as many items are done as there are, all hands and
the pot are empty.
-/

namespace FaultMesh

open Function

/-- The hands, the pot and the finished items are apart from each other. -/
structure SharedOut {α ι : Type*} (items : Finset α) (hand : ι → Set α) (pot : Set α)
    (done : List α) : Prop where
  nodup : done.Nodup
  done_mem : ∀ a ∈ done, a ∈ items
  pot_mem : ∀ a ∈ pot, a ∈ items ∧ a ∉ done
  hand_mem : ∀ w, ∀ a ∈ hand w, a ∈ items ∧ a ∉ done ∧ a ∉ pot
  hand_inj : ∀ a w v, a ∈ hand w → a ∈ hand v → w = v

namespace SharedOut

variable {α ι : Type*} {items : Finset α} {hand : ι → Set α} {pot pot' : Set α} {done : List α}

theorem start (hpot : ∀ a ∈ pot, a ∈ items) (hhand : ∀ w, hand w = ∅) :
    SharedOut items hand pot [] where
  nodup := List.nodup_nil
  done_mem := nofun
  pot_mem := fun a ha => ⟨hpot a ha, List.not_mem_nil⟩
  hand_mem := by
    intro w a ha
    simp [hhand w] at ha
  hand_inj := by
    intro a w v ha
    simp [hhand w] at ha

section Moves

variable [DecidableEq ι] (h : SharedOut items hand pot done)
include h

/-- A party takes items out of the pot and may drop some of its own. -/
theorem take {w : ι} {new : Set α} (hpot : pot' ⊆ pot)
    (hnew : ∀ a ∈ new, a ∈ hand w ∨ a ∈ pot ∧ a ∉ pot') :
    SharedOut items (update hand w new) pot' done where
  nodup := h.nodup
  done_mem := h.done_mem
  pot_mem := fun a ha => h.pot_mem a (hpot ha)
  hand_mem := by
    intro v a ha
    by_cases hv : v = w
    · subst hv
      rw [update_self] at ha
      rcases hnew a ha with hold | ⟨hin, hout⟩
      · obtain ⟨hitem, hdone, hnpot⟩ := h.hand_mem v a hold
        exact ⟨hitem, hdone, fun hp => hnpot (hpot hp)⟩
      · exact ⟨(h.pot_mem a hin).1, (h.pot_mem a hin).2, hout⟩
    · rw [update_of_ne hv] at ha
      obtain ⟨hitem, hdone, hnpot⟩ := h.hand_mem v a ha
      exact ⟨hitem, hdone, fun hp => hnpot (hpot hp)⟩
  hand_inj := by
    -- an item of the new hand was in the old one or in the pot, so in no other hand
    have hother : ∀ a v, v ≠ w → a ∈ new → a ∉ hand v := by
      intro a v hv ha hold
      rcases hnew a ha with hw | ⟨hin, -⟩
      · exact hv (h.hand_inj a v w hold hw)
      · exact (h.hand_mem v a hold).2.2 hin
    intro a u v hu hv
    by_cases huw : u = w <;> by_cases hvw : v = w
    · rw [huw, hvw]
    · subst huw
      rw [update_self] at hu
      rw [update_of_ne hvw] at hv
      exact absurd hv (hother a v hvw hu)
    · subst hvw
      rw [update_of_ne huw] at hu
      rw [update_self] at hv
      exact absurd hu (hother a u huw hv)
    · rw [update_of_ne huw] at hu
      rw [update_of_ne hvw] at hv
      exact h.hand_inj a u v hu hv

/-- A party finishes an item of its hand. -/
theorem finish {w : ι} {a : α} {rest : Set α} (ha : a ∈ hand w)
    (hrest : ∀ b ∈ rest, b ∈ hand w ∧ b ≠ a) :
    SharedOut items (update hand w rest) pot (a :: done) := by
  -- drop the item first, then put it on the list
  have hdrop : SharedOut items (update hand w rest) pot done :=
    h.take subset_rfl fun b hb => .inl (hrest b hb).1
  obtain ⟨hitem, hdone, hnpot⟩ := h.hand_mem w a ha
  refine ⟨?_, ?_, ?_, ?_, hdrop.hand_inj⟩
  · exact List.nodup_cons.2 ⟨hdone, h.nodup⟩
  · exact List.forall_mem_cons.2 ⟨hitem, h.done_mem⟩
  · intro b hb
    have hne : b ≠ a := fun hba => hnpot (hba ▸ hb)
    exact ⟨(h.pot_mem b hb).1, List.not_mem_cons_of_ne_of_not_mem hne (h.pot_mem b hb).2⟩
  · intro v b hb
    obtain ⟨hbitem, hbdone, hbpot⟩ := hdrop.hand_mem v b hb
    refine ⟨hbitem, List.not_mem_cons_of_ne_of_not_mem ?_ hbdone, hbpot⟩
    by_cases hv : v = w
    · subst hv
      rw [update_self] at hb
      exact (hrest b hb).2
    · rw [update_of_ne hv] at hb
      exact fun hba => hv (h.hand_inj a v w (hba ▸ hb) ha)

end Moves

section Counting

variable [DecidableEq α] (h : SharedOut items hand pot done)
include h

theorem toFinset_subset : done.toFinset ⊆ items := fun a ha => h.done_mem a (List.mem_toFinset.1 ha)

theorem length_le : done.length ≤ items.card := by
  rw [← List.toFinset_card_of_nodup h.nodup]
  exact Finset.card_le_card h.toFinset_subset

theorem mem_done (hall : done.length = items.card) {a : α} (ha : a ∈ items) : a ∈ done := by
  rw [← List.toFinset_card_of_nodup h.nodup] at hall
  rw [← Finset.eq_of_subset_of_card_le h.toFinset_subset (Nat.le_of_eq hall.symm)] at ha
  exact List.mem_toFinset.1 ha

theorem hand_eq_empty (hall : done.length = items.card) (w : ι) : hand w = ∅ :=
  Set.eq_empty_of_forall_notMem fun a ha =>
    (h.hand_mem w a ha).2.1 (h.mem_done hall (h.hand_mem w a ha).1)

/-- An item in a hand is one that is missing. -/
theorem length_lt {w : ι} {a : α} (ha : a ∈ hand w) : done.length < items.card := by
  apply Nat.lt_of_le_of_ne h.length_le
  intro hall
  rw [h.hand_eq_empty hall w] at ha
  exact ha

end Counting

end SharedOut

end FaultMesh
