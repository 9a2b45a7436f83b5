import Mathlib

/-!
# Counting down

A counter starts at the number of members of a group. Each member may sign off, which takes one from
the counter. As long as nobody signs off twice, the counter reaches zero only when all have.
-/

namespace FaultMesh

/-- The members who have signed off so far, and the counter. -/
structure Countdown {α : Type*} (members : Finset α) (count : Int) (signed : List α) : Prop where
  nodup : signed.Nodup
  mem : ∀ a ∈ signed, a ∈ members
  count : count + signed.length = members.card

namespace Countdown

variable {α : Type*} {members : Finset α} {count : Int} {signed : List α}

theorem start (members : Finset α) : Countdown members members.card [] where
  nodup := List.nodup_nil
  mem := nofun
  count := Int.add_zero _

theorem sign (h : Countdown members count signed) {a : α} (ha : a ∈ members) (hnew : a ∉ signed) :
    Countdown members (count - 1) (a :: signed) where
  nodup := List.nodup_cons.2 ⟨hnew, h.nodup⟩
  mem := List.forall_mem_cons.2 ⟨ha, h.mem⟩
  count := by
    have hcount := h.count
    rw [List.length_cons]
    omega

theorem all_signed [DecidableEq α] (h : Countdown members count signed) (hzero : count = 0) {a : α}
    (ha : a ∈ members) : a ∈ signed := by
  have hsub : signed.toFinset ⊆ members := fun b hb => h.mem b (List.mem_toFinset.1 hb)
  have hcard : signed.toFinset.card = signed.length := List.toFinset_card_of_nodup h.nodup
  have hall : signed.toFinset = members := by
    apply Finset.eq_of_subset_of_card_le hsub
    have hcount := h.count
    omega
  exact List.mem_toFinset.1 (hall ▸ ha)

end Countdown

end FaultMesh
