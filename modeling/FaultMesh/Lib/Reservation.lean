import Mathlib

/-!
# Reservations in a shared buffer

Several members write to one buffer. A member may start only while the buffer is not filled beyond a
base, and it then may write up to a share. What all members may still write is bounded by their
number, and so is what the buffer can ever hold.
-/

namespace FaultMesh

open Function

variable {κ : Type*} [Fintype κ]

theorem sum_update_add [DecidableEq κ] (f : κ → Nat) (k : κ) (x : Nat) :
    ∑ j, update f k x j + f k = ∑ j, f j + x := by
  have hrest : ∑ j ∈ Finset.univ.erase k, update f k x j = ∑ j ∈ Finset.univ.erase k, f j := by
    apply Finset.sum_congr rfl
    intro j hj
    exact update_of_ne (Finset.ne_of_mem_erase hj) x f
  rw [← Finset.add_sum_erase Finset.univ _ (Finset.mem_univ k),
    ← Finset.add_sum_erase Finset.univ f (Finset.mem_univ k), hrest, update_self]
  omega

/-- What is in the buffer and what the members may still write. -/
structure Reserved (base share : Nat) (used : Nat) (allowance : κ → Nat) : Prop where
  le_share : ∀ k, allowance k ≤ share
  covered : used + ∑ k, allowance k ≤ base + Fintype.card κ * share

namespace Reserved

variable {base share used : Nat} {allowance : κ → Nat}

theorem used_le (h : Reserved base share used allowance) : used ≤ base + Fintype.card κ * share :=
  (Nat.le_add_right ..).trans h.covered

/-- While the buffer is not filled beyond the base, the allowances do not matter. -/
theorem of_used_le_base (hused : used ≤ base) (hshare : ∀ k, allowance k ≤ share) :
    Reserved base share used allowance where
  le_share := hshare
  covered := by
    have hsum : ∑ k, allowance k ≤ Fintype.card κ * share := by
      simpa using Finset.sum_le_card_nsmul Finset.univ allowance share fun k _ => hshare k
    exact Nat.add_le_add hused hsum

variable [DecidableEq κ]

section

variable (h : Reserved base share used allowance)
include h

theorem le_share_update {k : κ} {x : Nat} (hx : x ≤ share) (j : κ) :
    update allowance k x j ≤ share := by
  by_cases hj : j = k
  · rwa [hj, update_self]
  · rw [update_of_ne hj]
    exact h.le_share j

/-- A member may start as long as the buffer is not filled beyond the base. -/
theorem grant (hused : used ≤ base) {k : κ} {x : Nat} (hx : x ≤ share) :
    Reserved base share used (update allowance k x) :=
  of_used_le_base hused (h.le_share_update hx)

/-- A member that writes uses up its allowance. -/
theorem spend {k : κ} {x n : Nat} (hx : x + n = allowance k) :
    Reserved base share (used + n) (update allowance k x) where
  le_share := by
    apply h.le_share_update
    have := h.le_share k
    omega
  covered := by
    have hsum := sum_update_add allowance k x
    have hcovered := h.covered
    omega

/-- A member that is done gives back what it has left. -/
theorem lower {k : κ} {x : Nat} (hx : x ≤ allowance k) :
    Reserved base share used (update allowance k x) where
  le_share := h.le_share_update (hx.trans (h.le_share k))
  covered := by
    have hsum := sum_update_add allowance k x
    have hcovered := h.covered
    omega

end

end Reserved

end FaultMesh
