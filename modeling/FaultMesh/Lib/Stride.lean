import Mathlib

/-!
# Strided sharing of an index range

`k` parties share the indices below `n`: party `id` takes `id`, `id + k`, `id + 2 * k` and so on.
Its frontier is the next index of its class that it has not finished. `StrideProgress` relates the
frontiers to the list of finished indices; it starts with nothing finished, and each party may
finish its frontier at any time.
-/

namespace FaultMesh

open Function

/-- The finished indices are those below the frontier of their class. -/
structure StrideProgress (n k : Nat) (frontier : Nat → Nat) (finished : List Nat) : Prop where
  residue : ∀ id < k, frontier id % k = id
  mem_iff : ∀ idx, idx ∈ finished ↔ idx < n ∧ idx < frontier (idx % k)
  nodup : finished.Nodup

namespace StrideProgress

variable {n k : Nat} {frontier : Nat → Nat} {finished : List Nat}

theorem init (n k : Nat) : StrideProgress n k id [] where
  residue := fun _ h => Nat.mod_eq_of_lt h
  mem_iff := by
    intro idx
    -- no index is below its own remainder
    have hle : idx % k ≤ idx := Nat.mod_le idx k
    simp only [List.not_mem_nil, id_eq, false_iff, not_and]
    omega
  nodup := List.nodup_nil

section

variable (h : StrideProgress n k frontier finished)
include h

theorem frontier_not_mem {id : Nat} (hid : id < k) : frontier id ∉ finished := by
  rw [h.mem_iff, h.residue id hid]
  exact fun hlt => Nat.lt_irrefl _ hlt.2

/-- A party finishes its frontier and moves on by one stride. -/
theorem finish {id : Nat} (hid : id < k)
    (hlt : frontier id < n) :
    StrideProgress n k (update frontier id (frontier id + k))
      (frontier id :: finished) where
  residue := by
    intro j hj
    by_cases hjid : j = id
    · subst hjid
      rw [update_self, Nat.add_mod_right]
      exact h.residue j hj
    · rw [update_of_ne hjid]
      exact h.residue j hj
  mem_iff := by
    intro idx
    rw [List.mem_cons, h.mem_iff]
    by_cases hclass : idx % k = id
    -- the class of the party: one more index is below the frontier
    · rw [hclass, update_self]
      have hmod : idx ≡ frontier id [MOD k] := by
        show idx % k = frontier id % k
        rw [hclass, h.residue id hid]
      constructor
      · rintro (rfl | ⟨hn, hf⟩)
        · exact ⟨hlt, Nat.lt_add_of_pos_right (Nat.zero_lt_of_lt hid)⟩
        · exact ⟨hn, Nat.lt_add_right k hf⟩
      · rintro ⟨hn, hf⟩
        rcases Nat.lt_or_eq_of_le (hmod.le_of_lt_add hf) with hlt' | heq
        · exact .inr ⟨hn, hlt'⟩
        · exact .inl heq
    · rw [update_of_ne hclass]
      constructor
      · rintro (rfl | hold)
        · exact absurd (h.residue id hid) hclass
        · exact hold
      · exact .inr
  nodup := List.nodup_cons.2 ⟨h.frontier_not_mem hid, h.nodup⟩

theorem mem_range {idx : Nat} (hidx : idx ∈ finished) : idx < n := ((h.mem_iff idx).1 hidx).1

theorem subperm_range : List.Subperm finished (List.range n) :=
  h.nodup.subperm fun _ hidx => List.mem_range.2 (h.mem_range hidx)

theorem length_le : finished.length ≤ n := by
  simpa using h.subperm_range.length_le

theorem mem_of_length_eq (hlen : finished.length = n) {idx : Nat} (hidx : idx < n) :
    idx ∈ finished := by
  have hperm := h.subperm_range.perm_of_length_le (by simp [hlen])
  exact hperm.mem_iff.2 (List.mem_range.2 hidx)

/-- When all indices are finished every frontier is past the end. -/
theorem le_frontier_of_length_eq (hlen : finished.length = n) {id : Nat} (hid : id < k) :
    n ≤ frontier id := by
  by_contra hlt
  -- the frontier itself is below `n` and unfinished
  exact h.frontier_not_mem hid (h.mem_of_length_eq hlen (Nat.lt_of_not_le hlt))

/-- A party whose frontier is inside the range keeps the whole from being finished. -/
theorem length_lt {id : Nat} (hid : id < k) (hlt : frontier id < n) : finished.length < n := by
  refine Nat.lt_of_le_of_ne h.length_le fun heq => ?_
  exact absurd (h.le_frontier_of_length_eq heq hid) (Nat.not_le.2 hlt)

end

end StrideProgress

end FaultMesh
