import Mathlib

/-!
# The span of a mask

The least interval that holds all set places of a Boolean mask, found by looking for the first and
for the last of them below a bound.
-/

namespace FaultMesh

/-- The half-open interval from the first to the last place set below the bound, or the empty one
at zero. -/
def spanBelow (p : Nat → Bool) (n : Nat) : Nat × Nat :=
  match (List.range n).find? p with
  | none => (0, 0)
  | some first => (first, Nat.findGreatest (fun i => p i) (n - 1) + 1)

/-- The interval is the least one that holds the places set, and it is not empty. -/
structure Spans (p : Nat → Bool) (region : Nat × Nat) : Prop where
  first_set : p region.1
  last_set : ∃ last, region.2 = last + 1 ∧ p last
  holds : ∀ i, p i → region.1 ≤ i ∧ i < region.2

variable {p : Nat → Bool} {n : Nat}

theorem Spans.eq {region region' : Nat × Nat} (h : Spans p region) (h' : Spans p region') :
    region = region' := by
  obtain ⟨last, hlast, hset⟩ := h.last_set
  obtain ⟨last', hlast', hset'⟩ := h'.last_set
  -- each end of one interval is set, so the other interval reaches at least as far
  have h₁ := h.holds _ h'.first_set
  have h₂ := h'.holds _ h.first_set
  have h₃ := h.holds _ hset'
  have h₄ := h'.holds _ hset
  apply Prod.ext <;> omega

theorem spans_spanBelow {i : Nat} (hset : p i) (hlt : ∀ j, p j → j < n) :
    Spans p (spanBelow p n) := by
  unfold spanBelow
  cases hfind : (List.range n).find? p with
  | none =>
    rw [List.find?_range_eq_none] at hfind
    have hnot := hfind i (hlt i hset)
    simp [hset] at hnot
  | some first =>
    rw [List.find?_range_eq_some] at hfind
    obtain ⟨hfirst, -, hbefore⟩ := hfind
    refine ⟨hfirst, ⟨_, rfl, ?_⟩, fun j hj => ⟨?_, ?_⟩⟩
    · have hle : i ≤ n - 1 := Nat.le_sub_one_of_lt (hlt i hset)
      exact @Nat.findGreatest_spec i (fun i => p i = true) _ (n - 1) hle hset
    · by_contra hgt
      have hnot := hbefore j (Nat.lt_of_not_le hgt)
      simp [hj] at hnot
    · have hle : j ≤ n - 1 := Nat.le_sub_one_of_lt (hlt j hj)
      exact Nat.lt_succ_of_le (Nat.le_findGreatest hle hj)

end FaultMesh
