import Mathlib

/-!
# Going through a bitmap

A bitmap is searched from an offset on for the next set bit, and the result is the size of the bitmap
if there is none. Two loops rest on the search: one over the set bits, one over the runs of set bits,
where the next search begins behind the bit that ended the last run.
-/

namespace FaultMesh

/-- The first set bit in `[offset, size)`, or `size`. -/
def findNextBit (bits : Nat → Bool) (size offset : Nat) : Nat :=
  ((List.range' offset (size - offset)).find? bits).getD size

/-- The first clear bit in `[offset, size)`, or `size`. -/
def findNextZeroBit (bits : Nat → Bool) (size offset : Nat) : Nat :=
  findNextBit (fun i => !bits i) size offset

variable {bits : Nat → Bool} {size start : Nat}

/-- Either there is no set bit and the search ends at the size, or it ends at the first one. -/
theorem findNextBit_cases (bits : Nat → Bool) (size offset : Nat) :
    (findNextBit bits size offset = size ∧ ∀ i, offset ≤ i → i < size → bits i = false) ∨
      (offset ≤ findNextBit bits size offset ∧ findNextBit bits size offset < size ∧
        bits (findNextBit bits size offset) = true ∧
        ∀ i, offset ≤ i → i < findNextBit bits size offset → bits i = false) := by
  unfold findNextBit
  cases hfind : (List.range' offset (size - offset)).find? bits with
  | none =>
    refine .inl ⟨rfl, fun i hoffset hsize => ?_⟩
    have hmem : i ∈ List.range' offset (size - offset) := List.mem_range'_1.2 (by omega)
    simpa using List.find?_eq_none.1 hfind i hmem
  | some i =>
    obtain ⟨hset, hmem, hbefore⟩ := List.find?_range'_eq_some.1 hfind
    rw [List.mem_range'_1] at hmem
    refine .inr ⟨hmem.1, by simpa using (by omega : i < size), hset, fun j hoffset hj => ?_⟩
    simpa using hbefore j hoffset hj

/-- Where the search ends before the size. -/
structure NextBit (bits : Nat → Bool) (size offset found : Nat) : Prop where
  le : offset ≤ found
  lt : found < size
  set : bits found = true
  before : ∀ i, offset ≤ i → i < found → bits i = false

theorem nextBit_findNextBit (h : findNextBit bits size start ≠ size) :
    NextBit bits size start (findNextBit bits size start) := by
  obtain ⟨heq, -⟩ | ⟨hle, hlt, hset, hbefore⟩ := findNextBit_cases bits size start
  · exact absurd heq h
  · exact ⟨hle, hlt, hset, hbefore⟩

theorem clear_of_findNextBit (h : findNextBit bits size start = size) {i : Nat} (hle : start ≤ i)
    (hlt : i < size) : bits i = false := by
  obtain ⟨-, hnone⟩ | ⟨-, hfound, -⟩ := findNextBit_cases bits size start
  · exact hnone i hle hlt
  · exact absurd h (Nat.ne_of_lt hfound)

/-- The bits up to the next clear one are set. -/
theorem findNextZeroBit_spec (bits : Nat → Bool) (h : start ≤ size) :
    start ≤ findNextZeroBit bits size start ∧ findNextZeroBit bits size start ≤ size ∧
      (∀ i, start ≤ i → i < findNextZeroBit bits size start → bits i = true) ∧
      (findNextZeroBit bits size start < size → bits (findNextZeroBit bits size start) = false) := by
  unfold findNextZeroBit
  obtain ⟨heq, hnone⟩ | ⟨hle, hlt, hset, hbefore⟩ := findNextBit_cases (fun i => !bits i) size start
  · rw [heq]
    exact ⟨h, Nat.le_refl _, by simpa using hnone, fun hlt => absurd hlt (Nat.lt_irrefl _)⟩
  · exact ⟨hle, Nat.le_of_lt hlt, by simpa using hbefore, fun _ => by simpa using hset⟩

/-- The set bits in `[start, size)`, each found from the one before. -/
def setBits (bits : Nat → Bool) (size start : Nat) : List Nat :=
  if h : findNextBit bits size start = size then []
  else findNextBit bits size start :: setBits bits size (findNextBit bits size start + 1)
termination_by size - start
decreasing_by
  have hfound := nextBit_findNextBit h
  have := hfound.le
  have := hfound.lt
  omega

/-- The runs of set bits in `[start, size)`, each with its first bit and the one behind its last. -/
def setRuns (bits : Nat → Bool) (size start : Nat) : List (Nat × Nat) :=
  if h : findNextBit bits size start = size then []
  else
    let stop := findNextZeroBit bits size (findNextBit bits size start + 1)
    (findNextBit bits size start, stop) :: setRuns bits size (stop + 1)
termination_by size - start
decreasing_by
  have hfound := nextBit_findNextBit h
  have hnext : findNextBit bits size start + 1 ≤ size := hfound.lt
  have hstop := (findNextZeroBit_spec bits hnext).1
  have := hfound.le
  have := hfound.lt
  omega

/-- Behind the bit that was found the search goes on, and before it there is none. -/
theorem NextBit.range_iff {found i : Nat} (h : NextBit bits size start found) :
    start ≤ i ∧ i < size ∧ bits i = true ↔ i = found ∨ found + 1 ≤ i ∧ i < size ∧ bits i = true := by
  constructor
  · rintro ⟨hle, hlt, hset⟩
    by_cases hi : i < found
    · rw [h.before i hle hi] at hset
      cases hset
    · by_cases heq : i = found
      · exact .inl heq
      · exact .inr ⟨by omega, hlt, hset⟩
  · rintro (rfl | ⟨hle, hlt, hset⟩)
    · exact ⟨h.le, h.lt, h.set⟩
    · have := h.le
      exact ⟨by omega, hlt, hset⟩

theorem mem_setBits {i : Nat} : i ∈ setBits bits size start ↔ start ≤ i ∧ i < size ∧ bits i = true := by
  fun_induction setBits bits size start with
  | case1 start hend =>
    constructor
    · nofun
    · rintro ⟨hle, hlt, hset⟩
      rw [clear_of_findNextBit hend hle hlt] at hset
      cases hset
  | case2 start hend ih =>
    rw [List.mem_cons, ih]
    exact (nextBit_findNextBit hend).range_iff.symm

theorem exists_mem_setRuns {i : Nat} :
    (∃ r ∈ setRuns bits size start, r.1 ≤ i ∧ i < r.2) ↔ start ≤ i ∧ i < size ∧ bits i = true := by
  fun_induction setRuns bits size start with
  | case1 start hend =>
    constructor
    · rintro ⟨r, hr, -⟩
      cases hr
    · rintro ⟨hle, hlt, hset⟩
      rw [clear_of_findNextBit hend hle hlt] at hset
      cases hset
  | case2 start hend stop ih =>
    have hfound := nextBit_findNextBit hend
    have hnext : findNextBit bits size start + 1 ≤ size := hfound.lt
    obtain ⟨hstop, hsize, hset, hclear⟩ := findNextZeroBit_spec bits hnext
    rw [List.exists_mem_cons_iff, ih, hfound.range_iff]
    constructor
    · rintro (⟨hle, hlt⟩ | ⟨hle, hlt, hbit⟩)
      · by_cases heq : i = findNextBit bits size start
        · exact .inl heq
        · have hle' : findNextBit bits size start + 1 ≤ i := by omega
          exact .inr ⟨hle', by omega, hset i hle' hlt⟩
      · exact .inr ⟨by omega, hlt, hbit⟩
    · rintro (rfl | ⟨hle, hlt, hbit⟩)
      · exact .inl ⟨Nat.le_refl _, hstop⟩
      · by_cases hi : i < stop
        · exact .inl ⟨by omega, hi⟩
        -- the bit that ended the run is clear
        · have hne : i ≠ stop := by
            rintro rfl
            rw [hclear hlt] at hbit
            cases hbit
          exact .inr ⟨by omega, hlt, hbit⟩

end FaultMesh
