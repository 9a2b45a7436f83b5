import Mathlib

/-!
# Sharing an index range by lanes

A lane is what a loop of the form `for (i = start; i < stop; i += stride)` visits. An interval is
shared by `k` lanes of stride `k`, one for each offset; a range that is cut into intervals is
shared by the lanes of all of them, taken one after the other.
-/

namespace FaultMesh

/-- A loop over indices with a fixed stride. -/
structure Lane where
  start : Nat
  stop : Nat
  stride : Nat
  deriving DecidableEq, Repr

def Lane.indices (lane : Lane) : List Nat :=
  List.range' lane.start ((lane.stop - lane.start + lane.stride - 1) / lane.stride) lane.stride

theorem Lane.mem_indices {lane : Lane} (hpos : 0 < lane.stride) {idx : Nat} :
    idx ∈ lane.indices ↔
      lane.start ≤ idx ∧ idx < lane.stop ∧ (idx - lane.start) % lane.stride = 0 := by
  have hcount : ∀ i, i < (lane.stop - lane.start + lane.stride - 1) / lane.stride ↔
      lane.start + lane.stride * i < lane.stop := by
    intro i
    rw [Nat.lt_iff_add_one_le, Nat.le_div_iff_mul_le hpos, Nat.add_mul, Nat.mul_comm i]
    omega
  simp only [Lane.indices, List.mem_range', hcount]
  constructor
  · rintro ⟨i, hi, rfl⟩
    exact ⟨Nat.le_add_right _ _, hi, by rw [Nat.add_sub_cancel_left, Nat.mul_mod_right]⟩
  · rintro ⟨hle, hlt, hmod⟩
    obtain ⟨i, hi⟩ := Nat.dvd_of_mod_eq_zero hmod
    have hidx : idx = lane.start + lane.stride * i := by omega
    exact ⟨i, hidx ▸ hlt, hidx⟩

/-- A lane that is not over goes on one stride further. -/
theorem Lane.mem_indices_next {start stop stride idx : Nat} (hpos : 0 < stride) (hlt : start < stop) :
    idx ∈ (⟨start, stop, stride⟩ : Lane).indices ↔
      idx = start ∨ idx ∈ (⟨start + stride, stop, stride⟩ : Lane).indices := by
  rw [@Lane.mem_indices ⟨start, stop, stride⟩ hpos, @Lane.mem_indices ⟨start + stride, stop, stride⟩ hpos]
  dsimp only
  constructor
  · rintro ⟨hle, hidx, hmod⟩
    rcases Nat.eq_or_lt_of_le hle with heq | hgt
    · exact .inl heq.symm
    -- the remainder is zero, so the next index is a whole stride away
    · have hstride : stride ≤ idx - start := Nat.le_of_dvd (by omega) (Nat.dvd_of_mod_eq_zero hmod)
      refine .inr ⟨by omega, hidx, ?_⟩
      rw [← Nat.sub_sub, ← Nat.mod_eq_sub_mod hstride]
      exact hmod
  · rintro (rfl | ⟨hle, hidx, hmod⟩)
    · exact ⟨Nat.le_refl _, hlt, by rw [Nat.sub_self, Nat.zero_mod]⟩
    · refine ⟨by omega, hidx, ?_⟩
      rw [Nat.mod_eq_sub_mod (by omega), Nat.sub_sub]
      exact hmod

theorem Lane.indices_eq_nil {start stop stride : Nat} (hpos : 0 < stride) (hge : stop ≤ start) :
    (⟨start, stop, stride⟩ : Lane).indices = [] := by
  rw [List.eq_nil_iff_forall_not_mem]
  intro idx hidx
  obtain ⟨hle, hlt, -⟩ := (Lane.mem_indices hpos).1 hidx
  dsimp only at hle hlt
  omega

def TakenBy (lanes : List Lane) (idx id : Nat) : Prop :=
  ∃ lane, lanes[id]? = some lane ∧ idx ∈ lane.indices

theorem TakenBy.lt_length {lanes : List Lane} {idx id : Nat} (h : TakenBy lanes idx id) :
    id < lanes.length := by
  obtain ⟨lane, hlane, -⟩ := h
  exact (List.getElem?_eq_some_iff.1 hlane).1

theorem takenBy_append {front back : List Lane} {idx id : Nat} :
    TakenBy (front ++ back) idx id ↔
      TakenBy front idx id ∨ front.length ≤ id ∧ TakenBy back idx (id - front.length) := by
  unfold TakenBy
  rcases Nat.lt_or_ge id front.length with hlt | hge
  · rw [List.getElem?_append_left hlt]
    simp [Nat.not_le.2 hlt]
  · rw [List.getElem?_append_right hge, List.getElem?_eq_none hge]
    simp [hge]

/-! ## One interval -/

/-- The `k` lanes that share `count` indices from `start` on. -/
def strideLanes (start count k : Nat) : List Lane :=
  (List.range k).map fun id => ⟨start + id, start + count, k⟩

@[simp] theorem length_strideLanes (start count k : Nat) : (strideLanes start count k).length = k := by
  simp [strideLanes]

/-- The lane of an index is told by its remainder. -/
theorem takenBy_strideLanes {start count k idx id : Nat} :
    TakenBy (strideLanes start count k) idx id ↔
      (0 < k ∧ start ≤ idx ∧ idx < start + count) ∧ id = (idx - start) % k := by
  -- lane `id` starts at `start + id`
  have hlane : ∀ lane, (strideLanes start count k)[id]? = some lane ↔
      id < k ∧ lane = ⟨start + id, start + count, k⟩ := by
    intro lane
    rw [strideLanes, List.getElem?_map]
    rcases Nat.lt_or_ge id k with hlt | hge
    · rw [List.getElem?_range hlt]
      simp [hlt, eq_comm]
    · rw [List.getElem?_eq_none (by simpa using hge)]
      simp [Nat.not_lt.2 hge]
  simp only [TakenBy, hlane]
  constructor
  · rintro ⟨lane, ⟨hid, rfl⟩, hmem⟩
    have hpos : 0 < k := Nat.lt_of_le_of_lt (Nat.zero_le id) hid
    obtain ⟨hle, hlt, hmod⟩ := (Lane.mem_indices hpos).1 hmem
    obtain ⟨m, hm⟩ := Nat.dvd_of_mod_eq_zero hmod
    have hoff : idx - start = id + k * m := by
      dsimp only at hle hm
      omega
    refine ⟨⟨hpos, by dsimp only at hle; omega, hlt⟩, ?_⟩
    rw [hoff, Nat.add_mul_mod_self_left, Nat.mod_eq_of_lt hid]
  · rintro ⟨⟨hpos, hle, hlt⟩, rfl⟩
    have hmodle := Nat.mod_le (idx - start) k
    refine ⟨_, ⟨Nat.mod_lt _ hpos, rfl⟩, (Lane.mem_indices hpos).2 ⟨?_, hlt, ?_⟩⟩
    · dsimp only
      omega
    · have hdiv := Nat.mod_add_div (idx - start) k
      have hoff : idx - (start + (idx - start) % k) = k * ((idx - start) / k) := by omega
      dsimp only
      rw [hoff, Nat.mul_mod_right]

/-! ## A range cut into intervals -/

/-- The intervals, given by start and length, lie end to end from `lo` to `hi`. -/
def Tiles : Nat → List (Nat × Nat) → Nat → Prop
  | lo, [], hi => lo = hi
  | lo, part :: parts, hi => part.1 = lo ∧ Tiles (lo + part.2) parts hi

theorem Tiles.le {lo hi : Nat} {parts : List (Nat × Nat)} (h : Tiles lo parts hi) : lo ≤ hi := by
  induction parts generalizing lo with
  | nil => exact Nat.le_of_eq h
  | cons part parts ih => exact Nat.le_trans (Nat.le_add_right lo part.2) (ih h.2)

theorem Tiles.le_of_mem {lo hi : Nat} {parts : List (Nat × Nat)} (h : Tiles lo parts hi)
    {part : Nat × Nat} (hpart : part ∈ parts) : part.1 + part.2 ≤ hi := by
  induction parts generalizing lo with
  | nil => exact absurd hpart List.not_mem_nil
  | cons first parts ih =>
    rcases List.mem_cons.1 hpart with rfl | hlater
    · rw [h.1]
      exact h.2.le
    · exact ih h.2 hlater

/-- The lanes of all intervals, each interval with the number of its lanes. -/
def splitLanes (parts : List ((Nat × Nat) × Nat)) : List Lane :=
  parts.flatMap fun part => strideLanes part.1.1 part.1.2 part.2

theorem length_splitLanes (parts : List ((Nat × Nat) × Nat)) :
    (splitLanes parts).length = (parts.map Prod.snd).sum := by
  simp [splitLanes, List.length_flatMap]

theorem TakenBy.range {lo hi idx id : Nat} {parts : List ((Nat × Nat) × Nat)}
    (htiles : Tiles lo (parts.map Prod.fst) hi) (h : TakenBy (splitLanes parts) idx id) :
    lo ≤ idx ∧ idx < hi := by
  induction parts generalizing lo id with
  | nil =>
    obtain ⟨lane, hlane, -⟩ := h
    cases hlane
  | cons part parts ih =>
    obtain ⟨hstart, hrest⟩ := htiles
    have hle := hrest.le
    rcases takenBy_append.1 h with hhere | ⟨-, hthere⟩
    · obtain ⟨⟨-, hge, hlt⟩, -⟩ := takenBy_strideLanes.1 hhere
      omega
    · have hrange := ih hrest hthere
      omega

theorem existsUnique_takenBy_splitLanes {lo hi idx : Nat} {parts : List ((Nat × Nat) × Nat)}
    (htiles : Tiles lo (parts.map Prod.fst) hi) (hpos : ∀ part ∈ parts, 0 < part.2)
    (hlo : lo ≤ idx) (hhi : idx < hi) : ∃! id, TakenBy (splitLanes parts) idx id := by
  -- the interval of the index is the first one or among the rest
  induction parts generalizing lo with
  | nil =>
    have heq : lo = hi := htiles
    omega
  | cons part parts ih =>
    obtain ⟨hstart, hrest⟩ := htiles
    have happend : ∀ id, TakenBy (splitLanes (part :: parts)) idx id ↔
        TakenBy (strideLanes part.1.1 part.1.2 part.2) idx id ∨
          part.2 ≤ id ∧ TakenBy (splitLanes parts) idx (id - part.2) := by
      intro id
      have hsplit := @takenBy_append (strideLanes part.1.1 part.1.2 part.2) (splitLanes parts) idx id
      rwa [length_strideLanes] at hsplit
    simp only [happend]
    rcases Nat.lt_or_ge idx (lo + part.1.2) with hin | hout
    · refine ⟨(idx - part.1.1) % part.2, .inl (takenBy_strideLanes.2 ⟨⟨?_, ?_, ?_⟩, rfl⟩), ?_⟩
      · exact hpos part List.mem_cons_self
      · omega
      · omega
      · rintro id (hhere | ⟨-, hthere⟩)
        · exact (takenBy_strideLanes.1 hhere).2
        · have hrange := hthere.range hrest
          omega
    · obtain ⟨id, hid, honly⟩ := ih hrest (fun p hp => hpos p (List.mem_cons_of_mem part hp)) hout
      refine ⟨id + part.2, .inr ⟨Nat.le_add_left _ _, by rwa [Nat.add_sub_cancel]⟩, ?_⟩
      rintro id' (hhere | ⟨hge, hthere⟩)
      · have hlt := (takenBy_strideLanes.1 hhere).1
        omega
      · have heq := honly _ hthere
        omega

/-- The lanes share the range below `n`: they stay inside it and visit every index of it once. -/
structure Shares (lanes : List Lane) (n : Nat) : Prop where
  stride_pos : ∀ lane ∈ lanes, 0 < lane.stride
  lt : ∀ idx id, TakenBy lanes idx id → idx < n
  existsUnique : ∀ idx < n, ∃! id, TakenBy lanes idx id

theorem Shares.eq_of_takenBy {lanes : List Lane} {n idx id id' : Nat} (h : Shares lanes n)
    (hid : TakenBy lanes idx id) (hid' : TakenBy lanes idx id') : id = id' :=
  (h.existsUnique idx (h.lt idx id hid)).unique hid hid'

theorem shares_splitLanes {n : Nat} {parts : List ((Nat × Nat) × Nat)}
    (htiles : Tiles 0 (parts.map Prod.fst) n) (hpos : ∀ part ∈ parts, 0 < part.2) :
    Shares (splitLanes parts) n where
  stride_pos := by
    intro lane hlane
    obtain ⟨part, hpart, hin⟩ := List.mem_flatMap.1 hlane
    obtain ⟨id, -, rfl⟩ := List.mem_map.1 hin
    exact hpos part hpart
  lt := fun _ _ h => (h.range htiles).2
  existsUnique := fun idx hidx =>
    existsUnique_takenBy_splitLanes htiles hpos (Nat.zero_le idx) hidx

theorem shares_strideLanes {n k : Nat} (hpos : 0 < k) : Shares (strideLanes 0 n k) n := by
  have hsplit : strideLanes 0 n k = splitLanes [((0, n), k)] := by simp [splitLanes]
  rw [hsplit]
  apply shares_splitLanes
  · exact ⟨rfl, Nat.zero_add n⟩
  · intro part hpart
    obtain rfl := List.mem_singleton.1 hpart
    exact hpos

/-- One lane for each interval. -/
theorem shares_intervals {n : Nat} {segs : List (Nat × Nat)} (htiles : Tiles 0 segs n) :
    Shares (segs.map fun seg => ⟨seg.1, seg.1 + seg.2, 1⟩) n := by
  have hsplit : (segs.map fun seg => (⟨seg.1, seg.1 + seg.2, 1⟩ : Lane)) =
      splitLanes (segs.map fun seg => (seg, 1)) := by
    rw [List.map_eq_flatMap]
    simp [splitLanes, strideLanes, List.flatMap_map]
  rw [hsplit]
  apply shares_splitLanes
  · rwa [List.map_map, show Prod.fst ∘ (fun seg : Nat × Nat => (seg, 1)) = id from rfl, List.map_id]
  · intro part hpart
    obtain ⟨seg, -, rfl⟩ := List.mem_map.1 hpart
    exact Nat.one_pos

end FaultMesh
