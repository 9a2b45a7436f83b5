import FaultMesh.Lib.Lanes
import FaultMesh.Pool

/-!
# Workers for segments

In the group-segment-parallel mode `uvm_kthread_dispatch_and_wait` cuts the groups of a batch into
segments by their fault counts, gives each segment a share of the workers, and numbers the workers
segment by segment. A worker looks its number up and strides through the blocks of its segment with
the other workers of it.

Shares are rounded down, but no segment gets less than one worker, and the last one gets what is
left. If the earlier shares use up all workers, the numbers at the end belong to nobody.
-/

namespace FaultMesh

/-- `UVM_KTHREAD_MAX_WORKERS`, the size of the mapping tables. -/
def uvmKthreadMaxWorkers : Nat := 32

def uvmKthreadSegmentSize : Nat := 16

/-- The pool and the module parameters that the allocation reads. -/
structure GroupSegConfig extends PoolConfig where
  /-- `uvm_kthread_pool_create` sees to it. -/
  numWorkers_le : numWorkers ≤ uvmKthreadMaxWorkers
  segmentSize : Nat := 0
  /-- `uvm_merge_dynamic_segment_enable`. -/
  dynamicSegment : Bool := false
  /-- `uvm_merge_dynamic_segment_min_faults`. -/
  dynamicMinFaults : Nat := 8
  /-- `uvm_merge_dynamic_segment_target_segments`. -/
  dynamicTargetSegments : Nat := 3
  /-- `uvm_merge_group_seg_max_segments`. -/
  maxSegments : Nat := 3

/-! ## The allocation -/

def GroupSegConfig.mergeEffectiveSegmentThreshold (cfg : GroupSegConfig)
    (batchTotalFaults numItems : Nat) : Nat :=
  let segFaultThreshold := if cfg.segmentSize ≠ 0 then cfg.segmentSize else uvmKthreadSegmentSize
  if !cfg.dynamicSegment || batchTotalFaults = 0 || numItems = 0 then segFaultThreshold
  else if 0 < cfg.dynamicTargetSegments then
    let targetSegments := min (max 1 cfg.dynamicTargetSegments) numItems
    let adaptiveThreshold := (batchTotalFaults + targetSegments - 1) / targetSegments
    max (max 1 cfg.dynamicMinFaults) adaptiveThreshold
  else segFaultThreshold

/-- Phase 1: `seg_start` and `seg_count` of the segments, from block `blockIdx` on, for the fault
counts of the blocks still to come. -/
def cutSegments (threshold maxSeg : Nat) :
    List Nat → (blockIdx segFaults segStart numSegments : Nat) → List (Nat × Nat)
  | [], _, _, _, _ => []
  | numFaults :: rest, blockIdx, segFaults, segStart, numSegments =>
    let segFaults := segFaults + numFaults
    if threshold ≤ segFaults ∨ rest = [] then
      let segCount := blockIdx + 1 - segStart
      -- the last segment allowed takes all blocks that are left
      if maxSeg ≤ numSegments + 1 ∧ rest ≠ [] then [(segStart, segCount + rest.length)]
      else
        (segStart, segCount) ::
          cutSegments threshold maxSeg rest (blockIdx + 1) 0 (segStart + segCount) (numSegments + 1)
    else cutSegments threshold maxSeg rest (blockIdx + 1) segFaults segStart numSegments

def u32Sub (a b : Nat) : Nat := (a + (2 ^ 32 - b % 2 ^ 32)) % 2 ^ 32

/-- At least one worker, at most one for each block. -/
def clampWorkers (segBlocks w : Nat) : Nat :=
  let w := if w = 0 then 1 else w
  if segBlocks < w then segBlocks else w

/-- The share of a segment that is not the last one. -/
def workerShare (totalWorkers numItems segBlocks : Nat) : Nat :=
  clampWorkers segBlocks (segBlocks * totalWorkers / numItems)

/-- Phase 2: `workers_per_seg` of the segments, `assigned` workers being given out already. The
sum stays below the number of blocks, so it does not overflow. -/
def allocateWorkers (totalWorkers numItems : Nat) : List (Nat × Nat) → Nat → List Nat
  | [], _ => []
  | seg :: segs, assigned =>
    let w := if segs = [] then u32Sub totalWorkers assigned
      else workerShare totalWorkers numItems seg.2
    let w := clampWorkers seg.2 w
    w :: allocateWorkers totalWorkers numItems segs (assigned + w)

/-- Phase 3: `worker_seg_id` and `worker_local_id` of the numbers, from segment `seg` on. -/
def workerTable : Nat → List Nat → List (Nat × Nat)
  | _, [] => []
  | seg, w :: ws => (List.range w).map (fun localId => (seg, localId)) ++ workerTable (seg + 1) ws

/-- The loop of a worker for its segment and its place in it. -/
def segmentLane (parts : List ((Nat × Nat) × Nat)) (entry : Nat × Nat) : Lane :=
  let part := parts.getD entry.1 ((0, 0), 0)
  ⟨part.1.1 + entry.2, part.1.1 + part.1.2, part.2⟩

namespace GroupSegConfig

variable (cfg : GroupSegConfig) (faults : List Nat)

def maxSeg : Nat := min cfg.maxActive (max 1 cfg.maxSegments)

def segments : List (Nat × Nat) :=
  cutSegments (cfg.mergeEffectiveSegmentThreshold faults.sum faults.length) cfg.maxSeg faults 0 0 0 0

/-- `total_workers`; `batch_num_active` of the dispatch is the same. -/
def totalWorkers : Nat := cfg.numActive faults.length

def workersPerSeg : List Nat :=
  allocateWorkers (cfg.totalWorkers faults) faults.length (cfg.segments faults) 0

def totalWorkersDispatched : Nat := (cfg.workersPerSeg faults).sum

/-- `seg_start`, `seg_count` and `workers_per_seg` of the segments. -/
def parts : List ((Nat × Nat) × Nat) := (cfg.segments faults).zip (cfg.workersPerSeg faults)

/-- The blocks that the worker with that number visits. -/
def visitedBy (myBatchId : Nat) : List Nat :=
  -- numbers that are not dispatched are turned away, others look themselves up
  if myBatchId < cfg.numActive faults.length ∧ myBatchId < cfg.totalWorkersDispatched faults then
    (segmentLane (cfg.parts faults)
      ((workerTable 0 (cfg.workersPerSeg faults)).getD myBatchId (0, 0))).indices
  else []

end GroupSegConfig

/-- The allocation covers the batch: it gives out no more numbers than are dispatched and than the
tables hold, and every block is visited by one worker that is dispatched. -/
structure CoversBatch (cfg : GroupSegConfig) (faults : List Nat) : Prop where
  assigned_le_active : cfg.totalWorkersDispatched faults ≤ cfg.numActive faults.length
  assigned_le_tables : cfg.totalWorkersDispatched faults ≤ uvmKthreadMaxWorkers
  visited : ∀ idx < faults.length,
    ∃! id, id < cfg.numActive faults.length ∧ idx ∈ cfg.visitedBy faults id

/-! ## Segments -/

/-- The segments lie end to end, and none is empty. -/
theorem tiles_cutSegments {threshold maxSeg : Nat} {faults : List Nat}
    {blockIdx segFaults segStart numSegments : Nat} (hle : segStart ≤ blockIdx)
    (hend : faults = [] → segStart = blockIdx) :
    Tiles segStart (cutSegments threshold maxSeg faults blockIdx segFaults segStart numSegments)
        (blockIdx + faults.length) ∧
      ∀ seg ∈ cutSegments threshold maxSeg faults blockIdx segFaults segStart numSegments,
        0 < seg.2 := by
  induction faults generalizing blockIdx segFaults segStart numSegments with
  | nil => exact ⟨hend rfl, nofun⟩
  | cons numFaults rest ih =>
    have hlen : blockIdx + (numFaults :: rest).length = blockIdx + 1 + rest.length := by
      rw [List.length_cons]
      omega
    rw [cutSegments, hlen]
    dsimp only
    split
    -- the block closes its segment
    · split
      · refine ⟨⟨rfl, ?_⟩, ?_⟩
        · show segStart + (blockIdx + 1 - segStart + rest.length) = blockIdx + 1 + rest.length
          omega
        · intro seg hseg
          obtain rfl := List.mem_singleton.1 hseg
          show 0 < blockIdx + 1 - segStart + rest.length
          omega
      · have hnext : segStart + (blockIdx + 1 - segStart) = blockIdx + 1 := by omega
        obtain ⟨htiles, hpos⟩ := @ih (blockIdx + 1) 0 (segStart + (blockIdx + 1 - segStart))
          (numSegments + 1) (Nat.le_of_eq hnext) (fun _ => hnext)
        refine ⟨⟨rfl, htiles⟩, ?_⟩
        intro seg hseg
        rcases List.mem_cons.1 hseg with rfl | hseg
        · show 0 < blockIdx + 1 - segStart
          omega
        · exact hpos seg hseg
    · rename_i hopen
      -- a segment that stays open has blocks to come
      exact ih (Nat.le_succ_of_le hle) fun hrest => absurd (.inr hrest) hopen

theorem tiles_segments (cfg : GroupSegConfig) (faults : List Nat) :
    Tiles 0 (cfg.segments faults) faults.length ∧ ∀ seg ∈ cfg.segments faults, 0 < seg.2 := by
  have h := @tiles_cutSegments (cfg.mergeEffectiveSegmentThreshold faults.sum faults.length)
    cfg.maxSeg faults 0 0 0 0 (Nat.le_refl 0) (fun _ => rfl)
  rwa [Nat.zero_add] at h

/-! ## Shares -/

theorem clampWorkers_eq (segBlocks w : Nat) : clampWorkers segBlocks w = min segBlocks (max 1 w) := by
  unfold clampWorkers
  by_cases hw : w = 0
  · simp only [hw, if_true]
    split <;> omega
  · simp only [hw, if_false]
    split <;> omega

theorem clampWorkers_pos {segBlocks : Nat} (hpos : 0 < segBlocks) (w : Nat) :
    0 < clampWorkers segBlocks w := by
  rw [clampWorkers_eq]
  omega

theorem clampWorkers_idem {segBlocks : Nat} (hpos : 0 < segBlocks) (w : Nat) :
    clampWorkers segBlocks (clampWorkers segBlocks w) = clampWorkers segBlocks w := by
  simp only [clampWorkers_eq]
  omega

theorem u32Sub_of_le {a b : Nat} (ha : a < 2 ^ 32) (hb : b ≤ a) : u32Sub a b = a - b := by
  unfold u32Sub
  omega

theorem length_allocateWorkers (total items : Nat) (segs : List (Nat × Nat)) (assigned : Nat) :
    (allocateWorkers total items segs assigned).length = segs.length := by
  induction segs generalizing assigned with
  | nil => rfl
  | cons seg segs ih => exact congrArg (· + 1) (ih _)

theorem allocateWorkers_pos {total items : Nat} {segs : List (Nat × Nat)} {assigned : Nat}
    (hpos : ∀ seg ∈ segs, 0 < seg.2) : ∀ w ∈ allocateWorkers total items segs assigned, 0 < w := by
  induction segs generalizing assigned with
  | nil => exact nofun
  | cons seg segs ih =>
    intro w hw
    rcases List.mem_cons.1 hw with rfl | hw
    · exact clampWorkers_pos (hpos seg List.mem_cons_self) _
    · exact ih (fun s hs => hpos s (List.mem_cons_of_mem seg hs)) w hw

/-- Every segment gets its share and the last one at least one worker; it gets what is
left if anything is. -/
theorem sum_allocateWorkers {total items : Nat} (htotal : total < 2 ^ 32) {segs : List (Nat × Nat)}
    (hne : segs ≠ []) (hpos : ∀ seg ∈ segs, 0 < seg.2) (assigned : Nat) :
    ∃ w, 0 < w ∧
      (allocateWorkers total items segs assigned).sum =
        (segs.dropLast.map fun seg => workerShare total items seg.2).sum + w ∧
      (assigned + (segs.dropLast.map fun seg => workerShare total items seg.2).sum < total →
        w ≤ total - (assigned + (segs.dropLast.map fun seg => workerShare total items seg.2).sum)) := by
  induction segs generalizing assigned with
  | nil => exact absurd rfl hne
  | cons seg segs ih =>
    have hseg := hpos seg List.mem_cons_self
    cases segs with
    | nil =>
      -- the last segment takes the unsigned difference
      have hone : (allocateWorkers total items [seg] assigned).sum =
          clampWorkers seg.2 (u32Sub total assigned) := by
        simp [allocateWorkers]
      refine ⟨_, clampWorkers_pos hseg (u32Sub total assigned), ?_, ?_⟩
      · rw [hone, List.dropLast_singleton, List.map_nil, List.sum_nil, Nat.zero_add]
      intro hlt
      simp only [List.dropLast_singleton, List.map_nil, List.sum_nil] at hlt ⊢
      rw [clampWorkers_eq, u32Sub_of_le htotal (by omega)]
      omega
    | cons next segs =>
      obtain ⟨w, hw, hsum, hle⟩ := ih (List.cons_ne_nil next segs)
        (fun s hs => hpos s (List.mem_cons_of_mem seg hs))
        (assigned + workerShare total items seg.2)
      have hshare : clampWorkers seg.2 (workerShare total items seg.2) =
          workerShare total items seg.2 := clampWorkers_idem hseg _
      refine ⟨w, hw, ?_, ?_⟩
      · rw [allocateWorkers]
        simp only [reduceCtorEq, if_false, List.sum_cons, hshare, hsum, List.dropLast_cons_cons,
          List.map_cons, Nat.add_assoc]
      · intro hlt
        simp only [List.dropLast_cons_cons, List.map_cons, List.sum_cons] at hlt ⊢
        rw [← Nat.add_assoc] at hlt ⊢
        exact hle hlt

/-! ## Numbers and lanes -/

theorem map_workerTable (front parts : List ((Nat × Nat) × Nat)) :
    (workerTable front.length (parts.map Prod.snd)).map (segmentLane (front ++ parts)) =
      splitLanes parts := by
  induction parts generalizing front with
  | nil => rfl
  | cons part parts ih =>
    have hrest := ih (front ++ [part])
    rw [List.append_assoc, List.singleton_append, List.length_append, List.length_singleton] at hrest
    have hlane : ∀ localId, segmentLane (front ++ part :: parts) (front.length, localId) =
        ⟨part.1.1 + localId, part.1.1 + part.1.2, part.2⟩ := by
      intro localId
      simp [segmentLane, List.getD_eq_getElem?_getD]
    rw [List.map_cons, workerTable, List.map_append, hrest, List.map_map]
    simp only [Function.comp_def, hlane]
    rfl

section Lanes

variable (cfg : GroupSegConfig) (faults : List Nat)

theorem length_workersPerSeg : (cfg.segments faults).length = (cfg.workersPerSeg faults).length :=
  (length_allocateWorkers ..).symm

theorem map_snd_parts : (cfg.parts faults).map Prod.snd = cfg.workersPerSeg faults :=
  List.map_snd_zip (Nat.le_of_eq (length_workersPerSeg cfg faults).symm)

theorem map_fst_parts : (cfg.parts faults).map Prod.fst = cfg.segments faults :=
  List.map_fst_zip (Nat.le_of_eq (length_workersPerSeg cfg faults))

theorem length_lanes : (splitLanes (cfg.parts faults)).length = cfg.totalWorkersDispatched faults := by
  rw [length_splitLanes, map_snd_parts]
  rfl

theorem mem_visitedBy {idx id : Nat} : idx ∈ cfg.visitedBy faults id ↔
    id < cfg.numActive faults.length ∧ TakenBy (splitLanes (cfg.parts faults)) idx id := by
  have hmap := map_workerTable [] (cfg.parts faults)
  rw [map_snd_parts, List.length_nil, List.nil_append] at hmap
  have hlen : (workerTable 0 (cfg.workersPerSeg faults)).length =
      cfg.totalWorkersDispatched faults := by
    rw [← length_lanes, ← hmap, List.length_map]
  unfold GroupSegConfig.visitedBy
  split
  · rename_i hid
    obtain ⟨entry, hentry⟩ : ∃ entry, (workerTable 0 (cfg.workersPerSeg faults))[id]? = some entry :=
      ⟨_, List.getElem?_eq_getElem (hlen ▸ hid.2)⟩
    have hlane : (splitLanes (cfg.parts faults))[id]? =
        some (segmentLane (cfg.parts faults) entry) := by
      rw [← hmap, List.getElem?_map, hentry]
      rfl
    rw [List.getD_eq_getElem?_getD, hentry]
    constructor
    · intro hmem
      exact ⟨hid.1, _, hlane, hmem⟩
    · rintro ⟨-, lane, hlane', hmem⟩
      rw [hlane] at hlane'
      obtain rfl := Option.some.inj hlane'
      exact hmem
  · rename_i hid
    refine ⟨nofun, fun h => absurd ⟨h.1, ?_⟩ hid⟩
    rw [← length_lanes]
    exact h.2.lt_length

theorem existsUnique_lane {idx : Nat} (hidx : idx < faults.length) :
    ∃! id, TakenBy (splitLanes (cfg.parts faults)) idx id := by
  obtain ⟨htiles, hpos⟩ := tiles_segments cfg faults
  apply existsUnique_takenBy_splitLanes ?_ ?_ (Nat.zero_le idx) hidx
  · rw [map_fst_parts]
    exact htiles
  · intro part hpart
    exact allocateWorkers_pos hpos part.2 (List.of_mem_zip hpart).2

end Lanes

/-! ## Main result -/

theorem coversBatch_iff (cfg : GroupSegConfig) (faults : List Nat) :
    CoversBatch cfg faults ↔ cfg.totalWorkersDispatched faults ≤ cfg.numActive faults.length := by
  refine ⟨fun h => h.assigned_le_active, fun hle => ⟨hle, ?_, fun idx hidx => ?_⟩⟩
  · have hworkers := cfg.numWorkers_le
    have hactive : cfg.numActive faults.length ≤ cfg.numWorkers := by
      unfold PoolConfig.numActive PoolConfig.maxActive
      split <;> omega
    omega
  · obtain ⟨id, hid, honly⟩ := existsUnique_lane cfg faults hidx
    have hlt := hid.lt_length
    rw [length_lanes] at hlt
    have hactive : id < cfg.numActive faults.length := by omega
    refine ⟨id, ⟨hactive, (mem_visitedBy cfg faults).2 ⟨hactive, hid⟩⟩, fun id' hid' => ?_⟩
    exact honly id' ((mem_visitedBy cfg faults).1 hid'.2).2

/-- For every batch, pool and setting of the parameters: the allocation covers the batch if and
only if the shares of the segments before the last one leave a worker for it. -/
theorem group_segments_cover_iff (cfg : GroupSegConfig) (faults : List Nat) :
    CoversBatch cfg faults ↔
      faults = [] ∨
        ((cfg.segments faults).dropLast.map fun seg =>
          workerShare (cfg.totalWorkers faults) faults.length seg.2).sum <
            cfg.numActive faults.length := by
  rw [coversBatch_iff]
  by_cases hfaults : faults = []
  · subst hfaults
    exact iff_of_true (Nat.zero_le _) (.inl rfl)
  · obtain ⟨htiles, hpos⟩ := tiles_segments cfg faults
    have hne : cfg.segments faults ≠ [] := by
      intro hnil
      rw [hnil] at htiles
      have hlen : 0 = faults.length := htiles
      exact hfaults (List.length_eq_zero_iff.1 hlen.symm)
    have hsmall : cfg.totalWorkers faults < 2 ^ 32 := by
      have hworkers : cfg.numWorkers ≤ 32 := cfg.numWorkers_le
      unfold GroupSegConfig.totalWorkers PoolConfig.numActive PoolConfig.maxActive
      split <;> omega
    obtain ⟨w, hw, hsum, hle⟩ := @sum_allocateWorkers _ faults.length hsmall _ hne hpos 0
    have htotal : cfg.totalWorkersDispatched faults =
        ((cfg.segments faults).dropLast.map fun seg =>
          workerShare (cfg.totalWorkers faults) faults.length seg.2).sum + w := hsum
    have hactive : cfg.totalWorkers faults = cfg.numActive faults.length := rfl
    rw [htotal]
    simp only [hfaults, false_or]
    omega

def threeWorkers : GroupSegConfig where
  numWorkers := 3
  numWorkers_le := by decide
  segmentSize := 4

/-- Four blocks of one fault and two of four: segments of four, one and one block. The first gets
two workers of three, the second one, and the last one that is not there. -/
theorem last_block_not_visited :
    threeWorkers.segments [1, 1, 1, 1, 4, 4] = [(0, 4), (4, 1), (5, 1)] ∧
      threeWorkers.workersPerSeg [1, 1, 1, 1, 4, 4] = [2, 1, 1] ∧
      threeWorkers.numActive 6 = 3 ∧
      (∀ id < 3, 5 ∉ threeWorkers.visitedBy [1, 1, 1, 1, 4, 4] id) ∧
      ¬ CoversBatch threeWorkers [1, 1, 1, 1, 4, 4] := by
  refine ⟨by decide, by decide, by decide, by decide, fun h => ?_⟩
  exact absurd h.assigned_le_active (by decide)

end FaultMesh
