import FaultMesh.Lib.Chunks
import FaultMesh.GroupSegments

/-!
# Segments for the pushes

Before it dispatches a batch in the dynamic, the group-segment-parallel or the segment-parallel
mode, `uvm_kthread_dispatch_and_wait` cuts the groups into segments, at most as many as there are
pairs of pushes. The dynamic mode writes the number of its segment down for every block, the other
two write start and length of every segment; the loops are written out three times.

All of them cut the batch into the same chunks: a segment is closed when its faults reach the
threshold, and the last one that is allowed takes the rest. Fault counts are natural numbers here:
their sum is the number of faults of the batch, which is an `NvU32` itself.
-/

namespace FaultMesh

/-- The pool and the module parameters that the loops read. -/
structure SegmentConfig extends GroupSegConfig where
  /-- `uvm_kthread_pool_create` sees to it. -/
  numWorkers_pos : 0 < numWorkers
  heavyBlockBypass : Bool := false
  heavyBlockMinFaults : Nat := 16
  heavyBlockMinPct : Nat := 50

/-- The number of workers that are started, on a machine with `otherCpus + 1` processors. -/
def workersStarted (numWorkers otherCpus : Nat) : Nat :=
  if min numWorkers uvmKthreadMaxWorkers = 0 then min (otherCpus + 1) uvmKthreadMaxWorkers
  else min numWorkers uvmKthreadMaxWorkers

theorem workersStarted_le (numWorkers otherCpus : Nat) :
    workersStarted numWorkers otherCpus ≤ uvmKthreadMaxWorkers := by
  unfold workersStarted
  split <;> exact Nat.min_le_right ..

theorem workersStarted_pos (numWorkers otherCpus : Nat) : 0 < workersStarted numWorkers otherCpus := by
  unfold workersStarted
  split
  · exact Nat.lt_min.2 ⟨Nat.succ_pos otherCpus, by decide⟩
  · exact Nat.pos_of_ne_zero ‹_›

/-- The pool of `uvm_kthread_pool_create`, with the default parameters. -/
def uvmKthreadPoolCreate (numWorkers otherCpus : Nat) : SegmentConfig where
  numWorkers := workersStarted numWorkers otherCpus
  numWorkers_le := workersStarted_le numWorkers otherCpus
  numWorkers_pos := workersStarted_pos numWorkers otherCpus

/-! ## The loops -/

def SegmentConfig.mergeBlockIsHeavy (cfg : SegmentConfig) (batchTotalFaults numFaults : Nat) : Bool :=
  if !cfg.heavyBlockBypass || batchTotalFaults = 0 then false
  else if numFaults < cfg.heavyBlockMinFaults then false
  else cfg.heavyBlockMinPct * batchTotalFaults ≤ numFaults * 100

/-- What the dynamic mode writes down. -/
structure DynamicSegments where
  /-- `block_seg_id` of the blocks in order. -/
  blockSegId : List Nat
  mergedBlocksPerSeg : Nat → Nat
  numSegments : Nat

/-- Count a block for a segment, unless it is heavy. -/
def countMerged (isHeavy : Nat → Bool) (merged : Nat → Nat) (seg numFaults : Nat) : Nat → Nat :=
  if isHeavy numFaults then merged else Function.update merged seg (merged seg + 1)

/-- Phase 1 of the dynamic mode, for the blocks still to come. -/
def dynamicLoop (isHeavy : Nat → Bool) (threshold maxSeg : Nat) :
    List Nat → (segFaults curSeg : Nat) → (Nat → Nat) → DynamicSegments
  | [], _, curSeg, merged => ⟨[], merged, curSeg⟩
  | numFaults :: rest, segFaults, curSeg, merged =>
    let merged := countMerged isHeavy merged curSeg numFaults
    let segFaults := segFaults + numFaults
    if threshold ≤ segFaults ∨ rest = [] then
      if maxSeg ≤ curSeg + 1 ∧ rest ≠ [] then
        -- no more segments: the rest goes into this one
        ⟨curSeg :: rest.map fun _ => curSeg,
          rest.foldl (fun merged numFaults => countMerged isHeavy merged curSeg numFaults) merged,
          curSeg + 1⟩
      else
        let later := dynamicLoop isHeavy threshold maxSeg rest 0 (curSeg + 1) merged
        { later with blockSegId := curSeg :: later.blockSegId }
    else
      let later := dynamicLoop isHeavy threshold maxSeg rest segFaults curSeg merged
      { later with blockSegId := curSeg :: later.blockSegId }

namespace SegmentConfig

variable (cfg : SegmentConfig) (threshold : Nat) (faults : List Nat)

def dynamicMaxSeg : Nat := min uvmKthreadMaxWorkers (max 1 cfg.maxSegments)

def isHeavy : Nat → Bool := cfg.mergeBlockIsHeavy faults.sum

/-- The segments of the dynamic mode for a cap. -/
def dynamicSegmentsFor (maxSeg : Nat) : DynamicSegments :=
  dynamicLoop (cfg.isHeavy faults) threshold maxSeg faults 0 0 fun _ => 0

def dynamicSegments : DynamicSegments := cfg.dynamicSegmentsFor threshold faults cfg.dynamicMaxSeg

/-- `seg_start` and `seg_count` for a cap, in the loop of the group-segment-parallel mode; the
segment-parallel mode has the same loop. -/
def segmentsFor (maxSeg : Nat) : List (Nat × Nat) := cutSegments threshold maxSeg faults 0 0 0 0

def groupSegments : List (Nat × Nat) := segmentsFor threshold faults cfg.maxSeg

def legacySegments : List (Nat × Nat) := segmentsFor threshold faults cfg.maxSeg

/-- `merged_blocks_per_seg` of the group-segment-parallel mode. -/
def groupMergedBlocks : List Nat :=
  (cfg.groupSegments threshold faults).map fun seg =>
    (List.range' seg.1 seg.2).countP fun j => !cfg.isHeavy faults (faults.getD j 0)

end SegmentConfig

/-- The blocks of a segment by their labels. -/
def blocksOf (blockSegId faults : List Nat) (seg : Nat) : List Nat :=
  ((faults.zip blockSegId).filter fun b => b.2 = seg).map Prod.fst

def blocksAt (faults : List Nat) (seg : Nat × Nat) : List Nat := (faults.drop seg.1).take seg.2

/-- The labels that segments given by start and length stand for. -/
def segmentIds (segs : List (Nat × Nat)) : List Nat :=
  segs.zipIdx.flatMap fun seg => List.replicate seg.1.2 seg.2

/-- What the segments of a batch have to fulfil. -/
structure SegmentationSound (cfg : SegmentConfig) (threshold : Nat) (faults : List Nat) : Prop where
  dynamic_length : (cfg.dynamicSegments threshold faults).blockSegId.length = faults.length
  dynamic_first : (cfg.dynamicSegments threshold faults).blockSegId.head? = some 0
  dynamic_steps :
    (cfg.dynamicSegments threshold faults).blockSegId.IsChain fun a b => b = a ∨ b = a + 1
  dynamic_ids : ∀ seg, seg ∈ (cfg.dynamicSegments threshold faults).blockSegId ↔
    seg < (cfg.dynamicSegments threshold faults).numSegments
  group_tiles : Tiles 0 (cfg.groupSegments threshold faults) faults.length
  group_pos : ∀ seg ∈ cfg.groupSegments threshold faults, 0 < seg.2
  legacy_tiles : Tiles 0 (cfg.legacySegments threshold faults) faults.length
  legacy_pos : ∀ seg ∈ cfg.legacySegments threshold faults, 0 < seg.2
  /-- For equal caps the boundaries are the same. -/
  same_boundaries : ∀ maxSeg,
    (cfg.dynamicSegmentsFor threshold faults maxSeg).blockSegId =
        segmentIds (SegmentConfig.segmentsFor threshold faults maxSeg) ∧
      (cfg.dynamicSegmentsFor threshold faults maxSeg).numSegments =
        (SegmentConfig.segmentsFor threshold faults maxSeg).length
  dynamic_full : ∀ seg, seg + 1 < (cfg.dynamicSegments threshold faults).numSegments →
    threshold ≤ (blocksOf (cfg.dynamicSegments threshold faults).blockSegId faults seg).sum
  group_full : ∀ seg ∈ (cfg.groupSegments threshold faults).dropLast,
    threshold ≤ (blocksAt faults seg).sum
  legacy_full : ∀ seg ∈ (cfg.legacySegments threshold faults).dropLast,
    threshold ≤ (blocksAt faults seg).sum
  dynamic_cap : (cfg.dynamicSegments threshold faults).numSegments ≤ cfg.dynamicMaxSeg
  dynamic_cap_le : cfg.dynamicMaxSeg ≤ uvmKthreadMaxWorkers
  group_cap : (cfg.groupSegments threshold faults).length ≤ cfg.maxSeg
  legacy_cap : (cfg.legacySegments threshold faults).length ≤ cfg.maxSeg
  cap_le : cfg.maxSeg ≤ uvmKthreadMaxWorkers
  dynamic_merged : ∀ seg < (cfg.dynamicSegments threshold faults).numSegments,
    (cfg.dynamicSegments threshold faults).mergedBlocksPerSeg seg =
      (blocksOf (cfg.dynamicSegments threshold faults).blockSegId faults seg).countP
        fun numFaults => !cfg.isHeavy faults numFaults
  group_merged : cfg.groupMergedBlocks threshold faults =
    (cfg.groupSegments threshold faults).map fun seg =>
      (blocksAt faults seg).countP fun numFaults => !cfg.isHeavy faults numFaults
  /-- Every segment has a worker that looks for it. -/
  legacy_dispatched : ∀ seg < (cfg.legacySegments threshold faults).length,
    seg < cfg.numActive faults.length

/-! ## The loops cut the same chunks -/

def faultChunks (threshold maxSeg : Nat) (faults : List Nat) : List (List Nat) :=
  cappedChunks id threshold maxSeg faults [] 0

theorem chunkWeight_id (chunk : List Nat) : chunkWeight id chunk = chunk.sum := by
  simp [chunkWeight]

theorem cutSegments_eq_spans (threshold maxSeg : Nat) (rest cur : List Nat)
    (segStart numSegments : Nat) :
    cutSegments threshold maxSeg rest (segStart + cur.length) cur.sum segStart numSegments =
      spans segStart (cappedChunks id threshold maxSeg rest cur numSegments) := by
  induction rest generalizing cur segStart numSegments with
  | nil => rfl
  | cons numFaults rest ih =>
    have hsum : cur.sum + numFaults = (cur ++ [numFaults]).sum := by simp
    have hlen : segStart + cur.length + 1 = segStart + (cur ++ [numFaults]).length := by
      simp [Nat.add_assoc]
    have hcount : segStart + cur.length + 1 - segStart = (cur ++ [numFaults]).length := by
      rw [hlen, Nat.add_sub_cancel_left]
    simp only [cutSegments, cappedChunks, chunkWeight_id, hsum, hcount]
    split
    · split
      · simp only [spans, List.length_append, List.length_cons, List.length_nil]
        rw [Nat.add_assoc, Nat.add_comm 1]
      -- a new segment begins with nothing in it
      · have hnext := ih [] (segStart + (cur ++ [numFaults]).length) (numSegments + 1)
        rw [List.length_nil, Nat.add_zero, List.sum_nil] at hnext
        rw [hlen, hnext]
        rfl
    · rw [hlen]
      exact ih (cur ++ [numFaults]) segStart numSegments

theorem segmentsFor_eq (threshold : Nat) (faults : List Nat) (maxSeg : Nat) :
    SegmentConfig.segmentsFor threshold faults maxSeg =
      spans 0 (faultChunks threshold maxSeg faults) :=
  cutSegments_eq_spans threshold maxSeg faults [] 0 0

theorem countMerged_self (isHeavy : Nat → Bool) (merged : Nat → Nat) (seg numFaults : Nat) :
    countMerged isHeavy merged seg numFaults seg =
      merged seg + [numFaults].countP fun n => !isHeavy n := by
  cases h : isHeavy numFaults <;> simp [countMerged, h]

theorem countMerged_of_ne (isHeavy : Nat → Bool) (merged : Nat → Nat) {seg other : Nat}
    (hne : other ≠ seg) (numFaults : Nat) :
    countMerged isHeavy merged seg numFaults other = merged other := by
  cases h : isHeavy numFaults <;> simp [countMerged, h, hne]

theorem foldl_countMerged (isHeavy : Nat → Bool) (merged : Nat → Nat) (seg : Nat)
    (rest : List Nat) :
    rest.foldl (fun merged numFaults => countMerged isHeavy merged seg numFaults) merged seg =
        merged seg + rest.countP (fun n => !isHeavy n) ∧
      ∀ other ≠ seg,
        rest.foldl (fun merged numFaults => countMerged isHeavy merged seg numFaults) merged other =
          merged other := by
  induction rest generalizing merged with
  | nil => exact ⟨rfl, fun _ _ => rfl⟩
  | cons numFaults rest ih =>
    obtain ⟨hself, hother⟩ := ih (countMerged isHeavy merged seg numFaults)
    constructor
    · rw [List.foldl_cons, hself, countMerged_self, Nat.add_assoc, ← List.countP_append]
      rfl
    · intro other hne
      rw [List.foldl_cons, hother other hne, countMerged_of_ne isHeavy merged hne]

section DynamicLoop

variable (isHeavy : Nat → Bool) (threshold maxSeg : Nat)

/-- The dynamic loop labels the blocks with the numbers of their chunks. -/
theorem blockSegId_dynamicLoop {rest : List Nat} (hrest : rest ≠ []) (cur : List Nat) (curSeg : Nat)
    (merged : Nat → Nat) :
    List.replicate cur.length curSeg ++
        (dynamicLoop isHeavy threshold maxSeg rest cur.sum curSeg merged).blockSegId =
      labels curSeg (cappedChunks id threshold maxSeg rest cur curSeg) := by
  induction rest generalizing cur curSeg merged with
  | nil => exact absurd rfl hrest
  | cons numFaults rest ih =>
    have hsum : cur.sum + numFaults = (cur ++ [numFaults]).sum := by simp
    -- the label of the current chunk goes to its blocks
    have hlabel : ∀ ids : List Nat, List.replicate cur.length curSeg ++ curSeg :: ids =
        List.replicate (cur ++ [numFaults]).length curSeg ++ ids := by
      intro ids
      simp [List.replicate_succ']
    simp only [dynamicLoop, cappedChunks, chunkWeight_id, hsum]
    split
    · split
      -- the last segment takes the rest
      · have hlen : (cur ++ numFaults :: rest).length = (cur ++ [numFaults]).length + rest.length := by
          simp [Nat.add_assoc, Nat.add_comm 1]
        rw [hlabel, List.map_const', labels, labels, List.append_nil,
          List.replicate_append_replicate, hlen]
      · rw [hlabel, labels]
        apply congrArg
        cases rest with
        | nil => rfl
        | cons next rest => exact ih (List.cons_ne_nil next rest) [] (curSeg + 1) _
    · rename_i hgo
      rw [hlabel]
      exact ih (fun hnil => hgo (.inr hnil)) (cur ++ [numFaults]) curSeg _

theorem numSegments_dynamicLoop (rest cur : List Nat) (curSeg : Nat) (merged : Nat → Nat) :
    (dynamicLoop isHeavy threshold maxSeg rest cur.sum curSeg merged).numSegments =
      curSeg + (cappedChunks id threshold maxSeg rest cur curSeg).length := by
  induction rest generalizing cur curSeg merged with
  | nil => rfl
  | cons numFaults rest ih =>
    have hsum : cur.sum + numFaults = (cur ++ [numFaults]).sum := by simp
    simp only [dynamicLoop, cappedChunks, chunkWeight_id, hsum]
    split
    · split
      · rfl
      · have hlater := ih [] (curSeg + 1) (countMerged isHeavy merged curSeg numFaults)
        rw [List.sum_nil] at hlater
        rw [hlater, List.length_cons, Nat.add_assoc, Nat.add_comm 1]
    · exact ih (cur ++ [numFaults]) curSeg _

/-- Segments that are closed keep their counts. -/
theorem mergedBlocks_of_lt (rest : List Nat) (segFaults : Nat) {seg curSeg : Nat} (hlt : seg < curSeg)
    (merged : Nat → Nat) :
    (dynamicLoop isHeavy threshold maxSeg rest segFaults curSeg merged).mergedBlocksPerSeg seg =
      merged seg := by
  induction rest generalizing segFaults curSeg merged with
  | nil => rfl
  | cons numFaults rest ih =>
    have hkept := countMerged_of_ne isHeavy merged (Nat.ne_of_lt hlt) numFaults
    simp only [dynamicLoop]
    split
    · split
      · exact ((foldl_countMerged isHeavy _ curSeg rest).2 seg (Nat.ne_of_lt hlt)).trans hkept
      · rw [ih 0 (Nat.lt_succ_of_lt hlt), hkept]
    · rw [ih _ hlt, hkept]

/-- The counts are those of the blocks of the chunks that are not heavy. -/
theorem mergedBlocks_dynamicLoop (rest cur : List Nat) (curSeg : Nat) (merged : Nat → Nat)
    (hcur : merged curSeg = cur.countP fun n => !isHeavy n)
    (hnew : ∀ seg, curSeg < seg → merged seg = 0) {j : Nat} {chunk : List Nat}
    (hj : (cappedChunks id threshold maxSeg rest cur curSeg)[j]? = some chunk) :
    (dynamicLoop isHeavy threshold maxSeg rest cur.sum curSeg merged).mergedBlocksPerSeg (curSeg + j) =
      chunk.countP fun n => !isHeavy n := by
  induction rest generalizing cur curSeg merged j with
  | nil => simp [cappedChunks] at hj
  | cons numFaults rest ih =>
    have hsum : cur.sum + numFaults = (cur ++ [numFaults]).sum := by simp
    -- the block counts for the current segment
    have hcur' : countMerged isHeavy merged curSeg numFaults curSeg =
        (cur ++ [numFaults]).countP fun n => !isHeavy n := by
      rw [countMerged_self, hcur, List.countP_append]
    have hnew' : ∀ seg, curSeg < seg → countMerged isHeavy merged curSeg numFaults seg = 0 := by
      intro seg hlt
      rw [countMerged_of_ne isHeavy merged (Nat.ne_of_gt hlt), hnew seg hlt]
    simp only [dynamicLoop, cappedChunks, chunkWeight_id, hsum] at hj ⊢
    split at hj
    · rename_i hclose
      rw [if_pos hclose]
      split at hj
      · rename_i hlast
        rw [if_pos hlast]
        cases j with
        | zero =>
          obtain rfl := Option.some.inj hj
          apply ((foldl_countMerged isHeavy _ curSeg rest).1).trans
          rw [hcur', ← List.countP_append, List.append_assoc, List.singleton_append]
        | succ j => simp at hj
      · rename_i hmore
        rw [if_neg hmore]
        cases j with
        | zero =>
          obtain rfl := Option.some.inj hj
          exact (mergedBlocks_of_lt isHeavy threshold maxSeg rest 0
            (Nat.lt_succ_self curSeg) _).trans hcur'
        | succ j =>
          have hlater := ih [] (curSeg + 1) (countMerged isHeavy merged curSeg numFaults)
            (hnew' _ (Nat.lt_succ_self curSeg)) (fun seg hlt => hnew' seg (by omega)) hj
          rw [List.sum_nil, Nat.add_assoc, Nat.add_comm 1] at hlater
          exact hlater
    · rename_i hgo
      rw [if_neg hgo]
      exact ih (cur ++ [numFaults]) curSeg _ hcur' hnew' hj

end DynamicLoop

/-! ## Main result -/

theorem segmentIds_spans (chunks : List (List Nat)) (start k : Nat) :
    ((spans start chunks).zipIdx k).flatMap (fun seg => List.replicate seg.1.2 seg.2) =
      labels k chunks := by
  induction chunks generalizing start k with
  | nil => rfl
  | cons chunk chunks ih => simp [spans, labels, List.zipIdx_cons, ih]

theorem map_blocksAt {chunks : List (List Nat)} {faults : List Nat} (hflat : chunks.flatten = faults) :
    (spans 0 chunks).map (blocksAt faults) = chunks := by
  have hmap := map_spans id [] chunks
  rw [List.nil_append, hflat, List.length_nil, List.map_id] at hmap
  exact hmap

theorem countP_range' (test : Nat → Bool) (faults : List Nat) {start count : Nat}
    (hle : start + count ≤ faults.length) :
    (List.range' start count).countP (fun j => test (faults.getD j 0)) =
      ((faults.drop start).take count).countP test := by
  have hmap : (List.range' start count).map (fun j => faults.getD j 0) =
      (faults.drop start).take count := by
    apply List.ext_getElem
    · simp
      omega
    · intro i hi _
      have hlt : start + i < faults.length := by
        simp at hi
        omega
      simp [List.getD_eq_getElem?_getD, List.getElem?_eq_getElem hlt]
  rw [← hmap, List.countP_map]
  rfl

namespace SegmentConfig

variable (cfg : SegmentConfig)

theorem maxActive_pos : 0 < cfg.maxActive := by
  have hpos := cfg.numWorkers_pos
  unfold PoolConfig.maxActive
  split <;> omega

theorem maxActive_le : cfg.maxActive ≤ uvmKthreadMaxWorkers := by
  have hle := cfg.numWorkers_le
  unfold PoolConfig.maxActive
  split <;> omega

theorem maxSeg_pos : 0 < cfg.maxSeg := by
  have hpos := cfg.maxActive_pos
  unfold GroupSegConfig.maxSeg
  omega

theorem dynamicMaxSeg_pos : 0 < cfg.dynamicMaxSeg := by
  unfold dynamicMaxSeg uvmKthreadMaxWorkers
  omega

end SegmentConfig

section Sound

variable (cfg : SegmentConfig) (threshold : Nat) {faults : List Nat} (hne : faults ≠ [])
include hne

theorem flatten_faultChunks (maxSeg : Nat) : (faultChunks threshold maxSeg faults).flatten = faults :=
  flatten_cappedChunks hne [] 0

theorem faultChunks_ne_nil (maxSeg : Nat) : faultChunks threshold maxSeg faults ≠ [] := by
  intro hnil
  have hflat := flatten_faultChunks threshold hne maxSeg
  rw [hnil] at hflat
  exact hne hflat.symm

omit hne in
theorem ne_nil_of_mem_faultChunks (maxSeg : Nat) :
    ∀ chunk ∈ faultChunks threshold maxSeg faults, chunk ≠ [] :=
  fun _ => ne_nil_of_mem_cappedChunks

theorem blockSegId_eq (maxSeg : Nat) :
    (cfg.dynamicSegmentsFor threshold faults maxSeg).blockSegId =
      labels 0 (faultChunks threshold maxSeg faults) :=
  blockSegId_dynamicLoop (cfg.isHeavy faults) threshold maxSeg hne [] 0 _

theorem blocksOf_eq {maxSeg seg : Nat} {chunk : List Nat}
    (hchunk : (faultChunks threshold maxSeg faults)[seg]? = some chunk) :
    blocksOf (cfg.dynamicSegmentsFor threshold faults maxSeg).blockSegId faults seg = chunk := by
  have hzip := zip_labels_filter (k := 0) hchunk
  rw [Nat.zero_add, flatten_faultChunks threshold hne] at hzip
  rw [blocksOf, blockSegId_eq cfg threshold hne]
  exact hzip

theorem tiles_segmentsFor (maxSeg : Nat) :
    Tiles 0 (SegmentConfig.segmentsFor threshold faults maxSeg) faults.length := by
  have htiles := tiles_spans 0 (faultChunks threshold maxSeg faults)
  rw [Nat.zero_add, flatten_faultChunks threshold hne] at htiles
  rw [segmentsFor_eq]
  exact htiles

omit hne in
theorem numSegments_eq (maxSeg : Nat) :
    (cfg.dynamicSegmentsFor threshold faults maxSeg).numSegments =
      (faultChunks threshold maxSeg faults).length := by
  have hnum := numSegments_dynamicLoop (cfg.isHeavy faults) threshold maxSeg faults [] 0 fun _ => 0
  rwa [Nat.zero_add] at hnum

theorem mem_blockSegId {seg : Nat} :
    seg ∈ (cfg.dynamicSegments threshold faults).blockSegId ↔
      seg < (cfg.dynamicSegments threshold faults).numSegments := by
  rw [SegmentConfig.dynamicSegments, blockSegId_eq cfg threshold hne, numSegments_eq,
    mem_labels (ne_nil_of_mem_faultChunks threshold _)]
  omega

theorem mergedBlocksPerSeg_eq {seg : Nat}
    (hlt : seg < (cfg.dynamicSegments threshold faults).numSegments) :
    (cfg.dynamicSegments threshold faults).mergedBlocksPerSeg seg =
      (blocksOf (cfg.dynamicSegments threshold faults).blockSegId faults seg).countP
        fun numFaults => !cfg.isHeavy faults numFaults := by
  rw [SegmentConfig.dynamicSegments, numSegments_eq] at hlt
  obtain ⟨chunk, hchunk⟩ : ∃ chunk, (faultChunks threshold cfg.dynamicMaxSeg faults)[seg]? =
      some chunk := ⟨_, List.getElem?_eq_getElem hlt⟩
  have hmerged := mergedBlocks_dynamicLoop (cfg.isHeavy faults) threshold cfg.dynamicMaxSeg faults
    [] 0 (fun _ => 0) rfl (fun _ _ => rfl) hchunk
  rw [Nat.zero_add] at hmerged
  rw [SegmentConfig.dynamicSegments, blocksOf_eq cfg threshold hne hchunk]
  exact hmerged

omit hne in
theorem pos_of_mem_segmentsFor {maxSeg : Nat} {seg : Nat × Nat}
    (hseg : seg ∈ SegmentConfig.segmentsFor threshold faults maxSeg) : 0 < seg.2 := by
  rw [segmentsFor_eq] at hseg
  exact pos_of_mem_spans (ne_nil_of_mem_faultChunks threshold _) hseg

theorem le_sum_blocksAt {maxSeg : Nat} {seg : Nat × Nat}
    (hseg : seg ∈ (SegmentConfig.segmentsFor threshold faults maxSeg).dropLast) :
    threshold ≤ (blocksAt faults seg).sum := by
  have hmem : blocksAt faults seg ∈ (faultChunks threshold maxSeg faults).dropLast := by
    rw [← map_blocksAt (flatten_faultChunks threshold hne maxSeg), ← segmentsFor_eq,
      ← List.map_dropLast]
    exact List.mem_map_of_mem hseg
  rw [← chunkWeight_id]
  exact le_weight_of_mem_dropLast_cappedChunks hmem

omit hne in
theorem length_segmentsFor_le {maxSeg : Nat} (hpos : 0 < maxSeg) :
    (SegmentConfig.segmentsFor threshold faults maxSeg).length ≤ maxSeg := by
  have hle : 0 + (faultChunks threshold maxSeg faults).length ≤ maxSeg := length_cappedChunks_le hpos
  rw [segmentsFor_eq, length_spans]
  omega

theorem length_segmentsFor_le_length (maxSeg : Nat) :
    (SegmentConfig.segmentsFor threshold faults maxSeg).length ≤ faults.length := by
  have hgrow : ∀ {lo hi : Nat} {segs : List (Nat × Nat)}, Tiles lo segs hi →
      (∀ seg ∈ segs, 0 < seg.2) → lo + segs.length ≤ hi := by
    intro lo hi segs htiles hpos
    induction segs generalizing lo with
    | nil => exact Nat.le_of_eq htiles
    | cons seg segs ih =>
      have hhere := hpos seg List.mem_cons_self
      have hrest := ih htiles.2 fun s hs => hpos s (List.mem_cons_of_mem seg hs)
      rw [List.length_cons]
      omega
  have hle := hgrow (tiles_segmentsFor threshold hne maxSeg)
    fun seg hseg => pos_of_mem_segmentsFor threshold hseg
  omega

end Sound

/-- For every batch with at least one group, every threshold and all settings: the three loops cut
the batch into consecutive segments, all but the last of them full, no more than the cap allows;
the labels and the counts belong to these segments, and every segment of the segment-parallel mode
has a worker. -/
theorem segmentation_sound (cfg : SegmentConfig) (threshold : Nat) (faults : List Nat)
    (hne : faults ≠ []) : SegmentationSound cfg threshold faults where
  dynamic_length := by
    rw [SegmentConfig.dynamicSegments, blockSegId_eq cfg threshold hne, length_labels,
      flatten_faultChunks threshold hne]
  dynamic_first := by
    rw [SegmentConfig.dynamicSegments, blockSegId_eq cfg threshold hne]
    exact head?_labels (ne_nil_of_mem_faultChunks threshold _) (faultChunks_ne_nil threshold hne _)
  dynamic_steps := by
    rw [SegmentConfig.dynamicSegments, blockSegId_eq cfg threshold hne]
    exact isChain_labels (ne_nil_of_mem_faultChunks threshold _)
  dynamic_ids := by
    intro seg
    exact mem_blockSegId cfg threshold hne
  group_tiles := tiles_segmentsFor threshold hne cfg.maxSeg
  group_pos := fun _ => pos_of_mem_segmentsFor threshold
  legacy_tiles := tiles_segmentsFor threshold hne cfg.maxSeg
  legacy_pos := fun _ => pos_of_mem_segmentsFor threshold
  same_boundaries := by
    intro maxSeg
    rw [blockSegId_eq cfg threshold hne, numSegments_eq, segmentsFor_eq, length_spans, segmentIds,
      segmentIds_spans]
    exact ⟨rfl, rfl⟩
  dynamic_full := by
    intro seg hlt
    rw [SegmentConfig.dynamicSegments, numSegments_eq] at hlt
    obtain ⟨chunk, hchunk⟩ : ∃ chunk, (faultChunks threshold cfg.dynamicMaxSeg faults)[seg]? =
        some chunk := ⟨_, List.getElem?_eq_getElem (Nat.lt_of_succ_lt hlt)⟩
    rw [SegmentConfig.dynamicSegments, blocksOf_eq cfg threshold hne hchunk, ← chunkWeight_id]
    have hkept : (faultChunks threshold cfg.dynamicMaxSeg faults).dropLast[seg]? = some chunk := by
      rw [List.getElem?_dropLast, if_pos (by omega)]
      exact hchunk
    exact le_weight_of_mem_dropLast_cappedChunks (List.mem_of_getElem? hkept)
  group_full := fun _ => le_sum_blocksAt threshold hne
  legacy_full := fun _ => le_sum_blocksAt threshold hne
  dynamic_cap := by
    have hle := @length_segmentsFor_le threshold faults _ cfg.dynamicMaxSeg_pos
    rw [segmentsFor_eq, length_spans] at hle
    rw [SegmentConfig.dynamicSegments, numSegments_eq]
    exact hle
  dynamic_cap_le := Nat.min_le_left _ _
  group_cap := length_segmentsFor_le threshold cfg.maxSeg_pos
  legacy_cap := length_segmentsFor_le threshold cfg.maxSeg_pos
  cap_le := Nat.le_trans (Nat.min_le_left _ _) cfg.maxActive_le
  dynamic_merged := fun _ => mergedBlocksPerSeg_eq cfg threshold hne
  group_merged := by
    apply List.map_congr_left
    intro seg hseg
    have hle := (tiles_segmentsFor threshold hne cfg.maxSeg).le_of_mem hseg
    exact countP_range' (fun numFaults => !cfg.isHeavy faults numFaults) faults hle
  legacy_dispatched := by
    intro seg hlt
    have hcap : (cfg.legacySegments threshold faults).length ≤ cfg.maxSeg :=
      length_segmentsFor_le threshold cfg.maxSeg_pos
    have hblocks : (cfg.legacySegments threshold faults).length ≤ faults.length :=
      length_segmentsFor_le_length threshold hne cfg.maxSeg
    have hactive : cfg.maxSeg ≤ cfg.maxActive := Nat.min_le_left _ _
    unfold PoolConfig.numActive
    omega

/-- Six workers, at most two segments. -/
def twoSegments : SegmentConfig :=
  { uvmKthreadPoolCreate 6 0 with maxSegments := 2, heavyBlockBypass := true }

/-- The second segment takes the rest, and its heavy block does not count. -/
theorem rest_in_last_segment :
    (twoSegments.dynamicSegments 4 [3, 1, 2, 40, 5]).blockSegId = [0, 0, 1, 1, 1] ∧
      twoSegments.groupSegments 4 [3, 1, 2, 40, 5] = [(0, 2), (2, 3)] ∧
      twoSegments.groupMergedBlocks 4 [3, 1, 2, 40, 5] = [2, 2] ∧
      SegmentationSound twoSegments 4 [3, 1, 2, 40, 5] :=
  ⟨by decide, by decide, by decide, segmentation_sound twoSegments 4 [3, 1, 2, 40, 5] (by decide)⟩

end FaultMesh
