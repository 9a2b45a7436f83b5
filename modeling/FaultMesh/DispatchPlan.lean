import FaultMesh.SegmentLoops

/-!
# The accesses of a dispatch

`uvm_kthread_dispatch_and_wait` has a branch for every mode: dynamic, group-segment-parallel,
segment-parallel, the whole batch at once, segments one after the other, and merge off. Each branch
opens pushes that the workers share, sets the batch up, starts the workers, waits, and ends the
pushes. What it does depends only on the groups, the module parameters, and the answers it gets:
whether `uvm_push_begin` succeeds and what the inner dispatches return. So for given answers a branch
is a list of accesses, made one after the other.

Left out are the fields that only concern waking workers up (`batch_ready`, `continuous`,
`persistent`), statistics and time.
-/

namespace FaultMesh

/-! ## Parameters and answers -/

/-- The module parameters that choose the mode. -/
structure ModeParams where
  mergeDispatch : Bool := false
  dynamicDispatch : Bool := false
  groupSegParallel : Bool := false
  segmentParallel : Bool := false
  segmentedDispatch : Bool := true
  pipelineOverlap : Bool := false
  continuousWorkers : Bool := false
  copyMapSplit : Bool := false
  deriving DecidableEq, Repr

/-- The branches of `uvm_kthread_dispatch_and_wait`. -/
inductive Branch where
  | dynamic
  | groupSeg
  | segParallel
  | whole
  | segmented
  | off
  deriving DecidableEq, Repr

def ModeParams.branch (ps : ModeParams) : Branch :=
  if ps.mergeDispatch && ps.dynamicDispatch then .dynamic
  else if ps.mergeDispatch && ps.groupSegParallel then .groupSeg
  else if ps.mergeDispatch && ps.segmentParallel then .segParallel
  else if ps.mergeDispatch && !ps.segmentedDispatch then .whole
  else if ps.mergeDispatch then .segmented
  else .off

inductive PushKind where
  | copy
  | map
  deriving DecidableEq, Repr

/-- What an inner dispatch returns. -/
inductive DispatchStatus where
  | ok
  | error
  /-- `NV_ERR_TIMEOUT`, when the wait expires. -/
  | timeout
  deriving DecidableEq, Repr

/-- The answers that a call gets. Pairs of pushes go by the number of their segment. -/
structure Answers where
  /-- Whether `uvm_push_begin` succeeds. -/
  pushOk : PushKind → Nat → Bool := fun _ _ => true
  /-- Whether it succeeds for the segment after this one, if it is asked ahead. -/
  nextOk : PushKind → Nat → Bool := fun _ _ => true
  /-- What the inner dispatch of a segment returns. -/
  status : Nat → DispatchStatus := fun _ => .ok

/-! ## Accesses -/

/-- One access of a coordinator inside `uvm_kthread_dispatch_and_wait`. -/
inductive Access where
  -- modes that are switched off and tables
  | clearDynamic
  | writeBlockSegs (blockSegId : List Nat)
  | clearSegParallel
  | writeSegs (segs : List (Nat × Nat))
  | writeWorkers (workersPerSeg : List Nat)
  -- pushes
  | pushBegin (kind : PushKind) (slot : Nat) (ok : Bool)
  | pushEnd (kind : PushKind) (slot : Nat)
  /-- `uvm_push_end` for the copy push, unless `copy_pushed_end` says that a worker did it. -/
  | pushEndUnlessClosed (slot : Nat)
  /-- `copy_done_counters` and `copy_pushed_end`. -/
  | resetCopyDone (slot mergedBlocks : Nat)
  -- the batch
  | resetCursor
  | writeGroups (start : Nat)
  | writeQueueBase (start : Nat)
  | writeMergeActive (slot : Nat)
  | setDynamic
  | setSegParallel
  /-- `merge_dispatch_active` and `merge_state.state`. -/
  | setMerge
  | clearMerge
  -- `dispatch_start_inner`
  | writeNumActive (numActive : Nat)
  | writeNumGroups (numGroups : Nat)
  | resetCounter
  | setRemaining (items : Nat)
  | reinitDone
  -- `dispatch_wait_inner`
  | wait
  | expire
  | collect (items : Nat)
  -- after the dispatch
  | unsetDynamic
  | unsetSegParallel
  | unsetMerge
  | restoreGroups

/-- `dispatch_start_inner`, or the same writes in `dispatch_continuous_next`. -/
def dispatchStartInner (cfg : PoolConfig) (items : Nat) : List Access :=
  [.writeNumActive (cfg.numActive items), .writeNumGroups items, .resetCounter, .setRemaining items,
    .reinitDone]

def dispatchWaitInner (items : Nat) : DispatchStatus → List Access
  | .timeout => [.expire]
  | _ => [.wait, .collect items]

def dispatchAndWaitInner (cfg : PoolConfig) (items : Nat) (status : DispatchStatus) : List Access :=
  dispatchStartInner cfg items ++ dispatchWaitInner items status

/-- Begin a pair of pushes; if the second one fails, the first one is ended. -/
def beginPair (slot : Nat) (copyOk mapOk : Bool) : List Access × Bool :=
  if !copyOk then ([.pushBegin .copy slot false], false)
  else if !mapOk then
    ([.pushBegin .copy slot true, .pushBegin .map slot false, .pushEnd .copy slot], false)
  else ([.pushBegin .copy slot true, .pushBegin .map slot true], true)

def endPair (slot : Nat) : List Access := [.pushEnd .copy slot, .pushEnd .map slot]

def endPairs (count : Nat) : List Access := (List.range count).flatMap endPair

/-- Begin the pairs from `i` on, `left` of them. If one fails, all are ended. -/
def beginPairs (pushOk : PushKind → Nat → Bool) : (i left : Nat) → List Access × Bool
  | _, 0 => ([], true)
  | i, left + 1 =>
    let pair := beginPair i (pushOk .copy i) (pushOk .map i)
    if pair.2 then
      let later := beginPairs pushOk (i + 1) left
      (pair.1 ++ later.1, later.2)
    else (pair.1 ++ endPairs i, false)

/-- End the pairs of the segments; the copy push of a segment that takes part in the split may be
ended already. -/
def closePairs (split : Nat → Bool) (count : Nat) : List Access :=
  (List.range count).flatMap fun slot =>
    [if split slot then .pushEndUnlessClosed slot else .pushEnd .copy slot, .pushEnd .map slot]

/-- Counters for the segments that take part in the split. -/
def resetCopyDones (copyMapSplit : Bool) (mergedBlocks : Nat → Nat) (count : Nat) : List Access :=
  if copyMapSplit then (List.range count).map fun slot => .resetCopyDone slot (mergedBlocks slot)
  else []

/-! ## Modes with segments cut beforehand -/

section Branches

variable (cfg : SegmentConfig) (ps : ModeParams) (ans : Answers) (faults : List Nat)

def SegmentConfig.segFaultThreshold : Nat :=
  cfg.mergeEffectiveSegmentThreshold faults.sum faults.length

def dynamicPlan : List Access :=
  let segs := cfg.dynamicSegments (cfg.segFaultThreshold faults) faults
  let pairs := beginPairs ans.pushOk 0 segs.numSegments
  [.clearDynamic, .writeBlockSegs segs.blockSegId] ++ pairs.1 ++
    if pairs.2 then
      resetCopyDones ps.copyMapSplit segs.mergedBlocksPerSeg segs.numSegments ++
        [.resetCursor, .writeGroups 0, .writeQueueBase 0, .setDynamic, .setMerge] ++
        dispatchAndWaitInner cfg.toPoolConfig faults.length (ans.status 0) ++
        closePairs (fun slot => ps.copyMapSplit && decide (0 < segs.mergedBlocksPerSeg slot))
          segs.numSegments ++
        [.unsetDynamic, .unsetMerge]
    -- without pushes: a regular dispatch
    else .clearDynamic :: dispatchAndWaitInner cfg.toPoolConfig faults.length (ans.status 0)

def segCopySplitSafe (segs : List (Nat × Nat)) (mergedBlocks : List Nat) (slot : Nat) : Bool :=
  decide (0 < mergedBlocks.getD slot 0) && mergedBlocks.getD slot 0 == (segs.getD slot (0, 0)).2

def groupSegPlan : List Access :=
  let segs := cfg.segments faults
  let merged := cfg.groupMergedBlocks (cfg.segFaultThreshold faults) faults
  let pairs := beginPairs ans.pushOk 0 segs.length
  [.clearSegParallel, .writeSegs segs, .writeWorkers (cfg.workersPerSeg faults)] ++ pairs.1 ++
    if pairs.2 then
      resetCopyDones ps.copyMapSplit
          (fun slot => if segCopySplitSafe segs merged slot then merged.getD slot 0 else 0)
          segs.length ++
        [.writeGroups 0, .writeQueueBase 0, .setSegParallel, .setMerge] ++
        dispatchAndWaitInner cfg.toPoolConfig faults.length (ans.status 0) ++
        closePairs (fun slot => ps.copyMapSplit && segCopySplitSafe segs merged slot) segs.length ++
        [.unsetSegParallel, .unsetMerge]
    else .clearSegParallel :: dispatchAndWaitInner cfg.toPoolConfig faults.length (ans.status 0)

def segParallelPlan : List Access :=
  let segs := cfg.segments faults
  let pairs := beginPairs ans.pushOk 0 segs.length
  [.clearSegParallel, .writeSegs segs] ++ pairs.1 ++
    if pairs.2 then
      [.writeGroups 0, .writeQueueBase 0, .setSegParallel, .setMerge] ++
        dispatchAndWaitInner cfg.toPoolConfig faults.length (ans.status 0) ++
        endPairs segs.length ++ [.unsetSegParallel, .unsetMerge]
    else .clearSegParallel :: dispatchAndWaitInner cfg.toPoolConfig faults.length (ans.status 0)

/-! ## One dispatch, or segments cut on the way -/

def wholePlan : List Access :=
  let pair := beginPair 0 (ans.pushOk .copy 0) (ans.pushOk .map 0)
  [.writeGroups 0, .writeQueueBase 0] ++ pair.1 ++
    if pair.2 then
      [.writeMergeActive 0, .setMerge] ++
        dispatchAndWaitInner cfg.toPoolConfig faults.length (ans.status 0) ++ endPair 0 ++ [.unsetMerge]
    else .clearMerge :: dispatchAndWaitInner cfg.toPoolConfig faults.length (ans.status 0)

def offPlan : List Access :=
  [.writeGroups 0, .clearMerge, .writeQueueBase 0] ++
    dispatchAndWaitInner cfg.toPoolConfig faults.length (ans.status 0)

/-- The variables of the loop over the groups. -/
structure SegState where
  segStart : Nat := 0
  runningFaults : Nat := 0
  faultsSoFar : Nat := 0
  curSlot : Nat := 0
  curPushOpen : Bool := false
  continuous : Bool := false
  /-- The number of segments closed so far. -/
  segment : Nat := 0
  deriving DecidableEq, Repr

/-- The pushes of a segment, unless they were begun during the segment before. -/
def segmentPair (st : SegState) : List Access × Bool :=
  if st.curPushOpen then ([], true)
  else beginPair st.curSlot (ans.pushOk .copy st.segment) (ans.pushOk .map st.segment)

/-- The pushes of the segment after it, if they are begun while the workers run. -/
def segmentNext (st : SegState) (atEnd : Bool) : List Access × Bool :=
  if !st.continuous && ps.pipelineOverlap && !atEnd then
    beginPair (1 - st.curSlot) (ans.nextOk .copy st.segment) (ans.nextOk .map st.segment)
  else ([], false)

/-- One segment of the given number of groups: the accesses, and the variables after it. -/
def segmentBody (st : SegState) (segCount : Nat) (atEnd : Bool) : List Access × SegState :=
  let status := ans.status st.segment
  let pair := segmentPair ans st
  let next := segmentNext ps ans st atEnd
  let place := [Access.writeGroups st.segStart, .writeQueueBase st.segStart]
  if pair.2 then
    (place ++ pair.1 ++ [.writeMergeActive st.curSlot, .setMerge] ++
        dispatchStartInner cfg.toPoolConfig segCount ++ next.1 ++ dispatchWaitInner segCount status ++
        endPair st.curSlot ++ [.unsetMerge] ++
        (if status ≠ .ok ∧ next.2 then endPair (1 - st.curSlot) else []),
      { st with
        curPushOpen := next.2
        curSlot := if next.2 then 1 - st.curSlot else st.curSlot })
  else
    (place ++ pair.1 ++ .clearMerge :: dispatchAndWaitInner cfg.toPoolConfig segCount status,
      { st with continuous := false })

/-- The loop over the groups, from group `cursor` on. -/
def segmentedLoop (batchTotalFaults threshold : Nat) : Nat → List Nat → SegState → List Access
  | _, [], _ => []
  | cursor, numFaults :: rest, st =>
    let st := { st with
      runningFaults := st.runningFaults + numFaults
      faultsSoFar := st.faultsSoFar + numFaults }
    let remainingFaults := batchTotalFaults - st.faultsSoFar
    if rest ≠ [] ∧ (st.runningFaults < threshold ∨ remainingFaults < threshold) then
      segmentedLoop batchTotalFaults threshold (cursor + 1) rest st
    else
      let body := segmentBody cfg ps ans st (cursor - st.segStart + 1) rest.isEmpty
      body.1 ++
        -- an error ends the loop
        if ans.status st.segment = .ok then
          segmentedLoop batchTotalFaults threshold (cursor + 1) rest
            { body.2 with
              segStart := cursor + 1
              runningFaults := 0
              segment := st.segment + 1 }
        else []

def segmentedPlan : List Access :=
  segmentedLoop cfg ps ans faults.sum (cfg.segFaultThreshold faults) 0 faults
    { continuous := ps.continuousWorkers }

/-- The accesses of `uvm_kthread_dispatch_and_wait`. -/
def dispatchPlan : List Access :=
  if faults = [] then []
  else
    (match ps.branch with
      | .dynamic => dynamicPlan cfg ps ans faults
      | .groupSeg => groupSegPlan cfg ps ans faults
      | .segParallel => segParallelPlan cfg ans faults
      | .whole => wholePlan cfg ans faults
      | .segmented => segmentedPlan cfg ps ans faults
      | .off => offPlan cfg ans faults) ++ [.restoreGroups]

end Branches

/-! ## Accesses to pushes -/

def Access.isPush : Access → Bool
  | .pushBegin .. | .pushEnd .. | .pushEndUnlessClosed _ | .resetCopyDone .. => true
  | _ => false

theorem isPush_beginPair (slot : Nat) (copyOk mapOk : Bool) :
    ∀ a ∈ (beginPair slot copyOk mapOk).1, a.isPush = true := by
  cases copyOk <;> cases mapOk <;> simp [beginPair, Access.isPush]

theorem isPush_endPair (slot : Nat) : ∀ a ∈ endPair slot, a.isPush = true := by
  simp [endPair, Access.isPush]

theorem isPush_endPairs (count : Nat) : ∀ a ∈ endPairs count, a.isPush = true := by
  intro a ha
  obtain ⟨slot, -, hslot⟩ := List.mem_flatMap.1 ha
  exact isPush_endPair slot a hslot

theorem isPush_beginPairs (pushOk : PushKind → Nat → Bool) (i left : Nat) :
    ∀ a ∈ (beginPairs pushOk i left).1, a.isPush = true := by
  induction left generalizing i with
  | zero => exact fun a ha => absurd ha List.not_mem_nil
  | succ left ih =>
    intro a ha
    have hpair := isPush_beginPair i (pushOk .copy i) (pushOk .map i) a
    simp only [beginPairs] at ha
    split at ha
    · exact (List.mem_append.1 ha).elim hpair (ih (i + 1) a)
    · exact (List.mem_append.1 ha).elim hpair (isPush_endPairs i a)

theorem isPush_closePairs (split : Nat → Bool) (count : Nat) :
    ∀ a ∈ closePairs split count, a.isPush = true := by
  intro a ha
  simp only [closePairs, List.mem_flatMap, List.mem_cons, List.not_mem_nil, or_false] at ha
  obtain ⟨slot, -, rfl | rfl⟩ := ha
  · split <;> rfl
  · rfl

theorem isPush_resetCopyDones (copyMapSplit : Bool) (mergedBlocks : Nat → Nat) (count : Nat) :
    ∀ a ∈ resetCopyDones copyMapSplit mergedBlocks count, a.isPush = true := by
  cases copyMapSplit <;> simp [resetCopyDones, Access.isPush]

theorem isPush_segmentPair (ans : Answers) (st : SegState) :
    ∀ a ∈ (segmentPair ans st).1, a.isPush = true := by
  unfold segmentPair
  split
  · exact fun a ha => absurd ha List.not_mem_nil
  · exact isPush_beginPair _ _ _

theorem isPush_segmentNext (ps : ModeParams) (ans : Answers) (st : SegState) (atEnd : Bool) :
    ∀ a ∈ (segmentNext ps ans st atEnd).1, a.isPush = true := by
  unfold segmentNext
  split
  · exact isPush_beginPair _ _ _
  · exact fun a ha => absurd ha List.not_mem_nil

/-! ## What is dispatched -/

/-- Where the pool points into the array of groups and into the queue. -/
structure Placement where
  groups : Nat := 0
  queueBase : Nat := 0
  deriving DecidableEq, Repr

def Placement.after (pl : Placement) : Access → Placement
  | .restoreGroups => { pl with groups := 0 }
  | .writeGroups start => { pl with groups := start }
  | .writeQueueBase start => { pl with queueBase := start }
  | _ => pl

/-- One dispatch: where its groups and its queue entries begin, and how many there are. -/
structure DispatchRange extends Placement where
  count : Nat
  deriving DecidableEq, Repr

def Placement.begun (pl : Placement) : Access → List DispatchRange
  | .setRemaining items => [⟨pl, items⟩]
  | _ => []

def dispatches : Placement → List Access → List DispatchRange
  | _, [] => []
  | pl, a :: as => pl.begun a ++ dispatches (pl.after a) as

def placement (pl : Placement) (as : List Access) : Placement := as.foldl Placement.after pl

theorem dispatches_append (pl : Placement) (as bs : List Access) :
    dispatches pl (as ++ bs) = dispatches pl as ++ dispatches (placement pl as) bs := by
  induction as generalizing pl with
  | nil => rfl
  | cons a as ih =>
    rw [List.cons_append, dispatches, ih, dispatches, List.append_assoc]
    rfl

end FaultMesh
