import FaultMesh.Modes.Fields
import FaultMesh.Lib.Machine

/-!
# The pool in all modes

Coordinators and workers of all modes, access by access. A coordinator follows the plan of its batch;
which plan that is depends on the module parameters when it calls `uvm_kthread_dispatch_and_wait`.
The parameters can be written at any time, and workers read them again.

When a worker goes for its next number is left open: it may do so at any time. That covers workers
that sleep, workers that spin between segments and workers that spin between batches, whatever the
flags they test. Of a work item only the group is kept. The copy push that the last copy worker may
end by itself, the asynchronous pipeline and time are left out; a wait may expire at any time.
-/

namespace FaultMesh.Modes

open Function

/-! ## Shared state -/

structure Pool extends Fields where
  batchWorkerCounter : Nat := 0
  workCursor : Nat := 0
  itemsRemaining : Int := 0
  /-- The count of the completion `all_done`. -/
  allDone : Nat := 0
  /-- The group that each entry of the queue was filled from. -/
  queue : Nat → BatchTag × Nat := fun _ => (⟨0, 0⟩, 0)

/-! ## Workers -/

/-- Where a worker stands: the next shared access it makes. -/
inductive WorkerPc where
  /-- Asleep or spinning; next comes the atomic add on `batch_worker_counter`. -/
  | outside
  | readNumItems
  | readNumActive
  | readQueueBase
  | readMerge
  | readDynamic
  | readGroupSeg
  | readTables
  | readSegParallel
  | readSegment
  /-- The atomic add on `dynamic.work_cursor`. -/
  | addCursor
  | takeItem
  | service
  /-- The atomic decrement of `items_remaining`. -/
  | decRemaining
  /-- `complete(&pool->all_done)`. -/
  | complete
  deriving DecidableEq, Repr

/-- The local variables of `uvm_kthread_worker_fn`. -/
structure Worker where
  pc : WorkerPc := .outside
  myBatchId : Nat := 0
  numItems : Nat := 0
  numActive : Nat := 0
  qBase : Nat := 0
  useMerge : Bool := false
  scheme : Scheme := .strides
  segId : Nat := 0
  idx : Nat := 0
  /-- Bound and increment of the loop, unless the cursor gives the items out. -/
  stop : Nat := 0
  stride : Nat := 0
  group : BatchTag × Nat := (⟨0, 0⟩, 0)
  /-- The pushes in `merge_ext`. -/
  pushes : List (PushKind × Nat) := []
  deriving DecidableEq

def Worker.slot (wk : Worker) : Nat := wk.qBase + wk.idx

/-- Where a loop with a stride goes from index `idx`. -/
def Worker.loopFrom (wk : Worker) (idx : Nat) : Worker :=
  { wk with idx := idx, pc := if idx < wk.stop then .takeItem else .outside }

/-- Begin such a loop. -/
def Worker.enter (wk : Worker) (scheme : Scheme) (segId : Nat) (lane : Lane) : Worker :=
  { wk with
    scheme := scheme
    segId := segId
    stop := lane.stop
    stride := lane.stride }.loopFrom lane.start

def Worker.next (wk : Worker) : Worker :=
  if wk.scheme = .cursor then { wk with pc := .addCursor } else wk.loopFrom (wk.idx + wk.stride)

/-- The pushes that a worker attaches to its item, if the item is not too big for that. -/
def Worker.pushesFor (f : Fields) (wk : Worker) (merge : Bool) : List (PushKind × Nat) :=
  if !merge then []
  else
    match wk.scheme with
    | .cursor => [(.copy, f.blockSegId.getD wk.idx 0), (.map, f.blockSegId.getD wk.idx 0)]
    | .tables | .segments => [(.map, wk.segId)]
    | .strides => if wk.useMerge then [(.map, f.mergeActive)] else []

/-- One step of `uvm_kthread_worker_fn`. -/
def workerAccess (ps : ModeParams) (merge : Bool) (p : Pool) (wk : Worker) : Pool × Worker :=
  match wk.pc with
  | .outside =>
    ({ p with batchWorkerCounter := p.batchWorkerCounter + 1 },
      { wk with myBatchId := p.batchWorkerCounter, pc := .readNumItems })
  | .readNumItems => (p, { wk with numItems := p.batchNumGroups, pc := .readNumActive })
  | .readNumActive => (p, { wk with numActive := p.batchNumActive, pc := .readQueueBase })
  | .readQueueBase => (p, { wk with qBase := p.queueBase, pc := .readMerge })
  | .readMerge =>
    (p, { wk with
      useMerge := p.mergeOn
      -- more workers than the dispatch asked for, or nothing to do
      pc := if wk.numActive ≤ wk.myBatchId ∨ wk.numItems = 0 then .outside else .readDynamic })
  | .readDynamic =>
    if p.dynamicActive && ps.dynamicDispatch then
      (p, { wk with scheme := .cursor, pc := .addCursor })
    else (p, { wk with pc := .readGroupSeg })
  | .readGroupSeg =>
    (p, { wk with
      pc := if p.segParallelActive && ps.groupSegParallel then .readTables
        else .readSegParallel })
  | .readTables =>
    -- `total_workers_dispatched`
    if wk.myBatchId < p.workersPerSeg.sum then
      let entry := (workerTable 0 p.workersPerSeg).getD wk.myBatchId (0, 0)
      (p, wk.enter .tables entry.1 (segmentLane (p.segs.zip p.workersPerSeg) entry))
    else (p, { wk with pc := .outside })
  | .readSegParallel =>
    if p.segParallelActive then (p, { wk with pc := .readSegment })
    else (p, wk.enter .strides 0 ⟨wk.myBatchId, wk.numItems, wk.numActive⟩)
  | .readSegment =>
    -- `num_segments`
    if wk.myBatchId < p.segs.length then
      let seg := p.segs.getD wk.myBatchId (0, 0)
      (p, wk.enter .segments wk.myBatchId ⟨seg.1, seg.1 + seg.2, 1⟩)
    else (p, { wk with pc := .outside })
  | .addCursor =>
    ({ p with workCursor := p.workCursor + 1 },
      { wk with
        idx := p.workCursor
        pc := if p.workCursor < wk.numItems then .takeItem else .outside })
  | .takeItem =>
    let group := (p.batchGroups.1, p.batchGroups.2 + wk.idx)
    ({ p with queue := update p.queue wk.slot group },
      { wk with group := group, pushes := wk.pushesFor p.toFields merge, pc := .service })
  | .service => (p, { wk with pushes := [], pc := .decRemaining })
  | .decRemaining =>
    let p := { p with itemsRemaining := p.itemsRemaining - 1 }
    if p.itemsRemaining = 0 then (p, { wk with pc := .complete }) else (p, wk.next)
  | .complete => ({ p with allDone := p.allDone + 1 }, wk.next)

/-! ## Coordinators -/

/-- Where a coordinator stands in `service_fault_batch_parallel`. Its batch holds a reference to the
`mm` until it is idle again. -/
inductive Phase where
  | idle
  | writeGroups (numGroups : Nat)
  | writeCount (numGroups : Nat)
  | call (numGroups : Nat)
  | inside
  /-- The inline fallback, before its item `i`. -/
  | inline (i numGroups : Nat)
  | inlineService (i numGroups : Nat)
  deriving DecidableEq, Repr

structure Coord where
  serial : Nat := 0
  phase : Phase := .idle
  /-- The accesses that it has still to make inside the call. -/
  program : List Access := []
  allGroups : BatchTag × Nat := (⟨0, 0⟩, 0)
  /-- The parameters that it read when it chose its branch. -/
  params : ModeParams := {}
  /-- First group and length of the current dispatch. -/
  start : Nat := 0
  items : Nat := 0

def Coord.after (co : Coord) (rest : List Access) : Access → Coord
  | .writeGroups start => { co with program := rest, start := start }
  | .restoreGroups => { co with program := rest, start := 0 }
  | .setRemaining items => { co with program := rest, items := items }
  | _ => { co with program := rest }

/-- What an access does to the pool; a wait is blocked until the completion is signalled. -/
def Pool.after (allGroups : BatchTag × Nat) (p : Pool) (a : Access) : Option Pool :=
  let p' : Pool := { p with toFields := p.toFields.after allGroups a }
  match a with
  | .resetCursor => some { p' with workCursor := 0 }
  | .resetCounter => some { p' with batchWorkerCounter := 0 }
  | .setRemaining items => some { p' with itemsRemaining := items }
  | .reinitDone => some { p' with allDone := 0 }
  | .wait => if p.allDone = 0 then none else some { p' with allDone := p.allDone - 1 }
  | _ => some p'

/-! ## The machine -/

structure Dispatch where
  tag : BatchTag
  start : Nat
  items : Nat
  deriving DecidableEq, Repr

def Dispatch.Has (d : Dispatch) (group : BatchTag × Nat) : Prop :=
  group.1 = d.tag ∧ d.start ≤ group.2 ∧ group.2 < d.start + d.items

inductive Stage where
  /-- Nothing; a dispatch may be in preparation. -/
  | calm
  /-- A dispatch was let loose, and its wait has not returned. -/
  | waiting
  /-- The wait has returned, and the fields are still those of the dispatch. -/
  | returned
  deriving DecidableEq, Repr

/-- A record of the run, which no step reads. -/
structure History where
  stage : Stage := .calm
  /-- The scheme of the current dispatch, as its coordinator set it up. -/
  scheme : Scheme := .strides
  /-- Items of the current dispatch that were serviced, and those counted. -/
  serviced : List Nat := []
  finished : List Nat := []
  /-- Dispatches whose wait has returned. -/
  returned : List Dispatch := []
  deriving DecidableEq

/-- The access changes something that workers read on the way into their loop. -/
def disturbs : Access → Bool
  | .clearDynamic | .clearSegParallel | .writeSegs _ | .writeWorkers _
  | .resetCursor | .writeQueueBase _ | .setDynamic | .setSegParallel | .writeNumActive _
  | .writeNumGroups _ | .resetCounter | .setRemaining _ | .unsetDynamic | .unsetSegParallel => true
  | _ => false

def History.afterAccess (h : History) (f : Fields) (c : Nat) (co : Coord) (a : Access) : History :=
  let h := if disturbs a then { h with stage := .calm } else h
  match a with
  | .setRemaining _ => { h with serviced := [], finished := [] }
  | .reinitDone => { h with stage := .waiting, scheme := f.scheme co.params }
  | .wait | .expire =>
    { h with
      stage := .returned
      returned := ⟨⟨c, co.serial⟩, co.start, co.items⟩ :: h.returned }
  | _ => h

def History.afterWorker (h : History) (wk : Worker) : History :=
  match wk.pc with
  | .service => { h with serviced := wk.idx :: h.serviced }
  | .decRemaining => { h with finished := wk.idx :: h.finished }
  | _ => h

structure State (numCoords numWorkers : Nat) where
  params : ModeParams := {}
  pool : Pool := {}
  coords : Fin numCoords → Coord := fun _ => {}
  workers : Fin numWorkers → Worker := fun _ => {}
  history : History := {}

inductive Label (numCoords numWorkers : Nat) where
  | setParams (ps : ModeParams)
  /-- A batch comes to phase 2 of `service_fault_batch_parallel`. -/
  | submit (c : Fin numCoords) (numGroups : Nat)
  /-- A small batch comes to the inline fallback. -/
  | submitInline (c : Fin numCoords) (numGroups : Nat)
  /-- The call of `uvm_kthread_dispatch_and_wait`, which reads the groups and the parameters. -/
  | call (c : Fin numCoords) (cfg : SegmentConfig) (ans : Answers) (faults : List Nat)
  | coord (c : Fin numCoords)
  /-- A worker moves; `merge` says whether its item may be merged. -/
  | worker (w : Fin numWorkers) (merge : Bool)

variable {numCoords numWorkers : Nat}

def Coord.tag (co : Coord) (c : Fin numCoords) : BatchTag := ⟨c, co.serial⟩

def coordStep (s : State numCoords numWorkers) (c : Fin numCoords) :
    Option (State numCoords numWorkers) :=
  let co := s.coords c
  match co.phase with
  | .idle | .call _ => none
  | .writeGroups numGroups =>
    some { s with
      pool := { s.pool with
        batchGroups := (co.tag c, 0)
        dispatchedTo := 0
        remainingSet := none
        awaited := none }
      coords := update s.coords c { co with phase := .writeCount numGroups } }
  | .writeCount numGroups =>
    some { s with
      pool := { s.pool with batchNumGroups := numGroups, awaited := none }
      coords := update s.coords c { co with phase := .call numGroups }
      history := { s.history with stage := .calm } }
  | .inside =>
    match co.program with
    -- `uvm_va_space_mm_release`
    | [] => some { s with coords := update s.coords c { co with phase := .idle } }
    | a :: rest =>
      (s.pool.after co.allGroups a).map fun p =>
        { s with
          pool := p
          coords := update s.coords c (co.after rest a)
          history := s.history.afterAccess s.pool.toFields c co a }
  | .inline i numGroups =>
    if i < numGroups then
      some { s with
        pool := { s.pool with queue := update s.pool.queue i (co.tag c, i), awaited := none }
        coords := update s.coords c { co with phase := .inlineService i numGroups } }
    else some { s with coords := update s.coords c { co with phase := .idle } }
  | .inlineService i numGroups =>
    some { s with coords := update s.coords c { co with phase := .inline (i + 1) numGroups } }

def submitStep (s : State numCoords numWorkers) (c : Fin numCoords) (phase : Phase) :
    Option (State numCoords numWorkers) :=
  if (s.coords c).phase = .idle then
    some { s with
      coords := update s.coords c
        { serial := (s.coords c).serial + 1, phase := phase } }
  else none

/-- The call of `uvm_kthread_dispatch_and_wait`. -/
def callStep (s : State numCoords numWorkers) (c : Fin numCoords) (cfg : SegmentConfig)
    (ans : Answers) (faults : List Nat) : Option (State numCoords numWorkers) :=
  let co := s.coords c
  if co.phase = .call faults.length then
    some { s with
      coords := update s.coords c
        { co with
          phase := .inside
          program := dispatchPlan cfg s.params ans faults
          allGroups := s.pool.batchGroups
          params := s.params
          start := 0 } }
  else none

def workerStep (s : State numCoords numWorkers) (w : Fin numWorkers) (merge : Bool) :
    State numCoords numWorkers :=
  { s with
    pool := (workerAccess s.params merge s.pool (s.workers w)).1
    workers := update s.workers w (workerAccess s.params merge s.pool (s.workers w)).2
    history := s.history.afterWorker (s.workers w) }

def step (s : State numCoords numWorkers) :
    Label numCoords numWorkers → Option (State numCoords numWorkers)
  | .setParams ps => some { s with params := ps }
  | .submit c numGroups => submitStep s c (.writeGroups numGroups)
  | .submitInline c numGroups => submitStep s c (.inline 0 numGroups)
  | .call c cfg ans faults => callStep s c cfg ans faults
  | .coord c => coordStep s c
  | .worker w merge => some (workerStep s w merge)

def modes (numCoords numWorkers : Nat) :
    Machine (State numCoords numWorkers) (Label numCoords numWorkers) where
  step := step

end FaultMesh.Modes
