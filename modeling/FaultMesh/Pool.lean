import FaultMesh.Lib.Machine

/-!
# The worker pool

`uvm_kthread_pool_t` is one object shared by the coordinators (one per GPU, in
`service_fault_batch_parallel` and `uvm_kthread_dispatch_and_wait`) and the worker threads
(`uvm_kthread_worker_fn`). Every read, write and atomic operation on a pool field is a step of its
own; what a thread does between two of them is folded into the step before.

Covered are the modes in which workers share the items of a dispatch by strides: merge off, merge
over the whole batch, and segments with or without continuous workers, each with sleeping or
persistently spinning workers, and the inline fallback. Pushes, timing and profiling are left out,
and so are time-outs and the shutdown of the pool.
-/

namespace FaultMesh

open Function (update)

/-! ## Shared state -/

/-- A batch of faults of one GPU, as handed to the pool. The tag stands for everything that
belongs to the batch: the GPU, the batch context, the snapshot and the array of groups. -/
structure BatchTag where
  coord : Nat
  serial : Nat
  deriving DecidableEq, Repr

/-- `uvm_kthread_work_item_t`: where the inputs of the item were taken from. -/
structure WorkItem where
  /-- The batch and the index of the group. -/
  group : BatchTag × Nat := (⟨0, 0⟩, 0)
  gpu : BatchTag := ⟨0, 0⟩
  snapshot : BatchTag := ⟨0, 0⟩
  batchContext : BatchTag := ⟨0, 0⟩
  deriving DecidableEq, Repr

/-- The fields of `uvm_kthread_pool_t` that describe a dispatch. Workers only read them. -/
structure BatchFields where
  batchGpu : BatchTag := ⟨0, 0⟩
  batchSnapshot : BatchTag := ⟨0, 0⟩
  batchCtx : BatchTag := ⟨0, 0⟩
  /-- A pointer into the array of groups of a batch. -/
  batchGroups : BatchTag × Nat := (⟨0, 0⟩, 0)
  batchNumGroups : Nat := 0
  batchNumActive : Nat := 0
  queueBase : Nat := 0
  deriving DecidableEq, Repr

/-- The fields of `uvm_kthread_pool_t` that take part in dispatching. -/
structure Pool extends BatchFields where
  batchWorkerCounter : Nat := 0
  itemsRemaining : Int := 0
  /-- The count of the completion `all_done`. -/
  allDone : Nat := 0
  batchReady : Bool := false
  queue : Nat → WorkItem := fun _ => {}
  continuousActive : Bool := false
  batchGen : Nat := 0
  segGeneration : Nat := 0
  segFinished : Bool := false
  persistentGen : Nat := 0

/-- What does not change while the pool runs. -/
structure PoolConfig where
  numWorkers : Nat
  /-- `uvm_parallel_fault_max_workers`; 0 means no bound. -/
  maxWorkers : Nat := 0
  /-- `uvm_persistent_spin_workers`. -/
  persistentSpin : Bool := false
  numCoords : Nat := 1
  deriving DecidableEq, Repr

/-- The number of workers allowed for a dispatch. -/
def PoolConfig.maxActive (cfg : PoolConfig) : Nat :=
  if 0 < cfg.maxWorkers then min cfg.maxWorkers cfg.numWorkers else cfg.numWorkers

/-- `num_active` of a dispatch of the given number of items. -/
def PoolConfig.numActive (cfg : PoolConfig) (items : Nat) : Nat := min cfg.maxActive items

/-! ## Threads -/

/-- Where a worker stands: the next shared access it makes. -/
inductive WorkerPc where
  /-- Testing `batch_ready`, already on the wait queue. -/
  | waiting
  | asleep
  | readContinuous
  | readSegGen
  | readBatchGen
  /-- The atomic add on `batch_worker_counter`. -/
  | claim
  | readNumItems
  | readNumActive
  | readQueueBase
  -- one item
  | readGroup
  | readGpu
  | readSnapshot
  | readBatchCtx
  | service
  /-- The atomic decrement of `items_remaining`. -/
  | decRemaining
  /-- `complete(&pool->all_done)`. -/
  | complete
  | segmentDone
  -- the spin of continuous workers between two segments
  | spinSegGen
  | spinFinished
  | spinBatchGen
  | rereadSegGen
  | recheckFinished
  | recheckBatchGen
  | batchDone
  -- the spin of persistent workers between two batches
  | readPersistent
  | spinPersistent
  deriving DecidableEq, Repr

/-- The local variables of `uvm_kthread_worker_fn`. -/
structure Worker where
  pc : WorkerPc := .waiting
  continuousMode : Bool := false
  lastGen : Nat := 0
  myBatchGen : Nat := 0
  myBatchId : Nat := 0
  numItems : Nat := 0
  numActive : Nat := 0
  qBase : Nat := 0
  idx : Nat := 0
  lastPersistent : Nat := 0
  deriving DecidableEq, Repr

inductive CoordPc where
  | idle
  -- phase 2 of `service_fault_batch_parallel`
  | writeGpu
  | writeSnapshot
  | writeBatchCtx
  | writeAllGroups
  | writeAllCount
  /-- `all_groups = pool->batch_groups`. -/
  | readAllGroups
  -- `continuous` switched on
  | contActivate
  | contBatchGen
  | contUnfinish
  -- one dispatch: `dispatch_start_inner` or `dispatch_continuous_next`
  | writeGroups
  | writeQueueBase
  | contAbandon
  | writeNumActive
  | writeNumGroups
  | resetCounter
  | setRemaining
  | reinitDone
  | setReady
  | bumpPersistent
  | wake
  | wakeMore
  | bumpSegGen
  -- `dispatch_wait_inner`
  | waitDone
  | readContinuous
  | clearReady
  | collect
  | checkContinuous
  -- `dispatch_continuous_finish`
  | finishSegments
  | finishGen
  | finishActive
  | finishReady
  | restoreGroups
  -- the inline fallback
  | inlineGroup
  | inlineGpu
  | inlineSnapshot
  | inlineBatchCtx
  | inlineService
  deriving DecidableEq, Repr

/-- The local variables of a coordinator. `counts` are the item counts of the segments still to
dispatch, the current one first; segments that an error keeps from being dispatched are not in it. -/
structure Coord where
  pc : CoordPc := .idle
  serial : Nat := 0
  numGroups : Nat := 0
  allGroups : BatchTag × Nat := (⟨0, 0⟩, 0)
  continuous : Bool := false
  /-- Segments left for which `uvm_push_begin` will succeed. -/
  pushesLeft : Nat := 0
  counts : List Nat := []
  segStart : Nat := 0
  isFirstSeg : Bool := true
  sawContinuous : Bool := false
  i : Nat := 0
  deriving DecidableEq, Repr

def Coord.segCount (co : Coord) : Nat := co.counts.headD 0

/-- What a coordinator is given to do: a batch cut into segments (one segment, if it is not
segmented), or a small batch that it services inline. -/
inductive Job where
  | dispatch (numGroups : Nat) (continuous : Bool) (pushes : Nat) (counts : List Nat)
  | inline (numGroups : Nat)
  deriving DecidableEq, Repr

/-- One call of `service_block_faults_kthread` by a worker: the index it took and the item it
passed. A block whose VA space is gone only gets a status; that counts as its service. -/
structure Service where
  idx : Nat
  worker : Nat
  slot : Nat
  item : WorkItem
  deriving DecidableEq, Repr

/-- The groups a dispatch is for: `items` groups of the batch `owner`, from group `start` on. -/
structure Segment where
  owner : BatchTag := ⟨0, 0⟩
  start : Nat := 0
  items : Nat := 0
  deriving DecidableEq, Repr

/-- Which dispatch is current and what happened in it; it begins when `items_remaining` is set.
Nothing in the pool reads this. -/
structure Dispatch extends Segment where
  /-- Newest first. -/
  serviced : List Service := []
  /-- Indices whose decrement was made. -/
  finished : List Nat := []
  deriving DecidableEq, Repr

structure PoolState where
  pool : Pool := {}
  coords : Nat → Coord := fun _ => {}
  workers : Nat → Worker := fun _ => {}
  current : Dispatch := {}

/-- The choice of the thread that moves. A wake-up also says which sleepers it wakes. -/
inductive PoolLabel where
  | submit (c : Nat) (job : Job)
  | coord (c : Nat) (woken : List Nat)
  | worker (w : Nat)
  deriving DecidableEq, Repr

/-! ## Workers -/

/-- Where the strided loop goes from index `idx`. -/
def Worker.loopFrom (wk : Worker) (idx : Nat) : Worker :=
  { wk with idx := idx, pc := if idx < wk.numItems then .readGroup else .segmentDone }

def Worker.slot (wk : Worker) : Nat := wk.qBase + wk.idx

def Pool.setItem (p : Pool) (slot : Nat) (item : WorkItem) : Pool :=
  { p with queue := update p.queue slot item }

/-- One step of `uvm_kthread_worker_fn`, as far as it concerns the pool and the worker itself. -/
def workerAccess (cfg : PoolConfig) (p : Pool) (wk : Worker) : Option (Pool × Worker) :=
  match wk.pc with
  | .waiting => some (p, { wk with pc := if p.batchReady then .readContinuous else .asleep })
  | .asleep => none
  | .readContinuous => some (p, { wk with continuousMode := p.continuousActive, pc := .readSegGen })
  | .readSegGen =>
    some (p, { wk with
      lastGen := p.segGeneration
      myBatchGen := 0
      pc := if wk.continuousMode then .readBatchGen else .claim })
  | .readBatchGen => some (p, { wk with myBatchGen := p.batchGen, pc := .claim })
  | .claim =>
    some ({ p with batchWorkerCounter := p.batchWorkerCounter + 1 },
      { wk with myBatchId := p.batchWorkerCounter, pc := .readNumItems })
  | .readNumItems => some (p, { wk with numItems := p.batchNumGroups, pc := .readNumActive })
  | .readNumActive => some (p, { wk with numActive := p.batchNumActive, pc := .readQueueBase })
  | .readQueueBase =>
    let wk := { wk with qBase := p.queueBase }
    -- more workers than the dispatch asked for, or nothing to do
    if wk.numActive ≤ wk.myBatchId ∨ wk.numItems = 0 then some (p, { wk with pc := .segmentDone })
    else some (p, wk.loopFrom wk.myBatchId)
  | .readGroup =>
    some (p.setItem wk.slot
        { p.queue wk.slot with group := (p.batchGroups.1, p.batchGroups.2 + wk.idx) },
      { wk with pc := .readGpu })
  | .readGpu =>
    some (p.setItem wk.slot { p.queue wk.slot with gpu := p.batchGpu },
      { wk with pc := .readSnapshot })
  | .readSnapshot =>
    some (p.setItem wk.slot { p.queue wk.slot with snapshot := p.batchSnapshot },
      { wk with pc := .readBatchCtx })
  | .readBatchCtx =>
    some (p.setItem wk.slot { p.queue wk.slot with batchContext := p.batchCtx },
      { wk with pc := .service })
  | .service => some (p, { wk with pc := .decRemaining })
  | .decRemaining =>
    let p := { p with itemsRemaining := p.itemsRemaining - 1 }
    if p.itemsRemaining = 0 then some (p, { wk with pc := .complete })
    else some (p, wk.loopFrom (wk.idx + wk.numActive))
  | .complete => some ({ p with allDone := p.allDone + 1 }, wk.loopFrom (wk.idx + wk.numActive))
  | .segmentDone =>
    some (p, { wk with pc := if wk.continuousMode then .spinSegGen else .batchDone })
  | .spinSegGen =>
    some (p, { wk with
      pc := if p.segGeneration = wk.lastGen then .spinFinished else .rereadSegGen })
  | .spinFinished => some (p, { wk with pc := if p.segFinished then .batchDone else .spinBatchGen })
  | .spinBatchGen =>
    some (p, { wk with pc := if p.batchGen = wk.myBatchGen then .spinSegGen else .batchDone })
  | .rereadSegGen => some (p, { wk with lastGen := p.segGeneration, pc := .recheckFinished })
  | .recheckFinished =>
    some (p, { wk with pc := if p.segFinished then .batchDone else .recheckBatchGen })
  | .recheckBatchGen =>
    some (p, { wk with pc := if p.batchGen = wk.myBatchGen then .claim else .batchDone })
  | .batchDone =>
    some (p, { wk with pc := if cfg.persistentSpin then .readPersistent else .waiting })
  | .readPersistent =>
    some (p, { wk with lastPersistent := p.persistentGen, pc := .spinPersistent })
  | .spinPersistent =>
    some (p, { wk with
      pc := if p.persistentGen = wk.lastPersistent then .spinPersistent else .readContinuous })

/-- What a worker step adds to the history of the current dispatch. -/
def Dispatch.record (d : Dispatch) (p : Pool) (w : Nat) (wk : Worker) : Dispatch :=
  match wk.pc with
  | .service => { d with serviced := ⟨wk.idx, w, wk.slot, p.queue wk.slot⟩ :: d.serviced }
  | .decRemaining => { d with finished := wk.idx :: d.finished }
  | _ => d

def workerStep (cfg : PoolConfig) (s : PoolState) (w : Nat) : Option PoolState :=
  (workerAccess cfg s.pool (s.workers w)).map fun (p, wk) =>
    { s with
      pool := p
      workers := update s.workers w wk
      current := s.current.record s.pool w (s.workers w) }

/-! ## Coordinators -/

def Coord.tag (co : Coord) (c : Nat) : BatchTag := ⟨c, co.serial⟩

/-- After the last item was collected: the next segment, or the end. -/
def Coord.nextSegment (co : Coord) : Coord :=
  let rest := co.counts.tail
  { co with
    counts := rest
    segStart := co.segStart + co.segCount
    isFirstSeg := false
    pc := if rest ≠ [] then .writeGroups
      else if co.continuous then .checkContinuous else .restoreGroups }

/-- One step of a coordinator, as far as it concerns the pool and the coordinator itself. -/
def coordAccess (cfg : PoolConfig) (c : Nat) (p : Pool) (co : Coord) : Option (Pool × Coord) :=
  match co.pc with
  | .idle => none
  | .writeGpu => some ({ p with batchGpu := co.tag c }, { co with pc := .writeSnapshot })
  | .writeSnapshot => some ({ p with batchSnapshot := co.tag c }, { co with pc := .writeBatchCtx })
  | .writeBatchCtx => some ({ p with batchCtx := co.tag c }, { co with pc := .writeAllGroups })
  | .writeAllGroups =>
    some ({ p with batchGroups := (co.tag c, 0) }, { co with pc := .writeAllCount })
  | .writeAllCount =>
    some ({ p with batchNumGroups := co.numGroups },
      { co with pc := if co.counts = [] then .idle else .readAllGroups })
  | .readAllGroups =>
    some (p, { co with
      allGroups := p.batchGroups
      pc := if co.continuous then .contActivate else .writeGroups })
  | .contActivate => some ({ p with continuousActive := true }, { co with pc := .contBatchGen })
  | .contBatchGen => some ({ p with batchGen := p.batchGen + 1 }, { co with pc := .contUnfinish })
  | .contUnfinish => some ({ p with segFinished := false }, { co with pc := .writeGroups })
  | .writeGroups =>
    some ({ p with batchGroups := (co.allGroups.1, co.allGroups.2 + co.segStart) },
      { co with pc := .writeQueueBase })
  | .writeQueueBase =>
    -- without a push a continuous dispatch falls back to a regular one
    some ({ p with queueBase := co.segStart },
      if co.continuous ∧ co.pushesLeft = 0 then
        { co with pc := if co.isFirstSeg then .contAbandon else .finishSegments }
      else { co with pushesLeft := co.pushesLeft - 1, pc := .writeNumActive })
  | .contAbandon =>
    some ({ p with continuousActive := false },
      { co with continuous := false, pc := .writeNumActive })
  | .writeNumActive =>
    some ({ p with batchNumActive := cfg.numActive co.segCount }, { co with pc := .writeNumGroups })
  | .writeNumGroups =>
    some ({ p with batchNumGroups := co.segCount }, { co with pc := .resetCounter })
  | .resetCounter => some ({ p with batchWorkerCounter := 0 }, { co with pc := .setRemaining })
  | .setRemaining =>
    some ({ p with itemsRemaining := co.segCount }, { co with pc := .reinitDone })
  | .reinitDone =>
    some ({ p with allDone := 0 },
      { co with pc := if co.continuous ∧ ¬ co.isFirstSeg then .bumpSegGen else .setReady })
  | .setReady =>
    some ({ p with batchReady := true },
      { co with pc := if cfg.persistentSpin then .bumpPersistent else .wake })
  | .bumpPersistent =>
    some ({ p with persistentGen := p.persistentGen + 1 }, { co with pc := .wake })
  | .wake => some (p, { co with pc := if co.continuous then .wakeMore else .waitDone })
  | .wakeMore => some (p, { co with pc := .waitDone })
  | .bumpSegGen =>
    some ({ p with segGeneration := p.segGeneration + 1 }, { co with pc := .waitDone })
  | .waitDone =>
    if p.allDone = 0 then none
    else some ({ p with allDone := p.allDone - 1 }, { co with pc := .readContinuous })
  | .readContinuous =>
    some (p, { co with sawContinuous := p.continuousActive, pc := .clearReady })
  | .clearReady =>
    some (if co.sawContinuous then p else { p with batchReady := false },
      { co with i := 0, pc := .collect })
  | .collect =>
    -- reads `queue[queue_base + i]`
    if co.i < co.segCount then some (p, { co with i := co.i + 1 })
    else some (p, co.nextSegment)
  | .checkContinuous =>
    some (p, { co with pc := if p.continuousActive then .finishSegments else .restoreGroups })
  | .finishSegments => some ({ p with segFinished := true }, { co with pc := .finishGen })
  | .finishGen =>
    some ({ p with segGeneration := p.segGeneration + 1 }, { co with pc := .finishActive })
  | .finishActive =>
    some ({ p with continuousActive := false }, { co with pc := .finishReady })
  | .finishReady =>
    some ({ p with batchReady := false },
      { co with
        continuous := false
        pc := if co.counts = [] then .restoreGroups else .writeNumActive })
  | .restoreGroups => some ({ p with batchGroups := co.allGroups }, { co with pc := .idle })
  | .inlineGroup =>
    if co.i < co.numGroups then
      some (p.setItem co.i { p.queue co.i with group := (co.tag c, co.i) },
        { co with pc := .inlineGpu })
    else some (p, { co with pc := .idle })
  | .inlineGpu =>
    some (p.setItem co.i { p.queue co.i with gpu := co.tag c }, { co with pc := .inlineSnapshot })
  | .inlineSnapshot =>
    some (p.setItem co.i { p.queue co.i with snapshot := co.tag c },
      { co with pc := .inlineBatchCtx })
  | .inlineBatchCtx =>
    some (p.setItem co.i { p.queue co.i with batchContext := co.tag c },
      { co with pc := .inlineService })
  -- the service runs with worker context 0
  | .inlineService => some (p, { co with i := co.i + 1, pc := .inlineGroup })

/-- How many sleepers a coordinator wakes with its next step. -/
def Coord.wakeCount (cfg : PoolConfig) (co : Coord) : Nat :=
  match co.pc with
  | .wake => cfg.numActive co.segCount
  | .wakeMore => cfg.maxActive - cfg.numActive co.segCount
  | _ => 0

/-- The workers a wake-up may choose: as many as asked for, or all sleepers there are. A worker
still testing `batch_ready` may be on the wait queue already. -/
def wakeChoice (cfg : PoolConfig) (workers : Nat → Worker) (count : Nat) (woken : List Nat) : Bool :=
  woken.Nodup &&
    woken.all (fun w => w < cfg.numWorkers &&
      ((workers w).pc = .asleep || (workers w).pc = .waiting)) &&
    (woken.length = count ||
      (woken.length < count &&
        (List.range cfg.numWorkers).all fun w => (workers w).pc ≠ .asleep || w ∈ woken))

/-- Wake the given workers: they test `batch_ready` again. -/
def wakeWorkers (workers : Nat → Worker) (woken : List Nat) : Nat → Worker :=
  fun w => if w ∈ woken then { workers w with pc := .waiting } else workers w

def Coord.segment (co : Coord) (c : Nat) : Segment := ⟨co.tag c, co.segStart, co.segCount⟩

def Dispatch.begin (d : Dispatch) (c : Nat) (co : Coord) : Dispatch :=
  match co.pc with
  | .setRemaining => ⟨co.segment c, [], []⟩
  | _ => d

def coordStep (cfg : PoolConfig) (s : PoolState) (c : Nat) (woken : List Nat) : Option PoolState :=
  if wakeChoice cfg s.workers ((s.coords c).wakeCount cfg) woken then
    (coordAccess cfg c s.pool (s.coords c)).map fun (p, co) =>
      { pool := p
        coords := update s.coords c co
        workers := wakeWorkers s.workers woken
        current := s.current.begin c (s.coords c) }
  else none

/-- The coordinator at the start of a job. Segments are not empty, there is at least one if there
are groups, and they are segments of the groups. -/
def Coord.take (co : Coord) : Job → Option Coord
  | .dispatch numGroups continuous pushes counts =>
    if (∀ n ∈ counts, 0 < n) ∧ (counts = [] → numGroups = 0) ∧ counts.sum ≤ numGroups then
      some
        { pc := .writeGpu
          serial := co.serial + 1
          numGroups := numGroups
          continuous := continuous
          pushesLeft := pushes
          counts := counts }
    else none
  | .inline numGroups =>
    some { pc := .inlineGroup, serial := co.serial + 1, numGroups := numGroups }

/-! ## The machine -/

/-- One step of the pool: a coordinator gets a job, or a thread makes its next access. -/
def poolStep (cfg : PoolConfig) (s : PoolState) : PoolLabel → Option PoolState
  | .submit c job =>
    if c < cfg.numCoords ∧ (s.coords c).pc = .idle then
      ((s.coords c).take job).map fun co => { s with coords := update s.coords c co }
    else none
  | .coord c woken => if c < cfg.numCoords then coordStep cfg s c woken else none
  | .worker w => if w < cfg.numWorkers then workerStep cfg s w else none

def poolMachine (cfg : PoolConfig) : Machine PoolState PoolLabel where
  step := poolStep cfg

/-! ## Labels for small runs -/

def coordSteps (c n : Nat) : List PoolLabel := List.replicate n (.coord c [])

def workerSteps (w n : Nat) : List PoolLabel := List.replicate n (.worker w)

/-- A batch of one segment is set up, up to `batch_ready`. -/
def setUp (c items : Nat) : List PoolLabel :=
  .submit c (.dispatch items false 0 [items]) :: coordSteps c 14

end FaultMesh
