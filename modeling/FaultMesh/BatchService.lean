import FaultMesh.BlockService
import FaultMesh.Lib.Runs

/-!
# Servicing a batch

The two ways a sorted batch of faults is serviced. `service_fault_batch` walks over the batch and
hands each run of faults to `service_fault_batch_dispatch`. `service_fault_batch_parallel` first
groups the faults by VA block, and then has the groups serviced, on the calling thread or by the
workers of the pool.

What is asked on the way (the mm and the GPU VA space of a VA space, ranges and blocks, how ATS
service and block service end) is answered from outside. TLB invalidations, replays and profiling
are left out. What became of each fault is recorded along with the variables of the source.
-/

namespace FaultMesh

/-! ## What the batch functions ask -/

abbrev MmId := Nat

abbrev GpuVaSpaceId := Nat

/-- How `service_fault_batch_ats` comes to a fault. -/
inductive AtsVisit where
  /-- As the first fault of a call of `service_fault_batch_ats_sub`, which compares it with none. -/
  | first
  /-- Behind another fault of the call. -/
  | next
  /-- Behind another fault of a call that ends there, since the fault lies in the next 2 MB and
  replays are issued for each of them. The next call begins with it. -/
  | nextThenFirst
  /-- Not at all: the call before serviced its last faults a second time, and `block_faults` is
  ahead of it. -/
  | passedOver
  /-- There is no vma at its address. -/
  | noVma
  deriving DecidableEq, Repr

/-- What `service_fault_batch_ats` did. Faults are given by their place. -/
structure AtsOutcome where
  status : NvStatus := .ok
  /-- The number of faults taken along with the first one. -/
  more : Nat := 0
  visit : Nat → AtsVisit := fun _ => .first
  /-- The faults that could not be serviced. -/
  fatal : Nat → Option CancelVaMode := fun _ => none
  /-- When the service failed, the fault behind the last one had been counted already. -/
  countsNext : Bool := false

def AtsOutcome.ahead (out : AtsOutcome) : Bool := out.countsNext && out.status ≠ .ok

/-- The answers to what the batch functions ask. Faults are given by their place in the sorted
batch. -/
structure BatchAnswers where
  /-- What the loops over the faults of a block ask. -/
  block : BlockAnswers
  /-- `va_space_mm.mm`, which stays when the mm is torn down. -/
  vaSpaceMm : VaSpaceId → Option MmId
  mmAlive : VaSpaceId → Bool
  /-- `uvm_gpu_va_space_get_by_parent_gpu`. -/
  gpuVaSpace : VaSpaceId → Option GpuVaSpaceId
  /-- The range that `uvm_va_space_iter_first` finds holds the address of the fault. -/
  inRange : Nat → Bool
  findCreateInRange : Nat → Except NvStatus VaBlock
  /-- `uvm_hmm_va_block_find_create`. -/
  hmmFindCreate : Nat → Except NvStatus VaBlock
  atsCanServiceFaults : VaSpaceId → Bool
  atsCheckInGmmuRegion : Nat → Bool
  /-- `service_fault_batch_ats`, from the fault on. -/
  serviceFaultBatchAts : Nat → AtsOutcome
  /-- How applying the changes to the block of the fault ends, after the given number of retries:
  `uvm_va_block_service_locked` and adding the tracker. -/
  serviceLocked : Nat → Nat → NvStatus

/-- `uvm_va_space_mm_retain_lock`. -/
def BatchAnswers.mm (ans : BatchAnswers) (vaSpace : VaSpaceId) : Option MmId :=
  if ans.mmAlive vaSpace then ans.vaSpaceMm vaSpace else none

inductive Disposition where
  /-- Handed to the service of a managed block. -/
  | serviced
  | fatal
  | invalidPrefetch
  | ats
  | hmm
  /-- There is no GPU VA space. -/
  | ignored
  deriving DecidableEq, Repr

/-! ## The serial path -/

def ServiceBatch.serviceFaultBatchFatal (b : ServiceBatch) (i : Nat) (status : NvStatus)
    (mode : CancelVaMode) : ServiceBatch :=
  let isDuplicate := 0 < i && checkFaultEntryDuplicate (b.entries i) (b.entries (i - 1))
  let b := if isDuplicate then b.duplicateFlags i else b
  if (b.entries i).accessType = .prefetch then b.markFaultInvalidPrefetch i
  else b.markFaultFatal i status.toFatalReason mode

def ServiceBatch.serviceFaultBatchFatalNotify (b : ServiceBatch) (i : Nat) (status : NvStatus)
    (mode : CancelVaMode) : ServiceBatch :=
  let isDuplicate := 0 < i && checkFaultEntryDuplicate (b.entries i) (b.entries (i - 1))
  (b.serviceFaultBatchFatal i status mode).updateBatch i isDuplicate

/-- What `service_fault_batch` does with a fault that is fatal when it comes to it. -/
def ServiceBatch.noteFatal (b : ServiceBatch) (i : Nat) : ServiceBatch :=
  { b with
    fatalVaSpace := b.fatalVaSpace.or (b.entries i).vaSpace
    utlbHasFatalFaults := Function.update b.utlbHasFatalFaults (b.entries i).utlbId true }

/-- `update_batch_and_notify_fault` for the fault at place `i`, behind another one. -/
def ServiceBatch.countNext (b : ServiceBatch) (i : Nat) : ServiceBatch :=
  b.updateBatch i (0 < i && checkFaultEntryDuplicate (b.entries i) (b.entries (i - 1)))

/-- What `service_fault_batch_ats` counts when it comes to a fault. -/
def ServiceBatch.visitAts (b : ServiceBatch) (i : Nat) : AtsVisit → ServiceBatch
  | .first => b.updateBatch i false
  | .next => b.countNext i
  | .nextThenFirst => (b.countNext i).updateBatch i false
  | .passedOver => b
  | .noVma => b.serviceFaultBatchFatalNotify i .errInvalidAddress .all

/-- The counts and the mark that `service_fault_batch_ats` leaves for the fault at place `i`. -/
def ServiceBatch.markAtsFault (out : AtsOutcome) (i : Nat) (b : ServiceBatch) : ServiceBatch :=
  let b := b.visitAts i (out.visit i)
  match out.fatal i with
  | some mode => b.serviceFaultBatchFatal i .errInvalidAddress mode
  | none => b

/-- What `service_fault_batch_ats` leaves for the `k` faults from place `i` on. -/
def ServiceBatch.markAts (out : AtsOutcome) : Nat → Nat → ServiceBatch → ServiceBatch
  | 0, i, b => if out.ahead && i < b.numCoalescedFaults then b.countNext i else b
  | k + 1, i, b => markAts out k (i + 1) (b.markAtsFault out i)

/-- `block_faults` of `service_fault_batch_block_locked`. -/
def ServiceBatch.blockFaults (b : ServiceBatch) (block : VaBlock) (i : Nat) : Nat :=
  countWhile (fun j => (b.entries j).vaSpace = some block.vaSpace &&
    (b.entries j).faultAddress ≤ block.last) (b.numCoalescedFaults - i) i

/-- `block_faults` of `service_fault_batch_ats`, which keeps to the VA space. -/
def ServiceBatch.atsFaults (b : ServiceBatch) (out : AtsOutcome) (i : Nat) : Nat :=
  countWhile (fun j => (b.entries j).vaSpace = (b.entries i).vaSpace)
    (min (out.more + 1) (b.numCoalescedFaults - i)) i

/-- The variables of `service_fault_batch`. -/
structure SerialBatch where
  batch : ServiceBatch
  ctx : ServiceBlockContext := {}
  vaSpace : Option VaSpaceId := none
  gpuVaSpace : Option GpuVaSpaceId := none
  mm : Option MmId := none
  retries : Nat := 0
  disposition : Nat → Option Disposition := fun _ => none

namespace SerialBatch

def record (s : SerialBatch) (i k : Nat) (d : Disposition) : SerialBatch :=
  { s with disposition := fun j => if i ≤ j ∧ j < i + k then some d else s.disposition j }

/-- Leave the VA space for the one of the fault, if it is another. -/
def enterVaSpace (ans : BatchAnswers) (vaSpace : Option VaSpaceId) (s : SerialBatch) : SerialBatch :=
  if vaSpace = s.vaSpace then s
  else
    { s with
      vaSpace := vaSpace
      mm := vaSpace.bind ans.mm
      gpuVaSpace := vaSpace.bind ans.gpuVaSpace }

def serviceFaultBatchBlock (ans : BatchAnswers) (block : VaBlock) (i : Nat) (d : Disposition)
    (s : SerialBatch) : SerialBatch × NvStatus × Nat :=
  let r := serviceFaultBatchBlockLocked ans.block block s.batch { s.ctx with numRetries := 0 } i
  let k := s.batch.blockFaults block i
  ({ s with batch := r.batch, ctx := r.ctx }.record i k d, ans.serviceLocked i s.retries, k)

/-- The fault is cancelled, or waived if it is a prefetch. -/
def cancelFault (i : Nat) (status : NvStatus) (s : SerialBatch) : SerialBatch × NvStatus × Nat :=
  let d := if (s.batch.entries i).accessType = .prefetch then .invalidPrefetch else .fatal
  ({ s with batch := s.batch.serviceFaultBatchFatalNotify i status .all }.record i 1 d, .ok, 1)

/-- `service_fault_batch_dispatch`: the status and `block_faults`. -/
def serviceFaultBatchDispatch (ans : BatchAnswers) (i : Nat) (s : SerialBatch) :
    SerialBatch × NvStatus × Nat :=
  let found :=
    if ans.inRange i then ans.findCreateInRange i
    else if s.mm.isSome then ans.hmmFindCreate i
    else .error .errInvalidAddress
  match found with
  | .ok block =>
    s.serviceFaultBatchBlock ans block i (if ans.inRange i then .serviced else .hmm)
  | .error status =>
    if status = .errInvalidAddress && s.vaSpace.any ans.atsCanServiceFaults then
      if ans.atsCheckInGmmuRegion i then s.cancelFault i .errInvalidAddress
      else
        let out := ans.serviceFaultBatchAts i
        let k := s.batch.atsFaults out i
        ({ s with batch := s.batch.markAts out k i }.record i k .ats, out.status, k)
    else s.cancelFault i status

/-- One round of the loop of `service_fault_batch`: the place to go on with, or the status the
loop ends with. -/
def serviceRound (ans : BatchAnswers) (i : Nat) (s : SerialBatch) :
    SerialBatch × Except NvStatus Nat :=
  let entry := s.batch.entries i
  let s := s.enterVaSpace ans entry.vaSpace
  if entry.isFatal then ({ s with batch := s.batch.noteFatal i }.record i 1 .fatal, .ok (i + 1))
  else if s.gpuVaSpace.isNone then (s.record i 1 .ignored, .ok (i + 1))
  else
    let r := s.serviceFaultBatchDispatch ans i
    match r.2.1 with
    | .ok => (r.1, .ok (i + r.2.2))
    -- the VA space is left and the fault is looked up again
    | .warnMoreProcessingRequired | .warnMismatchedTarget =>
      ({ r.1 with
          vaSpace := none
          mm := none
          retries := r.1.retries + 1
          disposition := s.disposition }, .ok i)
    | status => (r.1, .error status)

end SerialBatch

/-- The loop of `service_fault_batch` from place `i` on, for at most `fuel` rounds. -/
def serviceFaultBatch (ans : BatchAnswers) : Nat → Nat → SerialBatch → Option (SerialBatch × NvStatus)
  | 0, i, s => if i < s.batch.numCoalescedFaults then none else some (s, .ok)
  | fuel + 1, i, s =>
    if i < s.batch.numCoalescedFaults then
      match s.serviceRound ans i with
      | (s', .ok j) => serviceFaultBatch ans fuel j s'
      | (s', .error status) => some (s', status)
    else some (s, .ok)

/-! ## Grouping by block -/

def uvmParallelFaultMaxBlocks : Nat := 1024

/-- `uvm_block_fault_group_t`. -/
structure BlockFaultGroup where
  vaBlock : VaBlock
  firstFaultIndex : Nat
  numFaults : Nat
  deriving DecidableEq

/-- `uvm_va_space_snapshot_t`. -/
structure VaSpaceSnapshot where
  vaSpace : VaSpaceId
  gpuVaSpace : GpuVaSpaceId
  mm : Option MmId
  deriving DecidableEq, Repr

/-- The calls on the locks of a VA space and its mm. -/
inductive LockOp where
  /-- `uvm_va_space_mm_retain_lock`, with the mm it returns. -/
  | mmRetainLock (vaSpace : VaSpaceId) (mm : Option MmId)
  | mmReleaseUnlock (vaSpace : VaSpaceId) (mm : Option MmId)
  | upReadMmap (mm : MmId)
  | mmRelease (vaSpace : VaSpaceId)
  | downRead (vaSpace : VaSpaceId)
  | upRead (vaSpace : VaSpaceId)
  deriving DecidableEq, Repr

/-- The variables of the first phase of `service_fault_batch_parallel`. -/
structure Grouping where
  status : NvStatus := .ok
  vaSpace : Option VaSpaceId := none
  gpuVaSpace : Option GpuVaSpaceId := none
  mm : Option MmId := none
  /-- `va_space_snapshot`, if it was written. -/
  vaSpaceSnapshot : Option VaSpaceSnapshot := none
  groups : List BlockFaultGroup := []
  currentBlock : Option VaBlock := none
  currentBlockFirstFault : Nat := 0
  currentBlockFaultCount : Nat := 0
  fatalVaSpace : Option VaSpaceId := none
  /-- The calls on locks so far. -/
  lockOps : List LockOp := []

namespace Grouping

/-- Write the current block to `groups`, if there is room. -/
def flush (g : Grouping) : Grouping :=
  match g.currentBlock with
  | some block =>
    if 0 < g.currentBlockFaultCount ∧ g.groups.length < uvmParallelFaultMaxBlocks then
      { g with groups := g.groups ++ [⟨block, g.currentBlockFirstFault, g.currentBlockFaultCount⟩] }
    else g
  | none => g

/-- The calls on locks when the VA space changes. -/
def changeLocks (g : Grouping) (vaSpace : VaSpaceId) (mm : Option MmId) : List LockOp :=
  (match g.vaSpace with
    | some old => [.upRead old, .mmReleaseUnlock old g.mm]
    | none => []) ++ [.mmRetainLock vaSpace mm, .downRead vaSpace]

def changeVaSpace (ans : BatchAnswers) (vaSpace : VaSpaceId) (g : Grouping) : Grouping :=
  let mm := ans.mm vaSpace
  let gpuVaSpace := ans.gpuVaSpace vaSpace
  { g.flush with
    currentBlock := none
    currentBlockFaultCount := 0
    vaSpace := some vaSpace
    mm := mm
    gpuVaSpace := gpuVaSpace
    vaSpaceSnapshot :=
      match gpuVaSpace with
      | some gpuVaSpace => some ⟨vaSpace, gpuVaSpace, mm⟩
      | none => g.vaSpaceSnapshot
    lockOps := g.lockOps ++ g.changeLocks vaSpace mm }

def holds (g : Grouping) (addr : Nat) : Bool :=
  g.currentBlock.any fun block => block.start ≤ addr && addr ≤ block.last

def locate (ans : BatchAnswers) (i addr : Nat) (g : Grouping) : Grouping :=
  if g.holds addr then { g with currentBlockFaultCount := g.currentBlockFaultCount + 1 }
  else if ans.inRange i then
    match ans.findCreateInRange i with
    | .error status => { g with status := status }
    | .ok block =>
      if some block = g.currentBlock then
        { g with status := .ok, currentBlockFaultCount := g.currentBlockFaultCount + 1 }
      else
        { g.flush with
          status := .ok
          currentBlock := some block
          currentBlockFirstFault := i
          currentBlockFaultCount := 1 }
  else g

end Grouping

/-- The body of the grouping loop for the fault at place `i`. -/
def groupFault (ans : BatchAnswers) (entries : Nat → FaultEntry) (i : Nat) (g : Grouping) : Grouping :=
  let entry := entries i
  let count (g : Grouping) : Grouping :=
    if entry.isFatal then { g with fatalVaSpace := g.fatalVaSpace.or g.vaSpace }
    else if g.gpuVaSpace.isNone then g
    else g.locate ans i entry.faultAddress
  match entry.vaSpace with
  -- every entry of a sorted batch has a VA space
  | none => g
  | some vaSpace =>
    if g.vaSpace = some vaSpace then count g
    else
      let g := g.changeVaSpace ans vaSpace
      -- without a GPU VA space the fault is left before it is tested for being fatal
      if g.gpuVaSpace.isNone then g else count g

def groupFaults (ans : BatchAnswers) (entries : Nat → FaultEntry) (g : Grouping) : Nat → Grouping
  | 0 => g
  | n + 1 => groupFault ans entries n (groupFaults ans entries g n)

/-- The first phase of `service_fault_batch_parallel`. -/
def groupBatch (ans : BatchAnswers) (batch : ServiceBatch) : Grouping :=
  (groupFaults ans batch.entries { fatalVaSpace := batch.fatalVaSpace }
    batch.numCoalescedFaults).flush

/-! ## Servicing the groups -/

/-- What the second phase of `service_fault_batch_parallel` reads. Module parameters can change
between two reads. -/
structure ParallelConfig where
  /-- `uvm_parallel_fault_processing`, read for the inline fallback. -/
  inlineProcessing : Nat := 2
  /-- `uvm_parallel_fault_processing`, read for the dispatch. -/
  dispatchProcessing : Nat := 2
  /-- The GPU was given the pool. -/
  hasPool : Bool := true
  /-- `uvm_parallel_block_threshold`, compared with zero. -/
  thresholdTest : Nat := 0
  /-- `uvm_parallel_block_threshold`, compared with the number of groups. -/
  threshold : Nat := 0
  /-- The contexts of the first worker are allocated. -/
  workerContext : Bool := true
  deriving DecidableEq, Repr

/-- `uvm_parallel_fault_enabled`, as long as the parameter keeps its value. -/
def ParallelConfig.Enabled (cfg : ParallelConfig) : Prop :=
  cfg.dispatchProcessing = 2 ∧ cfg.hasPool = true

instance (cfg : ParallelConfig) : Decidable cfg.Enabled := inferInstanceAs (Decidable (_ ∧ _))

inductive ServicePath where
  /-- The coordinator, for few groups. -/
  | inline
  /-- The workers. -/
  | dispatched
  | none
  deriving DecidableEq, Repr

def ParallelConfig.path (cfg : ParallelConfig) (numGroups : Nat) : ServicePath :=
  if cfg.inlineProcessing = 2 ∧ cfg.hasPool ∧ 0 < cfg.thresholdTest ∧ 0 < numGroups ∧
      numGroups ≤ cfg.threshold ∧ cfg.workerContext then .inline
  else if cfg.dispatchProcessing = 2 ∧ cfg.hasPool then .dispatched
  else .none

theorem ParallelConfig.Enabled.path_ne_none {cfg : ParallelConfig} (h : cfg.Enabled)
    (numGroups : Nat) : cfg.path numGroups ≠ .none := by
  have hdispatch : cfg.dispatchProcessing = 2 ∧ cfg.hasPool = true := h
  rw [path, if_pos hdispatch]
  split
  · exact nofun
  · exact nofun

/-- The inputs of a `uvm_kthread_work_item_t`. -/
structure BatchItem where
  vaBlock : VaBlock
  /-- The snapshot, if it was written. -/
  snapshot : Option VaSpaceSnapshot
  firstFaultIndex : Nat
  numFaults : Nat
  deriving DecidableEq

/-- The items of the groups. The inline loop and the workers fill them in the same way; the workers
take the snapshot from `batch_snapshot`, which is written from the same variable. -/
def Grouping.items (g : Grouping) (path : ServicePath) : List BatchItem :=
  match path with
  | .none => []
  | _ => g.groups.map fun group =>
    ⟨group.vaBlock, g.vaSpaceSnapshot, group.firstFaultIndex, group.numFaults⟩

/-- The calls on locks before the items are serviced. -/
def Grouping.serviceLockOps (g : Grouping) (path : ServicePath) : List LockOp :=
  g.lockOps ++
    match path, g.vaSpace with
    | .dispatched, some vaSpace =>
      .upRead vaSpace ::
        match g.mm with
        | some mm => [.upReadMmap mm]
        | none => []
    | _, _ => []

/-- The calls on locks until the function returns: the inline fallback releases what the grouping loop
holds, the dispatch only keeps the reference, and drops it at its end. -/
def Grouping.returnLockOps (g : Grouping) (path : ServicePath) : List LockOp :=
  g.serviceLockOps path ++
    match path, g.vaSpace, g.mm with
    | .inline, some vaSpace, some mm => [.upRead vaSpace, .mmReleaseUnlock vaSpace (some mm)]
    | .inline, some vaSpace, none => [.upRead vaSpace]
    | .dispatched, some vaSpace, some _ => [.mmRelease vaSpace]
    | _, _, _ => []

/-- The faults the loop of `service_block_faults_kthread` comes to. -/
def BatchItem.visited (entries : Nat → FaultEntry) (item : BatchItem) : List Nat :=
  (List.range' item.firstFaultIndex item.numFaults).takeWhile fun i =>
    item.vaBlock.start ≤ (entries i).faultAddress && (entries i).faultAddress ≤ item.vaBlock.last

/-- Keep the first status that is not `NV_OK`. -/
def foldStatus (status : NvStatus) (statuses : List NvStatus) : NvStatus :=
  statuses.foldl (fun acc st => if acc = .ok then st else acc) status

/-- What `service_fault_batch_parallel` leaves. -/
structure ParallelBatch where
  batch : ServiceBatch
  items : List BatchItem
  status : NvStatus
  disposition : Nat → Option Disposition

/-- What becomes of a fault on the parallel path. -/
def parallelDisposition (ans : BatchAnswers) (entries : Nat → FaultEntry) (items : List BatchItem)
    (i : Nat) : Option Disposition :=
  if (entries i).isFatal then some .fatal
  else if ((entries i).vaSpace.bind ans.gpuVaSpace).isNone then some .ignored
  else if items.any fun item => i ∈ item.visited entries then some .serviced
  else none

/-- `service_fault_batch_parallel`. The workers write to the items only, so that of the batch the
grouping loop's `fatal_va_space` is all that changes. -/
def serviceFaultBatchParallel (cfg : ParallelConfig) (ans : BatchAnswers) (batch : ServiceBatch) :
    ParallelBatch :=
  let g := groupBatch ans batch
  let path := cfg.path g.groups.length
  let items := g.items path
  let statuses := items.map fun item => ans.serviceLocked item.firstFaultIndex 0
  { batch := { batch with fatalVaSpace := g.fatalVaSpace }
    items := items
    status :=
      match path with
      | .inline => foldStatus g.status statuses
      -- `uvm_kthread_dispatch_and_wait` overwrites the status of the grouping loop
      | .dispatched => foldStatus .ok statuses
      | .none => g.status
    disposition := parallelDisposition ans batch.entries items }

end FaultMesh
