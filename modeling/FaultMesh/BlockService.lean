import FaultMesh.Types

/-!
# Servicing the faults of one VA block

The two loops over the sorted faults of a block: `service_fault_batch_block_locked`, used by the
serial path, and `service_block_faults_kthread`, used by the workers. Both decide, fault by fault,
whether the page is to be serviced, and enter it into a service block context; copies and mappings
are made from that context afterwards.

What the loops ask (permissions, migratability, mappings, thrashing hints, the new residency) is
answered from outside, once per place in the sorted batch. Only managed blocks are covered.
-/

namespace FaultMesh

open Function

/-! ## Blocks, batches and contexts -/

def pagesPerUvmVaBlock : Nat := 512

/-- A managed `uvm_va_block_t`: a page-aligned range of at most 512 pages. -/
structure VaBlock where
  vaSpace : VaSpaceId
  start : Nat
  /-- The last address, `end` in the source. -/
  last : Nat
  start_aligned : start % pageSize = 0
  last_lt : last < start + pagesPerUvmVaBlock * pageSize
  deriving DecidableEq

def VaBlock.cpuPageIndex (block : VaBlock) (addr : Nat) : Nat := (addr - block.start) / pageSize

/-- The part of `uvm_fault_service_batch_context_t` that servicing reads and writes. The pointers
in `ordered_fault_cache` are distinct, so the entries are taken by their place in it. -/
structure ServiceBatch where
  entries : Nat → FaultEntry
  numCoalescedFaults : Nat
  /-- `utlbs[].has_fatal_faults`. -/
  utlbHasFatalFaults : Nat → Bool := fun _ => false
  numInvalidPrefetchFaults : Nat := 0
  numDuplicateFaults : Nat := 0
  numStaleFaults : Nat := 0
  fatalVaSpace : Option VaSpaceId := none
  hasThrottledFaults : Bool := false

/-- `uvm_service_block_context_t`, as far as the loops write it. A mask that no page was entered
into since the counters were reset holds what an earlier call left. -/
structure ServiceBlockContext where
  numRetries : Nat := 0
  residentProcessors : Nat → Bool := fun _ => false
  newResidency : Nat → Nat → Bool := fun _ _ => false
  thrashingPinCount : Nat := 0
  thrashingPinMask : Nat → Bool := fun _ => false
  readDuplicateCount : Nat := 0
  readDuplicateMask : Nat → Bool := fun _ => false
  accessType : Nat → AccessType := fun _ => .prefetch

/-- `uvm_perf_thrashing_hint_t`, by its type. -/
inductive ThrashingHint where
  | none
  | pin
  | throttle
  deriving DecidableEq, Repr

/-- The answers to what the loops ask about the fault at a place of the sorted batch. -/
structure BlockAnswers where
  /-- `uvm_va_block_check_logical_permissions`, for an access type and whether migration is
  allowed. -/
  logicalPermissions : Nat → AccessType → Bool → NvStatus
  /-- `migratable` of the range group iterator at the fault. -/
  migratable : Nat → Bool
  gpuAuthorized : Nat → Prot → Bool
  /-- `uvm_perf_thrashing_get_hint`. -/
  thrashingHint : Nat → ThrashingHint
  /-- `uvm_va_block_select_residency` for an access type mask: the processor and whether the page
  is read-duplicated. -/
  selectResidency : Nat → Nat → Nat × Bool

/-! ## Marking entries -/

namespace ServiceBatch

def setEntry (b : ServiceBatch) (i : Nat) (e : FaultEntry) : ServiceBatch :=
  { b with entries := update b.entries i e }

/-- The counter part of `update_batch_and_notify_fault`. -/
def updateBatch (b : ServiceBatch) (i : Nat) (isDuplicate : Bool) : ServiceBatch :=
  let n := (b.entries i).numInstances
  { b with numDuplicateFaults := b.numDuplicateFaults + (if isDuplicate then n else n - 1) }

def markFaultInvalidPrefetch (b : ServiceBatch) (i : Nat) : ServiceBatch :=
  { b.setEntry i { b.entries i with isInvalidPrefetch := true } with
    numInvalidPrefetchFaults := b.numInvalidPrefetchFaults + (b.entries i).numInstances }

def markFaultThrottled (b : ServiceBatch) (i : Nat) : ServiceBatch :=
  { b.setEntry i { b.entries i with isThrottled := true } with hasThrottledFaults := true }

def markFaultFatal (b : ServiceBatch) (i : Nat) (reason : FatalReason) (mode : CancelVaMode) :
    ServiceBatch :=
  { b.setEntry i { b.entries i with isFatal := true, fatalReason := reason, cancelVaMode := mode } with
    utlbHasFatalFaults := update b.utlbHasFatalFaults (b.entries i).utlbId true
    fatalVaSpace := b.fatalVaSpace.or (b.entries i).vaSpace }

/-- `fault_entry_duplicate_flags`, the previous entry being the one before in the order. -/
def duplicateFlags (b : ServiceBatch) (i : Nat) : ServiceBatch :=
  let previous := b.entries (i - 1)
  let b := if previous.isInvalidPrefetch then b.markFaultInvalidPrefetch i else b
  if previous.isThrottled then b.markFaultThrottled i else b

/-- The counter part of `account_stale_fault`. -/
def accountStaleFault (b : ServiceBatch) : ServiceBatch :=
  { b with numStaleFaults := b.numStaleFaults + 1 }

end ServiceBatch

/-- `check_fault_access_permissions`: the access type that can be serviced, if any. -/
def checkFaultAccessPermissions (ans : BlockAnswers) (numRetries : Nat) (b : ServiceBatch) (i : Nat) :
    Option AccessType × ServiceBatch :=
  let entry := b.entries i
  let permStatus := ans.logicalPermissions i entry.accessType (ans.migratable i)
  if permStatus = .ok then (some entry.accessType, b)
  else if entry.accessType = .prefetch then
    (none, if numRetries = 0 then b.markFaultInvalidPrefetch i else b)
  else if entry.accessType > .read then
    -- pending reads of the page are serviced before the writes are cancelled
    if accessTypeMaskTest entry.accessTypeMask .read then
      let readStatus := ans.logicalPermissions i .read (ans.migratable i)
      if readStatus = .ok then
        (some .read, b.markFaultFatal i permStatus.toFatalReason .writeAndAtomic)
      else (none, b.markFaultFatal i readStatus.toFatalReason .all)
    else (none, b.markFaultFatal i permStatus.toFatalReason .writeAndAtomic)
  else (none, b.markFaultFatal i permStatus.toFatalReason .all)

/-! ## Entering a page into the context -/

namespace ServiceBlockContext

/-- What both functions reset before their loops. -/
def begin (ctx : ServiceBlockContext) : ServiceBlockContext :=
  { ctx with
    residentProcessors := fun _ => false
    thrashingPinCount := 0
    readDuplicateCount := 0 }

/-- `thrashing_pin_mask`, zeroed for the first page. -/
def pinPage (ctx : ServiceBlockContext) (page : Nat) : ServiceBlockContext :=
  let mask := if ctx.thrashingPinCount = 0 then fun _ => false else ctx.thrashingPinMask
  { ctx with
    thrashingPinCount := ctx.thrashingPinCount + 1
    thrashingPinMask := update mask page true }

/-- `new_residency` of a processor, zeroed when the processor comes in. -/
def enterResidency (ctx : ServiceBlockContext) (proc page : Nat) : ServiceBlockContext :=
  let mask := if ctx.residentProcessors proc then ctx.newResidency proc else fun _ => false
  { ctx with
    residentProcessors := update ctx.residentProcessors proc true
    newResidency := update ctx.newResidency proc (update mask page true) }

/-- `read_duplicate_mask`, zeroed for the first page. -/
def readDuplicatePage (ctx : ServiceBlockContext) (page : Nat) : ServiceBlockContext :=
  let mask := if ctx.readDuplicateCount = 0 then fun _ => false else ctx.readDuplicateMask
  { ctx with
    readDuplicateCount := ctx.readDuplicateCount + 1
    readDuplicateMask := update mask page true }

def setAccessType (ctx : ServiceBlockContext) (page : Nat) (a : AccessType) : ServiceBlockContext :=
  { ctx with accessType := update ctx.accessType page a }

end ServiceBlockContext

/-! ## The serial loop -/

/-- The variables of `service_fault_batch_block_locked`. -/
structure SerialLoop where
  batch : ServiceBatch
  ctx : ServiceBlockContext
  firstPageIndex : Nat := pagesPerUvmVaBlock
  lastPageIndex : Nat := 0
  pageFaultCount : Nat := 0

/-- Enter the page of the fault at place `i` into the context. -/
def SerialLoop.servicePage (ans : BlockAnswers) (block : VaBlock) (i : Nat) (access : AccessType)
    (s : SerialLoop) : SerialLoop :=
  let entry := s.batch.entries i
  let pageIndex := block.cpuPageIndex entry.faultAddress
  let mask := if access = entry.accessType then entry.accessTypeMask else access.maskBit
  let ctx := if ans.thrashingHint i = .pin then s.ctx.pinPage pageIndex else s.ctx
  let residency := ans.selectResidency i mask
  let ctx := ctx.enterResidency residency.1 pageIndex
  let ctx := if residency.2 then ctx.readDuplicatePage pageIndex else ctx
  { s with
    ctx := ctx.setAccessType pageIndex access
    firstPageIndex := if pageIndex < s.firstPageIndex then pageIndex else s.firstPageIndex
    lastPageIndex := if s.lastPageIndex < pageIndex then pageIndex else s.lastPageIndex
    pageFaultCount := s.pageFaultCount + 1 }

/-- A fault that is not waived as a duplicate: the permission, mapping and thrashing checks. -/
def SerialLoop.serviceChecked (ans : BlockAnswers) (block : VaBlock) (i : Nat) (s : SerialLoop) :
    SerialLoop :=
  match checkFaultAccessPermissions ans s.ctx.numRetries s.batch i with
  | (none, b) => { s with batch := b }
  | (some access, b) =>
    if ans.gpuAuthorized i access.toProt then { s with batch := b.accountStaleFault }
    else if ans.thrashingHint i = .throttle then
      { s with batch := if s.ctx.numRetries = 0 then b.markFaultThrottled i else b }
    else { s with batch := b }.servicePage ans block i access

/-- Reset and count the fault at place `i`, and mark it as the fault before if it repeats it. -/
def ServiceBatch.noteFault (numRetries i : Nat) (isDuplicate : Bool) (b : ServiceBatch) :
    ServiceBatch :=
  let b := b.setEntry i { b.entries i with isThrottled := false, isInvalidPrefetch := false }
  let b := if numRetries = 0 then b.updateBatch i isDuplicate else b
  if isDuplicate then b.duplicateFlags i else b

/-- The body of the loop of `service_fault_batch_block_locked` for the fault at place `i`. -/
def serviceFault (ans : BlockAnswers) (block : VaBlock) (first i : Nat) (s : SerialLoop) :
    SerialLoop :=
  let isDuplicate :=
    first < i && checkFaultEntryDuplicate (s.batch.entries i) (s.batch.entries (i - 1))
  let s := { s with batch := s.batch.noteFault s.ctx.numRetries i isDuplicate }
  -- the most intrusive fault of a page is serviced, the rest is waived
  if isDuplicate && !(s.batch.entries (i - 1)).isFatal then s else s.serviceChecked ans block i

/-- The loop of `service_fault_batch_block_locked` from place `i` on. -/
def serviceFaults (ans : BlockAnswers) (block : VaBlock) (first : Nat) :
    Nat → Nat → SerialLoop → SerialLoop
  | 0, _, s => s
  | fuel + 1, i, s =>
    if (s.batch.entries i).vaSpace = some block.vaSpace ∧
        (s.batch.entries i).faultAddress ≤ block.last then
      serviceFaults ans block first fuel (i + 1) (serviceFault ans block first i s)
    else s

/-- `service_fault_batch_block_locked` up to the call of `uvm_va_block_service_locked`. -/
def serviceFaultBatchBlockLocked (ans : BlockAnswers) (block : VaBlock) (batch : ServiceBatch)
    (ctx : ServiceBlockContext) (first : Nat) : SerialLoop :=
  serviceFaults ans block first (batch.numCoalescedFaults - first) first
    { batch := batch, ctx := ctx.begin }

/-- The region passed to `uvm_va_block_service_locked`, if it is called. -/
def SerialLoop.region (s : SerialLoop) : Option (Nat × Nat) :=
  if 0 < s.pageFaultCount then some (s.firstPageIndex, s.lastPageIndex + 1) else none

/-! ## The loop of the workers -/

/-- The variables of `service_block_faults_kthread`. It does not write to the batch. -/
structure KthreadLoop where
  ctx : ServiceBlockContext
  firstPageIndex : Nat := pagesPerUvmVaBlock
  lastPageIndex : Nat := 0
  hasFatalFaults : Bool := false
  faultsServiced : Nat := 0

/-- The fault before is a non-fatal one on the same page. -/
def repeatsPrevious (entries : Nat → FaultEntry) (i : Nat) : Bool :=
  0 < i && checkFaultEntryDuplicate (entries i) (entries (i - 1)) && !(entries (i - 1)).isFatal

/-- The body of the loop of `service_block_faults_kthread` for the fault at place `i`. -/
def kthreadFault (ans : BlockAnswers) (block : VaBlock) (entries : Nat → FaultEntry) (i : Nat)
    (s : KthreadLoop) : KthreadLoop :=
  let entry := entries i
  let s := { s with faultsServiced := s.faultsServiced + 1 }
  if entry.isFatal then { s with hasFatalFaults := true }
  else if repeatsPrevious entries i then s
  else if ans.gpuAuthorized i entry.accessType.toProt then s
  else if ans.thrashingHint i = .throttle then s
  else
    let pageIndex := block.cpuPageIndex entry.faultAddress
    let ctx := if ans.thrashingHint i = .pin then s.ctx.pinPage pageIndex else s.ctx
    let residency := ans.selectResidency i entry.accessTypeMask
    let ctx := (ctx.enterResidency residency.1 pageIndex).setAccessType pageIndex entry.accessType
    { s with
      ctx := if residency.2 then ctx.readDuplicatePage pageIndex else ctx
      firstPageIndex := if pageIndex < s.firstPageIndex then pageIndex else s.firstPageIndex
      lastPageIndex := if s.lastPageIndex < pageIndex then pageIndex else s.lastPageIndex }

/-- The loop of `service_block_faults_kthread` over the given number of faults from place `i` on. -/
def kthreadFaults (ans : BlockAnswers) (block : VaBlock) (entries : Nat → FaultEntry) :
    Nat → Nat → KthreadLoop → KthreadLoop
  | 0, _, s => s
  | n + 1, i, s =>
    if (entries i).faultAddress < block.start ∨ block.last < (entries i).faultAddress then s
    else kthreadFaults ans block entries n (i + 1) (kthreadFault ans block entries i s)

/-- `service_block_faults_kthread` for a live managed block, up to the call of
`uvm_va_block_service_locked`. -/
def serviceBlockFaultsKthread (ans : BlockAnswers) (block : VaBlock) (batch : ServiceBatch)
    (ctx : ServiceBlockContext) (first numFaults : Nat) : KthreadLoop :=
  kthreadFaults ans block batch.entries numFaults first
    { ctx := { ctx.begin with numRetries := 0 } }

/-- The region passed to `uvm_va_block_service_locked`, if it is called. -/
def KthreadLoop.region (s : KthreadLoop) : Option (Nat × Nat) :=
  if s.firstPageIndex ≤ s.lastPageIndex then some (s.firstPageIndex, s.lastPageIndex + 1) else none

end FaultMesh
