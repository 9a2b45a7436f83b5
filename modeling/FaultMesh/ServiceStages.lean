import FaultMesh.AllocationRetry
import FaultMesh.Lib.Calls

/-!
# Servicing a block in one piece and in two

`uvm_va_block_service_locked` makes the pages of a context resident and maps them. The pipeline of
the workers does the same in two calls: `uvm_va_block_service_locked_populate` unmaps the pages and
allocates memory for them, `uvm_va_block_service_copy_finish` copies and maps them.

The calls are modelled on a managed block: its residency and mappings, the masks of the block
context that the calls leave behind, and the checks for ECC errors. The copies themselves, the
page tables and the hardware are parameters. The CPU's memory counts as one, whatever its nodes.

## Key Definitions

- `Platform`: what the calls ask of the rest of the driver
- `serviceLocked`, `serviceLockedPopulate`, `serviceCopyFinish`
-/

namespace FaultMesh.Stages

open Call

instance : Success NvStatus := ⟨.ok⟩

def uvmIdCpu : Nat := 0

/-! ## The state -/

/-- Which processor has a page, and which ones have access to it. -/
structure BlockPages where
  /-- The resident mask of each processor. -/
  resident : Nat → Finset Nat
  readDuplicatedPages : Finset Nat
  mappings : Nat → Nat → Prot

/-- `va_block->resident`, in the order of the ids. -/
def BlockPages.residentProcessors (b : BlockPages) : List Nat :=
  (List.range uvmIdMaxProcessors).filter fun id => b.resident id ≠ ∅

def BlockPages.mapped (b : BlockPages) : Finset Nat :=
  (Finset.range uvmIdMaxProcessors).filter fun id =>
    ∃ page ∈ Finset.range pagesPerUvmVaBlock, b.mappings id page ≠ .none

/-- `uvm_va_block_context_t`: the caller's mask and the fields of `make_resident`. A worker uses
one context for all its items. -/
structure BlockContext where
  callerPageMask : Finset Nat := ∅
  destId : Nat := 0
  pagesChangedResidency : Finset Nat := ∅
  allInvolvedProcessors : Finset Nat := ∅
  pagesMigrated : Finset Nat := ∅
  pagesStaged : Finset Nat := ∅

/-- The waits and checks that have been made for ECC errors. -/
structure EccCheck where
  /-- Calls of `uvm_tracker_wait` on the tracker of the block. -/
  waits : Nat := 0
  /-- GPUs given to `uvm_gpu_check_ecc_error_no_rm`, in order. -/
  checked : List Nat := []
  /-- `cpu_fault.gpus_to_check_for_ecc`. -/
  toCheck : Finset Nat := ∅
  deriving DecidableEq

structure ServiceState where
  service : ServiceContext
  context : BlockContext
  pages : BlockPages
  ecc : EccCheck := {}

/-- A page mask as a set. -/
def pageMask (mask : Nat → Bool) : Finset Nat :=
  (Finset.range pagesPerUvmVaBlock).filter fun page => mask page

def pagesOf (region : Nat × Nat) : Finset Nat := Finset.Ico region.1 region.2

def ServiceState.newResidency (s : ServiceState) (id : Nat) : Finset Nat :=
  pageMask (s.service.newResidency id)

/-! ## The rest of the driver -/

/-- Changes of the page tables. -/
inductive MapRequest where
  /-- `uvm_va_block_unmap_mask`. -/
  | unmap (ids : Finset Nat) (region : Nat × Nat) (mask : Finset Nat)
  /-- `uvm_va_block_revoke_prot_mask`. -/
  | revoke (ids : Finset Nat) (region : Nat × Nat) (mask : Finset Nat) (prot : Prot)
  /-- `uvm_va_block_map`. -/
  | map (id : Nat) (region : Nat × Nat) (mask : Finset Nat) (prot : Prot)
  /-- `uvm_va_block_add_mappings_after_migration`. -/
  | addMappings (newResidency id : Nat) (region : Nat × Nat) (mask : Finset Nat) (maxProt : Prot)
      (thrashing : Option (Finset Nat))

inductive TransferMode where
  | move
  | copy

/-- The arguments of `block_copy_resident_pages`. -/
structure CopyRequest where
  destId : Nat
  region : Nat × Nat
  mask : Finset Nat
  mode : TransferMode

/-- What `block_copy_resident_pages` does: the pages that it copies, and the processors that it
adds to `all_involved_processors`. -/
structure CopyOutcome where
  status : NvStatus
  migrated : Finset Nat
  involved : Finset Nat

/-- What the calls ask of the rest of the driver. Nothing there returns `NV_ERR_NOT_SUPPORTED`. -/
structure Platform where
  uvmLiteGpus : Finset Nat
  /-- `block_get_can_copy_from_mask`. -/
  canCopyFrom : Nat → Finset Nat
  registeredGpus : Finset Nat
  faultableProcessors : Finset Nat
  systemWideAtomicsEnabled : Finset Nat
  hasNativeAtomics : Nat → Finset Nat
  toolsEnabled : Bool
  /-- `uvm_perf_thrashing_get_thrashing_processors`, for a page. -/
  thrashingProcessors : Nat → Finset Nat
  /-- `compute_new_permission`, for a page, the processor that faulted and the new residency. -/
  computeNewPermission : BlockPages → Nat → Nat → Nat → AccessType → Prot
  /-- The status of a change of the page tables, and the mappings after it. -/
  perform : BlockPages → MapRequest → NvStatus × (Nat → Nat → Prot)
  /-- `block_copy_resident_pages`, for the resident masks of the block. -/
  copyPages : (Nat → Finset Nat) → CopyRequest → CopyOutcome
  /-- How the work that the tracker of the block stands for has ended. -/
  trackerWait : NvStatus
  /-- `uvm_gpu_check_ecc_error_no_rm`. -/
  checkEccError : Nat → NvStatus
  perform_supported : ∀ b r, (perform b r).1 ≠ .errNotSupported
  copyPages_supported : ∀ resident r, (copyPages resident r).status ≠ .errNotSupported
  trackerWait_supported : trackerWait ≠ .errNotSupported
  checkEccError_supported : ∀ id, checkEccError id ≠ .errNotSupported

abbrev ServiceCall := Call NvStatus ServiceState

section Model

variable (P : Platform)

def request (r : MapRequest) : ServiceCall := fun s =>
  let answer := P.perform s.pages r
  (answer.1, { s with pages := { s.pages with mappings := answer.2 } })

def setCallerPageMask (mask : Finset Nat) : ServiceCall := alter fun s =>
  { s with context := { s.context with callerPageMask := mask } }

/-! ## Making pages resident -/

/-- The pages that `block_populate_pages` stages through the CPU: those on processors that the
destination cannot copy from, and on none that it can copy from. -/
def BlockPages.staged (b : BlockPages) (destId : Nat) (region : Nat × Nat) (mask : Finset Nat) :
    Finset Nat :=
  let populate := mask \ b.resident destId
  let remote := b.residentProcessors.toFinset \ P.canCopyFrom destId
  let near := b.residentProcessors.toFinset ∩ P.canCopyFrom destId
  ((populate ∩ remote.biUnion b.resident) \ near.biUnion b.resident) ∩ pagesOf region

/-- `block_populate_pages`, with all allocations made. -/
def populatePages (destId : Nat) (mask : Finset Nat) : ServiceCall := alter fun s =>
  if destId = uvmIdCpu then s
  else { s with context :=
    { s.context with pagesStaged := s.pages.staged P destId s.service.region mask } }

def makeResidentPopulate (destId : Nat) (mask : Finset Nat) : ServiceCall := choose fun s =>
  let region := s.service.region
  let ids := s.pages.mapped \ P.uvmLiteGpus
  (alter fun s => { s with context := { s.context with destId := destId } }).andThen <|
  -- all pages that are not resident on the destination
  (request P (.unmap ids region ((mask \ s.pages.resident destId) ∩ pagesOf region))).andThen <|
  -- and read-duplicated ones, except on the destination
  (request P (.unmap (ids.erase destId) region
    (mask ∩ s.pages.readDuplicatedPages ∩ pagesOf region))).andThen <|
  populatePages P destId mask

def copyResidentPages (destId : Nat) (mask : Finset Nat) (mode : TransferMode) : ServiceCall :=
  fun s =>
    let r := P.copyPages s.pages.resident ⟨destId, s.service.region, mask, mode⟩
    (r.status,
      { s with context :=
        { s.context with
          pagesMigrated := r.migrated
          allInvolvedProcessors := s.context.allInvolvedProcessors ∪ r.involved } })

def makeResidentCopy (destId : Nat) (mask : Finset Nat) : ServiceCall :=
  (makeResidentPopulate P destId mask).andThen (copyResidentPages P destId mask .move)

def ServiceState.makeResidentFinish (s : ServiceState) (mask : Finset Nat) : ServiceState :=
  let destId := s.context.destId
  let migrated := s.context.pagesMigrated ∩ mask
  let region := pagesOf s.service.region
  -- pages that were not resident anywhere have been populated at the destination directly
  let firstTouch := (mask \ (s.pages.resident destId ∪ migrated)) ∩ region
  { s with
    context := { s.context with
      pagesMigrated := migrated
      pagesChangedResidency := s.context.pagesChangedResidency ∪ (migrated ∪ firstTouch) }
    pages := { s.pages with
      resident := fun id =>
        if id = destId then s.pages.resident destId ∪ (migrated ∪ firstTouch)
        -- `break_read_duplication_in_region`
        else s.pages.resident id \ (mask ∩ region)
      readDuplicatedPages := s.pages.readDuplicatedPages \ (mask ∩ region) } }

def prepReadDuplicateMapping (revokeId : Nat) (mask : Finset Nat) : ServiceCall := choose fun s =>
  let ids := (s.pages.mapped \ P.uvmLiteGpus).erase revokeId
  (request P (.unmap ids s.service.region mask)).andThen <|
  request P (.revoke {revokeId} s.service.region mask .readWrite)

/-- What `uvm_va_block_make_resident_read_duplicate` enters after the copies. -/
def ServiceState.readDuplicateFinish (s : ServiceState) (destId : Nat) (mask : Finset Nat) :
    ServiceState :=
  let migrated := s.context.pagesMigrated
  let resident := s.pages.resident destId
  let firstTouch := ((mask ∩ pagesOf s.service.region) \ migrated) \ resident
  let staged := if destId = uvmIdCpu then ∅ else s.context.pagesStaged
  { s with
    context := { s.context with
      pagesChangedResidency := s.context.pagesChangedResidency ∪ firstTouch }
    pages := { s.pages with
      resident := fun id =>
        if id = destId then resident ∪ firstTouch ∪ migrated
        else if id = uvmIdCpu then s.pages.resident id ∪ staged
        else s.pages.resident id
      readDuplicatedPages := s.pages.readDuplicatedPages ∪ staged ∪ migrated } }

def makeResidentReadDuplicate (destId : Nat) (mask : Finset Nat) : ServiceCall := choose fun s =>
  (alter fun s => { s with context := { s.context with destId := destId } }).andThen <|
  (forEach (fun src =>
      let pages := (mask \ s.pages.readDuplicatedPages) ∩ s.pages.resident src
      if pages = ∅ then skip else prepReadDuplicateMapping P src pages)
    s.pages.residentProcessors).andThen <|
  (populatePages P destId mask).andThen <|
  (copyResidentPages P destId mask .copy).andThen <|
  alter fun s => s.readDuplicateFinish destId mask

/-! ## Copying -/

/-- `uvm_tracker_wait`, for the tracker of the block. -/
def waitForTracker : ServiceCall := fun s =>
  (P.trackerWait, { s with ecc := { s.ecc with waits := s.ecc.waits + 1 } })

/-- One turn of the loop over the GPUs involved. If the RM has to be asked about errors, this is
left to the caller. -/
def checkEccErrorNoRm (id : Nat) : ServiceCall := fun s =>
  let checked := s.ecc.checked ++ [id]
  if P.checkEccError id = .warnMoreProcessingRequired then
    (.ok, { s with ecc := { s.ecc with checked := checked, toCheck := insert id s.ecc.toCheck } })
  else (P.checkEccError id, { s with ecc := { s.ecc with checked := checked } })

/-- The wait for the GPU work of the block and the ECC checks, when the CPU is the destination. -/
def waitAndCheckEcc (newResidency : Nat) : ServiceCall := choose fun s =>
  let involved := s.context.allInvolvedProcessors
  if newResidency = uvmIdCpu ∧ involved ≠ ∅ then
    (waitForTracker P).andThen <|
    forEach (checkEccErrorNoRm P)
      ((List.range uvmIdMaxProcessors).filter fun id => id ∈ involved ∩ P.registeredGpus)
  else skip

/-- The reset of the masks in `uvm_va_block_service_copy`. -/
def ServiceState.resetMasks (s : ServiceState) : ServiceState :=
  { s with context := { s.context with pagesChangedResidency := ∅, allInvolvedProcessors := ∅ } }

/-- `uvm_va_block_service_copy`, for replayable faults. -/
def serviceCopy (newResidency : Nat) : ServiceCall := choose fun s =>
  let mask := s.newResidency newResidency
  let duplicated := pageMask s.service.readDuplicateMask
  (alter ServiceState.resetMasks).andThen <|
  (if s.service.readDuplicateCount = 0 then
    (setCallerPageMask mask).andThen (makeResidentCopy P newResidency mask)
  else
    (setCallerPageMask (mask ∩ duplicated)).andThen <|
    (if mask ∩ duplicated = ∅ then skip
      else makeResidentReadDuplicate P newResidency (mask ∩ duplicated)).andThen <|
    (setCallerPageMask (mask \ duplicated)).andThen <|
    if mask \ duplicated = ∅ then skip
    else makeResidentCopy P newResidency (mask \ duplicated)).andThen <|
  waitAndCheckEcc P newResidency

/-! ## Mapping -/

/-- Which access the pages get, and which of them have not moved. -/
structure MapPlan where
  processorId : Nat
  newResidency : Nat
  newResidencyMask : Finset Nat
  didNotMigrate : Finset Nat
  /-- `mappings_by_prot`. -/
  byProt : Prot → Finset Nat

/-- Revoking permissions of others, for pages that have not moved. -/
def revokeFor (plan : MapPlan) (newProt : Prot) : ServiceCall := choose fun s =>
  let pages := plan.didNotMigrate ∩ plan.byProt newProt
  let native := P.hasNativeAtomics plan.newResidency
  let ids := (s.pages.mapped ∩ P.faultableProcessors).erase plan.processorId
  -- atomics behave like writes without system-wide atomics or with native ones
  let ids :=
    if newProt = .readWrite ∨ plan.processorId ∉ P.systemWideAtomicsEnabled ∨
        plan.processorId ∈ native then
      (ids \ native) ∩ P.systemWideAtomicsEnabled
    else ids
  let revokeProt :=
    if plan.processorId = uvmIdCpu then Prot.readWriteAtomic
    else if newProt = .readWriteAtomic then .readWrite else .readWriteAtomic
  let ids := ids \ P.uvmLiteGpus
  if pages = ∅ ∨ ids = ∅ then skip
  else request P (.revoke ids s.service.region pages revokeProt)

/-- Mapping the processor that faulted; with tools enabled pinned pages come first. -/
def mapFor (plan : MapPlan) (newProt : Prot) : ServiceCall := choose fun s =>
  let pages := plan.byProt newProt
  let region := s.service.region
  let pinned := pageMask s.service.thrashingPinMask
  if pages = ∅ then skip
  else
    (if plan.processorId = uvmIdCpu then request P (.unmap {uvmIdCpu} region pages)
      else skip).andThen <|
    if 0 < s.service.thrashingPinCount ∧ P.toolsEnabled ∧ pages ∩ pinned ≠ ∅ then
      (request P (.map plan.processorId region (pages ∩ pinned) newProt)).andThen <|
      if pages \ pinned = ∅ then skip
      else request P (.map plan.processorId region (pages \ pinned) newProt)
    else request P (.map plan.processorId region pages newProt)

/-- Mapping the processors set by `SetAccessedBy`, and those that thrash on a pinned page. -/
def accessedByFor (plan : MapPlan) (newProt : Prot) : ServiceCall := choose fun s =>
  let pages := plan.newResidencyMask ∩ plan.byProt newProt
  let region := s.service.region
  let pinned := pageMask s.service.thrashingPinMask
  let add := fun region pages thrashing =>
    request P (.addMappings plan.newResidency plan.processorId region pages newProt thrashing)
  if pages = ∅ then skip
  else if 0 < s.service.thrashingPinCount then
    (forEach (fun page => add (page, page + 1) pages (some (P.thrashingProcessors page)))
      ((List.range region.2).filter fun page =>
        page ∈ pinned ∩ pagesOf region ∧ page ∈ pages)).andThen <|
    if pages \ pinned = ∅ then skip else add region (pages \ pinned) none
  else add region pages none

/-- The plan of `uvm_va_block_service_finish`. -/
def ServiceState.mapPlan (s : ServiceState) (processorId : Nat) : MapPlan :=
  let newResidency := s.context.destId
  let mask := s.newResidency newResidency
  { processorId := processorId
    newResidency := newResidency
    newResidencyMask := mask
    didNotMigrate := mask \ s.context.pagesChangedResidency
    byProt := fun prot => (mask ∩ pagesOf s.service.region).filter fun page =>
      P.computeNewPermission s.pages page processorId newResidency (s.service.accessType page) =
        prot }

/-- The part of `uvm_va_block_service_finish` that works on the page tables. -/
def mapPages (processorId : Nat) : ServiceCall := choose fun s =>
  let plan := s.mapPlan P processorId
  (forEach (revokeFor P plan) [.readWrite, .readWriteAtomic]).andThen <|
  (forEach (mapFor P plan) [.readOnly, .readWrite, .readWriteAtomic]).andThen <|
  forEach (accessedByFor P plan) [.readOnly, .readWrite, .readWriteAtomic]

/-- The update of the residency in `uvm_va_block_service_finish`. -/
def ServiceState.finishResidency (s : ServiceState) : ServiceState :=
  if s.service.readDuplicateCount = 0 ∨ s.context.callerPageMask ≠ ∅ then
    s.makeResidentFinish s.context.callerPageMask
  else s

def serviceFinish (processorId : Nat) : ServiceCall :=
  (alter ServiceState.finishResidency).andThen (mapPages P processorId)

/-! ## The two ways -/

variable {block : VaBlock} (st : BlockState block)

def ServiceState.getPrefetchHint (s : ServiceState) : ServiceState :=
  { s with service := FaultMesh.getPrefetchHint st s.service }

/-- `for_each_id_in_mask`, on `resident_processors`. -/
def ServiceState.targets (s : ServiceState) : List Nat :=
  (List.range uvmIdMaxProcessors).filter s.service.residentProcessors

/-- `uvm_va_block_service_locked`. -/
def serviceLocked (processorId : Nat) : ServiceCall :=
  (alter (ServiceState.getPrefetchHint st)).andThen <| choose fun s =>
    forEach (fun newResidency =>
      (serviceCopy P newResidency).andThen (serviceFinish P processorId)) s.targets

/-- `uvm_va_block_service_locked_populate`. -/
def serviceLockedPopulate : ServiceCall := choose fun s =>
  if (soleProcessor s.service.residentProcessors).isNone then fail .errNotSupported
  else if s.service.readDuplicateCount ≠ 0 then fail .errNotSupported
  else
    -- from here on the count may be another one
    (alter (ServiceState.getPrefetchHint st)).andThen <| choose fun s =>
      forEach (fun newResidency =>
        (setCallerPageMask (s.newResidency newResidency)).andThen
          (makeResidentPopulate P newResidency (s.newResidency newResidency))) s.targets

/-- `uvm_va_block_service_copy_finish`. -/
def serviceCopyFinish (processorId : Nat) : ServiceCall := choose fun s =>
  if s.service.readDuplicateCount ≠ 0 then fail .errNotSupported
  else
    (copyResidentPages P s.context.destId s.context.callerPageMask .move).andThen
      (serviceFinish P processorId)

/-- The two calls of the pipeline. -/
def serviceStaged (processorId : Nat) : ServiceCall :=
  (serviceLockedPopulate P st).andThen (serviceCopyFinish P processorId)

end Model

end FaultMesh.Stages
