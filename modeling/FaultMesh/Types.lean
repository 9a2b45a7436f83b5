import Mathlib

/-!
# Fault entries, statuses and access types

The data the replayable-fault path works on: the `NV_STATUS` values it tests, the access types
ordered by intrusiveness, the protections a mapping can have, and the entry a fault packet is
parsed into (`uvm_fault_buffer_entry_t`). Addresses and identifiers are natural numbers; the
one place where a machine width matters, the 32-bit and 64-bit wraps of the predictor, is
written out with an explicit modulus there.
-/

namespace FaultMesh

/-! ## Statuses -/

/-- The `NV_STATUS` values the fault path returns or tests for; every other error the driver
can report is `errOther`. -/
inductive NvStatus where
  | ok
  | warnMoreProcessingRequired
  | warnMismatchedTarget
  | errInvalidAddress
  | errInvalidAccessType
  | errInvalidOperation
  | errNoMemory
  | errInvalidChannel
  | errPageTableNotAvail
  | errTimeout
  | errOther (code : Nat)
  deriving DecidableEq, Repr

/-- Outcome of a call into the channel, tracker or RM layer: success or an error, but never one
of the two warnings the fault code uses as signals. -/
inductive CallStatus where
  | ok
  | err (code : Nat)
  deriving DecidableEq, Repr

def CallStatus.toStatus : CallStatus → NvStatus
  | .ok => .ok
  | .err code => .errOther code

/-- The status of preprocessing: success, a flush after which servicing starts over
(`NV_WARN_MORE_PROCESSING_REQUIRED`), or an error. -/
inductive PreprocessStatus where
  | ok
  | restart
  | err (code : Nat)
  deriving DecidableEq, Repr

def PreprocessStatus.toStatus : PreprocessStatus → NvStatus
  | .ok => .ok
  | .restart => .warnMoreProcessingRequired
  | .err code => .errOther code

@[simp] theorem CallStatus.toStatus_eq_ok {c : CallStatus} : c.toStatus = .ok ↔ c = .ok := by
  cases c <;> simp [CallStatus.toStatus]

/-! ## Access types and protections -/

/-- `uvm_fault_access_type_t`, ordered by intrusiveness. -/
inductive AccessType where
  | prefetch
  | read
  | write
  | atomicWeak
  | atomicStrong
  deriving DecidableEq, Repr

def AccessType.toNat : AccessType → Nat
  | .prefetch => 0
  | .read => 1
  | .write => 2
  | .atomicWeak => 3
  | .atomicStrong => 4

theorem AccessType.toNat_injective : Function.Injective AccessType.toNat := by
  intro a b h
  cases a <;> cases b <;> simp_all [AccessType.toNat]

instance : LinearOrder AccessType := LinearOrder.lift' AccessType.toNat AccessType.toNat_injective

/-- `uvm_prot_t`, from no access to atomic access. -/
inductive Prot where
  | none
  | readOnly
  | readWrite
  | readWriteAtomic
  deriving DecidableEq, Repr

def Prot.toNat : Prot → Nat
  | .none => 0
  | .readOnly => 1
  | .readWrite => 2
  | .readWriteAtomic => 3

theorem Prot.toNat_injective : Function.Injective Prot.toNat := by
  intro a b h
  cases a <;> cases b <;> simp_all [Prot.toNat]

instance : LinearOrder Prot := LinearOrder.lift' Prot.toNat Prot.toNat_injective

/-- `uvm_fault_access_type_to_prot`: the mapping an access needs. Prefetch faults are handled
like read faults. -/
def AccessType.toProt : AccessType → Prot
  | .atomicStrong => .readWriteAtomic
  | .atomicWeak => .readWrite
  | .write => .readWrite
  | .read => .readOnly
  | .prefetch => .readOnly

def AccessType.maskBit (a : AccessType) : Nat := 1 <<< a.toNat

def accessTypeMaskTest (mask : Nat) (a : AccessType) : Bool := a.maskBit &&& mask != 0

def accessTypeMaskSet (mask : Nat) (a : AccessType) : Nat := mask ||| a.maskBit

/-- `uvm_fault_type_t`. The constants from `UVM_FAULT_TYPE_FATAL` on are only told apart by the
tools, so they are one constructor. -/
inductive FaultType where
  | invalidPde
  | invalidPte
  | atomic
  | write
  | read
  | fatal
  deriving DecidableEq, Repr

inductive CancelVaMode where
  | all
  | writeAndAtomic
  deriving DecidableEq, Repr

/-- The `UvmEventFatalReason` values the fault path assigns. -/
inductive FatalReason where
  | invalid
  | invalidAddress
  | invalidPermissions
  | invalidFaultType
  | invalidOperation
  | outOfMemory
  | internalError
  deriving DecidableEq, Repr

def NvStatus.toFatalReason : NvStatus → FatalReason
  | .ok => .invalid
  | .errNoMemory => .outOfMemory
  | .errInvalidAddress => .invalidAddress
  | .errInvalidAccessType => .invalidPermissions
  | .errInvalidOperation => .invalidOperation
  | _ => .internalError

/-! ## Addresses and entries -/

/-- `uvm_gpu_phys_address_t`: where the instance block of the faulting channel lives. -/
structure PhysAddr where
  aperture : Nat
  address : Nat
  deriving DecidableEq, Repr

def PhysAddr.cmp (a b : PhysAddr) : Ordering :=
  (compare a.aperture b.aperture).then (compare a.address b.address)

/-- Identity of a `uvm_va_space_t` (its pointer value, which is also what it is sorted by). -/
abbrev VaSpaceId := Nat

/-- The fields `parse_replayable_entry` decodes from a fault packet. -/
structure RawFault where
  faultAddress : Nat
  instancePtr : PhysAddr := ⟨0, 0⟩
  veId : Nat := 0
  utlbId : Nat := 0
  faultType : FaultType := .invalidPte
  accessType : AccessType := .read
  deriving DecidableEq, Repr

/-- `uvm_fault_buffer_entry_t`: the parsed packet and what the handling code notes on it. -/
structure FaultEntry extends RawFault where
  vaSpace : Option VaSpaceId := none
  isFatal : Bool := false
  isThrottled : Bool := false
  isInvalidPrefetch : Bool := false
  filtered : Bool := false
  predPrevCandidate : Bool := false
  predFetchSkip : Bool := false
  fatalReason : FatalReason := .invalid
  cancelVaMode : CancelVaMode := .all
  accessTypeMask : Nat := 0
  numInstances : Nat := 0
  deriving DecidableEq, Repr

/-- `PAGE_SIZE` of the kernels the driver is built for. -/
def pageSize : Nat := 4096

def pageAlignDown (addr : Nat) : Nat := addr - addr % pageSize

/-- `cmp_fault_instance_ptr`: instance pointer first, then the subcontext. -/
def cmpFaultInstancePtr (a b : RawFault) : Ordering :=
  (a.instancePtr.cmp b.instancePtr).then (compare a.veId b.veId)

/-- `cmp_access_type`: the more intrusive access sorts first. -/
def cmpAccessType (a b : AccessType) : Ordering := compare b.toNat a.toNat

/-- Order of two `uvm_va_space_t` pointers, `NULL` first. -/
def cmpVaSpace : Option VaSpaceId → Option VaSpaceId → Ordering
  | none, none => .eq
  | none, some _ => .lt
  | some _, none => .gt
  | some a, some b => compare a b

/-- `cmp_sort_fault_entry_by_va_space_address_access_type`. -/
def cmpVaSpaceAddressAccessType (a b : FaultEntry) : Ordering :=
  (cmpVaSpace a.vaSpace b.vaSpace).then
    ((compare a.faultAddress b.faultAddress).then (cmpAccessType a.accessType b.accessType))

/-- `check_fault_entry_duplicate` against an existing previous entry. -/
def checkFaultEntryDuplicate (current previous : FaultEntry) : Bool :=
  current.vaSpace = previous.vaSpace && current.faultAddress = previous.faultAddress

/-! ## Module parameters -/

/-- `uvm_perf_fault_prev_fetch_mode`. -/
inductive PrevFetchMode where
  /-- 0: exact keys of the fetch cache. -/
  | fetchCache
  /-- 1: coalesced addresses, binary search. -/
  | coalescedBsearch
  /-- 2: coalesced addresses, direct-mapped hash table. -/
  | hashExact
  /-- 3: coalesced addresses, approximate tag table. -/
  | hashApprox
  deriving DecidableEq, Repr

/-- The module parameters the fetch and service loop read, with the defaults of the source. -/
structure Params where
  prevFetchPredictorEnable : Bool := true
  predSkipEnable : Bool := false
  prevFetchMode : PrevFetchMode := .fetchCache
  predAdaptiveEnable : Bool := false
  predAdaptiveCooldown : Nat := 2
  fetchAdaptiveEnable : Bool := false
  fetchLowCount : Nat := 256
  fetchMidCount : Nat := 512
  fetchHighCount : Nat := 1024
  fetchMidPending : Nat := 512
  fetchHighPending : Nat := 1024
  fetchPredictorBoostEnable : Bool := false
  fetchPredictorBoostThresholdPct : Nat := 40
  fetchPredictorBoostCount : Nat := 1024
  coalesce : Bool := true
  maxBatchesPerService : Nat := 20
  maxThrottlePerService : Nat := 5
  replayForceUpdatePut : Bool := false
  replayStaleUpdatePutEnable : Bool := true
  deriving DecidableEq, Repr

/-! ## Sorting -/

/-- The kernel's `sort`, as insertion of the elements one after the other. Only that the result
is sorted and a permutation is used of it. -/
def sortBy {α : Type*} (cmp : α → α → Ordering) (l : List α) : List α :=
  l.insertionSort fun a b => (cmp a b).isLE

theorem sortBy_perm {α : Type*} (cmp : α → α → Ordering) (l : List α) : (sortBy cmp l).Perm l :=
  List.perm_insertionSort _ l

@[simp] theorem mem_sortBy {α : Type*} {cmp : α → α → Ordering} {l : List α} {a : α} :
    a ∈ sortBy cmp l ↔ a ∈ l :=
  (sortBy_perm cmp l).mem_iff

end FaultMesh
