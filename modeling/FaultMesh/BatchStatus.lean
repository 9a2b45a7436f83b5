import FaultMesh.BatchRefinement
import FaultMesh.ServiceLoop

/-!
# The status of servicing a batch

`NV_WARN_MORE_PROCESSING_REQUIRED` and `NV_WARN_MISMATCHED_TARGET` ask for a block to be serviced
again. The serial loop takes them as such. On the parallel path the coordinator collects what came
up, in a fixed order, and returns the first status that is not `NV_OK`; for the service loop that is
an error, to which it cancels the whole batch.

What the coordinator collects is modelled as a list of events: how the grouping ended, and for each
segment of a dispatch whether the wait expired, how the copy pipeline was flushed, how each item was
serviced and how its tracker was added. What decides an event is answered from outside.
-/

namespace FaultMesh

/-- The status asks for more processing and is not an error. -/
def NvStatus.isWarning : NvStatus → Bool
  | .warnMoreProcessingRequired | .warnMismatchedTarget => true
  | _ => false

@[simp] theorem NvStatus.isWarning_ok : NvStatus.ok.isWarning = false := rfl

@[simp] theorem CallStatus.isWarning_toStatus (c : CallStatus) : c.toStatus.isWarning = false := by
  cases c <;> rfl

/-! ## The worker and its item -/

def NvStatus.errInvalidState : NvStatus := .errOther 0x40

structure ItemAnswers where
  /-- The VA space and the range of the block are there when the worker comes to the item. -/
  alive : Bool := true
  /-- The contexts of the worker are allocated. -/
  contexts : Bool := true
  /-- The VA space and the range are still there under the lock of the block. -/
  aliveLocked : Bool := true
  /-- `uvm_va_block_is_hmm`. -/
  hmm : Bool := false
  /-- How `uvm_va_block_service_locked` ends, after its retries. -/
  service : NvStatus := .ok
  /-- Adding the tracker of the block to the one of the item. -/
  blockTracker : CallStatus := .ok
  /-- Adding the tracker of the item to the one of the batch. -/
  itemTracker : CallStatus := .ok
  deriving DecidableEq, Repr

/-- The status of `service_block_faults_kthread`, with what the worker tests before it. Pages are
serviced if there is a region. -/
def ItemAnswers.status (a : ItemAnswers) (hasRegion : Bool) : NvStatus :=
  if !a.alive then .warnMoreProcessingRequired
  else if !a.contexts then .errInvalidState
  else if !a.aliveLocked then .warnMoreProcessingRequired
  else if a.hmm then .warnMoreProcessingRequired
  else
    let status := if hasRegion then a.service else .ok
    if status = .ok then a.blockTracker.toStatus else status

/-! ## What the coordinator collects -/

/-- Something the coordinator takes a status from. -/
inductive StatusEvent where
  /-- How the last lookup of the grouping loop ended. -/
  | grouped (status : NvStatus)
  | expired
  /-- `flush_pipeline_items`. -/
  | flushed (status : NvStatus)
  | item (a : ItemAnswers) (hasRegion : Bool)
  | tracker (status : CallStatus)
  deriving DecidableEq, Repr

namespace StatusEvent

def status : StatusEvent → NvStatus
  | .grouped status => status
  | .expired => .errTimeout
  | .flushed status => status
  | .item a hasRegion => a.status hasRegion
  | .tracker status => status.toStatus

/-- The event is a condition under which a block is to be serviced again: its VA space or range is
gone, it is an HMM block, or servicing it asks for more processing. -/
def Retryable : StatusEvent → Prop
  | .grouped status => status.isWarning = true
  | .expired => False
  | .flushed status => status.isWarning = true
  | .item a hasRegion => a.alive = false ∨ a.contexts = true ∧
      (a.aliveLocked = false ∨ a.hmm = true ∨ hasRegion = true ∧ a.service.isWarning = true)
  | .tracker _ => False

def WentWell : StatusEvent → Prop
  | .grouped status => status = .ok
  | .expired => False
  | .flushed status => status = .ok
  | .item a hasRegion => a.alive = true ∧ a.contexts = true ∧ a.aliveLocked = true ∧ a.hmm = false ∧
      (hasRegion = true → a.service = .ok) ∧ a.blockTracker = .ok
  | .tracker status => status = .ok

variable {e : StatusEvent}

theorem isWarning_status_iff : e.status.isWarning = true ↔ e.Retryable := by
  cases e with
  | grouped status => rfl
  | expired => simp [status, Retryable, NvStatus.isWarning]
  | flushed status => rfl
  | item a hasRegion =>
    simp only [status, Retryable, ItemAnswers.status]
    cases a.alive
    · simp [NvStatus.isWarning]
    cases a.contexts
    · simp [NvStatus.isWarning, NvStatus.errInvalidState]
    cases a.aliveLocked
    · simp [NvStatus.isWarning]
    cases a.hmm
    · cases hasRegion
      · simp
      · by_cases hok : a.service = .ok <;> simp [hok]
    · simp [NvStatus.isWarning]
  | tracker status => simp [StatusEvent.status, Retryable]

theorem status_eq_ok_iff : e.status = .ok ↔ e.WentWell := by
  cases e with
  | grouped status => rfl
  | expired => simp [status, WentWell]
  | flushed status => rfl
  | item a hasRegion =>
    simp only [status, WentWell, ItemAnswers.status]
    cases a.alive
    · simp
    cases a.contexts
    · simp [NvStatus.errInvalidState]
    cases a.aliveLocked
    · simp
    cases a.hmm
    · cases hasRegion
      · simp
      · by_cases hok : a.service = .ok <;> simp [hok]
    · simp
  | tracker status => simp [StatusEvent.status, WentWell]

end StatusEvent

/-- The first event that did not go well is not a condition for servicing a block again. -/
def NoRetryableFirst (events : List StatusEvent) : Prop :=
  ∀ before e after, events = before ++ e :: after → (∀ x ∈ before, x.WentWell) → ¬ e.Retryable

theorem foldStatus_of_ne_ok {status : NvStatus} (h : status ≠ .ok) (statuses : List NvStatus) :
    foldStatus status statuses = status := by
  induction statuses with
  | nil => rfl
  | cons st statuses ih =>
    rw [foldStatus, List.foldl_cons, if_neg h]
    exact ih

theorem foldStatus_cons (status : NvStatus) (statuses : List NvStatus) :
    foldStatus .ok (status :: statuses) =
      if status = .ok then foldStatus .ok statuses else status := by
  split
  next hok => rw [hok]; rfl
  next hne => exact foldStatus_of_ne_ok hne statuses

theorem foldStatus_isWarning_iff (events : List StatusEvent) :
    (foldStatus .ok (events.map StatusEvent.status)).isWarning = false ↔ NoRetryableFirst events := by
  induction events with
  | nil =>
    apply iff_of_true rfl
    intro before e after h
    simp at h
  | cons x events ih =>
    rw [List.map_cons, foldStatus_cons]
    split
    next hok =>
      have hwell := StatusEvent.status_eq_ok_iff.1 hok
      rw [ih]
      constructor
      · rintro h (_ | ⟨y, before⟩) e after heq hbefore
        · obtain ⟨rfl, -⟩ := List.cons_eq_cons.1 heq
          rw [← StatusEvent.isWarning_status_iff, hok]
          exact Bool.false_ne_true
        · obtain ⟨-, heq⟩ := List.cons_eq_cons.1 heq
          exact h before e after heq fun z hz => hbefore z (List.mem_cons_of_mem y hz)
      · intro h before e after heq hbefore
        apply h (x :: before) e after (by rw [heq]; rfl)
        intro z hz
        rcases List.mem_cons.1 hz with rfl | hz
        · exact hwell
        · exact hbefore z hz
    next hne =>
      have hwell : ¬ x.WentWell := mt StatusEvent.status_eq_ok_iff.2 hne
      rw [← Bool.not_eq_true, StatusEvent.isWarning_status_iff]
      constructor
      · rintro h (_ | ⟨y, before⟩) e after heq hbefore
        · obtain ⟨rfl, -⟩ := List.cons_eq_cons.1 heq
          exact h
        · obtain ⟨rfl, -⟩ := List.cons_eq_cons.1 heq
          exact absurd (hbefore x List.mem_cons_self) hwell
      · intro h
        exact h [] x events rfl nofun

/-! ## The parallel path -/

/-- A segment of a dispatch: one, unless merged pushes are made segment by segment. -/
structure SegmentAnswers where
  numItems : Nat
  /-- The completion did not come within 30 s. -/
  expired : Bool := false
  /-- `flush_pipeline_items`. -/
  flush : NvStatus := .ok
  deriving DecidableEq, Repr

/-- An item as the inline loop and `dispatch_wait_inner` take it. -/
def itemEvents (items : List (ItemAnswers × Bool)) : List StatusEvent :=
  items.flatMap fun item => [.item item.1 item.2, .tracker item.1.itemTracker]

/-- What `dispatch_wait_inner` comes to for a segment with the given items. -/
def SegmentAnswers.events (seg : SegmentAnswers) (items : List (ItemAnswers × Bool)) :
    List StatusEvent :=
  if seg.expired then [.expired] else .flushed seg.flush :: itemEvents items

/-- What `uvm_kthread_dispatch_and_wait` comes to, segment after segment. -/
def dispatchEvents : List SegmentAnswers → List (ItemAnswers × Bool) → List StatusEvent
  | [], _ => []
  | _, [] => []
  | seg :: segs, item :: items =>
    seg.events ((item :: items).take seg.numItems) ++
      dispatchEvents segs ((item :: items).drop seg.numItems)

/-- What the parallel path asks besides the lookups. -/
structure ParallelAnswers where
  /-- The GPU has its `parallel_fault_ctx`. -/
  hasContext : Bool := true
  /-- By the place of the group. -/
  item : Nat → ItemAnswers := fun _ => {}
  segments : List SegmentAnswers := []
  /-- `push_replay_on_gpu`. -/
  replay : CallStatus := .ok

/-- The items of the groups, each with whether it has a region to be serviced. -/
def Grouping.itemAnswers (g : Grouping) (ans : BlockAnswers) (batch : ServiceBatch)
    (out : ParallelAnswers) : List (ItemAnswers × Bool) :=
  g.groups.zipIdx.map fun (group, k) =>
    (out.item k, (serviceBlockFaultsKthread ans group.vaBlock batch {} group.firstFaultIndex
      group.numFaults).region.isSome)

/-- What `service_fault_batch_parallel` takes its status from, in this order. -/
def parallelEvents (cfg : ParallelConfig) (ans : BatchAnswers) (batch : ServiceBatch)
    (out : ParallelAnswers) : List StatusEvent :=
  let g := groupBatch ans batch
  let items := g.itemAnswers ans.block batch out
  match cfg.path g.groups.length with
  | .inline => .grouped g.status :: itemEvents items
  -- the status of the grouping loop is overwritten
  | .dispatched => dispatchEvents out.segments items
  | .none => [.grouped g.status]

def parallelStatus (cfg : ParallelConfig) (ans : BatchAnswers) (batch : ServiceBatch)
    (replayPerVaBlock : Bool) (out : ParallelAnswers) : NvStatus :=
  if !out.hasContext then .errInvalidState
  else
    let g := groupBatch ans batch
    let status := foldStatus .ok ((parallelEvents cfg ans batch out).map StatusEvent.status)
    if replayPerVaBlock && g.fatalVaSpace.isNone && status = .ok && 0 < g.groups.length then
      out.replay.toStatus
    else status

theorem parallelStatus_isWarning_iff (cfg : ParallelConfig) (ans : BatchAnswers)
    (batch : ServiceBatch) (replayPerVaBlock : Bool) (out : ParallelAnswers) :
    (parallelStatus cfg ans batch replayPerVaBlock out).isWarning = false ↔
      (out.hasContext = true → NoRetryableFirst (parallelEvents cfg ans batch out)) := by
  rw [parallelStatus]
  cases out.hasContext with
  | false => exact iff_of_true rfl nofun
  | true =>
    dsimp only
    rw [Bool.not_true, if_neg Bool.false_ne_true, ← foldStatus_isWarning_iff]
    split
    next hreplay =>
      -- a replay is pushed only if the status was `NV_OK`
      simp only [Bool.and_eq_true, decide_eq_true_eq] at hreplay
      rw [hreplay.1.2]
      simp
    next => simp

/-! ## The serial path -/

/-- The calls of `service_fault_batch` whose status ends it, by the number of the round. -/
structure SerialCalls where
  /-- `uvm_ats_invalidate_tlbs`, when a VA space is left. -/
  invalidate : Nat → CallStatus := fun _ => .ok
  /-- `push_replay_on_gpu`, after a block. -/
  replay : Nat → CallStatus := fun _ => .ok
  /-- `uvm_ats_invalidate_tlbs`, behind the loop. -/
  lastInvalidate : CallStatus := .ok

def SerialBatch.serviceRoundCalls (ans : BatchAnswers) (calls : SerialCalls) (replayPerVaBlock : Bool)
    (n i : Nat) (s : SerialBatch) : SerialBatch × Except NvStatus Nat :=
  let entry := s.batch.entries i
  if s.vaSpace.isSome ∧ entry.vaSpace ≠ s.vaSpace ∧ calls.invalidate n ≠ .ok then
    (s, .error (calls.invalidate n).toStatus)
  else
    match s.serviceRound ans i with
    | (s', .ok j) =>
      -- fatal and ignored faults are passed over, and a block that is retried is left
      if replayPerVaBlock ∧ !entry.isFatal ∧ s'.gpuVaSpace.isSome ∧ i < j ∧
          s'.batch.fatalVaSpace.isNone ∧ calls.replay n ≠ .ok then
        (s', .error (calls.replay n).toStatus)
      else (s', .ok j)
    | r => r

/-- The serial path of `service_fault_batch` from place `i` on, for at most `fuel` rounds of which
`n` were made before. -/
def serviceFaultBatchSerial (ans : BatchAnswers) (calls : SerialCalls) (replayPerVaBlock : Bool) :
    Nat → Nat → Nat → SerialBatch → Option (SerialBatch × NvStatus)
  | fuel, n, i, s =>
    if i < s.batch.numCoalescedFaults then
      match fuel with
      | 0 => none
      | fuel + 1 =>
        match s.serviceRoundCalls ans calls replayPerVaBlock n i with
        | (s', .ok j) => serviceFaultBatchSerial ans calls replayPerVaBlock fuel (n + 1) j s'
        | (s', .error status) => some (s', status)
    else some (s, if s.vaSpace.isSome then calls.lastInvalidate.toStatus else .ok)

section Serial

variable {ans : BatchAnswers} {calls : SerialCalls} {replayPerVaBlock : Bool} {n i : Nat}
  {s s' : SerialBatch} {status : NvStatus}

theorem serviceRound_isWarning (h : s.serviceRound ans i = (s', .error status)) :
    status.isWarning = false := by
  unfold SerialBatch.serviceRound at h
  dsimp only at h
  split at h
  · cases h
  · split at h
    · cases h
    · split at h
      · cases h
      · cases h
      · cases h
      next hok hmore hmismatched =>
        cases h
        cases hstatus : ((s.enterVaSpace ans (s.batch.entries i).vaSpace).serviceFaultBatchDispatch
            ans i).2.1 with
        | warnMoreProcessingRequired => exact absurd hstatus hmore
        | warnMismatchedTarget => exact absurd hstatus hmismatched
        | _ => rfl

theorem serviceRoundCalls_isWarning
    (h : s.serviceRoundCalls ans calls replayPerVaBlock n i = (s', .error status)) :
    status.isWarning = false := by
  unfold SerialBatch.serviceRoundCalls at h
  dsimp only at h
  split at h
  · cases h
    exact CallStatus.isWarning_toStatus _
  · split at h
    · split at h
      · cases h
        exact CallStatus.isWarning_toStatus _
      · cases h
    next r hr =>
      exact serviceRound_isWarning h

/-- The serial path does not end with a warning. -/
theorem serviceFaultBatchSerial_isWarning {fuel : Nat} {r : SerialBatch × NvStatus}
    (h : serviceFaultBatchSerial ans calls replayPerVaBlock fuel n i s = some r) :
    r.2.isWarning = false := by
  induction fuel generalizing n i s with
  | zero =>
    rw [serviceFaultBatchSerial] at h
    split at h
    · cases h
    · cases h
      dsimp only
      split
      · exact CallStatus.isWarning_toStatus _
      · rfl
  | succ fuel ih =>
    rw [serviceFaultBatchSerial] at h
    split at h
    · split at h
      -- warnings only lead to another round
      next s' j hround => exact ih h
      next s' status hround =>
        cases h
        exact serviceRoundCalls_isWarning hround
    · cases h
      dsimp only
      split
      · exact CallStatus.isWarning_toStatus _
      · rfl

end Serial

/-! ## `service_fault_batch` -/

def uvmVaBlockSize : Nat := 2 ^ 21

/-- `estimate_unique_blocks`: the number of times the aligned address changes, over the first `k`
faults, and the last one of them. -/
def estimateUniqueBlocks (entries : Nat → FaultEntry) : Nat → Nat × Option Nat
  | 0 => (0, none)
  | k + 1 =>
    let (count, lastBlockStart) := estimateUniqueBlocks entries k
    let blockStart := (entries k).faultAddress - (entries k).faultAddress % uvmVaBlockSize
    if some blockStart = lastBlockStart then (count, lastBlockStart)
    else (count + 1, some blockStart)

/-- What decides how `service_fault_batch` goes on. -/
structure PathConfig where
  /-- `uvm_parallel_fault_enabled`. -/
  enabled : Bool := true
  mode : ServiceMode := .regular
  tinyBatchFallback : Nat := 0
  prescan : Bool := false
  blockThreshold : Nat := 0
  parallel : ParallelConfig := {}
  replayPerVaBlock : Bool := false
  deriving DecidableEq, Repr

/-- The batch goes to `service_fault_batch_parallel`. -/
def PathConfig.takesParallel (cfg : PathConfig) (batch : ServiceBatch) : Bool :=
  cfg.enabled && cfg.mode = .regular &&
    !(0 < cfg.tinyBatchFallback && batch.numCoalescedFaults ≤ cfg.tinyBatchFallback) &&
    !(cfg.prescan && 0 < cfg.blockThreshold &&
      (estimateUniqueBlocks batch.entries batch.numCoalescedFaults).1 ≤ cfg.blockThreshold)

/-- The status of `service_fault_batch`, if it returns within `fuel` rounds of the serial loop. -/
def serviceFaultBatchStatus (cfg : PathConfig) (ans : BatchAnswers) (batch : ServiceBatch)
    (out : ParallelAnswers) (calls : SerialCalls) (fuel : Nat) : Option NvStatus :=
  if cfg.takesParallel batch then
    some (parallelStatus cfg.parallel ans batch cfg.replayPerVaBlock out)
  else
    (serviceFaultBatchSerial ans calls cfg.replayPerVaBlock fuel 0 0 { batch := batch }).map Prod.snd

/-- For every batch, and whatever comes up on either path: `service_fault_batch` returns neither of
the warnings if and only if on the parallel path no block that is to be serviced again is the first
thing to come up. -/
theorem returns_no_warning_iff (cfg : PathConfig) (ans : BatchAnswers) (batch : ServiceBatch)
    (out : ParallelAnswers) (calls : SerialCalls) :
    (∀ fuel status, serviceFaultBatchStatus cfg ans batch out calls fuel = some status →
        status ≠ .warnMoreProcessingRequired ∧ status ≠ .warnMismatchedTarget) ↔
      (cfg.takesParallel batch = true → out.hasContext = true →
        NoRetryableFirst (parallelEvents cfg.parallel ans batch out)) := by
  have hwarning : ∀ status : NvStatus, status.isWarning = false ↔
      status ≠ .warnMoreProcessingRequired ∧ status ≠ .warnMismatchedTarget := by
    intro status
    cases status <;> simp [NvStatus.isWarning]
  cases hpath : cfg.takesParallel batch with
  | true =>
    simp only [serviceFaultBatchStatus, hpath, if_true, Option.some.injEq, true_implies]
    rw [← parallelStatus_isWarning_iff cfg.parallel ans batch cfg.replayPerVaBlock out, hwarning]
    constructor
    · intro h
      exact h 0 _ rfl
    · rintro h fuel status rfl
      exact h
  | false =>
    apply iff_of_true _ nofun
    intro fuel status h
    simp only [serviceFaultBatchStatus, hpath, Bool.false_eq_true, if_false] at h
    obtain ⟨r, hr, rfl⟩ := Option.map_eq_some_iff.1 h
    exact (hwarning r.2).1 (serviceFaultBatchSerial_isWarning hr)

/-- The block of the fault is gone when the worker comes to it: the parallel path returns the
warning, to which the service loop cancels the batch and leaves. On the serial path the fault is
looked up again. -/
theorem dead_block_cancels_batch :
    let out : ParallelAnswers := { item := fun _ => { alive := false }, segments := [⟨1, false, .ok⟩] }
    let retried : BatchAnswers := { locatedBatch.ans with
      serviceLocked := fun _ retries => if retries = 0 then .warnMoreProcessingRequired else .ok }
    serviceFaultBatchStatus {} locatedBatch.ans locatedBatch.batch out {} 0 =
        some .warnMoreProcessingRequired ∧
      (∀ (p : Params) (gpu : GpuConfig) (a : BatchEndAnswer) (s : ServiceState),
        s.vars.status = .warnMoreProcessingRequired → endBatch p gpu a s =
          some (breakLoop s (cancelFaultBatch gpu a.cancelFlush s.d) .warnMoreProcessingRequired)) ∧
      serviceFaultBatchStatus { enabled := false } retried locatedBatch.batch out {} 2 = some .ok := by
  refine ⟨by decide, fun p gpu a s hs => ?_, by decide⟩
  rw [endBatch, if_pos (by rw [hs]; exact nofun), hs]

end FaultMesh
