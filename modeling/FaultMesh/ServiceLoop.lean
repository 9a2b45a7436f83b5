import FaultMesh.Preprocess
import FaultMesh.Lib.Machine

/-!
# The fault service loop

`uvm_gpu_service_replayable_faults` as a machine. Its states are the points of the loop between
two calls (`Pc`); a label is one call together with everything the outside answers during it.
Servicing itself is one label here: the loop only looks at its status, at `fatal_va_space` and
at a few counters.

The two cancel algorithms are part of the loop's behaviour, since they fetch, flush and replay on
their own.
-/

namespace FaultMesh

/-! ## Servicing, as the loop sees it -/

/-- What `service_fault_batch` leaves in the batch context, and its status. -/
structure ServiceOutcome where
  status : NvStatus := .ok
  fatalVaSpace : Option VaSpaceId := none
  hasThrottledFaults : Bool := false
  numInvalidPrefetchFaults : Nat := 0
  numDuplicateFaults : Nat := 0
  numStaleFaults : Nat := 0
  /-- Replays pushed after single blocks; only policy `BLOCK` does so. -/
  blockReplays : Nat := 0
  deriving DecidableEq, Repr

inductive ServiceMode where
  | regular
  | cancel
  deriving DecidableEq, Repr

/-- The batch context and log after servicing. -/
def applyService (gpu : GpuConfig) (mode : ServiceMode) (o : ServiceOutcome) (d : Driver) :
    Driver :=
  let replays := if gpu.replayPolicy = .block && mode = .regular then o.blockReplays else 0
  { d with
    bc := { d.bc with
      fatalVaSpace := o.fatalVaSpace
      hasThrottledFaults := o.hasThrottledFaults
      numInvalidPrefetchFaults := o.numInvalidPrefetchFaults
      numDuplicateFaults := o.numDuplicateFaults
      numStaleFaults := o.numStaleFaults
      numReplays := d.bc.numReplays + replays
      batchId := d.bc.batchId + replays }
    log := List.replicate replays (.replay .start) ++ d.log }

/-- The counters the loop clears before every fetch. -/
def resetCounters (d : Driver) : Driver :=
  { d with bc := { d.bc with
      numInvalidPrefetchFaults := 0
      numDuplicateFaults := 0
      numStaleFaults := 0
      numPredFastSkipStale := 0
      numReplays := 0
      fatalVaSpace := none
      hasThrottledFaults := false } }

def bumpBatchId (d : Driver) : Driver := { d with bc := { d.bc with batchId := d.bc.batchId + 1 } }

/-! ## Cancelling -/

/-- The outside of `service_fault_batch_for_cancel`. -/
structure CancelVaAnswer where
  firstFlush : FlushAnswer := {}
  waitReplay : CallStatus := .ok
  hwFlushMove : CallStatus := .ok
  hasGpuVaSpace : Bool := true
  hal : Hal
  preprocess : PreprocessAnswer := {}
  /-- Status of the loop that services and cancels the faults of the VA space; the two warnings
  that ask for a retry leave it as success. -/
  serviceAndCancel : CallStatus := .ok
  lastFlush : FlushAnswer := {}

/-- The part of `service_fault_batch_for_cancel` before its label `done`. -/
def refetchForCancel (p : Params) (gpu : GpuConfig) (toVaSpace : RawFault → Translation)
    (a : CancelVaAnswer) (d : Driver) : Driver × CallStatus :=
  match faultBufferFlushLocked gpu .waitUpdatePut .start a.firstFlush d with
  | (d, .err code) => (d, .err code)
  | (d, .ok) =>
    if a.waitReplay ≠ .ok then (d, a.waitReplay)
    else if a.hwFlushMove ≠ .ok then (d, a.hwFlushMove)
    else if !a.hasGpuVaSpace then (d, .ok)
    else
      match fetchFaultBufferEntries p gpu a.hal .all (resetCounters d) with
      | (d, .err code) => (d, .err code)
      | (d, .ok) =>
        if d.bc.numCachedFaults = 0 then (d, .ok)
        else
          match preprocessFaultBatch p gpu toVaSpace a.preprocess (bumpBatchId d) with
          | (d, .ok) => (d, a.serviceAndCancel)
          -- another flush happened: the fatal fault may be gone, start from the top
          | (d, .restart) => (d, .ok)
          | (d, .err code) => (d, .err code)

/-- `service_fault_batch_for_cancel`: everything that went well ends with a flush, so that the
faults skipped on the way are replayed. -/
def serviceFaultBatchForCancel (p : Params) (gpu : GpuConfig) (toVaSpace : RawFault → Translation)
    (a : CancelVaAnswer) (d : Driver) : Driver × CallStatus :=
  match refetchForCancel p gpu toVaSpace a d with
  | (d, .ok) => faultBufferFlushLocked gpu .updatePut .start a.lastFlush d
  | (d, .err code) => (d, .err code)

/-- What `service_fault_batch` can answer in cancel mode, which always takes the serial path. -/
inductive CancelServiceStatus where
  | ok
  | noMemory
  | err (code : Nat)
  deriving DecidableEq, Repr

/-- The outside of one round of `cancel_faults_precise_tlb`. -/
structure CancelTlbRound where
  flush : FlushAnswer := {}
  waitReplay : CallStatus := .ok
  hal : Hal
  preprocess : PreprocessAnswer := {}
  fatalVaSpace : Option VaSpaceId := none
  serviceStatus : CancelServiceStatus := .ok

/-- One round of `cancel_faults_precise_tlb`; the status is `none` if another round follows. -/
def cancelTlbRound (p : Params) (gpu : GpuConfig) (toVaSpace : RawFault → Translation)
    (r : CancelTlbRound) (d : Driver) : Driver × Option CallStatus :=
  match faultBufferFlushLocked gpu .updatePut .startAckAll r.flush d with
  | (d, .err code) => (d, some (.err code))
  | (d, .ok) =>
    if r.waitReplay ≠ .ok then (d, some r.waitReplay)
    else
      match fetchFaultBufferEntries p gpu r.hal .all (resetCounters d) with
      | (d, .err code) => (d, some (.err code))
      | (d, .ok) =>
        let d := bumpBatchId d
        if d.bc.numCachedFaults = 0 then (d, some .ok)
        else
          match preprocessFaultBatch p gpu toVaSpace r.preprocess d with
          | (d, .restart) => (d, none)
          | (d, .err code) => (d, some (.err code))
          | (d, .ok) =>
            let d := { d with bc := { d.bc with fatalVaSpace := r.fatalVaSpace } }
            match r.serviceStatus with
            | .noMemory => (d, none)
            | .err code => (d, some (.err code))
            -- without a fatal fault left the search is over
            | .ok => (d, if r.fatalVaSpace.isNone then some .ok else none)

/-- The loop of `cancel_faults_precise_tlb`; `none` if the given rounds do not end it. -/
def cancelTlbRounds (p : Params) (gpu : GpuConfig) (toVaSpace : RawFault → Translation) :
    List CancelTlbRound → Driver → Option (Driver × CallStatus)
  | [], _ => none
  | r :: rs, d =>
    match cancelTlbRound p gpu toVaSpace r d with
    | (d, some status) => some (d, status)
    | (d, none) => cancelTlbRounds p gpu toVaSpace rs d

/-- The outside of `cancel_faults_precise`, for both algorithms. -/
structure CancelAnswer where
  va : CancelVaAnswer
  rounds : List CancelTlbRound := []
  push : CallStatus := .ok
  waitTracker : CallStatus := .ok

/-- The end of `cancel_faults_precise_tlb`: a replay if all went well. -/
def finishCancelTlb (a : CancelAnswer) : Driver × CallStatus → Driver × CallStatus
  | (d, .ok) =>
    match pushReplayOnGpu .start a.push d with
    | (d, .ok) => (d, a.waitTracker)
    | (d, .err code) => (d, .err code)
  | (d, .err code) => (d, .err code)

def cancelFaultsPrecise (p : Params) (gpu : GpuConfig) (toVaSpace : RawFault → Translation)
    (a : CancelAnswer) (d : Driver) : Option (Driver × CallStatus) :=
  if gpu.faultCancelVaSupported then some (serviceFaultBatchForCancel p gpu toVaSpace a.va d)
  else (cancelTlbRounds p gpu toVaSpace a.rounds d).map (finishCancelTlb a)

/-- `cancel_fault_batch`, the response to a global error. With cancel by VA it flushes and
replays at the end and its status is ignored; the uTLB variant only pushes cancels. -/
def cancelFaultBatch (gpu : GpuConfig) (flush : FlushAnswer) (d : Driver) : Driver :=
  if gpu.faultCancelVaSupported then (faultBufferFlushLocked gpu .updatePut .start flush d).1
  else d

/-! ## The machine -/

inductive Pc where
  /-- Outside the function, with the status the last call ended with. -/
  | idle (result : NvStatus)
  | loopTop
  | fetched
  | preprocessed
  | serviced
  /-- After the loop, before the last replay test. -/
  | leaving
  deriving DecidableEq, Repr

/-- The local variables of the loop; `numReplays` is a 32-bit counter. -/
structure LoopVars where
  numReplays : Nat := 0
  numBatches : Nat := 0
  numThrottled : Nat := 0
  status : NvStatus := .ok
  deriving DecidableEq, Repr

/-- The driver, the loop's position and variables, and the current registration of channels. -/
structure ServiceState where
  d : Driver
  pc : Pc := .idle .ok
  vars : LoopVars := {}
  channels : RawFault → Translation

/-- The outside of the end of a batch. -/
structure BatchEndAnswer where
  /-- The flush inside `cancel_fault_batch`. -/
  cancelFlush : FlushAnswer := {}
  waitTracker : CallStatus := .ok
  cancel : CancelAnswer
  push : CallStatus := .ok
  flush : FlushAnswer := {}
  waitReplay : CallStatus := .ok

/-- One call of the loop with what the outside answers. -/
inductive Label where
  | enter
  | fetch (hal : Hal)
  | preprocess (a : PreprocessAnswer)
  | service (o : ServiceOutcome)
  | endBatch (a : BatchEndAnswer)
  | leave (push : CallStatus)
  /-- Channels are registered and unregistered while the loop runs. -/
  | rebind (channels : RawFault → Translation)

/-- `num_replays += n` on the 32-bit counter. -/
def LoopVars.addReplays (v : LoopVars) (n : Nat) : LoopVars :=
  { v with numReplays := (v.numReplays + n) % 2 ^ 32 }

/-- The loop gives up for this call after too many batches or throttled batches. -/
def LoopVars.limitReached (p : Params) (v : LoopVars) : Bool :=
  p.maxThrottlePerService ≤ v.numThrottled || p.maxBatchesPerService ≤ v.numBatches

/-- The flush mode of policy `BATCH_FLUSH`: read the put register again when the batch held many
redundant faults. -/
def batchFlushMode (p : Params) (gpu : GpuConfig) (bc : BatchContext) : FlushMode :=
  let redundant := bc.numDuplicateFaults +
    (if p.replayStaleUpdatePutEnable then bc.numStaleFaults else 0)
  if p.replayForceUpdatePut || bc.numCachedFaults * gpu.replayUpdatePutRatio < redundant * 100 then
    .updatePut
  else .cachedPut

/-- The bookkeeping at the bottom of the loop body. -/
def nextBatch (s : ServiceState) (d : Driver) (vars : LoopVars) : ServiceState :=
  { s with
    d := d
    pc := .loopTop
    vars := { vars with
      numThrottled := vars.numThrottled + (if d.bc.hasThrottledFaults then 1 else 0)
      numBatches := vars.numBatches + 1 } }

def breakLoop (s : ServiceState) (d : Driver) (status : NvStatus) : ServiceState :=
  { s with d := d, pc := .leaving, vars := { s.vars with status := status } }

/-- The loop body from the test of the service status to its end. -/
def endBatch (p : Params) (gpu : GpuConfig) (a : BatchEndAnswer) (s : ServiceState) :
    Option ServiceState :=
  if s.vars.status ≠ .ok then
    some (breakLoop s (cancelFaultBatch gpu a.cancelFlush s.d) s.vars.status)
  else if s.d.bc.fatalVaSpace.isSome then
    if a.waitTracker ≠ .ok then some (breakLoop s s.d a.waitTracker.toStatus)
    else
      (cancelFaultsPrecise p gpu s.channels a.cancel s.d).map fun
        | (d, .ok) => { s with
            d := d, pc := .loopTop, vars := { s.vars with numBatches := s.vars.numBatches + 1 } }
        | (d, .err code) => breakLoop s d (.errOther code)
  else
    match gpu.replayPolicy with
    | .batch =>
      match pushReplayOnGpu .start a.push s.d with
      | (d, .ok) => some (nextBatch s d (s.vars.addReplays 1))
      | (d, .err code) => some (breakLoop s d (.errOther code))
    | .batchFlush =>
      match faultBufferFlushLocked gpu (batchFlushMode p gpu s.d.bc) .start a.flush s.d with
      | (d, .ok) =>
        if a.waitReplay ≠ .ok then
          some (breakLoop { s with vars := s.vars.addReplays 1 } d a.waitReplay.toStatus)
        else some (nextBatch s d (s.vars.addReplays 1))
      | (d, .err code) => some (breakLoop s d (.errOther code))
    | _ => some (nextBatch s s.d s.vars)

/-- The status the function ends with: a request for more processing is not an error. -/
def finalStatus (status : NvStatus) : NvStatus :=
  if status = .warnMoreProcessingRequired then .ok else status

/-- The code after the loop: a replay if none was counted (or the policy is `ONCE`), whose status
replaces the one the loop ended with. -/
def leaveService (gpu : GpuConfig) (push : CallStatus) (s : ServiceState) : ServiceState :=
  if (finalStatus s.vars.status = .ok && gpu.replayPolicy = .once) || s.vars.numReplays = 0 then
    let (d, status) := pushReplayOnGpu .start push s.d
    { s with d := d, pc := .idle status.toStatus }
  else { s with pc := .idle (finalStatus s.vars.status) }

/-- The body of the loop up to and including the fetch. -/
def fetchBatch (p : Params) (gpu : GpuConfig) (hal : Hal) (s : ServiceState) : ServiceState :=
  if s.vars.limitReached p then { s with pc := .leaving }
  else
    match fetchFaultBufferEntries p gpu hal .batchReady (resetCounters s.d) with
    | (d, .ok) =>
      if d.bc.numCachedFaults = 0 then breakLoop s d .ok
      else { s with
        d := bumpBatchId d, pc := .fetched, vars := { s.vars with status := .ok } }
    | (d, .err code) => breakLoop s d (.errOther code)

/-- The preprocessing call and the tests behind it. -/
def preprocessBatch (p : Params) (gpu : GpuConfig) (a : PreprocessAnswer) (s : ServiceState) :
    ServiceState :=
  let (d, status) := preprocessFaultBatch p gpu s.channels a s.d
  { s with
    d := d
    pc := match status with
      | .ok => .preprocessed
      | .restart => .loopTop
      | .err _ => .leaving
    vars := { s.vars.addReplays d.bc.numReplays with status := status.toStatus } }

def serviceStep (p : Params) (gpu : GpuConfig) (s : ServiceState) : Label → Option ServiceState
  | .rebind channels => some { s with channels := channels }
  | .enter =>
    match s.pc with
    | .idle _ => some { s with pc := .loopTop, vars := {} }
    | _ => none
  | .fetch hal => if s.pc = .loopTop then some (fetchBatch p gpu hal s) else none
  | .preprocess a => if s.pc = .fetched then some (preprocessBatch p gpu a s) else none
  | .service o =>
    if s.pc = .preprocessed then
      let d := applyService gpu .regular o s.d
      some { s with
        d := d
        pc := .serviced
        vars := { s.vars.addReplays d.bc.numReplays with status := o.status } }
    else none
  | .endBatch a => if s.pc = .serviced then endBatch p gpu a s else none
  | .leave push => if s.pc = .leaving then some (leaveService gpu push s) else none

/-- What each step of the loop does, and where it can be made. -/
inductive ServiceMoves (p : Params) (gpu : GpuConfig) (s : ServiceState) :
    Label → ServiceState → Prop
  | rebind (channels) : ServiceMoves p gpu s (.rebind channels) { s with channels := channels }
  | enter (r) (hpc : s.pc = .idle r) :
    ServiceMoves p gpu s .enter { s with pc := .loopTop, vars := {} }
  | fetch (hal) (hpc : s.pc = .loopTop) : ServiceMoves p gpu s (.fetch hal) (fetchBatch p gpu hal s)
  | preprocess (a) (hpc : s.pc = .fetched) :
    ServiceMoves p gpu s (.preprocess a) (preprocessBatch p gpu a s)
  | service (o) (hpc : s.pc = .preprocessed) :
    ServiceMoves p gpu s (.service o) { s with
      d := applyService gpu .regular o s.d
      pc := .serviced
      vars := { s.vars.addReplays (applyService gpu .regular o s.d).bc.numReplays with
        status := o.status } }
  | endBatch (a) (t) (hpc : s.pc = .serviced) (hend : endBatch p gpu a s = some t) :
    ServiceMoves p gpu s (.endBatch a) t
  | leave (push) (hpc : s.pc = .leaving) :
    ServiceMoves p gpu s (.leave push) (leaveService gpu push s)

theorem serviceMoves_of_step {p : Params} {gpu : GpuConfig} {s t : ServiceState} {i : Label}
    (h : serviceStep p gpu s i = some t) : ServiceMoves p gpu s i t := by
  cases i <;> simp only [serviceStep, Option.ite_none_right_eq_some, Option.some.injEq] at h
  case rebind => exact h ▸ .rebind _
  case enter =>
    split at h
    next r hpc => exact Option.some.inj h ▸ .enter r hpc
    next => cases h
  case fetch => exact h.2 ▸ .fetch _ h.1
  case preprocess => exact h.2 ▸ .preprocess _ h.1
  case service => exact h.2 ▸ .service _ h.1
  case endBatch => exact .endBatch _ _ h.1 h.2
  case leave => exact h.2 ▸ .leave _ h.1

/-- The state in which a call of the function begins, with a fresh log. -/
def ServiceState.entered (s : ServiceState) : ServiceState :=
  { s with d := { s.d with log := [] }, pc := .loopTop, vars := {} }

def serviceMachine (p : Params) (gpu : GpuConfig) : Machine ServiceState Label where
  step := serviceStep p gpu

/-! ## How much one call services -/

def Label.isService : Label → Bool
  | .service _ => true
  | _ => false

def Label.isEnter : Label → Bool
  | .enter => true
  | _ => false

/-- A bound on the batches that the call can still service. -/
def ServiceState.batchesLeft (p : Params) (s : ServiceState) : Nat :=
  match s.pc with
  | .loopTop => p.maxBatchesPerService - s.vars.numBatches
  -- one for the batch at hand
  | .fetched | .preprocessed => p.maxBatchesPerService - (s.vars.numBatches + 1) + 1
  | .serviced => p.maxBatchesPerService - (s.vars.numBatches + 1)
  | .idle _ | .leaving => 0

section Budget

variable {p : Params} {gpu : GpuConfig} {s t : ServiceState}

theorem batchesLeft_endBatch {a : BatchEndAnswer} (hend : endBatch p gpu a s = some t) :
    t.batchesLeft p ≤ p.maxBatchesPerService - (s.vars.numBatches + 1) := by
  have hbreak : ∀ (s' : ServiceState) d status, (breakLoop s' d status).batchesLeft p ≤
      p.maxBatchesPerService - (s.vars.numBatches + 1) := fun _ _ _ => Nat.zero_le _
  unfold endBatch at hend
  split at hend
  · cases hend
    exact hbreak ..
  split at hend
  · split at hend
    · cases hend
      exact hbreak ..
    · obtain ⟨⟨d, status⟩, -, rfl⟩ := Option.map_eq_some_iff.1 hend
      cases status with
      | ok => exact le_rfl
      | err code => exact hbreak ..
  -- under every policy the batch is counted, or the loop is left
  · repeat' split at hend
    all_goals
      cases hend
      first | exact hbreak .. | exact le_rfl

theorem batchesLeft_fetchBatch (hal : Hal) (hpc : s.pc = .loopTop) :
    (fetchBatch p gpu hal s).batchesLeft p ≤ s.batchesLeft p := by
  unfold fetchBatch
  split
  · exact Nat.zero_le _
  next hlimit =>
    simp only [LoopVars.limitReached, Bool.or_eq_true, decide_eq_true_eq, not_or] at hlimit
    repeat' split
    · exact Nat.zero_le _
    · simp only [ServiceState.batchesLeft, hpc]
      omega
    · exact Nat.zero_le _

/-- A batch that is serviced is taken from the budget, which only the next call renews. -/
theorem batchesLeft_step {i : Label} (hstep : serviceStep p gpu s i = some t) :
    (if i.isService then 1 else 0) + t.batchesLeft p ≤
      s.batchesLeft p + p.maxBatchesPerService * if i.isEnter then 1 else 0 := by
  cases serviceMoves_of_step hstep with
  | rebind => simp [Label.isService, Label.isEnter, ServiceState.batchesLeft]
  | enter r hpc => simp [Label.isService, Label.isEnter, ServiceState.batchesLeft]
  | fetch hal hpc => simpa [Label.isService, Label.isEnter] using batchesLeft_fetchBatch hal hpc
  | preprocess a hpc =>
    simp only [Label.isService, Label.isEnter, ServiceState.batchesLeft, preprocessBatch, hpc,
      LoopVars.addReplays, Bool.false_eq_true, if_false]
    cases (preprocessFaultBatch p gpu s.channels a s.d).2 <;> dsimp only <;> omega
  | service o hpc =>
    simp [Label.isService, Label.isEnter, ServiceState.batchesLeft, hpc, LoopVars.addReplays,
      Nat.add_comm]
  | endBatch a _ hpc hend =>
    simpa [Label.isService, Label.isEnter, ServiceState.batchesLeft, hpc] using
      batchesLeft_endBatch hend
  -- outside of the loop there is no budget
  | leave push hpc =>
    have hidle : (leaveService gpu push s).batchesLeft p = 0 := by
      unfold leaveService
      split <;> rfl
    simp [Label.isService, Label.isEnter, hidle]

theorem batchesLeft_run {is : List Label} (hrun : (serviceMachine p gpu).run s is = some t) :
    is.countP Label.isService + t.batchesLeft p ≤
      s.batchesLeft p + p.maxBatchesPerService * is.countP Label.isEnter := by
  induction is generalizing s with
  | nil =>
    cases hrun
    simp
  | cons i is ih =>
    obtain ⟨u, hstep, hrest⟩ := (serviceMachine p gpu).run_cons_eq_some.1 hrun
    have hone := batchesLeft_step hstep
    have hmore := ih hrest
    rw [List.countP_cons, List.countP_cons, Nat.mul_add]
    omega

end Budget

/-- The loop of `uvm_gpu_service_replayable_faults` services at most `max_batches_per_service` batches
a call, whatever each ends with; those that a precise cancel services in cancel mode do not count. -/
theorem services_within_budget {p : Params} {gpu : GpuConfig} {s t : ServiceState} {is : List Label}
    {result : NvStatus} (hidle : s.pc = .idle result)
    (hrun : (serviceMachine p gpu).run s is = some t) :
    is.countP Label.isService ≤ p.maxBatchesPerService * is.countP Label.isEnter := by
  have hbudget := batchesLeft_run hrun
  have hnone : s.batchesLeft p = 0 := by rw [ServiceState.batchesLeft, hidle]
  omega

/-! ## A small configuration -/

/-- A ring whose slots hold read faults on the given pages. -/
def ringOf (pages : List Nat) (put : Nat) : Hal where
  readPut := put
  entryIsValid := fun _ => true
  parse := fun slot => (.ok, { faultAddress := pages.getD slot 0 })

/-- A GPU with a ring of eight entries and the default policy `BATCH_FLUSH`. -/
def smallGpu : GpuConfig := { maxFaults := 8 }

/-- The filter switched on in mode 1. -/
def skipParams : Params := { predSkipEnable := true, prevFetchMode := .coalescedBsearch }

/-- A freshly initialised driver, with all channels in one VA space. -/
def freshState : ServiceState where
  d :=
    { rf :=
        { cachedGet := 0
          cachedPut := 0
          predictor := smallPredictor }
      bc := { faultCache := fun _ => { faultAddress := 0 } } }
  channels := fun _ => .vaSpace 1

/-- The labels of one whole batch that sees the given hardware and that servicing completes. -/
def batchLabels (hal : Hal) : List Label :=
  [.fetch hal, .preprocess {}, .service {}, .endBatch { cancel := { va := { hal := hal } } }]

theorem one_batch_within_budget :
    (.enter :: batchLabels (ringOf [0x1000] 1)).countP Label.isService = 1 ∧
      (.enter :: batchLabels (ringOf [0x1000] 1)).countP Label.isService ≤
        skipParams.maxBatchesPerService *
          (.enter :: batchLabels (ringOf [0x1000] 1)).countP Label.isEnter := by
  obtain ⟨t, hrun⟩ : ∃ t, (serviceMachine skipParams smallGpu).run freshState
    (.enter :: batchLabels (ringOf [0x1000] 1)) = some t := ⟨_, rfl⟩
  exact ⟨rfl, services_within_budget rfl hrun⟩

end FaultMesh
