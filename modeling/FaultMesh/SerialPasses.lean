import FaultMesh.BatchCounters
import FaultMesh.Lib.Machine

/-!
# Passes over the faults of a block

On the serial path a block may be serviced more than once: `UVM_VA_BLOCK_RETRY_LOCKED` repeats
`service_fault_batch_block_locked` when memory had to be evicted, and `service_fault_batch` looks a
fault up again when more processing is asked for. Each attempt is a pass over all faults of the
block, with its own answers, since the lock of the block was dropped in between. The counters are
those of the whole batch.

The passes are the steps of a machine, so that a run has any number of them with any answers. The
duplicates and stale faults that a pass counts are added up fault by fault.
-/

namespace FaultMesh

/-! ## The machine -/

/-- How an attempt at servicing a block ends. -/
inductive PassOutcome where
  | done
  /-- `NV_ERR_MORE_PROCESSING_REQUIRED`: the lock was dropped to allocate memory. -/
  | allocRetry
  /-- `NV_WARN_MORE_PROCESSING_REQUIRED` or `NV_WARN_MISMATCHED_TARGET`. -/
  | lookupAgain
  /-- Any other status ends the loop. -/
  | failed
  deriving DecidableEq, Repr

/-- The end of an attempt with the status, as `service_fault_batch` takes it. -/
def NvStatus.passOutcome : NvStatus → PassOutcome
  | .ok => .done
  | .warnMoreProcessingRequired | .warnMismatchedTarget => .lookupAgain
  | _ => .failed

theorem NvStatus.passOutcome_eq_done {status : NvStatus} : status.passOutcome = .done ↔ status = .ok := by
  cases status <;> simp [passOutcome]

theorem NvStatus.passOutcome_ne_allocRetry (status : NvStatus) : status.passOutcome ≠ .allocRetry := by
  cases status <;> simp [passOutcome]

/-- What the loop of `service_fault_batch` does next, with the answers it gets. -/
inductive PassLabel where
  | fatal
  | ignored
  /-- The lookup failed with the status. -/
  | cancel (status : NvStatus)
  | ats (out : AtsOutcome)
  /-- A pass over the faults of a block. -/
  | pass (ans : BlockAnswers) (block : VaBlock) (outcome : PassOutcome)

structure PassState where
  batch : ServiceBatch
  ctx : ServiceBlockContext := {}
  place : Nat := 0
  /-- The block that is serviced again. -/
  retrying : Option VaBlock := none
  finished : Bool := false

namespace PassState

/-- `num_retries`, which `service_fault_batch_block` resets before its first attempt. -/
def numRetries (s : PassState) : Nat := if s.retrying.isSome then s.ctx.numRetries else 0

def attempt (ans : BlockAnswers) (block : VaBlock) (s : PassState) : SerialLoop :=
  serviceFaultBatchBlockLocked ans block s.batch { s.ctx with numRetries := s.numRetries } s.place

/-- Go on at place `j`, or service the block again, or look the fault up again, or end. -/
def settle (outcome : PassOutcome) (block : Option VaBlock) (j : Nat) (s : PassState) : PassState :=
  match outcome with
  | .done => { s with place := j }
  | .allocRetry => { s with retrying := block }
  | .lookupAgain => s
  | .failed => { s with finished := true }

def attempted (ans : BlockAnswers) (block : VaBlock) (s : PassState) : PassState :=
  let r := s.attempt ans block
  { s with
    batch := r.batch
    ctx := { r.ctx with numRetries := r.ctx.numRetries + 1 }
    retrying := none }

def pass (ans : BlockAnswers) (block : VaBlock) (outcome : PassOutcome) (s : PassState) : PassState :=
  (s.attempted ans block).settle outcome block (s.place + s.batch.blockFaults block s.place)

/-- The attempt may be made and end like this: the block holds the fault, it is the one that is
serviced again if there is one, and memory is allocated only for pages to be serviced. -/
def Attempts (ans : BlockAnswers) (block : VaBlock) (outcome : PassOutcome) (s : PassState) : Prop :=
  s.batch.onBlock block s.place = true ∧
    (∀ block', s.retrying = some block' → block = block') ∧
    (outcome = .allocRetry → 0 < (s.attempt ans block).pageFaultCount)

end PassState

instance (ans : BlockAnswers) (block : VaBlock) (outcome : PassOutcome) (s : PassState) :
    Decidable (s.Attempts ans block outcome) :=
  match h : s.retrying with
  | none => decidable_of_iff (s.batch.onBlock block s.place = true ∧
      (outcome = .allocRetry → 0 < (s.attempt ans block).pageFaultCount))
      (by simp [PassState.Attempts, h])
  | some block' => decidable_of_iff (s.batch.onBlock block s.place = true ∧ block = block' ∧
      (outcome = .allocRetry → 0 < (s.attempt ans block).pageFaultCount))
      (by simp [PassState.Attempts, h])

def passStep (s : PassState) (label : PassLabel) : Option PassState :=
  if s.finished ∨ s.batch.numCoalescedFaults ≤ s.place then none
  else
    let entry := s.batch.entries s.place
    match label with
    | .fatal =>
      if s.retrying.isNone ∧ entry.isFatal then
        some { s with batch := s.batch.noteFatal s.place, place := s.place + 1 }
      else none
    | .ignored =>
      if s.retrying.isNone ∧ ¬ entry.isFatal then some { s with place := s.place + 1 } else none
    | .cancel status =>
      if s.retrying.isNone ∧ ¬ entry.isFatal then
        some { s with
          batch := s.batch.serviceFaultBatchFatalNotify s.place status .all
          place := s.place + 1 }
      else none
    | .ats out =>
      if s.retrying.isNone ∧ ¬ entry.isFatal then
        let k := s.batch.atsFaults out s.place
        some ({ s with batch := s.batch.markAts out k s.place }.settle out.status.passOutcome none
          (s.place + k))
      else none
    | .pass ans block outcome =>
      if (s.retrying.isNone → ¬ entry.isFatal) ∧ s.Attempts ans block outcome then
        some (s.pass ans block outcome)
      else none

def passMachine : Machine PassState PassLabel where
  step := passStep

/-! ## The loop of the serial path takes these steps -/

section Rounds

variable {sb : SortedBatch} {i : Nat} {s : SerialBatch} {u : PassState}

/-- The loop of `service_fault_batch` at place `i`, and the machine there. -/
structure AtPlace (sb : SortedBatch) (i : Nat) (s : SerialBatch) (u : PassState) : Prop where
  marks : MarksMore sb.size sb.batch s.batch
  gpuVaSpace : ∀ vaSpace, s.vaSpace = some vaSpace → s.gpuVaSpace = sb.ans.gpuVaSpace vaSpace
  batch : u.batch = s.batch
  ctx : { u.ctx with numRetries := 0 } = { s.ctx with numRetries := 0 }
  place : u.place = i
  retrying : u.retrying = none
  finished : u.finished = false

namespace AtPlace

theorem enterVaSpace (h : AtPlace sb i s u) (hi : i < sb.size) :
    let s' := s.enterVaSpace sb.ans (s.batch.entries i).vaSpace
    AtPlace sb i s' u ∧ s'.vaSpace = some (sb.space i) ∧
      s'.gpuVaSpace = sb.ans.gpuVaSpace (sb.space i) := by
  have hva : (s.batch.entries i).vaSpace = some (sb.space i) :=
    (h.marks.vaSpace i).trans (sb.vaSpace i hi)
  rw [hva, SerialBatch.enterVaSpace]
  split
  next hsame => exact ⟨h, hsame.symm, h.gpuVaSpace _ hsame.symm⟩
  next =>
    refine ⟨⟨h.marks, fun vaSpace hsome => ?_, h.batch, h.ctx, h.place, h.retrying, h.finished⟩,
      rfl, rfl⟩
    cases hsome
    rfl

end AtPlace

/-- Where the machine is after a round: at the place to go on with, or at its end. -/
def AfterRound (sb : SortedBatch) (u : PassState) : SerialBatch × Except NvStatus Nat → Prop
  | (s, .ok j) => AtPlace sb j s u
  | (s, .error _) => u.batch = s.batch ∧ u.finished = true

/-- What `service_fault_batch` does with the outcome of a dispatch. -/
def SerialBatch.endRound (i : Nat) (s : SerialBatch) (r : SerialBatch × NvStatus × Nat) :
    SerialBatch × Except NvStatus Nat :=
  match r.2.1 with
  | .ok => (r.1, .ok (i + r.2.2))
  | .warnMoreProcessingRequired | .warnMismatchedTarget =>
    ({ r.1 with
        vaSpace := none
        mm := none
        retries := r.1.retries + 1
        disposition := s.disposition }, .ok i)
  | status => (r.1, .error status)

theorem AtPlace.endRound {s' : SerialBatch} {r : SerialBatch × NvStatus × Nat}
    (h : AtPlace sb i r.1 u) (block : Option VaBlock) :
    AfterRound sb (u.settle r.2.1.passOutcome block (i + r.2.2)) (s'.endRound i r) := by
  obtain ⟨s, status, k⟩ := r
  cases status with
  | ok => exact ⟨h.marks, h.gpuVaSpace, h.batch, h.ctx, rfl, h.retrying, h.finished⟩
  | warnMoreProcessingRequired =>
    exact ⟨h.marks, nofun, h.batch, h.ctx, h.place, h.retrying, h.finished⟩
  | warnMismatchedTarget =>
    exact ⟨h.marks, nofun, h.batch, h.ctx, h.place, h.retrying, h.finished⟩
  | _ => exact ⟨h.batch, rfl⟩

section

variable (h : AtPlace sb i s u)
include h

theorem AtPlace.attempt (ans : BlockAnswers) (block : VaBlock) :
    u.attempt ans block =
      serviceFaultBatchBlockLocked ans block s.batch { s.ctx with numRetries := 0 } i := by
  have hretries : u.numRetries = 0 := by
    rw [PassState.numRetries, h.retrying]
    rfl
  rw [PassState.attempt, hretries, h.batch, h.ctx, h.place]

theorem AtPlace.not_ended (hi : i < sb.size) :
    ¬ (u.finished ∨ u.batch.numCoalescedFaults ≤ u.place) := by
  rw [h.finished, h.batch, h.marks.size, h.place]
  rintro (hend | hend)
  · cases hend
  · exact absurd hi (Nat.not_lt_of_le hend)

theorem AtPlace.fresh (hfatal : (s.batch.entries i).isFatal = false) :
    u.retrying.isNone ∧ ¬ (u.batch.entries u.place).isFatal := by
  rw [h.retrying, h.batch, h.place, hfatal]
  exact ⟨rfl, Bool.false_ne_true⟩

theorem AtPlace.passStep_fatal (hi : i < sb.size) (hfatal : (s.batch.entries i).isFatal = true) :
    passStep u .fatal = some { u with batch := s.batch.noteFatal i, place := i + 1 } := by
  have hcond : u.retrying.isNone ∧ (u.batch.entries u.place).isFatal := by
    rw [h.retrying, h.batch, h.place]
    exact ⟨rfl, hfatal⟩
  rw [passStep, if_neg (h.not_ended hi)]
  dsimp only
  rw [if_pos hcond, h.batch, h.place]

section Label

variable (hi : i < sb.size) (hfatal : (s.batch.entries i).isFatal = false)
include hi hfatal

theorem AtPlace.serviceFaultBatchBlock {block : VaBlock}
    (hblock : s.batch.onBlock block i = true) (d : Disposition) (s' : SerialBatch) :
    ∃ label u', passStep u label = some u' ∧
      AfterRound sb u' (s'.endRound i (s.serviceFaultBatchBlock sb.ans block i d)) := by
  obtain ⟨outcome, houtcome⟩ : ∃ o, o = (sb.ans.serviceLocked i s.retries).passOutcome := ⟨_, rfl⟩
  refine ⟨.pass sb.ans.block block outcome, u.pass sb.ans.block block outcome, ?_, ?_⟩
  · have hretry : outcome ≠ .allocRetry := houtcome ▸ NvStatus.passOutcome_ne_allocRetry _
    rw [passStep, if_neg (h.not_ended hi)]
    dsimp only
    rw [if_pos]
    refine ⟨fun _ => ?_, ?_, fun block' hsome => ?_, fun hout => absurd hout hretry⟩
    · rw [h.batch, h.place, hfatal]
      exact Bool.false_ne_true
    · rw [h.batch, h.place]
      exact hblock
    · rw [h.retrying] at hsome
      cases hsome
  · have hmarks := @serviceFaultBatchBlockLocked_marksMore sb.ans.block block i s.batch
      { s.ctx with numRetries := 0 } (h.marks.size ▸ hi.le)
    rw [h.marks.size] at hmarks
    have hat : AtPlace sb i (s.serviceFaultBatchBlock sb.ans block i d).1
        (u.attempted sb.ans.block block) := by
      rw [PassState.attempted, h.attempt]
      exact ⟨h.marks.trans hmarks, h.gpuVaSpace, rfl, rfl, h.place, rfl, h.finished⟩
    rw [PassState.pass, h.batch, h.place, houtcome]
    exact hat.endRound (some block)

theorem AtPlace.passStep_ignored :
    passStep u .ignored = some { u with place := i + 1 } := by
  rw [passStep, if_neg (h.not_ended hi)]
  dsimp only
  rw [if_pos (h.fresh hfatal), h.place]

theorem AtPlace.passStep_cancel (status : NvStatus) :
    passStep u (.cancel status) =
      some { u with batch := s.batch.serviceFaultBatchFatalNotify i status .all, place := i + 1 } := by
  rw [passStep, if_neg (h.not_ended hi)]
  dsimp only
  rw [if_pos (h.fresh hfatal), h.batch, h.place]

theorem AtPlace.passStep_ats (out : AtsOutcome) :
    passStep u (.ats out) =
      some ({ u with batch := s.batch.markAts out (s.batch.atsFaults out i) i }.settle
        out.status.passOutcome none (i + s.batch.atsFaults out i)) := by
  rw [passStep, if_neg (h.not_ended hi)]
  dsimp only
  rw [if_pos (h.fresh hfatal), h.batch, h.place]

theorem AtPlace.cancelFault (status : NvStatus) (s' : SerialBatch) :
    ∃ label u', passStep u label = some u' ∧
      AfterRound sb u' (s'.endRound i (s.cancelFault i status)) :=
  ⟨_, _, h.passStep_cancel hi hfatal status,
    h.marks.trans (s.batch.serviceFaultBatchFatalNotify_marksMore hi status .all), h.gpuVaSpace, rfl,
    h.ctx, rfl, h.retrying, h.finished⟩

theorem AtPlace.serviceAts (s' : SerialBatch) :
    let out := sb.ans.serviceFaultBatchAts i
    let k := s.batch.atsFaults out i
    ∃ label u', passStep u label = some u' ∧ AfterRound sb u'
      (s'.endRound i ({ s with batch := s.batch.markAts out k i }.record i k .ats, out.status, k)) := by
  intro out k
  have hle : k ≤ min (out.more + 1) (s.batch.numCoalescedFaults - i) := countWhile_le
  have hsize : s.batch.numCoalescedFaults = sb.size := h.marks.size
  have hmarks := @ServiceBatch.markAts_marksMore sb.size i out k s.batch (by omega)
  have hat : AtPlace sb i ({ s with batch := s.batch.markAts out k i }.record i k .ats)
      { u with batch := s.batch.markAts out k i } :=
    ⟨h.marks.trans hmarks, h.gpuVaSpace, rfl, h.ctx, h.place, h.retrying, h.finished⟩
  exact ⟨_, _, h.passStep_ats hi hfatal out, @AtPlace.endRound sb i _ s'
    ({ s with batch := s.batch.markAts out k i }.record i k .ats, out.status, k) hat none⟩

theorem AtPlace.onBlock (hgpu : (sb.ans.gpuVaSpace (sb.space i)).isSome) {block : VaBlock}
    (hfound : (if sb.ans.inRange i then sb.ans.findCreateInRange i
      else if s.mm.isSome then sb.ans.hmmFindCreate i else .error .errInvalidAddress) = .ok block) :
    s.batch.onBlock block i = true := by
  suffices hblock : block.vaSpace = sb.space i ∧ sb.address i ≤ block.last by
    rw [h.marks.onBlock, onBlock_iff, sb.vaSpace i hi, hblock.1]
    exact ⟨rfl, hblock.2⟩
  split at hfound
  next hrange =>
    have hfatal' : (sb.batch.entries i).isFatal = false := by
      rw [← Bool.not_eq_true] at hfatal ⊢
      exact fun hfatal' => hfatal (h.marks.isFatal i hfatal')
    have hloc : sb.located i = some block := by
      rw [SortedBatch.located_eq hi, hfatal', Option.isNone_eq_false_iff.2 hgpu, hrange, hfound]
      rfl
    obtain ⟨hspace, -, hlast⟩ := sb.found i hi block hloc
    exact ⟨hspace, hlast⟩
  next =>
    split at hfound
    · exact sb.hmmFound i hi block hfound
    · cases hfound

end Label

theorem AtPlace.serviceRound (hi : i < sb.size) :
    ∃ label u', passStep u label = some u' ∧ AfterRound sb u' (s.serviceRound sb.ans i) := by
  obtain ⟨h₁, hspace, hgpu⟩ := h.enterVaSpace hi
  have hbatch := @SerialBatch.enterVaSpace_batch sb.ans s (s.batch.entries i).vaSpace
  obtain ⟨s₁, hs₁⟩ : ∃ s₁, s.enterVaSpace sb.ans (s.batch.entries i).vaSpace = s₁ := ⟨_, rfl⟩
  rw [hs₁] at h₁ hspace hgpu hbatch
  -- fatal, ignored or dispatched
  have hround : s.serviceRound sb.ans i =
      if (s.batch.entries i).isFatal then
        ({ s₁ with batch := s₁.batch.noteFatal i }.record i 1 .fatal, .ok (i + 1))
      else if s₁.gpuVaSpace.isNone then (s₁.record i 1 .ignored, .ok (i + 1))
      else s₁.endRound i (s₁.serviceFaultBatchDispatch sb.ans i) := by
    rw [← hs₁]
    rfl
  rw [hround, ← hbatch]
  split
  next hfatal =>
    exact ⟨_, _, h₁.passStep_fatal hi hfatal,
      h₁.marks.trans (ServiceBatch.noteFatal_marksMore hi hfatal), h₁.gpuVaSpace, rfl, h₁.ctx, rfl,
      h₁.retrying, h₁.finished⟩
  next hfatal =>
    rw [Bool.not_eq_true] at hfatal
    split
    · exact ⟨_, _, h₁.passStep_ignored hi hfatal, h₁.marks, h₁.gpuVaSpace, h₁.batch, h₁.ctx, rfl,
        h₁.retrying, h₁.finished⟩
    next hsome =>
      rw [hgpu, Option.isNone_iff_eq_none, ← ne_eq, Option.ne_none_iff_isSome] at hsome
      -- a block, a cancel or ATS
      unfold SerialBatch.serviceFaultBatchDispatch
      dsimp only
      split
      next block hfound =>
        exact h₁.serviceFaultBatchBlock hi hfatal (h₁.onBlock hi hfatal hsome hfound) _ _
      next status hfound =>
        split
        · split
          · exact h₁.cancelFault hi hfatal _ _
          · exact h₁.serviceAts hi hfatal _
        · exact h₁.cancelFault hi hfatal _ _

/-- Every run of the loop is one of the machine. -/
theorem AtPlace.serviceFaultBatch {fuel : Nat} {r : SerialBatch × NvStatus}
    (hrun : serviceFaultBatch sb.ans fuel i s = some r) :
    ∃ labels u', passMachine.run u labels = some u' ∧ u'.batch = r.1.batch := by
  induction fuel generalizing i s u with
  | zero =>
    rw [FaultMesh.serviceFaultBatch] at hrun
    split at hrun
    · cases hrun
    · cases hrun
      exact ⟨[], u, rfl, h.batch⟩
  | succ fuel ih =>
    rw [FaultMesh.serviceFaultBatch] at hrun
    split at hrun
    next hi =>
      rw [h.marks.size] at hi
      -- a round is a step
      obtain ⟨label, u₁, hstep, hafter⟩ := h.serviceRound hi
      split at hrun
      next s₁ j hround =>
        rw [hround] at hafter
        obtain ⟨labels, u', hlabels, hbatch⟩ := ih hafter hrun
        exact ⟨label :: labels, u', (Machine.run_cons_eq_some _).2 ⟨u₁, hstep, hlabels⟩, hbatch⟩
      next s₁ status hround =>
        cases hrun
        rw [hround] at hafter
        exact ⟨[label], u₁, (Machine.run_cons_eq_some _).2 ⟨u₁, hstep, rfl⟩, hafter.1⟩
    next =>
      cases hrun
      exact ⟨[], u, rfl, h.batch⟩

end

end Rounds

end FaultMesh
