import FaultMesh.Fetch

/-!
# Replays, buffer flushes and preprocessing

A replay tells the GPU to retry every outstanding fault. A flush throws away everything between
the get pointer and put and then replays, so that the discarded faults come back if they still
matter. Preprocessing orders the cached faults, translates their instance pointers to VA spaces,
and hands the ordered batch to the predictor in the modes that work on coalesced pages. A failed
translation flushes the buffer and restarts fault servicing.
-/

namespace FaultMesh

/-! ## Replays and flushes -/

/-- `push_replay_on_gpu` with the status the channel answers. A replay of type `START_ACK_ALL`
is not counted in `num_replays`. -/
def pushReplayOnGpu (type : ReplayType) (push : CallStatus) (d : Driver) : Driver × CallStatus :=
  if push ≠ .ok then (d, push)
  else
    let bc := if type = .start then { d.bc with numReplays := d.bc.numReplays + 1 } else d.bc
    ({ d with bc := bc, log := .replay type :: d.log }, .ok)

inductive FlushMode where
  | cachedPut
  | updatePut
  | waitUpdatePut
  deriving DecidableEq, Repr

/-- The outside of one flush: waiting for the previous replay, the flush of the hardware buffer,
the put register and the push of the replay. -/
structure FlushAnswer where
  waitReplay : CallStatus := .ok
  hwFlush : CallStatus := .ok
  readPut : Nat := 0
  push : CallStatus := .ok

/-- The skip loop of a flush: every pending entry is discarded and get catches up with put. -/
def skipPending (gpu : GpuConfig) (d : Driver) : Driver :=
  let slots := ringSlots gpu.maxFaults d.rf.cachedPut
    (pendingEntries d.rf.cachedGet d.rf.cachedPut gpu.maxFaults) d.rf.cachedGet
  { d with
    rf := { d.rf with cachedGet := d.rf.cachedPut }
    log := (slots.map Event.flushed).reverse ++ d.log }

def faultBufferFlushLocked (gpu : GpuConfig) (mode : FlushMode) (type : ReplayType)
    (a : FlushAnswer) (d : Driver) : Driver × CallStatus :=
  if mode = .waitUpdatePut && a.waitReplay ≠ .ok then (d, a.waitReplay)
  else if mode ≠ .cachedPut && a.hwFlush ≠ .ok then (d, a.hwFlush)
  else
    let put := if mode = .cachedPut then d.rf.cachedPut else a.readPut
    pushReplayOnGpu type a.push (skipPending gpu { d with rf := { d.rf with cachedPut := put } })

/-! ## Preprocessing -/

/-- What `uvm_parent_gpu_fault_entry_to_va_space` finds for an instance pointer. -/
inductive Translation where
  | vaSpace (va : VaSpaceId)
  /-- `NV_ERR_INVALID_CHANNEL`: the channel is gone. -/
  | invalidChannel
  /-- `NV_ERR_PAGE_TABLE_NOT_AVAIL`: the channel is valid but its subcontext is not. -/
  | pageTableNotAvail
  deriving DecidableEq, Repr

def Translation.isVaSpace : Translation → Bool
  | .vaSpace _ => true
  | _ => false

theorem Translation.exists_of_isVaSpace {tr : Translation} (h : tr.isVaSpace = true) :
    ∃ va, tr = .vaSpace va := by
  cases tr with
  | vaSpace va => exact ⟨va, rfl⟩
  | invalidChannel | pageTableNotAvail => cases h

/-- The outside of a failed translation: the push of a cancel and the flush that follows. -/
structure PreprocessAnswer where
  pushCancel : CallStatus := .ok
  flush : FlushAnswer := {}

/-- The VA space an entry takes over from the previous one of the same instance pointer. -/
def copiedVaSpace (cache : Nat → FaultEntry) (i : Nat) : Option Nat → Option (Option VaSpaceId)
  | none => none
  | some j =>
    if cmpFaultInstancePtr (cache i).toRawFault (cache j).toRawFault = .eq then
      some (cache j).vaSpace
    else none

/-- The loop of `translate_instance_ptrs`: an entry from the same instance pointer as the one
before it copies its VA space, every other one is looked up. The result is `none` when every
entry was translated, and the first failure otherwise. -/
def translateEntries (toVaSpace : RawFault → Translation) :
    Option Nat → List Nat → (Nat → FaultEntry) → (Nat → FaultEntry) × Option Translation
  | _, [], cache => (cache, none)
  | previous, i :: is, cache =>
    match copiedVaSpace cache i previous with
    | some va =>
      translateEntries toVaSpace (some i) is
        (Function.update cache i { cache i with vaSpace := va })
    | none =>
      match toVaSpace (cache i).toRawFault with
      | .vaSpace va =>
        translateEntries toVaSpace (some i) is
          (Function.update cache i { cache i with vaSpace := some va })
      | failure => (cache, some failure)

/-- What `translate_instance_ptrs` does about a failed translation. A channel whose subcontext
is gone is cancelled first; then the buffer is flushed so that servicing starts over. -/
def restartAfterFailedTranslation (gpu : GpuConfig) (a : PreprocessAnswer) (failure : Translation)
    (d : Driver) : Driver × PreprocessStatus :=
  match failure, a.pushCancel with
  | .pageTableNotAvail, .err code => (d, .err code)
  | _, _ =>
    match faultBufferFlushLocked gpu .updatePut .start a.flush d with
    | (d, .ok) => (d, .restart)
    | (d, .err code) => (d, .err code)

/-- Indices of the cached entries that were not merged into another one. -/
def unfilteredIndices (bc : BatchContext) : List Nat :=
  (List.range bc.numCachedFaults).filter fun i => !(bc.faultCache i).filtered

/-- The coalesced faults in the order of `ordered_fault_cache`. -/
def BatchContext.orderedEntries (bc : BatchContext) : List FaultEntry :=
  bc.orderedFaultCache.map bc.faultCache

/-- The order in which instance pointers are translated. -/
def instancePtrOrder (bc : BatchContext) : List Nat :=
  if bc.isSingleInstancePtr then unfilteredIndices bc
  else
    sortBy (fun i j => cmpFaultInstancePtr (bc.faultCache i).toRawFault (bc.faultCache j).toRawFault)
      (unfilteredIndices bc)

/-- The batch with translated entries in its final order. -/
def orderBatch (bc : BatchContext) (order : List Nat) (cache : Nat → FaultEntry) : BatchContext :=
  { bc with
    faultCache := cache
    orderedFaultCache := sortBy (fun i j => cmpVaSpaceAddressAccessType (cache i) (cache j)) order }

/-- The predictor update at the end of preprocessing, for the modes on coalesced pages. -/
def rebuildFromOrdered (p : Params) (d : Driver) : Driver :=
  if p.prevFetchMode.useCoalescedPages && prevFetchAdaptiveShouldRun p d.rf.predictor then
    let counts : BatchCounts :=
      ⟨d.bc.numCachedFaults, d.bc.numCoalescedFaults, d.bc.numPredFastSkipStale⟩
    { d with
      rf := { d.rf with predictor :=
        updatePrevFetchPredictor p counts [] d.bc.orderedEntries d.rf.predictor }
      log := .rebuilt d.bc.orderedEntries :: d.log }
  else d

/-- `preprocess_fault_batch`, under the given registration of channels. -/
def preprocessFaultBatch (p : Params) (gpu : GpuConfig) (toVaSpace : RawFault → Translation)
    (a : PreprocessAnswer) (d : Driver) : Driver × PreprocessStatus :=
  let order := instancePtrOrder d.bc
  match translateEntries toVaSpace none order d.bc.faultCache with
  | (cache, some failure) =>
    restartAfterFailedTranslation gpu a failure
      { d with bc := { d.bc with faultCache := cache, orderedFaultCache := order } }
  | (cache, none) => (rebuildFromOrdered p { d with bc := orderBatch d.bc order cache }, .ok)

/-! ## What flushes leave behind -/

theorem skipPending_log (gpu : GpuConfig) (d : Driver) :
    ∃ slots : List Nat, (skipPending gpu d).log = slots.map Event.flushed ++ d.log :=
  ⟨_, by rw [skipPending, ← List.map_reverse]⟩

variable {d d' : Driver}

theorem pushReplayOnGpu_ok {type : ReplayType} {push : CallStatus}
    (h : pushReplayOnGpu type push d = (d', .ok)) : d'.log = .replay type :: d.log := by
  unfold pushReplayOnGpu at h
  split at h
  · next hne => exact absurd (Prod.mk.inj h).2 hne
  · simp only [Prod.mk.injEq, and_true] at h
    subst h
    rfl

variable {gpu : GpuConfig}

theorem faultBufferFlushLocked_ok {mode : FlushMode} {type : ReplayType} {a : FlushAnswer}
    (h : faultBufferFlushLocked gpu mode type a d = (d', .ok)) :
    ∃ l, d'.log = .replay type :: l := by
  unfold faultBufferFlushLocked at h
  split at h
  · next hw =>
      simp only [Bool.and_eq_true, decide_eq_true_eq] at hw
      exact absurd (Prod.mk.inj h).2 hw.2
  · split at h
    · next hf =>
        simp only [Bool.and_eq_true, decide_eq_true_eq] at hf
        exact absurd (Prod.mk.inj h).2 hf.2
    · exact ⟨_, pushReplayOnGpu_ok h⟩

theorem restartAfterFailedTranslation_restart {a : PreprocessAnswer} {failure : Translation}
    (h : restartAfterFailedTranslation gpu a failure d = (d', .restart)) :
    ∃ l, d'.log = .replay .start :: l := by
  unfold restartAfterFailedTranslation at h
  split at h
  · simp at h
  · split at h
    · next hf =>
        simp only [Prod.mk.injEq, and_true] at h
        subst h
        exact faultBufferFlushLocked_ok hf
    · simp at h

theorem preprocessFaultBatch_restart {p : Params} {toVaSpace : RawFault → Translation}
    {a : PreprocessAnswer} (h : preprocessFaultBatch p gpu toVaSpace a d = (d', .restart)) :
    ∃ l, d'.log = .replay .start :: l := by
  unfold preprocessFaultBatch at h
  dsimp only at h
  split at h
  · exact restartAfterFailedTranslation_restart h
  · simp at h

theorem restartAfterFailedTranslation_ne_ok (gpu : GpuConfig) (a : PreprocessAnswer)
    (failure : Translation) (d : Driver) :
    (restartAfterFailedTranslation gpu a failure d).2 ≠ .ok := by
  unfold restartAfterFailedTranslation
  split
  · simp
  · split <;> simp

theorem preprocessFaultBatch_ok {p : Params} {toVaSpace : RawFault → Translation}
    {a : PreprocessAnswer} (h : preprocessFaultBatch p gpu toVaSpace a d = (d', .ok)) :
    ∃ cache, translateEntries toVaSpace none (instancePtrOrder d.bc) d.bc.faultCache =
        (cache, none) ∧
      d' = rebuildFromOrdered p { d with bc := orderBatch d.bc (instancePtrOrder d.bc) cache } := by
  unfold preprocessFaultBatch at h
  dsimp only at h
  split at h
  · exact absurd (congrArg Prod.snd h) (restartAfterFailedTranslation_ne_ok _ _ _ _)
  · next cache hcache => exact ⟨cache, hcache, (Prod.mk.inj h).1.symm⟩

end FaultMesh
