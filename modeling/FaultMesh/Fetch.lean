import FaultMesh.Predictor

/-!
# Fetching a batch from the fault buffer

`fetch_fault_buffer_entries` walks the hardware ring from the cached get pointer towards put,
parses every entry, drops those the previous-fetch predictor answers for, coalesces duplicates
and caches the rest. The hardware side (the put register, the valid bits, the packet contents)
is the argument `Hal`.

Alongside the driver's own state a `Driver` keeps a log of what happened to each entry and of
every replay and table rebuild. The log is not part of the driver: nothing reads it except the
properties stated later.
-/

namespace FaultMesh

open Function (update)

/-! ## State -/

/-- `uvm_fault_utlb_info_t`; `lastFault` is an index into the fault cache. -/
structure UtlbInfo where
  numPendingFaults : Nat := 0
  hasFatalFaults : Bool := false
  lastFault : Nat := 0
  deriving DecidableEq, Repr

/-- `uvm_fault_service_batch_context_t`. Pointers into `fault_cache` are indices. -/
structure BatchContext where
  faultCache : Nat → FaultEntry
  numCachedFaults : Nat := 0
  numCoalescedFaults : Nat := 0
  orderedFaultCache : List Nat := []
  utlbs : Nat → UtlbInfo := fun _ => {}
  maxUtlbId : Nat := 0
  isSingleInstancePtr : Bool := true
  lastFault : Option Nat := none
  numInvalidPrefetchFaults : Nat := 0
  numDuplicateFaults : Nat := 0
  numStaleFaults : Nat := 0
  numPredFastSkipStale : Nat := 0
  numReplays : Nat := 0
  fatalVaSpace : Option VaSpaceId := none
  hasThrottledFaults : Bool := false
  batchId : Nat := 0

/-- The fields of `uvm_replayable_fault_buffer_info_t` that change while faults are serviced. -/
structure ReplayableFaults where
  cachedGet : Nat
  cachedPut : Nat
  predictor : Predictor

/-- `uvm_fault_replay_type_t`. -/
inductive ReplayType where
  | start
  | startAckAll
  deriving DecidableEq, Repr

inductive Event where
  | fetchBegin
  | dropped (slot : Nat) (e : FaultEntry)
  | cached (slot : Nat) (e : FaultEntry)
  | flushed (slot : Nat)
  | rebuilt (batch : List FaultEntry)
  | replay (type : ReplayType)
  deriving DecidableEq, Repr

/-- The per-GPU fault state, with the log of the run so far, newest event first. -/
structure Driver where
  rf : ReplayableFaults
  bc : BatchContext
  log : List Event := []

/-- What the hardware shows to one call: the put register, whether an entry is valid when it is
first polled, and the packet (or the decryption error) an entry parses to. -/
structure Hal where
  readPut : Nat
  entryIsValid : Nat → Bool
  parse : Nat → CallStatus × RawFault

/-- `uvm_perf_fault_replay_policy_t`. -/
inductive ReplayPolicy where
  | block
  | batch
  | batchFlush
  | once
  deriving DecidableEq, Repr

/-- What is fixed once the fault buffer of a GPU is initialised. -/
structure GpuConfig where
  maxFaults : Nat
  maxBatchSize : Nat := 256
  replayPolicy : ReplayPolicy := .batchFlush
  replayUpdatePutRatio : Nat := 50
  faultCancelVaSupported : Bool := true
  deriving DecidableEq, Repr

/-- `fault_fetch_mode_t`. -/
inductive FetchMode where
  | batchReady
  | all
  deriving DecidableEq, Repr

/-! ## Ring arithmetic and the fetch limit -/

/-- `++get; if (get == max_faults) get = 0`. -/
def ringNext (maxFaults get : Nat) : Nat := if get + 1 = maxFaults then 0 else get + 1

/-- `replayable_fault_buffer_pending_entries`. -/
def pendingEntries (get put maxFaults : Nat) : Nat :=
  if get ≤ put then put - get else (maxFaults - get) + put

/-- The slots from get up to put, in ring order; the first argument after put bounds their number. -/
def ringSlots (maxFaults put : Nat) : Nat → Nat → List Nat
  | 0, _ => []
  | fuel + 1, get =>
    if get = put then [] else get :: ringSlots maxFaults put fuel (ringNext maxFaults get)

/-- `replayable_fault_buffer_fetch_limit`. -/
def fetchLimit (p : Params) (gpu : GpuConfig) (mode : FetchMode) (pending skipPct : Nat) : Nat :=
  let limit :=
    if mode = .all || !p.fetchAdaptiveEnable then gpu.maxBatchSize
    else if p.fetchHighPending ≤ pending then min gpu.maxBatchSize p.fetchHighCount
    else if p.fetchMidPending ≤ pending then min gpu.maxBatchSize p.fetchMidCount
    else min gpu.maxBatchSize p.fetchLowCount
  let boosted :=
    if mode ≠ .all && p.prevFetchPredictorEnable && p.fetchPredictorBoostEnable &&
        p.fetchPredictorBoostThresholdPct ≤ skipPct then
      max limit (min gpu.maxBatchSize p.fetchPredictorBoostCount)
    else limit
  max boosted 1

/-! ## One entry -/

structure FetchCtx where
  put : Nat
  fetchLimit : Nat
  mode : FetchMode
  /-- `adaptive_filter_active`, decided once per batch. -/
  filterActive : Bool
  /-- `may_filter`: whether duplicates may be coalesced. -/
  mayFilter : Bool

structure FetchState where
  get : Nat
  faultIndex : Nat
  numCoalesced : Nat
  bc : BatchContext
  predictor : Predictor
  log : List Event

/-- An entry right after parsing. The packet fields are overwritten; `isThrottled` and
`isInvalidPrefetch` keep what an earlier batch left in the cache slot. -/
def parsedEntry (old : FaultEntry) (raw : RawFault) : FaultEntry :=
  { old with
    toRawFault := { raw with faultAddress := pageAlignDown raw.faultAddress }
    isFatal := raw.faultType = .fatal
    fatalReason := if raw.faultType = .fatal then .invalidFaultType else .invalid
    vaSpace := none
    filtered := false
    predPrevCandidate := false
    predFetchSkip := false
    cancelVaMode := .all }

/-- The skip test of the fetch loop, with the memo it leaves. -/
def filterDrops (p : Params) (ctx : FetchCtx) (pr : Predictor) (e : FaultEntry) :
    Bool × Predictor :=
  if p.prevFetchPredictorEnable && p.predSkipEnable && ctx.mode ≠ .all && !e.isFatal &&
      ctx.filterActive then
    prevFetchKeysContains p.prevFetchMode pr e.toRawFault
  else (false, pr)

/-- `fetch_fault_buffer_merge_entry` on the cache slots `current` and `last`. -/
def mergeEntry (cache : Nat → FaultEntry) (current last : Nat) : Nat → FaultEntry :=
  let cur := cache current
  let lst : FaultEntry := { cache last with
    numInstances := ((cache last).numInstances + 1) % 2 ^ 16
    accessTypeMask := accessTypeMaskSet (cache last).accessTypeMask cur.accessType }
  if lst.accessType < cur.accessType then
    -- the more intrusive access becomes the representative
    let cur := { cur with accessTypeMask := lst.accessTypeMask, numInstances := lst.numInstances }
    update (update cache last { lst with filtered := true }) current cur
  else
    update (update cache last lst) current { cur with filtered := true }

/-- `fetch_fault_buffer_try_merge_entry`: first against the last fault of the same uTLB, then
against the last fault of the batch. `none` if the entry stands on its own. -/
def tryMergeEntry (bc : BatchContext) (i : Nat) (isSameInstancePtr : Bool) :
    Option BatchContext :=
  let cur := bc.faultCache i
  let tlb := bc.utlbs cur.utlbId
  let lastTlb := bc.faultCache tlb.lastFault
  let isLastTlbFault := 0 < tlb.numPendingFaults &&
    cmpFaultInstancePtr cur.toRawFault lastTlb.toRawFault = .eq &&
    cur.faultAddress = lastTlb.faultAddress
  if isLastTlbFault then
    some { bc with
      faultCache := mergeEntry bc.faultCache i tlb.lastFault
      utlbs :=
        if lastTlb.accessType < cur.accessType then
          update bc.utlbs cur.utlbId { tlb with lastFault := i }
        else bc.utlbs }
  else
    match bc.lastFault with
    | none => none
    | some j =>
      let lastGlobal := bc.faultCache j
      -- across uTLBs only an access of the same or lower intrusiveness is merged
      if isSameInstancePtr && cur.faultAddress = lastGlobal.faultAddress &&
          cur.accessType ≤ lastGlobal.accessType then
        some { bc with faultCache := mergeEntry bc.faultCache i j }
      else none

/-- The bookkeeping for an entry that becomes a fault of its own. -/
def cacheNewFault (bc : BatchContext) (i : Nat) (isSameInstancePtr : Bool) : BatchContext :=
  let cur := bc.faultCache i
  let tlb := bc.utlbs cur.utlbId
  { bc with
    isSingleInstancePtr := bc.isSingleInstancePtr && isSameInstancePtr
    faultCache := update bc.faultCache i
      { cur with numInstances := 1, accessTypeMask := cur.accessType.maskBit }
    utlbs := update bc.utlbs cur.utlbId
      { tlb with numPendingFaults := tlb.numPendingFaults + 1, lastFault := i }
    lastFault := some i }

/-- Whether the entry in slot `i` comes from the instance pointer of the last fault. -/
def sameInstancePtrAsLast (bc : BatchContext) (i : Nat) : Bool :=
  match bc.lastFault with
  | none => true
  | some j => cmpFaultInstancePtr (bc.faultCache i).toRawFault (bc.faultCache j).toRawFault = .eq

/-- Coalesce or cache the entry in slot `i`; the flag says whether it is a fault of its own. -/
def keepEntry (ctx : FetchCtx) (bc : BatchContext) (i : Nat) : BatchContext × Bool :=
  let same := if 0 < i then sameInstancePtrAsLast bc i else true
  let merged :=
    if 0 < i && ctx.mayFilter && !(bc.faultCache i).isFatal then tryMergeEntry bc i same else none
  match merged with
  | some bc' => (bc', false)
  | none => (cacheNewFault bc i same, true)

/-- Store the parsed entry in the next free slot, noting the largest uTLB id seen. -/
def storeParsed (bc : BatchContext) (i : Nat) (raw : RawFault) : BatchContext :=
  { bc with
    faultCache := update bc.faultCache i (parsedEntry (bc.faultCache i) raw)
    maxUtlbId := max bc.maxUtlbId raw.utlbId }

/-- The entry an iteration parses, into the next free slot. -/
def FetchState.parsed (st : FetchState) (raw : RawFault) : FaultEntry :=
  parsedEntry (st.bc.faultCache st.faultIndex) raw

/-- The body of the fetch loop for one valid, successfully parsed entry. -/
def fetchEntry (p : Params) (maxFaults : Nat) (ctx : FetchCtx) (raw : RawFault)
    (st : FetchState) : FetchState :=
  let i := st.faultIndex
  let bc := storeParsed st.bc i raw
  let e := st.parsed raw
  let (drop, predictor) := filterDrops p ctx st.predictor e
  if drop then
    -- the get pointer moves on, the slot is reused by the next entry
    { st with
      get := ringNext maxFaults st.get
      bc := { bc with numPredFastSkipStale := bc.numPredFastSkipStale + 1 }
      predictor := predictor
      log := .dropped st.get e :: st.log }
  else
    let (bc, isNew) := keepEntry ctx bc i
    { get := ringNext maxFaults st.get
      faultIndex := i + 1
      numCoalesced := if isNew then st.numCoalesced + 1 else st.numCoalesced
      bc := bc
      predictor := predictor
      log := .cached st.get e :: st.log }

/-! ## The loop -/

/-- The fetch loop. The first argument bounds the iterations by the number of pending entries. -/
def fetchLoop (p : Params) (maxFaults : Nat) (ctx : FetchCtx) (hal : Hal) :
    Nat → FetchState → FetchState × CallStatus
  | 0, st => (st, .ok)
  | fuel + 1, st =>
    if st.get = ctx.put || (ctx.mode ≠ .all && ctx.fetchLimit ≤ st.faultIndex) then (st, .ok)
    else if !hal.entryIsValid st.get && ctx.mode = .batchReady && 0 < st.faultIndex then
      -- some entries are cached already: leave the ones not ready yet for the next batch
      (st, .ok)
    else
      let packet := hal.parse st.get
      if packet.1 ≠ .ok then (st, packet.1)
      else fetchLoop p maxFaults ctx hal fuel (fetchEntry p maxFaults ctx packet.2 st)

/-- Decide whether the filter runs for the next batch. A batch that hit the fetch limit means a
backlog and switches the filter on; it is switched off after a cooldown of batches that stayed
below the limit and found nothing to skip. -/
def adaptiveUpdate (p : Params) (ctx : FetchCtx) (faultIndex numSkipped : Nat) (pr : Predictor) :
    Predictor :=
  if !p.predAdaptiveEnable then pr
  else if ctx.mode ≠ .all && 0 < ctx.fetchLimit && ctx.fetchLimit ≤ faultIndex then
    { pr with adaptiveActive := true, adaptiveCooldownRemaining := max 1 p.predAdaptiveCooldown }
  else if pr.adaptiveActive then
    if 0 < numSkipped then { pr with adaptiveCooldownRemaining := max 1 p.predAdaptiveCooldown }
    else if 1 < pr.adaptiveCooldownRemaining then
      { pr with adaptiveCooldownRemaining := pr.adaptiveCooldownRemaining - 1 }
    else { pr with adaptiveActive := false, adaptiveCooldownRemaining := 0 }
  else pr

def BatchContext.firstEntries (bc : BatchContext) (n : Nat) : List FaultEntry :=
  (List.range n).map bc.faultCache

/-- The loop constants of a fetch from the driver's state and the put value it works with. -/
def fetchCtx (p : Params) (gpu : GpuConfig) (mode : FetchMode) (rf : ReplayableFaults)
    (put : Nat) : FetchCtx where
  put := put
  fetchLimit :=
    if rf.cachedGet = put then 0
    else
      fetchLimit p gpu mode (pendingEntries rf.cachedGet put gpu.maxFaults)
        rf.predictor.lastBatchFetchSkipPct
  mode := mode
  filterActive := prevFetchAdaptiveShouldRun p rf.predictor
  mayFilter := p.coalesce && !(!gpu.faultCancelVaSupported && mode = .all)

/-- The put pointer a fetch works with: the register is read only when the cached one is used
up. -/
def fetchPut (rf : ReplayableFaults) (hal : Hal) : Nat :=
  if rf.cachedGet = rf.cachedPut then hal.readPut else rf.cachedPut

/-- The loop variables at the start of a fetch: uTLB counters cleared, nothing cached. -/
def fetchStart (d : Driver) : FetchState where
  get := d.rf.cachedGet
  faultIndex := 0
  numCoalesced := 0
  bc := { d.bc with
    isSingleInstancePtr := true
    lastFault := none
    utlbs := fun id =>
      if id ≤ d.bc.maxUtlbId then
        { d.bc.utlbs id with numPendingFaults := 0, hasFatalFaults := false }
      else d.bc.utlbs id
    maxUtlbId := 0 }
  predictor := d.rf.predictor
  log := .fetchBegin :: d.log

/-- What `fetch_fault_buffer_entries` does after its loop: the adaptive decision, the rebuild of
mode 0, and only then the new get pointer and the new counts. The rebuild reads as many cache
slots as the *previous* fetch had filled, since `num_cached_faults` is assigned last. -/
def fetchFinish (p : Params) (ctx : FetchCtx) (st : FetchState) : Driver :=
  let predictor := adaptiveUpdate p ctx st.faultIndex st.bc.numPredFastSkipStale st.predictor
  let rebuild := !p.prevFetchMode.useCoalescedPages && prevFetchAdaptiveShouldRun p predictor
  let counts : BatchCounts :=
    ⟨st.bc.numCachedFaults, st.bc.numCoalescedFaults, st.bc.numPredFastSkipStale⟩
  { rf :=
    { cachedPut := ctx.put
      cachedGet := st.get
      predictor :=
        if rebuild then
          updatePrevFetchPredictor p counts (st.bc.firstEntries st.bc.numCachedFaults) [] predictor
        else predictor }
    bc := { st.bc with numCachedFaults := st.faultIndex, numCoalescedFaults := st.numCoalesced }
    log := if rebuild then .rebuilt (st.bc.firstEntries st.faultIndex) :: st.log else st.log }

def fetchFaultBufferEntries (p : Params) (gpu : GpuConfig) (hal : Hal) (mode : FetchMode)
    (d : Driver) : Driver × CallStatus :=
  let put := fetchPut d.rf hal
  let ctx := fetchCtx p gpu mode d.rf put
  let (st, status) :=
    fetchLoop p gpu.maxFaults ctx hal (pendingEntries d.rf.cachedGet put gpu.maxFaults)
      (fetchStart d)
  (fetchFinish p ctx st, status)

/-! ## What one iteration does -/

theorem filterDrops_parsedEntry (p : Params) (ctx : FetchCtx) (pr : Predictor)
    (old old' : FaultEntry) (raw : RawFault) :
    filterDrops p ctx pr (parsedEntry old raw) = filterDrops p ctx pr (parsedEntry old' raw) := rfl

section FetchEntry

variable (p : Params) (maxFaults : Nat) (ctx : FetchCtx) (raw : RawFault) (st : FetchState)

@[simp] theorem fetchEntry_get :
    (fetchEntry p maxFaults ctx raw st).get = ringNext maxFaults st.get := by
  rcases hf : filterDrops p ctx st.predictor (st.parsed raw) with ⟨_ | _, pr⟩ <;>
    simp [fetchEntry, hf]

theorem fetchEntry_predictor :
    (fetchEntry p maxFaults ctx raw st).predictor =
      (filterDrops p ctx st.predictor (st.parsed raw)).2 := by
  rcases hf : filterDrops p ctx st.predictor (st.parsed raw) with ⟨_ | _, pr⟩ <;>
    simp [fetchEntry, hf]

theorem fetchEntry_faultIndex :
    (fetchEntry p maxFaults ctx raw st).faultIndex =
      if (filterDrops p ctx st.predictor (st.parsed raw)).1 then st.faultIndex
      else st.faultIndex + 1 := by
  rcases hf : filterDrops p ctx st.predictor (st.parsed raw) with ⟨_ | _, pr⟩ <;>
    simp [fetchEntry, hf]

theorem fetchEntry_log :
    (fetchEntry p maxFaults ctx raw st).log =
      (if (filterDrops p ctx st.predictor (st.parsed raw)).1 then
        Event.dropped st.get (st.parsed raw)
      else Event.cached st.get (st.parsed raw)) :: st.log := by
  rcases hf : filterDrops p ctx st.predictor (st.parsed raw) with ⟨_ | _, pr⟩ <;>
    simp [fetchEntry, hf]

theorem fetchEntry_bc :
    (fetchEntry p maxFaults ctx raw st).bc =
      if (filterDrops p ctx st.predictor (st.parsed raw)).1 then
        { storeParsed st.bc st.faultIndex raw with
          numPredFastSkipStale := st.bc.numPredFastSkipStale + 1 }
      else (keepEntry ctx (storeParsed st.bc st.faultIndex raw) st.faultIndex).1 := by
  rcases hf : filterDrops p ctx st.predictor (st.parsed raw) with ⟨_ | _, pr⟩ <;>
    simp [fetchEntry, hf, storeParsed]

end FetchEntry

theorem filterDrops_snd (p : Params) (ctx : FetchCtx) (pr : Predictor) (e : FaultEntry) :
    ∃ l, (filterDrops p ctx pr e).2 = { pr with last := l } := by
  unfold filterDrops
  split
  · exact ⟨_, prevFetchKeysContains_snd _ _ _⟩
  · exact ⟨pr.last, rfl⟩

theorem of_filterDrops {p : Params} {ctx : FetchCtx} {pr : Predictor} {e : FaultEntry}
    (h : (filterDrops p ctx pr e).1 = true) :
    ctx.filterActive = true ∧ ctx.mode ≠ .all ∧ e.isFatal = false ∧
      (prevFetchKeysContains p.prevFetchMode pr e.toRawFault).1 = true := by
  unfold filterDrops at h
  split at h
  · next hc =>
      simp only [Bool.and_eq_true, decide_eq_true_eq, Bool.not_eq_eq_eq_not, Bool.not_true] at hc
      exact ⟨hc.2, hc.1.1.2, hc.1.2, h⟩
  · simp at h

/-! ## What the loop preserves -/

/-- **Loop rule**: a property of the loop variables that every iteration keeps holds when the
loop ends, however it ends. -/
theorem fetchLoop_invariant {p : Params} {maxFaults : Nat} {ctx : FetchCtx} {hal : Hal}
    {I : FetchState → Prop}
    (hstep : ∀ st, I st → st.get ≠ ctx.put → (ctx.mode = .all ∨ st.faultIndex < ctx.fetchLimit) →
      (hal.parse st.get).1 = .ok →
      I (fetchEntry p maxFaults ctx (hal.parse st.get).2 st))
    {fuel : Nat} {st : FetchState} (hI : I st) : I (fetchLoop p maxFaults ctx hal fuel st).1 := by
  induction fuel generalizing st with
  | zero => exact hI
  | succ fuel ih =>
    unfold fetchLoop
    split
    · exact hI
    · next hgo =>
        split
        · exact hI
        · dsimp only
          split
          · exact hI
          · next hok =>
              simp only [Bool.or_eq_true, decide_eq_true_eq, Bool.and_eq_true, not_or,
                not_and, Nat.not_le] at hgo
              -- an iteration; all other ways out leave the variables alone
              refine ih (hstep st hI hgo.1 ?_ (not_not.1 hok))
              by_cases hm : ctx.mode = .all
              · exact .inl hm
              · exact .inr (hgo.2 hm)

/-- The filter drops everything from `get` up to put: the get pointer reaches put and nothing is
cached. -/
def dropsRest (p : Params) (maxFaults : Nat) (ctx : FetchCtx) (hal : Hal) :
    Nat → Nat → Predictor → Bool
  | 0, _, _ => true
  | fuel + 1, get, pr =>
    if get = ctx.put then true
    else
      let packet := hal.parse get
      let filter := filterDrops p ctx pr (parsedEntry { faultAddress := 0 } packet.2)
      packet.1 = .ok && filter.1 &&
        dropsRest p maxFaults ctx hal fuel (ringNext maxFaults get) filter.2

theorem le_fetchLoop_faultIndex (p : Params) (maxFaults : Nat) (ctx : FetchCtx) (hal : Hal)
    (fuel : Nat) (st : FetchState) :
    st.faultIndex ≤ (fetchLoop p maxFaults ctx hal fuel st).1.faultIndex := by
  apply fetchLoop_invariant (I := fun t => st.faultIndex ≤ t.faultIndex)
  · intro t ht _ _ _
    rw [fetchEntry_faultIndex]
    split
    · exact ht
    · exact Nat.le_succ_of_le ht
  · exact Nat.le_refl _

/-- While nothing is cached the loop neither stops at the limit nor at an entry that is not
ready. So it ends without an error and with nothing cached exactly when the filter drops
everything up to put. -/
theorem fetchLoop_keeps_nothing_iff {p : Params} {maxFaults : Nat} {ctx : FetchCtx} {hal : Hal}
    (hlimit : 0 < ctx.fetchLimit) {fuel : Nat} {st : FetchState} (hidx : st.faultIndex = 0) :
    ((fetchLoop p maxFaults ctx hal fuel st).2 = .ok ∧
      (fetchLoop p maxFaults ctx hal fuel st).1.faultIndex = 0) ↔
    dropsRest p maxFaults ctx hal fuel st.get st.predictor = true := by
  induction fuel generalizing st with
  | zero => simp [fetchLoop, dropsRest, hidx]
  | succ fuel ih =>
    unfold fetchLoop dropsRest
    by_cases hput : st.get = ctx.put
    · simp [hput, hidx]
    · have hlim : ¬ ctx.fetchLimit ≤ 0 := by omega
      simp only [hput, hidx, hlim, decide_false, Bool.and_false, Bool.or_false,
        Bool.false_eq_true, if_false, Nat.lt_irrefl]
      by_cases hok : (hal.parse st.get).1 = .ok
      · simp only [hok, ne_eq, not_true_eq_false, if_false, decide_true, Bool.true_and]
        have hnext := @ih (fetchEntry p maxFaults ctx (hal.parse st.get).2 st)
        rw [fetchEntry_get, fetchEntry_predictor, fetchEntry_faultIndex] at hnext
        -- the filter sees the same entry whatever the cache slot held before
        change _ ↔ ((filterDrops p ctx st.predictor (st.parsed (hal.parse st.get).2)).1 &&
          dropsRest p maxFaults ctx hal fuel (ringNext maxFaults st.get)
            (filterDrops p ctx st.predictor (st.parsed (hal.parse st.get).2)).2) = true
        cases hd : (filterDrops p ctx st.predictor (st.parsed (hal.parse st.get).2)).1 with
        | true =>
          -- dropped: still nothing cached, and the rest of the ring decides
          rw [Bool.true_and]
          exact hnext (by simpa [hd] using hidx)
        | false =>
          -- kept: one entry is cached, and the count never goes down again
          simp only [Bool.false_and, Bool.false_eq_true, iff_false, not_and]
          intro _
          have hle := le_fetchLoop_faultIndex p maxFaults ctx hal fuel
            (fetchEntry p maxFaults ctx (hal.parse st.get).2 st)
          rw [fetchEntry_faultIndex, hd, if_neg Bool.false_ne_true] at hle
          exact Nat.pos_iff_ne_zero.1 (Nat.lt_of_lt_of_le (Nat.succ_pos _) hle)
      · simp [hok]

end FaultMesh
