import FaultMesh.FetchRecord

/-!
# Powering the filter down and up again

With adaptive gating the filter is powered down after a number of batches that stayed below the
fetch limit, and powered up by a batch that hits it. While it is down neither lookups nor builds
take place. The batch that powers it up builds a table again, so that the table from before the
power-down should never be asked. This fails whenever a batch is fetched without a build: when
preprocessing fails, when a parse error ends the fetch, and in mode 0, where the build reads the
number of slots that the previous fetch had filled.

A `GateState` is the driver between the calls that concern the filter, along with the last batch
that was not empty.
-/

namespace FaultMesh

/-- The parameters with the predictor and adaptive gating on. -/
def Params.gated (p : Params) (mode : PrevFetchMode) : Params :=
  { p with prevFetchMode := mode, prevFetchPredictorEnable := true, predAdaptiveEnable := true }

/-! ## The machine -/

/-- The driver between two calls. -/
structure GateState where
  d : Driver
  /-- A batch was fetched and will be preprocessed next. -/
  pending : Bool := false
  /-- The entries of the last batch that was not empty. -/
  batch : List FaultEntry := []

/-- The calls that concern the filter, with the parameters at that time and what the outside
answers. -/
inductive GateLabel where
  | fetch (p : Params) (hal : Hal) (fetchMode : FetchMode)
  | preprocess (p : Params) (toVaSpace : RawFault → Translation) (a : PreprocessAnswer)
  | service (serviceMode : ServiceMode) (o : ServiceOutcome)
  | flush (flushMode : FlushMode) (type : ReplayType) (a : FlushAnswer)

/-- A fetch, and whether preprocessing follows. -/
def GateState.fetch (gpu : GpuConfig) (p : Params) (hal : Hal) (fetchMode : FetchMode)
    (s : GateState) : GateState :=
  let (d, status) := fetchFaultBufferEntries p gpu hal fetchMode (resetCounters s.d)
  { d := d
    pending := status = .ok && d.bc.numCachedFaults ≠ 0
    batch :=
      if d.bc.numCachedFaults = 0 then s.batch else d.bc.firstEntries d.bc.numCachedFaults }

/-- One call. A batch that was fetched is preprocessed before anything else happens. -/
def gateStep (gpu : GpuConfig) (mode : PrevFetchMode) (s : GateState) : GateLabel → Option GateState
  | .fetch p hal fetchMode =>
    if s.pending then none else some (s.fetch gpu (p.gated mode) hal fetchMode)
  | .preprocess p toVaSpace a =>
    if s.pending then
      some { s with
        d := (preprocessFaultBatch (p.gated mode) gpu toVaSpace a s.d).1, pending := false }
    else none
  | .service serviceMode o =>
    if s.pending then none else some { s with d := applyService gpu serviceMode o s.d }
  | .flush flushMode type a =>
    if s.pending then none
    else some { s with d := (faultBufferFlushLocked gpu flushMode type a s.d).1 }

/-- The filter of one GPU over any number of batches. -/
def gateMachine (gpu : GpuConfig) (mode : PrevFetchMode) : Machine GateState GateLabel where
  step := gateStep gpu mode

structure GateState.Fresh (s : GateState) : Prop where
  predictor : ∃ exactSize tagSize hexact htag,
    s.d.rf.predictor = Predictor.init exactSize tagSize hexact htag
  numCached : s.d.bc.numCachedFaults = 0
  pending : s.pending = false

/-! ## Keys -/

/-- The mode takes the two faults for the same one. Mode 3 compares tags within a slot. -/
def SameKey (mode : PrevFetchMode) (tagSize : Nat) (f e : RawFault) : Prop :=
  match mode with
  | .fetchCache => f.prevFetchKey = e.prevFetchKey
  | .coalescedBsearch | .hashExact => f.faultAddress = e.faultAddress
  | .hashApprox =>
    prevFetchHashIndex f.faultAddress (tagSize - 1) =
        prevFetchHashIndex e.faultAddress (tagSize - 1) ∧
      prevFetchTagValue f.faultAddress = prevFetchTagValue e.faultAddress

/-- Every hit of the table is on a key of the batch. -/
def HitsWithin (mode : PrevFetchMode) (pr : Predictor) (batch : List FaultEntry) : Prop :=
  ∀ e, tableContains mode pr e = true → ∃ f ∈ batch, SameKey mode pr.tags.size f.toRawFault e

/-- When a fetch begins with the filter up, the table only answers for the last batch. -/
def NoOldHits (mode : PrevFetchMode) (s : GateState) : Prop :=
  s.pending = false → s.d.rf.predictor.adaptiveActive = true →
    HitsWithin mode s.d.rf.predictor s.batch

/-- Every call of the run keeps the table in step with the batches:

* in the modes on coalesced pages, when a fetch caches anything, all pending packets parse, those
  behind its window included, and a batch that is preprocessed with the filter up has all its
  channels registered;
* in mode 0 a fetch caches at least as many entries as the one before it, or none; if it drops the
  whole window, then not because of an outdated memo. -/
def GateGuard (gpu : GpuConfig) (mode : PrevFetchMode) (s : GateState) : GateLabel → Prop
  | .fetch p hal fetchMode =>
    let window := fetchWindow (p.gated mode) gpu hal fetchMode s.d.rf
    if mode.useCoalescedPages = true then
      window.1 = 0 ∨ ∀ slot ∈ pendingSlots gpu hal s.d.rf, (hal.parse slot).1 = .ok
    else
      s.d.bc.numCachedFaults ≤ window.1 ∨
        (window.1 = 0 ∧ (window.2 = 0 ∨ MemoSound mode s.d.rf.predictor))
  | .preprocess _ toVaSpace _ =>
    mode.useCoalescedPages = true → s.d.rf.predictor.adaptiveActive = true →
      ∀ i < s.d.bc.numCachedFaults,
        (toVaSpace (s.d.bc.faultCache i).toRawFault).isVaSpace = true
  | .service _ _ | .flush _ _ _ => True

instance (gpu : GpuConfig) (mode : PrevFetchMode) (s : GateState) :
    ∀ i, Decidable (GateGuard gpu mode s i)
  | .fetch _ _ _ => inferInstanceAs (Decidable (ite _ _ _))
  | .preprocess _ _ _ => inferInstanceAs (Decidable (_ → _ → ∀ i < _, _))
  | .service _ _ | .flush _ _ _ => isTrue trivial

section Keys

variable {mode : PrevFetchMode} {exactSize tagSize : Nat} {e : RawFault}

theorem SameKey.congr {f g : RawFault} (h : SameKey mode tagSize f e)
    (hkey : g.prevFetchKey = f.prevFetchKey) : SameKey mode tagSize g e := by
  have haddr : g.faultAddress = f.faultAddress := (PrevFetchKey.mk.inj hkey).2.2
  cases mode with
  | fetchCache => exact hkey.trans h
  | coalescedBsearch | hashExact => exact haddr.trans h
  | hashApprox =>
    simp only [SameKey, haddr]
    exact h

theorem exists_sameKey_of_lists {entries : List FaultEntry}
    (h : Lists mode exactSize tagSize entries e) :
    ∃ f ∈ entries, SameKey mode tagSize f.toRawFault e := by
  cases mode with
  | fetchCache | coalescedBsearch => exact h
  | hashExact =>
    obtain ⟨f, hfind, haddr⟩ := Option.map_eq_some_iff.1 h
    exact ⟨f, List.mem_reverse.1 (List.mem_of_find?_eq_some hfind), haddr⟩
  | hashApprox =>
    obtain ⟨f, hfind, htag⟩ := Option.map_eq_some_iff.1 h
    have hslot := List.find?_some hfind
    exact ⟨f, List.mem_reverse.1 (List.mem_of_find?_eq_some hfind), of_decide_eq_true hslot, htag⟩

end Keys

@[simp] theorem shouldRun_gated (p : Params) (mode : PrevFetchMode) (pr : Predictor) :
    prevFetchAdaptiveShouldRun (p.gated mode) pr = pr.adaptiveActive := by
  simp [prevFetchAdaptiveShouldRun, Params.gated]

theorem prevFetchKey_of_filterView {e f : FaultEntry} (h : e.filterView = f.filterView) :
    e.prevFetchKey = f.prevFetchKey :=
  congrArg RawFault.prevFetchKey (congrArg Prod.fst h)

/-! ## What stays in the cache -/

/-- Beyond the cached entries the slots keep their packets, except that the first of them may hold
an entry that the table had answered for. -/
theorem fetchLoop_leftover {p : Params} {maxFaults : Nat} {ctx : FetchCtx} {hal : Hal} {fuel : Nat}
    {st : FetchState} (hmemo : MemoSound p.prevFetchMode st.predictor) :
    let st' := (fetchLoop p maxFaults ctx hal fuel st).1
    ∀ i, st'.faultIndex ≤ i →
      (st'.bc.faultCache i).toRawFault = (st.bc.faultCache i).toRawFault ∨
        (i = st'.faultIndex ∧ ctx.filterActive = true ∧
          tableContains p.prevFetchMode st.predictor (st'.bc.faultCache i).toRawFault = true) := by
  -- the tables are those of the start and the memo stays sound
  have hinv := @fetchLoop_invariant p maxFaults ctx hal
    (fun t => (∃ l, t.predictor = { st.predictor with last := l }) ∧
      MemoSound p.prevFetchMode t.predictor ∧ ∀ i, t.faultIndex ≤ i →
        (t.bc.faultCache i).toRawFault = (st.bc.faultCache i).toRawFault ∨
          (i = t.faultIndex ∧ ctx.filterActive = true ∧
            tableContains p.prevFetchMode st.predictor (t.bc.faultCache i).toRawFault = true))
  refine (hinv ?_ ⟨⟨_, rfl⟩, hmemo, fun i _ => .inl rfl⟩).2.2
  rintro t ⟨⟨l, hl⟩, hsound, hslots⟩ _ _ _
  obtain ⟨l', hl'⟩ := filterDrops_snd p ctx t.predictor (t.parsed (hal.parse t.get).2)
  refine ⟨⟨l', by rw [fetchEntry_predictor, hl', hl]⟩, ?_, ?_⟩
  · rw [fetchEntry_predictor]
    exact filterDrops_memoSound hsound _
  have hstored : ∀ i, i ≠ t.faultIndex →
      (storeParsed t.bc t.faultIndex (hal.parse t.get).2).faultCache i = t.bc.faultCache i :=
    fun i hi => Function.update_of_ne hi _ _
  intro i hi
  rw [fetchEntry_faultIndex] at hi ⊢
  rw [fetchEntry_bc]
  split
  · rename_i hdrop
    rw [if_pos hdrop] at hi
    by_cases hnew : i = t.faultIndex
    -- the entry that was just dropped
    · obtain ⟨hactive, -, -, hhit⟩ := of_filterDrops hdrop
      have htable := hsound.tableContains_of_hit hhit
      rw [hl, tableContains_with_last] at htable
      refine .inr ⟨hnew, hactive, ?_⟩
      subst hnew
      simpa [storeParsed, FetchState.parsed] using htable
    · rw [show _ = t.bc.faultCache i from hstored i hnew]
      exact .inl ((hslots i hi).resolve_right fun h => hnew h.1)
  · rename_i hkeep
    rw [if_neg hkeep] at hi
    obtain ⟨n, m, f, hmarks⟩ :=
      keepEntry_marks ctx (storeParsed t.bc t.faultIndex (hal.parse t.get).2) t.faultIndex i
    have hne : i ≠ t.faultIndex := by omega
    rw [hmarks, hstored i hne]
    exact .inl ((hslots i (by omega)).resolve_right fun h => hne h.1)

theorem fetch_leftover {p : Params} {gpu : GpuConfig} {hal : Hal} {fetchMode : FetchMode}
    {d : Driver} (hnone : (fetchWindow p gpu hal fetchMode d.rf).1 = 0)
    (hdrops : (fetchWindow p gpu hal fetchMode d.rf).2 = 0 ∨
      MemoSound p.prevFetchMode d.rf.predictor) (i : Nat) :
    let e := ((fetchedState p gpu hal fetchMode d).1.bc.faultCache i).toRawFault
    e = (d.bc.faultCache i).toRawFault ∨
      (prevFetchAdaptiveShouldRun p d.rf.predictor = true ∧
        tableContains p.prevFetchMode d.rf.predictor e = true) := by
  have hidx : (fetchedState p gpu hal fetchMode d).1.faultIndex ≤ i := by
    rw [fetchedState_faultIndex, hnone]
    exact Nat.zero_le i
  rcases hdrops with hdrops | hmemo
  · obtain ⟨evs, hspec⟩ := fetchedState_spec p gpu hal fetchMode d
    exact .inl (hspec.slots (hspec.no_drop_of_window hdrops) i hidx)
  · exact (fetchLoop_leftover (show MemoSound _ (fetchStart d).predictor from hmemo) i hidx).imp_right
      And.right

/-! ## The invariant -/

/-- The table answers for the last batch, and the cached entries are those of the last batch. In the
modes on coalesced pages the table is behind between a fetch and its preprocessing. -/
structure GateInv (mode : PrevFetchMode) (s : GateState) : Prop where
  table : (mode.useCoalescedPages = true → s.pending = false) →
    s.d.rf.predictor.adaptiveActive = true → HitsWithin mode s.d.rf.predictor s.batch
  slots : ∀ i < s.d.bc.numCachedFaults,
    ∃ f ∈ s.batch, f.prevFetchKey = (s.d.bc.faultCache i).prevFetchKey

section Steps

variable {gpu : GpuConfig} {mode : PrevFetchMode} {s t : GateState}

theorem GateInv.frame (h : GateInv mode s) {d : Driver} (hf : FilterFrame s.d d) :
    GateInv mode { s with d := d } := by
  constructor
  · intro hpending hactive
    dsimp only at hactive ⊢
    rw [hf.predictor] at hactive ⊢
    exact h.table hpending hactive
  · intro i hi
    rw [show d.bc.numCachedFaults = s.d.bc.numCachedFaults from hf.numCached] at hi
    obtain ⟨f, hf', hkey⟩ := h.slots i hi
    exact ⟨f, hf', hkey.trans (prevFetchKey_of_filterView (hf.views i)).symm⟩

theorem GateState.fetch_slots (p : Params) (hal : Hal) (fetchMode : FetchMode) :
    ∀ i < (s.fetch gpu p hal fetchMode).d.bc.numCachedFaults,
      ∃ f ∈ (s.fetch gpu p hal fetchMode).batch,
        f.prevFetchKey = ((s.fetch gpu p hal fetchMode).d.bc.faultCache i).prevFetchKey := by
  intro i hi
  refine ⟨_, ?_, rfl⟩
  have hne : (s.fetch gpu p hal fetchMode).d.bc.numCachedFaults ≠ 0 := by omega
  have hbatch : (s.fetch gpu p hal fetchMode).batch =
      (s.fetch gpu p hal fetchMode).d.bc.firstEntries
        (s.fetch gpu p hal fetchMode).d.bc.numCachedFaults := if_neg hne
  rw [hbatch]
  exact List.mem_map_of_mem (List.mem_range.2 hi)

theorem GateState.fetch_numCached (p : Params) (hal : Hal) (fetchMode : FetchMode) :
    (s.fetch gpu p hal fetchMode).d.bc.numCachedFaults =
      (fetchWindow p gpu hal fetchMode s.d.rf).1 :=
  fetch_numCachedFaults p gpu hal fetchMode (resetCounters s.d)

theorem GateState.fetch_batch_of_none {p : Params} {hal : Hal} {fetchMode : FetchMode}
    (hnone : (fetchWindow p gpu hal fetchMode s.d.rf).1 = 0) :
    (s.fetch gpu p hal fetchMode).batch = s.batch :=
  if_pos ((GateState.fetch_numCached p hal fetchMode).trans hnone)

theorem belowLimit_of_window {p : Params} {hal : Hal} {fetchMode : FetchMode} {d : Driver}
    (hnone : (fetchWindow p gpu hal fetchMode d.rf).1 = 0) :
    BelowLimit (fetchCtx p gpu fetchMode d.rf (fetchPut d.rf hal))
      (fetchedState p gpu hal fetchMode d).1.faultIndex := by
  cases fetchMode with
  | all => exact .inl rfl
  | batchReady => exact belowLimit_of_empty ((fetchedState_faultIndex _ _ _ _ _).trans hnone)

section Fetch

variable {p : Params} {hal : Hal} {fetchMode : FetchMode}

theorem fetch_predictor_of_none (hpages : mode.useCoalescedPages = true) {d : Driver}
    (hnone : (fetchWindow (p.gated mode) gpu hal fetchMode d.rf).1 = 0) :
    ∃ last active cooldown, (active = true → d.rf.predictor.adaptiveActive = true) ∧
      (fetchFaultBufferEntries (p.gated mode) gpu hal fetchMode d).1.rf.predictor =
        { d.rf.predictor with
          last := last
          adaptiveActive := active
          adaptiveCooldownRemaining := cooldown } := by
  obtain ⟨evs, hspec⟩ := fetchedState_spec (p.gated mode) gpu hal fetchMode d
  obtain ⟨last, hlast⟩ := hspec.predictor
  have hlim := @belowLimit_of_window gpu (p.gated mode) hal fetchMode d hnone
  have hmode : (p.gated mode).prevFetchMode = mode := rfl
  obtain ⟨active, cooldown, heq⟩ := adaptiveUpdate_gate (p.gated mode)
    (fetchCtx (p.gated mode) gpu fetchMode d.rf (fetchPut d.rf hal))
    (fetchedState (p.gated mode) gpu hal fetchMode d).1.faultIndex
    (fetchedState (p.gated mode) gpu hal fetchMode d).1.bc.numPredFastSkipStale
    (fetchedState (p.gated mode) gpu hal fetchMode d).1.predictor
  refine ⟨last, active, cooldown, fun hactive => ?_, ?_⟩
  · have hrun := shouldRun_of_adaptiveUpdate hlim
      ((shouldRun_gated p mode _).trans ((congrArg Predictor.adaptiveActive heq).trans hactive))
    rw [hlast, shouldRun_gated] at hrun
    exact hrun
  · rw [fetchFaultBufferEntries_eq]
    simp only [fetchFinish, hmode, hpages, Bool.not_true, Bool.false_and, Bool.false_eq_true,
      if_false]
    rw [heq, hlast]
    rfl

theorem GateGuard.window_none (hpages : mode.useCoalescedPages = true)
    (hG : GateGuard gpu mode s (.fetch p hal fetchMode))
    (hstop : (s.fetch gpu (p.gated mode) hal fetchMode).pending = false) :
    (fetchWindow (p.gated mode) gpu hal fetchMode s.d.rf).1 = 0 := by
  simp only [GateGuard, hpages, if_true] at hG
  rcases hG with hnone | hparse
  · exact hnone
  -- the fetch succeeds, so that with a batch preprocessing would follow
  · have hok : (fetchedState (p.gated mode) gpu hal fetchMode (resetCounters s.d)).2 = .ok :=
      fetchLoop_ok hparse
    simp only [GateState.fetch, fetchFaultBufferEntries_eq, hok, decide_true, Bool.true_and,
      ne_eq, decide_not, Bool.not_eq_eq_eq_not, Bool.not_false, decide_eq_true_eq] at hstop
    exact (GateState.fetch_numCached _ hal fetchMode).symm.trans hstop

theorem GateInv.fetch_pages (hpages : mode.useCoalescedPages = true) (h : GateInv mode s)
    (hpending : s.pending = false) (hG : GateGuard gpu mode s (.fetch p hal fetchMode)) :
    GateInv mode (s.fetch gpu (p.gated mode) hal fetchMode) := by
  refine ⟨fun hnext hactive => ?_, GateState.fetch_slots _ _ _⟩
  have hnone := hG.window_none hpages (hnext hpages)
  obtain ⟨last, active, cooldown, hbefore, hpr⟩ :=
    fetch_predictor_of_none (d := resetCounters s.d) hpages hnone
  change (s.fetch gpu (p.gated mode) hal fetchMode).d.rf.predictor = _ at hpr
  rw [hpr] at hactive
  rw [GateState.fetch_batch_of_none hnone, hpr]
  exact h.table (fun _ => hpending) (hbefore hactive)

theorem GateInv.fetch_cache (hcache : mode.useCoalescedPages = false) (h : GateInv mode s)
    (hG : GateGuard gpu mode s (.fetch p hal fetchMode)) :
    GateInv mode (s.fetch gpu (p.gated mode) hal fetchMode) := by
  obtain rfl : mode = .fetchCache := by
    cases mode <;> first | rfl | cases hcache
  refine ⟨fun _ hactive e hhit => ?_, GateState.fetch_slots _ _ _⟩
  simp only [GateGuard, hcache, Bool.false_eq_true, if_false] at hG
  have hwithin := @fetch_tableWithin_cache (p.gated .fetchCache) gpu hal (resetCounters s.d)
    fetchMode rfl rfl ((shouldRun_gated _ _ _).trans hactive) e hhit
  obtain ⟨f, hf, hkey⟩ := hwithin
  obtain ⟨i, hi, rfl, -⟩ := mem_sourceEntries.1 hf
  change i < s.d.bc.numCachedFaults at hi
  rcases hG with hcount | ⟨hnone, hdrops⟩
  -- a slot that this fetch has filled
  · have hfilled : i < (s.fetch gpu (p.gated .fetchCache) hal fetchMode).d.bc.numCachedFaults :=
      Nat.lt_of_lt_of_le hi (hcount.trans (GateState.fetch_numCached _ hal fetchMode).ge)
    obtain ⟨g, hg, hgkey⟩ := GateState.fetch_slots _ _ _ i hfilled
    exact ⟨g, hg, hgkey.trans hkey⟩
  -- nothing was cached: a slot of the last batch, or an entry that the table had answered for
  · rw [GateState.fetch_batch_of_none hnone]
    rcases fetch_leftover (d := resetCounters s.d) hnone hdrops i with hsame | ⟨hran, htable⟩
    · obtain ⟨g, hg, hgkey⟩ := h.slots i hi
      rw [show s.d.bc.faultCache i = (resetCounters s.d).bc.faultCache i from rfl] at hgkey
      rw [← hsame] at hgkey
      exact ⟨g, hg, hgkey.trans hkey⟩
    · obtain ⟨g, hg, hgkey⟩ := h.table nofun ((shouldRun_gated _ _ _).symm.trans hran) _ htable
      exact ⟨g, hg, hgkey.trans hkey⟩

end Fetch

section Preprocess

variable {p : Params} {toVaSpace : RawFault → Translation} {a : PreprocessAnswer} {d : Driver}

theorem preprocess_predictor_of_inactive (h : d.rf.predictor.adaptiveActive = false) :
    (preprocessFaultBatch (p.gated mode) gpu toVaSpace a d).1.rf.predictor = d.rf.predictor := by
  rcases preprocessFaultBatch_frame (p.gated mode) gpu toVaSpace a d with ⟨hf, -⟩ | ⟨d', hf, heq⟩
  · exact hf.predictor
  · rw [heq]
    simp [rebuildFromOrdered, hf.predictor, h]

theorem preprocess_slots (p : Params) (toVaSpace : RawFault → Translation) (a : PreprocessAnswer)
    (d : Driver) :
    (preprocessFaultBatch p gpu toVaSpace a d).1.bc.numCachedFaults = d.bc.numCachedFaults ∧
      ∀ i, ((preprocessFaultBatch p gpu toVaSpace a d).1.bc.faultCache i).prevFetchKey =
        (d.bc.faultCache i).prevFetchKey := by
  rcases preprocessFaultBatch_frame p gpu toVaSpace a d with ⟨hf, -⟩ | ⟨d', hf, heq⟩
  · exact ⟨hf.numCached, fun i => prevFetchKey_of_filterView (hf.views i)⟩
  · rw [heq]
    simp only [rebuildFromOrdered_bc]
    exact ⟨hf.numCached, fun i => prevFetchKey_of_filterView (hf.views i)⟩

section

variable (hpages : mode.useCoalescedPages = true) (hactive : d.rf.predictor.adaptiveActive = true)
  (hreg : ∀ i < d.bc.numCachedFaults, (toVaSpace (d.bc.faultCache i).toRawFault).isVaSpace = true)
include hpages hactive hreg

theorem preprocess_rebuilds :
    ∃ cache, (∀ i, (cache i).prevFetchKey = (d.bc.faultCache i).prevFetchKey) ∧
      (preprocessFaultBatch (p.gated mode) gpu toVaSpace a d).1.rf.predictor =
        updatePrevFetchPredictor (p.gated mode)
          ⟨d.bc.numCachedFaults, d.bc.numCoalescedFaults, d.bc.numPredFastSkipStale⟩ []
          (orderBatch d.bc (instancePtrOrder d.bc) cache).orderedEntries d.rf.predictor := by
  obtain ⟨cache, hviews, heq⟩ := preprocessFaultBatch_registered (p.gated mode) gpu a hreg
  refine ⟨cache, fun i => prevFetchKey_of_filterView (hviews i), ?_⟩
  have hmode : (p.gated mode).prevFetchMode = mode := rfl
  simp only [heq, rebuildFromOrdered, hmode, hpages, shouldRun_gated, hactive, Bool.and_self, if_true]
  rfl

theorem hitsWithin_preprocess
    {batch : List FaultEntry} (hslots : ∀ i < d.bc.numCachedFaults,
      ∃ f ∈ batch, f.prevFetchKey = (d.bc.faultCache i).prevFetchKey) :
    HitsWithin mode (preprocessFaultBatch (p.gated mode) gpu toVaSpace a d).1.rf.predictor batch := by
  obtain ⟨cache, hkeys, heq⟩ := @preprocess_rebuilds gpu mode p toVaSpace a d hpages hactive hreg
  rw [heq]
  intro e hhit
  have hlists := (@tableContains_update_iff (p.gated mode) _ _ _ _ e rfl
    fun _ => ordered_orderBatch _ _ cache).1 hhit
  obtain ⟨f, hf, hsame⟩ := exists_sameKey_of_lists hlists
  have hmode : (p.gated mode).prevFetchMode = mode := rfl
  simp only [hmode, rebuildSource, hpages, if_true] at hf
  -- an ordered entry is a cached one
  obtain ⟨i, hi, rfl⟩ := List.mem_map.1 hf
  obtain ⟨g, hg, hkey⟩ := hslots i (mem_instancePtrOrder (mem_sortBy.1 hi))
  refine ⟨g, hg, ?_⟩
  rw [updatePrevFetchPredictor_tags_size]
  exact hsame.congr (hkey.trans (hkeys i).symm)

end

theorem GateInv.preprocess (h : GateInv mode s)
    (hG : GateGuard gpu mode s (.preprocess p toVaSpace a)) :
    GateInv mode { s with
      d := (preprocessFaultBatch (p.gated mode) gpu toVaSpace a s.d).1, pending := false } := by
  obtain ⟨hnum, hkeys⟩ := @preprocess_slots gpu (p.gated mode) toVaSpace a s.d
  constructor
  · intro _ hafter
    cases hpages : mode.useCoalescedPages with
    | false =>
      -- mode 0 has built its table already
      have hf := preprocess_frame_cache (p := p.gated mode) hpages gpu toVaSpace a s.d
      exact (h.frame hf).table (fun hp => by rw [hpages] at hp; cases hp) hafter
    | true =>
      cases hactive : s.d.rf.predictor.adaptiveActive with
      | true => exact hitsWithin_preprocess hpages hactive (hG hpages hactive) h.slots
      | false =>
        rw [preprocess_predictor_of_inactive hactive, hactive] at hafter
        cases hafter
  · intro i hi
    rw [show _ = s.d.bc.numCachedFaults from hnum] at hi
    obtain ⟨f, hf, hkey⟩ := h.slots i hi
    exact ⟨f, hf, hkey.trans (hkeys i).symm⟩

end Preprocess

theorem gateStep_inv {i : GateLabel} (h : GateInv mode s) (hG : GateGuard gpu mode s i)
    (hstep : gateStep gpu mode s i = some t) : GateInv mode t := by
  cases i with
  | fetch p hal fetchMode =>
    simp only [gateStep, Option.ite_none_left_eq_some, Option.some.injEq, Bool.not_eq_true] at hstep
    obtain ⟨hpending, rfl⟩ := hstep
    cases hpages : mode.useCoalescedPages with
    | true => exact h.fetch_pages hpages hpending hG
    | false => exact h.fetch_cache hpages hG
  | preprocess p toVaSpace a =>
    simp only [gateStep, Option.ite_none_right_eq_some, Option.some.injEq] at hstep
    obtain ⟨-, rfl⟩ := hstep
    exact h.preprocess hG
  | service serviceMode o =>
    simp only [gateStep, Option.ite_none_left_eq_some, Option.some.injEq] at hstep
    obtain ⟨-, rfl⟩ := hstep
    exact h.frame (applyService_frame gpu serviceMode o s.d)
  | flush flushMode type a =>
    simp only [gateStep, Option.ite_none_left_eq_some, Option.some.injEq] at hstep
    obtain ⟨-, rfl⟩ := hstep
    exact h.frame (faultBufferFlushLocked_frame gpu flushMode type a s.d)

theorem GateState.Fresh.inv (h : s.Fresh) : GateInv mode s := by
  obtain ⟨exactSize, tagSize, hexact, htag, hpr⟩ := h.predictor
  constructor
  · intro _ _ e hhit
    rw [hpr, tableContains_init] at hhit
    cases hhit
  · intro i hi
    rw [h.numCached] at hi
    exact absurd hi (Nat.not_lt_zero i)

/-- **Run lemma**: in a guarded run every hit is on a key of the last batch. -/
theorem gate_hits_last_batch {is : List GateLabel} (hfresh : s.Fresh)
    (hmeets : (gateMachine gpu mode).Meets (GateGuard gpu mode) s is)
    (hrun : (gateMachine gpu mode).run s is = some t) : NoOldHits mode t := by
  have hinv := (gateMachine gpu mode).run_invariant
    (fun _ _ _ h hG hstep => gateStep_inv h hG hstep) hfresh.inv hmeets hrun
  exact fun hpending => hinv.table fun _ => hpending

end Steps

end FaultMesh
