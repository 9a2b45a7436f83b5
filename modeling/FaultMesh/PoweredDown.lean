import FaultMesh.AdaptiveGate

/-!
# A filter that was powered down starts afresh

While the filter is down its table is not asked, and in a guarded run it is built again before it is
asked the next time. So a run in which the table is emptied at a moment when the filter is down
proceeds call by call as the original run, and whenever the filter is up both tables give the same
answers. The proof follows the two runs in lockstep; they differ in nothing but the tables.
-/

namespace FaultMesh

/-! ## Other tables -/

def Predictor.withTables (pr tables : Predictor) : Predictor :=
  { pr with keys := tables.keys, exact := tables.exact, tags := tables.tags }

def FetchState.withTables (st : FetchState) (tables : Predictor) : FetchState :=
  { st with predictor := st.predictor.withTables tables }

def Driver.withTables (d : Driver) (tables : Predictor) : Driver :=
  { d with rf := { d.rf with predictor := d.rf.predictor.withTables tables } }

def GateState.withTables (s : GateState) (tables : Predictor) : GateState :=
  { s with d := s.d.withTables tables }

/-- Tables of the same sizes with nothing in them. -/
def Predictor.emptied (pr : Predictor) : Predictor :=
  Predictor.init pr.exact.size pr.tags.size pr.exact.size_pos pr.tags.size_pos

theorem tableContains_withTables (mode : PrevFetchMode) (pr tables : Predictor) (e : RawFault) :
    tableContains mode (pr.withTables tables) e = tableContains mode tables e := by
  cases mode <;> rfl

/-! ## Fetching -/

section Fetch

variable {p : Params} {ctx : FetchCtx} {tables : Predictor}

theorem filterDrops_withTables {pr : Predictor}
    (h : ctx.filterActive = true → ∀ e,
      tableContains p.prevFetchMode tables e = tableContains p.prevFetchMode pr e)
    (e : FaultEntry) :
    filterDrops p ctx (pr.withTables tables) e =
      ((filterDrops p ctx pr e).1, (filterDrops p ctx pr e).2.withTables tables) := by
  unfold filterDrops
  split
  · rename_i hasked
    simp only [Bool.and_eq_true] at hasked
    have hsame : tableContains p.prevFetchMode (pr.withTables tables) e.toRawFault =
        tableContains p.prevFetchMode pr e.toRawFault :=
      (tableContains_withTables _ _ _ _).trans (h hasked.2 _)
    have hlast : (pr.withTables tables).last = pr.last := rfl
    unfold prevFetchKeysContains
    rw [hlast, hsame]
    rcases pr.last with _ | ⟨k, hit⟩
    · rfl
    · by_cases hk : prevFetchLastMatches k e.toRawFault = true
      · simp [hk]
      · simp only [hk]
        rfl
  · rfl

section

variable {st : FetchState}
  (h : ctx.filterActive = true → ∀ e,
    tableContains p.prevFetchMode tables e = tableContains p.prevFetchMode st.predictor e)
include h

theorem fetchEntry_withTables {maxFaults : Nat} {raw : RawFault} :
    fetchEntry p maxFaults ctx raw (st.withTables tables) =
      (fetchEntry p maxFaults ctx raw st).withTables tables := by
  have hparsed : (st.withTables tables).parsed raw = st.parsed raw := rfl
  have hpr : (st.withTables tables).predictor = st.predictor.withTables tables := rfl
  have hfilter := filterDrops_withTables h (st.parsed raw)
  rcases hf : filterDrops p ctx st.predictor (st.parsed raw) with ⟨_ | _, pr⟩
  all_goals
    rw [hf] at hfilter
    simp only [fetchEntry, hparsed, hpr, hfilter, hf]
    rfl

theorem fetchLoop_withTables {maxFaults : Nat} {hal : Hal} {fuel : Nat} :
    fetchLoop p maxFaults ctx hal fuel (st.withTables tables) =
      ((fetchLoop p maxFaults ctx hal fuel st).1.withTables tables,
        (fetchLoop p maxFaults ctx hal fuel st).2) := by
  induction fuel generalizing st with
  | zero => rfl
  | succ fuel ih =>
    have hget : (st.withTables tables).get = st.get := rfl
    have hidx : (st.withTables tables).faultIndex = st.faultIndex := rfl
    unfold fetchLoop
    rw [hget, hidx]
    split
    · rfl
    split
    · rfl
    dsimp only
    split
    · rfl
    rw [fetchEntry_withTables h]
    apply ih
    -- an iteration changes the memo only
    obtain ⟨l, hl⟩ := filterDrops_snd p ctx st.predictor (st.parsed (hal.parse st.get).2)
    rw [fetchEntry_predictor, hl]
    exact h

end

theorem adaptiveUpdate_withTables (p : Params) (ctx : FetchCtx) (idx n : Nat)
    (pr tables : Predictor) :
    adaptiveUpdate p ctx idx n (pr.withTables tables) =
      (adaptiveUpdate p ctx idx n pr).withTables tables := by
  unfold adaptiveUpdate Predictor.withTables
  dsimp only
  split_ifs <;> rfl

end Fetch

/-! ## Rebuilding -/

section Rebuild

variable {p : Params} {c : BatchCounts} {cached coalesced : List FaultEntry} {pr tables : Predictor}

theorem update_withTables :
    updatePrevFetchPredictor p c cached coalesced (pr.withTables tables) =
      (updatePrevFetchPredictor p c cached coalesced pr).withTables
        (updatePrevFetchPredictor p c cached coalesced (pr.withTables tables)) := by
  unfold updatePrevFetchPredictor
  split
  · rfl
  · cases p.prevFetchMode <;> rfl

theorem tableContains_update_withTables (hen : p.prevFetchPredictorEnable = true)
    (hordered : p.prevFetchMode = .coalescedBsearch → Ordered coalesced)
    (hexact : tables.exact.size = pr.exact.size) (htags : tables.tags.size = pr.tags.size)
    (e : RawFault) :
    tableContains p.prevFetchMode
        (updatePrevFetchPredictor p c cached coalesced (pr.withTables tables)) e =
      tableContains p.prevFetchMode (updatePrevFetchPredictor p c cached coalesced pr) e := by
  rw [Bool.eq_iff_iff, tableContains_update_iff hen hordered, tableContains_update_iff hen hordered]
  simp only [Predictor.withTables, hexact, htags]

end Rebuild

/-! ## Calls -/

section Calls

variable {gpu : GpuConfig} {mode : PrevFetchMode} {d : Driver} {tables : Predictor}

/-- The other tables have the sizes of those of the driver. -/
structure SameSizes (d : Driver) (tables : Predictor) : Prop where
  exact : tables.exact.size = d.rf.predictor.exact.size
  tags : tables.tags.size = d.rf.predictor.tags.size

/-- The other tables give the same answers. -/
def SameAnswers (mode : PrevFetchMode) (d : Driver) (tables : Predictor) : Prop :=
  ∀ e, tableContains mode tables e = tableContains mode d.rf.predictor e

theorem fetchedState_withTables {p : Params} {hal : Hal} {fetchMode : FetchMode}
    (h : prevFetchAdaptiveShouldRun p d.rf.predictor = true →
      SameAnswers p.prevFetchMode d tables) :
    fetchedState p gpu hal fetchMode (d.withTables tables) =
      ((fetchedState p gpu hal fetchMode d).1.withTables tables,
        (fetchedState p gpu hal fetchMode d).2) :=
  @fetchLoop_withTables p (fetchCtx p gpu fetchMode d.rf (fetchPut d.rf hal)) tables
    (fetchStart d) h _ _ _

/-- The two outcomes of a call agree up to the tables `tables'`. In the modes on coalesced pages a
fetch does not touch the tables; in mode 0 it rebuilds them if the filter goes on. -/
structure FetchAgrees (mode : PrevFetchMode) (tables : Predictor) (d d' : Driver)
    (tables' : Predictor) : Prop where
  eq : d' = d.withTables tables'
  sizes : SameSizes d tables'
  pages : mode.useCoalescedPages = true → tables' = tables
  cache : mode.useCoalescedPages = false → d.rf.predictor.adaptiveActive = true →
    SameAnswers mode d tables'

section

variable {p : Params} {ctx : FetchCtx} {st : FetchState} {pr : Predictor}
  (hpr : adaptiveUpdate p ctx st.faultIndex st.bc.numPredFastSkipStale st.predictor = pr)
include hpr

theorem fetchFinish_idle
    (h : (!p.prevFetchMode.useCoalescedPages && prevFetchAdaptiveShouldRun p pr) = false) :
    fetchFinish p ctx st =
      { rf := ⟨st.get, ctx.put, pr⟩
        bc := { st.bc with numCachedFaults := st.faultIndex, numCoalescedFaults := st.numCoalesced }
        log := st.log } := by
  simp [fetchFinish, hpr, h]

theorem fetchFinish_rebuild
    (h : (!p.prevFetchMode.useCoalescedPages && prevFetchAdaptiveShouldRun p pr) = true) :
    fetchFinish p ctx st =
      { rf := ⟨st.get, ctx.put, updatePrevFetchPredictor p
          ⟨st.bc.numCachedFaults, st.bc.numCoalescedFaults, st.bc.numPredFastSkipStale⟩
          (st.bc.firstEntries st.bc.numCachedFaults) [] pr⟩
        bc := { st.bc with numCachedFaults := st.faultIndex, numCoalescedFaults := st.numCoalesced }
        log := .rebuilt (st.bc.firstEntries st.faultIndex) :: st.log } := by
  simp [fetchFinish, hpr, h]

end

theorem fetchFinish_withTables {p : Params} {ctx : FetchCtx} {st : FetchState}
    (hexact : tables.exact.size = st.predictor.exact.size)
    (htags : tables.tags.size = st.predictor.tags.size) :
    ∃ tables', FetchAgrees mode tables (fetchFinish (p.gated mode) ctx st)
      (fetchFinish (p.gated mode) ctx (st.withTables tables)) tables' := by
  obtain ⟨pr, hpr, hexact, htags⟩ : ∃ pr, adaptiveUpdate (p.gated mode) ctx st.faultIndex
      st.bc.numPredFastSkipStale st.predictor = pr ∧ tables.exact.size = pr.exact.size ∧
        tables.tags.size = pr.tags.size := by
    obtain ⟨active, cooldown, heq⟩ := adaptiveUpdate_gate (p.gated mode) ctx st.faultIndex
      st.bc.numPredFastSkipStale st.predictor
    exact ⟨_, heq, hexact, htags⟩
  have hpr' : adaptiveUpdate (p.gated mode) ctx st.faultIndex st.bc.numPredFastSkipStale
      (st.predictor.withTables tables) = pr.withTables tables := by
    rw [adaptiveUpdate_withTables, hpr]
  cases hrebuild : !mode.useCoalescedPages && pr.adaptiveActive with
  | false =>
    rw [fetchFinish_idle hpr (by rwa [shouldRun_gated]),
      @fetchFinish_idle _ _ (st.withTables tables) _ hpr' (by rwa [shouldRun_gated])]
    refine ⟨tables, rfl, ⟨hexact, htags⟩, fun _ => rfl, fun hcache hactive => ?_⟩
    -- in mode 0 the filter is down
    change pr.adaptiveActive = true at hactive
    rw [hcache, hactive] at hrebuild
    cases hrebuild
  | true =>
    obtain ⟨hcache, -⟩ := Bool.and_eq_true_iff.1 hrebuild
    rw [fetchFinish_rebuild hpr (by rwa [shouldRun_gated]),
      @fetchFinish_rebuild _ _ (st.withTables tables) _ hpr' (by rwa [shouldRun_gated])]
    generalize hc : (⟨st.bc.numCachedFaults, st.bc.numCoalescedFaults,
      st.bc.numPredFastSkipStale⟩ : BatchCounts) = c
    generalize hcached : st.bc.firstEntries st.bc.numCachedFaults = cached
    have hsame : updatePrevFetchPredictor (p.gated mode) c cached [] (pr.withTables tables) =
      _ := update_withTables
    refine ⟨updatePrevFetchPredictor (p.gated mode) c cached [] (pr.withTables tables),
      ?_, ⟨?_, ?_⟩, fun hpages => ?_, fun _ _ => ?_⟩
    · subst hc hcached
      exact congrArg (fun q => Driver.mk ⟨st.get, ctx.put, q⟩ _ _) hsame
    · simpa [Predictor.withTables] using hexact
    · simpa [Predictor.withTables] using htags
    · rw [hpages] at hcache
      cases hcache
    · exact @tableContains_update_withTables (p.gated mode) c cached [] pr tables rfl
        (fun _ => List.Pairwise.nil) hexact htags

theorem fetch_withTables {p : Params} {hal : Hal} {fetchMode : FetchMode}
    (hsizes : SameSizes d tables)
    (h : d.rf.predictor.adaptiveActive = true → SameAnswers mode d tables) :
    (fetchFaultBufferEntries (p.gated mode) gpu hal fetchMode (d.withTables tables)).2 =
        (fetchFaultBufferEntries (p.gated mode) gpu hal fetchMode d).2 ∧
      ∃ tables', FetchAgrees mode tables
        (fetchFaultBufferEntries (p.gated mode) gpu hal fetchMode d).1
        (fetchFaultBufferEntries (p.gated mode) gpu hal fetchMode (d.withTables tables)).1
        tables' := by
  obtain ⟨evs, hspec⟩ := fetchedState_spec (p.gated mode) gpu hal fetchMode d
  obtain ⟨last, hlast⟩ := hspec.predictor
  have hloop := @fetchedState_withTables gpu d tables (p.gated mode) hal fetchMode fun hrun =>
    h ((shouldRun_gated p mode _).symm.trans hrun)
  rw [fetchFaultBufferEntries_eq, fetchFaultBufferEntries_eq, hloop]
  refine ⟨rfl, fetchFinish_withTables ?_ ?_⟩
  · rw [hlast]
    exact hsizes.exact
  · rw [hlast]
    exact hsizes.tags

theorem pushReplayOnGpu_withTables (type : ReplayType) (push : CallStatus) (d : Driver)
    (tables : Predictor) :
    pushReplayOnGpu type push (d.withTables tables) =
      ((pushReplayOnGpu type push d).1.withTables tables, (pushReplayOnGpu type push d).2) := by
  unfold pushReplayOnGpu
  split <;> rfl

theorem faultBufferFlushLocked_withTables (gpu : GpuConfig) (flushMode : FlushMode)
    (type : ReplayType) (a : FlushAnswer) (d : Driver) (tables : Predictor) :
    faultBufferFlushLocked gpu flushMode type a (d.withTables tables) =
      ((faultBufferFlushLocked gpu flushMode type a d).1.withTables tables,
        (faultBufferFlushLocked gpu flushMode type a d).2) := by
  unfold faultBufferFlushLocked
  split
  · rfl
  · split
    · rfl
    · exact pushReplayOnGpu_withTables type a.push (skipPending gpu { d with
        rf := { d.rf with
          cachedPut := if flushMode = .cachedPut then d.rf.cachedPut else a.readPut } }) tables

theorem restartAfterFailedTranslation_withTables (gpu : GpuConfig) (a : PreprocessAnswer)
    (failure : Translation) (d : Driver) (tables : Predictor) :
    (restartAfterFailedTranslation gpu a failure (d.withTables tables)).1 =
      (restartAfterFailedTranslation gpu a failure d).1.withTables tables := by
  unfold restartAfterFailedTranslation
  split
  · rfl
  · rw [faultBufferFlushLocked_withTables]
    rcases faultBufferFlushLocked gpu .updatePut .start a.flush d with ⟨d', _ | code⟩ <;> rfl

theorem rebuildFromOrdered_withTables {p : Params} (hordered : Ordered d.bc.orderedEntries)
    (hsizes : SameSizes d tables) :
    ∃ tables', rebuildFromOrdered (p.gated mode) (d.withTables tables) =
        (rebuildFromOrdered (p.gated mode) d).withTables tables' ∧
      SameSizes (rebuildFromOrdered (p.gated mode) d) tables' ∧
      (SameAnswers mode (rebuildFromOrdered (p.gated mode) d) tables' ∨
        tables' = tables ∧ (rebuildFromOrdered (p.gated mode) d).rf.predictor = d.rf.predictor ∧
          (mode.useCoalescedPages && d.rf.predictor.adaptiveActive) = false) := by
  have hmode : (p.gated mode).prevFetchMode = mode := rfl
  have hrun : (d.withTables tables).rf.predictor.adaptiveActive =
    d.rf.predictor.adaptiveActive := rfl
  unfold rebuildFromOrdered
  simp only [hmode, shouldRun_gated, hrun]
  cases hrebuild : mode.useCoalescedPages && d.rf.predictor.adaptiveActive with
  | false => exact ⟨tables, rfl, hsizes, .inr ⟨rfl, rfl, rfl⟩⟩
  | true =>
    simp only [if_true]
    generalize hc : (⟨d.bc.numCachedFaults, d.bc.numCoalescedFaults,
      d.bc.numPredFastSkipStale⟩ : BatchCounts) = c
    have hsame : updatePrevFetchPredictor (p.gated mode) c [] d.bc.orderedEntries
      (d.rf.predictor.withTables tables) = _ := update_withTables
    refine ⟨updatePrevFetchPredictor (p.gated mode) c [] d.bc.orderedEntries
      (d.rf.predictor.withTables tables), ?_, ⟨?_, ?_⟩, .inl ?_⟩
    · subst hc
      exact congrArg (fun q => Driver.mk ⟨d.rf.cachedGet, d.rf.cachedPut, q⟩ _ _) hsame
    · simpa [Predictor.withTables] using hsizes.exact
    · simpa [Predictor.withTables] using hsizes.tags
    · exact @tableContains_update_withTables (p.gated mode) c [] d.bc.orderedEntries
        d.rf.predictor tables rfl (fun _ => hordered) hsizes.exact hsizes.tags

theorem preprocess_withTables {p : Params} {toVaSpace : RawFault → Translation}
    {a : PreprocessAnswer} (hsizes : SameSizes d tables) :
    ∃ tables', (preprocessFaultBatch (p.gated mode) gpu toVaSpace a (d.withTables tables)).1 =
        (preprocessFaultBatch (p.gated mode) gpu toVaSpace a d).1.withTables tables' ∧
      SameSizes (preprocessFaultBatch (p.gated mode) gpu toVaSpace a d).1 tables' ∧
      (SameAnswers mode (preprocessFaultBatch (p.gated mode) gpu toVaSpace a d).1 tables' ∨
        tables' = tables ∧
          (preprocessFaultBatch (p.gated mode) gpu toVaSpace a d).1.rf.predictor =
            d.rf.predictor ∧
          ((translateEntries toVaSpace none (instancePtrOrder d.bc) d.bc.faultCache).2.isSome ∨
            (mode.useCoalescedPages && d.rf.predictor.adaptiveActive) = false)) := by
  have hbc : (d.withTables tables).bc = d.bc := rfl
  unfold preprocessFaultBatch
  dsimp only
  rw [hbc]
  rcases translateEntries toVaSpace none (instancePtrOrder d.bc) d.bc.faultCache with
    ⟨cache, _ | failure⟩
  -- every instance pointer was translated
  · obtain ⟨tables', heq, hsizes', hanswers⟩ := @rebuildFromOrdered_withTables mode
      { d with bc := orderBatch d.bc (instancePtrOrder d.bc) cache } tables p
      (ordered_orderBatch _ _ cache) ⟨hsizes.exact, hsizes.tags⟩
    refine ⟨tables', heq, hsizes', hanswers.imp_right ?_⟩
    rintro ⟨hsame, hpr, hoff⟩
    exact ⟨hsame, hpr, .inr hoff⟩
  -- the failure flushes the buffer
  · let failed : Driver := { d with bc := { d.bc with
      faultCache := cache, orderedFaultCache := instancePtrOrder d.bc } }
    have hf := restartAfterFailedTranslation_frame gpu a failure failed
    refine ⟨tables, restartAfterFailedTranslation_withTables gpu a failure failed tables, ?_,
      .inr ⟨rfl, hf.predictor, .inl rfl⟩⟩
    constructor
    · exact hsizes.exact.trans (congrArg (fun pr => pr.exact.size) hf.predictor).symm
    · exact hsizes.tags.trans (congrArg (fun pr => pr.tags.size) hf.predictor).symm

end Calls

/-! ## Lockstep -/

/-- The tables can stand in for those of the state: they have the same sizes and, whenever a fetch
would ask them, give the same answers. -/
structure StandsIn (mode : PrevFetchMode) (s : GateState) (tables : Predictor) : Prop where
  sizes : SameSizes s.d tables
  answers : (mode.useCoalescedPages = true → s.pending = false) →
    s.d.rf.predictor.adaptiveActive = true → SameAnswers mode s.d tables

section Lockstep

variable {gpu : GpuConfig} {mode : PrevFetchMode} {s t : GateState} {tables : Predictor}

section

variable (h : StandsIn mode s tables)
include h

theorem StandsIn.frame {d : Driver} (hpr : d.rf.predictor = s.d.rf.predictor) :
    StandsIn mode { s with d := d } tables := by
  constructor
  · exact ⟨h.sizes.exact.trans (by rw [hpr]), h.sizes.tags.trans (by rw [hpr])⟩
  · intro hpending hactive
    dsimp only [SameAnswers] at hactive ⊢
    rw [hpr] at hactive ⊢
    exact h.answers hpending hactive

theorem StandsIn.fetch {p : Params} {hal : Hal} {fetchMode : FetchMode} (hpending : s.pending = false)
    (hG : GateGuard gpu mode s (.fetch p hal fetchMode)) :
    ∃ tables', (s.withTables tables).fetch gpu (p.gated mode) hal fetchMode =
        (s.fetch gpu (p.gated mode) hal fetchMode).withTables tables' ∧
      StandsIn mode (s.fetch gpu (p.gated mode) hal fetchMode) tables' := by
  obtain ⟨hstatus, tables', hagrees⟩ := @fetch_withTables gpu mode (resetCounters s.d) tables p hal
    fetchMode ⟨h.sizes.exact, h.sizes.tags⟩ (h.answers fun _ => hpending)
  refine ⟨tables', ?_, hagrees.sizes, fun hnext hactive => ?_⟩
  · have hd := hagrees.eq
    change (fetchFaultBufferEntries (p.gated mode) gpu hal fetchMode
      (resetCounters (s.withTables tables).d)).1 = _ at hd
    change (fetchFaultBufferEntries (p.gated mode) gpu hal fetchMode
      (resetCounters (s.withTables tables).d)).2 = _ at hstatus
    simp only [GateState.fetch, hd, hstatus]
    rfl
  · cases hpages : mode.useCoalescedPages with
    | false => exact hagrees.cache hpages hactive
    | true =>
      -- nothing was cached, so that the filter was up before and the tables are the old ones
      have hnone := hG.window_none hpages (hnext hpages)
      obtain ⟨last, active, cooldown, hbefore, hpr⟩ :=
        fetch_predictor_of_none (d := resetCounters s.d) hpages hnone
      change (s.fetch gpu (p.gated mode) hal fetchMode).d.rf.predictor = _ at hpr
      rw [hagrees.pages hpages]
      rw [hpr] at hactive
      intro e
      rw [hpr]
      exact h.answers (fun _ => hpending) (hbefore hactive) e

theorem StandsIn.preprocess {p : Params} {toVaSpace : RawFault → Translation} {a : PreprocessAnswer}
    (hG : GateGuard gpu mode s (.preprocess p toVaSpace a)) :
    ∃ tables', (preprocessFaultBatch (p.gated mode) gpu toVaSpace a (s.d.withTables tables)).1 =
        (preprocessFaultBatch (p.gated mode) gpu toVaSpace a s.d).1.withTables tables' ∧
      StandsIn mode { s with
        d := (preprocessFaultBatch (p.gated mode) gpu toVaSpace a s.d).1, pending := false }
        tables' := by
  obtain ⟨tables', heq, hsizes, hanswers⟩ :=
    @preprocess_withTables gpu mode s.d tables p toVaSpace a h.sizes
  refine ⟨tables', heq, hsizes, fun _ hactive => ?_⟩
  rcases hanswers with hanswers | ⟨rfl, hpr, hwhy⟩
  · exact hanswers
  · change (preprocessFaultBatch (p.gated mode) gpu toVaSpace a s.d).1.rf.predictor.adaptiveActive =
      true at hactive
    rw [hpr] at hactive
    cases hpages : mode.useCoalescedPages with
    | true =>
      -- with the filter up every channel is registered, and the table is rebuilt
      rw [hpages, hactive] at hwhy
      rcases hwhy with hfailed | hoff
      · rw [translateEntries_ok] at hfailed
        · cases hfailed
        · exact fun i hi => Translation.exists_of_isVaSpace
            (hG hpages hactive i (mem_instancePtrOrder hi))
      · cases hoff
    | false =>
      have hsame := h.answers (fun hp => absurd (hpages.symm.trans hp) Bool.false_ne_true) hactive
      intro e
      dsimp only
      rw [hpr]
      exact hsame e

/-- **Step lemma**: a guarded call takes both states to states that agree again. -/
theorem gateStep_withTables {i : GateLabel}
    (hG : GateGuard gpu mode s i) (hstep : gateStep gpu mode s i = some t) :
    ∃ tables', gateStep gpu mode (s.withTables tables) i = some (t.withTables tables') ∧
      StandsIn mode t tables' := by
  have hpend : (s.withTables tables).pending = s.pending := rfl
  cases i with
  | fetch p hal fetchMode =>
    simp only [gateStep, Option.ite_none_left_eq_some, Option.some.injEq, Bool.not_eq_true] at hstep
    obtain ⟨hpending, rfl⟩ := hstep
    obtain ⟨tables', heq, hstands⟩ := h.fetch hpending hG
    refine ⟨tables', ?_, hstands⟩
    simp only [gateStep, hpend, hpending, Bool.false_eq_true, if_false, heq]
  | preprocess p toVaSpace a =>
    simp only [gateStep, Option.ite_none_right_eq_some, Option.some.injEq] at hstep
    obtain ⟨hpending, rfl⟩ := hstep
    obtain ⟨tables', heq, hstands⟩ := h.preprocess hG
    refine ⟨tables', ?_, hstands⟩
    simp only [gateStep, hpend, hpending, if_true]
    exact congrArg (fun d => some (GateState.mk d false s.batch)) heq
  -- servicing and flushing do not see the tables
  | service serviceMode o =>
    simp only [gateStep, Option.ite_none_left_eq_some, Option.some.injEq, Bool.not_eq_true] at hstep
    obtain ⟨hpending, rfl⟩ := hstep
    refine ⟨tables, ?_, h.frame rfl⟩
    simp only [gateStep, hpend, hpending, Bool.false_eq_true, if_false]
    rfl
  | flush flushMode type a =>
    simp only [gateStep, Option.ite_none_left_eq_some, Option.some.injEq, Bool.not_eq_true] at hstep
    obtain ⟨hpending, rfl⟩ := hstep
    refine ⟨tables, ?_, h.frame (faultBufferFlushLocked_frame gpu flushMode type a s.d).predictor⟩
    simp only [gateStep, hpend, hpending, Bool.false_eq_true, if_false]
    have heq := faultBufferFlushLocked_withTables gpu flushMode type a s.d tables
    exact congrArg (fun r => some (GateState.mk (Prod.fst r) false s.batch)) heq

end

/-- **Run lemma**: emptying the tables of a filter that is down makes no difference. -/
theorem powered_down_run {is : List GateLabel}
    (hdown : s.d.rf.predictor.adaptiveActive = false)
    (hmeets : (gateMachine gpu mode).Meets (GateGuard gpu mode) s is)
    (hrun : (gateMachine gpu mode).run s is = some t) :
    ∃ tables, (gateMachine gpu mode).run (s.withTables s.d.rf.predictor.emptied) is =
        some (t.withTables tables) ∧ StandsIn mode t tables := by
  -- with the filter down no answer is asked for
  have hstart : StandsIn mode s s.d.rf.predictor.emptied := by
    refine ⟨⟨rfl, rfl⟩, fun _ hactive => ?_⟩
    rw [hdown] at hactive
    cases hactive
  have hstep : ∀ u u' i v, (∃ tables, u' = u.withTables tables ∧ StandsIn mode u tables) →
      GateGuard gpu mode u i → (gateMachine gpu mode).step u i = some v →
        ∃ v', (gateMachine gpu mode).step u' i = some v' ∧
          ∃ tables, v' = v.withTables tables ∧ StandsIn mode v tables := by
    rintro u u' i v ⟨tables, rfl, h⟩ hG hv
    obtain ⟨tables', heq, hstands⟩ := gateStep_withTables h hG hv
    exact ⟨_, heq, tables', rfl, hstands⟩
  obtain ⟨t', ht', tables, rfl, hstands⟩ :=
    (gateMachine gpu mode).run_simulation (gateMachine gpu mode) hstep ⟨_, rfl, hstart⟩ hmeets hrun
  exact ⟨tables, ht', hstands⟩

end Lockstep

/-- **Adaptive gating never revives old keys** in a run whose calls keep the table in step: whenever a
fetch begins with the filter up, every hit of the table is on a key of the last batch that was not
empty. And from a state with the filter down the run goes on as from empty tables: with the same
states up to the tables, and the same answers whenever a fetch begins with the filter up. -/
theorem gating_never_revives (gpu : GpuConfig) (mode : PrevFetchMode) (s t : GateState)
    (is : List GateLabel) (hfresh : s.Fresh)
    (hmeets : (gateMachine gpu mode).Meets (GateGuard gpu mode) s is)
    (hrun : (gateMachine gpu mode).run s is = some t) :
    NoOldHits mode t ∧
      ∀ later u, t.d.rf.predictor.adaptiveActive = false →
        (gateMachine gpu mode).Meets (GateGuard gpu mode) t later →
        (gateMachine gpu mode).run t later = some u →
          ∃ tables, (gateMachine gpu mode).run (t.withTables t.d.rf.predictor.emptied) later =
              some (u.withTables tables) ∧
            (u.pending = false → u.d.rf.predictor.adaptiveActive = true →
              SameAnswers mode u.d tables) := by
  refine ⟨gate_hits_last_batch hfresh hmeets hrun, ?_⟩
  intro later u hdown hlater hrest
  obtain ⟨tables, heq, hstands⟩ := powered_down_run hdown hlater hrest
  exact ⟨tables, heq, fun hnext => hstands.answers fun _ => hnext⟩

/-! ## Concrete runs -/

/-- A GPU whose batches hold one fault, so that every batch hits the fetch limit. -/
def oneFaultGpu : GpuConfig := { maxFaults := 8, maxBatchSize := 1 }

/-- The filter is powered down by the first batch without a signal. -/
def shortCooldown : Params := { predSkipEnable := true, predAdaptiveCooldown := 1 }

/-- A fetch from a ring with faults on two pages. -/
def GateLabel.fetchUpTo (put : Nat) : GateLabel :=
  .fetch shortCooldown (ringOf [0x1000, 0x2000] put) .batchReady

/-- Preprocessing with the given registration of all channels. -/
def GateLabel.preprocessAs (tr : Translation) : GateLabel :=
  .preprocess shortCooldown (fun _ => tr) {}

def freshGate : GateState := { d := freshState.d }

theorem freshGate_fresh : freshGate.Fresh := ⟨⟨64, 64, by decide, by decide, rfl⟩, rfl, rfl⟩

/-- In mode 2 a batch is built, a fetch without faults powers the filter down, and a second batch
powers it up again and is built in turn. -/
theorem reactivated_filter_forgets :
    ∃ t, (gateMachine oneFaultGpu .hashExact).run freshGate
        [.fetchUpTo 1, .preprocessAs (.vaSpace 1), .fetchUpTo 1, .fetchUpTo 2,
          .preprocessAs (.vaSpace 1)] = some t ∧
      t.d.rf.predictor.adaptiveActive = true ∧ NoOldHits .hashExact t := by
  obtain ⟨t, hrun, hactive⟩ : ∃ t, (gateMachine oneFaultGpu .hashExact).run freshGate
      [.fetchUpTo 1, .preprocessAs (.vaSpace 1), .fetchUpTo 1, .fetchUpTo 2,
        .preprocessAs (.vaSpace 1)] = some t ∧ t.d.rf.predictor.adaptiveActive = true :=
    ⟨_, rfl, by decide +kernel⟩
  exact ⟨t, hrun, hactive,
    (gating_never_revives oneFaultGpu .hashExact freshGate t _ freshGate_fresh
      (by decide +kernel) hrun).1⟩

/-- The same run, except that the channel of the second batch is gone: the filter is up again with
the table of the first batch. -/
theorem reactivation_revives_old_key :
    ((gateMachine oneFaultGpu .hashExact).run freshGate
      [.fetchUpTo 1, .preprocessAs (.vaSpace 1), .fetchUpTo 1, .fetchUpTo 2,
        .preprocessAs .invalidChannel]).map (fun s =>
          (s.pending, s.d.rf.predictor.adaptiveActive,
            tableContains .hashExact s.d.rf.predictor { faultAddress := 0x1000 },
            s.batch.map fun f => f.faultAddress)) =
      some (false, true, true, [0x2000]) := by
  decide +kernel

end FaultMesh
