import FaultMesh.PredictorHistory

/-!
# What mode 0 remembers of a fetch

In mode 0 the table is rebuilt inside `fetch_fault_buffer_entries`, from the cache slots the fetch
has just filled. How many slots are read is taken from `num_cached_faults`, which the function
assigns only afterwards: the rebuild reads as many slots as the previous fetch had filled. So the
key array records the fetch it follows when two fetches in a row cache equally many entries. After
the first fetch it is empty.
-/

namespace FaultMesh

/-- The key of an entry that the last fetch cached and did not merge into another one. -/
def FetchedKey (d : Driver) (k : PrevFetchKey) : Prop :=
  ∃ i < d.bc.numCachedFaults,
    (d.bc.faultCache i).filtered = false ∧ (d.bc.faultCache i).prevFetchKey = k

/-- The key array holds the keys of the last fetch, in order and each once, and the binary search
finds just these. -/
structure RecordsFetch (d : Driver) : Prop where
  ascending : Ascending (cmpPrevFetchKey .fetchCache) d.rf.predictor.keys
  mem_iff : ∀ k, k ∈ d.rf.predictor.keys ↔ FetchedKey d k
  hit_iff : ∀ e, tableContains .fetchCache d.rf.predictor e = true ↔ FetchedKey d e.prevFetchKey

/-- The first slots of the cache hold faults of their own, with different keys. -/
def DistinctSlots (d : Driver) (n : Nat) : Prop :=
  (∀ i < n, (d.bc.faultCache i).filtered = false) ∧
    ∀ i j, i < n → j < n →
      (d.bc.faultCache i).prevFetchKey = (d.bc.faultCache j).prevFetchKey → i = j

section Guard

variable (p : Params) (gpu : GpuConfig) (hal : Hal) (mode : FetchMode) (d : Driver)

/-- The adaptive gate will leave the filter on at the end of the fetch. -/
def RunsAfter : Prop :=
  let window := fetchWindow p gpu hal mode d.rf
  prevFetchAdaptiveShouldRun p (adaptiveUpdate p (fetchCtx p gpu mode d.rf (fetchPut d.rf hal))
    window.1 (d.bc.numPredFastSkipStale + window.2) d.rf.predictor) = true

instance : Decidable (RunsAfter p gpu hal mode d) := inferInstanceAs (Decidable (_ = _))

/-- The fetch will cache as many entries as the previous one did, and the predictor is on and not
powered down at the end of the fetch. -/
def RecordGuard : Prop :=
  d.bc.numCachedFaults = (fetchWindow p gpu hal mode d.rf).1 ∧ p.prevFetchPredictorEnable = true ∧
    RunsAfter p gpu hal mode d

instance : Decidable (RecordGuard p gpu hal mode d) := inferInstanceAs (Decidable (_ ∧ _ ∧ _))

end Guard

/-! ## Sorted keys -/

theorem recordsFetch_iff {d : Driver}
    (hasc : Ascending (cmpPrevFetchKey .fetchCache) d.rf.predictor.keys) :
    RecordsFetch d ↔ ∀ k, k ∈ d.rf.predictor.keys ↔ FetchedKey d k := by
  constructor
  · exact RecordsFetch.mem_iff
  · intro hmem
    refine ⟨hasc, hmem, fun e => ?_⟩
    simp only [tableContains, binarySearch_iff hasc, cmpPrevFetchKey_fetchCache_eq_iff,
      exists_eq_right']
    exact hmem e.prevFetchKey

theorem RecordsFetch.frame {d d' : Driver} (h : RecordsFetch d) (hf : FilterFrame d d') :
    RecordsFetch d' := by
  have hkeys : ∀ k, FetchedKey d' k ↔ FetchedKey d k := by
    intro k
    have hviews : ∀ i, (d'.bc.faultCache i).filtered = (d.bc.faultCache i).filtered ∧
        (d'.bc.faultCache i).prevFetchKey = (d.bc.faultCache i).prevFetchKey := by
      intro i
      have hview := hf.views i
      simp only [FaultEntry.filterView, Prod.mk.injEq] at hview
      exact ⟨hview.2.1, by rw [hview.1]⟩
    simp only [FetchedKey, hf.numCached, hviews]
  constructor
  · rw [hf.predictor]
    exact h.ascending
  · intro k
    rw [hf.predictor, hkeys]
    exact h.mem_iff k
  · intro e
    rw [hf.predictor, hkeys]
    exact h.hit_iff e

theorem preprocess_frame_cache {p : Params} (hcache : p.prevFetchMode.useCoalescedPages = false)
    (gpu : GpuConfig) (toVaSpace : RawFault → Translation) (a : PreprocessAnswer) (d : Driver) :
    FilterFrame d (preprocessFaultBatch p gpu toVaSpace a d).1 := by
  rcases preprocessFaultBatch_frame p gpu toVaSpace a d with ⟨hf, -⟩ | ⟨d', hf, heq⟩
  · exact hf
  · rw [heq]
    simpa [rebuildFromOrdered, hcache] using hf

/-! ## The loop -/

section Loop

variable {p : Params} {maxFaults : Nat} {ctx : FetchCtx} {hal : Hal}

theorem keepEntry_unfiltered {bc : BatchContext} {i : Nat}
    (hnew : (bc.faultCache i).filtered = false)
    (hbefore : 0 < i → ∃ j < i, (bc.faultCache j).filtered = false) :
    ∃ j < i + 1, ((keepEntry ctx bc i).1.faultCache j).filtered = false := by
  unfold keepEntry
  dsimp only
  split
  · next bc' hm =>
      split_ifs at hm with hc
      all_goals
        simp only [Bool.and_eq_true, decide_eq_true_eq] at hc
        obtain ⟨j, hj, hfree⟩ := hbefore hc.1.1
        obtain ⟨last, utlbs, rfl⟩ := tryMergeEntry_eq hm
        simp only [mergeEntry]
        split
        -- the new entry is the more intrusive one and takes over
        · exact ⟨i, Nat.lt_succ_self i, by simpa using hnew⟩
        · refine ⟨j, Nat.lt_succ_of_lt hj, ?_⟩
          rw [Function.update_of_ne (Nat.ne_of_lt hj)]
          by_cases hlast : j = last
          · subst hlast
            simpa using hfree
          · rwa [Function.update_of_ne hlast]
  · exact ⟨i, Nat.lt_succ_self i, by simpa [cacheNewFault] using hnew⟩

theorem fetchLoop_unfiltered (fuel : Nat) {st : FetchState} (hidx : st.faultIndex = 0) :
    0 < (fetchLoop p maxFaults ctx hal fuel st).1.faultIndex →
      ∃ j < (fetchLoop p maxFaults ctx hal fuel st).1.faultIndex,
        ((fetchLoop p maxFaults ctx hal fuel st).1.bc.faultCache j).filtered = false := by
  apply fetchLoop_invariant (I := fun t => 0 < t.faultIndex →
    ∃ j < t.faultIndex, (t.bc.faultCache j).filtered = false)
  · intro t ht _ _ _ hpos
    have hstored : ∀ j < t.faultIndex, (t.bc.faultCache j).filtered = false →
        ((storeParsed t.bc t.faultIndex (hal.parse t.get).2).faultCache j).filtered = false := by
      intro j hj hfree
      rw [show (storeParsed t.bc t.faultIndex (hal.parse t.get).2).faultCache j = t.bc.faultCache j
        from Function.update_of_ne (Nat.ne_of_lt hj) _ _]
      exact hfree
    rw [fetchEntry_faultIndex] at hpos ⊢
    rw [fetchEntry_bc]
    split
    -- dropped: the slots below the next free one are as before
    · rename_i hdrop
      rw [if_pos hdrop] at hpos
      obtain ⟨j, hj, hfree⟩ := ht hpos
      exact ⟨j, hj, hstored j hj hfree⟩
    · apply keepEntry_unfiltered
      · simp [storeParsed, parsedEntry]
      · intro hpos
        obtain ⟨j, hj, hfree⟩ := ht hpos
        exact ⟨j, hj, hstored j hj hfree⟩
  · intro hpos
    omega

end Loop

/-! ## The call -/

theorem shouldRun_adaptiveUpdate_last (p : Params) (ctx : FetchCtx) (idx n : Nat) (pr : Predictor)
    (last : Option (PrevFetchKey × Bool)) :
    prevFetchAdaptiveShouldRun p (adaptiveUpdate p ctx idx n { pr with last := last }) =
      prevFetchAdaptiveShouldRun p (adaptiveUpdate p ctx idx n pr) := by
  unfold adaptiveUpdate
  split_ifs <;> rfl

section Call

variable (p : Params) (gpu : GpuConfig) (hal : Hal) (mode : FetchMode) (d : Driver)

theorem fetch_numCachedFaults :
    (fetchFaultBufferEntries p gpu hal mode d).1.bc.numCachedFaults =
      (fetchWindow p gpu hal mode d.rf).1 :=
  fetchedState_faultIndex p gpu hal mode d

theorem runsAfter_iff :
    RunsAfter p gpu hal mode d ↔
      prevFetchAdaptiveShouldRun p (adaptiveUpdate p
        (fetchCtx p gpu mode d.rf (fetchPut d.rf hal)) (fetchedState p gpu hal mode d).1.faultIndex
        (fetchedState p gpu hal mode d).1.bc.numPredFastSkipStale
        (fetchedState p gpu hal mode d).1.predictor) = true := by
  obtain ⟨evs, hspec⟩ := fetchedState_spec p gpu hal mode d
  obtain ⟨last, hlast⟩ := hspec.predictor
  have hskipped : (fetchedState p gpu hal mode d).1.bc.numPredFastSkipStale =
      d.bc.numPredFastSkipStale + (fetchWindow p gpu hal mode d.rf).2 :=
    (fetchLoop_windowCounts _ _ _ _ _ _).2.1
  rw [hlast, shouldRun_adaptiveUpdate_last, fetchedState_faultIndex, hskipped]
  rfl

variable {p}

section

variable (hcache : p.prevFetchMode = .fetchCache)
include hcache

theorem fetch_keys :
    (fetchFaultBufferEntries p gpu hal mode d).1.rf.predictor.keys = d.rf.predictor.keys ∧
        ¬ RunsAfter p gpu hal mode d ∨
      (fetchFaultBufferEntries p gpu hal mode d).1.rf.predictor.keys =
        if p.prevFetchPredictorEnable then
          uniqueAdjacent (cmpPrevFetchKey .fetchCache) (sortBy (cmpPrevFetchKey .fetchCache)
            (((fetchedState p gpu hal mode d).1.bc.sourceEntries d.bc.numCachedFaults).map
              fun e => e.prevFetchKey))
        else [] := by
  obtain ⟨evs, hspec⟩ := fetchedState_spec p gpu hal mode d
  obtain ⟨last, hlast⟩ := hspec.predictor
  have hnum : (fetchedState p gpu hal mode d).1.bc.numCachedFaults = d.bc.numCachedFaults :=
    hspec.numCached
  rw [runsAfter_iff, fetchFaultBufferEntries_eq]
  generalize (fetchedState p gpu hal mode d).1 = st at hlast hnum ⊢
  simp only [fetchFinish, hcache, PrevFetchMode.useCoalescedPages, Bool.not_false, Bool.true_and]
  split
  · right
    rw [hnum]
    simp only [updatePrevFetchPredictor, hcache]
    cases p.prevFetchPredictorEnable <;> rfl
  · rename_i hoff
    left
    obtain ⟨active, cooldown, heq⟩ := adaptiveUpdate_gate p
      (fetchCtx p gpu mode d.rf (fetchPut d.rf hal)) st.faultIndex st.bc.numPredFastSkipStale
      st.predictor
    refine ⟨?_, hoff⟩
    rw [heq, hlast]
    rfl

theorem mem_fetch_keys
    (hen : p.prevFetchPredictorEnable = true) (hruns : RunsAfter p gpu hal mode d) :
    Ascending (cmpPrevFetchKey .fetchCache)
        (fetchFaultBufferEntries p gpu hal mode d).1.rf.predictor.keys ∧
      ∀ k, k ∈ (fetchFaultBufferEntries p gpu hal mode d).1.rf.predictor.keys ↔
        ∃ e ∈ (fetchFaultBufferEntries p gpu hal mode d).1.bc.sourceEntries d.bc.numCachedFaults,
          e.prevFetchKey = k := by
  rcases fetch_keys gpu hal mode d hcache with ⟨-, hoff⟩ | hkeys
  · exact absurd hruns hoff
  · rw [hkeys, if_pos hen]
    refine ⟨ascending_unique_sortBy .fetchCache _, fun k => ?_⟩
    rw [mem_fetchCache_iff]
    exact List.mem_map

theorem recordsFetch_of_guard (hG : RecordGuard p gpu hal mode d) :
    RecordsFetch (fetchFaultBufferEntries p gpu hal mode d).1 := by
  obtain ⟨hcount, hen, hruns⟩ := hG
  obtain ⟨hasc, hmem⟩ := mem_fetch_keys gpu hal mode d hcache hen hruns
  obtain ⟨evs, hspec⟩ := fetchedState_spec p gpu hal mode d
  have hsame : d.bc.numCachedFaults =
      (fetchFaultBufferEntries p gpu hal mode d).1.bc.numCachedFaults :=
    hcount.trans (fetch_numCachedFaults p gpu hal mode d).symm
  rw [recordsFetch_iff hasc]
  intro k
  rw [hmem, hsame]
  constructor
  · rintro ⟨e, he, rfl⟩
    obtain ⟨i, hi, rfl, hsource⟩ := mem_sourceEntries.1 he
    -- what this fetch has parsed carries no skip mark
    have hskip : ((fetchFaultBufferEntries p gpu hal mode d).1.bc.faultCache i).predFetchSkip = false :=
      hspec.noSkip i (Nat.zero_le i) hi
    rw [hskip] at hsource
    exact ⟨i, hi, by simpa using hsource, rfl⟩
  · rintro ⟨i, hi, hfree, rfl⟩
    exact ⟨_, mem_sourceEntries.2 ⟨i, hi, rfl, by simp [hfree]⟩, rfl⟩

theorem recordsFetch_first_iff
    (hnone : d.bc.numCachedFaults = 0) (hkeys : d.rf.predictor.keys = []) :
    RecordsFetch (fetchFaultBufferEntries p gpu hal mode d).1 ↔
      (fetchWindow p gpu hal mode d.rf).1 = 0 := by
  have hempty : (fetchFaultBufferEntries p gpu hal mode d).1.rf.predictor.keys = [] := by
    rcases fetch_keys gpu hal mode d hcache with ⟨hsame, -⟩ | hrebuilt
    · rw [hsame, hkeys]
    · rw [hrebuilt, hnone]
      cases p.prevFetchPredictorEnable <;> rfl
  rw [recordsFetch_iff (hempty ▸ List.Pairwise.nil), hempty]
  constructor
  · intro h
    by_contra hpos
    rw [← fetchedState_faultIndex] at hpos
    obtain ⟨j, hj, hfree⟩ := @fetchLoop_unfiltered p gpu.maxFaults _ hal _ (fetchStart d) rfl
      (Nat.pos_of_ne_zero hpos)
    exact List.not_mem_nil ((h _).2 ⟨j, hj, hfree, rfl⟩)
  · intro hzero k
    refine iff_of_false List.not_mem_nil ?_
    rintro ⟨i, hi, -⟩
    rw [fetch_numCachedFaults, hzero] at hi
    exact Nat.not_lt_zero i hi

theorem numCachedFaults_of_recordsFetch
    (hen : p.prevFetchPredictorEnable = true) (hruns : RunsAfter p gpu hal mode d)
    (hdistinct : DistinctSlots (fetchFaultBufferEntries p gpu hal mode d).1
      (max d.bc.numCachedFaults (fetchWindow p gpu hal mode d.rf).1))
    (h : RecordsFetch (fetchFaultBufferEntries p gpu hal mode d).1) :
    d.bc.numCachedFaults = (fetchWindow p gpu hal mode d.rf).1 := by
  obtain ⟨-, hmem⟩ := mem_fetch_keys gpu hal mode d hcache hen hruns
  obtain ⟨hfree, hkeys⟩ := hdistinct
  rcases Nat.lt_trichotomy d.bc.numCachedFaults (fetchWindow p gpu hal mode d.rf).1 with
    hlt | heq | hlt
  -- the first slot that is not read holds a key of the fetch
  · have hslot : d.bc.numCachedFaults < max d.bc.numCachedFaults (fetchWindow p gpu hal mode d.rf).1 :=
      Nat.lt_of_lt_of_le hlt (Nat.le_max_right _ _)
    have hfetched := (h.mem_iff _).2
      ⟨d.bc.numCachedFaults, (fetch_numCachedFaults p gpu hal mode d).symm ▸ hlt, hfree _ hslot, rfl⟩
    obtain ⟨e, he, hkey⟩ := (hmem _).1 hfetched
    obtain ⟨i, hi, rfl, -⟩ := mem_sourceEntries.1 he
    exact absurd (hkeys i _ (Nat.lt_trans hi hslot) hslot hkey) (Nat.ne_of_lt hi)
  · exact heq
  -- the first slot beyond the fetch is read as well
  · have hslot : (fetchWindow p gpu hal mode d.rf).1 <
        max d.bc.numCachedFaults (fetchWindow p gpu hal mode d.rf).1 :=
      Nat.lt_of_lt_of_le hlt (Nat.le_max_left _ _)
    have hread := (hmem _).2
      ⟨_, mem_sourceEntries.2 ⟨_, hlt, rfl, by simp [hfree _ hslot]⟩, rfl⟩
    obtain ⟨i, hi, -, hkey⟩ := (h.mem_iff _).1 hread
    rw [fetch_numCachedFaults] at hi
    exact absurd (hkeys i _ (Nat.lt_trans hi hslot) hslot hkey) (Nat.ne_of_lt hi)

end

end Call

/-- **Mode 0 records the fetch it follows** if the fetch caches equally many entries as the one before
it (and the filter is not powered down). The record then lasts through preprocessing and whatever
the filter does not see, that is, until the next fetch. Equally many entries are necessary where
the cached entries have different keys; after a first fetch nothing is recorded. -/
theorem mode_zero_records_fetch (p : Params) (gpu : GpuConfig) (hal : Hal) (mode : FetchMode)
    (d : Driver) :
    let p := p.withMode .fetchCache
    let after := (fetchFaultBufferEntries p gpu hal mode d).1
    let cached := (fetchWindow p gpu hal mode d.rf).1
    (RecordGuard p gpu hal mode d → RecordsFetch after ∧
        ∀ toVaSpace a d', FilterFrame (preprocessFaultBatch p gpu toVaSpace a after).1 d' →
          RecordsFetch d') ∧
      (d.bc.numCachedFaults = 0 → d.rf.predictor.keys = [] →
        (RecordsFetch after ↔ cached = 0)) ∧
      (p.prevFetchPredictorEnable = true → RunsAfter p gpu hal mode d →
        DistinctSlots after (max d.bc.numCachedFaults cached) →
          (RecordsFetch after ↔ d.bc.numCachedFaults = cached)) := by
  intro p after cached
  refine ⟨fun hG => ?_, ?_, ?_⟩
  · have hafter := recordsFetch_of_guard gpu hal mode d rfl hG
    refine ⟨hafter, fun toVaSpace a d' hf => hafter.frame ?_⟩
    exact (preprocess_frame_cache rfl gpu toVaSpace a after).trans hf
  · exact recordsFetch_first_iff gpu hal mode d rfl
  · intro hen hruns hdistinct
    constructor
    · exact numCachedFaults_of_recordsFetch gpu hal mode d rfl hen hruns hdistinct
    · exact fun hcount => recordsFetch_of_guard gpu hal mode d rfl ⟨hcount, hen, hruns⟩

/-! ## Concrete fetches -/

/-- A first fetch of one fault in mode 0: the fault is cached and the key array stays empty. -/
theorem first_fetch_not_recorded :
    ¬ RecordsFetch (fetchFaultBufferEntries {} smallGpu (ringOf [0x1000] 1) .batchReady
      freshState.d).1 := by
  intro h
  have hkey := (h.mem_iff ⟨⟨0, 0⟩, 0, 0x1000⟩).2 ⟨0, by decide +kernel⟩
  revert hkey
  decide +kernel

/-- Two fetches of one fault each: the second one is recorded. -/
theorem second_fetch_recorded :
    let ring := ringOf [0x1000, 0x2000]
    let first := (fetchFaultBufferEntries {} smallGpu (ring 1) .batchReady freshState.d).1
    RecordsFetch (fetchFaultBufferEntries {} smallGpu (ring 2) .batchReady first).1 := by
  intro ring first
  have hG : RecordGuard {} smallGpu (ring 2) .batchReady first := by decide +kernel
  exact ((mode_zero_records_fetch {} smallGpu (ring 2) .batchReady first).1 hG).1

end FaultMesh
