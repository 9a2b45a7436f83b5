import FaultMesh.FilterFrame

/-!
# Where the answers of the filter come from

The table of the predictor is rebuilt at two places: at the end of preprocessing in the modes on
coalesced pages, at the end of a fetch in mode 0. `TableWithin` bounds what a table answers for by
a list of faults; the lemmas give such a bound for each place.
-/

namespace FaultMesh

/-- While the filter is running, the table only answers for keys of the given faults. -/
def TableWithin (p : Params) (d : Driver) (faults : List FaultEntry) : Prop :=
  prevFetchAdaptiveShouldRun p d.rf.predictor = true → ∀ e : RawFault,
    tableContains p.prevFetchMode d.rf.predictor e = true →
      ∃ f ∈ faults, filterKey p.prevFetchMode f.toRawFault = filterKey p.prevFetchMode e

/-- The cached entries a rebuild of mode 0 takes keys from. -/
def BatchContext.sourceEntries (bc : BatchContext) (n : Nat) : List FaultEntry :=
  (bc.firstEntries n).filter fun e => !(e.filtered && !e.predFetchSkip)

theorem mem_sourceEntries {bc : BatchContext} {n : Nat} {e : FaultEntry} :
    e ∈ bc.sourceEntries n ↔
      ∃ i < n, bc.faultCache i = e ∧ (e.filtered && !e.predFetchSkip) = false := by
  simp only [BatchContext.sourceEntries, BatchContext.firstEntries, List.mem_filter, List.mem_map,
    List.mem_range, Bool.not_eq_eq_eq_not, Bool.not_true]
  constructor
  · rintro ⟨⟨i, hi, he⟩, hs⟩
    exact ⟨i, hi, he, hs⟩
  · rintro ⟨i, hi, he, hs⟩
    exact ⟨⟨i, hi, he⟩, hs⟩

theorem TableWithin.frame {p : Params} {d d' : Driver} {faults : List FaultEntry}
    (h : TableWithin p d faults) (hf : FilterFrame d d') : TableWithin p d' faults := by
  unfold TableWithin
  rw [hf.predictor]
  exact h

theorem TableWithin.mono {p : Params} {d : Driver} {faults faults' : List FaultEntry}
    (h : TableWithin p d faults)
    (hsub : ∀ f ∈ faults, ∃ g ∈ faults',
      filterKey p.prevFetchMode g.toRawFault = filterKey p.prevFetchMode f.toRawFault) :
    TableWithin p d faults' := by
  intro hrun e htable
  obtain ⟨f, hf, hkey⟩ := h hrun e htable
  obtain ⟨g, hg, hgkey⟩ := hsub f hf
  exact ⟨g, hg, hgkey.trans hkey⟩

/-! ## Rebuilding after preprocessing -/

@[simp] theorem rebuildFromOrdered_bc (p : Params) (d : Driver) :
    (rebuildFromOrdered p d).bc = d.bc := by
  unfold rebuildFromOrdered
  split <;> rfl

theorem shouldRun_updatePrevFetchPredictor (p : Params) (c : BatchCounts)
    (cached coalesced : List FaultEntry) (pr : Predictor) :
    prevFetchAdaptiveShouldRun p (updatePrevFetchPredictor p c cached coalesced pr) =
      prevFetchAdaptiveShouldRun p pr := by
  unfold updatePrevFetchPredictor
  split
  · rfl
  · cases p.prevFetchMode <;> rfl

theorem tableWithin_rebuildFromOrdered {p : Params} {d : Driver}
    (hen : p.prevFetchPredictorEnable = true) (hmode : p.prevFetchMode ≠ .hashApprox)
    (hpages : p.prevFetchMode.useCoalescedPages = true) :
    TableWithin p (rebuildFromOrdered p d) d.bc.orderedEntries := by
  intro hrun e htable
  unfold rebuildFromOrdered at hrun htable
  split at hrun
  · next hc =>
      rw [if_pos hc] at htable
      obtain ⟨f, hf, hkey⟩ := exists_mem_of_tableContains_update hen hmode htable
      simp only [rebuildSource, hpages, if_true] at hf
      exact ⟨f, hf, hkey⟩
  · next hc =>
      simp only [hpages, Bool.true_and, Bool.not_eq_true] at hc
      rw [hc] at hrun
      cases hrun

theorem mem_orderedEntries {d : Driver} {cache : Nat → FaultEntry} {i : Nat} (hi : i < d.bc.numCachedFaults)
    (hfilt : (d.bc.faultCache i).filtered = false) :
    cache i ∈ (orderBatch d.bc (instancePtrOrder d.bc) cache).orderedEntries := by
  have hun : i ∈ unfilteredIndices d.bc :=
    List.mem_filter.2 ⟨List.mem_range.2 hi, by simp [hfilt]⟩
  have horder : i ∈ instancePtrOrder d.bc := by
    unfold instancePtrOrder
    split
    · exact hun
    · exact mem_sortBy.2 hun
  exact List.mem_map.2 ⟨i, mem_sortBy.2 horder, rfl⟩

/-! ## Fetching -/

theorem tableContains_adaptiveUpdate (p : Params) (ctx : FetchCtx) (idx n : Nat) (pr : Predictor)
    (e : RawFault) :
    tableContains p.prevFetchMode (adaptiveUpdate p ctx idx n pr) e =
      tableContains p.prevFetchMode pr e := by
  unfold adaptiveUpdate
  split_ifs <;> rfl

/-- A fetch with these constants that cached `idx` entries did not hit its limit. -/
def BelowLimit (ctx : FetchCtx) (idx : Nat) : Prop :=
  ctx.mode = .all ∨ ctx.fetchLimit = 0 ∨ idx < ctx.fetchLimit

theorem shouldRun_of_adaptiveUpdate {p : Params} {ctx : FetchCtx} {idx n : Nat} {pr : Predictor}
    (hlim : BelowLimit ctx idx)
    (h : prevFetchAdaptiveShouldRun p (adaptiveUpdate p ctx idx n pr) = true) :
    prevFetchAdaptiveShouldRun p pr = true := by
  have hnot : ¬ (ctx.mode ≠ .all && 0 < ctx.fetchLimit && ctx.fetchLimit ≤ idx) = true := by
    rcases hlim with hlim | hlim | hlim <;> simp [hlim]
  unfold adaptiveUpdate at h
  rw [if_neg hnot] at h
  split_ifs at h with hen hact hskip hcool
  · exact h
  · exact h
  · exact h
  -- switched off
  · simp only [prevFetchAdaptiveShouldRun, Bool.or_false] at h
    exact absurd h hen
  · exact h

section Fetch

variable {p : Params} {gpu : GpuConfig} {hal : Hal} {d : Driver} {faults : List FaultEntry}

theorem belowLimit_of_empty
    (hnone : (fetchedState p gpu hal .batchReady d).1.faultIndex = 0) :
    BelowLimit (fetchCtx p gpu .batchReady d.rf (fetchPut d.rf hal))
      (fetchedState p gpu hal .batchReady d).1.faultIndex := by
  rw [hnone]
  by_cases hput : d.rf.cachedGet = fetchPut d.rf hal
  · exact .inr (.inl (by simp [fetchCtx, hput]))
  · refine .inr (.inr ?_)
    simp only [fetchCtx, hput, if_false]
    exact fetchLimit_pos _ _ _ _ _

theorem fetch_tableWithin_pages (hpages : p.prevFetchMode.useCoalescedPages = true)
    (hT : TableWithin p d faults)
    (hnone : (fetchFaultBufferEntries p gpu hal .batchReady d).1.bc.numCachedFaults = 0) :
    TableWithin p (fetchFaultBufferEntries p gpu hal .batchReady d).1 faults := by
  obtain ⟨evs, hspec⟩ := fetchedState_spec p gpu hal .batchReady d
  obtain ⟨l, hl⟩ := hspec.predictor
  have hstart : (fetchStart d).predictor = d.rf.predictor := rfl
  have hlim := belowLimit_of_empty (p := p) (d := d) hnone
  rw [fetchFaultBufferEntries_eq]
  simp only [TableWithin, fetchFinish, hpages, Bool.not_true, Bool.false_and, Bool.false_eq_true,
    if_false]
  intro hrun e htable
  rw [tableContains_adaptiveUpdate, hl, tableContains_with_last, hstart] at htable
  have hbefore := shouldRun_of_adaptiveUpdate hlim hrun
  rw [hl, hstart] at hbefore
  exact hT hbefore e htable

theorem fetch_tableWithin_cache {mode : FetchMode} (hen : p.prevFetchPredictorEnable = true)
    (hcache : p.prevFetchMode.useCoalescedPages = false) :
    TableWithin p (fetchFaultBufferEntries p gpu hal mode d).1
      ((fetchedState p gpu hal mode d).1.bc.sourceEntries d.bc.numCachedFaults) := by
  have hmode : p.prevFetchMode ≠ .hashApprox := by
    rintro h
    simp [h, PrevFetchMode.useCoalescedPages] at hcache
  obtain ⟨evs, hspec⟩ := fetchedState_spec p gpu hal mode d
  have hnum : (fetchedState p gpu hal mode d).1.bc.numCachedFaults = d.bc.numCachedFaults :=
    hspec.numCached
  rw [fetchFaultBufferEntries_eq]
  generalize (fetchedState p gpu hal mode d).1 = st at hnum ⊢
  intro hrun e htable
  simp only [fetchFinish, hcache, Bool.not_false, Bool.true_and] at hrun htable
  split at hrun
  · next hran =>
      rw [if_pos hran] at htable
      obtain ⟨f, hf, hkey⟩ := exists_mem_of_tableContains_update hen hmode htable
      simp only [rebuildSource, hcache, Bool.false_eq_true, if_false, hnum] at hf
      exact ⟨f, hf, hkey⟩
  · next hran => exact absurd hrun hran

end Fetch

end FaultMesh
