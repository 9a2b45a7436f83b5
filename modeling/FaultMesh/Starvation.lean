import FaultMesh.FilterTable
import FaultMesh.Lib.Trace

/-!
# The stale-fault filter and starvation

A dropped fault is not serviced. It does no harm if the page is looked at again before the next
drop: the table that answered for it is replaced by one built from a later batch, and the fault,
when it comes back, is cached. The filter starves a page if it drops a key, and drops it again in
a later fetch although no batch with that key was recorded in between.

The driver rebuilds its table only after a batch was cached and preprocessed, and it never clears
the memo of the last lookup. So a key can be dropped over and over: by a fetch that caches
nothing, by a batch whose preprocessing fails, through a memo that outlives its table, and in
mode 0 through leftovers in the fault cache.
-/

namespace FaultMesh

/-! ## Dropped and recorded keys -/

def Event.dropKey (mode : PrevFetchMode) : Event → Option PrevFetchKey
  | .dropped _ e => some (filterKey mode e.toRawFault)
  | _ => none

/-- The table was rebuilt from a batch that contained a fault on the key. -/
def Event.rebuildsKey (mode : PrevFetchMode) (k : PrevFetchKey) : Event → Bool
  | .rebuilt batch => batch.any fun e => filterKey mode e.toRawFault = k
  | _ => false

def Event.isFetchBegin : Event → Bool
  | .fetchBegin => true
  | _ => false

/-- Between two drops of one key in different fetches the table was rebuilt from a batch with
that key. -/
def NoStarvation (mode : PrevFetchMode) (log : List Event) : Prop :=
  AnsweredBetween (Event.dropKey mode) (Event.rebuildsKey mode) Event.isFetchBegin log

theorem rebuildsKey_of_isFetchBegin {mode : PrevFetchMode} (k : PrevFetchKey) (e : Event)
    (h : e.isFetchBegin = true) : e.rebuildsKey mode k = false := by
  cases e <;> simp_all [Event.isFetchBegin, Event.rebuildsKey]

instance (mode : PrevFetchMode) (log : List Event) : Decidable (NoStarvation mode log) :=
  decidable_of_iff _ (answeredBetween_iff rebuildsKey_of_isFetchBegin)

/-- The key was dropped and no table has been rebuilt from a batch with it since. -/
def Owed (mode : PrevFetchMode) (k : PrevFetchKey) (log : List Event) : Prop :=
  owed (Event.dropKey mode) (Event.rebuildsKey mode) k log = true

theorem dropKey_eq_none {mode : PrevFetchMode} {e : Event} (h : e.isDropped = false) :
    e.dropKey mode = none := by
  cases e <;> simp_all [Event.isDropped, Event.dropKey]

theorem isDropped_of_not_isFetched {e : Event} (h : e.isFetched = false) : e.isDropped = false := by
  cases e <;> simp_all [Event.isFetched, Event.isDropped]

theorem not_owed_of_mem_rebuilt {mode : PrevFetchMode} {batch : List FaultEntry} {f : FaultEntry}
    {k : PrevFetchKey} (log : List Event) (hf : f ∈ batch) (hk : filterKey mode f.toRawFault = k) :
    ¬ Owed mode k (.rebuilt batch :: log) := by
  have hany : (batch.any fun f => filterKey mode f.toRawFault = k) = true :=
    List.any_eq_true.2 ⟨f, hf, by simpa using hk⟩
  simp [Owed, owed, Event.dropKey, Event.rebuildsKey, hany]

theorem Owed.of_rebuilt {mode : PrevFetchMode} {batch : List FaultEntry} {k : PrevFetchKey}
    {log : List Event} (h : Owed mode k (.rebuilt batch :: log)) : Owed mode k log := by
  have hcons : owed (Event.dropKey mode) (Event.rebuildsKey mode) k ([.rebuilt batch] ++ log) =
      true := h
  exact owed_of_append (by simp [Event.dropKey]) hcons

/-! ## The invariant -/

/-- While the filter is running, the table does not answer for a key that is still owed. In mode
0 the next table is built from the fault cache, which must not hold such a key either. -/
structure FilterInv (p : Params) (d : Driver) : Prop where
  table : prevFetchAdaptiveShouldRun p d.rf.predictor = true →
    ∀ e : RawFault, Owed p.prevFetchMode (filterKey p.prevFetchMode e) d.log →
      tableContains p.prevFetchMode d.rf.predictor e = false
  slots : prevFetchAdaptiveShouldRun p d.rf.predictor = true →
    p.prevFetchMode.useCoalescedPages = false → ∀ i < d.bc.numCachedFaults,
      ¬ Owed p.prevFetchMode (filterKey p.prevFetchMode (d.bc.faultCache i).toRawFault) d.log

section Frame

variable {p : Params} {d d' : Driver}

theorem FilterFrame.owed {mode : PrevFetchMode} {k : PrevFetchKey} (h : FilterFrame d d')
    (howed : Owed mode k d'.log) : Owed mode k d.log := by
  obtain ⟨evs, hlog, hevs⟩ := h.log
  unfold Owed at howed
  rw [hlog] at howed
  exact owed_of_append
    (fun e he => dropKey_eq_none (isDropped_of_not_isFetched (hevs e he).1)) howed

theorem FilterInv.frame (hI : FilterInv p d) (h : FilterFrame d d') : FilterInv p d' where
  table := by
    rw [h.predictor]
    exact fun hrun e howed => hI.table hrun e (h.owed howed)
  slots := by
    rw [h.predictor, h.numCached]
    intro hrun hmode i hi howed
    rw [h.packets] at howed
    exact hI.slots hrun hmode i hi (h.owed howed)

theorem NoStarvation.frame {mode : PrevFetchMode} (hN : NoStarvation mode d.log)
    (h : FilterFrame d d') : NoStarvation mode d'.log := by
  obtain ⟨evs, hlog, hevs⟩ := h.log
  rw [hlog]
  exact hN.append fun e he => dropKey_eq_none (isDropped_of_not_isFetched (hevs e he).1)

end Frame

/-! ## Rebuilding after preprocessing -/

section Rebuild

variable {p : Params} {d : Driver}

theorem noStarvation_rebuildFromOrdered (hN : NoStarvation p.prevFetchMode d.log) :
    NoStarvation p.prevFetchMode (rebuildFromOrdered p d).log := by
  unfold rebuildFromOrdered
  split
  · show NoStarvation p.prevFetchMode ([_] ++ d.log)
    exact hN.append (by simp [Event.dropKey])
  · exact hN

theorem filterInv_rebuildFromOrdered (hen : p.prevFetchPredictorEnable = true)
    (hmode : p.prevFetchMode ≠ .hashApprox) (hpages : p.prevFetchMode.useCoalescedPages = true) :
    FilterInv p (rebuildFromOrdered p d) := by
  refine ⟨fun hrun e howed => ?_, fun _ hcache => by rw [hpages] at hcache; cases hcache⟩
  by_contra hhit
  obtain ⟨f, hf, hkey⟩ := tableWithin_rebuildFromOrdered hen hmode hpages hrun e
    (Bool.eq_true_of_not_eq_false hhit)
  unfold rebuildFromOrdered at hrun howed
  split at hrun
  · next hc =>
      rw [if_pos hc] at howed
      exact not_owed_of_mem_rebuilt _ hf hkey howed
  · next hc =>
      simp only [hpages, Bool.true_and] at hc
      exact hc hrun

end Rebuild

/-! ## Fetching -/

section Fetch

variable {p : Params} {gpu : GpuConfig} {hal : Hal} {mode : FetchMode} {d : Driver}
  {evs : List Event}

theorem fetch_noStarvation (hI : FilterInv p d) (hN : NoStarvation p.prevFetchMode d.log)
    (hmemo : mode = .all ∨ MemoSound p.prevFetchMode d.rf.predictor) :
    NoStarvation p.prevFetchMode (fetchFaultBufferEntries p gpu hal mode d).1.log := by
  obtain ⟨evs, hspec⟩ := fetchedState_spec p gpu hal mode d
  obtain ⟨top, hlog, htop⟩ := hspec.call_log
  rw [hlog]
  apply AnsweredBetween.append
  · apply AnsweredBetween.round rebuildsKey_of_isFetchBegin hN rfl
    · intro e he
      have hfetched := hspec.fetched e he
      cases e <;> simp_all [Event.isFetched, Event.isFetchBegin]
    · intro e he k hk
      cases e with
      | fetchBegin | cached | flushed | rebuilt | replay => cases hk
      | dropped slot f =>
        obtain rfl := Option.some.inj hk
        obtain ⟨hactive, hmode, -, hhit⟩ := hspec.dropped slot f he
        have hsound := hmemo.resolve_left hmode
        by_contra howed
        have hmiss := hI.table hactive f.toRawFault (Bool.eq_true_of_not_eq_false howed)
        rw [show tableContains p.prevFetchMode d.rf.predictor f.toRawFault = true from
          hhit hsound] at hmiss
        cases hmiss
  · intro e he
    have hrebuilt := htop e he
    cases e <;> simp_all [Event.isRebuilt, Event.dropKey]

theorem Owed.of_fetch {k : PrevFetchKey}
    (hnone : ∀ e ∈ evs, e.isDropped = false)
    (h : Owed p.prevFetchMode k (evs ++ (fetchStart d).log)) : Owed p.prevFetchMode k d.log := by
  have hbegin : owed (Event.dropKey p.prevFetchMode) (Event.rebuildsKey p.prevFetchMode) k
    ([.fetchBegin] ++ d.log) = true := owed_of_append (fun e he => dropKey_eq_none (hnone e he)) h
  exact owed_of_append (by simp [Event.dropKey]) hbegin

theorem fetch_filterInv_pages (hpages : p.prevFetchMode.useCoalescedPages = true)
    (hI : FilterInv p d)
    (hspec : LoopSpec p (fetchCtx p gpu mode d.rf (fetchPut d.rf hal)) (fetchStart d)
      (fetchedState p gpu hal mode d).1 evs)
    (hnone : ∀ e ∈ evs, e.isDropped = false)
    (hlim : BelowLimit (fetchCtx p gpu mode d.rf (fetchPut d.rf hal))
      (fetchedState p gpu hal mode d).1.faultIndex) :
    FilterInv p (fetchFaultBufferEntries p gpu hal mode d).1 := by
  obtain ⟨l, hl⟩ := hspec.predictor
  have hstart : (fetchStart d).predictor = d.rf.predictor := rfl
  refine ⟨?_, fun _ hcache => by rw [hpages] at hcache; cases hcache⟩
  rw [fetchFaultBufferEntries_eq]
  simp only [fetchFinish, hpages, Bool.not_true, Bool.false_and, Bool.false_eq_true, if_false]
  intro hrun e howed
  rw [tableContains_adaptiveUpdate, hl, tableContains_with_last, hstart]
  refine hI.table ?_ e ?_
  · have hbefore := shouldRun_of_adaptiveUpdate hlim hrun
    rw [hl, hstart] at hbefore
    exact hbefore
  · rw [hspec.log] at howed
    exact howed.of_fetch hnone

/-- In mode 0 the table is rebuilt at the end of the fetch, from as many slots as the previous
fetch had filled. If this fetch filled at least as many, the new table only answers for the new
batch; if it dropped nothing, the slots behind the new batch are those of the batch before. -/
theorem fetch_filterInv_cache (hen : p.prevFetchPredictorEnable = true)
    (hcache : p.prevFetchMode.useCoalescedPages = false) (hI : FilterInv p d)
    (hspec : LoopSpec p (fetchCtx p gpu mode d.rf (fetchPut d.rf hal)) (fetchStart d)
      (fetchedState p gpu hal mode d).1 evs)
    (hslots : d.bc.numCachedFaults ≤ (fetchedState p gpu hal mode d).1.faultIndex ∨
      ((∀ e ∈ evs, e.isDropped = false) ∧
        (prevFetchAdaptiveShouldRun p d.rf.predictor = true ∨
          BelowLimit (fetchCtx p gpu mode d.rf (fetchPut d.rf hal))
            (fetchedState p gpu hal mode d).1.faultIndex))) :
    FilterInv p (fetchFaultBufferEntries p gpu hal mode d).1 := by
  have hmode : p.prevFetchMode ≠ .hashApprox := by
    rintro h
    simp [h, PrevFetchMode.useCoalescedPages] at hcache
  obtain ⟨l, hl⟩ := hspec.predictor
  have hnum : (fetchedState p gpu hal mode d).1.bc.numCachedFaults = d.bc.numCachedFaults :=
    hspec.numCached
  rw [fetchFaultBufferEntries_eq]
  generalize hst : (fetchedState p gpu hal mode d).1 = st at *
  -- whether the filter runs afterwards decides whether there is a rebuild at all
  set pr := adaptiveUpdate p (fetchCtx p gpu mode d.rf (fetchPut d.rf hal)) st.faultIndex
    st.bc.numPredFastSkipStale st.predictor with hpr
  cases hrun : prevFetchAdaptiveShouldRun p pr with
  | false =>
    constructor <;>
      simp [fetchFinish, hcache, ← hpr, hrun]
  | true =>
    constructor <;>
      simp only [fetchFinish, hcache, ← hpr, hrun, Bool.not_false, Bool.true_and, if_true,
        shouldRun_updatePrevFetchPredictor, forall_const]
    · intro e howed
      by_contra hhit
      obtain ⟨f, hf, hkey⟩ :=
        exists_mem_of_tableContains_update hen hmode (Bool.eq_true_of_not_eq_false hhit)
      simp only [rebuildSource, hcache, Bool.false_eq_true, if_false] at hf
      obtain ⟨i, hi, rfl⟩ := List.mem_map.1 (List.mem_filter.1 hf).1
      rw [List.mem_range, hnum] at hi
      by_cases hnew : i < st.faultIndex
      -- the key is one of the new batch
      · exact not_owed_of_mem_rebuilt _
          (List.mem_map.2 ⟨i, List.mem_range.2 hnew, rfl⟩) hkey howed
      -- the key is a leftover of an earlier batch
      · obtain ⟨hnone, hbefore⟩ := hslots.resolve_left (by omega)
        have hran : prevFetchAdaptiveShouldRun p d.rf.predictor = true := by
          rcases hbefore with hbefore | hbefore
          · exact hbefore
          · have hran := shouldRun_of_adaptiveUpdate hbefore hrun
            rw [hl] at hran
            exact hran
        have hold := howed.of_rebuilt
        rw [hspec.log] at hold
        have hpacket := hspec.slots hnone i (Nat.le_of_not_lt hnew)
        refine hI.slots hran hcache i hi ?_
        rw [show (d.bc.faultCache i).toRawFault = (st.bc.faultCache i).toRawFault from
          hpacket.symm, hkey]
        exact hold.of_fetch hnone
    · intro i hi
      exact not_owed_of_mem_rebuilt _ (List.mem_map.2 ⟨i, List.mem_range.2 hi, rfl⟩) rfl

end Fetch

/-! ## The cancel path

Cancelling fetches with mode `ALL`, which never consults the filter, so it keeps the invariant
without any assumption. -/

/-- No key is starved so far and none is about to be. -/
structure FilterSound (p : Params) (d : Driver) : Prop where
  inv : FilterInv p d
  noStarvation : NoStarvation p.prevFetchMode d.log

section Cancel

variable {p : Params} {gpu : GpuConfig} {toVaSpace : RawFault → Translation} {d d' : Driver}

theorem FilterSound.frame (h : FilterSound p d) (hf : FilterFrame d d') : FilterSound p d' :=
  ⟨h.inv.frame hf, h.noStarvation.frame hf⟩

section

variable (hen : p.prevFetchPredictorEnable = true)
include hen

theorem FilterSound.fetchAll (h : FilterSound p d) (hal : Hal) :
    FilterSound p (fetchFaultBufferEntries p gpu hal .all d).1 := by
  obtain ⟨evs, hspec⟩ := fetchedState_spec p gpu hal .all d
  have hnone := hspec.no_drop_of_all rfl
  refine ⟨?_, fetch_noStarvation h.inv h.noStarvation (.inl rfl)⟩
  cases hmode : p.prevFetchMode.useCoalescedPages with
  | true => exact fetch_filterInv_pages hmode h.inv hspec hnone (.inl rfl)
  | false => exact fetch_filterInv_cache hen hmode h.inv hspec (.inr ⟨hnone, .inr (.inl rfl)⟩)

theorem FilterSound.rebuild (hmode : p.prevFetchMode ≠ .hashApprox) (h : FilterSound p d) :
    FilterSound p (rebuildFromOrdered p d) := by
  refine ⟨?_, noStarvation_rebuildFromOrdered h.noStarvation⟩
  cases hpages : p.prevFetchMode.useCoalescedPages with
  | true => exact filterInv_rebuildFromOrdered hen hmode hpages
  | false =>
    have hsame : rebuildFromOrdered p d = d := by simp [rebuildFromOrdered, hpages]
    rw [hsame]
    exact h.inv

theorem FilterSound.preprocess (hmode : p.prevFetchMode ≠ .hashApprox) (h : FilterSound p d)
    (a : PreprocessAnswer) : FilterSound p (preprocessFaultBatch p gpu toVaSpace a d).1 := by
  rcases preprocessFaultBatch_frame p gpu toVaSpace a d with ⟨hf, -⟩ | ⟨d', hf, heq⟩
  · exact h.frame hf
  · rw [heq]
    exact (h.frame hf).rebuild hen hmode

theorem filterSound_cancelClosed (hmode : p.prevFetchMode ≠ .hashApprox) (gpu : GpuConfig)
    (toVaSpace : RawFault → Translation) : CancelClosed p gpu toVaSpace (FilterSound p) where
  frame := fun hf h => h.frame hf
  fetchAll := fun hal _ h => h.fetchAll hen hal
  preprocess := fun a _ h => h.preprocess hen hmode a

end

end Cancel

/-! ## The machine -/

/-- The state before a fetch rules out that the fetch leaves a dropped key in the table: the memo
remembers no hit that the table does not have, and

* in the modes on coalesced pages no packet of the window fails to parse and the filter does not
  drop the whole window;
* in mode 0 the window has at least as many entries to keep as the previous fetch cached, or it
  has none to drop (and the filter was running already, or nothing is pending). -/
def FetchGuard (p : Params) (gpu : GpuConfig) (hal : Hal) (d : Driver) : Prop :=
  let put := fetchPut d.rf hal
  let pending := pendingEntries d.rf.cachedGet put gpu.maxFaults
  let window := fetchWindow p gpu hal .batchReady d.rf
  MemoSound p.prevFetchMode d.rf.predictor ∧
    if p.prevFetchMode.useCoalescedPages = true then
      ¬ WindowDropped p gpu hal d.rf ∧
        ∀ slot ∈ pendingSlots gpu hal d.rf, (hal.parse slot).1 = .ok
    else
      d.bc.numCachedFaults ≤ window.1 ∨
        (window.2 = 0 ∧ (prevFetchAdaptiveShouldRun p d.rf.predictor = true ∨ pending = 0))

instance (p : Params) (gpu : GpuConfig) (hal : Hal) (d : Driver) :
    Decidable (FetchGuard p gpu hal d) :=
  inferInstanceAs (Decidable (_ ∧ ite _ _ _))

/-- The situations in which a key may be starved are excluded. Besides `FetchGuard` for every
fetch that is made, preprocessing in the modes on coalesced pages finds the channel of every
cached fault registered. -/
def StarvationGuard (p : Params) (gpu : GpuConfig) (s : ServiceState) : Label → Prop
  | .fetch hal => s.vars.limitReached p = false → FetchGuard p gpu hal s.d
  | .preprocess _ => p.prevFetchMode.useCoalescedPages = true → ∀ i < s.d.bc.numCachedFaults,
      (s.channels (s.d.bc.faultCache i).toRawFault).isVaSpace = true
  | _ => True

instance (p : Params) (gpu : GpuConfig) (s : ServiceState) :
    ∀ i, Decidable (StarvationGuard p gpu s i)
  | .fetch _ => inferInstanceAs (Decidable (_ → _))
  | .preprocess _ => inferInstanceAs (Decidable (_ → ∀ i < _, _))
  | .enter => isTrue trivial
  | .service _ => isTrue trivial
  | .endBatch _ => isTrue trivial
  | .leave _ => isTrue trivial
  | .rebind _ => isTrue trivial

/-- No key was starved so far. None is about to be either, except between a fetch and the
preprocessing that rebuilds the table. -/
def StarvationInv (p : Params) (s : ServiceState) : Prop :=
  NoStarvation p.prevFetchMode s.d.log ∧
    (FilterInv p s.d ∨ (p.prevFetchMode.useCoalescedPages = true ∧ s.pc = .fetched))

section Steps

variable {p : Params} {gpu : GpuConfig} {s t : ServiceState}

theorem StarvationInv.sound (h : StarvationInv p s) (hpc : s.pc ≠ .fetched) : FilterSound p s.d :=
  ⟨h.2.resolve_right fun hf => hpc hf.2, h.1⟩

theorem FilterSound.starvationInv {d : Driver} (h : FilterSound p d) (hs : s.d = d) :
    StarvationInv p s := by
  subst hs
  exact ⟨h.noStarvation, .inl h.inv⟩

theorem fetch_pages_empty {hal : Hal} {d : Driver}
    (hpages : p.prevFetchMode.useCoalescedPages = true) (hG : FetchGuard p gpu hal d)
    (hI : FilterInv p d)
    (hnone : (fetchFaultBufferEntries p gpu hal .batchReady d).1.bc.numCachedFaults = 0) :
    FilterInv p (fetchFaultBufferEntries p gpu hal .batchReady d).1 := by
  simp only [FetchGuard, hpages, if_true] at hG
  obtain ⟨-, hwindow, hparse⟩ := hG
  obtain ⟨evs, hspec⟩ := fetchedState_spec p gpu hal .batchReady d
  have hpending := pending_eq_zero hwindow (fetchLoop_ok hparse) hnone
  have hnil := hspec.eq_nil_of_pending hpending
  exact fetch_filterInv_pages hpages hI hspec (by simp [hnil]) (belowLimit_of_empty hnone)

section

variable (hen : p.prevFetchPredictorEnable = true)
include hen

theorem fetch_cache_guarded {hal : Hal} {d : Driver}
    (hcache : p.prevFetchMode.useCoalescedPages = false) (hG : FetchGuard p gpu hal d)
    (hI : FilterInv p d) : FilterInv p (fetchFaultBufferEntries p gpu hal .batchReady d).1 := by
  simp only [FetchGuard, hcache, Bool.false_eq_true, if_false] at hG
  obtain ⟨evs, hspec⟩ := fetchedState_spec p gpu hal .batchReady d
  apply fetch_filterInv_cache hen hcache hI hspec
  rw [← fetchedState_faultIndex] at hG
  refine hG.2.imp_right fun ⟨hnone, hrun⟩ => ⟨hspec.no_drop_of_window hnone, ?_⟩
  refine hrun.imp_right fun hpending => belowLimit_of_empty ?_
  exact hspec.idle (hspec.eq_nil_of_pending hpending)

theorem fetchBatch_starvationInv {hal : Hal} (hpc : s.pc = .loopTop) (hI : StarvationInv p s)
    (hG : StarvationGuard p gpu s (.fetch hal)) : StarvationInv p (fetchBatch p gpu hal s) := by
  have hs := hI.sound (by rw [hpc]; simp)
  unfold fetchBatch
  split
  · exact hs.starvationInv rfl
  · next hlim =>
      have hG : FetchGuard p gpu hal (resetCounters s.d) := hG (by simpa using hlim)
      have hd := hs.frame (resetCounters_frame s.d)
      generalize resetCounters s.d = d at hd hG ⊢
      have hN : NoStarvation p.prevFetchMode (fetchFaultBufferEntries p gpu hal .batchReady d).1.log :=
        fetch_noStarvation hd.inv hd.noStarvation (.inr hG.1)
      have hok : p.prevFetchMode.useCoalescedPages = true →
          (fetchFaultBufferEntries p gpu hal .batchReady d).2 = .ok := by
        intro hpages
        simp only [FetchGuard, hpages, if_true] at hG
        exact fetchLoop_ok hG.2.2
      have hempty := fun hpages => fetch_pages_empty hpages hG hd.inv
      have hcached := fun hcache => fetch_cache_guarded hen hcache hG hd.inv
      rcases hf : fetchFaultBufferEntries p gpu hal .batchReady d with ⟨d', status⟩
      rw [hf] at hN hok hempty hcached
      cases hpages : p.prevFetchMode.useCoalescedPages with
      | false =>
        have hsound : FilterSound p d' := ⟨hcached hpages, hN⟩
        cases status with
        | err code => exact hsound.starvationInv rfl
        | ok =>
          dsimp only
          split
          · exact hsound.starvationInv rfl
          · exact (hsound.frame (bumpBatchId_frame d')).starvationInv rfl
      | true =>
        obtain rfl : status = .ok := hok hpages
        dsimp only
        split
        · next hnone => exact FilterSound.starvationInv ⟨hempty hpages hnone, hN⟩ rfl
        · exact ⟨hN.frame (bumpBatchId_frame d'), .inr ⟨hpages, rfl⟩⟩

theorem preprocessBatch_starvationInv {a : PreprocessAnswer} (hmode : p.prevFetchMode ≠ .hashApprox)
    (hI : StarvationInv p s) (hG : StarvationGuard p gpu s (.preprocess a)) :
    StarvationInv p (preprocessBatch p gpu a s) := by
  have hsound : FilterSound p (preprocessFaultBatch p gpu s.channels a s.d).1 := by
    rcases hI.2 with hinv | ⟨hpages, -⟩
    · exact FilterSound.preprocess hen hmode ⟨hinv, hI.1⟩ a
    -- every channel is registered, so the table is rebuilt from this batch
    · rcases preprocessFaultBatch_frame p gpu s.channels a s.d with ⟨-, hfail⟩ | ⟨d', hf, heq⟩
      · rw [translateEntries_ok] at hfail
        · cases hfail
        · intro i hi
          exact Translation.exists_of_isVaSpace (hG hpages i (mem_instancePtrOrder hi))
      · rw [heq]
        exact ⟨filterInv_rebuildFromOrdered hen hmode hpages,
          noStarvation_rebuildFromOrdered (hI.1.frame hf)⟩
  exact hsound.starvationInv rfl

theorem endBatch_starvationInv {a : BatchEndAnswer} (hmode : p.prevFetchMode ≠ .hashApprox)
    (hs : FilterSound p s.d) (h : endBatch p gpu a s = some t) : StarvationInv p t := by
  have hpush := hs.frame (pushReplayOnGpu_frame .start a.push s.d)
  have hflush := hs.frame
    (faultBufferFlushLocked_frame gpu (batchFlushMode p gpu s.d.bc) .start a.flush s.d)
  unfold endBatch at h
  split at h
  · obtain rfl := Option.some.inj h
    exact (hs.frame (cancelFaultBatch_frame gpu a.cancelFlush s.d)).starvationInv rfl
  split at h
  · split at h
    · obtain rfl := Option.some.inj h
      exact hs.starvationInv rfl
    · obtain ⟨⟨d, status⟩, hc, rfl⟩ := Option.map_eq_some_iff.1 h
      have hd := (filterSound_cancelClosed hen hmode gpu s.channels).cancelFaultsPrecise hs hc
      cases status <;> exact hd.starvationInv rfl
  split at h
  · split at h <;> next hp =>
      obtain rfl := Option.some.inj h
      rw [hp] at hpush
      exact hpush.starvationInv rfl
  · split at h
    · next hf =>
        rw [hf] at hflush
        split at h <;> (obtain rfl := Option.some.inj h; exact hflush.starvationInv rfl)
    · next hf =>
        rw [hf] at hflush
        obtain rfl := Option.some.inj h
        exact hflush.starvationInv rfl
  · obtain rfl := Option.some.inj h
    exact hs.starvationInv rfl

theorem serviceStep_starvationInv {i : Label} (hmode : p.prevFetchMode ≠ .hashApprox)
    (hI : StarvationInv p s) (hG : StarvationGuard p gpu s i) (h : serviceStep p gpu s i = some t) :
    StarvationInv p t := by
  cases serviceMoves_of_step h with
  | rebind => exact hI
  | enter r hpc => exact (hI.sound (by rw [hpc]; simp)).starvationInv rfl
  | fetch hal hpc => exact fetchBatch_starvationInv hen hpc hI hG
  | preprocess a => exact preprocessBatch_starvationInv hen hmode hI hG
  | service o hpc =>
    have hs := hI.sound (by rw [hpc]; simp)
    exact (hs.frame (applyService_frame gpu .regular o s.d)).starvationInv rfl
  | endBatch a t hpc hend =>
    exact endBatch_starvationInv hen hmode (hI.sound (by rw [hpc]; simp)) hend
  | leave push hpc =>
    have hs := hI.sound (by rw [hpc]; simp)
    unfold leaveService
    split
    · exact (hs.frame (pushReplayOnGpu_frame .start push s.d)).starvationInv rfl
    · exact hs.starvationInv rfl

end

end Steps

/-- **No starvation**: with the predictor on and one of the exact modes, in every state that a run
of guarded steps reaches, two drops of one key in different fetches have a rebuild from a batch
with that key between them. -/
theorem filter_never_starves (p : Params) (gpu : GpuConfig) (s t : ServiceState) (is : List Label)
    (hen : p.prevFetchPredictorEnable = true) (hmode : p.prevFetchMode ≠ .hashApprox)
    (hlog : s.d.log = []) (hmeets : (serviceMachine p gpu).Meets (StarvationGuard p gpu) s is)
    (hrun : (serviceMachine p gpu).run s is = some t) : NoStarvation p.prevFetchMode t.d.log := by
  have hstart : StarvationInv p s := by
    -- nothing was dropped yet, so nothing is owed
    have hnot : ∀ k, ¬ Owed p.prevFetchMode k s.d.log := by
      intro k
      simp [Owed, hlog, owed]
    refine FilterSound.starvationInv ⟨⟨?_, ?_⟩, ?_⟩ rfl
    · exact fun _ e howed => absurd howed (hnot _)
    · exact fun _ _ _ _ => hnot _
    · intro newer e middle e' older k h
      rw [hlog] at h
      cases newer <;> cases h
  have hinv := (serviceMachine p gpu).run_invariant
    (fun _ _ _ hI hG h => serviceStep_starvationInv hen hmode hI hG h) hstart hmeets hrun
  exact hinv.1

/-! ## Concrete runs -/

/-- Three batches in mode 1. The second one drops the fault on `0x1000` and keeps the one on
`0x3000`, so the fault on `0x1000` is cached when it comes back in the third. -/
def threeBatches : List Label :=
  let ring := ringOf [0x1000, 0x2000, 0x1000, 0x3000, 0x1000]
  .enter :: (batchLabels (ring 2) ++ batchLabels (ring 4) ++ batchLabels (ring 5))

theorem three_batches_never_starve :
    ∃ t, (serviceMachine skipParams smallGpu).run freshState threeBatches = some t ∧
      (t.d.log.any Event.isDropped) = true ∧ NoStarvation .coalescedBsearch t.d.log := by
  exact ⟨_, rfl, by decide +kernel,
    filter_never_starves skipParams smallGpu freshState _ threeBatches rfl (by decide) rfl
      (by decide) rfl⟩

/-- One batch with faults on `0x1000` and `0x2000`, then two calls that each find a single
repeated fault on `0x1000`. -/
def repeatedFault : List Label :=
  let ring := ringOf [0x1000, 0x2000, 0x1000, 0x1000]
  .enter :: (batchLabels (ring 2) ++ [.fetch (ring 3), .leave .ok, .enter, .fetch (ring 4)])

/-- A fetch that drops everything does not rebuild the table, so the next one drops the same
fault again. -/
theorem dropped_twice_without_rebuild :
    ∃ t, (serviceMachine skipParams smallGpu).run freshState repeatedFault = some t ∧
      skipParams.prevFetchPredictorEnable = true ∧ skipParams.predSkipEnable = true ∧
      skipParams.prevFetchMode = .coalescedBsearch ∧ ¬ NoStarvation .coalescedBsearch t.d.log := by
  exact ⟨_, rfl, rfl, rfl, rfl, by decide +kernel⟩

end FaultMesh
