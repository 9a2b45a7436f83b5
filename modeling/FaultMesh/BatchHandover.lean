import FaultMesh.CoalescingAccount
import FaultMesh.PredictorHistory
import FaultMesh.Grouping

/-!
# From a fetch to servicing

The models of servicing begin with a batch that is translated, sorted and aligned (`SortedBatch`).
A fetch and preprocessing leave such a batch behind, with one place in `ordered_fault_cache` for each
coalesced fault.
-/

namespace FaultMesh

open Function

/-- The batch that `service_fault_batch` is called with. -/
def BatchContext.serviceBatch (bc : BatchContext) : ServiceBatch where
  entries i := bc.faultCache (bc.orderedFaultCache.getD i 0)
  numCoalescedFaults := bc.numCoalescedFaults
  utlbHasFatalFaults u := (bc.utlbs u).hasFatalFaults
  numInvalidPrefetchFaults := bc.numInvalidPrefetchFaults
  numDuplicateFaults := bc.numDuplicateFaults
  numStaleFaults := bc.numStaleFaults
  fatalVaSpace := bc.fatalVaSpace
  hasThrottledFaults := bc.hasThrottledFaults

theorem translateEntries_isSome {toVaSpace : RawFault → Translation} {previous : Option Nat}
    {is : List Nat} {cache : Nat → FaultEntry}
    (hok : (translateEntries toVaSpace previous is cache).2 = none)
    (hprevious : ∀ j, previous = some j → (cache j).vaSpace.isSome = true) {i : Nat}
    (hi : i ∈ is ∨ (cache i).vaSpace.isSome = true) :
    ((translateEntries toVaSpace previous is cache).1 i).vaSpace.isSome = true := by
  induction is generalizing previous cache with
  | nil => simpa [translateEntries] using hi
  | cons j is ih =>
    -- both branches store a VA space in `j` and go on with it as the previous entry
    have hstep : ∀ va : Option VaSpaceId, va.isSome = true →
        (translateEntries toVaSpace (some j) is (update cache j { cache j with vaSpace := va })).2 =
          none →
        ((translateEntries toVaSpace (some j) is (update cache j { cache j with vaSpace := va })).1
          i).vaSpace.isSome = true := by
      intro va hva hok
      apply ih hok
      · rintro _ ⟨⟩
        simpa using hva
      · by_cases hij : i = j
        · subst hij
          exact .inr (by simpa using hva)
        · rw [update_of_ne hij]
          exact hi.imp_left fun hmem => (List.mem_cons.1 hmem).resolve_left hij
    unfold translateEntries at hok ⊢
    cases hcopied : copiedVaSpace cache j previous with
    | some va =>
      rw [hcopied] at hok
      refine hstep va ?_ hok
      cases previous with
      | none => cases hcopied
      | some k =>
        simp only [copiedVaSpace] at hcopied
        split at hcopied
        · cases hcopied
          exact hprevious k rfl
        · cases hcopied
    | none =>
      rw [hcopied] at hok
      dsimp only at hok ⊢
      split at hok
      next va _ => exact hstep (some va) rfl hok
      next => cases hok

theorem fetch_aligned (p : Params) (gpu : GpuConfig) (hal : Hal) (mode : FetchMode) (d : Driver)
    {i : Nat} (hi : i < (fetchFaultBufferEntries p gpu hal mode d).1.bc.numCachedFaults) :
    ((fetchFaultBufferEntries p gpu hal mode d).1.bc.faultCache i).faultAddress % pageSize = 0 := by
  have hloop : ∀ i < (fetchedState p gpu hal mode d).1.faultIndex,
      ((fetchedState p gpu hal mode d).1.bc.faultCache i).faultAddress % pageSize = 0 := by
    apply fetchLoop_invariant (I := fun st => ∀ i < st.faultIndex,
      (st.bc.faultCache i).faultAddress % pageSize = 0)
    · intro st hst _ _ _ i hi
      have hstored : ∀ i < st.faultIndex + 1, ((storeParsed st.bc st.faultIndex
          (hal.parse st.get).2).faultCache i).faultAddress % pageSize = 0 := by
        intro i hi
        by_cases hnew : i = st.faultIndex
        · subst hnew
          simp only [storeParsed, update_self, parsedEntry, pageAlignDown]
          exact Nat.mod_eq_zero_of_dvd (Nat.dvd_sub_mod _)
        · simp only [storeParsed, update_of_ne hnew]
          exact hst i (Nat.lt_of_le_of_ne (Nat.le_of_lt_succ hi) hnew)
      rw [fetchEntry_faultIndex] at hi
      rw [fetchEntry_bc]
      split at hi
      next hdrop =>
        rw [if_pos hdrop]
        exact hstored i (Nat.lt_succ_of_lt hi)
      next hkeep =>
        rw [if_neg hkeep]
        obtain ⟨_, _, _, hmarks⟩ := keepEntry_marks (fetchCtx p gpu mode d.rf (fetchPut d.rf hal))
          (storeParsed st.bc st.faultIndex (hal.parse st.get).2) st.faultIndex i
        rw [hmarks]
        exact hstored i hi
    · exact fun i hi => absurd hi i.not_lt_zero
  exact hloop i hi

theorem length_unfilteredIndices (bc : BatchContext) :
    (unfilteredIndices bc).length = bc.unfiltered.card := by
  have hnodup : (unfilteredIndices bc).Nodup := List.nodup_range.filter _
  rw [← List.toFinset_card_of_nodup hnodup]
  congr 1
  ext i
  simp [unfilteredIndices, BatchContext.unfiltered]

theorem instancePtrOrder_perm (bc : BatchContext) :
    (instancePtrOrder bc).Perm (unfilteredIndices bc) := by
  unfold instancePtrOrder
  split
  · rfl
  · exact sortBy_perm _ _

theorem place_le {a b : FaultEntry} {sa sb : VaSpaceId} (ha : a.vaSpace = some sa)
    (hb : b.vaSpace = some sb) (hle : (cmpVaSpaceAddressAccessType a b).isLE = true) :
    sa < sb ∨ sa = sb ∧ a.faultAddress ≤ b.faultAddress := by
  simp only [cmpVaSpaceAddressAccessType, ha, hb, cmpVaSpace, Ordering.isLE_then_iff_and] at hle
  rcases Nat.lt_or_eq_of_le (Nat.isLE_compare.1 hle.1) with hlt | heq
  · exact .inl hlt
  · subst heq
    have haddr := hle.2.resolve_left (by simp)
    exact .inr ⟨rfl, Nat.isLE_compare.1 haddr.1⟩

theorem mem_orderedFaultCache {bc : BatchContext}
    (hlength : bc.orderedFaultCache.length = bc.numCoalescedFaults) {i : Nat}
    (hi : i < bc.numCoalescedFaults) :
    bc.orderedFaultCache.getD i 0 ∈ bc.orderedFaultCache := by
  rw [← hlength] at hi
  rw [List.getD_eq_getElem _ _ hi]
  exact List.getElem_mem hi

theorem serviceBatch_sorted {bc : BatchContext}
    (hlength : bc.orderedFaultCache.length = bc.numCoalescedFaults)
    (hordered : Ordered bc.orderedEntries)
    (hspace : ∀ k ∈ bc.orderedFaultCache, (bc.faultCache k).vaSpace.isSome = true) :
    ∃ space : Nat → VaSpaceId,
      (∀ i < bc.numCoalescedFaults, (bc.serviceBatch.entries i).vaSpace = some (space i)) ∧
      ∀ i j, i ≤ j → j < bc.numCoalescedFaults → space i < space j ∨
        space i = space j ∧
          (bc.serviceBatch.entries i).faultAddress ≤ (bc.serviceBatch.entries j).faultAddress := by
  have hva : ∀ i < bc.numCoalescedFaults, (bc.serviceBatch.entries i).vaSpace =
      some ((bc.serviceBatch.entries i).vaSpace.getD 0) := by
    intro i hi
    obtain ⟨va, hva⟩ := Option.isSome_iff_exists.1 (hspace _ (mem_orderedFaultCache hlength hi))
    simp only [BatchContext.serviceBatch, hva, Option.getD_some]
  refine ⟨_, hva, fun i j hij hj => ?_⟩
  rcases Nat.lt_or_eq_of_le hij with hlt | rfl
  · refine place_le (hva i (hlt.trans hj)) (hva j hj) ?_
    rw [← hlength] at hj
    simp only [BatchContext.serviceBatch, List.getD_eq_getElem _ _ hj,
      List.getD_eq_getElem _ _ (hlt.trans hj)]
    exact List.pairwise_iff_getElem.1 (List.pairwise_map.1 hordered) i j (hlt.trans hj) hj hlt
  · exact .inr ⟨rfl, le_rfl⟩

/-- A fetch that finds the uTLB counters cleared, followed by preprocessing: every coalesced fault has
its place, with a VA space and an aligned address, and the places are sorted by VA space and address.
The uTLB counters are ready for the next fetch. -/
theorem handed_over_batch_sorted {p : Params} {gpu : GpuConfig} {hal : Hal} {mode : FetchMode}
    {toVaSpace : RawFault → Translation} {a : PreprocessAnswer} {d d₁ d₂ : Driver}
    (hclear : UtlbsClear d.bc) (hfetch : fetchFaultBufferEntries p gpu hal mode d = (d₁, .ok))
    (hpre : preprocessFaultBatch p gpu toVaSpace a (bumpBatchId d₁) = (d₂, .ok)) :
    let b := d₂.bc.serviceBatch
    d₂.bc.orderedFaultCache.Perm (unfilteredIndices d₁.bc) ∧
      d₂.bc.orderedFaultCache.length = b.numCoalescedFaults ∧
      (∃ space : Nat → VaSpaceId,
        (∀ i < b.numCoalescedFaults, (b.entries i).vaSpace = some (space i)) ∧
        ∀ i j, i ≤ j → j < b.numCoalescedFaults → space i < space j ∨
          space i = space j ∧ (b.entries i).faultAddress ≤ (b.entries j).faultAddress) ∧
      (∀ i < b.numCoalescedFaults, (b.entries i).faultAddress % pageSize = 0) ∧
      UtlbsClear d₂.bc := by
  obtain ⟨cache, hcache, rfl⟩ := preprocessFaultBatch_ok hpre
  rw [rebuildFromOrdered_bc]
  obtain ⟨bc, hbc⟩ : ∃ bc, orderBatch (bumpBatchId d₁).bc (instancePtrOrder (bumpBatchId d₁).bc)
    cache = bc := ⟨_, rfl⟩
  have hd₁ : d₁ = (fetchFaultBufferEntries p gpu hal mode d).1 := by rw [hfetch]
  have horder : bc.orderedFaultCache.Perm (instancePtrOrder (bumpBatchId d₁).bc) := by
    rw [← hbc]
    exact sortBy_perm _ _
  have hperm : bc.orderedFaultCache.Perm (unfilteredIndices d₁.bc) :=
    horder.trans (instancePtrOrder_perm _)
  have hlength : bc.orderedFaultCache.length = bc.numCoalescedFaults := by
    obtain ⟨htracks, hsize, hcount⟩ := fetch_tracks p gpu hal mode hclear
    rw [← hd₁] at htracks hsize hcount
    rw [hperm.length_eq, length_unfilteredIndices, htracks.unfiltered_eq hsize, Groups.card_reps,
      ← hcount, ← hbc]
    rfl
  have hspace : ∀ k ∈ bc.orderedFaultCache, (bc.faultCache k).vaSpace.isSome = true := by
    intro k hk
    have hok : (translateEntries toVaSpace none (instancePtrOrder (bumpBatchId d₁).bc)
        (bumpBatchId d₁).bc.faultCache).2 = none := congrArg Prod.snd hcache
    have hsome := translateEntries_isSome hok (fun _ h => by cases h) (.inl (horder.mem_iff.1 hk))
    rw [hcache] at hsome
    rwa [← hbc]
  -- translation leaves the packets as they were fetched
  have haligned : ∀ k ∈ bc.orderedFaultCache, (bc.faultCache k).faultAddress % pageSize = 0 := by
    intro k hk
    have hcached : k < d₁.bc.numCachedFaults := mem_instancePtrOrder (horder.mem_iff.1 hk)
    have hview : (cache k).filterView = ((bumpBatchId d₁).bc.faultCache k).filterView := by
      have hkept : ((translateEntries toVaSpace none (instancePtrOrder (bumpBatchId d₁).bc)
          (bumpBatchId d₁).bc.faultCache).1 k).filterView = _ := translateEntries_filterView k
      rwa [hcache] at hkept
    have haddress : (bc.faultCache k).faultAddress = (d₁.bc.faultCache k).faultAddress := by
      rw [← hbc]
      exact congrArg (fun view => view.1.faultAddress) hview
    rw [haddress]
    rw [hd₁] at hcached ⊢
    exact fetch_aligned p gpu hal mode d hcached
  dsimp only
  rw [hbc]
  refine ⟨hperm, hlength, serviceBatch_sorted hlength ?_ hspace,
    fun i hi => haligned _ (mem_orderedFaultCache hlength hi), ?_⟩
  · rw [← hbc]
    exact ordered_orderBatch _ _ _
  · have hcleared := utlbsClear_fetch p gpu hal mode hclear
    rw [← hd₁] at hcleared
    rwa [← hbc]

/-- Two faults in descending order change places. -/
theorem descending_faults_handed_over :
    let d₁ := (fetchFaultBufferEntries {} smallGpu (ringOf [0x2000, 0x1000] 2) .batchReady
      freshDriver).1
    let d₂ := (preprocessFaultBatch {} smallGpu (fun _ => .vaSpace 7) {} (bumpBatchId d₁)).1
    d₂.bc.orderedFaultCache = [1, 0] ∧ d₂.bc.orderedFaultCache.Perm (unfilteredIndices d₁.bc) :=
  ⟨by decide +kernel, (handed_over_batch_sorted utlbsClear_freshDriver (Prod.ext rfl (by decide +kernel))
    (Prod.ext rfl (by decide +kernel))).1⟩

end FaultMesh
