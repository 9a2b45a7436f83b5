import FaultMesh.FetchSpec

/-!
# What leaves the filter alone

Replays, flushes, servicing and failed preprocessing touch neither the predictor nor the packets
in the fault cache, and they log neither drops nor rebuilds. `FilterFrame` states this once; the
properties of the filter then only look at fetches and rebuilds.
-/

namespace FaultMesh

open Function

/-- What the filter can see of a cached entry. -/
def FaultEntry.filterView (e : FaultEntry) : RawFault × Bool × Bool :=
  (e.toRawFault, e.filtered, e.predFetchSkip)

/-- The step from `d` to `d'` is invisible to the stale-fault filter. -/
structure FilterFrame (d d' : Driver) : Prop where
  predictor : d'.rf.predictor = d.rf.predictor
  numCached : d'.bc.numCachedFaults = d.bc.numCachedFaults
  views : ∀ i, (d'.bc.faultCache i).filterView = (d.bc.faultCache i).filterView
  log : ∃ evs, d'.log = evs ++ d.log ∧ ∀ e ∈ evs, e.isFetched = false ∧ e.isRebuilt = false

namespace FilterFrame

theorem refl (d : Driver) : FilterFrame d d := ⟨rfl, rfl, fun _ => rfl, [], rfl, by simp⟩

theorem trans {d₁ d₂ d₃ : Driver} (h : FilterFrame d₁ d₂) (h' : FilterFrame d₂ d₃) :
    FilterFrame d₁ d₃ := by
  obtain ⟨evs, hlog, hevs⟩ := h.log
  obtain ⟨evs', hlog', hevs'⟩ := h'.log
  refine ⟨h'.predictor.trans h.predictor, h'.numCached.trans h.numCached,
    fun i => (h'.views i).trans (h.views i), evs' ++ evs, by simp [hlog, hlog'], ?_⟩
  intro e he
  rcases List.mem_append.1 he with he | he
  · exact hevs' e he
  · exact hevs e he

theorem packets {d d' : Driver} (h : FilterFrame d d') (i : Nat) :
    (d'.bc.faultCache i).toRawFault = (d.bc.faultCache i).toRawFault :=
  congrArg Prod.fst (h.views i)

theorem of_eq {d d' : Driver} (hpr : d'.rf.predictor = d.rf.predictor)
    (hnum : d'.bc.numCachedFaults = d.bc.numCachedFaults)
    (hcache : d'.bc.faultCache = d.bc.faultCache) (hlog : d'.log = d.log) : FilterFrame d d' :=
  ⟨hpr, hnum, fun i => by rw [hcache], [], hlog, by simp⟩

end FilterFrame

theorem resetCounters_frame (d : Driver) : FilterFrame d (resetCounters d) :=
  .of_eq rfl rfl rfl rfl

theorem bumpBatchId_frame (d : Driver) : FilterFrame d (bumpBatchId d) :=
  .of_eq rfl rfl rfl rfl

theorem pushReplayOnGpu_frame (type : ReplayType) (push : CallStatus) (d : Driver) :
    FilterFrame d (pushReplayOnGpu type push d).1 := by
  unfold pushReplayOnGpu
  split
  · exact .refl d
  · refine ⟨rfl, ?_, fun i => ?_, [.replay type], rfl, by simp [Event.isFetched, Event.isRebuilt]⟩
    · dsimp only
      split <;> rfl
    · dsimp only
      split <;> rfl

theorem skipPending_frame (gpu : GpuConfig) (d : Driver) : FilterFrame d (skipPending gpu d) := by
  obtain ⟨slots, hlog⟩ := skipPending_log gpu d
  refine ⟨rfl, rfl, fun _ => rfl, _, hlog, ?_⟩
  intro e he
  obtain ⟨slot, -, rfl⟩ := List.mem_map.1 he
  exact ⟨rfl, rfl⟩

theorem faultBufferFlushLocked_frame (gpu : GpuConfig) (mode : FlushMode) (type : ReplayType)
    (a : FlushAnswer) (d : Driver) :
    FilterFrame d (faultBufferFlushLocked gpu mode type a d).1 := by
  unfold faultBufferFlushLocked
  split
  · exact .refl d
  · split
    · exact .refl d
    · refine FilterFrame.trans ?_ (pushReplayOnGpu_frame _ _ _)
      refine FilterFrame.trans ?_ (skipPending_frame _ _)
      exact .of_eq rfl rfl rfl rfl

theorem applyService_frame (gpu : GpuConfig) (mode : ServiceMode) (o : ServiceOutcome)
    (d : Driver) : FilterFrame d (applyService gpu mode o d) := by
  refine ⟨rfl, rfl, fun _ => rfl, _, rfl, ?_⟩
  intro e he
  obtain rfl := List.eq_of_mem_replicate he
  exact ⟨rfl, rfl⟩

theorem cancelFaultBatch_frame (gpu : GpuConfig) (flush : FlushAnswer) (d : Driver) :
    FilterFrame d (cancelFaultBatch gpu flush d) := by
  unfold cancelFaultBatch
  split
  · exact faultBufferFlushLocked_frame _ _ _ _ _
  · exact .refl d

/-! ## Preprocessing -/

theorem translateEntries_filterView {toVaSpace : RawFault → Translation} {previous : Option Nat}
    {is : List Nat} {cache : Nat → FaultEntry} (j : Nat) :
    ((translateEntries toVaSpace previous is cache).1 j).filterView = (cache j).filterView := by
  have hupdate : ∀ (cache : Nat → FaultEntry) (i : Nat) (va : Option VaSpaceId),
      (update cache i { cache i with vaSpace := va } j).filterView =
        (cache j).filterView := by
    intro cache i va
    by_cases hj : j = i
    · subst hj
      rw [update_self]
      rfl
    · rw [update_of_ne hj]
  induction is generalizing previous cache with
  | nil => rfl
  | cons i is ih =>
    unfold translateEntries
    split
    · rw [ih, hupdate]
    · split
      · rw [ih, hupdate]
      · rfl

theorem restartAfterFailedTranslation_frame (gpu : GpuConfig) (a : PreprocessAnswer)
    (failure : Translation) (d : Driver) :
    FilterFrame d (restartAfterFailedTranslation gpu a failure d).1 := by
  have hflush := faultBufferFlushLocked_frame gpu .updatePut .start a.flush d
  unfold restartAfterFailedTranslation
  split
  · exact .refl d
  · split
    · next hf => simpa [hf] using hflush
    · next hf => simpa [hf] using hflush

theorem preprocessFaultBatch_frame (p : Params) (gpu : GpuConfig)
    (toVaSpace : RawFault → Translation) (a : PreprocessAnswer) (d : Driver) :
    (FilterFrame d (preprocessFaultBatch p gpu toVaSpace a d).1 ∧
        (translateEntries toVaSpace none (instancePtrOrder d.bc) d.bc.faultCache).2.isSome) ∨
      ∃ d', FilterFrame d d' ∧ (preprocessFaultBatch p gpu toVaSpace a d) =
        (rebuildFromOrdered p d', .ok) := by
  unfold preprocessFaultBatch
  dsimp only
  have hviews := @translateEntries_filterView toVaSpace none (instancePtrOrder d.bc) d.bc.faultCache
  split
  · next cache failure hcache =>
      rw [hcache] at hviews
      refine .inl ⟨?_, by simp [hcache]⟩
      refine FilterFrame.trans ?_ (restartAfterFailedTranslation_frame _ _ _ _)
      exact ⟨rfl, rfl, hviews, [], rfl, by simp⟩
  · next cache hcache =>
      rw [hcache] at hviews
      exact .inr ⟨{ d with bc := orderBatch d.bc (instancePtrOrder d.bc) cache },
        ⟨rfl, rfl, hviews, [], rfl, by simp⟩, rfl⟩

theorem translateEntries_ok {toVaSpace : RawFault → Translation} {previous : Option Nat}
    {is : List Nat} {cache : Nat → FaultEntry}
    (h : ∀ i ∈ is, ∃ va, toVaSpace (cache i).toRawFault = .vaSpace va) :
    (translateEntries toVaSpace previous is cache).2 = none := by
  induction is generalizing previous cache with
  | nil => rfl
  | cons i is ih =>
    have hkeep : ∀ va, ∀ j ∈ is, ∃ va', toVaSpace
        (update cache i { cache i with vaSpace := va } j).toRawFault = .vaSpace va' := by
      intro va j hj
      by_cases hji : j = i
      · subst hji
        simpa using h j List.mem_cons_self
      · rw [update_of_ne hji]
        exact h j (List.mem_cons_of_mem _ hj)
    unfold translateEntries
    split
    · exact ih (hkeep _)
    · obtain ⟨va, hva⟩ := h i List.mem_cons_self
      rw [hva]
      exact ih (hkeep _)

theorem mem_instancePtrOrder {bc : BatchContext} {i : Nat} (h : i ∈ instancePtrOrder bc) :
    i < bc.numCachedFaults := by
  have hun : i ∈ unfilteredIndices bc := by
    unfold instancePtrOrder at h
    split at h
    · exact h
    · exact mem_sortBy.1 h
  exact List.mem_range.1 (List.mem_filter.1 hun).1

theorem preprocessFaultBatch_registered (p : Params) (gpu : GpuConfig)
    {toVaSpace : RawFault → Translation} (a : PreprocessAnswer) {d : Driver}
    (h : ∀ i < d.bc.numCachedFaults,
      (toVaSpace (d.bc.faultCache i).toRawFault).isVaSpace = true) :
    ∃ cache, (∀ j, (cache j).filterView = (d.bc.faultCache j).filterView) ∧
      preprocessFaultBatch p gpu toVaSpace a d =
        (rebuildFromOrdered p { d with bc := orderBatch d.bc (instancePtrOrder d.bc) cache }, .ok) := by
  have hviews := @translateEntries_filterView toVaSpace none (instancePtrOrder d.bc) d.bc.faultCache
  have hok : (translateEntries toVaSpace none (instancePtrOrder d.bc) d.bc.faultCache).2 = none :=
    translateEntries_ok fun i hi =>
      Translation.exists_of_isVaSpace (h i (mem_instancePtrOrder hi))
  rcases htr : translateEntries toVaSpace none (instancePtrOrder d.bc) d.bc.faultCache with ⟨cache, fail⟩
  rw [htr] at hok hviews
  obtain rfl : fail = none := hok
  exact ⟨cache, hviews, by simp [preprocessFaultBatch, htr]⟩

/-! ## The cancel path -/

/-- A property of the driver that invisible steps, fetches of mode `ALL` and preprocessing keep.
These are all the cancel algorithms do to the filter. -/
structure CancelClosed (p : Params) (gpu : GpuConfig) (toVaSpace : RawFault → Translation)
    (I : Driver → Prop) : Prop where
  frame : ∀ {d d'}, FilterFrame d d' → I d → I d'
  fetchAll : ∀ hal d, I d → I (fetchFaultBufferEntries p gpu hal .all d).1
  preprocess : ∀ a d, I d → I (preprocessFaultBatch p gpu toVaSpace a d).1

namespace CancelClosed

variable {p : Params} {gpu : GpuConfig} {toVaSpace : RawFault → Translation} {I : Driver → Prop}
  {d d' : Driver}

section

variable (hC : CancelClosed p gpu toVaSpace I)
include hC

theorem refetchForCancel (a : CancelVaAnswer) (h : I d) :
    I (FaultMesh.refetchForCancel p gpu toVaSpace a d).1 := by
  have hflush := hC.frame (faultBufferFlushLocked_frame gpu .waitUpdatePut .start a.firstFlush d) h
  unfold FaultMesh.refetchForCancel
  split
  · next hf => simpa [hf] using hflush
  · next d₁ hf =>
      have h₁ : I d₁ := by simpa [hf] using hflush
      have hfetch := hC.fetchAll a.hal _ (hC.frame (resetCounters_frame d₁) h₁)
      split_ifs
      · exact h₁
      · exact h₁
      · exact h₁
      · split
        · next hf => simpa [hf] using hfetch
        · next d₂ hf =>
            have h₂ : I d₂ := by simpa [hf] using hfetch
            have hpre := hC.preprocess a.preprocess _ (hC.frame (bumpBatchId_frame d₂) h₂)
            split_ifs
            · exact h₂
            · split <;> next hp => simpa [hp] using hpre

theorem serviceFaultBatchForCancel (a : CancelVaAnswer) (h : I d) :
    I (FaultMesh.serviceFaultBatchForCancel p gpu toVaSpace a d).1 := by
  have hre := hC.refetchForCancel a h
  unfold FaultMesh.serviceFaultBatchForCancel
  split
  · next hr =>
      rw [hr] at hre
      exact hC.frame (faultBufferFlushLocked_frame _ _ _ _ _) hre
  · next hr => simpa [hr] using hre

theorem cancelTlbRound (r : CancelTlbRound) (h : I d) :
    I (FaultMesh.cancelTlbRound p gpu toVaSpace r d).1 := by
  have hflush := hC.frame (faultBufferFlushLocked_frame gpu .updatePut .startAckAll r.flush d) h
  unfold FaultMesh.cancelTlbRound
  split
  · next hf => simpa [hf] using hflush
  · next d₁ hf =>
      have h₁ : I d₁ := by simpa [hf] using hflush
      have hfetch := hC.fetchAll r.hal _ (hC.frame (resetCounters_frame d₁) h₁)
      split
      · exact h₁
      · split
        · next hf => simpa [hf] using hfetch
        · next d₂ hf =>
            have h₂ : I d₂ := by simpa [hf] using hfetch
            have h₃ : I (bumpBatchId d₂) := hC.frame (bumpBatchId_frame d₂) h₂
            have hpre := hC.preprocess r.preprocess _ h₃
            dsimp only
            split
            · exact h₃
            · split
              · next hp => simpa [hp] using hpre
              · next hp => simpa [hp] using hpre
              · next d₄ hp =>
                  have h₄ : I d₄ := by simpa [hp] using hpre
                  -- recording the fatal VA space is invisible to the filter
                  have hrec : FilterFrame d₄
                      { d₄ with bc := { d₄.bc with fatalVaSpace := r.fatalVaSpace } } :=
                    .of_eq rfl rfl rfl rfl
                  split <;> exact hC.frame hrec h₄

theorem cancelTlbRounds {rs : List CancelTlbRound} {status : CallStatus} (h : I d)
    (hrounds : FaultMesh.cancelTlbRounds p gpu toVaSpace rs d = some (d', status)) : I d' := by
  induction rs generalizing d with
  | nil => cases hrounds
  | cons r rs ih =>
    have hround := hC.cancelTlbRound r h
    unfold FaultMesh.cancelTlbRounds at hrounds
    split at hrounds
    · next hr =>
        rw [hr] at hround
        obtain ⟨rfl, -⟩ := Prod.mk.inj (Option.some.inj hrounds)
        exact hround
    · next hr =>
        rw [hr] at hround
        exact ih hround hrounds

/-- **Rule for the cancel path**: whatever its parts keep, the whole keeps. -/
theorem cancelFaultsPrecise {a : CancelAnswer} {status : CallStatus} (h : I d)
    (hcancel : FaultMesh.cancelFaultsPrecise p gpu toVaSpace a d = some (d', status)) : I d' := by
  unfold FaultMesh.cancelFaultsPrecise at hcancel
  split at hcancel
  -- by VA
  · have hva := hC.serviceFaultBatchForCancel a.va h
    rw [Option.some.inj hcancel] at hva
    exact hva
  -- round by round, with a replay at the end
  · obtain ⟨⟨d₁, status₁⟩, hrounds, hfin⟩ := Option.map_eq_some_iff.1 hcancel
    have h₁ := hC.cancelTlbRounds h hrounds
    have hpush := hC.frame (pushReplayOnGpu_frame .start a.push d₁) h₁
    cases status₁ with
    | err code =>
      obtain ⟨rfl, -⟩ := Prod.mk.inj hfin
      exact h₁
    | ok =>
      simp only [finishCancelTlb] at hfin
      split at hfin <;> next hp =>
        obtain ⟨rfl, -⟩ := Prod.mk.inj hfin
        simpa [hp] using hpush

end

end CancelClosed

end FaultMesh
