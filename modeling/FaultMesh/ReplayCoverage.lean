import FaultMesh.FetchSpec

/-!
# Every fetched fault is replayed

Moving the get pointer past an entry makes the driver responsible for it: the GPU retries the
access only when a replay is pushed. An entry that was cached is replayed with its batch. An
entry dropped by the stale-fault filter relies on whichever replay comes next, and after a fetch
in which *everything* was dropped there need not be one: the loop is left through the exit for an
empty buffer, and the replay after the loop is only pushed if no replay was counted before.
-/

namespace FaultMesh

/-! ## Fetches and replays in the log -/

/-- Every fetched entry is followed by a replay; later events stand further left. -/
def FetchesReplayed (log : List Event) : Prop :=
  ∀ newer e older, log = newer ++ e :: older → e.isFetched = true → ∃ r ∈ newer, r.isReplay = true

/-- Some fetched entry is not followed by a replay. -/
def Unreplayed (log : List Event) : Prop :=
  ∃ newer e older, log = newer ++ e :: older ∧ e.isFetched = true ∧
    ∀ r ∈ newer, r.isReplay = false

theorem not_fetchesReplayed_iff {log : List Event} : ¬ FetchesReplayed log ↔ Unreplayed log := by
  unfold FetchesReplayed Unreplayed
  push Not
  simp only [Bool.not_eq_true]

theorem fetchesReplayed_of_replay {type : ReplayType} (l : List Event) :
    FetchesReplayed (.replay type :: l) := by
  intro newer e older h he
  cases newer with
  | nil =>
    obtain ⟨rfl, -⟩ := List.cons.inj h
    simp [Event.isFetched] at he
  | cons x newer =>
    obtain ⟨rfl, -⟩ := List.cons.inj h
    exact ⟨_, List.mem_cons_self, rfl⟩

theorem FetchesReplayed.append {evs log : List Event} (h : FetchesReplayed log)
    (hq : ∀ e ∈ evs, e.isFetched = false) : FetchesReplayed (evs ++ log) := by
  induction evs with
  | nil => exact h
  | cons x evs ih =>
    have ih := ih fun e he => hq e (List.mem_cons_of_mem _ he)
    intro newer e older heq he
    cases newer with
    | nil =>
      obtain ⟨rfl, -⟩ := List.cons.inj heq
      rw [hq _ List.mem_cons_self] at he
      cases he
    | cons y newer =>
      obtain ⟨r, hr, hrep⟩ := ih newer e older (List.cons.inj heq).2 he
      exact ⟨r, List.mem_cons_of_mem _ hr, hrep⟩

theorem Unreplayed.append {evs log : List Event} (h : Unreplayed log)
    (hq : ∀ e ∈ evs, e.isReplay = false) : Unreplayed (evs ++ log) := by
  obtain ⟨newer, e, older, rfl, he, hn⟩ := h
  refine ⟨evs ++ newer, e, older, (List.append_assoc ..).symm, he, ?_⟩
  intro r hr
  rcases List.mem_append.1 hr with hr | hr
  · exact hq r hr
  · exact hn r hr

theorem Unreplayed.of_fetched {evs : List Event} (log : List Event) (hne : evs ≠ [])
    (hf : ∀ e ∈ evs, e.isFetched = true) : Unreplayed (evs ++ log) := by
  cases evs with
  | nil => exact absurd rfl hne
  | cons e evs => exact ⟨[], e, evs ++ log, rfl, hf e List.mem_cons_self, by simp⟩

/-- Executable form: scan back to the newest replay. -/
def fetchesReplayed : List Event → Bool
  | [] => true
  | e :: log => e.isReplay || (!e.isFetched && fetchesReplayed log)

theorem fetchesReplayed_iff {log : List Event} :
    fetchesReplayed log = true ↔ FetchesReplayed log := by
  induction log with
  | nil => simp [fetchesReplayed, FetchesReplayed]
  | cons x log ih =>
    cases hx : x.isReplay with
    | true =>
      cases x <;> simp [Event.isReplay] at hx
      exact iff_of_true (by simp [fetchesReplayed, Event.isReplay]) (fetchesReplayed_of_replay log)
    | false =>
      cases hf : x.isFetched with
      | true =>
        refine iff_of_false (by simp [fetchesReplayed, hx, hf]) ?_
        rw [not_fetchesReplayed_iff]
        exact ⟨[], x, log, rfl, hf, by simp⟩
      | false =>
        simp only [fetchesReplayed, hx, hf, Bool.false_or, Bool.not_false, Bool.true_and, ih]
        constructor
        · intro h
          show FetchesReplayed ([x] ++ log)
          exact h.append (by simpa using hf)
        · intro h newer e older heq he
          obtain ⟨r, hr, hrep⟩ := h (x :: newer) e older (by rw [heq]; rfl) he
          rcases List.mem_cons.1 hr with rfl | hr
          · rw [hx] at hrep
            cases hrep
          · exact ⟨r, hr, hrep⟩

instance (log : List Event) : Decidable (FetchesReplayed log) :=
  decidable_of_iff _ fetchesReplayed_iff

/-! ## The log of a fetch -/

section Fetch

variable {p : Params} {gpu : GpuConfig} {hal : Hal} {mode : FetchMode} {d : Driver}

theorem fetch_cached_unreplayed
    (h : (fetchFaultBufferEntries p gpu hal mode d).1.bc.numCachedFaults ≠ 0) :
    Unreplayed (fetchFaultBufferEntries p gpu hal mode d).1.log := by
  obtain ⟨evs, hspec⟩ := fetchedState_spec p gpu hal mode d
  obtain ⟨top, hlog, htop⟩ := hspec.call_log
  rw [hlog]
  exact (Unreplayed.of_fetched _ (fun hevs => h (hspec.idle hevs)) hspec.fetched).append
    fun e he => Event.isReplay_of_isRebuilt (htop e he)

/-- The fetch of a window that the filter drops entirely: it succeeds, caches nothing, and leaves
the dropped entries waiting for a replay. -/
theorem fetch_windowDropped (h : WindowDropped p gpu hal d.rf) :
    (fetchFaultBufferEntries p gpu hal .batchReady d).2 = .ok ∧
      (fetchFaultBufferEntries p gpu hal .batchReady d).1.bc.numCachedFaults = 0 ∧
      Unreplayed (fetchFaultBufferEntries p gpu hal .batchReady d).1.log := by
  obtain ⟨hok, hnone⟩ := fetchedState_of_windowDropped h
  refine ⟨hok, hnone, ?_⟩
  obtain ⟨evs, hspec⟩ := fetchedState_spec p gpu hal .batchReady d
  obtain ⟨top, hlog, htop⟩ := hspec.call_log
  rw [hlog]
  exact (Unreplayed.of_fetched _ (hspec.ne_nil_of_windowDropped h) hspec.fetched).append
    fun e he => Event.isReplay_of_isRebuilt (htop e he)

theorem fetch_empty_replayed (hw : ¬ WindowDropped p gpu hal d.rf)
    (hok : (fetchFaultBufferEntries p gpu hal .batchReady d).2 = .ok)
    (hc : (fetchFaultBufferEntries p gpu hal .batchReady d).1.bc.numCachedFaults = 0)
    (hlog : FetchesReplayed d.log) :
    FetchesReplayed (fetchFaultBufferEntries p gpu hal .batchReady d).1.log := by
  obtain ⟨evs, hspec⟩ := fetchedState_spec p gpu hal .batchReady d
  obtain ⟨top, htlog, htop⟩ := hspec.call_log
  rw [htlog, hspec.eq_nil_of_pending (pending_eq_zero hw hok hc)]
  refine FetchesReplayed.append ?_ fun e he => Event.isFetched_of_isRebuilt (htop e he)
  show FetchesReplayed ([.fetchBegin] ++ d.log)
  exact hlog.append (by simp [Event.isFetched])

end Fetch

/-! ## The log of a cancel -/

theorem cancelFaultsPrecise_ok {p : Params} {gpu : GpuConfig} {toVaSpace : RawFault → Translation}
    {a : CancelAnswer} {d d' : Driver}
    (h : cancelFaultsPrecise p gpu toVaSpace a d = some (d', .ok)) :
    ∃ type l, d'.log = .replay type :: l := by
  unfold cancelFaultsPrecise at h
  split at h
  -- by VA: the last flush replays
  · rw [Option.some.injEq] at h
    unfold serviceFaultBatchForCancel at h
    split at h
    · exact ⟨_, faultBufferFlushLocked_ok h⟩
    · simp at h
  -- by uTLB: the push at the end replays
  · obtain ⟨⟨e, status⟩, -, hfin⟩ := Option.map_eq_some_iff.1 h
    cases status with
    | err code => simp [finishCancelTlb] at hfin
    | ok =>
      simp only [finishCancelTlb] at hfin
      split at hfin
      · next hpush =>
          obtain ⟨rfl, -⟩ := Prod.mk.inj hfin
          exact ⟨_, _, pushReplayOnGpu_ok hpush⟩
      · simp at hfin

/-- Whether the response to a global error pushes a replay: only the cancel by VA flushes. -/
def cancelReplays (gpu : GpuConfig) (flush : FlushAnswer) : Bool :=
  gpu.faultCancelVaSupported && flush.hwFlush = .ok && flush.push = .ok

theorem cancelFaultBatch_replays {gpu : GpuConfig} {flush : FlushAnswer} {d : Driver}
    (h : cancelReplays gpu flush = true) :
    ∃ l, (cancelFaultBatch gpu flush d).log = .replay .start :: l := by
  simp only [cancelReplays, Bool.and_eq_true, decide_eq_true_eq] at h
  obtain ⟨⟨hva, hhw⟩, hpush⟩ := h
  simp [cancelFaultBatch, faultBufferFlushLocked, pushReplayOnGpu, hva, hhw, hpush]

theorem cancelFaultBatch_silent {gpu : GpuConfig} {flush : FlushAnswer} {d : Driver}
    (h : cancelReplays gpu flush = false) :
    ∃ evs, (cancelFaultBatch gpu flush d).log = evs ++ d.log ∧ ∀ e ∈ evs, e.isReplay = false := by
  unfold cancelFaultBatch
  split
  · next hva =>
      simp only [cancelReplays, hva, Bool.true_and, Bool.and_eq_false_iff,
        decide_eq_false_iff_not] at h
      by_cases hhw : flush.hwFlush = .ok
      -- the pending entries are skipped, then the push fails
      · have hpush : flush.push ≠ .ok := h.resolve_left (not_not.2 hhw)
        obtain ⟨slots, hlog⟩ := skipPending_log gpu
          { d with rf := { d.rf with cachedPut := flush.readPut } }
        refine ⟨slots.map .flushed, ?_, ?_⟩
        · simpa [faultBufferFlushLocked, pushReplayOnGpu, hhw, hpush] using hlog
        · intro e he
          obtain ⟨slot, -, rfl⟩ := List.mem_map.1 he
          rfl
      · exact ⟨[], by simp [faultBufferFlushLocked, hhw], by simp⟩
  · exact ⟨[], rfl, by simp⟩

/-! ## The invariant of the loop -/

/-- The two situations in which a call can end with an unreplayed entry are excluded: a replay
was counted and then a fetch drops its whole window; or a replay was counted, servicing asks for
more processing (which the loop takes for an error and later for success), and the cancel in
between does not replay. -/
def ReplayGuard (p : Params) (gpu : GpuConfig) (s : ServiceState) : Label → Prop
  | .fetch hal =>
    s.vars.limitReached p = false → s.vars.numReplays ≠ 0 → ¬ WindowDropped p gpu hal s.d.rf
  | .endBatch a =>
    s.vars.status = .warnMoreProcessingRequired → s.vars.numReplays ≠ 0 →
      cancelReplays gpu a.cancelFlush = true
  | _ => True

instance (p : Params) (gpu : GpuConfig) (s : ServiceState) :
    ∀ i, Decidable (ReplayGuard p gpu s i)
  | .fetch _ => inferInstanceAs (Decidable (_ → _ → _))
  | .endBatch _ => inferInstanceAs (Decidable (_ → _ → _))
  | .enter => isTrue trivial
  | .preprocess _ => isTrue trivial
  | .service _ => isTrue trivial
  | .leave _ => isTrue trivial
  | .rebind _ => isTrue trivial

/-- A status the function does not report as an error at its end. -/
def Quiet (status : NvStatus) : Prop := status = .ok ∨ status = .warnMoreProcessingRequired

/-- What holds at each point of the loop: at its top every fetched entry has been replayed, in
the middle of a batch some entry is waiting for a replay. -/
def ReplayInv (s : ServiceState) : Prop :=
  match s.pc with
  | .idle r => r = .ok → FetchesReplayed s.d.log
  | .loopTop => FetchesReplayed s.d.log
  | .fetched => Unreplayed s.d.log
  | .preprocessed => Unreplayed s.d.log
  | .serviced => Unreplayed s.d.log
  | .leaving => Quiet s.vars.status → s.vars.numReplays ≠ 0 → FetchesReplayed s.d.log

theorem not_quiet_errOther (code : Nat) : ¬ Quiet (.errOther code) := by
  simp [Quiet]

theorem finalStatus_eq_ok {status : NvStatus} : finalStatus status = .ok ↔ Quiet status := by
  unfold finalStatus Quiet
  split <;> simp_all

section Steps

variable {p : Params} {gpu : GpuConfig} {s t : ServiceState}

theorem fetchBatch_inv {hal : Hal} (hpc : s.pc = .loopTop) (hI : ReplayInv s)
    (hG : ReplayGuard p gpu s (.fetch hal)) : ReplayInv (fetchBatch p gpu hal s) := by
  have htop : FetchesReplayed s.d.log := by simpa [ReplayInv, hpc] using hI
  unfold fetchBatch
  split
  · exact fun _ _ => htop
  · next hlim =>
      have hlim : s.vars.limitReached p = false := by simpa using hlim
      split
      · next d hf =>
          have hd : d = (fetchFaultBufferEntries p gpu hal .batchReady (resetCounters s.d)).1 := by
            rw [hf]
          have hok : (fetchFaultBufferEntries p gpu hal .batchReady (resetCounters s.d)).2 = .ok := by
            rw [hf]
          split
          · next hc =>
              intro _ hne
              rw [hd] at hc ⊢
              exact fetch_empty_replayed (hG hlim hne) hok hc htop
          · next hc =>
              rw [hd] at hc ⊢
              exact fetch_cached_unreplayed hc
      · exact fun hq => absurd hq (not_quiet_errOther _)

theorem preprocessBatch_inv {a : PreprocessAnswer} (hpc : s.pc = .fetched) (hI : ReplayInv s) :
    ReplayInv (preprocessBatch p gpu a s) := by
  have hopen : Unreplayed s.d.log := by simpa [ReplayInv, hpc] using hI
  unfold preprocessBatch
  rcases hpre : preprocessFaultBatch p gpu s.channels a s.d with ⟨d, status⟩
  cases status with
  | ok =>
    obtain ⟨cache, -, rfl⟩ := preprocessFaultBatch_ok hpre
    show Unreplayed (rebuildFromOrdered p _).log
    unfold rebuildFromOrdered
    split
    · show Unreplayed ([_] ++ s.d.log)
      exact hopen.append (by simp [Event.isReplay])
    · exact hopen
  | restart =>
    obtain ⟨l, hl⟩ := preprocessFaultBatch_restart hpre
    show FetchesReplayed d.log
    rw [hl]
    exact fetchesReplayed_of_replay l
  | err code => exact fun hq => absurd hq (not_quiet_errOther code)

theorem endBatch_inv {a : BatchEndAnswer}
    (hpol : gpu.replayPolicy = .batch ∨ gpu.replayPolicy = .batchFlush)
    (hG : ReplayGuard p gpu s (.endBatch a)) (h : endBatch p gpu a s = some t) : ReplayInv t := by
  unfold endBatch at h
  split at h
  -- servicing failed: a cancel, then out of the loop
  · next hne =>
      rw [Option.some.injEq] at h
      subst h
      rintro (hok | hmore) hnum
      · exact absurd hok hne
      · obtain ⟨l, hl⟩ := cancelFaultBatch_replays (d := s.d) (hG hmore hnum)
        show FetchesReplayed (cancelFaultBatch gpu a.cancelFlush s.d).log
        rw [hl]
        exact fetchesReplayed_of_replay l
  split at h
  -- fatal faults: the precise cancel replays if it succeeds
  · split at h
    · rw [Option.some.injEq] at h
      subst h
      intro hq
      cases hw : a.waitTracker with
      | ok => contradiction
      | err code =>
        rw [hw] at hq
        exact absurd hq (not_quiet_errOther code)
    · obtain ⟨⟨d, status⟩, hc, rfl⟩ := Option.map_eq_some_iff.1 h
      cases status with
      | ok =>
        obtain ⟨type, l, hl⟩ := cancelFaultsPrecise_ok hc
        show FetchesReplayed d.log
        rw [hl]
        exact fetchesReplayed_of_replay l
      | err code => exact fun hq => absurd hq (not_quiet_errOther code)
  -- a normal batch: the policy replays
  · rcases hpol with hpol | hpol <;> simp only [hpol] at h <;> split at h
    · next d hpush =>
        rw [Option.some.injEq] at h
        subst h
        show FetchesReplayed d.log
        rw [pushReplayOnGpu_ok hpush]
        exact fetchesReplayed_of_replay _
    · rw [Option.some.injEq] at h
      subst h
      exact fun hq => absurd hq (not_quiet_errOther _)
    · next d hflush =>
        obtain ⟨l, hl⟩ := faultBufferFlushLocked_ok hflush
        have hlog : FetchesReplayed d.log := by
          rw [hl]
          exact fetchesReplayed_of_replay l
        split at h <;> rw [Option.some.injEq] at h <;> subst h
        · exact fun _ _ => hlog
        · exact hlog
    · rw [Option.some.injEq] at h
      subst h
      exact fun hq => absurd hq (not_quiet_errOther _)

theorem leaveService_inv {push : CallStatus} (hpc : s.pc = .leaving) (hI : ReplayInv s) :
    ReplayInv (leaveService gpu push s) := by
  have hleave : Quiet s.vars.status → s.vars.numReplays ≠ 0 → FetchesReplayed s.d.log := by
    simpa [ReplayInv, hpc] using hI
  unfold leaveService
  split
  · rcases hp : pushReplayOnGpu .start push s.d with ⟨d, status⟩
    intro hok
    have hstatus : status = .ok := CallStatus.toStatus_eq_ok.1 hok
    rw [hstatus] at hp
    show FetchesReplayed d.log
    rw [pushReplayOnGpu_ok hp]
    exact fetchesReplayed_of_replay _
  · next hc =>
      simp only [Bool.or_eq_true, decide_eq_true_eq, not_or] at hc
      exact fun hok => hleave (finalStatus_eq_ok.1 hok) hc.2

theorem serviceStep_inv {i : Label}
    (hpol : gpu.replayPolicy = .batch ∨ gpu.replayPolicy = .batchFlush)
    (hI : ReplayInv s) (henter : i ≠ .enter) (hG : ReplayGuard p gpu s i)
    (h : serviceStep p gpu s i = some t) : ReplayInv t := by
  cases serviceMoves_of_step h with
  | enter => exact absurd rfl henter
  | rebind => exact hI
  | fetch hal hpc => exact fetchBatch_inv hpc hI hG
  | preprocess a hpc => exact preprocessBatch_inv hpc hI
  | service o hpc =>
    have hopen : Unreplayed s.d.log := by simpa [ReplayInv, hpc] using hI
    -- without per-block replays servicing logs nothing
    show Unreplayed (applyService gpu .regular o s.d).log
    rcases hpol with hpol | hpol <;> simpa [applyService, hpol] using hopen
  | endBatch a t hpc hend => exact endBatch_inv hpol hG hend
  | leave push hpc => exact leaveService_inv hpc hI

/-! ## Once an entry is lost -/

/-- The call is on its way out, or has ended, with an entry that nobody will replay. -/
def Lost (s : ServiceState) : Prop :=
  Unreplayed s.d.log ∧
    ((s.pc = .leaving ∧ Quiet s.vars.status ∧ s.vars.numReplays ≠ 0) ∨ ∃ r, s.pc = .idle r)

theorem serviceStep_lost {i : Label}
    (hpol : gpu.replayPolicy = .batch ∨ gpu.replayPolicy = .batchFlush)
    (hL : Lost s) (henter : i ≠ .enter) (h : serviceStep p gpu s i = some t) : Lost t := by
  obtain ⟨hopen, hpos⟩ := hL
  cases serviceMoves_of_step h with
  | enter => exact absurd rfl henter
  | rebind => exact ⟨hopen, hpos⟩
  | leave push hpc =>
    rcases hpos with ⟨-, hquiet, hnum⟩ | ⟨r, hr⟩
    · have honce : gpu.replayPolicy ≠ .once := by
        rcases hpol with hpol | hpol <;> simp [hpol]
      have heq : leaveService gpu push s =
          { s with pc := .idle (finalStatus s.vars.status) } := by
        simp [leaveService, honce, hnum]
      rw [heq]
      exact ⟨hopen, .inr ⟨_, rfl⟩⟩
    · rw [hpc] at hr
      cases hr
  | fetch _ hpc | preprocess _ hpc | service _ hpc | endBatch _ _ hpc =>
    rcases hpos with ⟨hleaving, -⟩ | ⟨r, hidle⟩ <;> simp_all

theorem serviceStep_loses {i : Label} (hI : ReplayInv s) (hG : ¬ ReplayGuard p gpu s i)
    (h : serviceStep p gpu s i = some t) : Lost t := by
  cases serviceMoves_of_step h with
  | enter | preprocess | service | leave | rebind => exact absurd trivial hG
  | fetch hal =>
    simp only [ReplayGuard, Classical.not_imp, not_not] at hG
    obtain ⟨hlim, hnum, hwindow⟩ := hG
    obtain ⟨hok, hc, hopen⟩ := fetch_windowDropped (d := resetCounters s.d) hwindow
    have heq : fetchBatch p gpu hal s = breakLoop s
        (fetchFaultBufferEntries p gpu hal .batchReady (resetCounters s.d)).1 .ok := by
      unfold fetchBatch
      rcases hf : fetchFaultBufferEntries p gpu hal .batchReady (resetCounters s.d) with ⟨d, st⟩
      rw [hf] at hok hc
      obtain rfl : st = .ok := hok
      simp only [hlim, Bool.false_eq_true, if_false]
      exact if_pos hc
    rw [heq]
    exact ⟨hopen, .inl ⟨rfl, .inl rfl, hnum⟩⟩
  | endBatch a t hpc hend =>
    simp only [ReplayGuard, Classical.not_imp, Bool.not_eq_true] at hG
    obtain ⟨hmore, hnum, hsilent⟩ := hG
    have hopen : Unreplayed s.d.log := by simpa [ReplayInv, hpc] using hI
    obtain ⟨evs, hlog, hq⟩ := cancelFaultBatch_silent (d := s.d) hsilent
    have heq : t = breakLoop s (cancelFaultBatch gpu a.cancelFlush s.d) s.vars.status := by
      simpa [endBatch, hmore] using hend.symm
    subst heq
    refine ⟨?_, .inl ⟨rfl, .inr hmore, hnum⟩⟩
    show Unreplayed (cancelFaultBatch gpu a.cancelFlush s.d).log
    rw [hlog]
    exact hopen.append hq

end Steps

theorem run_lost {p : Params} {gpu : GpuConfig} {s t : ServiceState} {is : List Label}
    (hpol : gpu.replayPolicy = .batch ∨ gpu.replayPolicy = .batchFlush)
    (hL : Lost s) (henter : Label.enter ∉ is)
    (hrun : (serviceMachine p gpu).run s is = some t) : Lost t := by
  induction is generalizing s with
  | nil =>
    cases hrun
    exact hL
  | cons i is ih =>
    obtain ⟨u, hu, hrest⟩ := (Machine.run_cons_eq_some _).1 hrun
    have hi : i ≠ .enter := fun h => henter (h ▸ List.mem_cons_self)
    exact ih (serviceStep_lost hpol hL hi hu) (fun h => henter (List.mem_cons_of_mem _ h)) hrest

/-- **Replay coverage**: under the policies `BATCH` and `BATCH_FLUSH`, a call that ends without
an error has replayed every entry its fetches moved the get pointer past if and only if none of
its steps was taken against `ReplayGuard`. -/
theorem fetched_replayed_iff (p : Params) (gpu : GpuConfig) (s t : ServiceState) (is : List Label)
    (hpol : gpu.replayPolicy = .batch ∨ gpu.replayPolicy = .batchFlush)
    (henter : Label.enter ∉ is)
    (hrun : (serviceMachine p gpu).run s.entered is = some t) (hret : t.pc = .idle .ok) :
    FetchesReplayed t.d.log ↔ (serviceMachine p gpu).Meets (ReplayGuard p gpu) s.entered is := by
  have hstart : ReplayInv s.entered := by
    intro newer e older h
    cases newer <;> cases h
  revert hrun hstart
  generalize s.entered = u
  intro hrun hstart
  constructor
  · intro hlog
    induction is generalizing u with
    | nil => trivial
    | cons i is ih =>
      obtain ⟨v, hv, hrest⟩ := (Machine.run_cons_eq_some _).1 hrun
      have hi : i ≠ .enter := fun h => henter (h ▸ List.mem_cons_self)
      have hnot : Label.enter ∉ is := fun h => henter (List.mem_cons_of_mem _ h)
      have hG : ReplayGuard p gpu u i := by
        -- what is lost once is not replayed later
        by_contra hG
        have hlost := run_lost hpol (serviceStep_loses hstart hG hv) hnot hrest
        exact not_fetchesReplayed_iff.2 hlost.1 hlog
      refine ⟨hG, fun w hw => ?_⟩
      obtain rfl : w = v := Option.some.inj (hw.symm.trans hv)
      exact ih hnot w hrest (serviceStep_inv hpol hstart hi hG hv)
  · intro hmeets
    have hne : ∀ i ∈ is, i ≠ Label.enter := by
      rintro i hi rfl
      exact henter hi
    have hinv := (serviceMachine p gpu).run_invariant
      (fun _ _ _ hI hG h => serviceStep_inv hpol hI hG.1 hG.2 h) hstart (hmeets.and_mem _ hne) hrun
    simpa [ReplayInv, hret] using hinv

/-! ## Concrete runs -/

/-- One batch with faults on pages `0x1000` and `0x2000`, then a fetch that sees put at `put`;
the next slot of the ring repeats the fault on `0x1000`. -/
def oneBatchThenFetch (put : Nat) : List Label :=
  let ring := ringOf [0x1000, 0x2000, 0x1000]
  [.fetch (ring 2), .preprocess {}, .service {},
    .endBatch { cancel := { va := { hal := ring 2 } } }, .fetch (ring put), .leave .ok]

/-- With nothing new in the buffer the second fetch is harmless. -/
theorem fetched_replayed_one_batch :
    ∃ t, (serviceMachine skipParams smallGpu).run freshState.entered (oneBatchThenFetch 2) = some t ∧
      t.pc = .idle .ok ∧ FetchesReplayed t.d.log := by
  refine ⟨_, rfl, by decide +kernel, ?_⟩
  refine (fetched_replayed_iff skipParams smallGpu freshState _ (oneBatchThenFetch 2) (.inr rfl) ?_
    rfl (by decide +kernel)).2 (by decide)
  simp [oneBatchThenFetch]

/-- One of the faults arrives once more after the batch: the second fetch drops it, caches
nothing, and the call returns without another replay. -/
theorem dropped_fetch_not_replayed :
    ∃ t, (serviceMachine skipParams smallGpu).run freshState.entered (oneBatchThenFetch 3) = some t ∧
      smallGpu.replayPolicy = .batchFlush ∧ t.pc = .idle .ok ∧ ¬ FetchesReplayed t.d.log := by
  refine ⟨_, rfl, rfl, by decide +kernel, fun h => ?_⟩
  exact absurd (fetchesReplayed_iff.2 h) (by decide +kernel)

end FaultMesh
