import FaultMesh.ServiceLoop

/-!
# What a fetch does, in summary

The facts about `fetch_fault_buffer_entries` that the properties of whole runs rest on: what it
adds to the log, why an entry was dropped, how many entries it keeps, and which parts of the
predictor and of the fault cache it leaves alone. Each is proved over the loop by
`fetchLoop_invariant` or along the recursion of the loop, and then stated for the call.
-/

namespace FaultMesh

open Function

/-! ## Events -/

def Event.isFetched : Event → Bool
  | .dropped _ _ => true
  | .cached _ _ => true
  | _ => false

def Event.isDropped : Event → Bool
  | .dropped _ _ => true
  | _ => false

def Event.isReplay : Event → Bool
  | .replay _ => true
  | _ => false

def Event.isRebuilt : Event → Bool
  | .rebuilt _ => true
  | _ => false

theorem Event.isReplay_of_isRebuilt {e : Event} (h : e.isRebuilt = true) : e.isReplay = false := by
  cases e <;> simp_all [Event.isRebuilt, Event.isReplay]

theorem Event.isFetched_of_isRebuilt {e : Event} (h : e.isRebuilt = true) :
    e.isFetched = false := by
  cases e <;> simp_all [Event.isRebuilt, Event.isFetched]

/-! ## Keeping an entry -/

theorem mergeEntry_marks (cache : Nat → FaultEntry) (current last j : Nat) :
    ∃ n m f, mergeEntry cache current last j =
      { cache j with numInstances := n, accessTypeMask := m, filtered := f } := by
  unfold mergeEntry
  dsimp only
  split <;> by_cases hc : j = current
  · subst hc
    exact ⟨_, _, _, update_self ..⟩
  · rw [update_of_ne hc]
    by_cases hl : j = last
    · subst hl
      exact ⟨_, _, _, update_self ..⟩
    · exact ⟨_, _, _, update_of_ne hl _ _⟩
  · subst hc
    exact ⟨_, _, _, update_self ..⟩
  · rw [update_of_ne hc]
    by_cases hl : j = last
    · subst hl
      exact ⟨_, _, _, update_self ..⟩
    · exact ⟨_, _, _, update_of_ne hl _ _⟩

theorem tryMergeEntry_eq {bc bc' : BatchContext} {i : Nat} {same : Bool}
    (h : tryMergeEntry bc i same = some bc') :
    ∃ last utlbs, bc' = { bc with
      faultCache := mergeEntry bc.faultCache i last
      utlbs := utlbs } := by
  unfold tryMergeEntry at h
  dsimp only at h
  split at h
  · exact ⟨_, _, (Option.some.inj h).symm⟩
  · split at h
    · cases h
    · next j _ =>
        split at h
        · exact ⟨j, bc.utlbs, (Option.some.inj h).symm⟩
        · exact absurd h (by simp)

section

variable (ctx : FetchCtx) (bc : BatchContext)

theorem keepEntry_marks (i j : Nat) :
    ∃ n m f, (keepEntry ctx bc i).1.faultCache j =
      { bc.faultCache j with numInstances := n, accessTypeMask := m, filtered := f } := by
  unfold keepEntry
  dsimp only
  split
  · next bc' hm =>
      split_ifs at hm with hc
      all_goals
        obtain ⟨last, utlbs, rfl⟩ := tryMergeEntry_eq hm
        exact mergeEntry_marks _ _ _ _
  · by_cases hj : j = i
    · subst hj
      exact ⟨_, _, _, update_self ..⟩
    · exact ⟨_, _, _, update_of_ne hj _ _⟩

theorem keepEntry_frame (i : Nat) :
    ∃ cache utlbs single last, (keepEntry ctx bc i).1 = { bc with
      faultCache := cache
      utlbs := utlbs
      isSingleInstancePtr := single
      lastFault := last } := by
  unfold keepEntry
  dsimp only
  split
  · next bc' hm =>
      split_ifs at hm with hc
      all_goals
        obtain ⟨last, utlbs, rfl⟩ := tryMergeEntry_eq hm
        exact ⟨_, _, _, _, rfl⟩
  · exact ⟨_, _, _, _, rfl⟩

theorem keepEntry_numCachedFaults (i : Nat) :
    (keepEntry ctx bc i).1.numCachedFaults = bc.numCachedFaults := by
  obtain ⟨_, _, _, _, hkeep⟩ := keepEntry_frame ctx bc i
  rw [hkeep]

theorem keepEntry_maxUtlbId (i : Nat) : (keepEntry ctx bc i).1.maxUtlbId = bc.maxUtlbId := by
  obtain ⟨_, _, _, _, hkeep⟩ := keepEntry_frame ctx bc i
  rw [hkeep]

theorem keepEntry_numPredFastSkipStale (i : Nat) :
    (keepEntry ctx bc i).1.numPredFastSkipStale = bc.numPredFastSkipStale := by
  obtain ⟨_, _, _, _, hkeep⟩ := keepEntry_frame ctx bc i
  rw [hkeep]

end

/-! ## The window of a fetch -/

/-- How many entries a fetch keeps and how many it drops, from the state before it: the same walk
as the fetch loop, with nothing but the filter. -/
def windowCounts (p : Params) (maxFaults : Nat) (ctx : FetchCtx) (hal : Hal) :
    Nat → Nat → Nat → Predictor → Nat × Nat
  | 0, _, _, _ => (0, 0)
  | fuel + 1, get, kept, pr =>
    if get = ctx.put || (ctx.mode ≠ .all && ctx.fetchLimit ≤ kept) then (0, 0)
    else if !hal.entryIsValid get && ctx.mode = .batchReady && 0 < kept then (0, 0)
    else
      let packet := hal.parse get
      if packet.1 ≠ .ok then (0, 0)
      else
        let filter := filterDrops p ctx pr (parsedEntry { faultAddress := 0 } packet.2)
        let next := ringNext maxFaults get
        if filter.1 then
          let rest := windowCounts p maxFaults ctx hal fuel next kept filter.2
          (rest.1, rest.2 + 1)
        else
          let rest := windowCounts p maxFaults ctx hal fuel next (kept + 1) filter.2
          (rest.1 + 1, rest.2)

section Loop

variable (p : Params) (maxFaults : Nat) (ctx : FetchCtx) (hal : Hal) (fuel : Nat) (st : FetchState)

theorem fetchLoop_windowCounts :
    (fetchLoop p maxFaults ctx hal fuel st).1.faultIndex =
        st.faultIndex + (windowCounts p maxFaults ctx hal fuel st.get st.faultIndex st.predictor).1 ∧
      (fetchLoop p maxFaults ctx hal fuel st).1.bc.numPredFastSkipStale =
        st.bc.numPredFastSkipStale +
          (windowCounts p maxFaults ctx hal fuel st.get st.faultIndex st.predictor).2 ∧
      ∃ evs, (fetchLoop p maxFaults ctx hal fuel st).1.log = evs ++ st.log ∧
        (evs.filter Event.isDropped).length =
          (windowCounts p maxFaults ctx hal fuel st.get st.faultIndex st.predictor).2 := by
  induction fuel generalizing st with
  | zero => exact ⟨rfl, rfl, [], rfl, rfl⟩
  | succ fuel ih =>
    unfold fetchLoop windowCounts
    split
    · exact ⟨rfl, rfl, [], rfl, rfl⟩
    split
    · exact ⟨rfl, rfl, [], rfl, rfl⟩
    dsimp only
    split
    · exact ⟨rfl, rfl, [], rfl, rfl⟩
    obtain ⟨hidx, hskip, evs, hlog, hlen⟩ := ih (fetchEntry p maxFaults ctx (hal.parse st.get).2 st)
    rw [fetchEntry_get, fetchEntry_predictor, fetchEntry_faultIndex] at hidx hskip hlen
    rw [fetchEntry_log] at hlog
    rw [fetchEntry_bc] at hskip
    -- the filter sees the same entry whatever the cache slot held before
    rw [filterDrops_parsedEntry p ctx st.predictor _ (st.bc.faultCache st.faultIndex)]
    have hparsed : parsedEntry (st.bc.faultCache st.faultIndex) (hal.parse st.get).2 =
      st.parsed (hal.parse st.get).2 := rfl
    rw [hparsed]
    cases hd : (filterDrops p ctx st.predictor (st.parsed (hal.parse st.get).2)).1 with
    | true =>
      simp only [hd, if_true] at hidx hskip hlen hlog ⊢
      refine ⟨hidx, hskip.trans (Nat.add_right_comm _ _ _), evs ++ [_],
        by rw [hlog, List.append_assoc]; rfl, ?_⟩
      rw [List.filter_append, List.length_append, hlen]
      rfl
    | false =>
      simp only [hd, Bool.false_eq_true, if_false, keepEntry_numPredFastSkipStale] at hskip
      simp only [hd, Bool.false_eq_true, if_false] at hidx hlen hlog ⊢
      refine ⟨by omega, hskip, evs ++ [_], by rw [hlog, List.append_assoc]; rfl, ?_⟩
      rw [List.filter_append, List.length_append, hlen]
      rfl

end Loop

/-! ## The loop as a whole -/

theorem filterDrops_memoSound {p : Params} {ctx : FetchCtx} {pr : Predictor}
    (h : MemoSound p.prevFetchMode pr) (e : FaultEntry) :
    MemoSound p.prevFetchMode (filterDrops p ctx pr e).2 := by
  unfold filterDrops
  split
  · exact h.contains_snd _
  · exact h

/-- What the loop does between the states `st` and `st'`, with the events it logs. -/
structure LoopSpec (p : Params) (ctx : FetchCtx) (st st' : FetchState) (evs : List Event) :
    Prop where
  log : st'.log = evs ++ st.log
  fetched : ∀ e ∈ evs, e.isFetched = true
  /-- Without an iteration nothing is cached. -/
  idle : evs = [] → st'.faultIndex = st.faultIndex
  /-- The memo of the predictor changes and nothing else in it. -/
  predictor : ∃ l, st'.predictor = { st.predictor with last := l }
  numCached : st'.bc.numCachedFaults = st.bc.numCachedFaults
  memo : MemoSound p.prevFetchMode st.predictor → MemoSound p.prevFetchMode st'.predictor
  /-- Why an entry is dropped. -/
  dropped : ∀ slot e, .dropped slot e ∈ evs →
    ctx.filterActive = true ∧ ctx.mode ≠ .all ∧ e.isFatal = false ∧
      (MemoSound p.prevFetchMode st.predictor →
        tableContains p.prevFetchMode st.predictor e.toRawFault = true)
  /-- As long as nothing is dropped, the slots past the cached entries keep their packets. -/
  slots : (∀ e ∈ evs, e.isDropped = false) → ∀ i, st'.faultIndex ≤ i →
    (st'.bc.faultCache i).toRawFault = (st.bc.faultCache i).toRawFault
  /-- The entries that were parsed carry no leftover skip mark. -/
  noSkip : ∀ i, st.faultIndex ≤ i → i < st'.faultIndex →
    (st'.bc.faultCache i).predFetchSkip = false

theorem LoopSpec.refl (p : Params) (ctx : FetchCtx) (st : FetchState) : LoopSpec p ctx st st [] where
  log := rfl
  fetched := by simp
  idle := fun _ => rfl
  predictor := ⟨_, rfl⟩
  numCached := rfl
  memo := id
  dropped := by simp
  slots := fun _ _ _ => rfl
  noSkip := by omega

section Iteration

variable {p : Params} {ctx : FetchCtx} {st t : FetchState} {evs : List Event}
  (maxFaults : Nat) (raw : RawFault)

theorem LoopSpec.drop (h : LoopSpec p ctx st t evs)
    (hdrop : (filterDrops p ctx t.predictor (t.parsed raw)).1 = true) :
    LoopSpec p ctx st (fetchEntry p maxFaults ctx raw t) (.dropped t.get (t.parsed raw) :: evs) := by
  obtain ⟨l, hl⟩ := h.predictor
  obtain ⟨hactive, hmode, hfatal, hhit⟩ := of_filterDrops hdrop
  obtain ⟨l', hl'⟩ := filterDrops_snd p ctx t.predictor (t.parsed raw)
  refine
    { log := by rw [fetchEntry_log, if_pos hdrop, h.log, List.cons_append]
      fetched := by simpa [Event.isFetched] using h.fetched
      idle := fun hnil => absurd hnil (List.cons_ne_nil _ _)
      predictor := ⟨l', by rw [fetchEntry_predictor, hl', hl]⟩
      numCached := by rw [fetchEntry_bc, if_pos hdrop]; exact h.numCached
      memo := fun hmemo => ?_
      dropped := fun slot e he => ?_
      slots := fun hnone => ?_
      noSkip := fun i hlo hi => ?_ }
  · rw [fetchEntry_predictor]
    exact filterDrops_memoSound (h.memo hmemo) _
  · rcases List.mem_cons.1 he with heq | he
    · obtain ⟨-, rfl⟩ := Event.dropped.inj heq
      refine ⟨hactive, hmode, hfatal, fun hmemo => ?_⟩
      -- the memo is sound all along, so the hit is one of the table the loop started with
      have htable := (h.memo hmemo).tableContains_of_hit hhit
      rw [hl, tableContains_with_last] at htable
      exact htable
    · exact h.dropped slot e he
  · have habs := hnone _ List.mem_cons_self
    simp [Event.isDropped] at habs
  · rw [fetchEntry_faultIndex, if_pos hdrop] at hi
    rw [fetchEntry_bc, if_pos hdrop]
    -- the slot that was overwritten is the next free one
    rw [show (storeParsed t.bc t.faultIndex raw).faultCache i = t.bc.faultCache i
      from update_of_ne (by omega) _ _]
    exact h.noSkip i hlo hi

theorem LoopSpec.keep (h : LoopSpec p ctx st t evs)
    (hkeep : (filterDrops p ctx t.predictor (t.parsed raw)).1 = false) :
    LoopSpec p ctx st (fetchEntry p maxFaults ctx raw t) (.cached t.get (t.parsed raw) :: evs) := by
  have hcond : ¬ (filterDrops p ctx t.predictor (t.parsed raw)).1 = true := by simp [hkeep]
  obtain ⟨l, hl⟩ := h.predictor
  obtain ⟨l', hl'⟩ := filterDrops_snd p ctx t.predictor (t.parsed raw)
  refine
    { log := by rw [fetchEntry_log, if_neg hcond, h.log, List.cons_append]
      fetched := by simpa [Event.isFetched] using h.fetched
      idle := fun hnil => absurd hnil (List.cons_ne_nil _ _)
      predictor := ⟨l', by rw [fetchEntry_predictor, hl', hl]⟩
      numCached := ?_
      memo := fun hmemo => ?_
      dropped := fun slot e he => ?_
      slots := fun hnone i hi => ?_
      noSkip := fun i hlo hi => ?_ }
  · rw [fetchEntry_bc, if_neg hcond, keepEntry_numCachedFaults]
    exact h.numCached
  · rw [fetchEntry_predictor]
    exact filterDrops_memoSound (h.memo hmemo) _
  · rcases List.mem_cons.1 he with heq | he
    · cases heq
    · exact h.dropped slot e he
  · rw [fetchEntry_faultIndex, if_neg hcond] at hi
    rw [fetchEntry_bc, if_neg hcond]
    obtain ⟨n, m, f, hmarks⟩ :=
      keepEntry_marks ctx (storeParsed t.bc t.faultIndex raw) t.faultIndex i
    rw [hmarks]
    -- the entry went to a slot below `i`
    rw [show (storeParsed t.bc t.faultIndex raw).faultCache i = t.bc.faultCache i
      from update_of_ne (by omega) _ _]
    exact h.slots (fun e he => hnone e (List.mem_cons_of_mem _ he)) i (by omega)
  · rw [fetchEntry_faultIndex, if_neg hcond] at hi
    rw [fetchEntry_bc, if_neg hcond]
    obtain ⟨n, m, f, hmarks⟩ :=
      keepEntry_marks ctx (storeParsed t.bc t.faultIndex raw) t.faultIndex i
    rw [hmarks]
    by_cases hnew : i = t.faultIndex
    · subst hnew
      simp [storeParsed, parsedEntry]
    · rw [show (storeParsed t.bc t.faultIndex raw).faultCache i = t.bc.faultCache i
        from update_of_ne hnew _ _]
      exact h.noSkip i hlo (by omega)

end Iteration

theorem fetchLoop_spec (p : Params) (maxFaults : Nat) (ctx : FetchCtx) (hal : Hal) (fuel : Nat)
    (st : FetchState) : ∃ evs, LoopSpec p ctx st (fetchLoop p maxFaults ctx hal fuel st).1 evs := by
  apply fetchLoop_invariant (I := fun t => ∃ evs, LoopSpec p ctx st t evs)
  · rintro t ⟨evs, h⟩ _ _ _
    cases hd : (filterDrops p ctx t.predictor (t.parsed (hal.parse t.get).2)).1 with
    | true => exact ⟨_, h.drop maxFaults _ hd⟩
    | false => exact ⟨_, h.keep maxFaults _ hd⟩
  · exact ⟨[], LoopSpec.refl p ctx st⟩

theorem fetchLoop_ok {p : Params} {maxFaults : Nat} {ctx : FetchCtx} {hal : Hal} {fuel : Nat}
    {st : FetchState}
    (h : ∀ slot ∈ ringSlots maxFaults ctx.put fuel st.get, (hal.parse slot).1 = .ok) :
    (fetchLoop p maxFaults ctx hal fuel st).2 = .ok := by
  induction fuel generalizing st with
  | zero => rfl
  | succ fuel ih =>
    unfold fetchLoop
    split_ifs with hstop hready
    · rfl
    · rfl
    · have hput : st.get ≠ ctx.put := fun heq => hstop (by simp [heq])
      simp only [ringSlots, hput, if_false, List.mem_cons, forall_eq_or_imp] at h
      dsimp only
      rw [if_neg (not_not.2 h.1)]
      exact ih (by simpa using h.2)

theorem fetchLoop_dropped_slot (p : Params) (maxFaults : Nat) (ctx : FetchCtx) (hal : Hal)
    (fuel : Nat) (st : FetchState) :
    ∃ evs, (fetchLoop p maxFaults ctx hal fuel st).1.log = evs ++ st.log ∧
      ∀ slot e, .dropped slot e ∈ evs → slot ∈ ringSlots maxFaults ctx.put fuel st.get ∧
        ∃ old, e = parsedEntry old (hal.parse slot).2 := by
  induction fuel generalizing st with
  | zero => exact ⟨[], rfl, by simp⟩
  | succ fuel ih =>
    unfold fetchLoop
    split_ifs with hstop hready
    · exact ⟨[], rfl, by simp⟩
    · exact ⟨[], rfl, by simp⟩
    · dsimp only
      split
      · exact ⟨[], rfl, by simp⟩
      · have hput : st.get ≠ ctx.put := fun heq => hstop (by simp [heq])
        obtain ⟨evs, hlog, hslots⟩ := ih (fetchEntry p maxFaults ctx (hal.parse st.get).2 st)
        rw [fetchEntry_get] at hslots
        rw [fetchEntry_log] at hlog
        refine ⟨evs ++ [_], by rw [hlog, List.append_assoc]; rfl, ?_⟩
        intro slot e he
        simp only [ringSlots, hput, if_false, List.mem_cons]
        rcases List.mem_append.1 he with he | he
        · exact ⟨.inr (hslots slot e he).1, (hslots slot e he).2⟩
        -- the entry of this iteration
        · rw [List.mem_singleton] at he
          split at he
          · obtain ⟨rfl, rfl⟩ := Event.dropped.inj he
            exact ⟨.inl rfl, _, rfl⟩
          · cases he

/-! ## The call -/

/-- The loop variables and the status with which the loop of a fetch ends. -/
def fetchedState (p : Params) (gpu : GpuConfig) (hal : Hal) (mode : FetchMode) (d : Driver) :
    FetchState × CallStatus :=
  let put := fetchPut d.rf hal
  fetchLoop p gpu.maxFaults (fetchCtx p gpu mode d.rf put) hal
    (pendingEntries d.rf.cachedGet put gpu.maxFaults) (fetchStart d)

/-- The slots a fetch from the given state may walk over. -/
def pendingSlots (gpu : GpuConfig) (hal : Hal) (rf : ReplayableFaults) : List Nat :=
  let put := fetchPut rf hal
  ringSlots gpu.maxFaults put (pendingEntries rf.cachedGet put gpu.maxFaults) rf.cachedGet

/-- The counts of `windowCounts` for a fetch from the given state. -/
def fetchWindow (p : Params) (gpu : GpuConfig) (hal : Hal) (mode : FetchMode)
    (rf : ReplayableFaults) : Nat × Nat :=
  let put := fetchPut rf hal
  windowCounts p gpu.maxFaults (fetchCtx p gpu mode rf put) hal
    (pendingEntries rf.cachedGet put gpu.maxFaults) rf.cachedGet 0 rf.predictor

section Call

variable (p : Params) (gpu : GpuConfig) (hal : Hal) (mode : FetchMode) (d : Driver)

theorem fetchFaultBufferEntries_eq :
    fetchFaultBufferEntries p gpu hal mode d =
      (fetchFinish p (fetchCtx p gpu mode d.rf (fetchPut d.rf hal))
        (fetchedState p gpu hal mode d).1, (fetchedState p gpu hal mode d).2) := rfl

theorem fetchedState_spec :
    ∃ evs, LoopSpec p (fetchCtx p gpu mode d.rf (fetchPut d.rf hal)) (fetchStart d)
      (fetchedState p gpu hal mode d).1 evs :=
  fetchLoop_spec _ _ _ _ _ _

theorem fetchedState_faultIndex :
    (fetchedState p gpu hal mode d).1.faultIndex = (fetchWindow p gpu hal mode d.rf).1 := by
  have h := (fetchLoop_windowCounts p gpu.maxFaults (fetchCtx p gpu mode d.rf (fetchPut d.rf hal))
    hal (pendingEntries d.rf.cachedGet (fetchPut d.rf hal) gpu.maxFaults) (fetchStart d)).1
  rw [show (fetchStart d).faultIndex = 0 from rfl, Nat.zero_add] at h
  exact h

end Call

section

variable {p : Params} {gpu : GpuConfig} {hal : Hal} {mode : FetchMode} {d : Driver} {evs : List Event}
  (h : LoopSpec p (fetchCtx p gpu mode d.rf (fetchPut d.rf hal)) (fetchStart d)
    (fetchedState p gpu hal mode d).1 evs)
include h

theorem LoopSpec.call_log :
    ∃ top, (fetchFaultBufferEntries p gpu hal mode d).1.log =
        top ++ (evs ++ .fetchBegin :: d.log) ∧ ∀ e ∈ top, e.isRebuilt = true := by
  have hlog : (fetchedState p gpu hal mode d).1.log = evs ++ .fetchBegin :: d.log := h.log
  rw [fetchFaultBufferEntries_eq]
  simp only [fetchFinish]
  split
  · refine ⟨[_], by rw [hlog]; rfl, ?_⟩
    intro e he
    rw [List.mem_singleton.1 he]
    rfl
  · exact ⟨[], hlog, by simp⟩

theorem LoopSpec.no_drop_of_window (hnone : (fetchWindow p gpu hal mode d.rf).2 = 0) :
    ∀ e ∈ evs, e.isDropped = false := by
  obtain ⟨evs', hlog, hlen⟩ := (fetchLoop_windowCounts p gpu.maxFaults
    (fetchCtx p gpu mode d.rf (fetchPut d.rf hal)) hal
    (pendingEntries d.rf.cachedGet (fetchPut d.rf hal) gpu.maxFaults) (fetchStart d)).2.2
  obtain rfl : evs = evs' := List.append_cancel_right (h.log.symm.trans hlog)
  have hzero : (evs.filter Event.isDropped).length = 0 := hlen.trans hnone
  intro e he
  by_contra hdrop
  have hmem : e ∈ evs.filter Event.isDropped :=
    List.mem_filter.2 ⟨he, by simpa using hdrop⟩
  rw [List.length_eq_zero_iff.1 hzero] at hmem
  cases hmem

end

theorem LoopSpec.no_drop_of_all {p : Params} {ctx : FetchCtx} {st st' : FetchState}
    {evs : List Event} (h : LoopSpec p ctx st st' evs) (hmode : ctx.mode = .all) :
    ∀ e ∈ evs, e.isDropped = false := by
  intro e he
  cases e with
  | dropped slot e => exact absurd hmode (h.dropped slot e he).2.1
  | fetchBegin | cached | flushed | rebuilt | replay => rfl

/-! ## A window that is dropped entirely -/

/-- There are pending entries and the filter drops every one of them. -/
def WindowDropped (p : Params) (gpu : GpuConfig) (hal : Hal) (rf : ReplayableFaults) : Prop :=
  let put := fetchPut rf hal
  let pending := pendingEntries rf.cachedGet put gpu.maxFaults
  0 < pending ∧
    dropsRest p gpu.maxFaults (fetchCtx p gpu .batchReady rf put) hal pending rf.cachedGet
      rf.predictor = true

instance (p : Params) (gpu : GpuConfig) (hal : Hal) (rf : ReplayableFaults) :
    Decidable (WindowDropped p gpu hal rf) :=
  inferInstanceAs (Decidable (_ ∧ _))

theorem ne_put_of_pending {get put maxFaults : Nat} (h : 0 < pendingEntries get put maxFaults) :
    get ≠ put := by
  rintro rfl
  simp [pendingEntries] at h

theorem fetchLimit_pos (p : Params) (gpu : GpuConfig) (mode : FetchMode) (pending pct : Nat) :
    0 < fetchLimit p gpu mode pending pct :=
  Nat.lt_of_lt_of_le Nat.one_pos (Nat.le_max_right _ _)

section Window

variable {p : Params} {gpu : GpuConfig} {hal : Hal} {d : Driver}

theorem fetchCtx_fetchLimit_pos {rf : ReplayableFaults}
    (h : 0 < pendingEntries rf.cachedGet (fetchPut rf hal) gpu.maxFaults) :
    0 < (fetchCtx p gpu .batchReady rf (fetchPut rf hal)).fetchLimit := by
  simp only [fetchCtx, ne_put_of_pending h, if_false]
  exact fetchLimit_pos _ _ _ _ _

theorem fetchedState_of_windowDropped (h : WindowDropped p gpu hal d.rf) :
    (fetchedState p gpu hal .batchReady d).2 = .ok ∧
      (fetchedState p gpu hal .batchReady d).1.faultIndex = 0 :=
  (@fetchLoop_keeps_nothing_iff p _ _ hal (fetchCtx_fetchLimit_pos h.1) _ (fetchStart d) rfl).2 h.2

theorem pending_eq_zero (hw : ¬ WindowDropped p gpu hal d.rf)
    (hok : (fetchedState p gpu hal .batchReady d).2 = .ok)
    (hnone : (fetchedState p gpu hal .batchReady d).1.faultIndex = 0) :
    pendingEntries d.rf.cachedGet (fetchPut d.rf hal) gpu.maxFaults = 0 := by
  by_contra hpos
  have hpos := Nat.pos_of_ne_zero hpos
  refine hw ⟨hpos, ?_⟩
  exact (@fetchLoop_keeps_nothing_iff p _ _ hal (fetchCtx_fetchLimit_pos hpos) _
    (fetchStart d) rfl).1 ⟨hok, hnone⟩

variable {evs : List Event}

theorem LoopSpec.eq_nil_of_pending {mode : FetchMode}
    (h : LoopSpec p (fetchCtx p gpu mode d.rf (fetchPut d.rf hal)) (fetchStart d)
      (fetchedState p gpu hal mode d).1 evs)
    (hpending : pendingEntries d.rf.cachedGet (fetchPut d.rf hal) gpu.maxFaults = 0) :
    evs = [] := by
  have hlog := h.log
  simp only [fetchedState, hpending, fetchLoop] at hlog
  exact List.append_cancel_right (hlog.symm.trans (List.nil_append _).symm)

theorem LoopSpec.ne_nil_of_windowDropped
    (h : LoopSpec p (fetchCtx p gpu .batchReady d.rf (fetchPut d.rf hal)) (fetchStart d)
      (fetchedState p gpu hal .batchReady d).1 evs)
    (hw : WindowDropped p gpu hal d.rf) : evs ≠ [] := by
  obtain ⟨hpending, hdrops⟩ := hw
  have hput : (fetchStart d).get ≠ (fetchCtx p gpu .batchReady d.rf (fetchPut d.rf hal)).put :=
    ne_put_of_pending hpending
  have hlimit := @fetchCtx_fetchLimit_pos p gpu hal d.rf hpending
  have hloop := h.log
  unfold fetchedState at hloop
  obtain ⟨fuel, hfuel⟩ := Nat.exists_eq_succ_of_ne_zero hpending.ne'
  rw [hfuel] at hdrops
  dsimp only at hloop
  rw [hfuel] at hloop
  generalize fetchCtx p gpu .batchReady d.rf (fetchPut d.rf hal) = ctx at *
  -- the first iteration already consumes an entry
  rintro rfl
  unfold dropsRest at hdrops
  have hget : d.rf.cachedGet ≠ ctx.put := hput
  simp only [hget, if_false, Bool.and_eq_true, decide_eq_true_eq] at hdrops
  unfold fetchLoop at hloop
  have hlim : ¬ ctx.fetchLimit ≤ (fetchStart d).faultIndex := Nat.not_le.2 hlimit
  have hidx : ¬ 0 < (fetchStart d).faultIndex := Nat.lt_irrefl 0
  have hparse : (hal.parse (fetchStart d).get).1 = .ok := hdrops.1.1
  simp only [hput, hlim, hidx, hparse, ne_eq, not_true_eq_false, decide_false,
    Bool.and_false, Bool.or_false, Bool.false_eq_true, if_false] at hloop
  obtain ⟨evs, hmore⟩ := fetchLoop_spec p gpu.maxFaults ctx hal fuel
    (fetchEntry p gpu.maxFaults ctx (hal.parse (fetchStart d).get).2 (fetchStart d))
  rw [hmore.log, fetchEntry_log] at hloop
  have hlen := congrArg List.length hloop
  simp only [List.length_append, List.length_cons, List.nil_append] at hlen
  omega

end Window

def freshDriver : Driver where
  rf := { cachedGet := 0, cachedPut := 0, predictor := smallPredictor }
  bc := { faultCache := fun _ => { faultAddress := 0 } }

end FaultMesh
