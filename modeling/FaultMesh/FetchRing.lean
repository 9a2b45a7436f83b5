import FaultMesh.FetchSpec

/-!
# The fetch loop and the ring

A fetch walks the hardware ring from get towards put. The valid bit of an entry is polled until it is
set; only a batch that holds something already gives up on the first poll that fails. `fetchPolls`
has the polls as steps of their own, with fuel that a wait can use up. If every entry that is waited
for becomes valid in the end, some amount of fuel suffices, and the result is that of `fetchLoop`.

The walk itself is recorded by the events of the log: one for each entry, cached or dropped, in the
order of the slots.
-/

namespace FaultMesh

/-! ## Ring arithmetic -/

section Ring

variable {m get put : Nat}

theorem ringNext_lt (hget : get < m) : ringNext m get < m := by
  unfold ringNext
  split <;> omega

theorem pendingEntries_lt (hget : get < m) (hput : put < m) : pendingEntries get put m < m := by
  unfold pendingEntries
  split <;> omega

theorem pendingEntries_ringNext (hget : get < m) (hput : put < m) (hne : get ≠ put) :
    pendingEntries get put m = pendingEntries (ringNext m get) put m + 1 := by
  unfold pendingEntries ringNext
  split_ifs <;> omega

theorem eq_of_pendingEntries (hget : get < m) (hput : put < m) (hzero : pendingEntries get put m = 0) :
    get = put := by
  by_contra hne
  rw [pendingEntries_ringNext hget hput hne] at hzero
  cases hzero

theorem iterate_ringNext_lt (hget : get < m) (n : Nat) : (ringNext m)^[n] get < m := by
  induction n with
  | zero => exact hget
  | succ n ih =>
    rw [Function.iterate_succ_apply']
    exact ringNext_lt ih

/-- **Ring distance** after a number of steps that do not go around the whole ring. -/
theorem pendingEntries_iterate {n : Nat} (hget : get < m) (hn : n < m) :
    pendingEntries get ((ringNext m)^[n] get) m = n := by
  induction n generalizing get with
  | zero => simp [pendingEntries]
  | succ n ih =>
    have hnext := ringNext_lt hget
    have hih := ih hnext (Nat.lt_of_succ_lt hn)
    have hlt := iterate_ringNext_lt hnext n
    rw [Function.iterate_succ_apply]
    -- the pointer cannot be back at its start
    have hne : get ≠ (ringNext m)^[n] (ringNext m get) := by
      intro heq
      rw [← heq] at hih
      have hback : pendingEntries (ringNext m get) get m = m - 1 := by
        unfold pendingEntries ringNext
        split_ifs <;> omega
      omega
    rw [pendingEntries_ringNext hget hlt hne, hih]

end Ring

/-! ## Polling -/

/-- What the hardware shows to one call, with the answer to every poll of an entry. -/
structure PolledHal where
  readPut : Nat
  /-- The answers of `entry_is_valid` for a slot, one poll after the other. -/
  polls : Nat → Nat → Bool
  parse : Nat → CallStatus × RawFault

/-- The same hardware with the first poll only. -/
def PolledHal.first (hal : PolledHal) : Hal where
  readPut := hal.readPut
  entryIsValid := fun slot => hal.polls slot 0
  parse := hal.parse

/-- The fetch loop, one poll or one entry a step; `polled` polls of the entry at get have failed.
`none` if the fuel does not suffice. -/
def fetchPolls (p : Params) (maxFaults : Nat) (ctx : FetchCtx) (hal : PolledHal) :
    Nat → Nat → FetchState → Option (FetchState × CallStatus)
  | 0, _, _ => none
  | fuel + 1, polled, st =>
    if polled = 0 ∧ (st.get = ctx.put ∨ ctx.mode ≠ .all ∧ ctx.fetchLimit ≤ st.faultIndex) then
      some (st, .ok)
    else if hal.polls st.get polled = false then
      -- `UVM_SPIN_WHILE`: leave with what there is, or poll again
      if ctx.mode = .batchReady ∧ 0 < st.faultIndex then some (st, .ok)
      else fetchPolls p maxFaults ctx hal fuel (polled + 1) st
    else
      let packet := hal.parse st.get
      if packet.1 ≠ .ok then some (st, packet.1)
      else fetchPolls p maxFaults ctx hal fuel 0 (fetchEntry p maxFaults ctx packet.2 st)

/-- `fetch_fault_buffer_entries` with its polls. -/
def fetchPolled (p : Params) (gpu : GpuConfig) (hal : PolledHal) (mode : FetchMode) (fuel : Nat)
    (d : Driver) : Option (Driver × CallStatus) :=
  let ctx := fetchCtx p gpu mode d.rf (fetchPut d.rf hal.first)
  (fetchPolls p gpu.maxFaults ctx hal fuel 0 (fetchStart d)).map fun end_ =>
    (fetchFinish p ctx end_.1, end_.2)

section Polls

variable {p : Params} {m : Nat} {ctx : FetchCtx} {hal : PolledHal} {st : FetchState}

theorem fetchPolls_mono {fuel more polled : Nat} {result : FetchState × CallStatus}
    (h : fetchPolls p m ctx hal fuel polled st = some result) (hle : fuel ≤ more) :
    fetchPolls p m ctx hal more polled st = some result := by
  induction fuel generalizing more polled st with
  | zero => cases h
  | succ fuel ih =>
    obtain ⟨more, rfl⟩ : ∃ more', more = more' + 1 := ⟨more - 1, by omega⟩
    have hle : fuel ≤ more := Nat.le_of_succ_le_succ hle
    unfold fetchPolls at h ⊢
    split_ifs at h ⊢ with hstop hpoll hready
    · exact h
    · exact h
    · exact ih h hle
    · dsimp only at h ⊢
      split_ifs at h ⊢ with herr
      · exact h
      · exact ih h hle

theorem fetchPolls_wait {fuel polled more : Nat} {result : FetchState × CallStatus}
    (hready : ¬(ctx.mode = .batchReady ∧ 0 < st.faultIndex))
    (hgo : ¬(st.get = ctx.put ∨ ctx.mode ≠ .all ∧ ctx.fetchLimit ≤ st.faultIndex))
    (hfail : ∀ k, polled ≤ k → k < polled + more → hal.polls st.get k = false)
    (h : fetchPolls p m ctx hal fuel (polled + more) st = some result) :
    fetchPolls p m ctx hal (fuel + more) polled st = some result := by
  induction more generalizing polled with
  | zero => exact h
  | succ more ih =>
    rw [← Nat.add_assoc, fetchPolls, if_neg fun hstop => hgo hstop.2,
      if_pos (hfail polled (Nat.le_refl _) (by omega)), if_neg hready]
    apply ih
    · intro k hlo hhi
      exact hfail k (by omega) (by omega)
    · rwa [Nat.add_assoc, Nat.add_comm 1 more]

theorem fetchPolls_entry {fuel polled : Nat}
    (hgo : ¬(st.get = ctx.put ∨ ctx.mode ≠ .all ∧ ctx.fetchLimit ≤ st.faultIndex))
    (hvalid : hal.polls st.get polled = true) :
    fetchPolls p m ctx hal (fuel + 1) polled st =
      if (hal.parse st.get).1 ≠ .ok then some (st, (hal.parse st.get).1)
      else fetchPolls p m ctx hal fuel 0 (fetchEntry p m ctx (hal.parse st.get).2 st) := by
  rw [fetchPolls, if_neg fun hstop => hgo hstop.2, if_neg (by simp [hvalid])]

/-- The loop waits for the entry at get: it is not done, and it does not leave when a poll fails. -/
def Awaits (ctx : FetchCtx) (st : FetchState) : Prop :=
  ¬(st.get = ctx.put ∨ ctx.mode ≠ .all ∧ ctx.fetchLimit ≤ st.faultIndex) ∧
    ¬(ctx.mode = .batchReady ∧ 0 < st.faultIndex)

/-- **Termination**: if every entry that is waited for becomes valid in the end, the loop ends as
`fetchLoop` does. -/
theorem fetchPolls_terminates (hget : st.get < m) (hput : ctx.put < m)
    (hvalid : ∀ n, Awaits ctx (fetchLoop p m ctx hal.first n st).1 →
      ∃ k, hal.polls (fetchLoop p m ctx hal.first n st).1.get k = true) :
    ∃ fuel, fetchPolls p m ctx hal fuel 0 st =
      some (fetchLoop p m ctx hal.first (pendingEntries st.get ctx.put m) st) := by
  -- induction on the number of entries up to put
  generalize hn : pendingEntries st.get ctx.put m = n
  induction n generalizing st with
  | zero =>
    refine ⟨1, ?_⟩
    rw [fetchPolls, if_pos ⟨rfl, .inl (eq_of_pendingEntries hget hput hn)⟩, fetchLoop]
  | succ n ih =>
    have hstop : (st.get = ctx.put || (ctx.mode ≠ .all && ctx.fetchLimit ≤ st.faultIndex) : Bool) =
        true ↔ st.get = ctx.put ∨ ctx.mode ≠ .all ∧ ctx.fetchLimit ≤ st.faultIndex := by
      simp
    by_cases hgo : st.get = ctx.put ∨ ctx.mode ≠ .all ∧ ctx.fetchLimit ≤ st.faultIndex
    · refine ⟨1, ?_⟩
      rw [fetchPolls, if_pos ⟨rfl, hgo⟩, fetchLoop, if_pos (hstop.2 hgo)]
    by_cases hleave : hal.polls st.get 0 = false ∧ ctx.mode = .batchReady ∧ 0 < st.faultIndex
    -- a batch that holds something does not wait
    · refine ⟨1, ?_⟩
      rw [fetchPolls, if_neg fun h => hgo h.2, if_pos hleave.1, if_pos hleave.2, fetchLoop,
        if_neg fun h => hgo (hstop.1 h), if_pos]
      simp [PolledHal.first, hleave]
    have hloop : ∀ n, fetchLoop p m ctx hal.first (n + 1) st =
        if (hal.parse st.get).1 ≠ .ok then (st, (hal.parse st.get).1)
        else fetchLoop p m ctx hal.first n (fetchEntry p m ctx (hal.parse st.get).2 st) := by
      intro n
      rw [fetchLoop, if_neg fun h => hgo (hstop.1 h), if_neg]
      · rfl
      · simpa [PolledHal.first, and_assoc] using hleave
    -- what happens once the entry is valid
    obtain ⟨fuel, hentry⟩ : ∃ fuel, ∀ polled, hal.polls st.get polled = true →
        fetchPolls p m ctx hal (fuel + 1) polled st =
          some (fetchLoop p m ctx hal.first (n + 1) st) := by
      by_cases hok : (hal.parse st.get).1 = .ok
      · have hnext : pendingEntries (fetchEntry p m ctx (hal.parse st.get).2 st).get ctx.put m =
            n := by
          rw [fetchEntry_get]
          have hput' := pendingEntries_ringNext hget hput fun h => hgo (.inl h)
          omega
        obtain ⟨fuel, hfuel⟩ := ih (by rw [fetchEntry_get]; exact ringNext_lt hget)
          (fun n hawaits => by
            have hlater := hvalid (n + 1)
            rw [hloop, if_neg (not_not.2 hok)] at hlater
            exact hlater hawaits) hnext
        refine ⟨fuel, fun polled hpoll => ?_⟩
        rw [fetchPolls_entry hgo hpoll, hloop, if_neg (not_not.2 hok), if_neg (not_not.2 hok)]
        exact hfuel
      · refine ⟨0, fun polled hpoll => ?_⟩
        rw [fetchPolls_entry hgo hpoll, hloop, if_pos hok, if_pos hok]
    by_cases hready : ctx.mode = .batchReady ∧ 0 < st.faultIndex
    -- the first poll has succeeded
    · refine ⟨fuel + 1, hentry 0 ?_⟩
      by_contra hno
      exact hleave ⟨by simpa using hno, hready⟩
    -- wait for the first poll that succeeds
    · have hawaited : ∃ k, hal.polls st.get k = true := hvalid 0 ⟨hgo, hready⟩
      have hfail : ∀ k, 0 ≤ k → k < 0 + Nat.find hawaited → hal.polls st.get k = false := by
        intro k _ hk
        simpa using Nat.find_min hawaited (by omega)
      have hfirst := hentry (0 + Nat.find hawaited)
        (by rw [Nat.zero_add]; exact Nat.find_spec hawaited)
      exact ⟨_, fetchPolls_wait hready hgo hfail hfirst⟩

end Polls

/-! ## The walk -/

/-- The loop goes no further: at put, at the limit, where a batch that holds something meets an entry
that is not ready, or with a packet that fails to parse. -/
def Stops (ctx : FetchCtx) (hal : Hal) (get faultIndex : Nat) : Prop :=
  (get = ctx.put ∨ ctx.mode ≠ .all ∧ ctx.fetchLimit ≤ faultIndex) ∨
    (hal.entryIsValid get = false ∧ ctx.mode = .batchReady ∧ 0 < faultIndex) ∨
    (hal.parse get).1 ≠ .ok

theorem stops_fetchLoop {p : Params} {m : Nat} {ctx : FetchCtx} {hal : Hal} (hput : ctx.put < m)
    {fuel : Nat} {st : FetchState} (hget : st.get < m)
    (hfuel : pendingEntries st.get ctx.put m ≤ fuel) :
    Stops ctx hal (fetchLoop p m ctx hal fuel st).1.get (fetchLoop p m ctx hal fuel st).1.faultIndex := by
  induction fuel generalizing st with
  | zero => exact .inl (.inl (eq_of_pendingEntries hget hput (Nat.le_zero.1 hfuel)))
  | succ fuel ih =>
    unfold fetchLoop
    split
    next hstop => exact .inl (by simpa using hstop)
    next hgo =>
      split
      next hleave => exact .inr (.inl (by simpa [and_assoc] using hleave))
      next =>
        dsimp only
        split
        next herr => exact .inr (.inr herr)
        next =>
          -- one entry fewer up to put
          have hne : st.get ≠ ctx.put := fun heq => hgo (by simp [heq])
          have hput' := pendingEntries_ringNext hget hput hne
          apply ih <;> rw [fetchEntry_get]
          · exact ringNext_lt hget
          · omega

def Event.cachedPacket : Event → Option RawFault
  | .cached _ e => some e.toRawFault
  | _ => none

/-- The event is what became of the entry in a slot: it was parsed, and cached or dropped. -/
def Event.IsEntryOf (hal : Hal) (slot : Nat) (ev : Event) : Prop :=
  (hal.parse slot).1 = .ok ∧
    ∃ old, ev = .cached slot (parsedEntry old (hal.parse slot).2) ∨
      ev = .dropped slot (parsedEntry old (hal.parse slot).2)

/-- The loop variables after the given entries, which come in the order of the ring. -/
structure Walked (m : Nat) (ctx : FetchCtx) (hal : Hal) (start st : FetchState)
    (consumed : List Event) : Prop where
  log : st.log = consumed.reverse ++ start.log
  get : st.get = (ringNext m)^[consumed.length] start.get
  entries : ∀ i (ev : Event), consumed[i]? = some ev →
    ev.IsEntryOf hal ((ringNext m)^[i] start.get)
  pending : pendingEntries st.get ctx.put m + consumed.length = pendingEntries start.get ctx.put m
  packets : (st.bc.firstEntries st.faultIndex).map FaultEntry.toRawFault =
    consumed.filterMap Event.cachedPacket
  skipped : st.bc.numPredFastSkipStale =
    start.bc.numPredFastSkipStale + consumed.countP Event.isDropped
  limit : ctx.mode ≠ .all → st.faultIndex ≤ ctx.fetchLimit

section Walk

variable {p : Params} {m : Nat} {ctx : FetchCtx} {hal : Hal} {start st : FetchState}
  {consumed : List Event}

theorem walked_fetchStart (m : Nat) (ctx : FetchCtx) (hal : Hal) (d : Driver) :
    Walked m ctx hal (fetchStart d) (fetchStart d) [] where
  log := rfl
  get := rfl
  entries := fun i ev h => by simp at h
  pending := rfl
  packets := rfl
  skipped := rfl
  limit := fun _ => Nat.zero_le _

theorem length_firstEntries (bc : BatchContext) (n : Nat) : (bc.firstEntries n).length = n := by
  simp [BatchContext.firstEntries]

theorem Walked.length_eq (h : Walked m ctx hal start st consumed) :
    consumed.length = st.faultIndex + consumed.countP Event.isDropped := by
  have hcached := congrArg List.length h.packets
  rw [List.length_map, length_firstEntries] at hcached
  rw [hcached, List.length_filterMap_eq_countP, Nat.add_comm]
  rw [List.length_eq_countP_add_countP Event.isDropped]
  congr 1
  apply List.countP_congr
  intro ev hev
  obtain ⟨i, hi⟩ := List.mem_iff_getElem?.1 hev
  obtain ⟨-, old, rfl | rfl⟩ := h.entries i ev hi <;> simp [Event.isDropped, Event.cachedPacket]

theorem firstEntries_keepEntry (ctx : FetchCtx) (bc : BatchContext) (n i : Nat) :
    ((keepEntry ctx bc i).1.firstEntries n).map FaultEntry.toRawFault =
      (bc.firstEntries n).map FaultEntry.toRawFault := by
  simp only [BatchContext.firstEntries, List.map_map]
  apply List.map_congr_left
  intro j _
  obtain ⟨_, _, _, hmarks⟩ := keepEntry_marks ctx bc i j
  simp [hmarks]

theorem firstEntries_succ (bc : BatchContext) (n : Nat) :
    bc.firstEntries (n + 1) = bc.firstEntries n ++ [bc.faultCache n] := by
  simp [BatchContext.firstEntries, List.range_succ]

theorem firstEntries_storeParsed (bc : BatchContext) (i : Nat) (raw : RawFault) :
    (storeParsed bc i raw).firstEntries i = bc.firstEntries i := by
  simp only [BatchContext.firstEntries]
  apply List.map_congr_left
  intro j hj
  exact Function.update_of_ne (List.mem_range.1 hj).ne _ _

theorem Walked.step (h : Walked m ctx hal start st consumed) (p : Params) (hstart : start.get < m)
    (hput : ctx.put < m) (hne : st.get ≠ ctx.put)
    (hlimit : ctx.mode = .all ∨ st.faultIndex < ctx.fetchLimit)
    (hok : (hal.parse st.get).1 = .ok) :
    ∃ consumed, Walked m ctx hal start (fetchEntry p m ctx (hal.parse st.get).2 st) consumed := by
  have hget : st.get < m := by
    rw [h.get]
    exact iterate_ringNext_lt hstart _
  -- the event of this entry goes to the end
  obtain ⟨ev, hlog, hev⟩ : ∃ ev : Event,
      (fetchEntry p m ctx (hal.parse st.get).2 st).log = ev :: st.log ∧
        ev = if (filterDrops p ctx st.predictor (st.parsed (hal.parse st.get).2)).1 then
          .dropped st.get (st.parsed (hal.parse st.get).2)
        else .cached st.get (st.parsed (hal.parse st.get).2) :=
    ⟨_, fetchEntry_log .., rfl⟩
  refine ⟨consumed ++ [ev], ?_, ?_, ?_, ?_, ?_, ?_, ?_⟩
  · rw [hlog, h.log, List.reverse_append]
    rfl
  · rw [fetchEntry_get, h.get, List.length_append, List.length_singleton,
      Function.iterate_succ_apply']
  · intro i e he
    rcases Nat.lt_or_ge i consumed.length with hlt | hge
    · rw [List.getElem?_append_left hlt] at he
      exact h.entries i e he
    · rw [List.getElem?_append_right hge, List.getElem?_singleton] at he
      split at he
      · rename_i hzero
        cases he
        rw [show i = consumed.length by omega, ← h.get, hev]
        refine ⟨hok, st.bc.faultCache st.faultIndex, ?_⟩
        split
        · exact .inr rfl
        · exact .inl rfl
      · cases he
  · rw [fetchEntry_get, List.length_append, List.length_singleton, ← h.pending,
      pendingEntries_ringNext hget hput hne]
    omega
  · rw [fetchEntry_faultIndex, fetchEntry_bc, List.filterMap_append, ← h.packets, hev]
    split
    -- the slot is used again for the next entry
    · rw [show BatchContext.firstEntries { storeParsed st.bc st.faultIndex (hal.parse st.get).2 with
          numPredFastSkipStale := st.bc.numPredFastSkipStale + 1 } st.faultIndex =
            (storeParsed st.bc st.faultIndex (hal.parse st.get).2).firstEntries st.faultIndex from rfl,
        firstEntries_storeParsed]
      simp [Event.cachedPacket]
    · rw [firstEntries_keepEntry, firstEntries_succ, firstEntries_storeParsed, List.map_append]
      simp [storeParsed, Event.cachedPacket, FetchState.parsed]
  · rw [fetchEntry_bc, List.countP_append, ← Nat.add_assoc, ← h.skipped, hev]
    split
    · simp [Event.isDropped]
    · rw [keepEntry_numPredFastSkipStale]
      simp [Event.isDropped, storeParsed]
  · intro hmode
    have hlt := hlimit.resolve_left hmode
    rw [fetchEntry_faultIndex]
    split
    · exact hlt.le
    · exact hlt

theorem Walked.loop (p : Params) (hal : Hal) (d : Driver) (hget : d.rf.cachedGet < m)
    (hput : ctx.put < m) (fuel : Nat) :
    ∃ consumed, Walked m ctx hal (fetchStart d) (fetchLoop p m ctx hal fuel (fetchStart d)).1
      consumed := by
  apply fetchLoop_invariant (I := fun st => ∃ consumed, Walked m ctx hal (fetchStart d) st consumed)
  · rintro st ⟨consumed, h⟩ hne hlimit hok
    exact h.step p hget hput hne hlimit hok
  · exact ⟨[], walked_fetchStart m ctx hal d⟩

end Walk

/-! ## A whole fetch -/

theorem fetchLimit_le (p : Params) (gpu : GpuConfig) (mode : FetchMode) (pending skipPct : Nat) :
    fetchLimit p gpu mode pending skipPct ≤ max 1 gpu.maxBatchSize := by
  unfold fetchLimit
  dsimp only
  split_ifs <;> omega

/-- What a fetch from `d` to `r` has done to the ring, by the entries it has consumed. -/
structure RingAccount (p : Params) (gpu : GpuConfig) (hal : Hal) (mode : FetchMode) (d r : Driver)
    (consumed : List Event) : Prop where
  /-- The log says which entries were consumed; a rebuild may stand on top. -/
  log : ∃ top, r.log = top ++ (consumed.reverse ++ .fetchBegin :: d.log) ∧
    ∀ ev ∈ top, ev.isRebuilt = true
  /-- They are the entries of the slots from get on, one after the other. -/
  entries : ∀ i (ev : Event), consumed[i]? = some ev →
    ev.IsEntryOf hal ((ringNext gpu.maxFaults)^[i] d.rf.cachedGet)
  get_lt : r.rf.cachedGet < gpu.maxFaults
  distance : pendingEntries d.rf.cachedGet r.rf.cachedGet gpu.maxFaults = consumed.length
  cached_add_dropped : consumed.length =
    r.bc.numCachedFaults + consumed.countP Event.isDropped
  le_pending : consumed.length ≤
    pendingEntries d.rf.cachedGet (fetchPut d.rf hal) gpu.maxFaults
  /-- The cached entries are the consumed ones that were not dropped. -/
  packets : (r.bc.firstEntries r.bc.numCachedFaults).map FaultEntry.toRawFault =
    consumed.filterMap Event.cachedPacket
  skipped : r.bc.numPredFastSkipStale =
    d.bc.numPredFastSkipStale + consumed.countP Event.isDropped
  /-- The slot after the last cached entry is still one of the fault cache. -/
  cached_lt : r.bc.numCachedFaults < gpu.maxFaults
  cached_le : mode ≠ .all → r.bc.numCachedFaults ≤ max 1 gpu.maxBatchSize
  stops : Stops (fetchCtx p gpu mode d.rf (fetchPut d.rf hal)) hal r.rf.cachedGet
    r.bc.numCachedFaults

theorem exists_ringAccount (p : Params) (gpu : GpuConfig) (hal : Hal) (mode : FetchMode) (d : Driver)
    (hget : d.rf.cachedGet < gpu.maxFaults) (hput : fetchPut d.rf hal < gpu.maxFaults) :
    ∃ consumed,
      RingAccount p gpu hal mode d (fetchFaultBufferEntries p gpu hal mode d).1 consumed := by
  obtain ⟨consumed, h⟩ := @Walked.loop gpu.maxFaults (fetchCtx p gpu mode d.rf (fetchPut d.rf hal))
    p hal d hget hput (pendingEntries d.rf.cachedGet (fetchPut d.rf hal) gpu.maxFaults)
  have hpending : consumed.length ≤
      pendingEntries d.rf.cachedGet (fetchPut d.rf hal) gpu.maxFaults :=
    (Nat.le_add_left _ _).trans_eq h.pending
  have hlt := hpending.trans_lt (pendingEntries_lt hget hput)
  have hlength := h.length_eq
  refine ⟨consumed, ?_, h.entries, ?_, ?_, hlength, hpending, h.packets, h.skipped, ?_, ?_,
    stops_fetchLoop hput hget (Nat.le_refl _)⟩
  · have hlog : (fetchedState p gpu hal mode d).1.log =
        consumed.reverse ++ .fetchBegin :: d.log := h.log
    rw [fetchFaultBufferEntries_eq]
    simp only [fetchFinish]
    split
    · refine ⟨[_], by rw [hlog]; rfl, fun ev hev => ?_⟩
      rw [List.mem_singleton.1 hev]
      rfl
    · exact ⟨[], hlog, fun ev hev => absurd hev List.not_mem_nil⟩
  · exact h.get.trans_lt (iterate_ringNext_lt hget _)
  · refine Eq.trans ?_ (pendingEntries_iterate hget hlt)
    exact congrArg (fun get => pendingEntries d.rf.cachedGet get gpu.maxFaults) h.get
  · refine Nat.lt_of_le_of_lt ?_ hlt
    rw [hlength]
    exact Nat.le_add_right _ _
  · intro hmode
    refine (h.limit hmode).trans ?_
    show (if d.rf.cachedGet = fetchPut d.rf hal then 0 else _) ≤ _
    split
    · exact Nat.zero_le _
    · exact fetchLimit_le _ _ _ _ _

/-- **The fetch loop accounts for the ring.** Whatever the ring, the parameters and the packets are, if
every entry that is waited for becomes valid in the end then the fetch ends, with any amount of fuel
from some amount on. It has consumed the entries from get on one after the other, each of which it
cached or dropped. -/
theorem fetch_accounts_for_ring (p : Params) (gpu : GpuConfig) (hal : PolledHal) (mode : FetchMode)
    (d : Driver) (hget : d.rf.cachedGet < gpu.maxFaults)
    (hput : fetchPut d.rf hal.first < gpu.maxFaults)
    (hvalid : ∀ n,
      let ctx := fetchCtx p gpu mode d.rf (fetchPut d.rf hal.first)
      let st := (fetchLoop p gpu.maxFaults ctx hal.first n (fetchStart d)).1
      Awaits ctx st → ∃ k, hal.polls st.get k = true) :
    ∃ fuel r consumed, (∀ more ≥ fuel, fetchPolled p gpu hal mode more d = some r) ∧
      RingAccount p gpu hal.first mode d r.1 consumed := by
  obtain ⟨fuel, hfuel⟩ := @fetchPolls_terminates p gpu.maxFaults
    (fetchCtx p gpu mode d.rf (fetchPut d.rf hal.first)) hal (fetchStart d) hget hput hvalid
  obtain ⟨consumed, haccount⟩ := exists_ringAccount p gpu hal.first mode d hget hput
  refine ⟨fuel, fetchFaultBufferEntries p gpu hal.first mode d, consumed, fun more hmore => ?_,
    haccount⟩
  rw [fetchPolled, fetchPolls_mono hfuel hmore]
  rfl

/-- Hardware that shows the given packets; each becomes valid at its third poll. -/
def slowHal (packets : List RawFault) : PolledHal where
  readPut := packets.length
  polls := fun _ k => 2 ≤ k
  parse := fun slot => (.ok, packets.getD slot { faultAddress := 0 })

/-- Two entries that become valid in the end. -/
theorem slow_entry_fetched :
    ∃ fuel r consumed, (∀ more ≥ fuel,
        fetchPolled {} { maxFaults := 8 } (slowHal [{ faultAddress := 0x1000 },
          { faultAddress := 0x2000 }]) .batchReady more freshDriver = some r) ∧
      RingAccount {} { maxFaults := 8 } (slowHal [{ faultAddress := 0x1000 },
        { faultAddress := 0x2000 }]).first .batchReady freshDriver r.1 consumed :=
  fetch_accounts_for_ring {} { maxFaults := 8 } _ .batchReady freshDriver (by decide) (by decide)
    fun _ _ => ⟨2, rfl⟩

end FaultMesh
