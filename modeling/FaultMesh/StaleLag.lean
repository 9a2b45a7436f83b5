import FaultMesh.Lib.Machine
import FaultMesh.Lib.ProbeTable
import FaultMesh.Types

/-!
# The stale-lag map

For stale faults in a tracked range the driver reports how many batches ago their page was serviced.
The batch of the last service is kept in a map of 4096 slots, in which a page has eight slots to
choose from. An identifier of zero marks an empty slot.
-/

namespace FaultMesh.StaleLag

open Function

def trackedStaleLagMapSize : Nat := 4096

def trackedStaleLagMapProbes : Nat := 8

structure LagEntry where
  pageAddress : Nat := 0
  lastServiceBatchId : Nat := 0
  deriving DecidableEq, Repr

abbrev LagMap := Nat → LagEntry

def trackedStaleLagHash (page : Nat) : Nat := page / 2 ^ 12 % trackedStaleLagMapSize

def lagSlot (page probe : Nat) : Nat := (trackedStaleLagHash page + probe) % trackedStaleLagMapSize

/-- The loop of `tracked_stale_prev_lag_get`, with the probes that are left. -/
def getFrom (m : LagMap) (page currentBatchId : Nat) : Nat → Nat → Nat
  | 0, _ => 0
  | n + 1, probe =>
    let entry := m (lagSlot page probe)
    if entry.lastServiceBatchId = 0 then 0
    else if entry.pageAddress = page then
      if entry.lastServiceBatchId < currentBatchId then currentBatchId - entry.lastServiceBatchId
      else 0
    else getFrom m page currentBatchId n (probe + 1)

def trackedStalePrevLagGet (m : LagMap) (faultAddress currentBatchId : Nat) : Nat :=
  getFrom m (pageAlignDown faultAddress) currentBatchId trackedStaleLagMapProbes 0

/-- The loop of `tracked_stale_prev_lag_record_service`: the probe whose slot is written. -/
def recordProbe (m : LagMap) (page : Nat) : Nat → Nat → Nat → Nat
  | 0, _, victim => victim
  | n + 1, probe, victim =>
    let entry := m (lagSlot page probe)
    if entry.lastServiceBatchId = 0 ∨ entry.pageAddress = page then probe
    else
      recordProbe m page n (probe + 1)
        (if entry.lastServiceBatchId < (m (lagSlot page victim)).lastServiceBatchId then probe
        else victim)

/-- A call of `tracked_stale_prev_lag_record_service`. -/
structure Record where
  faultAddress : Nat
  batchId : Nat
  deriving DecidableEq, Repr

def Record.page (r : Record) : Nat := pageAlignDown r.faultAddress

def Record.slot (m : LagMap) (r : Record) : Nat :=
  lagSlot r.page (recordProbe m r.page trackedStaleLagMapProbes 0 0)

def trackedStalePrevLagRecordService (m : LagMap) (r : Record) : LagMap :=
  update m (r.slot m) ⟨r.page, r.batchId⟩

def lagMachine : Machine LagMap Record where
  step m r := some (trackedStalePrevLagRecordService m r)

/-! ## The map as a table -/

def table (m : LagMap) (s : Nat) : Option (Nat × Nat) :=
  if (m s).lastServiceBatchId = 0 then none else some ((m s).pageAddress, (m s).lastServiceBatchId)

variable {m : LagMap} {page : Nat} {r : Record} {recs : List Record}

theorem openTo_iff {s : Nat} : OpenTo (table m) page s ↔
    (m s).lastServiceBatchId = 0 ∨ (m s).pageAddress = page := by
  unfold OpenTo table
  split
  next h => simp [h]
  next h => simp [h]

theorem getFrom_eq (m : LagMap) (page current n probe : Nat) : getFrom m page current n probe =
    match searchFrom lagSlot (table m) page n probe with
    | some last => if last < current then current - last else 0
    | none => 0 := by
  induction n generalizing probe with
  | zero => rfl
  | succ n ih =>
    rw [getFrom, searchFrom, table]
    split
    · rfl
    · dsimp only
      split
      · rfl
      · exact ih (probe + 1)

theorem recordProbe_spec (m : LagMap) (page n probe victim : Nat) :
    (recordProbe m page n probe victim < probe + n ∧
      (∀ j, probe ≤ j → j < recordProbe m page n probe victim → ¬ OpenTo (table m) page (lagSlot page j)) ∧
      OpenTo (table m) page (lagSlot page (recordProbe m page n probe victim))) ∨
    ((recordProbe m page n probe victim = victim ∨ recordProbe m page n probe victim < probe + n) ∧
      ∀ j, probe ≤ j → j < probe + n → ¬ OpenTo (table m) page (lagSlot page j)) := by
  induction n generalizing probe victim with
  | zero => exact .inr ⟨.inl rfl, fun j hle hlt => absurd hle (Nat.not_le.2 hlt)⟩
  | succ n ih =>
    rw [recordProbe]
    split
    next hopen =>
      refine .inl ⟨by omega, fun j hle hlt => absurd hle (Nat.not_le.2 hlt), openTo_iff.2 hopen⟩
    next hclosed =>
      have hfirst : ¬ OpenTo (table m) page (lagSlot page probe) := mt openTo_iff.1 hclosed
      have hstep : ∀ {j : Nat}, probe ≤ j → j = probe ∨ probe + 1 ≤ j := by omega
      obtain ⟨hlt, hbefore, hopen⟩ | ⟨hvictim, hnone⟩ := ih (probe + 1)
        (if (m (lagSlot page probe)).lastServiceBatchId < (m (lagSlot page victim)).lastServiceBatchId
          then probe else victim)
      · refine .inl ⟨by omega, fun j hle hj => ?_, hopen⟩
        obtain rfl | hle := hstep hle
        · exact hfirst
        · exact hbefore j hle hj
      · refine .inr ⟨?_, fun j hle hj => ?_⟩
        · obtain heq | hlt := hvictim
          · rw [heq]
            split
            · exact .inr (by omega)
            · exact .inl rfl
          · exact .inr (by omega)
        · obtain rfl | hle := hstep hle
          · exact hfirst
          · exact hnone j hle (by omega)

theorem writable_recordProbe (m : LagMap) (page : Nat) : Writable lagSlot trackedStaleLagMapProbes
    (table m) page (recordProbe m page trackedStaleLagMapProbes 0 0) := by
  obtain ⟨hlt, hbefore, hopen⟩ | ⟨hvictim, hnone⟩ :=
    recordProbe_spec m page trackedStaleLagMapProbes 0 0
  · exact ⟨by omega, fun j => hbefore j (Nat.zero_le j), .inl hopen⟩
  · have hlt : recordProbe m page trackedStaleLagMapProbes 0 0 < trackedStaleLagMapProbes := by
      obtain heq | hlt := hvictim
      · rw [heq]
        decide
      · omega
    exact ⟨hlt, fun j hj => hnone j (Nat.zero_le j) (by omega),
      .inr fun j hj => hnone j (Nat.zero_le j) (by omega)⟩

theorem table_record (m : LagMap) (hpos : r.batchId ≠ 0) :
    table (trackedStalePrevLagRecordService m r) =
      update (table m) (r.slot m) (some (r.page, r.batchId)) := by
  funext s
  by_cases hs : s = r.slot m
  · simp [table, trackedStalePrevLagRecordService, hs, hpos]
  · simp [table, trackedStalePrevLagRecordService, update_of_ne hs]

/-! ## The most recent records -/

/-- The record is in the history, and no later one is for its page. -/
def MostRecent (recs : List Record) (r : Record) : Prop :=
  ∃ pre post, recs = pre ++ r :: post ∧ ∀ r' ∈ post, r'.page ≠ r.page

theorem mostRecent_concat (recs : List Record) (r : Record) : MostRecent (recs ++ [r]) r :=
  ⟨recs, [], rfl, nofun⟩

theorem MostRecent.concat {r' : Record} (h : MostRecent recs r) (hne : r'.page ≠ r.page) :
    MostRecent (recs ++ [r']) r := by
  obtain ⟨pre, post, rfl, hpost⟩ := h
  refine ⟨pre, post ++ [r'], by simp, fun q hq => ?_⟩
  obtain hq | hq := List.mem_append.1 hq
  · exact hpost q hq
  · rw [List.mem_singleton.1 hq]
    exact hne

/-- Each page is in the map once, where the search finds it, with its most recent record. -/
structure LagInv (m : LagMap) (recs : List Record) : Prop where
  probed : Probed lagSlot trackedStaleLagMapProbes (table m)
  recent : ∀ s page last, table m s = some (page, last) →
    ∃ r, MostRecent recs r ∧ r.page = page ∧ r.batchId = last

theorem LagInv.record (h : LagInv m recs) (hpos : 1 ≤ r.batchId) :
    LagInv (trackedStalePrevLagRecordService m r) (recs ++ [r]) := by
  have hw := writable_recordProbe m r.page
  have htable := table_record (r := r) m (Nat.ne_of_gt hpos)
  refine ⟨htable ▸ h.probed.write hw _, fun s page last hs => ?_⟩
  rw [htable] at hs
  by_cases heq : s = r.slot m
  · rw [heq, update_self] at hs
    cases hs
    exact ⟨r, mostRecent_concat recs r, rfl, rfl⟩
  · rw [update_of_ne heq] at hs
    obtain ⟨r', hrecent, rfl, rfl⟩ := h.recent s page last hs
    refine ⟨r', hrecent.concat fun hpage => heq ?_, rfl, rfl⟩
    exact h.probed.slot_eq hw (hpage ▸ hs)

theorem lagInv_run {recs' : List Record} {m' : LagMap} (h : LagInv m recs)
    (hpos : ∀ r ∈ recs', 1 ≤ r.batchId) (hrun : lagMachine.run m recs' = some m') :
    LagInv m' (recs ++ recs') := by
  induction recs' generalizing m recs with
  | nil =>
    cases hrun
    rwa [List.append_nil]
  | cons r recs' ih =>
    obtain ⟨t, hstep, hrun⟩ := lagMachine.run_cons_eq_some.1 hrun
    cases hstep
    have hrec := ih (h.record (hpos r List.mem_cons_self))
      (fun r' hr' => hpos r' (List.mem_cons_of_mem r hr')) hrun
    rwa [List.append_assoc] at hrec

theorem lagInv_zero : LagInv (fun _ => {}) [] := ⟨probed_empty _ _, nofun⟩

/-- No other page is written over the page. -/
def Spares (page : Nat) (m : LagMap) (r : Record) : Prop :=
  r.page = page ∨ (table m (r.slot m)).map Prod.fst ≠ some page

instance (page : Nat) (m : LagMap) (r : Record) : Decidable (Spares page m r) :=
  inferInstanceAs (Decidable (_ ∨ _))

theorem table_of_spares {s last : Nat} (h : table m s = some (page, last)) (hpos : 1 ≤ r.batchId)
    (hne : r.page ≠ page) (hspares : Spares page m r) :
    table (trackedStalePrevLagRecordService m r) s = some (page, last) := by
  rw [table_record m (Nat.ne_of_gt hpos), update_of_ne, h]
  rintro rfl
  exact hspares.resolve_left hne (by rw [h]; rfl)

theorem table_run {s last : Nat} {post : List Record} {m' : LagMap} (h : table m s = some (page, last))
    (hpos : ∀ r ∈ post, 1 ≤ r.batchId) (hne : ∀ r ∈ post, r.page ≠ page)
    (hspares : lagMachine.Meets (Spares page) m post) (hrun : lagMachine.run m post = some m') :
    table m' s = some (page, last) := by
  induction post generalizing m with
  | nil =>
    cases hrun
    exact h
  | cons r post ih =>
    obtain ⟨t, hstep, hrun⟩ := lagMachine.run_cons_eq_some.1 hrun
    have hmeets := hspares.2 t hstep
    cases hstep
    exact ih (table_of_spares h (hpos r List.mem_cons_self) (hne r List.mem_cons_self) hspares.1)
      (fun r' hr' => hpos r' (List.mem_cons_of_mem r hr'))
      (fun r' hr' => hne r' (List.mem_cons_of_mem r hr')) hmeets hrun

/-! ## Main result -/

/-- After any records: each page is in one slot at most, a reported lag is the one to the most recent
record of the page, and that lag is reported for a page that was spared since then, if the batch is a
later one. -/
theorem lag_never_wrong (recs : List Record) (m : LagMap) (hpos : ∀ r ∈ recs, 1 ≤ r.batchId)
    (hrun : lagMachine.run (fun _ => {}) recs = some m) :
    (∀ s s', (m s).lastServiceBatchId ≠ 0 → (m s').lastServiceBatchId ≠ 0 →
      (m s).pageAddress = (m s').pageAddress → s = s') ∧
    (∀ addr current, trackedStalePrevLagGet m addr current = 0 ∨
      ∃ r, MostRecent recs r ∧ r.page = pageAlignDown addr ∧ r.batchId < current ∧
        trackedStalePrevLagGet m addr current = current - r.batchId) ∧
    ∀ pre r post m₁, recs = pre ++ [r] ++ post → (∀ r' ∈ post, r'.page ≠ r.page) →
      lagMachine.run (fun _ => {}) (pre ++ [r]) = some m₁ →
      lagMachine.Meets (Spares r.page) m₁ post →
      ∀ addr current, pageAlignDown addr = r.page → r.batchId < current →
        trackedStalePrevLagGet m addr current = current - r.batchId := by
  have hinv : LagInv m recs := lagInv_run lagInv_zero hpos hrun
  refine ⟨fun s s' hs hs' hpage => ?_, fun addr current => ?_, ?_⟩
  · apply hinv.probed.unique s s' (m s).pageAddress (m s).lastServiceBatchId (m s').lastServiceBatchId
    · rw [table, if_neg hs]
    · rw [table, if_neg hs', hpage]
  · rw [trackedStalePrevLagGet, getFrom_eq]
    split
    next last hfound =>
      obtain ⟨s, hs⟩ := hinv.probed.search_eq_some_iff.1 hfound
      obtain ⟨r, hrecent, hpage, rfl⟩ := hinv.recent s _ _ hs
      split
      next hlt => exact .inr ⟨r, hrecent, hpage, hlt, rfl⟩
      next => exact .inl rfl
    next => exact .inl rfl
  · rintro pre r post m₁ rfl hlast hfirst hspares addr current haddr hlt
    obtain ⟨m₂, hbefore, hafter⟩ := lagMachine.run_append_eq_some.1 hrun
    obtain rfl : m₂ = m₁ := Option.some.inj (hbefore.symm.trans hfirst)
    obtain ⟨m₀, -, hrec⟩ := lagMachine.run_append_eq_some.1 hfirst
    obtain ⟨t, hstep, hend⟩ := lagMachine.run_cons_eq_some.1 hrec
    cases hstep
    cases hend
    -- the record stands in its slot, and stays there
    have hstored : table (trackedStalePrevLagRecordService m₀ r) (r.slot m₀) =
        some (r.page, r.batchId) := by
      rw [table_record m₀ (Nat.ne_of_gt (hpos r (by simp))), update_self]
    have hkept := table_run hstored (fun r' hr' => hpos r' (by simp [hr'])) hlast hspares hafter
    rw [trackedStalePrevLagGet, getFrom_eq, haddr, hinv.probed.search_eq_some_iff.2 ⟨_, hkept⟩]
    exact if_pos hlt

/-- A page is recorded in batch 3, another one of the same slot in batch 5, and asked for in batch 9. -/
theorem lag_of_six :
    ∃ m, lagMachine.run (fun _ => {}) [⟨4096, 3⟩, ⟨4096 + 2 ^ 24, 5⟩] = some m ∧
      trackedStalePrevLagGet m 4100 9 = 6 := by
  refine ⟨_, rfl, ?_⟩
  exact (lag_never_wrong [⟨4096, 3⟩, ⟨4096 + 2 ^ 24, 5⟩] _ (by decide) rfl).2.2 [] ⟨4096, 3⟩
    [⟨4096 + 2 ^ 24, 5⟩] _ rfl (by decide) rfl (by decide) 4100 9 rfl (by decide)

end FaultMesh.StaleLag
