import FaultMesh.Types
import FaultMesh.Lib.EpochTable
import FaultMesh.Lib.KeyArray

/-!
# The previous-fetch predictor

The stale-fault filter remembers the faults of an earlier batch and answers, for an entry being
fetched, whether it was among them. Depending on the mode the memory is a sorted key array
(modes 0 and 1), an exact hash table (mode 2) or a table of 16-bit tags (mode 3). In front of
all of them stands a memo of the last lookup.
-/

namespace FaultMesh

/-! ## Keys and hashing -/

structure PrevFetchKey where
  instancePtr : PhysAddr
  veId : Nat
  faultAddress : Nat
  deriving DecidableEq, Repr

def RawFault.prevFetchKey (e : RawFault) : PrevFetchKey := ⟨e.instancePtr, e.veId, e.faultAddress⟩

/-- `prev_fetch_hash_mix`, in 64-bit arithmetic. -/
def prevFetchHashMix (faultAddress : Nat) : Nat :=
  let x := faultAddress >>> 12
  let x := x ^^^ (x >>> 32)
  let x := (x * 0x9E3779B97F4A7C15) % 2 ^ 64
  x ^^^ (x >>> 29)

def prevFetchHashIndex (faultAddress mask : Nat) : Nat := prevFetchHashMix faultAddress &&& mask

/-- `prev_fetch_tag_value`: never zero. -/
def prevFetchTagValue (faultAddress : Nat) : Nat :=
  let tag := (prevFetchHashMix faultAddress >>> 16) &&& 0xffff
  if tag = 0 then 1 else tag

/-- `prev_fetch_predictor_use_coalesced_pages`. -/
def PrevFetchMode.useCoalescedPages : PrevFetchMode → Bool
  | .fetchCache => false
  | _ => true

/-- `cmp_prev_fetch_key`: mode 1 looks at the address only. -/
def cmpPrevFetchKey (mode : PrevFetchMode) (a b : PrevFetchKey) : Ordering :=
  match mode with
  | .coalescedBsearch => compare a.faultAddress b.faultAddress
  | _ =>
    (a.instancePtr.cmp b.instancePtr).then
      ((compare a.veId b.veId).then (compare a.faultAddress b.faultAddress))

/-! ## State and lookup -/

/-- The predictor fields of `uvm_replayable_fault_buffer_info_t`. `keys` is the used part
`prev_fetch_keys[0 .. prev_fetch_key_count)`; `last` is `none` while `prev_fetch_last_valid` is
false. -/
structure Predictor where
  keys : List PrevFetchKey
  exact : EpochTable Nat
  tags : EpochTable Nat
  last : Option (PrevFetchKey × Bool)
  lastBatchFetchSkipPct : Nat
  adaptiveActive : Bool
  adaptiveCooldownRemaining : Nat

/-- The predictor as `fault_buffer_init_replayable_faults` leaves it, for tables of the given
sizes. -/
def Predictor.init (exactSize tagSize : Nat) (hexact : 0 < exactSize) (htag : 0 < tagSize) :
    Predictor where
  keys := []
  exact := EpochTable.init exactSize hexact 0
  tags := EpochTable.init tagSize htag 0
  last := none
  lastBatchFetchSkipPct := 0
  adaptiveActive := true
  adaptiveCooldownRemaining := 0

/-- A predictor with tables of 64 slots, the smallest that the driver allocates. -/
def smallPredictor : Predictor := Predictor.init 64 64 (by decide) (by decide)

/-- Slot of an address in the mode 2 table (`prev_fetch_exact_mask` is the size minus one). -/
def Predictor.exactIndex (pr : Predictor) (addr : Nat) : Nat :=
  prevFetchHashIndex addr (pr.exact.size - 1)

/-- Slot of an address in the mode 3 table. -/
def Predictor.tagIndex (pr : Predictor) (addr : Nat) : Nat :=
  prevFetchHashIndex addr (pr.tags.size - 1)

/-- The part of `prev_fetch_keys_contains` behind the memo: what the table of the mode says. -/
def tableContains (mode : PrevFetchMode) (pr : Predictor) (e : RawFault) : Bool :=
  match mode with
  | .hashExact => pr.exact.lookup (pr.exactIndex e.faultAddress) = some e.faultAddress
  | .hashApprox => pr.tags.lookup (pr.tagIndex e.faultAddress) = some (prevFetchTagValue e.faultAddress)
  | mode =>
    binarySearch pr.keys (cmpPrevFetchKey mode e.prevFetchKey) pr.keys.length 0 pr.keys.length

def prevFetchLastMatches (k : PrevFetchKey) (e : RawFault) : Bool :=
  k.faultAddress = e.faultAddress && k.veId = e.veId && k.instancePtr.cmp e.instancePtr = .eq

/-- `prev_fetch_keys_contains`: the memo first, then the table; the answer becomes the memo. -/
def prevFetchKeysContains (mode : PrevFetchMode) (pr : Predictor) (e : RawFault) :
    Bool × Predictor :=
  let fromTable : Bool × Predictor :=
    let hit := tableContains mode pr e
    (hit, { pr with last := some (e.prevFetchKey, hit) })
  match pr.last with
  | some (k, hit) => if prevFetchLastMatches k e then (hit, pr) else fromTable
  | none => fromTable

def prevFetchAdaptiveShouldRun (p : Params) (pr : Predictor) : Bool :=
  !p.predAdaptiveEnable || pr.adaptiveActive

/-! ## Rebuilding -/

/-- Counters of the batch that `finalize_prev_fetch_predictor` turns into a skip percentage. -/
structure BatchCounts where
  numCachedFaults : Nat
  numCoalescedFaults : Nat
  numPredFastSkipStale : Nat

/-- The percentage `finalize_prev_fetch_predictor` stores. -/
def fetchSkipPct (mode : PrevFetchMode) (c : BatchCounts) : Nat :=
  let effective :=
    (if mode.useCoalescedPages then c.numCoalescedFaults else c.numCachedFaults) +
      c.numPredFastSkipStale
  if effective = 0 then 0 else min (c.numPredFastSkipStale * 100 / effective) 100

/-- Keys `update_prev_fetch_predictor_from_fetch_cache` takes from the cached entries. -/
def fetchCacheKeys (cached : List FaultEntry) : List PrevFetchKey :=
  (cached.filter fun e => !(e.filtered && !e.predFetchSkip)).map fun e => e.prevFetchKey

/-- The test that skips a repetition while collecting: same address as the last key stored. -/
def repeatsLastKey (single : Bool) (e : FaultEntry) : List PrevFetchKey → Bool
  | [] => false
  | k :: _ => single && k.faultAddress = e.faultAddress

/-- The collecting loop of `update_prev_fetch_predictor_from_coalesced_bsearch`. `first` is the
VA space of entry 0, `single` is `single_va_space`, `acc` the keys stored so far, last first. -/
def coalescedKeys (first : Option VaSpaceId) :
    Bool → List PrevFetchKey → List FaultEntry → Bool × List PrevFetchKey
  | single, acc, [] => (single, acc.reverse)
  | single, acc, e :: es =>
    let single := single && e.vaSpace = first
    if repeatsLastKey single e acc then coalescedKeys first single acc es
    else coalescedKeys first single (⟨⟨0, 0⟩, 0, e.faultAddress⟩ :: acc) es

/-- The key array `update_prev_fetch_predictor_from_coalesced_bsearch` leaves. A batch of one VA
space is sorted by address already and had its repetitions skipped while collecting. -/
def coalescedBsearchKeys (coalesced : List FaultEntry) : List PrevFetchKey :=
  let cmp := cmpPrevFetchKey .coalescedBsearch
  let collected := coalescedKeys (coalesced.head?.bind FaultEntry.vaSpace) true [] coalesced
  if collected.1 then collected.2 else uniqueAdjacent cmp (sortBy cmp collected.2)

/-- `update_prev_fetch_predictor`: replace the table of the mode by the faults of a batch, given
as the entries `fault_cache[0 .. num_cached_faults)` and the ordered coalesced entries. -/
def updatePrevFetchPredictor (p : Params) (c : BatchCounts) (cached coalesced : List FaultEntry)
    (pr : Predictor) : Predictor :=
  if !p.prevFetchPredictorEnable then { pr with keys := [], lastBatchFetchSkipPct := 0 }
  else
    let pr := { pr with lastBatchFetchSkipPct := fetchSkipPct p.prevFetchMode c }
    match p.prevFetchMode with
    | .hashExact =>
      { pr with exact :=
          pr.exact.build (coalesced.map fun e => (pr.exactIndex e.faultAddress, e.faultAddress)) }
    | .hashApprox =>
      { pr with tags :=
          pr.tags.build (coalesced.map fun e =>
            (pr.tagIndex e.faultAddress, prevFetchTagValue e.faultAddress)) }
    | .coalescedBsearch => { pr with keys := coalescedBsearchKeys coalesced }
    | .fetchCache =>
      let cmp := cmpPrevFetchKey .fetchCache
      { pr with keys := uniqueAdjacent cmp (sortBy cmp (fetchCacheKeys cached)) }

/-- The key a mode tells faults apart by: the whole key in mode 0, the page address otherwise. -/
def filterKey (mode : PrevFetchMode) (e : RawFault) : PrevFetchKey :=
  match mode with
  | .fetchCache => e.prevFetchKey
  | _ => ⟨⟨0, 0⟩, 0, e.faultAddress⟩

theorem faultAddress_of_filterKey {mode : PrevFetchMode} {e f : RawFault}
    (h : filterKey mode e = filterKey mode f) : e.faultAddress = f.faultAddress := by
  cases mode <;> exact (PrevFetchKey.mk.inj h).2.2

/-! ## Lookup lemmas -/

theorem PhysAddr.cmp_eq_iff {a b : PhysAddr} : a.cmp b = .eq ↔ a = b := by
  cases a
  cases b
  simp [PhysAddr.cmp, Ordering.then_eq_eq]

@[simp] theorem prevFetchLastMatches_iff {k : PrevFetchKey} {e : RawFault} :
    prevFetchLastMatches k e = true ↔ k = e.prevFetchKey := by
  cases k
  simp only [prevFetchLastMatches, RawFault.prevFetchKey, PhysAddr.cmp_eq_iff, Bool.and_eq_true,
    decide_eq_true_eq, PrevFetchKey.mk.injEq]
  tauto

theorem prevFetchKeysContains_fst (mode : PrevFetchMode) (pr : Predictor) (e : RawFault) :
    (prevFetchKeysContains mode pr e).1 =
      match pr.last with
      | some (k, hit) => if k = e.prevFetchKey then hit else tableContains mode pr e
      | none => tableContains mode pr e := by
  unfold prevFetchKeysContains
  rcases pr.last with _ | ⟨k, hit⟩
  · rfl
  · by_cases h : k = e.prevFetchKey
    · simp [h]
    · simp [h]

theorem prevFetchKeysContains_snd (mode : PrevFetchMode) (pr : Predictor) (e : RawFault) :
    (prevFetchKeysContains mode pr e).2 =
      { pr with last := some (e.prevFetchKey, (prevFetchKeysContains mode pr e).1) } := by
  unfold prevFetchKeysContains
  rcases h : pr.last with _ | ⟨k, hit⟩
  · rfl
  · by_cases hk : k = e.prevFetchKey
    · subst hk
      simp [← h]
    · simp [hk]

def PrevFetchKey.fault (k : PrevFetchKey) : RawFault :=
  { faultAddress := k.faultAddress, instancePtr := k.instancePtr, veId := k.veId }

/-- A hit remembered by the memo is one of the table. Nothing in the driver maintains this when a
table is rebuilt. -/
def MemoSound (mode : PrevFetchMode) (pr : Predictor) : Prop :=
  match pr.last with
  | some (k, true) => tableContains mode pr k.fault = true
  | _ => True

instance (mode : PrevFetchMode) (pr : Predictor) : Decidable (MemoSound mode pr) :=
  match h : pr.last with
  | some (k, true) =>
    decidable_of_iff (tableContains mode pr k.fault = true) (by simp [MemoSound, h])
  | some (k, false) => isTrue (by simp [MemoSound, h])
  | none => isTrue (by simp [MemoSound, h])

@[simp] theorem tableContains_with_last (mode : PrevFetchMode) (pr : Predictor) (e : RawFault)
    (l : Option (PrevFetchKey × Bool)) :
    tableContains mode { pr with last := l } e = tableContains mode pr e := rfl

theorem tableContains_congr {mode : PrevFetchMode} (pr : Predictor) {e f : RawFault}
    (h : filterKey mode e = filterKey mode f) :
    tableContains mode pr e = tableContains mode pr f := by
  cases mode with
  | fetchCache =>
    have hkey : e.prevFetchKey = f.prevFetchKey := h
    simp only [tableContains, hkey]
  | coalescedBsearch =>
    have haddr := faultAddress_of_filterKey h
    have hcmp : cmpPrevFetchKey .coalescedBsearch e.prevFetchKey =
        cmpPrevFetchKey .coalescedBsearch f.prevFetchKey := by
      funext k
      simp [cmpPrevFetchKey, RawFault.prevFetchKey, haddr]
    simp only [tableContains, hcmp]
  | hashExact =>
    have haddr := faultAddress_of_filterKey h
    simp only [tableContains, haddr]
  | hashApprox =>
    have haddr := faultAddress_of_filterKey h
    simp only [tableContains, haddr]

theorem filterKey_fault (mode : PrevFetchMode) (e : RawFault) :
    filterKey mode e.prevFetchKey.fault = filterKey mode e := by
  cases mode <;> rfl

theorem MemoSound.tableContains_of_hit {mode : PrevFetchMode} {pr : Predictor} {e : RawFault}
    (h : MemoSound mode pr) (hhit : (prevFetchKeysContains mode pr e).1 = true) :
    tableContains mode pr e = true := by
  rw [prevFetchKeysContains_fst] at hhit
  unfold MemoSound at h
  rcases hl : pr.last with _ | ⟨k, hit⟩
  · simpa [hl] using hhit
  · by_cases hk : k = e.prevFetchKey
    -- answered by the memo
    · obtain rfl : hit = true := by simpa [hl, hk] using hhit
      rw [hl, hk] at h
      rw [← tableContains_congr pr (filterKey_fault mode e)]
      exact h
    · simpa [hl, hk] using hhit

theorem MemoSound.contains_snd {mode : PrevFetchMode} {pr : Predictor}
    (h : MemoSound mode pr) (e : RawFault) :
    MemoSound mode (prevFetchKeysContains mode pr e).2 := by
  rw [prevFetchKeysContains_snd]
  cases hhit : (prevFetchKeysContains mode pr e).1 with
  | false => trivial
  | true =>
    show tableContains mode _ e.prevFetchKey.fault = true
    rw [tableContains_with_last, tableContains_congr pr (filterKey_fault mode e)]
    exact h.tableContains_of_hit hhit

/-! ## What a rebuilt table answers for -/

theorem Predictor.exactIndex_lt (pr : Predictor) (addr : Nat) :
    pr.exactIndex addr < pr.exact.size := by
  have hand : prevFetchHashIndex addr (pr.exact.size - 1) ≤ pr.exact.size - 1 := Nat.and_le_right
  have hpos := pr.exact.size_pos
  unfold Predictor.exactIndex
  omega

theorem exists_mem_of_mem_coalescedKeys {first : Option VaSpaceId} {single : Bool}
    {acc : List PrevFetchKey} {es : List FaultEntry} {k : PrevFetchKey}
    (h : k ∈ (coalescedKeys first single acc es).2) :
    k ∈ acc ∨ ∃ e ∈ es, e.faultAddress = k.faultAddress := by
  induction es generalizing single acc with
  | nil =>
    left
    simpa [coalescedKeys] using h
  | cons e es ih =>
    unfold coalescedKeys at h
    dsimp only at h
    split at h
    all_goals rcases ih h with hacc | ⟨f, hf, hfk⟩
    · exact .inl hacc
    · exact .inr ⟨f, List.mem_cons_of_mem _ hf, hfk⟩
    · rcases List.mem_cons.1 hacc with rfl | hacc
      · exact .inr ⟨e, List.mem_cons_self, rfl⟩
      · exact .inl hacc
    · exact .inr ⟨f, List.mem_cons_of_mem _ hf, hfk⟩

theorem exists_mem_of_mem_coalescedBsearchKeys {coalesced : List FaultEntry} {k : PrevFetchKey}
    (h : k ∈ coalescedBsearchKeys coalesced) :
    ∃ e ∈ coalesced, e.faultAddress = k.faultAddress := by
  have hcollected : k ∈ (coalescedKeys (coalesced.head?.bind FaultEntry.vaSpace) true []
      coalesced).2 := by
    unfold coalescedBsearchKeys at h
    dsimp only at h
    split at h
    · exact h
    · exact mem_sortBy.1 (mem_of_mem_uniqueAdjacent h)
  simpa using exists_mem_of_mem_coalescedKeys hcollected

/-- The entries an update of the given mode reads. -/
def rebuildSource (mode : PrevFetchMode) (cached coalesced : List FaultEntry) : List FaultEntry :=
  if mode.useCoalescedPages then coalesced
  else cached.filter fun e => !(e.filtered && !e.predFetchSkip)

/-- **Soundness of a rebuilt table** (exact modes): it only answers for keys of the entries it
was rebuilt from. -/
theorem exists_mem_of_tableContains_update {p : Params} {c : BatchCounts}
    {cached coalesced : List FaultEntry} {pr : Predictor} {e : RawFault}
    (hen : p.prevFetchPredictorEnable = true) (hmode : p.prevFetchMode ≠ .hashApprox)
    (h : tableContains p.prevFetchMode (updatePrevFetchPredictor p c cached coalesced pr) e = true) :
    ∃ f ∈ rebuildSource p.prevFetchMode cached coalesced,
      filterKey p.prevFetchMode f.toRawFault = filterKey p.prevFetchMode e := by
  unfold updatePrevFetchPredictor at h
  simp only [hen, Bool.not_true, Bool.false_eq_true, if_false] at h
  cases hm : p.prevFetchMode with
  | hashApprox => exact absurd hm hmode
  | hashExact =>
    simp only [hm, tableContains, decide_eq_true_eq, Predictor.exactIndex,
      EpochTable.build_size] at h
    have hmem := EpochTable.mem_of_lookup_build pr.exact (pr.exactIndex_lt _) h
    obtain ⟨f, hf, hpair⟩ := List.mem_map.1 hmem
    refine ⟨f, by simpa [rebuildSource, PrevFetchMode.useCoalescedPages] using hf, ?_⟩
    simpa [filterKey] using (Prod.mk.inj hpair).2
  -- a hit of the search is a key, sorted or not
  | coalescedBsearch =>
    simp only [hm, tableContains] at h
    obtain ⟨k, hk, hcmp⟩ := exists_mem_of_binarySearch h
    obtain ⟨f, hf, haddr⟩ := exists_mem_of_mem_coalescedBsearchKeys hk
    refine ⟨f, by simpa [rebuildSource, PrevFetchMode.useCoalescedPages] using hf, ?_⟩
    have heq : e.faultAddress = k.faultAddress := by
      simpa [cmpPrevFetchKey, RawFault.prevFetchKey] using hcmp
    simp [filterKey, haddr, heq]
  | fetchCache =>
    simp only [hm, tableContains] at h
    obtain ⟨k, hk, hcmp⟩ := exists_mem_of_binarySearch h
    obtain ⟨f, hf, rfl⟩ := List.mem_map.1 (mem_sortBy.1 (mem_of_mem_uniqueAdjacent hk))
    refine ⟨f, by simpa [rebuildSource, PrevFetchMode.useCoalescedPages] using hf, ?_⟩
    simp only [cmpPrevFetchKey, Ordering.then_eq_eq, PhysAddr.cmp_eq_iff,
      Nat.compare_eq_eq, RawFault.prevFetchKey] at hcmp
    simp [filterKey, RawFault.prevFetchKey, hcmp]

end FaultMesh
