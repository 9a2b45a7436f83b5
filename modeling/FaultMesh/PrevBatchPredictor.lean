import FaultMesh.PredictorHistory

/-!
# The previous-batch predictor

Next to the filter of the fetch stage the driver keeps the pages of the last serviced batch, as
pairs of VA space and address sorted for binary search. `update_prev_batch_predictor` goes over an
ordered batch once: it marks the first entry of each pair that was in the last batch and stores the
pairs of this batch for the next.

Both use one array. The new pairs are written from its front while the pairs of the last batch are
still being looked up in it, over their old number. What a lookup can find is therefore the part of
the old array behind the pairs written so far.
-/

namespace FaultMesh

open Function (update update_of_ne)

/-! ## The code -/

structure PrevBatchKey where
  vaSpace : Option VaSpaceId
  faultAddress : Nat
  deriving DecidableEq, Repr

def FaultEntry.prevBatchKey (e : FaultEntry) : PrevBatchKey := ⟨e.vaSpace, e.faultAddress⟩

def cmpPrevBatchKey (a b : PrevBatchKey) : Ordering :=
  (cmpVaSpace a.vaSpace b.vaSpace).then (compare a.faultAddress b.faultAddress)

/-- The fields of `uvm_replayable_fault_buffer_info_t` that belong to this predictor. -/
structure PrevBatch where
  prevBatchKeys : Nat → PrevBatchKey
  prevBatchKeyCount : Nat
  lastBatchPredCandidatePct : Nat

/-- The used part `prev_batch_keys[0 .. count)` of the array. -/
def usedKeys (keys : Nat → PrevBatchKey) (count : Nat) : List PrevBatchKey :=
  (List.range count).map keys

def prevBatchKeysContains (keys : Nat → PrevBatchKey) (count : Nat) (needle : PrevBatchKey) : Bool :=
  binarySearch (usedKeys keys count) (cmpPrevBatchKey needle) count 0 count

/-- The locals of `update_prev_batch_predictor`, the array it writes to and the entries it has
passed. -/
structure PrevBatchPass where
  prevBatchKeys : Nat → PrevBatchKey
  keyCount : Nat := 0
  previousEntry : Option FaultEntry := none
  entries : List FaultEntry := []
  numPredPrevCandidates : Nat := 0

/-- One round of the loop; `count` is `prev_batch_key_count`, which only changes after the loop. -/
def prevBatchEntry (count : Nat) (pass : PrevBatchPass) (current : FaultEntry) : PrevBatchPass :=
  let isDuplicate := pass.previousEntry.any fun previous => checkFaultEntryDuplicate current previous
  if isDuplicate then
    { pass with entries := pass.entries ++ [{ current with predPrevCandidate := false }] }
  else
    let hit := prevBatchKeysContains pass.prevBatchKeys count current.prevBatchKey
    let marked := { current with predPrevCandidate := hit }
    { prevBatchKeys := update pass.prevBatchKeys pass.keyCount current.prevBatchKey
      keyCount := pass.keyCount + 1
      previousEntry := some marked
      entries := pass.entries ++ [marked]
      numPredPrevCandidates := pass.numPredPrevCandidates + if hit then 1 else 0 }

/-- The loop over `ordered_fault_cache`. -/
def prevBatchLoop (b : PrevBatch) (ordered : List FaultEntry) : PrevBatchPass :=
  ordered.foldl (prevBatchEntry b.prevBatchKeyCount) { prevBatchKeys := b.prevBatchKeys }

/-- What `update_prev_batch_predictor` leaves: the predictor, the entries with their marks, and
`num_pred_prev_candidates`. -/
structure PrevBatchUpdate where
  predictor : PrevBatch
  entries : List FaultEntry
  numPredPrevCandidates : Nat

def updatePrevBatchPredictor (enabled : Bool) (b : PrevBatch) (ordered : List FaultEntry) :
    PrevBatchUpdate :=
  if !enabled then
    { predictor := { b with prevBatchKeyCount := 0, lastBatchPredCandidatePct := 0 }
      entries := ordered.map fun e => { e with predPrevCandidate := false }
      numPredPrevCandidates := 0 }
  else
    let pass := prevBatchLoop b ordered
    { predictor :=
        { prevBatchKeys := pass.prevBatchKeys
          prevBatchKeyCount := pass.keyCount
          lastBatchPredCandidatePct :=
            if ordered.length = 0 then 0
            else min (pass.numPredPrevCandidates * 100 / ordered.length) 100 }
      entries := pass.entries
      numPredPrevCandidates := pass.numPredPrevCandidates }

def PrevBatch.stored (b : PrevBatch) : List PrevBatchKey :=
  usedKeys b.prevBatchKeys b.prevBatchKeyCount

/-! ## Pairs -/

instance : Std.TransCmp cmpPrevBatchKey :=
  have := transCmp_comap cmpVaSpace PrevBatchKey.vaSpace
  inferInstanceAs (Std.TransCmp (compareLex
    (fun a b : PrevBatchKey => cmpVaSpace a.vaSpace b.vaSpace)
    (compareOn fun k => k.faultAddress)))

theorem cmpVaSpace_eq_iff {a b : Option VaSpaceId} : cmpVaSpace a b = .eq ↔ a = b := by
  cases a <;> cases b <;> simp [cmpVaSpace]

@[simp] theorem cmpPrevBatchKey_eq_iff {a b : PrevBatchKey} :
    cmpPrevBatchKey a b = .eq ↔ a = b := by
  cases a
  cases b
  simp [cmpPrevBatchKey, Ordering.then_eq_eq, cmpVaSpace_eq_iff]

theorem checkFaultEntryDuplicate_iff {current previous : FaultEntry} :
    checkFaultEntryDuplicate current previous = true ↔
      current.prevBatchKey = previous.prevBatchKey := by
  simp [checkFaultEntryDuplicate, FaultEntry.prevBatchKey]

/-- Sorted by VA space and address. -/
def SortedByPair (entries : List FaultEntry) : Prop :=
  NonDescending cmpPrevBatchKey (entries.map FaultEntry.prevBatchKey)

instance (entries : List FaultEntry) : Decidable (SortedByPair entries) :=
  inferInstanceAs (Decidable (List.Pairwise _ _))

/-- The pairs of a sorted batch, each once. -/
def distinctPairs (entries : List FaultEntry) : List PrevBatchKey :=
  uniqueAdjacent cmpPrevBatchKey (entries.map FaultEntry.prevBatchKey)

/-- How many pairs of a batch are below the given one. -/
def pairsBelow (entries : List FaultEntry) (k : PrevBatchKey) : Nat :=
  (entries.map FaultEntry.prevBatchKey).dedup.countP fun l => cmpPrevBatchKey l k = .lt

section Pairs

variable {entries : List FaultEntry}

theorem mem_distinctPairs_iff {k : PrevBatchKey} :
    k ∈ distinctPairs entries ↔ ∃ e ∈ entries, e.prevBatchKey = k := by
  rw [← List.mem_map]
  constructor
  · exact mem_of_mem_uniqueAdjacent
  · intro h
    obtain ⟨l, hl, heq⟩ : ∃ l ∈ distinctPairs entries, cmpPrevBatchKey k l = .eq :=
      exists_mem_uniqueAdjacent h
    rwa [cmpPrevBatchKey_eq_iff.1 heq]

theorem SortedByPair.ascending (h : SortedByPair entries) :
    Ascending cmpPrevBatchKey (distinctPairs entries) :=
  ascending_uniqueAdjacent h

theorem SortedByPair.countP_below (h : SortedByPair entries) (k : PrevBatchKey) :
    (distinctPairs entries).countP (fun l => cmpPrevBatchKey l k = .lt) = pairsBelow entries k := by
  have hnodup : (distinctPairs entries).Nodup := by
    apply h.ascending.imp
    rintro a b hlt rfl
    rw [cmpPrevBatchKey_eq_iff.2 rfl] at hlt
    cases hlt
  apply List.Perm.countP_eq
  apply (List.perm_ext_iff_of_nodup hnodup (List.nodup_dedup _)).2
  intro l
  rw [mem_distinctPairs_iff, List.mem_dedup, List.mem_map]

end Pairs

/-! ## A pass over a batch -/

/-- What a pass has done after the given entries of a batch. -/
structure PassSpec (b : PrevBatch) (passed : List FaultEntry) (pass : PrevBatchPass) : Prop where
  keyCount : pass.keyCount = (distinctPairs passed).length
  keys : ∀ i, pass.prevBatchKeys i = (distinctPairs passed)[i]?.getD (b.prevBatchKeys i)
  previousEntry : pass.previousEntry.map FaultEntry.prevBatchKey = (distinctPairs passed).getLast?
  entries : (pass.entries.map fun e => { e with predPrevCandidate := false }) =
    passed.map fun e => { e with predPrevCandidate := false }
  candidates : pass.numPredPrevCandidates = pass.entries.countP FaultEntry.predPrevCandidate

section Pass

variable {b : PrevBatch} {passed : List FaultEntry} {pass : PrevBatchPass} {e : FaultEntry}

theorem PassSpec.isDuplicate (h : PassSpec b passed pass) (e : FaultEntry) :
    (pass.previousEntry.any fun previous => checkFaultEntryDuplicate e previous) =
      (distinctPairs passed).getLast?.any fun last => cmpPrevBatchKey e.prevBatchKey last = .eq := by
  rw [← h.previousEntry, Option.any_map]
  congr 1
  funext previous
  rw [Bool.eq_iff_iff, checkFaultEntryDuplicate_iff]
  simp

theorem distinctPairs_concat (passed : List FaultEntry) (e : FaultEntry) :
    distinctPairs (passed ++ [e]) =
      if (distinctPairs passed).getLast?.any
          (fun last => cmpPrevBatchKey e.prevBatchKey last = .eq) then distinctPairs passed
      else distinctPairs passed ++ [e.prevBatchKey] := by
  rw [distinctPairs, List.map_append, List.map_singleton, uniqueAdjacent_concat]
  rfl

theorem PassSpec.step (h : PassSpec b passed pass) (e : FaultEntry) :
    PassSpec b (passed ++ [e]) (prevBatchEntry b.prevBatchKeyCount pass e) := by
  unfold prevBatchEntry
  rw [h.isDuplicate e]
  dsimp only
  split
  · rename_i hdup
    have hpairs : distinctPairs (passed ++ [e]) = distinctPairs passed := by
      rw [distinctPairs_concat, if_pos hdup]
    refine ⟨?_, ?_, ?_, ?_, ?_⟩
    · rw [hpairs]
      exact h.keyCount
    · rw [hpairs]
      exact h.keys
    · rw [hpairs]
      exact h.previousEntry
    · simp [h.entries]
    · simp [h.candidates]
  · rename_i hnew
    have hpairs : distinctPairs (passed ++ [e]) = distinctPairs passed ++ [e.prevBatchKey] := by
      rw [distinctPairs_concat, if_neg hnew]
    refine ⟨?_, ?_, ?_, ?_, ?_⟩
    · rw [hpairs, List.length_append, h.keyCount]
      rfl
    · intro i
      rw [hpairs]
      show update pass.prevBatchKeys pass.keyCount e.prevBatchKey i = _
      -- the new pair is written right behind those stored
      rcases Nat.lt_trichotomy i pass.keyCount with hlt | rfl | hgt
      · rw [update_of_ne (Nat.ne_of_lt hlt), h.keys, List.getElem?_append_left (h.keyCount ▸ hlt)]
      · simp [h.keyCount]
      · have hlen : (distinctPairs passed).length < i := h.keyCount ▸ hgt
        rw [update_of_ne (Nat.ne_of_gt hgt), h.keys, List.getElem?_eq_none hlen.le,
          List.getElem?_eq_none (by simpa using Nat.succ_le_of_lt hlen)]
    · simp [hpairs, FaultEntry.prevBatchKey]
    · simp [h.entries]
    · simp [h.candidates, List.countP_append, List.countP_cons]

/-- **A pass** stores the pairs of the batch in order, each once, and counts its marks. -/
theorem pass_spec (b : PrevBatch) (ordered : List FaultEntry) :
    PassSpec b ordered (prevBatchLoop b ordered) := by
  induction ordered using List.reverseRecOn with
  | nil => exact ⟨rfl, fun _ => rfl, rfl, rfl, rfl⟩
  | append_singleton ordered e ih =>
    rw [prevBatchLoop, List.foldl_concat]
    exact ih.step e

theorem PassSpec.usedKeys_eq (h : PassSpec b passed pass) :
    usedKeys pass.prevBatchKeys b.prevBatchKeyCount =
      (distinctPairs passed ++ b.stored.drop (distinctPairs passed).length).take
        b.stored.length := by
  apply List.ext_getElem
  · simp only [usedKeys, PrevBatch.stored, List.length_map, List.length_range, List.length_take,
      List.length_append, List.length_drop]
    omega
  · intro i hi hi'
    simp only [usedKeys, List.getElem_map, List.getElem_range, h.keys, List.getElem_take,
      List.getElem_append]
    split
    · rename_i hlt
      rw [List.getElem?_eq_getElem hlt, Option.getD_some]
    · rename_i hge
      rw [List.getElem?_eq_none (Nat.le_of_not_lt hge), Option.getD_none, List.getElem_drop]
      simp [PrevBatch.stored, usedKeys, Nat.add_sub_cancel' (Nat.le_of_not_lt hge)]

theorem PassSpec.contains_iff (h : PassSpec b passed pass)
    (hstored : Ascending cmpPrevBatchKey b.stored) (hsorted : SortedByPair (passed ++ [e]))
    (hnew : ∀ f ∈ passed, f.prevBatchKey ≠ e.prevBatchKey) :
    prevBatchKeysContains pass.prevBatchKeys b.prevBatchKeyCount e.prevBatchKey = true ↔
      e.prevBatchKey ∈ b.stored.drop (distinctPairs passed).length := by
  have hwritten : ∀ k ∈ distinctPairs passed, cmpPrevBatchKey e.prevBatchKey k = .gt := by
    intro k hk
    obtain ⟨f, hf, rfl⟩ := mem_distinctPairs_iff.1 hk
    have hle := (List.pairwise_append.1 (List.pairwise_map.1 hsorted)).2.2 f hf e
      List.mem_cons_self
    rcases Ordering.isLE_iff_eq_lt_or_eq_eq.1 hle with hlt | heq
    · exact Std.OrientedCmp.gt_of_lt hlt
    · exact absurd (cmpPrevBatchKey_eq_iff.1 heq) (hnew f hf)
  have hlength : b.stored.length = b.prevBatchKeyCount := by simp [PrevBatch.stored, usedKeys]
  have hsearch := binarySearch_overwritten_iff hstored hwritten
  rw [← h.usedKeys_eq, hlength] at hsearch
  simp only [cmpPrevBatchKey_eq_iff, exists_eq_right'] at hsearch
  exact hsearch

theorem repeats_iff (hsorted : SortedByPair (passed ++ [e])) :
    ((distinctPairs passed).getLast?.any
        fun last => cmpPrevBatchKey e.prevBatchKey last = .eq) = true ↔
      ∃ f ∈ passed, f.prevBatchKey = e.prevBatchKey := by
  rw [SortedByPair, List.map_append] at hsorted
  refine (repeats_last_iff hsorted).trans ?_
  simp only [cmpPrevBatchKey_eq_iff, exists_eq_right', List.mem_map]

theorem entries_prefix (b : PrevBatch) (passed rest : List FaultEntry) :
    (prevBatchLoop b passed).entries <+: (prevBatchLoop b (passed ++ rest)).entries := by
  induction rest using List.reverseRecOn with
  | nil => simp
  | append_singleton rest e ih =>
    rw [← List.append_assoc]
    refine ih.trans ?_
    rw [prevBatchLoop, prevBatchLoop, List.foldl_concat]
    unfold prevBatchEntry
    dsimp only
    split <;> exact List.prefix_append _ _

theorem length_entries (b : PrevBatch) (passed : List FaultEntry) :
    (prevBatchLoop b passed).entries.length = passed.length := by
  simpa using congrArg List.length (pass_spec b passed).entries

theorem keys_entries (b : PrevBatch) (passed : List FaultEntry) :
    (prevBatchLoop b passed).entries.map FaultEntry.prevBatchKey =
      passed.map FaultEntry.prevBatchKey := by
  have hkeys := congrArg (List.map FaultEntry.prevBatchKey) (pass_spec b passed).entries
  rwa [List.map_map, List.map_map] at hkeys

theorem marked_iff {rest : List FaultEntry} {m : FaultEntry}
    (hstored : Ascending cmpPrevBatchKey b.stored) (hsorted : SortedByPair (passed ++ e :: rest))
    (hnew : ∀ f ∈ passed, f.prevBatchKey ≠ e.prevBatchKey)
    (hm : (prevBatchLoop b (passed ++ e :: rest)).entries[passed.length]? = some m) :
    m.predPrevCandidate = true ↔
      e.prevBatchKey ∈ b.stored.drop (pairsBelow (passed ++ e :: rest) e.prevBatchKey) := by
  rw [show passed ++ e :: rest = passed ++ [e] ++ rest by simp] at hsorted hm ⊢
  have hsplit : SortedByPair (passed ++ [e]) := by
    rw [SortedByPair, List.map_append] at hsorted
    exact (List.pairwise_append.1 hsorted).1
  have hspec := pass_spec b passed
  have hnodup : ¬((distinctPairs passed).getLast?.any
      fun last => cmpPrevBatchKey e.prevBatchKey last = .eq) = true := by
    rw [repeats_iff hsplit]
    rintro ⟨f, hf, heq⟩
    exact hnew f hf heq
  -- the mark is set in the round of the entry
  have hmark : m.predPrevCandidate =
      prevBatchKeysContains (prevBatchLoop b passed).prevBatchKeys b.prevBatchKeyCount
        e.prevBatchKey := by
    obtain ⟨more, hmore⟩ := entries_prefix b (passed ++ [e]) rest
    rw [← hmore, List.getElem?_append_left (by simp [length_entries]), prevBatchLoop,
      List.foldl_concat] at hm
    change (prevBatchEntry b.prevBatchKeyCount (prevBatchLoop b passed) e).entries[_]? = _ at hm
    unfold prevBatchEntry at hm
    rw [hspec.isDuplicate e] at hm
    rw [if_neg hnodup, ← length_entries b passed, List.getElem?_concat_length] at hm
    rw [← Option.some.inj hm]
  rw [hmark, hspec.contains_iff hstored hsplit hnew]
  -- as many pairs are written by then as are below it
  have hbelow : pairsBelow (passed ++ [e] ++ rest) e.prevBatchKey = (distinctPairs passed).length := by
    obtain ⟨later, hlater⟩ : distinctPairs (passed ++ [e]) <+: distinctPairs (passed ++ [e] ++ rest) := by
      simpa only [distinctPairs, List.map_append] using uniqueAdjacent_prefix_append _ _
    rw [distinctPairs_concat, if_neg hnodup, List.append_assoc, List.singleton_append] at hlater
    have hascending := hsorted.ascending
    rw [← hsorted.countP_below, ← hlater]
    rw [← hlater] at hascending
    exact hascending.countP_below
  rw [hbelow]

end Pass

/-! ## Two batches in a row -/

theorem stored_update (b : PrevBatch) (ordered : List FaultEntry) :
    (updatePrevBatchPredictor true b ordered).predictor.stored = distinctPairs ordered := by
  have hspec := pass_spec b ordered
  have hstored : (updatePrevBatchPredictor true b ordered).predictor.stored =
      usedKeys (prevBatchLoop b ordered).prevBatchKeys (prevBatchLoop b ordered).keyCount := rfl
  rw [hstored, hspec.keyCount]
  apply List.ext_getElem
  · simp [usedKeys]
  · intro i hi hi'
    simp [usedKeys, hspec.keys, List.getElem?_eq_getElem hi']

/-- What the second of two batches should leave: each entry that is the first of its pair is marked
iff the pair was in the first batch, the marks are counted, and the pairs of the second batch are
stored in increasing order, each once. -/
structure RepeatsMarked (first second : List FaultEntry) (update : PrevBatchUpdate) : Prop where
  entries : (update.entries.map fun e => { e with predPrevCandidate := false }) =
    second.map fun e => { e with predPrevCandidate := false }
  marked : ∀ i m, update.entries[i]? = some m →
    (∀ f ∈ second.take i, f.prevBatchKey ≠ m.prevBatchKey) →
      (m.predPrevCandidate = true ↔ ∃ f ∈ first, f.prevBatchKey = m.prevBatchKey)
  candidates : update.numPredPrevCandidates = update.entries.countP FaultEntry.predPrevCandidate
  ascending : Ascending cmpPrevBatchKey update.predictor.stored
  stored : ∀ k, k ∈ update.predictor.stored ↔ ∃ e ∈ second, e.prevBatchKey = k

theorem exists_of_entries {b : PrevBatch} {ordered : List FaultEntry} {i : Nat} {m : FaultEntry}
    (hm : (prevBatchLoop b ordered).entries[i]? = some m) :
    ∃ passed e rest, ordered = passed ++ e :: rest ∧ passed.length = i ∧
      e.prevBatchKey = m.prevBatchKey := by
  obtain ⟨hi, -⟩ := List.getElem?_eq_some_iff.1 hm
  rw [length_entries] at hi
  refine ⟨ordered.take i, ordered.get ⟨i, hi⟩, ordered.drop (i + 1), ?_, ?_, ?_⟩
  · simp
  · simp [Nat.min_eq_left hi.le]
  · have hat := congrArg (fun l : List PrevBatchKey => l[i]?) (keys_entries b ordered)
    simp only [List.getElem?_map, hm, List.getElem?_eq_getElem hi, Option.map_some,
      Option.some.injEq] at hat
    exact hat.symm

theorem exists_first_entry (b : PrevBatch) {ordered : List FaultEntry} {k : PrevBatchKey}
    (hk : ∃ e ∈ ordered, e.prevBatchKey = k) :
    ∃ i m, (prevBatchLoop b ordered).entries[i]? = some m ∧ m.prevBatchKey = k ∧
      ∀ f ∈ ordered.take i, f.prevBatchKey ≠ m.prevBatchKey := by
  obtain ⟨passed, e, rest, rfl, hkey, hnew⟩ : ∃ passed e rest, ordered = passed ++ e :: rest ∧
      e.prevBatchKey = k ∧ ∀ f ∈ passed, f.prevBatchKey ≠ k := by
    have hfind : (ordered.find? fun e => e.prevBatchKey = k).isSome = true := by
      obtain ⟨e, he, hkey⟩ := hk
      exact List.find?_isSome.2 ⟨e, he, decide_eq_true hkey⟩
    obtain ⟨e, he⟩ := Option.isSome_iff_exists.1 hfind
    obtain ⟨hkey, passed, rest, rfl, hnew⟩ := List.find?_eq_some_iff_append.1 he
    exact ⟨passed, e, rest, rfl, of_decide_eq_true hkey, fun f hf => by simpa using hnew f hf⟩
  have hlt : passed.length < (prevBatchLoop b (passed ++ e :: rest)).entries.length := by
    rw [length_entries]
    simp
  have hm := List.getElem?_eq_getElem hlt
  obtain ⟨passed', e', rest', hsplit, hlength, hkey'⟩ := exists_of_entries hm
  obtain ⟨rfl, htail⟩ := List.append_inj hsplit hlength.symm
  cases htail
  refine ⟨passed.length, _, hm, hkey'.symm.trans hkey, ?_⟩
  rw [List.take_left, ← hkey', hkey]
  exact hnew

/-- **Marks of the previous-batch predictor.** After two sorted batches the marks are exact iff each
pair of both batches has at most as many pairs of the second batch below it as of the first: the
pairs stored on the way then have not reached its place in the array. -/
theorem repeats_marked_iff (b : PrevBatch) (first second : List FaultEntry)
    (hfirst : SortedByPair first) (hsecond : SortedByPair second) :
    RepeatsMarked first second
        (updatePrevBatchPredictor true (updatePrevBatchPredictor true b first).predictor second) ↔
      ∀ k, (∃ f ∈ first, f.prevBatchKey = k) → (∃ e ∈ second, e.prevBatchKey = k) →
        pairsBelow second k ≤ pairsBelow first k := by
  have hstored := stored_update b first
  generalize (updatePrevBatchPredictor true b first).predictor = between at hstored ⊢
  have hascending : Ascending cmpPrevBatchKey between.stored := hstored ▸ hfirst.ascending
  -- which of the first entries are marked
  have hmarked : ∀ i m, (prevBatchLoop between second).entries[i]? = some m →
      (∀ f ∈ second.take i, f.prevBatchKey ≠ m.prevBatchKey) →
        (m.predPrevCandidate = true ↔ (∃ f ∈ first, f.prevBatchKey = m.prevBatchKey) ∧
          pairsBelow second m.prevBatchKey ≤ pairsBelow first m.prevBatchKey) := by
    intro i m hm hnew
    obtain ⟨passed, e, rest, rfl, rfl, hkey⟩ := exists_of_entries hm
    rw [List.take_left, ← hkey] at hnew
    rw [marked_iff hascending hsecond hnew hm, ← hkey, hstored]
    constructor
    · intro hdrop
      have hmem := List.mem_of_mem_drop hdrop
      rw [hfirst.ascending.mem_drop_iff hmem, hfirst.countP_below] at hdrop
      exact ⟨mem_distinctPairs_iff.1 hmem, hdrop⟩
    · rintro ⟨hmem, hle⟩
      rwa [hfirst.ascending.mem_drop_iff (mem_distinctPairs_iff.2 hmem), hfirst.countP_below]
  constructor
  · intro h k hkfirst hksecond
    -- look at the first entry of the pair
    obtain ⟨i, m, hm, hkey, hnew⟩ := exists_first_entry between hksecond
    obtain ⟨-, hle⟩ := (hmarked i m hm hnew).1 ((h.marked i m hm hnew).2 (hkey ▸ hkfirst))
    rwa [hkey] at hle
  · intro hcond
    have hspec := pass_spec between second
    have hnow := stored_update between second
    refine ⟨hspec.entries, ?_, hspec.candidates, ?_, ?_⟩
    · intro i m hm hnew
      rw [hmarked i m hm hnew]
      refine ⟨fun h => h.1, fun hkfirst => ⟨hkfirst, hcond _ hkfirst ?_⟩⟩
      obtain ⟨passed, e, rest, hsplit, -, hkey⟩ := exists_of_entries hm
      exact ⟨e, by simp [hsplit], hkey⟩
    · rw [hnow]
      exact hsecond.ascending
    · intro k
      rw [hnow, mem_distinctPairs_iff]

def PrevBatch.init : PrevBatch := ⟨fun _ => ⟨none, 0⟩, 0, 0⟩

/-- Faults of one VA space on the given pages. -/
def pageFaults (pages : List Nat) : List FaultEntry :=
  pages.map fun page => { faultAddress := page, vaSpace := some 1 }

/-- A page that keeps its place is marked when it comes again. -/
theorem kept_place_marked :
    SortedByPair (pageFaults [0x1000, 0x3000]) ∧ SortedByPair (pageFaults [0x2000, 0x3000]) ∧
      RepeatsMarked (pageFaults [0x1000, 0x3000]) (pageFaults [0x2000, 0x3000])
        (updatePrevBatchPredictor true
          (updatePrevBatchPredictor true .init (pageFaults [0x1000, 0x3000])).predictor
          (pageFaults [0x2000, 0x3000])) := by
  have hfirst : SortedByPair (pageFaults [0x1000, 0x3000]) := by decide
  have hsecond : SortedByPair (pageFaults [0x2000, 0x3000]) := by decide
  refine ⟨hfirst, hsecond, (repeats_marked_iff .init _ _ hfirst hsecond).2 ?_⟩
  rintro k - ⟨e, he, rfl⟩
  revert e
  decide

/-- A page of both batches that the second batch has further back: its pair is overwritten by the
page in front of it before it is looked up, and the repeated fault is not marked. -/
theorem overwritten_pair_missed :
    SortedByPair (pageFaults [0x5000]) ∧ SortedByPair (pageFaults [0x1000, 0x5000]) ∧
      ¬RepeatsMarked (pageFaults [0x5000]) (pageFaults [0x1000, 0x5000])
        (updatePrevBatchPredictor true
          (updatePrevBatchPredictor true .init (pageFaults [0x5000])).predictor
          (pageFaults [0x1000, 0x5000])) := by
  refine ⟨by decide, by decide, ?_⟩
  intro h
  have hmark := h.marked 1 { faultAddress := 0x5000, vaSpace := some 1 } (by decide) (by decide)
  exact absurd (hmark.2 (by decide)) (by decide)

end FaultMesh
