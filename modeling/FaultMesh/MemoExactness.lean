import FaultMesh.PredictorHistory

/-!
# When the lookup memo is exact

In front of the table stands a memo of the last lookup. Within one fetch loop the table does not
change, so that repeating the last answer is the same as asking again. But the memo is kept when
the fetch ends, and neither a rebuild nor switching the predictor off discards it. It stays exact
over a history just in case each rebuild happens to agree with what the memo remembers.
-/

namespace FaultMesh

/-- Every lookup answers what the table answers at that moment. -/
def MemoExact (mode : PrevFetchMode) (pr : Predictor) : Prop :=
  ∀ e, (prevFetchKeysContains mode pr e).1 = tableContains mode pr e

/-- What the memo remembers is what the table will say after a rebuild: the key is remembered as a
hit iff it is among the entries of the batch. A rebuild with the predictor switched off empties the
key array and leaves the hash tables alone. -/
def MemoAgrees (mode : PrevFetchMode) (pr : Predictor) : PredictorEvent → Prop
  | .rebuild p _ cached coalesced => ∀ remembered ∈ pr.last,
      if p.prevFetchPredictorEnable = true then
        (remembered.2 = true ↔ Lists mode pr.exact.size pr.tags.size
          (rebuildSource mode cached coalesced.entries) remembered.1.fault)
      else mode.useHash = false → remembered.2 = false
  | .lookup _ | .adapt _ _ _ _ | .reinit => True

instance (mode : PrevFetchMode) (pr : Predictor) : ∀ ev, Decidable (MemoAgrees mode pr ev)
  | .rebuild _ _ _ _ => inferInstanceAs (Decidable (∀ remembered ∈ pr.last, ite _ _ _))
  | .lookup _ | .adapt _ _ _ _ | .reinit => isTrue trivial

section Step

variable {mode : PrevFetchMode} {pr : Predictor}

theorem memoExact_iff :
    MemoExact mode pr ↔
      ∀ remembered ∈ pr.last, tableContains mode pr remembered.1.fault = remembered.2 := by
  constructor
  · rintro h ⟨k, hit⟩ hlast
    have hanswer := h k.fault
    rw [prevFetchKeysContains_fst, Option.mem_def.1 hlast] at hanswer
    simpa [PrevFetchKey.fault, RawFault.prevFetchKey] using hanswer.symm
  · intro h e
    rw [prevFetchKeysContains_fst]
    rcases hlast : pr.last with _ | ⟨k, hit⟩
    · rfl
    · by_cases hk : k = e.prevFetchKey
      · have hmemo : tableContains mode pr k.fault = hit := h (k, hit) hlast
        subst hk
        simp only [if_true]
        rw [← hmemo, tableContains_congr pr (filterKey_fault mode e)]
      · simp [hk]

theorem MemoExact.lookup (h : MemoExact mode pr) (e : RawFault) :
    MemoExact mode (prevFetchKeysContains mode pr e).2 := by
  rw [memoExact_iff, prevFetchKeysContains_snd]
  intro remembered hmem
  obtain rfl := Option.some.inj (Option.mem_def.1 hmem)
  rw [tableContains_with_last, tableContains_congr pr (filterKey_fault mode e)]
  exact (h e).symm

@[simp] theorem updatePrevFetchPredictor_last (p : Params) (c : BatchCounts)
    (cached coalesced : List FaultEntry) (pr : Predictor) :
    (updatePrevFetchPredictor p c cached coalesced pr).last = pr.last := by
  unfold updatePrevFetchPredictor
  split
  · rfl
  · cases p.prevFetchMode <;> rfl

theorem memoExact_rebuild_iff (h : MemoExact mode pr) (p : Params) (c : BatchCounts)
    (cached : List FaultEntry) (coalesced : OrderedBatch) :
    MemoExact mode (pr.after mode (.rebuild p c cached coalesced)) ↔
      MemoAgrees mode pr (.rebuild p c cached coalesced) := by
  rw [memoExact_iff]
  have hlast : (pr.after mode (.rebuild p c cached coalesced)).last = pr.last :=
    updatePrevFetchPredictor_last _ _ _ _ _
  rw [hlast]
  apply forall₂_congr
  intro remembered hmem
  by_cases hen : p.prevFetchPredictorEnable = true
  · rw [if_pos hen, ← tableContains_rebuild_iff c cached coalesced hen, Bool.eq_iff_iff]
    exact ⟨Iff.symm, Iff.symm⟩
  · rw [if_neg hen, after_rebuild_off c cached coalesced (Bool.eq_false_iff.2 hen)]
    cases mode with
    | fetchCache | coalescedBsearch =>
      -- an empty key array
      simp only [tableContains, List.length_nil, binarySearch, PrevFetchMode.useHash, true_imp_iff]
      exact eq_comm
    | hashExact | hashApprox =>
      simp only [PrevFetchMode.useHash, Bool.true_eq_false, false_imp_iff, iff_true]
      exact memoExact_iff.1 h remembered hmem

/-- **Step lemma**: an event keeps the memo exact iff it agrees with it. -/
theorem memoExact_after_iff (h : MemoExact mode pr) (ev : PredictorEvent) :
    MemoExact mode (pr.after mode ev) ↔ MemoAgrees mode pr ev := by
  cases ev with
  | rebuild p c cached coalesced => exact memoExact_rebuild_iff h p c cached coalesced
  | lookup e => exact iff_of_true (h.lookup e) trivial
  | adapt p ctx idx n =>
    refine iff_of_true ?_ trivial
    obtain ⟨active, cooldown, heq⟩ := adaptiveUpdate_gate p ctx idx n pr
    show MemoExact mode (adaptiveUpdate p ctx idx n pr)
    have hmemo := memoExact_iff.1 h
    rw [heq, memoExact_iff]
    exact hmemo
  | reinit =>
    -- the memo is discarded
    refine iff_of_true (memoExact_iff.2 ?_) trivial
    exact nofun

end Step

/-- **The memo is exact** in every state of a history iff every rebuild in it agrees with what the
memo remembers at that point. -/
theorem memo_exact_iff (mode : PrevFetchMode) {exactSize tagSize : Nat} (hexact : 0 < exactSize)
    (htag : 0 < tagSize) (history : List PredictorEvent) :
    (predictorMachine mode).Always (MemoExact mode)
        (Predictor.init exactSize tagSize hexact htag) history ↔
      (predictorMachine mode).Meets (MemoAgrees mode)
        (Predictor.init exactSize tagSize hexact htag) history := by
  have hstep : ∀ pr ev pr', MemoExact mode pr → (predictorMachine mode).step pr ev = some pr' →
      (MemoExact mode pr' ↔ MemoAgrees mode pr ev) := by
    intro pr ev pr' h hstep
    cases hstep
    exact memoExact_after_iff h ev
  have hinit : MemoExact mode (Predictor.init exactSize tagSize hexact htag) :=
    memoExact_iff.2 nofun
  exact (predictorMachine mode).always_iff_meets (fun pr ev => ⟨_, rfl⟩) hstep hinit history

/-! ## Concrete histories -/

def OrderedBatch.ofPage (page : Nat) : OrderedBatch where
  entries := [{ faultAddress := page }]
  ordered := List.pairwise_singleton _ _

/-- A rebuild from a batch with one fault, with the default parameters. -/
def PredictorEvent.rebuildPage (page : Nat) : PredictorEvent :=
  .rebuild {} ⟨1, 1, 0⟩ (OrderedBatch.ofPage page).entries (OrderedBatch.ofPage page)

/-- In mode 2: a miss on a page that the batch does not have, a hit on one that the next batch has
as well, and a rebuild after the memo was discarded. -/
theorem agreeing_rebuilds_exact :
    (predictorMachine .hashExact).Always (MemoExact .hashExact)
      (Predictor.init 64 64 (by decide) (by decide))
      [.lookup { faultAddress := 0x1000 }, .rebuildPage 0x2000, .lookup { faultAddress := 0x2000 },
        .rebuildPage 0x2000, .reinit, .rebuildPage 0x1000, .lookup { faultAddress := 0x1000 }] :=
  (memo_exact_iff .hashExact (by decide) (by decide) _).2 (by decide +kernel)

/-- Two batches in mode 1. In the second one the fault on `0x2000` is kept and the one on `0x1000`
dropped, so that the memo remembers a hit. Preprocessing rebuilds the table from the fault on
`0x2000`, and the next lookup of `0x1000` is still a hit. -/
theorem rebuild_outdates_memo :
    let ring := ringOf [0x1000, 0x2000, 0x1000]
    ((serviceMachine skipParams smallGpu).run freshState
      (.enter :: (batchLabels (ring 1) ++ [.fetch (ring 3), .preprocess {}]))).map (fun s =>
        ((prevFetchKeysContains skipParams.prevFetchMode s.d.rf.predictor
            { faultAddress := 0x1000 }).1,
          tableContains skipParams.prevFetchMode s.d.rf.predictor { faultAddress := 0x1000 })) =
      some (true, false) := by
  decide +kernel

end FaultMesh
