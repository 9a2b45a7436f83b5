import FaultMesh.MemoExactness

/-!
# What a reset leaves in the predictor

When the GPU resumes, `fault_buffer_reinit_replayable_faults` sets the number of keys to zero and
discards the memo. An update with the predictor switched off sets the number of keys to zero and
keeps the memo. Neither touches the tables of modes 2 and 3: their contents are valid as long as
their generation is the current one, and only a build advances it.
-/

namespace FaultMesh

/-- The event builds a table. An update with the predictor switched off does not. -/
def PredictorEvent.buildsTable : PredictorEvent → Bool
  | .rebuild p _ _ _ => p.prevFetchPredictorEnable
  | .lookup _ | .adapt _ _ _ _ | .reinit => false

/-- No lookup is a hit before the next build. -/
def StaysEmpty (mode : PrevFetchMode) (pr : Predictor) : Prop :=
  ∀ later pr', (∀ ev ∈ later, PredictorEvent.buildsTable ev = false) →
    (predictorMachine mode).run pr later = some pr' →
      ∀ e, (prevFetchKeysContains mode pr' e).1 = false

def NoHitRemembered (pr : Predictor) : Prop := ∀ k, pr.last ≠ some (k, true)

section Step

variable {mode : PrevFetchMode} {pr : Predictor} {entries : List FaultEntry}

section

variable (hempty : Records mode pr []) (hmemo : NoHitRemembered pr)
include hempty hmemo

theorem lookup_miss (e : RawFault) : (prevFetchKeysContains mode pr e).1 = false := by
  have htable : tableContains mode pr e = false :=
    Bool.eq_false_iff.2 fun h => not_lists_nil ((hempty e).1 h)
  rw [prevFetchKeysContains_fst]
  rcases hlast : pr.last with _ | ⟨k, _ | _⟩
  · exact htable
  · simp [htable]
  · exact absurd hlast (hmemo k)

/-- **Step lemma**: without a build, an empty table and a memo without a hit stay so. -/
theorem quiet_after {ev : PredictorEvent} (hev : ev.buildsTable = false) :
    Records mode (pr.after mode ev) [] ∧ NoHitRemembered (pr.after mode ev) := by
  have hrecords := hempty.after ev
  cases ev with
  | lookup e =>
    refine ⟨hrecords, fun k hlast => ?_⟩
    -- the answer that is remembered is a miss
    change (prevFetchKeysContains mode pr e).2.last = _ at hlast
    rw [prevFetchKeysContains_snd, lookup_miss hempty hmemo] at hlast
    cases hlast
  | adapt p ctx idx n =>
    refine ⟨hrecords, ?_⟩
    obtain ⟨active, cooldown, heq⟩ := adaptiveUpdate_gate p ctx idx n pr
    show NoHitRemembered (adaptiveUpdate p ctx idx n pr)
    rw [heq]
    exact hmemo
  | reinit =>
    simp only [PredictorEvent.recorded, ite_self] at hrecords
    exact ⟨hrecords, fun _ h => by cases h⟩
  | rebuild p c cached coalesced =>
    have hoff : p.prevFetchPredictorEnable = false := hev
    simp only [PredictorEvent.recorded, hoff, Bool.false_eq_true, if_false, ite_self] at hrecords
    refine ⟨hrecords, ?_⟩
    rw [after_rebuild_off c cached coalesced hoff]
    exact hmemo

theorem staysEmpty_of_records : StaysEmpty mode pr := by
  intro later pr' hlater hrun e
  have hstep : ∀ s ev t, (Records mode s [] ∧ NoHitRemembered s) →
      (PredictorEvent.buildsTable ev = false ∧ True) → (predictorMachine mode).step s ev = some t →
        Records mode t [] ∧ NoHitRemembered t := by
    rintro s ev t ⟨hs, hm⟩ ⟨hev, -⟩ ht
    cases ht
    exact quiet_after hs hm hev
  have hmeets := ((predictorMachine mode).meets_true pr later).and_mem _ hlater
  obtain ⟨hrecords, hquiet⟩ :=
    (predictorMachine mode).run_invariant hstep ⟨hempty, hmemo⟩ hmeets hrun
  exact lookup_miss hrecords hquiet e

end

theorem staysEmpty_iff (h : Records mode pr entries) :
    StaysEmpty mode pr ↔ NoHitRemembered pr ∧ entries = [] := by
  constructor
  · intro hstays
    constructor
    -- a remembered hit is answered at once
    · intro k hlast
      have hmiss := hstays [] pr (fun _ hev => absurd hev List.not_mem_nil) rfl k.fault
      rw [prevFetchKeysContains_fst, hlast] at hmiss
      simp [PrevFetchKey.fault, RawFault.prevFetchKey] at hmiss
    · rcases List.eq_nil_or_concat entries with rfl | ⟨before, f, rfl⟩
      · rfl
      -- look up another fault first, so that the memo is out of the way
      · rw [List.concat_eq_append] at h
        let other : RawFault := { f.toRawFault with veId := f.veId + 1 }
        have hhit : tableContains mode pr f.toRawFault = true := (h _).2 lists_getLast
        have hne : other.prevFetchKey ≠ f.prevFetchKey := by
          simp [other, RawFault.prevFetchKey]
        have hmiss := hstays [.lookup other] (prevFetchKeysContains mode pr other).2
          (fun ev hev => by rw [List.mem_singleton.1 hev]; rfl) rfl f.toRawFault
        rw [prevFetchKeysContains_snd, prevFetchKeysContains_fst] at hmiss
        simp only [hne, if_false, tableContains_with_last, hhit] at hmiss
        cases hmiss
  · rintro ⟨hmemo, rfl⟩
    exact staysEmpty_of_records h hmemo

end Step

/-- **Reset**: after a reinitialisation no lookup is a hit until the next build iff, in modes 2 and 3,
the history recorded no entries. After an update with the predictor switched off the memo must not
remember a hit either. -/
theorem reset_empties_iff (mode : PrevFetchMode) {exactSize tagSize : Nat} (hexact : 0 < exactSize)
    (htag : 0 < tagSize) (history : List PredictorEvent) (pr : Predictor)
    (hrun : (predictorMachine mode).run (Predictor.init exactSize tagSize hexact htag) history =
      some pr) :
    (StaysEmpty mode pr.reinit ↔ (mode.useHash = true → recordedBy mode history = [])) ∧
      ∀ (p : Params) (c : BatchCounts) (cached : List FaultEntry) (coalesced : OrderedBatch),
        p.prevFetchPredictorEnable = false →
          (StaysEmpty mode
              (updatePrevFetchPredictor (p.withMode mode) c cached coalesced.entries pr) ↔
            NoHitRemembered pr ∧ (mode.useHash = true → recordedBy mode history = [])) := by
  have hrecords : Records mode pr (recordedBy mode history) :=
    (records_init exactSize tagSize hexact htag).run hrun
  have hcleared : (if mode.useHash then recordedBy mode history else []) = [] ↔
      (mode.useHash = true → recordedBy mode history = []) := by
    cases mode.useHash <;> simp
  constructor
  · have hreinit : Records mode pr.reinit (if mode.useHash then recordedBy mode history else []) :=
      hrecords.after .reinit
    rw [staysEmpty_iff hreinit, hcleared]
    exact and_iff_right nofun
  · intro p c cached coalesced hoff
    have hupdate := hrecords.after (.rebuild p c cached coalesced)
    simp only [PredictorEvent.recorded, hoff, Bool.false_eq_true, if_false] at hupdate
    have hlast : NoHitRemembered (pr.after mode (.rebuild p c cached coalesced)) ↔
        NoHitRemembered pr := by
      rw [after_rebuild_off c cached coalesced hoff]
      rfl
    change StaysEmpty mode (pr.after mode (.rebuild p c cached coalesced)) ↔ _
    rw [staysEmpty_iff hupdate, hcleared, hlast]

/-! ## Concrete histories -/

/-- A resume in mode 1 after a batch with one fault. -/
theorem resume_empties_key_array :
    StaysEmpty .coalescedBsearch
      (Predictor.init 64 64 (by decide) (by decide)
        |>.after .coalescedBsearch (.rebuildPage 0x1000)).reinit :=
  (reset_empties_iff .coalescedBsearch (by decide) (by decide) [.rebuildPage 0x1000] _ rfl).1.2
    nofun

def hashParams : Params := { predSkipEnable := true, prevFetchMode := .hashExact }

/-- The first two batches of a ring with two faults on one page, with a resume between them: the
second fault is dropped because of the first one. And in mode 1: a hit is remembered across an
update with the predictor switched off. -/
theorem resume_keeps_hash_table :
    let ring := ringOf [0x1000, 0x1000]
    ((serviceMachine hashParams smallGpu).run freshState (.enter :: batchLabels (ring 1))).map
        (fun s => (fetchFaultBufferEntries hashParams smallGpu (ring 2) .batchReady
          (resetCounters (faultBufferReinitReplayableFaults 1 2 s.d))).1.bc.numPredFastSkipStale) =
      some 1 ∧
    ((predictorMachine .coalescedBsearch).run (Predictor.init 64 64 (by decide) (by decide))
        [.rebuildPage 0x1000, .lookup { faultAddress := 0x1000 },
          .rebuild { prevFetchPredictorEnable := false } ⟨0, 0, 0⟩ [] ⟨[], List.Pairwise.nil⟩]).map
        (fun pr => (prevFetchKeysContains .coalescedBsearch pr { faultAddress := 0x1000 }).1) =
      some true := by
  decide +kernel

end FaultMesh
