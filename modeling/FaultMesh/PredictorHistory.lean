import FaultMesh.FilterTable
import FaultMesh.TableContent

/-!
# Histories of the predictor

The predictor of a GPU outlives every batch. Four things happen to it: an entry is looked up, the
table is rebuilt (or left alone because the predictor is switched off), the adaptive gate decides
about the next batch, and the fault buffer is reinitialised when the GPU resumes. A history is a
list of such events under one mode.

Lookups, rebuilds and decisions come from fetches and from preprocessing, so that whatever the
service loop does to the predictor is a history. What a table answers after a history is what the
entries it records answer (`recordedBy`), whatever else has happened.
-/

namespace FaultMesh

/-! ## Events -/

/-- A batch in the order in which preprocessing leaves it. -/
structure OrderedBatch where
  entries : List FaultEntry
  ordered : Ordered entries

/-- What happens to the predictor. Parameters other than the mode may differ from event to event. -/
inductive PredictorEvent where
  /-- `prev_fetch_keys_contains`. -/
  | lookup (e : RawFault)
  /-- `update_prev_fetch_predictor`, on the cached and on the ordered entries of a batch. -/
  | rebuild (p : Params) (c : BatchCounts) (cached : List FaultEntry) (coalesced : OrderedBatch)
  /-- The decision at the end of a fetch. -/
  | adapt (p : Params) (ctx : FetchCtx) (faultIndex numSkipped : Nat)
  /-- `fault_buffer_reinit_replayable_faults`. -/
  | reinit

/-- What `fault_buffer_reinit_replayable_faults` does to the predictor. The hash tables are not
touched. -/
def Predictor.reinit (pr : Predictor) : Predictor :=
  { pr with
    keys := []
    last := none
    lastBatchFetchSkipPct := 0
    adaptiveActive := true
    adaptiveCooldownRemaining := 0 }

/-- `fault_buffer_reinit_replayable_faults`, with the get and put registers it reads. -/
def faultBufferReinitReplayableFaults (readGet readPut : Nat) (d : Driver) : Driver :=
  { d with rf := { cachedGet := readGet, cachedPut := readPut, predictor := d.rf.predictor.reinit } }

def Params.withMode (p : Params) (mode : PrevFetchMode) : Params := { p with prevFetchMode := mode }

def Predictor.after (mode : PrevFetchMode) (pr : Predictor) : PredictorEvent → Predictor
  | .lookup e => (prevFetchKeysContains mode pr e).2
  | .rebuild p c cached coalesced =>
    updatePrevFetchPredictor (p.withMode mode) c cached coalesced.entries pr
  | .adapt p ctx faultIndex numSkipped => adaptiveUpdate p ctx faultIndex numSkipped pr
  | .reinit => pr.reinit

/-- The predictor as a machine; every event is possible at any time. -/
def predictorMachine (mode : PrevFetchMode) : Machine Predictor PredictorEvent where
  step := fun pr ev => some (pr.after mode ev)

/-! ## What the table records -/

/-- `prev_fetch_predictor_use_hash_exact` or `prev_fetch_predictor_use_hash_approx`. -/
def PrevFetchMode.useHash : PrevFetchMode → Bool
  | .hashExact | .hashApprox => true
  | .fetchCache | .coalescedBsearch => false

/-- The table answers for the given entries and for nothing else. -/
def Records (mode : PrevFetchMode) (pr : Predictor) (entries : List FaultEntry) : Prop :=
  ∀ e, tableContains mode pr e = true ↔ Lists mode pr.exact.size pr.tags.size entries e

/-- The entries recorded after an event. An event that only sets the number of keys to zero
empties the key array but no hash table. -/
def PredictorEvent.recorded (mode : PrevFetchMode) (entries : List FaultEntry) :
    PredictorEvent → List FaultEntry
  | .rebuild p _ cached coalesced =>
    if p.prevFetchPredictorEnable then rebuildSource mode cached coalesced.entries
    else if mode.useHash then entries else []
  | .reinit => if mode.useHash then entries else []
  | .lookup _ | .adapt _ _ _ _ => entries

/-- The entries recorded after a history that began with an empty table. -/
def recordedBy (mode : PrevFetchMode) (history : List PredictorEvent) : List FaultEntry :=
  history.foldl (fun entries ev => ev.recorded mode entries) []

section Events

variable {mode : PrevFetchMode} {pr : Predictor} {entries : List FaultEntry}

theorem not_lists_nil {exactSize tagSize : Nat} {e : RawFault} :
    ¬ Lists mode exactSize tagSize [] e := by
  cases mode <;> simp [Lists, lastInSlot]

theorem lists_getLast {exactSize tagSize : Nat} {f : FaultEntry} :
    Lists mode exactSize tagSize (entries ++ [f]) f.toRawFault := by
  cases mode <;> simp [Lists, lastInSlot]

theorem adaptiveUpdate_gate (p : Params) (ctx : FetchCtx) (idx n : Nat) (pr : Predictor) :
    ∃ active cooldown, adaptiveUpdate p ctx idx n pr =
      { pr with adaptiveActive := active, adaptiveCooldownRemaining := cooldown } := by
  unfold adaptiveUpdate
  split_ifs <;> exact ⟨_, _, rfl⟩

theorem Records.clearKeys (h : Records mode pr entries) {last : Option (PrevFetchKey × Bool)}
    {pct cooldown : Nat} {active : Bool} :
    Records mode
      { pr with
        keys := []
        last := last
        lastBatchFetchSkipPct := pct
        adaptiveActive := active
        adaptiveCooldownRemaining := cooldown }
      (if mode.useHash then entries else []) := by
  intro e
  cases mode with
  | fetchCache | coalescedBsearch =>
    simp [tableContains, binarySearch, PrevFetchMode.useHash, not_lists_nil]
  | hashExact | hashApprox => exact h e

section Rebuild

variable (c : BatchCounts) (cached : List FaultEntry) (coalesced : OrderedBatch)

theorem tableContains_rebuild_iff {p : Params} (hen : p.prevFetchPredictorEnable = true)
    (e : RawFault) :
    tableContains mode (pr.after mode (.rebuild p c cached coalesced)) e = true ↔
      Lists mode pr.exact.size pr.tags.size (rebuildSource mode cached coalesced.entries) e :=
  @tableContains_update_iff (p.withMode mode) c cached coalesced.entries pr e hen
    fun _ => coalesced.ordered

theorem after_rebuild_off {p : Params} (hoff : p.prevFetchPredictorEnable = false) :
    pr.after mode (.rebuild p c cached coalesced) =
      { pr with keys := [], lastBatchFetchSkipPct := 0 } := by
  simp [Predictor.after, updatePrevFetchPredictor, Params.withMode, hoff]

end Rebuild

/-- **Step lemma**: what the table records after an event. -/
theorem Records.after (h : Records mode pr entries) (ev : PredictorEvent) :
    Records mode (pr.after mode ev) (ev.recorded mode entries) := by
  cases ev with
  | lookup e =>
    -- only the memo changes
    show Records mode (prevFetchKeysContains mode pr e).2 entries
    rw [prevFetchKeysContains_snd]
    exact h
  | adapt p ctx idx n =>
    show Records mode (adaptiveUpdate p ctx idx n pr) entries
    obtain ⟨active, cooldown, heq⟩ := adaptiveUpdate_gate p ctx idx n pr
    rw [heq]
    exact h
  | reinit => exact h.clearKeys
  | rebuild p c cached coalesced =>
    simp only [PredictorEvent.recorded]
    split
    · rename_i hen
      intro e
      rw [tableContains_rebuild_iff c cached coalesced hen]
      simp only [Predictor.after, updatePrevFetchPredictor_exact_size,
        updatePrevFetchPredictor_tags_size]
    · rename_i hoff
      rw [after_rebuild_off c cached coalesced (Bool.eq_false_iff.2 hoff)]
      exact h.clearKeys

/-- **Run lemma**: what the table records after a history. -/
theorem Records.run {history : List PredictorEvent} {pr' : Predictor} (h : Records mode pr entries)
    (hrun : (predictorMachine mode).run pr history = some pr') :
    Records mode pr' (history.foldl (fun entries ev => ev.recorded mode entries) entries) := by
  induction history generalizing pr entries with
  | nil =>
    cases hrun
    exact h
  | cons ev history ih =>
    obtain ⟨next, hstep, hrest⟩ := (predictorMachine mode).run_cons_eq_some.1 hrun
    cases hstep
    exact ih (h.after ev) hrest

theorem records_init (exactSize tagSize : Nat) (hexact : 0 < exactSize) (htag : 0 < tagSize) :
    Records mode (Predictor.init exactSize tagSize hexact htag) [] := by
  intro e
  simp [tableContains_init, not_lists_nil]

end Events

/-! ## The driver takes the predictor through histories -/

/-- Some history leads from one predictor to the other. -/
def Reaches (mode : PrevFetchMode) (pr pr' : Predictor) : Prop :=
  ∃ history, (predictorMachine mode).run pr history = some pr'

section Reaches

variable {mode : PrevFetchMode} {pr pr' pr'' : Predictor}

theorem Reaches.refl (mode : PrevFetchMode) (pr : Predictor) : Reaches mode pr pr := ⟨[], rfl⟩

theorem Reaches.trans (h : Reaches mode pr pr') (h' : Reaches mode pr' pr'') :
    Reaches mode pr pr'' := by
  obtain ⟨history, hrun⟩ := h
  obtain ⟨history', hrun'⟩ := h'
  exact ⟨history ++ history', (predictorMachine mode).run_append_eq_some.2 ⟨pr', hrun, hrun'⟩⟩

theorem Reaches.event (ev : PredictorEvent) (h : pr' = pr.after mode ev) : Reaches mode pr pr' := by
  subst h
  exact ⟨[ev], rfl⟩

end Reaches

section Driver

variable {p : Params} {gpu : GpuConfig} {d d' : Driver}

theorem filterDrops_reaches (ctx : FetchCtx) (pr : Predictor) (e : FaultEntry) :
    Reaches p.prevFetchMode pr (filterDrops p ctx pr e).2 := by
  unfold filterDrops
  split
  · exact .event (.lookup e.toRawFault) rfl
  · exact .refl _ _

theorem fetch_reaches (hal : Hal) (mode : FetchMode) :
    Reaches p.prevFetchMode d.rf.predictor
      (fetchFaultBufferEntries p gpu hal mode d).1.rf.predictor := by
  have hloop : Reaches p.prevFetchMode d.rf.predictor (fetchedState p gpu hal mode d).1.predictor := by
    apply fetchLoop_invariant (I := fun st => Reaches p.prevFetchMode d.rf.predictor st.predictor)
    · intro st hst _ _ _
      rw [fetchEntry_predictor]
      exact hst.trans (filterDrops_reaches _ _ _)
    · exact .refl _ _
  rw [fetchFaultBufferEntries_eq]
  apply hloop.trans
  generalize (fetchedState p gpu hal mode d).1 = st
  have hadapt : Reaches p.prevFetchMode st.predictor (adaptiveUpdate p
      (fetchCtx p gpu mode d.rf (fetchPut d.rf hal)) st.faultIndex st.bc.numPredFastSkipStale
      st.predictor) :=
    .event (.adapt p _ _ _) rfl
  simp only [fetchFinish]
  split
  · exact hadapt.trans (.event (.rebuild p _ _ ⟨[], List.Pairwise.nil⟩) rfl)
  · exact hadapt

instance : Std.TransCmp cmpVaSpace := by
  have hcmp : cmpVaSpace = compareOn fun va : Option VaSpaceId => va.elim 0 (· + 1) := by
    funext a b
    cases a <;> cases b <;> simp [cmpVaSpace, compareOn, Nat.compare_eq_ite_lt]
  rw [hcmp]
  infer_instance

theorem transCmp_comap {α β : Type*} (cmp : β → β → Ordering) [Std.TransCmp cmp] (f : α → β) :
    Std.TransCmp fun a b => cmp (f a) (f b) where
  eq_swap := Std.OrientedCmp.eq_swap
  isLE_trans := Std.TransCmp.isLE_trans

instance : Std.TransCmp cmpVaSpaceAddressAccessType :=
  have := transCmp_comap cmpVaSpace FaultEntry.vaSpace
  have := transCmp_comap (fun a b : Nat => compare b a) fun e : FaultEntry => e.accessType.toNat
  inferInstanceAs (Std.TransCmp (compareLex (fun a b : FaultEntry => cmpVaSpace a.vaSpace b.vaSpace)
    (compareLex (compareOn fun e => e.faultAddress)
      fun a b => compare b.accessType.toNat a.accessType.toNat)))

theorem ordered_orderBatch (bc : BatchContext) (order : List Nat) (cache : Nat → FaultEntry) :
    Ordered (orderBatch bc order cache).orderedEntries := by
  have := transCmp_comap cmpVaSpaceAddressAccessType cache
  have hsorted := nonDescending_sortBy
    (fun i j => cmpVaSpaceAddressAccessType (cache i) (cache j)) order
  exact List.pairwise_map.2 hsorted

theorem rebuildFromOrdered_reaches (hordered : Ordered d.bc.orderedEntries) :
    Reaches p.prevFetchMode d.rf.predictor (rebuildFromOrdered p d).rf.predictor := by
  unfold rebuildFromOrdered
  split
  · exact .event (.rebuild p _ [] ⟨_, hordered⟩) rfl
  · exact .refl _ _

theorem preprocess_reaches (toVaSpace : RawFault → Translation) (a : PreprocessAnswer) :
    Reaches p.prevFetchMode d.rf.predictor
      (preprocessFaultBatch p gpu toVaSpace a d).1.rf.predictor := by
  unfold preprocessFaultBatch
  dsimp only
  split
  · rw [(restartAfterFailedTranslation_frame _ _ _ _).predictor]
    exact .refl _ _
  · refine @rebuildFromOrdered_reaches p { d with bc := orderBatch d.bc (instancePtrOrder d.bc) _ } ?_
    exact ordered_orderBatch _ _ _

end Driver

/-! ## The service loop -/

/-- A property of the driver that invisible steps, fetches and preprocessing keep. -/
structure ServiceClosed (p : Params) (gpu : GpuConfig) (I : Driver → Prop) : Prop where
  frame : ∀ {d d'}, FilterFrame d d' → I d → I d'
  fetch : ∀ hal mode d, I d → I (fetchFaultBufferEntries p gpu hal mode d).1
  preprocess : ∀ toVaSpace a d, I d → I (preprocessFaultBatch p gpu toVaSpace a d).1

namespace ServiceClosed

variable {p : Params} {gpu : GpuConfig} {I : Driver → Prop} {s t : ServiceState}

section

variable (hC : ServiceClosed p gpu I)
include hC

theorem cancelClosed (toVaSpace : RawFault → Translation) : CancelClosed p gpu toVaSpace I where
  frame := hC.frame
  fetchAll := fun hal d h => hC.fetch hal .all d h
  preprocess := fun a d h => hC.preprocess toVaSpace a d h

theorem fetchBatch (hal : Hal) (h : I s.d) : I (FaultMesh.fetchBatch p gpu hal s).d := by
  have hfetch := hC.fetch hal .batchReady _ (hC.frame (resetCounters_frame s.d) h)
  unfold FaultMesh.fetchBatch
  split
  · exact h
  · split <;> rename_i d' hf <;> rw [hf] at hfetch
    · split
      · exact hfetch
      · exact hC.frame (bumpBatchId_frame _) hfetch
    · exact hfetch

theorem endBatch {a : BatchEndAnswer} (h : I s.d) (hend : FaultMesh.endBatch p gpu a s = some t) :
    I t.d := by
  have hpush := hC.frame (pushReplayOnGpu_frame .start a.push s.d) h
  have hflush := hC.frame
    (faultBufferFlushLocked_frame gpu (batchFlushMode p gpu s.d.bc) .start a.flush s.d) h
  unfold FaultMesh.endBatch at hend
  split at hend
  · obtain rfl := Option.some.inj hend
    exact hC.frame (cancelFaultBatch_frame gpu a.cancelFlush s.d) h
  split at hend
  · split at hend
    · obtain rfl := Option.some.inj hend
      exact h
    · obtain ⟨⟨d, status⟩, hc, rfl⟩ := Option.map_eq_some_iff.1 hend
      have hd := (hC.cancelClosed s.channels).cancelFaultsPrecise h hc
      cases status <;> exact hd
  split at hend
  · split at hend <;> next hp =>
      obtain rfl := Option.some.inj hend
      rw [hp] at hpush
      exact hpush
  · split at hend
    · next hf =>
        rw [hf] at hflush
        split at hend <;> (obtain rfl := Option.some.inj hend; exact hflush)
    · next hf =>
        rw [hf] at hflush
        obtain rfl := Option.some.inj hend
        exact hflush
  · obtain rfl := Option.some.inj hend
    exact h

/-- **Rule for the service loop**: whatever its calls keep, every step keeps. -/
theorem serviceStep {i : Label} (h : I s.d) (hstep : FaultMesh.serviceStep p gpu s i = some t) :
    I t.d := by
  cases serviceMoves_of_step hstep with
  | rebind | enter => exact h
  | fetch hal => exact hC.fetchBatch hal h
  | preprocess a => exact hC.preprocess s.channels a s.d h
  | service o => exact hC.frame (applyService_frame gpu .regular o s.d) h
  | endBatch a t hpc hend => exact hC.endBatch h hend
  | leave push =>
    unfold leaveService
    split
    · exact hC.frame (pushReplayOnGpu_frame .start push s.d) h
    · exact h

end

end ServiceClosed

/-- **Refinement**: every run of the service loop takes the predictor through a history. -/
theorem serviceMachine_reaches {p : Params} {gpu : GpuConfig} {s t : ServiceState} {is : List Label}
    (hrun : (serviceMachine p gpu).run s is = some t) :
    Reaches p.prevFetchMode s.d.rf.predictor t.d.rf.predictor := by
  have hclosed : ServiceClosed p gpu fun d =>
      Reaches p.prevFetchMode s.d.rf.predictor d.rf.predictor :=
    { frame := fun hf h => by rwa [hf.predictor]
      fetch := fun hal mode _ h => h.trans (fetch_reaches hal mode)
      preprocess := fun toVaSpace a _ h => h.trans (preprocess_reaches toVaSpace a) }
  have hstep : ∀ u i v, Reaches p.prevFetchMode s.d.rf.predictor u.d.rf.predictor → True →
      (serviceMachine p gpu).step u i = some v →
      Reaches p.prevFetchMode s.d.rf.predictor v.d.rf.predictor :=
    fun _ _ _ h _ => hclosed.serviceStep h
  exact (serviceMachine p gpu).run_invariant hstep (.refl _ _)
    ((serviceMachine p gpu).meets_true s is) hrun

/-- After every run of the service loop that began with an empty table, the table answers for the
entries recorded by the history that the run took the predictor through, and for nothing else. -/
theorem service_run_records {p : Params} {gpu : GpuConfig} {s t : ServiceState} {is : List Label}
    (hempty : Records p.prevFetchMode s.d.rf.predictor [])
    (hrun : (serviceMachine p gpu).run s is = some t) :
    ∃ history, (predictorMachine p.prevFetchMode).run s.d.rf.predictor history =
        some t.d.rf.predictor ∧
      Records p.prevFetchMode t.d.rf.predictor (recordedBy p.prevFetchMode history) := by
  obtain ⟨history, hhistory⟩ := serviceMachine_reaches hrun
  exact ⟨history, hhistory, hempty.run hhistory⟩

theorem one_batch_run_records :
    ∃ t history, (serviceMachine skipParams smallGpu).run freshState
        (.enter :: batchLabels (ringOf [0x1000] 1)) = some t ∧
      Records .coalescedBsearch t.d.rf.predictor (recordedBy .coalescedBsearch history) := by
  obtain ⟨t, hrun⟩ : ∃ t, (serviceMachine skipParams smallGpu).run freshState
    (.enter :: batchLabels (ringOf [0x1000] 1)) = some t := ⟨_, rfl⟩
  obtain ⟨history, -, hrecords⟩ := service_run_records (records_init 64 64 _ _) hrun
  exact ⟨t, history, hrun, hrecords⟩

end FaultMesh
