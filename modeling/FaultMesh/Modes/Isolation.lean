import FaultMesh.Modes.Entries

/-!
# Coordinators of several GPUs on one pool

The pool is one object for all GPUs, and the lock under which faults are serviced is one per GPU.
Before `batch_groups` a coordinator writes `batch_gpu`, `batch_snapshot` and `batch_ctx`, one after
the other, and a worker that has filled in the block of an item copies the three fields into the
item. They are added to the machine of all modes here.

In careful runs the batches of different GPUs are kept apart. Nothing in the code makes a coordinator
wait for another: the fields change under a worker that is filling in an item.
-/

namespace FaultMesh.Modes

open Function

/-! ## The machine -/

/-- The fields that come from the batch: `batch_gpu`, `batch_snapshot`, `batch_ctx`. -/
inductive BatchField where
  | gpu
  | snapshot
  | context
  deriving DecidableEq, Repr

def batchFields : List BatchField := [.gpu, .snapshot, .context]

theorem mem_batchFields (k : BatchField) : k ∈ batchFields := by cases k <;> decide

section Machine

variable (numCoords numWorkers : Nat)

/-- The pool with these fields. Values go by the batch whose coordinator wrote them. -/
structure SharedState extends State numCoords numWorkers where
  batch : BatchField → BatchTag := fun _ => ⟨0, 0⟩
  /-- The fields of the work items in the queue. -/
  items : Nat → BatchField → BatchTag := fun _ _ => ⟨0, 0⟩
  /-- What a coordinator has still to write before `batch_groups`. -/
  toWrite : Fin numCoords → List BatchField := fun _ => []
  /-- What a worker has still to copy into its item before it services it. -/
  toCopy : Fin numWorkers → List BatchField := fun _ => []

inductive SharedLabel where
  | move (label : Label numCoords numWorkers)
  /-- A coordinator writes the next field. -/
  | write (c : Fin numCoords)
  /-- A worker copies the next field. -/
  | copy (w : Fin numWorkers)

end Machine

variable {numCoords numWorkers : Nat}

/-- Nothing has to be written or copied first. -/
def SharedState.ready (s : SharedState numCoords numWorkers) : Label numCoords numWorkers → Bool
  | .coord c => (s.toWrite c).isEmpty
  | .worker w _ => (s.toCopy w).isEmpty
  | _ => true

/-- The fields of the items after a step: an item of the inline fallback gets those of its batch. -/
def SharedState.itemsAfter (s : SharedState numCoords numWorkers) :
    Label numCoords numWorkers → Nat → BatchField → BatchTag
  | .coord c =>
    match (s.coords c).phase with
    | .inline i n => if i < n then update s.items i fun _ => (s.coords c).tag c else s.items
    | _ => s.items
  | _ => s.items

def SharedState.toWriteAfter (s : SharedState numCoords numWorkers) :
    Label numCoords numWorkers → Fin numCoords → List BatchField
  | .submit c _ => update s.toWrite c batchFields
  | _ => s.toWrite

def SharedState.toCopyAfter (s : SharedState numCoords numWorkers) :
    Label numCoords numWorkers → Fin numWorkers → List BatchField
  | .worker w _ =>
    if (s.workers w).pc = .takeItem then update s.toCopy w batchFields else s.toCopy
  | _ => s.toCopy

def sharedStep (s : SharedState numCoords numWorkers) :
    SharedLabel numCoords numWorkers → Option (SharedState numCoords numWorkers)
  | .move label =>
    if s.ready label then
      (step s.toState label).map fun t =>
        { toState := t
          batch := s.batch
          items := s.itemsAfter label
          toWrite := s.toWriteAfter label
          toCopy := s.toCopyAfter label }
    else none
  | .write c =>
    match s.toWrite c with
    | [] => none
    | k :: ks =>
      some { s with
        batch := update s.batch k ((s.coords c).tag c)
        toWrite := update s.toWrite c ks }
  | .copy w =>
    match s.toCopy w with
    | [] => none
    | k :: ks =>
      let slot := (s.workers w).slot
      some { s with
        items := update s.items slot (update (s.items slot) k (s.batch k))
        toCopy := update s.toCopy w ks }

def shared (numCoords numWorkers : Nat) :
    Machine (SharedState numCoords numWorkers) (SharedLabel numCoords numWorkers) where
  step := sharedStep

def CarefulShared (s : SharedState numCoords numWorkers) : SharedLabel numCoords numWorkers → Prop
  | .move label => Careful s.toState label
  | _ => True

instance (s : SharedState numCoords numWorkers) : ∀ label, Decidable (CarefulShared s label)
  | .move label => inferInstanceAs (Decidable (Careful s.toState label))
  | .write _ | .copy _ => isTrue trivial

/-! ## The property -/

inductive Party (numCoords numWorkers : Nat) where
  | worker (w : Fin numWorkers)
  | coord (c : Fin numCoords)

/-- The queue entry that a party is filling in, servicing or collecting. -/
def State.UsesSlot (s : State numCoords numWorkers) (slot : Nat) : Party numCoords numWorkers → Prop
  | .worker w => (s.workers w).pc.hasItem = true ∧ (s.workers w).slot = slot
  | .coord c => (∃ n, (s.coords c).phase = .inlineService slot n) ∨
      (s.coords c).phase = .inside ∧ ∃ items rest i,
        (s.coords c).program = .collect items :: rest ∧ i < items ∧ s.pool.queueBase + i = slot

/-- The worker context that a party services with; the inline fallback takes the first one. -/
def State.UsesContext (s : State numCoords numWorkers) (k : Nat) : Party numCoords numWorkers → Prop
  | .worker w => (s.workers w).pc.hasItem = true ∧ (w : Nat) = k
  | .coord c => (∃ i n, (s.coords c).phase = .inline i n ∨ (s.coords c).phase = .inlineService i n) ∧
      0 = k

/-- The batches of different GPUs do not mix. -/
structure Isolated (s : SharedState numCoords numWorkers) : Prop where
  /-- An item in service has what its batch has. -/
  serviced : ∀ w, (s.workers w).pc = .service → s.toCopy w = [] →
    s.pool.queue (s.workers w).slot = (s.workers w).group ∧
      ∀ k, s.items (s.workers w).slot k = (s.workers w).group.1
  inlined : ∀ c i n, (s.coords c).phase = .inlineService i n →
    s.pool.queue i = ((s.coords c).tag c, i) ∧ ∀ k, s.items i k = (s.coords c).tag c
  /-- While a worker has an item, the wait of its coordinator has not returned. -/
  waited : ∀ w, (s.workers w).pc.hasItem = true → ∃ c, (s.coords c).phase = .inside ∧
    s.pool.batchGroups.1 = (s.coords c).tag c ∧ AwaitsReturn s.pool.toFields (s.coords c).program
  /-- A coordinator collects its own items, and all of them are finished. -/
  collected : ∀ c items rest, (s.coords c).phase = .inside →
    (s.coords c).program = .collect items :: rest → ∀ i < items,
      i ∈ s.history.finished ∧
        s.pool.queue (s.pool.queueBase + i) = ((s.coords c).tag c, (s.coords c).start + i) ∧
        ∀ k, s.items (s.pool.queueBase + i) k = (s.coords c).tag c
  one_slot : ∀ slot a b, s.UsesSlot slot a → s.UsesSlot slot b → a = b
  one_context : ∀ k a b, s.UsesContext k a → s.UsesContext k b → a = b

/-! ## One slot, one context -/

section Parties

variable {s : State numCoords numWorkers} (hinv : Inv s)
include hinv

theorem Inv.slot_inj {w w' : Fin numWorkers} (hw : (s.workers w).pc.hasItem = true)
    (hw' : (s.workers w').pc.hasItem = true) (heq : (s.workers w).slot = (s.workers w').slot) :
    w = w' := by
  obtain ⟨-, hb, -⟩ := hinv.waiting_of_hasItem hw
  rw [hinv.slot_eq hw, hinv.slot_eq hw'] at heq
  have hmine := (hb.sharing.placed w).idx_mem_hand hw
  rw [Nat.add_left_cancel heq] at hmine
  exact hb.sharing.shared.hand_inj _ w w' hmine ((hb.sharing.placed w').idx_mem_hand hw')

/-- While the inline fallback runs, no worker has an item. -/
theorem Inv.no_item_of_inline {c : Fin numCoords} {i n : Nat}
    (hphase : (s.coords c).phase = .inline i n ∨ (s.coords c).phase = .inlineService i n)
    (w : Fin numWorkers) : (s.workers w).pc.hasItem = false := by
  have hfacts := hinv.coords c
  unfold CoordFacts at hfacts
  rcases hphase with hphase | hphase <;> rw [hphase] at hfacts
  · exact (hinv.pool.pc_ne hfacts.2 w).1
  · exact (hinv.pool.pc_ne hfacts.2 w).1

theorem Inv.coord_usesSlot (hkept : Kept s s.pool.Holds) {slot : Nat} {c : Fin numCoords}
    (huse : s.UsesSlot slot (.coord c)) :
    (s.coords c).phase ≠ .idle ∧ ∀ w, (s.workers w).pc.hasItem = false := by
  rcases huse with ⟨n, hphase⟩ | ⟨hphase, items, rest, i, hprog, -⟩
  · exact ⟨by simp [hphase], hinv.no_item_of_inline (.inr hphase)⟩
  · refine ⟨by simp [hphase], fun w => ?_⟩
    have hstage := (hkept.awaited items (hinv.awaited_of_collect hphase hprog)).1
    exact (hinv.pool.pc_ne hstage w).1

theorem Inv.one_slot (hkept : Kept s s.pool.Holds) (slot : Nat) (a b : Party numCoords numWorkers)
    (ha : s.UsesSlot slot a) (hb : s.UsesSlot slot b) : a = b := by
  have hexcl : ∀ w c, s.UsesSlot slot (.worker w) → s.UsesSlot slot (.coord c) → False := by
    intro w c hw hc
    have hnone := (hinv.coord_usesSlot hkept hc).2 w
    rw [hw.1] at hnone
    cases hnone
  cases a with
  | worker w =>
    cases b with
    | worker w' => rw [hinv.slot_inj ha.1 hb.1 (ha.2.trans hb.2.symm)]
    | coord c => exact (hexcl w c ha hb).elim
  | coord c =>
    cases b with
    | worker w => exact (hexcl w c hb ha).elim
    | coord c' =>
      rw [hinv.alone c c' (hinv.coord_usesSlot hkept ha).1 (hinv.coord_usesSlot hkept hb).1]

theorem Inv.one_context (k : Nat) (a b : Party numCoords numWorkers) (ha : s.UsesContext k a)
    (hb : s.UsesContext k b) : a = b := by
  have hexcl : ∀ w c, s.UsesContext k (.worker w) → s.UsesContext k (.coord c) → False := by
    rintro w c hw ⟨⟨i, n, hphase⟩, -⟩
    have hnone := hinv.no_item_of_inline hphase w
    rw [hw.1] at hnone
    cases hnone
  have hbusy : ∀ c, s.UsesContext k (.coord c) → (s.coords c).phase ≠ .idle := by
    rintro c ⟨⟨i, n, hphase | hphase⟩, -⟩ <;> simp [hphase]
  cases a with
  | worker w =>
    cases b with
    | worker w' => rw [Fin.ext (ha.2.trans hb.2.symm)]
    | coord c => exact (hexcl w c ha hb).elim
  | coord c =>
    cases b with
    | worker w => exact (hexcl w c hb ha).elim
    | coord c' => rw [hinv.alone c c' (hbusy c ha) (hbusy c' hb)]

end Parties

/-! ## The invariant -/

/-- What was written and copied belongs to the batch it should. -/
structure SharedInv (s : SharedState numCoords numWorkers) : Prop where
  own : ∀ c, (s.coords c).phase.handsOver = true → ∀ k, k ∉ s.toWrite c →
    s.batch k = (s.coords c).tag c
  writing : ∀ c, s.toWrite c ≠ [] → ∃ n, (s.coords c).phase = .writeGroups n
  copied : ∀ w, (s.workers w).pc = .service → ∀ k, k ∉ s.toCopy w →
    s.items (s.workers w).slot k = s.pool.batchGroups.1
  copying : ∀ w, s.toCopy w ≠ [] → (s.workers w).pc = .service
  inlined : ∀ c i n, (s.coords c).phase = .inlineService i n →
    s.pool.queue i = ((s.coords c).tag c, i) ∧ ∀ k, s.items i k = (s.coords c).tag c
  kept : Kept s.toState fun slot => ∀ k, s.items slot k = s.pool.batchGroups.1

theorem sharedInv_init : SharedInv ({} : SharedState numCoords numWorkers) where
  own := fun _ h => by cases h
  writing := fun _ h => absurd rfl h
  copied := fun _ h => by cases h
  copying := fun _ h => absurd rfl h
  inlined := fun _ _ _ h => by cases h
  kept := kept_init

section Steps

variable {s : SharedState numCoords numWorkers} (hinv : Inv s.toState) (h : SharedInv s)
include hinv h

/-- While a worker has an item, the fields are those of its batch. -/
theorem SharedInv.batch_eq {w : Fin numWorkers} (hitem : (s.workers w).pc.hasItem = true)
    (k : BatchField) : s.batch k = s.pool.batchGroups.1 := by
  obtain ⟨-, -, c, hphase, hin⟩ := hinv.waiting_of_hasItem hitem
  have hdone : s.toWrite c = [] := by
    by_contra hne
    obtain ⟨n, hn⟩ := h.writing c hne
    rw [hn] at hphase
    cases hphase
  rw [hin.groups]
  exact h.own c (by rw [hphase]; rfl) k (by rw [hdone]; exact List.not_mem_nil)

theorem SharedInv.write {c : Fin numCoords} {k : BatchField} {ks : List BatchField}
    (hk : s.toWrite c = k :: ks) :
    SharedInv { s with
      batch := update s.batch k ((s.coords c).tag c)
      toWrite := update s.toWrite c ks } := by
  obtain ⟨n, hphase⟩ := h.writing c (by simp [hk])
  refine ⟨fun c' hover k' hk' => ?_, fun c' hne => ?_, h.copied, h.copying, h.inlined, h.kept⟩
  -- the coordinator is the only one that is not idle
  · have hc : c' = c := by
      apply hinv.alone c' c
      · intro hidle
        dsimp only at hover
        rw [hidle] at hover
        cases hover
      · simp [hphase]
    subst hc
    dsimp only at hk' ⊢
    rw [update_self] at hk'
    rcases eq_or_ne k' k with rfl | hne
    · rw [update_self]
    · rw [update_of_ne hne]
      apply h.own c' hover k'
      rw [hk]
      exact fun hmem => (List.mem_cons.1 hmem).elim hne hk'
  · dsimp only at hne
    rcases eq_or_ne c' c with rfl | hc
    · exact ⟨n, hphase⟩
    · rw [update_of_ne hc] at hne
      exact h.writing c' hne

theorem SharedInv.copy {w : Fin numWorkers} {k : BatchField} {ks : List BatchField}
    (hk : s.toCopy w = k :: ks) :
    SharedInv { s with
      items := update s.items (s.workers w).slot
        (update (s.items (s.workers w).slot) k (s.batch k))
      toCopy := update s.toCopy w ks } := by
  have hpc := h.copying w (by simp [hk])
  have hitem : (s.workers w).pc.hasItem = true := by rw [hpc]; rfl
  have hbatch := h.batch_eq hinv hitem k
  -- what is written is what every entry of the dispatch has
  have hkeep : ∀ slot k', s.items slot k' = s.pool.batchGroups.1 →
      update s.items (s.workers w).slot (update (s.items (s.workers w).slot) k (s.batch k)) slot k' =
        s.pool.batchGroups.1 := by
    intro slot k' hold
    rcases eq_or_ne slot (s.workers w).slot with rfl | hslot
    · rw [update_self]
      rcases eq_or_ne k' k with rfl | hne
      · rw [update_self, hbatch]
      · rw [update_of_ne hne, hold]
    · rw [update_of_ne hslot, hold]
  refine ⟨h.own, h.writing, fun w' hpc' k' hk' => ?_, fun w' hne => ?_, fun c i n hphase => ?_, ?_⟩
  · dsimp only at hpc' hk' ⊢
    rcases eq_or_ne w' w with rfl | hne
    · rw [update_self] at hk'
      rcases eq_or_ne k' k with rfl | hk''
      · rw [update_self, update_self, hbatch]
      · apply hkeep
        apply h.copied w' hpc' k'
        rw [hk]
        exact fun hmem => (List.mem_cons.1 hmem).elim hk'' hk'
    · rw [update_of_ne hne] at hk'
      exact hkeep _ _ (h.copied w' hpc' k' hk')
  · dsimp only at hne
    rcases eq_or_ne w' w with rfl | hw
    · exact hpc
    · rw [update_of_ne hw] at hne
      exact h.copying w' hne
  -- the inline fallback does not run meanwhile
  · have hnone := hinv.no_item_of_inline (.inr hphase) w
    rw [hitem] at hnone
    cases hnone
  · exact h.kept.congr (fun _ slot hslot k' => hkeep slot k' (hslot k'))
      ⟨.rfl, rfl, rfl, rfl, rfl, rfl⟩

end Steps

section Moves

variable {s : SharedState numCoords numWorkers} {t : State numCoords numWorkers}
  {c : Fin numCoords}

/-- Only the inline fallback fills in items by itself, and then nothing is waited for. -/
theorem itemsAfter_coord (hinv : Inv s.toState) (hstep : coordStep s.toState c = some t)
    (h : s.history.stage = .waiting ∨ t.pool.awaited ≠ none) :
    s.itemsAfter (.coord c) = s.items := by
  cases hphase : (s.coords c).phase with
  | inline i n =>
    have hfacts := hinv.coords c
    unfold CoordFacts at hfacts
    unfold coordStep at hstep
    dsimp only at hstep
    rw [hphase] at hstep hfacts
    dsimp only at hstep
    split at hstep
    · cases hstep
      exact absurd rfl (h.resolve_left hfacts.2)
    · rename_i hlt
      simp only [SharedState.itemsAfter, hphase, if_neg hlt]
  | _ => simp only [SharedState.itemsAfter, hphase]

variable (hinv : Inv s.toState) (h : SharedInv s)
include hinv h

theorem SharedInv.coord (hcare : Careful s.toState (.coord c)) (hready : s.toWrite c = [])
    (hstep : coordStep s.toState c = some t) :
    SharedInv { s with toState := t, items := s.itemsAfter (.coord c) } := by
  obtain ⟨co, hmoves⟩ := coordMoves_of_step hstep
  -- the others are idle
  have hcoords : ∀ c', (t.coords c').phase ≠ .idle → c' = c ∧ t.coords c' = co := by
    intro c' hbusy
    rw [hmoves.coords] at hbusy ⊢
    rcases eq_or_ne c' c with rfl | hne
    · exact ⟨rfl, update_self ..⟩
    · rw [update_of_ne hne] at hbusy
      exact absurd (hinv.alone c' c hbusy hmoves.busy) hne
  have htag : co.tag c = (s.coords c).tag c := by rw [Coord.tag, hmoves.serial, Coord.tag]
  refine ⟨fun c' hover k hk => ?_, fun c' hne => ?_, fun w hpc k hk => ?_, fun w hne => ?_,
    fun c' i n hphase => ?_, ?_⟩
  · dsimp only at hover hk ⊢
    obtain ⟨rfl, hco⟩ := hcoords c' fun hidle => by rw [hidle] at hover; cases hover
    rw [hco] at hover ⊢
    rw [htag]
    exact h.own c' (hmoves.handsOver hover) k hk
  · dsimp only at hne ⊢
    have hother : c' ≠ c := by
      rintro rfl
      exact hne hready
    rw [hmoves.coords, update_of_ne hother]
    exact h.writing c' hne
  -- the item of a worker is waited for, so the fields stand
  · dsimp only at hpc hk ⊢
    rw [hmoves.workers] at hpc ⊢
    have hstage := (hinv.waiting_of_hasItem (w := w) (by rw [hpc]; rfl)).1
    rw [itemsAfter_coord hinv hstep (.inl hstage), (hinv.coord_stands hcare.1 hstep (.inl hstage)).1]
    exact h.copied w hpc k hk
  · dsimp only at hne ⊢
    rw [hmoves.workers]
    exact h.copying w hne
  · dsimp only at hphase ⊢
    obtain ⟨rfl, hco⟩ := hcoords c' (by simp [hphase])
    rw [hco] at hphase ⊢
    obtain ⟨hinline, hlt, hqueue⟩ := hmoves.inlined i n hphase
    have hitems : s.itemsAfter (.coord c') = update s.items i fun _ => (s.coords c').tag c' := by
      simp only [SharedState.itemsAfter, hinline, if_pos hlt]
    rw [htag, hqueue, hitems, update_self, update_self]
    exact ⟨rfl, fun _ => rfl⟩
  · refine h.kept.coord (fun hor slot hslot => ?_) hinv hcare.1 hstep
    dsimp only at hor ⊢
    rw [itemsAfter_coord hinv hstep hor, (hinv.coord_stands hcare.1 hstep hor).1]
    exact hslot

theorem SharedInv.worker {w : Fin numWorkers} {merge : Bool} (hready : s.toCopy w = []) :
    SharedInv { s with
      toState := workerStep s.toState w merge
      toCopy := s.toCopyAfter (.worker w merge) } := by
  have hfields := toFields_workerAccess s.params merge s.pool (s.workers w)
  have hgroups : (workerStep s.toState w merge).pool.batchGroups = s.pool.batchGroups :=
    congrArg Fields.batchGroups hfields
  have hown : ∀ w', w' ≠ w → (workerStep s.toState w merge).workers w' = s.workers w' :=
    fun w' hne => update_of_ne hne ..
  have hself : (workerStep s.toState w merge).workers w =
      (workerAccess s.params merge s.pool (s.workers w)).2 := update_self ..
  refine ⟨?_, h.writing, fun w' hpc k hk => ?_, fun w' hne => ?_, fun c i n hphase => ?_, ?_⟩
  · exact h.own
  · dsimp only at hpc hk ⊢
    rw [hgroups]
    unfold SharedState.toCopyAfter at hk
    dsimp only at hk
    rcases eq_or_ne w' w with rfl | hne
    -- it has just taken the item, and has everything to copy
    · by_cases htake : (s.workers w').pc = .takeItem
      · rw [if_pos htake, update_self] at hk
        exact absurd (mem_batchFields k) hk
      · rw [hself] at hpc
        exact absurd hpc (workerAccess_queue htake).2
    · rw [hown w' hne] at hpc ⊢
      apply h.copied w' hpc k
      split at hk
      · rwa [update_of_ne hne] at hk
      · exact hk
  · dsimp only at hne ⊢
    unfold SharedState.toCopyAfter at hne
    dsimp only at hne
    rcases eq_or_ne w' w with rfl | hw
    · by_cases htake : (s.workers w').pc = .takeItem
      · rw [hself]
        simp only [workerAccess, htake]
      · rw [if_neg htake] at hne
        exact absurd hready hne
    · rw [hown w' hw]
      apply h.copying w'
      split at hne
      · rwa [update_of_ne hw] at hne
      · exact hne
  -- no worker takes an item while the inline fallback runs
  · dsimp only at hphase ⊢
    have hnone := hinv.no_item_of_inline (.inr hphase) w
    have htake : (s.workers w).pc ≠ .takeItem := by
      intro hpc
      rw [hpc] at hnone
      cases hnone
    have hqueue : (workerStep s.toState w merge).pool.queue = s.pool.queue :=
      (workerAccess_queue htake).1
    rw [hqueue]
    exact h.inlined c i n hphase
  · refine h.kept.worker (fun _ slot hslot => ?_) hinv rfl fun hpc => ?_
    · dsimp only
      rw [hgroups]
      exact hslot
    · dsimp only
      rw [hgroups]
      exact fun k => h.copied w hpc k (by rw [hready]; exact List.not_mem_nil)

omit hinv in
/-- A coordinator takes up a batch, or calls `uvm_kthread_dispatch_and_wait`. -/
theorem SharedInv.enter {co : Coord} {toWrite : Fin numCoords → List BatchField}
    (hpool : t.pool = s.pool) (hworkers : t.workers = s.workers) (hhistory : t.history = s.history)
    (hcoords : t.coords = update s.coords c co) (hothers : ∀ c', c' ≠ c → toWrite c' = s.toWrite c')
    (hown : co.phase.handsOver = true → ∀ k, k ∉ toWrite c → s.batch k = co.tag c)
    (hwriting : toWrite c ≠ [] → ∃ n, co.phase = .writeGroups n)
    (hinline : ∀ i n, co.phase ≠ .inlineService i n) :
    SharedInv { s with toState := t, toWrite := toWrite } := by
  refine ⟨fun c' hover k hk => ?_, fun c' hne => ?_, fun w => ?_, fun w => ?_,
    fun c' i n hphase => ?_, ?_⟩
  · dsimp only at hover hk ⊢
    rw [hcoords] at hover ⊢
    rcases eq_or_ne c' c with rfl | hc
    · rw [update_self] at hover ⊢
      exact hown hover k hk
    · rw [update_of_ne hc] at hover ⊢
      exact h.own c' hover k (hothers c' hc ▸ hk)
  · dsimp only at hne ⊢
    rw [hcoords]
    rcases eq_or_ne c' c with rfl | hc
    · rw [update_self]
      exact hwriting hne
    · rw [update_of_ne hc]
      exact h.writing c' (hothers c' hc ▸ hne)
  · dsimp only
    rw [hworkers, hpool]
    exact h.copied w
  · dsimp only
    rw [hworkers]
    exact h.copying w
  · dsimp only at hphase ⊢
    rw [hcoords] at hphase ⊢
    rcases eq_or_ne c' c with rfl | hc
    · rw [update_self] at hphase
      exact absurd hphase (hinline i n)
    · rw [update_of_ne hc] at hphase ⊢
      rw [hpool]
      exact h.inlined c' i n hphase
  -- the pool, its workers and the history stay
  · refine h.kept.congr (fun _ slot hslot => ?_) ⟨by rw [hhistory], by rw [hhistory],
      by rw [hhistory], by rw [hpool], by rw [hpool], by rw [hpool]⟩
    dsimp only
    rw [hpool]
    exact hslot

/-- A careful step keeps the batches apart. -/
theorem SharedInv.step {label : SharedLabel numCoords numWorkers} {t : SharedState numCoords numWorkers}
    (hcare : CarefulShared s label) (hstep : sharedStep s label = some t) :
    Inv t.toState ∧ SharedInv t := by
  cases label with
  | write c =>
    simp only [sharedStep] at hstep
    split at hstep
    · cases hstep
    · rename_i k ks hk
      cases hstep
      exact ⟨hinv, h.write hinv hk⟩
  | copy w =>
    simp only [sharedStep] at hstep
    split at hstep
    · cases hstep
    · rename_i k ks hk
      cases hstep
      exact ⟨hinv, h.copy hinv hk⟩
  | move label =>
    simp only [sharedStep] at hstep
    split at hstep
    · rename_i hready
      obtain ⟨t', hstep', rfl⟩ := Option.map_eq_some_iff.1 hstep
      refine ⟨inv_step hinv hcare hstep', ?_⟩
      cases label with
      | setParams ps =>
        cases hstep'
        exact ⟨h.own, h.writing, h.copied, h.copying, h.inlined,
          h.kept.congr (fun _ _ => id) ⟨.rfl, rfl, rfl, rfl, rfl, rfl⟩⟩
      | submit c n =>
        simp only [Modes.step, submitStep] at hstep'
        split at hstep'
        · have ht := Option.some.inj hstep'
          apply h.enter (t := t') (c := c) (by rw [← ht]) (by rw [← ht]) (by rw [← ht]) (by rw [← ht])
          · exact fun c' hne => update_of_ne hne ..
          -- all fields are still to be written
          · intro _ k hk
            simp only [SharedState.toWriteAfter, update_self] at hk
            exact absurd (mem_batchFields k) hk
          · exact fun _ => ⟨n, rfl⟩
          · exact fun _ _ h => by cases h
        · cases hstep'
      | submitInline c n =>
        simp only [Modes.step, submitStep] at hstep'
        split at hstep'
        · rename_i hidle
          have ht := Option.some.inj hstep'
          apply h.enter (t := t') (c := c) (by rw [← ht]) (by rw [← ht]) (by rw [← ht]) (by rw [← ht])
          · exact fun _ _ => rfl
          · exact fun h => by cases h
          · intro hne
            obtain ⟨m, hm⟩ := h.writing c hne
            rw [hidle] at hm
            cases hm
          · exact fun _ _ h => by cases h
        · cases hstep'
      | call c cfg ans faults =>
        simp only [Modes.step, callStep] at hstep'
        split at hstep'
        · rename_i hphase
          have ht := Option.some.inj hstep'
          apply h.enter (t := t') (c := c) (by rw [← ht]) (by rw [← ht]) (by rw [← ht]) (by rw [← ht])
          · exact fun _ _ => rfl
          · exact fun _ => h.own c (by rw [hphase]; rfl)
          · intro hne
            obtain ⟨m, hm⟩ := h.writing c hne
            rw [hphase] at hm
            cases hm
          · exact fun _ _ h => by cases h
        · cases hstep'
      -- nothing is left to write or to copy
      | coord c => exact h.coord hinv hcare (List.isEmpty_iff.1 hready) hstep'
      | worker w merge =>
        cases hstep'
        exact h.worker hinv (List.isEmpty_iff.1 hready)
    · cases hstep

end Moves

theorem Kept.shared {s t : SharedState numCoords numWorkers} (hkept : Kept s.toState s.pool.Holds)
    (hinv : Inv s.toState) {label : SharedLabel numCoords numWorkers} (hcare : CarefulShared s label)
    (hstep : sharedStep s label = some t) : Kept t.toState t.pool.Holds := by
  cases label with
  | move label =>
    simp only [sharedStep] at hstep
    split at hstep
    · obtain ⟨t', hstep', rfl⟩ := Option.map_eq_some_iff.1 hstep
      exact hinv.kept_holds hcare hstep' hkept
    · cases hstep
  | write _ | copy _ =>
    simp only [sharedStep] at hstep
    split at hstep
    · cases hstep
    · cases hstep
      exact hkept

theorem SharedInv.isolated {s : SharedState numCoords numWorkers} (h : SharedInv s)
    (hinv : Inv s.toState) (hkept : Kept s.toState s.pool.Holds) : Isolated s where
  serviced := by
    intro w hpc hdone
    obtain ⟨-, hb, -⟩ := hinv.waiting_of_hasItem (w := w) (by rw [hpc]; rfl)
    have hserv := hb.services w hpc
    refine ⟨hserv.slot, fun k => ?_⟩
    rw [h.copied w hpc k (by rw [hdone]; exact List.not_mem_nil), hserv.group]
  inlined := h.inlined
  waited := by
    intro w hitem
    obtain ⟨hstage, -, c, hphase, hin⟩ := hinv.waiting_of_hasItem hitem
    exact ⟨c, hphase, by rw [hin.groups], (hin.waits hstage).awaits⟩
  collected := by
    intro c items rest hphase hprog i hi
    obtain ⟨hfinished, -, hqueue⟩ := hinv.collects hkept hphase hprog hi
    refine ⟨hfinished, hqueue, fun k => ?_⟩
    have hawaited := hinv.awaited_of_collect hphase hprog
    rw [((h.kept.awaited items hawaited).2.2 i hi).2 k, (hinv.inside hphase).groups]
  one_slot := hinv.one_slot hkept
  one_context := hinv.one_context

/-- **Isolation**: in every state of a careful run the batches of different GPUs do not mix. -/
theorem coordinators_isolated {labels : List (SharedLabel numCoords numWorkers)}
    {s : SharedState numCoords numWorkers}
    (hcare : (shared numCoords numWorkers).Meets CarefulShared {} labels)
    (hrun : (shared numCoords numWorkers).run {} labels = some s) : Isolated s := by
  have hstep : ∀ (s : SharedState numCoords numWorkers) label t,
      (Inv s.toState ∧ SharedInv s ∧ Kept s.toState s.pool.Holds) → CarefulShared s label →
        (shared numCoords numWorkers).step s label = some t →
          Inv t.toState ∧ SharedInv t ∧ Kept t.toState t.pool.Holds := by
    rintro s label t ⟨hinv, hshared, hkept⟩ hcare hstep
    obtain ⟨hinv', hshared'⟩ := hshared.step hinv hcare hstep
    exact ⟨hinv', hshared', hkept.shared hinv hcare hstep⟩
  obtain ⟨hinv, hshared, hkept⟩ := (shared numCoords numWorkers).run_invariant hstep
    ⟨inv_init, sharedInv_init, kept_init⟩ hcare hrun
  exact hshared.isolated hinv hkept

/-! ## Two GPUs -/

local instance twoCoordinators_neZero : NeZero 2 := ⟨two_ne_zero⟩
local instance onlyWorker_neZero : NeZero 1 := ⟨Nat.one_ne_zero⟩

/-- Coordinator `c` hands over a batch of one group, up to the start of the worker. -/
def handOver (c : Fin 2) : List (SharedLabel 2 1) :=
  .move (.submit c 1) :: List.replicate 3 (.write c) ++ List.replicate 2 (.move (.coord c)) ++
    [.move (.call c oneWorker {} [1])] ++ List.replicate 8 (.move (.coord c))

/-- The second coordinator takes up its batch after the first one is done. -/
def oneAfterTheOther : List (SharedLabel 2 1) :=
  let service : List (SharedLabel 2 1) := List.replicate 9 (.move (.worker 0 false)) ++
    List.replicate 3 (.copy 0) ++ List.replicate 3 (.move (.worker 0 false))
  handOver 0 ++ service ++ List.replicate 4 (.move (.coord 0)) ++
    handOver 1 ++ service ++ [.move (.coord 1)]

/-- Who is about to collect the first entry, and whose item is in it. -/
def collecting (s : SharedState 2 1) : Bool × BatchTag × List BatchTag :=
  (match (s.coords 1).program with
    | .collect _ :: _ => true
    | _ => false, (s.pool.queue 0).1, batchFields.map (s.items 0))

theorem one_after_the_other_isolated :
    ∃ s, (shared 2 1).run {} oneAfterTheOther = some s ∧
      collecting s = (true, ⟨1, 1⟩, [⟨1, 1⟩, ⟨1, 1⟩, ⟨1, 1⟩]) ∧ Isolated s := by
  have hview : ((shared 2 1).run {} oneAfterTheOther).map collecting =
      some (true, ⟨1, 1⟩, [⟨1, 1⟩, ⟨1, 1⟩, ⟨1, 1⟩]) := by decide +kernel
  have hcare : (shared 2 1).Meets CarefulShared {} oneAfterTheOther := by decide +kernel
  obtain ⟨s, hrun, hs⟩ := Option.map_eq_some_iff.1 hview
  exact ⟨s, hrun, hs, coordinators_isolated hcare hrun⟩

/-- The second coordinator writes `batch_gpu` while the worker is filling in an item of the first
one's batch. -/
def fieldsOverwritten : List (SharedLabel 2 1) :=
  handOver 0 ++ List.replicate 9 (.move (.worker 0 false)) ++
    [.move (.submit 1 1), .write 1] ++ List.replicate 3 (.copy 0)

/-- What the worker is servicing, and with which GPU. -/
def servicing (s : SharedState 2 1) : WorkerPc × List BatchField × BatchTag × BatchTag :=
  ((s.workers 0).pc, s.toCopy 0, (s.workers 0).group.1, s.items (s.workers 0).slot .gpu)

/-- The group of the first GPU's batch is serviced with the second GPU. -/
theorem gpu_of_other_batch :
    ∃ s, (shared 2 1).run {} fieldsOverwritten = some s ∧
      servicing s = (.service, [], ⟨0, 1⟩, ⟨1, 1⟩) ∧ ¬ Isolated s := by
  have hview : ((shared 2 1).run {} fieldsOverwritten).map servicing =
      some (.service, [], ⟨0, 1⟩, ⟨1, 1⟩) := by decide +kernel
  obtain ⟨s, hrun, hs⟩ := Option.map_eq_some_iff.1 hview
  refine ⟨s, hrun, hs, fun hiso => ?_⟩
  simp only [servicing, Prod.mk.injEq] at hs
  obtain ⟨hpc, hcopied, hgroup, hgpu⟩ := hs
  have hsame := (hiso.serviced 0 hpc hcopied).2 .gpu
  rw [hgroup, hgpu] at hsame
  cases hsame

end FaultMesh.Modes
