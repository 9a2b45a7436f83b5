import FaultMesh.Modes.Quiescence

/-!
# The entries of the queue

A worker fills in the queue entry of an item and services it; the coordinator collects all entries of
the dispatch when its wait has returned. In careful runs what workers leave in the entries stays there
until then. `Kept` says so for any property of entries.
-/

namespace FaultMesh.Modes

open Function

section Entries

variable {numCoords numWorkers : Nat}

/-- The entries of serviced items have the property, and those of all items when they are awaited. -/
structure Kept (s : State numCoords numWorkers) (P : Nat → Prop) : Prop where
  serviced : s.history.stage = .waiting → ∀ i ∈ s.history.serviced, P (s.pool.queueBase + i)
  awaited : ∀ items, s.pool.awaited = some items →
    s.history.stage ≠ .waiting ∧ items = s.pool.batchNumGroups ∧
      ∀ i < items, i ∈ s.history.finished ∧ P (s.pool.queueBase + i)

variable {s t : State numCoords numWorkers} {P P' : Nat → Prop} {c : Fin numCoords}

/-- The pool and the workers only change when a coordinator or a worker moves. -/
theorem step_cases {label : Label numCoords numWorkers} (hstep : step s label = some t) :
    (t.pool = s.pool ∧ t.workers = s.workers ∧ t.history = s.history) ∨
      (∃ c, label = .coord c) ∨ ∃ w merge, label = .worker w merge := by
  cases label with
  | setParams ps =>
    cases hstep
    exact .inl ⟨rfl, rfl, rfl⟩
  | submit c numGroups | submitInline c numGroups =>
    simp only [step, submitStep] at hstep
    split at hstep
    · cases hstep
      exact .inl ⟨rfl, rfl, rfl⟩
    · cases hstep
  | call c cfg ans faults =>
    simp only [step, callStep] at hstep
    split at hstep
    · cases hstep
      exact .inl ⟨rfl, rfl, rfl⟩
    · cases hstep
  | coord c => exact .inr (.inl ⟨c, rfl⟩)
  | worker w merge => exact .inr (.inr ⟨w, merge, rfl⟩)

/-- The coordinator hands its batch over to the workers, or has done so. -/
def Phase.handsOver : Phase → Bool
  | .writeGroups _ | .writeCount _ | .call _ | .inside => true
  | _ => false

/-- What a step of a coordinator does to the coordinators. -/
structure CoordMoves (s t : State numCoords numWorkers) (c : Fin numCoords) (co : Coord) : Prop where
  coords : t.coords = update s.coords c co
  workers : t.workers = s.workers
  busy : (s.coords c).phase ≠ .idle
  serial : co.serial = (s.coords c).serial
  outside : (s.coords c).phase ≠ .inside → co.phase ≠ .inside
  handsOver : co.phase.handsOver = true → (s.coords c).phase.handsOver = true
  inlined : ∀ i n, co.phase = .inlineService i n → (s.coords c).phase = .inline i n ∧ i < n ∧
    t.pool.queue = update s.pool.queue i ((s.coords c).tag c, i)

theorem coordMoves_of_step (hstep : coordStep s c = some t) :
    ∃ co, CoordMoves s t c co := by
  unfold coordStep at hstep
  dsimp only at hstep
  cases hphase : (s.coords c).phase with
  | idle | call =>
    rw [hphase] at hstep
    cases hstep
  | writeGroups n | writeCount n | inlineService i n =>
    rw [hphase] at hstep
    cases hstep
    exact ⟨_, rfl, rfl, by simp [hphase], rfl, by simp, by rw [hphase]; exact id, by simp⟩
  | inside =>
    rw [hphase] at hstep
    cases hprog : (s.coords c).program with
    | nil =>
      rw [hprog] at hstep
      cases hstep
      exact ⟨_, rfl, rfl, by simp [hphase], rfl, by simp, by simp [Phase.handsOver], by simp⟩
    | cons a rest =>
      rw [hprog] at hstep
      obtain ⟨p', hafter, rfl⟩ := Option.map_eq_some_iff.1 hstep
      refine ⟨_, rfl, rfl, by simp [hphase], Coord.after_serial ..,
        fun hout => absurd hphase hout, ?_, fun i n hco => ?_⟩
      · rw [hphase]
        exact fun _ => rfl
      · rw [Coord.after_phase, hphase] at hco
        cases hco
  | inline i n =>
    rw [hphase] at hstep
    dsimp only at hstep
    split at hstep
    · rename_i hlt
      cases hstep
      refine ⟨_, rfl, rfl, by simp [hphase], rfl, by simp, by simp [Phase.handsOver], ?_⟩
      rintro i' n' ⟨⟩
      exact ⟨hphase, hlt, rfl⟩
    · cases hstep
      exact ⟨_, rfl, rfl, by simp [hphase], rfl, by simp, by simp [Phase.handsOver], by simp⟩

theorem coord_starts (hstage : s.history.stage ≠ .waiting) (hstage' : t.history.stage = .waiting)
    (hstep : coordStep s c = some t) :
    ∃ rest, (s.coords c).phase = .inside ∧ (s.coords c).program = .reinitDone :: rest ∧
      t.pool.toFields = s.pool.toFields.after (s.coords c).allGroups .reinitDone := by
  unfold coordStep at hstep
  dsimp only at hstep
  cases hphase : (s.coords c).phase with
  | idle | call =>
    rw [hphase] at hstep
    cases hstep
  | inside =>
    rw [hphase] at hstep
    cases hprog : (s.coords c).program with
    | nil =>
      rw [hprog] at hstep
      cases hstep
      exact absurd hstage' hstage
    | cons a rest =>
      rw [hprog] at hstep
      obtain ⟨p', hafter, rfl⟩ := Option.map_eq_some_iff.1 hstep
      cases a with
      -- no other access begins a wait
      | reinitDone => exact ⟨rest, rfl, rfl, toFields_after hafter⟩
      | _ =>
        revert hstage'
        simp [History.afterAccess, disturbs, hstage]
  | writeCount numGroups =>
    rw [hphase] at hstep
    cases hstep
    cases hstage'
  | writeGroups numGroups | inlineService i numGroups =>
    rw [hphase] at hstep
    cases hstep
    exact absurd hstage' hstage
  | inline i numGroups =>
    rw [hphase] at hstep
    dsimp only at hstep
    split at hstep
    all_goals
      cases hstep
      exact absurd hstage' hstage

theorem kept_of_cleared (hstage : t.history.stage ≠ .waiting) (hnone : t.pool.awaited = none) :
    Kept t P := by
  refine ⟨fun hst => absurd hst hstage, fun items hitems => ?_⟩
  rw [hnone] at hitems
  cases hitems

/-- Nothing happens to the dispatch. -/
structure SameDispatch (s t : State numCoords numWorkers) : Prop where
  stage : t.history.stage = .waiting ↔ s.history.stage = .waiting
  serviced : t.history.serviced = s.history.serviced
  finished : t.history.finished = s.history.finished
  awaited : t.pool.awaited = s.pool.awaited
  queueBase : t.pool.queueBase = s.pool.queueBase
  batchNumGroups : t.pool.batchNumGroups = s.pool.batchNumGroups

section

variable (h : Kept s P)
  (hkeep : s.history.stage = .waiting ∨ t.pool.awaited ≠ none → ∀ slot, P slot → P' slot)
include h hkeep

theorem Kept.congr (hsame : SameDispatch s t) : Kept t P' := by
  constructor
  · intro hst i hi
    rw [hsame.stage] at hst
    rw [hsame.serviced] at hi
    rw [hsame.queueBase]
    exact hkeep (.inl hst) _ (h.serviced hst i hi)
  · intro items hitems
    have hsome : t.pool.awaited ≠ none := by simp [hitems]
    rw [hsame.awaited] at hitems
    obtain ⟨hst, hcount, hall⟩ := h.awaited items hitems
    refine ⟨fun hwaiting => hst (hsame.stage.1 hwaiting), hcount.trans hsame.batchNumGroups.symm,
      fun i hi => ?_⟩
    rw [hsame.finished, hsame.queueBase]
    exact ⟨(hall i hi).1, hkeep (.inr hsome) _ (hall i hi).2⟩

/-- The wait returns: all items are finished, so all of them were serviced. -/
theorem Kept.wait (hb : BusyPool s.params s.pool s.workers s.history)
    (hstage : s.history.stage = .waiting) (hdone : s.pool.allDone ≠ 0)
    (hlayout : t.pool.toLayout = s.pool.toLayout)
    (hawaited : t.pool.awaited = some s.pool.batchNumGroups)
    (hfinished : t.history.finished = s.history.finished)
    (hreturned : t.history.stage = .returned) : Kept t P' := by
  have hstage' : t.history.stage ≠ .waiting := by simp [hreturned]
  refine ⟨fun hst => absurd hst hstage', fun items hitems => ?_⟩
  rw [hawaited] at hitems
  cases hitems
  refine ⟨hstage', by rw [hlayout], fun i hi => ?_⟩
  obtain ⟨-, hall, -⟩ := hb.signals.signalled hdone
  have hmem := hb.sharing.shared.mem_done (by rw [hall, Finset.card_range]) (Finset.mem_range.2 hi)
  rw [hfinished, hlayout]
  exact ⟨hmem, hkeep (.inl hstage) _ (h.serviced hstage i ((hb.sharing.serviced_iff i).2 (.inl hmem)))⟩

theorem Kept.access (hinv : Inv s) (hphase : (s.coords c).phase = .inside) {a : Access}
    {rest : List Access} (hprog : (s.coords c).program = a :: rest) (hexpire : a ≠ .expire)
    {p : Pool} (hafter : s.pool.after (s.coords c).allGroups a = some p)
    (hpool : t.pool = p)
    (hhistory : t.history = s.history.afterAccess s.pool.toFields c (s.coords c) a) : Kept t P' := by
  have hin := hinv.inside hphase
  by_cases hstage : s.history.stage = .waiting
  -- only pushes are begun and ended before the wait returns
  · have hawaits := (hin.waits hstage).awaits
    rw [hprog] at hawaits
    cases a with
    | pushBegin | pushEnd =>
      cases hafter
      exact h.congr hkeep ⟨by rw [hhistory]; rfl, by rw [hhistory]; rfl, by rw [hhistory]; rfl,
        by rw [hpool]; rfl, by rw [hpool]; rfl, by rw [hpool]; rfl⟩
    | wait =>
      simp only [Pool.after] at hafter
      split at hafter
      · cases hafter
      · rename_i hdone
        cases hafter
        have hb := hinv.pool.busy (by simp [hstage])
        exact h.wait hkeep hb hstage hdone (by rw [hpool]; rfl) (by rw [hpool]; rfl)
          (by rw [hhistory]; rfl) (by rw [hhistory]; rfl)
    | expire => exact absurd rfl hexpire
    | _ => cases hawaits
  · have hsame : ∀ {b : Bool}, (if b then Stage.calm else s.history.stage) = .waiting ↔
        s.history.stage = .waiting := by
      intro b
      cases b <;> simp [hstage]
    cases a with
    | reinitDone =>
      -- a dispatch begins with nothing serviced
      cases hafter
      obtain ⟨_, _, _, hplan⟩ := hin.plan
      rw [hprog] at hplan
      obtain ⟨-, hserviced, -⟩ := hinv.pool.fresh.remaining _ (hplan.1 rfl).startable.remaining
      refine ⟨fun _ i hi => ?_, fun items hitems => ?_⟩
      · rw [hhistory] at hi
        have hi : i ∈ s.history.serviced := hi
        rw [hserviced] at hi
        cases hi
      · rw [hpool] at hitems
        cases hitems
    | wait =>
      simp only [Pool.after, if_pos (hinv.pool.allDone hstage)] at hafter
      cases hafter
    | expire => exact absurd rfl hexpire
    | writeGroups | restoreGroups =>
      cases hafter
      exact kept_of_cleared (by rw [hhistory]; exact hstage) (by rw [hpool]; rfl)
    | writeQueueBase | writeNumGroups | setRemaining =>
      cases hafter
      exact kept_of_cleared (by simp [hhistory, History.afterAccess, disturbs]) (by rw [hpool]; rfl)
    | _ =>
      cases hafter
      refine h.congr hkeep ⟨?_, ?_, ?_, ?_, ?_, ?_⟩
      all_goals
        first
        | rw [hhistory]; exact hsame (b := true)
        | rw [hhistory]; exact hsame (b := false)
        | rw [hhistory]; rfl
        | rw [hpool]; rfl

theorem Kept.coord (hinv : Inv s) (hexpire : (s.coords c).expires = false)
    (hstep : coordStep s c = some t) : Kept t P' := by
  have hfacts := hinv.coords c
  unfold CoordFacts at hfacts
  unfold coordStep at hstep
  unfold Coord.expires at hexpire
  dsimp only at hstep
  cases hphase : (s.coords c).phase with
  | idle | call =>
    rw [hphase] at hstep
    cases hstep
  | writeGroups numGroups =>
    rw [hphase] at hstep hfacts
    cases hstep
    exact kept_of_cleared hfacts.2.1 rfl
  | writeCount numGroups =>
    rw [hphase] at hstep
    cases hstep
    exact kept_of_cleared (by simp) rfl
  | inside =>
    rw [hphase] at hstep hexpire
    cases hprog : (s.coords c).program with
    | nil =>
      rw [hprog] at hstep
      cases hstep
      exact h.congr hkeep ⟨.rfl, rfl, rfl, rfl, rfl, rfl⟩
    | cons a rest =>
      rw [hprog] at hstep hexpire
      obtain ⟨p', hafter, rfl⟩ := Option.map_eq_some_iff.1 hstep
      have hne : a ≠ .expire := by
        rintro rfl
        cases hexpire
      exact h.access hkeep hinv hphase hprog hne hafter rfl rfl
  | inline i numGroups =>
    rw [hphase] at hstep hfacts
    dsimp only at hstep
    split at hstep
    · cases hstep
      exact kept_of_cleared hfacts.2 rfl
    · cases hstep
      exact h.congr hkeep ⟨.rfl, rfl, rfl, rfl, rfl, rfl⟩
  | inlineService i numGroups =>
    rw [hphase] at hstep
    cases hstep
    exact h.congr hkeep ⟨.rfl, rfl, rfl, rfl, rfl, rfl⟩

theorem Kept.worker (hinv : Inv s) {w : Fin numWorkers} {merge : Bool}
    (ht : workerStep s w merge = t)
    (hnew : (s.workers w).pc = .service → P' (s.workers w).slot) : Kept t P' := by
  have hfields : t.pool.toFields = s.pool.toFields := by
    rw [← ht]
    exact toFields_workerAccess ..
  have hstage : t.history.stage = s.history.stage := by
    rw [← ht]
    exact stage_afterWorker ..
  have hhistory : t.history = s.history.afterWorker (s.workers w) := by rw [← ht]; rfl
  by_cases hitem : (s.workers w).pc.hasItem = true
  -- the dispatch is being serviced, so nothing is awaited
  · obtain ⟨hwaiting, hb, -⟩ := hinv.waiting_of_hasItem hitem
    refine ⟨fun _ i hi => ?_, fun items hitems => ?_⟩
    · rw [hfields]
      by_cases hold : i ∈ s.history.serviced
      · exact hkeep (.inl hwaiting) _ (h.serviced hwaiting i hold)
      -- the item has just been serviced
      · rw [hhistory] at hi
        cases hpc : (s.workers w).pc with
        | service =>
          simp only [History.afterWorker, hpc, List.mem_cons] at hi
          obtain rfl := hi.resolve_right hold
          have hbase := ((hb.sharing.placed w).loop (by rw [hpc]; rfl)).qBase
          rw [← hbase]
          exact hnew hpc
        | _ =>
          simp only [History.afterWorker, hpc] at hi
          exact absurd hi hold
    · rw [hfields] at hitems
      exact absurd hwaiting (h.awaited items hitems).1
  · have hafter : s.history.afterWorker (s.workers w) = s.history := by
      unfold History.afterWorker
      cases hpc : (s.workers w).pc <;> first | rfl | exact absurd (by rw [hpc]; rfl) hitem
    rw [hafter] at hhistory
    exact h.congr hkeep ⟨by rw [hstage], by rw [hhistory], by rw [hhistory], by rw [hfields],
      by rw [hfields], by rw [hfields]⟩

/-- What a careful step leaves in the entries. -/
theorem Kept.step {label : Label numCoords numWorkers} (hinv : Inv s) (hcare : Careful s label)
    (hstep : step s label = some t)
    (hnew : ∀ w merge, label = .worker w merge → (s.workers w).pc = .service →
      P' (s.workers w).slot) : Kept t P' := by
  rcases step_cases hstep with ⟨hpool, -, hhistory⟩ | ⟨c, rfl⟩ | ⟨w, merge, rfl⟩
  · exact h.congr hkeep ⟨by rw [hhistory], by rw [hhistory], by rw [hhistory], by rw [hpool],
      by rw [hpool], by rw [hpool]⟩
  · exact h.coord hkeep hinv hcare.1 hstep
  · exact h.worker hkeep hinv (Option.some.inj hstep) (hnew w merge rfl)

end

/-! ## Groups in the entries -/

def Pool.Holds (p : Pool) (slot : Nat) : Prop :=
  p.queue slot = (p.batchGroups.1, p.batchGroups.2 + (slot - p.queueBase))

section

variable (hinv : Inv s)
include hinv

/-- What an access of a coordinator may do to a dispatch that is waited for or awaited. -/
theorem Inv.coord_stands (hexpire : (s.coords c).expires = false) (hstep : coordStep s c = some t)
    (h : s.history.stage = .waiting ∨ t.pool.awaited ≠ none) :
    t.pool.batchGroups = s.pool.batchGroups ∧ t.pool.queueBase = s.pool.queueBase ∧
      t.pool.batchNumGroups = s.pool.batchNumGroups ∧ t.pool.queue = s.pool.queue ∧
      (s.history.stage = .waiting ∨ s.pool.awaited ≠ none) := by
  have hfacts := hinv.coords c
  unfold CoordFacts at hfacts
  unfold coordStep at hstep
  unfold Coord.expires at hexpire
  dsimp only at hstep
  cases hphase : (s.coords c).phase with
  | idle | call =>
    rw [hphase] at hstep
    cases hstep
  | writeGroups numGroups =>
    rw [hphase] at hstep hfacts
    cases hstep
    exact absurd rfl (h.resolve_left hfacts.2.1)
  | writeCount numGroups =>
    rw [hphase] at hstep hfacts
    cases hstep
    exact absurd rfl (h.resolve_left hfacts.2.2.1)
  | inside =>
    have hin := hinv.inside hphase
    rw [hphase] at hstep hexpire
    cases hprog : (s.coords c).program with
    | nil =>
      rw [hprog] at hstep
      cases hstep
      exact ⟨rfl, rfl, rfl, rfl, h⟩
    | cons a rest =>
      rw [hprog] at hstep hexpire
      obtain ⟨p', hafter, rfl⟩ := Option.map_eq_some_iff.1 hstep
      have hawaits : s.history.stage = .waiting → AwaitsReturn s.pool.toFields (a :: rest) :=
        fun hst => hprog ▸ (hin.waits hst).awaits
      cases a with
      | wait =>
        simp only [Pool.after] at hafter
        split at hafter
        · cases hafter
        · rename_i hdone
          cases hafter
          refine ⟨rfl, rfl, rfl, rfl, .inl ?_⟩
          by_contra hstage
          exact hdone (hinv.pool.allDone hstage)
      | writeGroups | restoreGroups | writeQueueBase | writeNumGroups | setRemaining | reinitDone =>
        -- these clear the record, and do not come while the coordinator waits
        cases hafter
        exact absurd rfl (h.resolve_left hawaits)
      | _ =>
        cases hafter
        exact ⟨rfl, rfl, rfl, rfl, h⟩
  | inline i numGroups =>
    rw [hphase] at hstep hfacts
    dsimp only at hstep
    split at hstep
    · cases hstep
      exact absurd rfl (h.resolve_left hfacts.2)
    · cases hstep
      exact ⟨rfl, rfl, rfl, rfl, h⟩
  | inlineService i numGroups =>
    rw [hphase] at hstep
    cases hstep
    exact ⟨rfl, rfl, rfl, rfl, h⟩

theorem Inv.slot_eq {w : Fin numWorkers} (hitem : (s.workers w).pc.hasItem = true) :
    (s.workers w).slot = s.pool.queueBase + (s.workers w).idx := by
  obtain ⟨-, hb, -⟩ := hinv.waiting_of_hasItem hitem
  rw [Worker.slot, ((hb.sharing.placed w).loop (WorkerPc.inLoop_of_hasItem hitem)).qBase]

theorem Inv.idx_lt {w : Fin numWorkers} (hitem : (s.workers w).pc.hasItem = true) :
    (s.workers w).idx < s.pool.batchNumGroups := by
  obtain ⟨-, hb, -⟩ := hinv.waiting_of_hasItem hitem
  have hmine := (hb.sharing.placed w).idx_mem_hand hitem
  exact Finset.mem_range.1 (hb.sharing.shared.hand_mem w _ hmine).1

theorem Inv.worker_holds {w : Fin numWorkers} {merge : Bool} {slot : Nat}
    (h : s.pool.Holds slot) : (workerStep s w merge).pool.Holds slot := by
  have hfields := toFields_workerAccess s.params merge s.pool (s.workers w)
  unfold Pool.Holds workerStep at *
  dsimp only
  rw [hfields]
  by_cases htake : (s.workers w).pc = .takeItem
  · simp only [workerAccess, htake]
    rcases eq_or_ne slot (s.workers w).slot with rfl | hne
    -- what the worker fills in is the group of the item
    · rw [update_self, hinv.slot_eq (by rw [htake]; rfl), Nat.add_sub_cancel_left]
    · rw [update_of_ne hne]
      exact h
  · rw [(workerAccess_queue htake).1]
    exact h

/-- A dispatch that is waited for or awaited stands as it is. -/
theorem Inv.stands {label : Label numCoords numWorkers} (hcare : Careful s label)
    (hstep : step s label = some t)
    (h : s.history.stage = .waiting ∨ t.pool.awaited ≠ none) :
    t.pool.batchGroups = s.pool.batchGroups ∧ t.pool.queueBase = s.pool.queueBase ∧
      t.pool.batchNumGroups = s.pool.batchNumGroups ∧
      (∀ slot, s.pool.Holds slot → t.pool.Holds slot) ∧
      (s.history.stage = .waiting ∨ s.pool.awaited ≠ none) := by
  rcases step_cases hstep with ⟨hpool, -, -⟩ | ⟨c, rfl⟩ | ⟨w, merge, rfl⟩
  · rw [hpool] at h ⊢
    exact ⟨rfl, rfl, rfl, fun _ => id, h⟩
  · obtain ⟨hgroups, hbase, hcount, hqueue, h'⟩ := hinv.coord_stands hcare.1 hstep h
    refine ⟨hgroups, hbase, hcount, fun slot hslot => ?_, h'⟩
    unfold Pool.Holds at *
    rw [hgroups, hbase, hqueue]
    exact hslot
  · cases hstep
    -- workers write entries and counters only
    have hfields := toFields_workerAccess s.params merge s.pool (s.workers w)
    refine ⟨congrArg Fields.batchGroups hfields, congrArg (fun f => f.queueBase) hfields,
      congrArg (fun f => f.batchNumGroups) hfields, fun slot hslot => hinv.worker_holds hslot, ?_⟩
    rw [← congrArg Fields.awaited hfields]
    exact h

/-- The entries go on holding the groups of their items. -/
theorem Inv.kept_holds {label : Label numCoords numWorkers} (hcare : Careful s label)
    (hstep : step s label = some t) (h : Kept s s.pool.Holds) : Kept t t.pool.Holds := by
  refine h.step (fun hor => (hinv.stands hcare hstep hor).2.2.2.1) hinv hcare hstep ?_
  rintro w merge rfl hpc
  cases hstep
  obtain ⟨-, hb, -⟩ := hinv.waiting_of_hasItem (w := w) (by rw [hpc]; rfl)
  have hserv := hb.services w hpc
  apply hinv.worker_holds
  rw [Pool.Holds, hserv.slot, hserv.group, hinv.slot_eq (by rw [hpc]; rfl),
    Nat.add_sub_cancel_left]

/-- What the coordinator is about to collect was awaited. -/
theorem Inv.awaited_of_collect (hphase : (s.coords c).phase = .inside) {items : Nat}
    {rest : List Access} (hprog : (s.coords c).program = .collect items :: rest) :
    s.pool.awaited = some items := by
  obtain ⟨_, _, _, hplan⟩ := (hinv.inside hphase).plan
  rw [hprog] at hplan
  exact hplan.2.1 items rfl

/-- So it finds its own groups, all of them finished. -/
theorem Inv.collects (hkept : Kept s s.pool.Holds) (hphase : (s.coords c).phase = .inside)
    {items : Nat} {rest : List Access} (hprog : (s.coords c).program = .collect items :: rest)
    {i : Nat} (hi : i < items) :
    i ∈ s.history.finished ∧ i < s.pool.batchNumGroups ∧
      s.pool.queue (s.pool.queueBase + i) = ((s.coords c).tag c, (s.coords c).start + i) := by
  obtain ⟨-, hcount, hall⟩ := hkept.awaited items (hinv.awaited_of_collect hphase hprog)
  obtain ⟨hfinished, hholds⟩ := hall i hi
  refine ⟨hfinished, hcount ▸ hi, ?_⟩
  rw [hholds, Nat.add_sub_cancel_left, (hinv.inside hphase).groups]

end

theorem kept_init {P : Nat → Prop} : Kept ({} : State numCoords numWorkers) P :=
  kept_of_cleared (by simp) rfl

end Entries

end FaultMesh.Modes
