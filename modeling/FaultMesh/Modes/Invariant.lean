import FaultMesh.Modes.Sharing

/-!
# Careful runs of the pool

What holds in all modes as long as parties are careful: batches come one at a time, no wait expires,
the parameters that workers read are only written between batches, a coordinator only changes what
workers read on their way into a loop when no worker is on its way, and while a dispatch is set up no
worker takes one of its numbers. The code ensures none of this by itself.

The pool is calm while a dispatch is set up; then the dispatch is shared out, until its wait has
returned and the next write of a field that workers read.
-/

namespace FaultMesh.Modes

open Function

/-! ## Accesses of workers -/

section Frames

variable {ps : ModeParams} {merge : Bool} {p : Pool} {wk : Worker}

theorem next_pc_cases (wk : Worker) :
    wk.next.pc = .addCursor ∨ wk.next.pc = .takeItem ∨ wk.next.pc = .outside := by
  unfold Worker.next Worker.loopFrom
  split_ifs <;> simp

theorem workerAccess_signals (hdec : wk.pc ≠ .decRemaining) (hcomplete : wk.pc ≠ .complete) :
    (workerAccess ps merge p wk).1.itemsRemaining = p.itemsRemaining ∧
      (workerAccess ps merge p wk).1.allDone = p.allDone ∧
        (workerAccess ps merge p wk).2.pc ≠ .complete := by
  cases hpc : wk.pc with
  | decRemaining => exact absurd hpc hdec
  | complete => exact absurd hpc hcomplete
  | _ =>
    simp only [workerAccess, hpc, Worker.enter, Worker.loopFrom]
    repeat' split
    all_goals simp

theorem workerAccess_queue (htake : wk.pc ≠ .takeItem) :
    (workerAccess ps merge p wk).1.queue = p.queue ∧
      (workerAccess ps merge p wk).2.pc ≠ .service := by
  have hnext : wk.next.pc ≠ .service := by
    rcases next_pc_cases wk with h | h | h <;> rw [h] <;> exact nofun
  cases hpc : wk.pc with
  | takeItem => exact absurd hpc htake
  | _ =>
    simp only [workerAccess, hpc, Worker.enter, Worker.loopFrom]
    repeat' split
    all_goals simp [hnext]

end Frames

theorem stage_afterWorker (h : History) (wk : Worker) : (h.afterWorker wk).stage = h.stage := by
  unfold History.afterWorker
  split <;> rfl

theorem returned_afterWorker (h : History) (wk : Worker) :
    (h.afterWorker wk).returned = h.returned := by
  unfold History.afterWorker
  split <;> rfl

theorem scheme_afterWorker (h : History) (wk : Worker) : (h.afterWorker wk).scheme = h.scheme := by
  unfold History.afterWorker
  split <;> rfl

/-! ## The pool between and during dispatches -/

section PoolSide

variable {k : Nat} (ps : ModeParams) (p : Pool) (workers : Fin k → Worker) (h : History)

/-- The count of items and the completion tell how many items are finished. -/
structure Signals : Prop where
  remaining : p.itemsRemaining = (p.batchNumGroups : Int) - h.finished.length
  complete : ∀ w, (workers w).pc = .complete →
    h.finished.length = p.batchNumGroups ∧ p.allDone = 0
  unique : ∀ w w', (workers w).pc = .complete → (workers w').pc = .complete → w = w'
  signalled : p.allDone ≠ 0 →
    p.allDone = 1 ∧ h.finished.length = p.batchNumGroups ∧ ∀ w, (workers w).pc ≠ .complete

/-- What a worker services is what the coordinator asked for. -/
structure Services (wk : Worker) : Prop where
  group : wk.group = (p.batchGroups.1, p.batchGroups.2 + wk.idx)
  slot : p.queue wk.slot = wk.group
  pushes : wk.scheme = .strides → ∀ push ∈ wk.pushes, push = (.map, p.mergeActive)

/-- What was reset for the next dispatch is still so. -/
structure Fresh : Prop where
  counter : p.counterReset = true → p.batchWorkerCounter = 0 ∧ 0 < p.batchNumActive
  cursor : p.cursorReset = true → p.workCursor = 0
  remaining : ∀ n, p.remainingSet = some n →
    p.itemsRemaining = n ∧ h.serviced = [] ∧ h.finished = []

/-- While a dispatch is set up. -/
structure CalmPool : Prop where
  workers : ∀ w, Calm p.toLayout ps (workers w)
  allDone : p.allDone = 0
  nodup : h.serviced.Nodup
  fresh : Fresh p h

/-- From the start of a dispatch to the next change of a field. -/
structure BusyPool : Prop where
  sharing : Sharing p.toLayout ps p.batchWorkerCounter p.workCursor workers h.serviced h.finished
  signals : Signals p workers h
  counterReset : p.counterReset = false
  cursorReset : p.cursorReset = false
  remainingSet : p.remainingSet = none
  scheme : h.scheme = p.scheme ps
  services : ∀ w, (workers w).pc = .service → Services p (workers w)
  returned : h.stage = .returned → h.finished.length = p.batchNumGroups ∧ p.allDone = 0 ∧
    ∀ w, (workers w).pc ≠ .complete

structure PoolFacts : Prop where
  calm : h.stage = .calm → CalmPool ps p workers h
  busy : h.stage ≠ .calm → BusyPool ps p workers h

end PoolSide

/-! ## A worker moves -/

section WorkerMoves

variable {k : Nat} {ps : ModeParams} {p : Pool} {workers : Fin k → Worker} {h : History}
  {w : Fin k} {merge : Bool}

theorem finished_afterWorker {wk : Worker} (hpc : wk.pc ≠ .decRemaining) :
    (h.afterWorker wk).finished = h.finished := by
  unfold History.afterWorker
  split <;> first | rfl | exact absurd ‹_› hpc

theorem update_pc_ne {pc : WorkerPc} {wk' : Worker} (hwk : wk'.pc ≠ pc)
    (hothers : ∀ w', w' ≠ w → (workers w').pc ≠ pc) (w' : Fin k) :
    (update workers w wk' w').pc ≠ pc := by
  rcases eq_or_ne w' w with rfl | hne
  · rwa [update_self]
  · rw [update_of_ne hne]
    exact hothers w' hne

theorem next_pc_ne_complete (wk : Worker) : wk.next.pc ≠ .complete := by
  rcases next_pc_cases wk with hpc | hpc | hpc <;> rw [hpc] <;> exact nofun

section

variable (hsig : Signals p workers h)
  (hs : Sharing p.toLayout ps p.batchWorkerCounter p.workCursor workers h.serviced h.finished)
include hsig hs

theorem Signals.pending (hitem : (workers w).pc.hasItem = true) :
    h.finished.length < p.batchNumGroups ∧ p.allDone = 0 ∧ ∀ w', (workers w').pc ≠ .complete := by
  have hlt := hs.shared.length_lt ((hs.placed w).idx_mem_hand hitem)
  rw [Finset.card_range] at hlt
  refine ⟨hlt, ?_, fun w' hc => absurd (hsig.complete w' hc).1 (Nat.ne_of_lt hlt)⟩
  by_contra hne
  exact absurd (hsig.signalled hne).2.1 (Nat.ne_of_lt hlt)

theorem Signals.count (hdec : (workers w).pc = .decRemaining) :
    Signals (workerAccess ps merge p (workers w)).1
      (update workers w (workerAccess ps merge p (workers w)).2)
      { h with finished := (workers w).idx :: h.finished } := by
  obtain ⟨hlt, hzero, hnone⟩ := hsig.pending hs (by rw [hdec]; rfl)
  have hremaining : p.itemsRemaining - 1 =
      (p.batchNumGroups : Int) - ((workers w).idx :: h.finished).length := by
    rw [hsig.remaining, List.length_cons]
    omega
  simp only [Modes.workerAccess, hdec]
  split
  · rename_i hlast
    refine ⟨hremaining, fun w' _ => ⟨?_, hzero⟩, ?_, fun hne => absurd hzero hne⟩
    · show ((workers w).idx :: h.finished).length = p.batchNumGroups
      omega
    · have honly : ∀ w', (update workers w
          { workers w with pc := .complete } w').pc = .complete → w' = w := by
        intro w' hc
        by_contra hne
        rw [update_of_ne hne] at hc
        exact hnone w' hc
      intro w₁ w₂ h₁ h₂
      rw [honly w₁ h₁, honly w₂ h₂]
  · have hnone' := update_pc_ne (next_pc_ne_complete (workers w)) fun w' (_ : w' ≠ w) => hnone w'
    exact ⟨hremaining, fun w' hc => absurd hc (hnone' w'), fun w' _ hc => absurd hc (hnone' w'),
      fun hne => absurd hzero hne⟩

omit hs in
theorem Signals.signal (hcomplete : (workers w).pc = .complete) :
    Signals (workerAccess ps merge p (workers w)).1
      (update workers w (workerAccess ps merge p (workers w)).2) h := by
  obtain ⟨hall, hzero⟩ := hsig.complete w hcomplete
  have hnone' := update_pc_ne (next_pc_ne_complete (workers w))
    fun w' hne hc => hne (hsig.unique w' w hc hcomplete)
  simp only [Modes.workerAccess, hcomplete]
  exact ⟨hsig.remaining, fun w' hc => absurd hc (hnone' w'), fun w' _ hc => absurd hc (hnone' w'),
    fun _ => ⟨by rw [hzero], hall, hnone'⟩⟩

theorem Signals.workerAccess :
    Signals (workerAccess ps merge p (workers w)).1
      (update workers w (workerAccess ps merge p (workers w)).2) (h.afterWorker (workers w)) := by
  by_cases hdec : (workers w).pc = .decRemaining
  · have hafter : h.afterWorker (workers w) =
        { h with finished := (workers w).idx :: h.finished } := by
      simp only [History.afterWorker, hdec]
    rw [hafter]
    exact hsig.count hs hdec
  by_cases hcomplete : (workers w).pc = .complete
  · have hafter : h.afterWorker (workers w) = h := by
      simp only [History.afterWorker, hcomplete]
    rw [hafter]
    exact hsig.signal hcomplete
  · obtain ⟨hrem, hdone, hpc'⟩ := @workerAccess_signals ps merge p _ hdec hcomplete
    have hgroups : (Modes.workerAccess ps merge p (workers w)).1.batchNumGroups =
        p.batchNumGroups :=
      congrArg (fun f : Fields => f.batchNumGroups) (toFields_workerAccess ps merge p (workers w))
    have hfin := @finished_afterWorker h _ hdec
    -- nobody comes to the completion
    have hback : ∀ w', (update workers w
        (Modes.workerAccess ps merge p (workers w)).2 w').pc = .complete →
          (workers w').pc = .complete := by
      intro w' hc
      rcases eq_or_ne w' w with rfl | hne
      · rw [update_self] at hc
        exact absurd hc hpc'
      · rwa [update_of_ne hne] at hc
    refine ⟨?_, fun w' hc => ?_, fun w₁ w₂ h₁ h₂ => hsig.unique w₁ w₂ (hback w₁ h₁) (hback w₂ h₂),
      fun hne => ?_⟩
    · rw [hrem, hgroups, hfin, hsig.remaining]
    · rw [hgroups, hfin, hdone]
      exact hsig.complete w' (hback w' hc)
    · rw [hdone] at hne ⊢
      obtain ⟨hone, hall, hnone⟩ := hsig.signalled hne
      rw [hgroups, hfin]
      exact ⟨hone, hall, fun w' hc => hnone w' (hback w' hc)⟩

end

theorem pushesFor_strides {f : Fields} {wk : Worker} (hscheme : wk.scheme = .strides)
    {push : PushKind × Nat} (hpush : push ∈ wk.pushesFor f merge) : push = (.map, f.mergeActive) := by
  simp only [Worker.pushesFor, hscheme] at hpush
  split_ifs at hpush <;> simp_all

theorem services_workerAccess
    (hs : Sharing p.toLayout ps p.batchWorkerCounter p.workCursor workers h.serviced h.finished)
    (hserv : ∀ w, (workers w).pc = .service → Services p (workers w)) (w' : Fin k)
    (hpc : (update workers w (workerAccess ps merge p (workers w)).2 w').pc = .service) :
    Services (workerAccess ps merge p (workers w)).1
      (update workers w (workerAccess ps merge p (workers w)).2 w') := by
  have hfields := toFields_workerAccess ps merge p (workers w)
  have hgroups : (workerAccess ps merge p (workers w)).1.batchGroups = p.batchGroups :=
    congrArg Fields.batchGroups hfields
  have hactive : (workerAccess ps merge p (workers w)).1.mergeActive = p.mergeActive :=
    congrArg Fields.mergeActive hfields
  by_cases htake : (workers w).pc = .takeItem
  · rcases eq_or_ne w' w with rfl | hne
    -- it has just filled the entry in
    · rw [update_self]
      simp only [workerAccess, htake]
      refine ⟨rfl, ?_, fun hscheme push hpush => pushesFor_strides hscheme hpush⟩
      exact update_self ..
    · rw [update_of_ne hne] at hpc ⊢
      obtain ⟨hgroup, hslot, hpushes⟩ := hserv w' hpc
      refine ⟨by rw [hgroups]; exact hgroup, ?_, by rw [hactive]; exact hpushes⟩
      have hmine := (hs.placed w').idx_mem_hand (by rw [hpc]; rfl)
      have htaken := (hs.placed w).idx_mem_hand (by rw [htake]; rfl)
      have hbase := ((hs.placed w').loop (by rw [hpc]; rfl)).qBase
      have hbase' := ((hs.placed w).loop (by rw [htake]; rfl)).qBase
      have hother : (workers w').slot ≠ (workers w).slot := by
        intro heq
        rw [Worker.slot, Worker.slot, hbase, hbase'] at heq
        rw [Nat.add_left_cancel heq] at hmine
        exact hne (hs.shared.hand_inj _ w' w hmine htaken)
      simp only [workerAccess, htake]
      rw [update_of_ne hother]
      exact hslot
  · obtain ⟨hqueue, hnot⟩ := @workerAccess_queue ps merge p _ htake
    rcases eq_or_ne w' w with rfl | hne
    · rw [update_self] at hpc
      exact absurd hpc hnot
    · rw [update_of_ne hne] at hpc ⊢
      obtain ⟨hgroup, hslot, hpushes⟩ := hserv w' hpc
      exact ⟨by rw [hgroups]; exact hgroup, by rw [hqueue]; exact hslot,
        by rw [hactive]; exact hpushes⟩

theorem BusyPool.workerAccess (hb : BusyPool ps p workers h) :
    BusyPool ps (workerAccess ps merge p (workers w)).1
      (update workers w (workerAccess ps merge p (workers w)).2) (h.afterWorker (workers w)) := by
  have hfields := toFields_workerAccess ps merge p (workers w)
  have hlayout : (Modes.workerAccess ps merge p (workers w)).1.toLayout = p.toLayout :=
    congrArg Fields.toLayout hfields
  refine ⟨?_, hb.signals.workerAccess hb.sharing, hfields ▸ hb.counterReset,
    hfields ▸ hb.cursorReset, hfields ▸ hb.remainingSet, ?_, ?_, ?_⟩
  · rw [hlayout]
    exact hb.sharing.workerAccess merge
  · rw [hlayout, scheme_afterWorker]
    exact hb.scheme
  · exact services_workerAccess hb.sharing hb.services
  -- once all items are finished, no worker comes to an item again
  · intro hstage
    rw [stage_afterWorker] at hstage
    obtain ⟨hall, hzero, hnone⟩ := hb.returned hstage
    have hdec : (workers w).pc ≠ .decRemaining := by
      intro hpc
      have hitem := hb.sharing.hasItem_eq_false hall w
      rw [hpc] at hitem
      cases hitem
    obtain ⟨-, hdone, hpc'⟩ := @workerAccess_signals ps merge p _ hdec (hnone w)
    refine ⟨?_, hdone.trans hzero, update_pc_ne hpc' fun w' _ => hnone w'⟩
    rw [finished_afterWorker hdec, hlayout]
    exact hall

theorem afterWorker_of_calm {v : Layout} {wk : Worker} (hwk : Calm v ps wk) :
    h.afterWorker wk = h := by
  unfold History.afterWorker
  split <;> try rfl
  all_goals
    rename_i hpc
    have hin := (hwk.away (by rw [hpc]; exact nofun)).1
    rw [hpc] at hin
    cases hin

theorem CalmPool.workerAccess (hc : CalmPool ps p workers h)
    (hclaim : (workers w).pc = .outside → p.batchNumActive ≤ p.batchWorkerCounter) :
    CalmPool ps (workerAccess ps merge p (workers w)).1
      (update workers w (workerAccess ps merge p (workers w)).2) (h.afterWorker (workers w)) := by
  obtain ⟨hcalm, hsame⟩ := (hc.workers w).workerAccess hclaim merge
  have hlayout : (Modes.workerAccess ps merge p (workers w)).1.toLayout = p.toLayout :=
    congrArg Fields.toLayout (toFields_workerAccess ps merge p (workers w))
  rw [afterWorker_of_calm (hc.workers w)]
  refine ⟨fun w' => ?_, ?_, hc.nodup, ?_⟩
  · rw [hlayout]
    rcases eq_or_ne w' w with rfl | hne
    · rwa [update_self]
    · rw [update_of_ne hne]
      exact hc.workers w'
  · by_cases hout : (workers w).pc = .outside
    · simp only [Modes.workerAccess, hout]
      exact hc.allDone
    · rw [hsame hout]
      exact hc.allDone
  · by_cases hout : (workers w).pc = .outside
    -- the counter is not at zero when such a number is taken
    · simp only [Modes.workerAccess, hout]
      refine ⟨fun hreset => ?_, hc.fresh.cursor, hc.fresh.remaining⟩
      have hzero := hc.fresh.counter hreset
      have hle := hclaim hout
      omega
    · rw [hsame hout]
      exact hc.fresh

theorem PoolFacts.workerAccess (hp : PoolFacts ps p workers h)
    (hclaim : (workers w).pc = .outside → h.stage = .calm →
      p.batchNumActive ≤ p.batchWorkerCounter) :
    PoolFacts ps (workerAccess ps merge p (workers w)).1
      (update workers w (workerAccess ps merge p (workers w)).2) (h.afterWorker (workers w)) := by
  constructor
  · intro hstage
    rw [stage_afterWorker] at hstage
    exact (hp.calm hstage).workerAccess fun hout => hclaim hout hstage
  · intro hstage
    rw [stage_afterWorker] at hstage
    exact (hp.busy hstage).workerAccess

end WorkerMoves

/-! ## A coordinator moves -/

section CoordMoves

variable {k : Nat} {ps : ModeParams} {p p' : Pool} {workers : Fin k → Worker} {h : History}
  {ag : BatchTag × Nat} {a : Access}

/-- The worker may still read fields, or go for an item. -/
def WorkerPc.reading (pc : WorkerPc) : Bool := pc.inWindow || pc == .addCursor

theorem WorkerPc.without_item {pc : WorkerPc} (hin : pc.inWindow = true) :
    pc.hasItem = false ∧ pc ≠ .complete := by
  cases pc <;> simp [WorkerPc.inWindow, WorkerPc.hasItem] at hin ⊢

theorem WorkerPc.eq_outside {pc : WorkerPc} (hread : pc.reading = false)
    (hitem : pc.hasItem = false) (hcomplete : pc ≠ .complete) : pc = .outside := by
  cases pc <;>
    simp [WorkerPc.reading, WorkerPc.inWindow, WorkerPc.hasItem] at hread hitem hcomplete ⊢

theorem toFields_after (hp : p.after ag a = some p') : p'.toFields = p.toFields.after ag a := by
  unfold Pool.after at hp
  split at hp
  case h_5 =>
    split at hp
    · cases hp
    · cases hp
      rfl
  all_goals
    cases hp
    rfl

section

variable (hp : PoolFacts ps p workers h)
include hp

theorem PoolFacts.pc_ne (hstage : h.stage ≠ .waiting) (w : Fin k) :
    (workers w).pc.hasItem = false ∧ (workers w).pc ≠ .complete := by
  cases hst : h.stage with
  | waiting => exact absurd hst hstage
  | calm =>
    have hwk := (hp.calm hst).workers w
    by_cases hout : (workers w).pc = .outside
    · rw [hout]
      exact ⟨rfl, nofun⟩
    · exact WorkerPc.without_item (hwk.away hout).1
  | returned =>
    have hb := hp.busy (by rw [hst]; exact nofun)
    obtain ⟨hall, -, hnone⟩ := hb.returned hst
    exact ⟨hb.sharing.hasItem_eq_false hall w, hnone w⟩

theorem PoolFacts.allDone (hstage : h.stage ≠ .waiting) : p.allDone = 0 := by
  cases hst : h.stage with
  | waiting => exact absurd hst hstage
  | calm => exact (hp.calm hst).allDone
  | returned => exact ((hp.busy (by rw [hst]; exact nofun)).returned hst).2.1

theorem PoolFacts.nodup : h.serviced.Nodup := by
  by_cases hst : h.stage = .calm
  · exact (hp.calm hst).nodup
  · exact (hp.busy hst).sharing.nodup

theorem PoolFacts.fresh : Fresh p h := by
  by_cases hst : h.stage = .calm
  · exact (hp.calm hst).fresh
  · have hb := hp.busy hst
    constructor
    · rw [hb.counterReset]
      exact nofun
    · rw [hb.cursorReset]
      exact nofun
    · rw [hb.remainingSet]
      exact nofun

theorem PoolFacts.outside (hstage : h.stage ≠ .waiting)
    (hreading : ∀ w, (workers w).pc.reading = false) (w : Fin k) : (workers w).pc = .outside := by
  obtain ⟨hitem, hcomplete⟩ := hp.pc_ne hstage w
  exact WorkerPc.eq_outside (hreading w) hitem hcomplete

end

/-- The pools differ only in what has no effect while nobody waits. -/
structure Agrees (p p' : Pool) : Prop where
  toLayout : p'.toLayout = p.toLayout
  counterReset : p'.counterReset = p.counterReset
  cursorReset : p'.cursorReset = p.cursorReset
  remainingSet : ∀ n, p'.remainingSet = some n → p.remainingSet = some n
  batchWorkerCounter : p'.batchWorkerCounter = p.batchWorkerCounter
  workCursor : p'.workCursor = p.workCursor
  itemsRemaining : p'.itemsRemaining = p.itemsRemaining
  allDone : p'.allDone = p.allDone

theorem Fresh.congr (hf : Fresh p h) (hag : Agrees p p') : Fresh p' h := by
  constructor
  · rw [hag.counterReset, hag.batchWorkerCounter, hag.toLayout]
    exact hf.counter
  · rw [hag.cursorReset, hag.workCursor]
    exact hf.cursor
  · intro n hn
    rw [hag.itemsRemaining]
    exact hf.remaining n (hag.remainingSet n hn)

theorem PoolFacts.congr (hp : PoolFacts ps p workers h) (hstage : h.stage ≠ .waiting)
    (hag : Agrees p p') : PoolFacts ps p' workers h := by
  constructor
  · intro hst
    have hc := hp.calm hst
    exact ⟨hag.toLayout ▸ hc.workers, hag.allDone.trans hc.allDone, hc.nodup,
      hc.fresh.congr hag⟩
  · intro hst
    have hb := hp.busy hst
    refine ⟨?_, ?_, hag.counterReset.trans hb.counterReset, hag.cursorReset.trans hb.cursorReset,
      ?_, hag.toLayout ▸ hb.scheme, ?_, ?_⟩
    · rw [hag.toLayout, hag.batchWorkerCounter, hag.workCursor]
      exact hb.sharing
    · have hsig := hb.signals
      refine ⟨?_, ?_, hsig.unique, ?_⟩
      · rw [hag.toLayout, hag.itemsRemaining]
        exact hsig.remaining
      · rw [hag.toLayout, hag.allDone]
        exact hsig.complete
      · rw [hag.toLayout, hag.allDone]
        exact hsig.signalled
    · apply Option.eq_none_iff_forall_ne_some.2
      intro n hn
      have hsome := hag.remainingSet n hn
      rw [hb.remainingSet] at hsome
      cases hsome
    · intro w hpc
      have hitem := (hp.pc_ne hstage w).1
      rw [hpc] at hitem
      cases hitem
    · rw [hag.toLayout, hag.allDone]
      exact hb.returned

theorem PoolFacts.disturb (hp : PoolFacts ps p workers h) (hstage : h.stage ≠ .waiting)
    (hreading : ∀ w, (workers w).pc.reading = false) (hdisturbs : disturbs a = true)
    (hafter : p.after ag a = some p') (f : Fields) (c : Nat) (co : Coord) :
    CalmPool ps p' workers (h.afterAccess f c co a) := by
  have hcalm : ∀ v : Layout, ∀ w, Calm v ps (workers w) :=
    fun v w => calm_of_outside (hp.outside hstage hreading w)
  have hdone := hp.allDone hstage
  have hnodup := hp.nodup
  have hfresh := hp.fresh
  cases a with
  | resetCursor =>
    cases hafter
    exact ⟨hcalm _, hdone, hnodup, hfresh.counter, fun _ => rfl, hfresh.remaining⟩
  | writeNumActive numActive =>
    cases hafter
    exact ⟨hcalm _, hdone, hnodup, nofun, hfresh.cursor, hfresh.remaining⟩
  | resetCounter =>
    cases hafter
    exact ⟨hcalm _, hdone, hnodup, fun hreset => ⟨rfl, of_decide_eq_true hreset⟩,
      hfresh.cursor, hfresh.remaining⟩
  | setRemaining items =>
    cases hafter
    refine ⟨hcalm _, hdone, List.nodup_nil, hfresh.counter, hfresh.cursor, fun n hn => ?_⟩
    cases hn
    exact ⟨rfl, rfl, rfl⟩
  | clearDynamic | clearSegParallel | writeSegs | writeWorkers | writeQueueBase | setDynamic
  | setSegParallel | writeNumGroups | unsetDynamic | unsetSegParallel =>
    cases hafter
    exact ⟨hcalm _, hdone, hnodup, hfresh.counter, hfresh.cursor, hfresh.remaining⟩
  | _ => cases hdisturbs

/-- The two parameters that workers read. -/
def SameMode (ps ps' : ModeParams) : Prop :=
  ps'.dynamicDispatch = ps.dynamicDispatch ∧ ps'.groupSegParallel = ps.groupSegParallel

instance (ps ps' : ModeParams) : Decidable (SameMode ps ps') := inferInstanceAs (Decidable (_ ∧ _))

theorem SameMode.scheme_eq {ps' : ModeParams} (hmode : SameMode ps ps') (v : Layout) :
    v.scheme ps' = v.scheme ps := by
  rw [Layout.scheme, hmode.1, hmode.2, Layout.scheme]

theorem PoolFacts.start {chosen : ModeParams} (hp : PoolFacts ps p workers h)
    (hstart : p.toFields.Startable chosen) (hmode : SameMode ps chosen) (ag : BatchTag × Nat) :
    BusyPool ps { p with toFields := p.toFields.after ag .reinitDone, allDone := 0 } workers
      { h with stage := .waiting, scheme := p.scheme chosen } := by
  -- after a wait the counter has to be reset first
  have hcalm : h.stage = .calm := by
    by_contra hst
    have hreset := hstart.counter
    rw [(hp.busy hst).counterReset] at hreset
    cases hreset
  have hc := hp.calm hcalm
  obtain ⟨hcounter, -⟩ := hc.fresh.counter hstart.counter
  obtain ⟨hremaining, hserviced, hfinished⟩ := hc.fresh.remaining _ hstart.remaining
  have hscheme := hmode.scheme_eq p.toLayout
  have hlanes : p.lanes ps = p.lanes chosen := by rw [Layout.lanes, Layout.lanes, hscheme]
  have hpc : ∀ w, (workers w).pc.hasItem = false ∧ (workers w).pc ≠ .complete :=
    hp.pc_ne (by simp [hcalm])
  refine ⟨?_, ⟨?_, ?_, ?_, by simp⟩, rfl, rfl, rfl, hscheme, ?_, by simp⟩
  · show Sharing p.toLayout ps p.batchWorkerCounter p.workCursor workers h.serviced h.finished
    rw [hcounter, hserviced, hfinished]
    apply Sharing.start
    · refine ⟨hstart.groups_pos, ?_⟩
      rw [hlanes]
      exact hstart.shares
    · intro hnone
      exact hc.fresh.cursor (hstart.cursor (hlanes ▸ hnone))
    · exact hc.workers
  · show p.itemsRemaining = (p.batchNumGroups : Int) - h.finished.length
    rw [hremaining, hfinished]
    simp
  · exact fun w hcomplete => absurd hcomplete (hpc w).2
  · exact fun w _ hcomplete => absurd hcomplete (hpc w).2
  · intro w hservice
    have hitem := (hpc w).1
    rw [hservice] at hitem
    cases hitem

theorem BusyPool.wait (hb : BusyPool ps p workers h) (hdone : p.allDone ≠ 0)
    (ag : BatchTag × Nat) (log : List Dispatch) :
    BusyPool ps
      { p with toFields := p.toFields.after ag .wait, allDone := p.allDone - 1 } workers
      { h with stage := .returned, returned := log } := by
  obtain ⟨hone, hall, hnone⟩ := hb.signals.signalled hdone
  refine ⟨hb.sharing, ⟨hb.signals.remaining, ?_, ?_, ?_⟩, hb.counterReset, hb.cursorReset,
    hb.remainingSet, hb.scheme, ?_, ?_⟩
  · exact fun w hcomplete => absurd hcomplete (hnone w)
  · exact fun w _ hcomplete => absurd hcomplete (hnone w)
  · intro hne
    exact absurd (by rw [hone]) hne
  · intro w hpc
    obtain ⟨hgroup, hslot, hpushes⟩ := hb.services w hpc
    exact ⟨hgroup, hslot, hpushes⟩
  · intro _
    exact ⟨hall, by rw [hone], hnone⟩

end CoordMoves

/-! ## Along the plan of a coordinator -/

theorem AwaitsReturn.congr {f g : Fields} {as : List Access} (h : AwaitsReturn f as)
    (hdynamic : g.dynamicActive = f.dynamicActive)
    (hsegParallel : g.segParallelActive = f.segParallelActive)
    (hactive : g.mergeActive = f.mergeActive) : AwaitsReturn g as := by
  induction as with
  | nil => exact h
  | cons a as ih =>
    cases a with
    | pushBegin => exact ⟨hdynamic.trans h.1, ih h.2⟩
    | pushEnd =>
      refine ⟨?_, ih h.2⟩
      rw [hdynamic, hsegParallel, hactive]
      exact h.1
    | _ => exact h

structure Waits (f : Fields) (co : Coord) : Prop where
  awaits : AwaitsReturn f co.program
  items : co.items = f.batchNumGroups
  ahead : f.dispatchedTo ≤ f.batchGroups.2

/-- A coordinator is inside the call: the rest of its plan sets its dispatches up as they should be,
and the dispatches it has done lie below the one it is at. -/
structure Inside (ps : ModeParams) (f : Fields) (stage : Stage) (log : List Dispatch)
    (tag : BatchTag) (co : Coord) : Prop where
  allGroups : co.allGroups = (tag, 0)
  plan : ∃ numGroups queueBase fallsBack,
    EachStart (tag, 0) (SetUpRight co.params tag numGroups queueBase fallsBack) Fields.Plain f
      co.program
  groups : f.batchGroups = (tag, co.start)
  items : ∀ n, f.remainingSet = some n → co.items = n
  mode : SameMode ps co.params
  past : ∀ d ∈ log, d.tag = tag → d.start + d.items ≤ f.dispatchedTo
  waits : stage = .waiting → Waits f co

section Plans

variable {k : Nat} {ps : ModeParams} {p p' : Pool} {workers : Fin k → Worker} {h : History}
  {f : Fields} {tag : BatchTag} {a : Access} {co : Coord} {rest : List Access} {stage : Stage}
  {log : List Dispatch}

section

variable (co : Coord) (rest : List Access) (a : Access)

@[simp] theorem Coord.after_program : (co.after rest a).program = rest := by cases a <;> rfl

@[simp] theorem Coord.after_allGroups :
    (co.after rest a).allGroups = co.allGroups := by cases a <;> rfl

@[simp] theorem Coord.after_params : (co.after rest a).params = co.params := by cases a <;> rfl

@[simp] theorem Coord.after_serial : (co.after rest a).serial = co.serial := by cases a <;> rfl

@[simp] theorem Coord.after_phase : (co.after rest a).phase = co.phase := by cases a <;> rfl

end

theorem Inside.after {stage' : Stage} {log' : List Dispatch}
    (hin : Inside ps f stage log tag co) (hprog : co.program = a :: rest)
    (hpast : ∀ d ∈ log', d.tag = tag → d.start + d.items ≤ (f.after (tag, 0) a).dispatchedTo)
    (hwaits : stage' = .waiting → Waits (f.after (tag, 0) a) (co.after rest a)) :
    Inside ps (f.after (tag, 0) a) stage' log' tag (co.after rest a) := by
  obtain ⟨numGroups, queueBase, fallsBack, hplan⟩ := hin.plan
  rw [hprog] at hplan
  refine ⟨?_, ⟨numGroups, queueBase, fallsBack, ?_⟩, ?_, ?_, ?_, hpast, hwaits⟩
  · rw [Coord.after_allGroups]
    exact hin.allGroups
  · rw [Coord.after_program, Coord.after_params]
    exact hplan.2.2
  · cases a with
    | writeGroups start => exact congrArg (Prod.mk tag) (Nat.zero_add start)
    | restoreGroups => rfl
    | _ => exact hin.groups
  · cases a with
    | setRemaining items =>
      intro n hn
      exact Option.some.inj hn
    | reinitDone => exact nofun
    | _ => exact hin.items
  · rw [Coord.after_params]
    exact hin.mode

theorem stage_afterAccess (hdisturbs : disturbs a = true) (c : Nat) :
    (h.afterAccess f c co a).stage = .calm := by
  cases a <;> first | rfl | cases hdisturbs

theorem returned_afterAccess (c : Nat) :
    (h.afterAccess f c co a).returned = h.returned ∨
      (h.afterAccess f c co a).returned = ⟨⟨c, co.serial⟩, co.start, co.items⟩ :: h.returned := by
  cases a <;> first | exact .inl rfl | exact .inr rfl

theorem log_of_disturbs (hdisturbs : disturbs a = true) (c : Nat) :
    (h.afterAccess f c co a).returned = h.returned ∧
      (f.after (tag, 0) a).dispatchedTo = f.dispatchedTo := by
  cases a <;> first | exact ⟨rfl, rfl⟩ | cases hdisturbs

section

variable {c : Nat} (hp : PoolFacts ps p workers h)
  (hin : Inside ps p.toFields h.stage h.returned ⟨c, co.serial⟩ co) (hprog : co.program = a :: rest)
  (hafter : p.after (⟨c, co.serial⟩, 0) a = some p')
include hp hin hprog hafter

theorem access_waiting
    (hstage : h.stage = .waiting) (hexpire : a ≠ .expire) :
    PoolFacts ps p' workers (h.afterAccess p.toFields c co a) ∧
      Inside ps p'.toFields (h.afterAccess p.toFields c co a).stage
        (h.afterAccess p.toFields c co a).returned ⟨c, co.serial⟩ (co.after rest a) := by
  have hw := hin.waits hstage
  have hawaits := hw.awaits
  rw [hprog] at hawaits
  cases a with
  | pushBegin =>
    cases hafter
    exact ⟨hp, hin.after hprog hin.past fun _ => ⟨hawaits.2, hw.items, hw.ahead⟩⟩
  | pushEnd =>
    cases hafter
    exact ⟨hp, hin.after hprog hin.past fun _ => ⟨hawaits.2, hw.items, hw.ahead⟩⟩
  | wait =>
    simp only [Pool.after] at hafter
    split at hafter
    · cases hafter
    · rename_i hdone
      cases hafter
      have hb := (hp.busy (by rw [hstage]; exact nofun)).wait hdone (⟨c, co.serial⟩, 0)
        (⟨⟨c, co.serial⟩, co.start, co.items⟩ :: h.returned)
      refine ⟨⟨nofun, fun _ => hb⟩, hin.after hprog ?_ nofun⟩
      -- the new entry ends where the groups have been dispatched to, the old ones before
      intro d hd htag
      have hto : ((p.toFields.after (⟨c, co.serial⟩, 0) .wait).dispatchedTo) =
          co.start + co.items := by
        show p.batchGroups.2 + p.batchNumGroups = _
        rw [hin.groups, hw.items]
      rw [hto]
      rcases List.mem_cons.1 hd with rfl | hold
      · exact Nat.le_refl _
      · have hbelow := hin.past d hold htag
        have hahead := hw.ahead
        rw [hin.groups] at hahead
        dsimp only at hahead
        omega
  | expire => exact absurd rfl hexpire
  | _ => cases hawaits

theorem access_inside
    (hexpire : a ≠ .expire) (hreading : disturbs a = true → ∀ w, (workers w).pc.reading = false) :
    PoolFacts ps p' workers (h.afterAccess p.toFields c co a) ∧
      Inside ps p'.toFields (h.afterAccess p.toFields c co a).stage
        (h.afterAccess p.toFields c co a).returned ⟨c, co.serial⟩ (co.after rest a) := by
  by_cases hstage : h.stage = .waiting
  · exact access_waiting hp hin hprog hafter hstage hexpire
  have hfields := toFields_after hafter
  cases hdisturbs : disturbs a with
  -- the pool is at rest, so nobody reads what is written
  | true =>
    have hcalm := hp.disturb hstage (hreading hdisturbs) hdisturbs hafter p.toFields c co
    have hstage' := @stage_afterAccess h p.toFields a co hdisturbs c
    obtain ⟨hlog, hto⟩ := @log_of_disturbs h p.toFields ⟨c, co.serial⟩ a co hdisturbs c
    refine ⟨⟨fun _ => hcalm, fun hne => absurd hstage' hne⟩, ?_⟩
    rw [hfields, hstage', hlog]
    apply hin.after hprog
    · rw [hto]
      exact hin.past
    · exact nofun
  | false =>
    cases a with
    -- the workers are let loose
    | reinitDone =>
      cases hafter
      obtain ⟨numGroups, queueBase, fallsBack, hplan⟩ := hin.plan
      rw [hprog] at hplan
      have hsetUp := hplan.1 rfl
      have hb := hp.start hsetUp.startable hin.mode (⟨c, co.serial⟩, 0)
      refine ⟨⟨nofun, fun _ => hb⟩, hin.after hprog hin.past fun _ => ?_⟩
      exact ⟨hsetUp.awaits.congr rfl rfl rfl, hin.items _ hsetUp.startable.remaining,
        hsetUp.startable.dispatched⟩
    | wait =>
      simp only [Pool.after, if_pos (hp.allDone hstage)] at hafter
      cases hafter
    | expire => exact absurd rfl hexpire
    -- fields that no worker reads
    | writeBlockSegs | pushBegin | pushEnd | pushEndUnlessClosed | resetCopyDone | writeGroups
    | writeMergeActive | setMerge | clearMerge | collect | unsetMerge | restoreGroups =>
      cases hafter
      exact ⟨hp.congr hstage ⟨rfl, rfl, rfl, fun _ => id, rfl, rfl, rfl, rfl⟩,
        hin.after hprog hin.past fun hst => absurd hst hstage⟩
    | _ => cases hdisturbs

end

end Plans

/-! ## Careful steps -/

section Steps

variable {numCoords numWorkers : Nat}

/-- The next access changes what workers read on their way into a loop. -/
def Coord.disturbs (co : Coord) : Bool :=
  match co.phase, co.program with
  | .writeCount _, _ => true
  | .inside, a :: _ => Modes.disturbs a
  | _, _ => false

def Coord.expires (co : Coord) : Bool :=
  match co.phase, co.program with
  | .inside, .expire :: _ => true
  | _, _ => false

def AllIdle (s : State numCoords numWorkers) : Prop := ∀ c, (s.coords c).phase = .idle

instance (s : State numCoords numWorkers) : Decidable (AllIdle s) :=
  inferInstanceAs (Decidable (∀ _, _))

/-- What the parties take care of. -/
def Careful (s : State numCoords numWorkers) : Label numCoords numWorkers → Prop
  | .setParams ps => AllIdle s ∨ SameMode s.params ps
  | .submit .. | .submitInline .. => AllIdle s
  | .call .. => True
  | .coord c => (s.coords c).expires = false ∧
      ((s.coords c).disturbs = true → ∀ w, (s.workers w).pc.reading = false)
  | .worker w _ => (s.workers w).pc = .outside → s.history.stage = .calm →
      s.pool.batchNumActive ≤ s.pool.batchWorkerCounter

instance (s : State numCoords numWorkers) : ∀ label, Decidable (Careful s label)
  | .setParams _ => inferInstanceAs (Decidable (_ ∨ _))
  | .submit .. | .submitInline .. => inferInstanceAs (Decidable (AllIdle s))
  | .call .. => isTrue trivial
  | .coord _ => inferInstanceAs (Decidable (_ ∧ (_ → _)))
  | .worker .. => inferInstanceAs (Decidable (_ → _ → _))

def CoordFacts (ps : ModeParams) (f : Fields) (stage : Stage) (log : List Dispatch)
    (tag : BatchTag) (co : Coord) : Prop :=
  match co.phase with
  | .idle => True
  | .writeGroups _ => f.Plain ∧ stage ≠ .waiting ∧ ∀ d ∈ log, d.tag ≠ tag
  | .writeCount _ | .call _ =>
    f.Called tag ∧ f.remainingSet = none ∧ stage ≠ .waiting ∧ ∀ d ∈ log, d.tag ≠ tag
  | .inside => Inside ps f stage log tag co
  | .inline .. | .inlineService .. => f.Plain ∧ stage ≠ .waiting

structure Inv (s : State numCoords numWorkers) : Prop where
  alone : ∀ c c', (s.coords c).phase ≠ .idle → (s.coords c').phase ≠ .idle → c = c'
  coords : ∀ c, CoordFacts s.params s.pool.toFields s.history.stage s.history.returned
    ((s.coords c).tag c) (s.coords c)
  plain : AllIdle s → s.pool.toFields.Plain
  waited : s.history.stage = .waiting → ∃ c, (s.coords c).phase = .inside
  logged : ∀ d ∈ s.history.returned, ∀ c : Fin numCoords, d.tag.coord = c →
    d.tag.serial ≤ (s.coords c).serial
  pool : PoolFacts s.params s.pool s.workers s.history

variable {s t : State numCoords numWorkers} {c : Fin numCoords}

theorem inv_init : Inv ({} : State numCoords numWorkers) where
  alone := fun _ _ hc => absurd rfl hc
  coords := fun _ => trivial
  plain := fun _ => ⟨rfl, rfl⟩
  waited := nofun
  logged := nofun
  pool := ⟨fun _ => ⟨fun _ => calm_of_outside rfl, rfl, List.nodup_nil, nofun, nofun, nofun⟩,
    fun hne => absurd rfl hne⟩

protected theorem Inv.update (hinv : Inv s) {co : Coord} (hcoords : t.coords = update s.coords c co)
    (halone : (s.coords c).phase = .idle → AllIdle s)
    (hserial : (s.coords c).serial ≤ co.serial)
    (hlogged : ∀ d ∈ t.history.returned, d ∈ s.history.returned ∨ d.tag = co.tag c)
    (hfacts : CoordFacts t.params t.pool.toFields t.history.stage t.history.returned (co.tag c) co)
    (hplain : co.phase = .idle → t.pool.toFields.Plain)
    (hwaited : t.history.stage = .waiting → co.phase = .inside)
    (hpool : PoolFacts t.params t.pool t.workers t.history) : Inv t := by
  -- all others are idle
  have hidle : ∀ c', c' ≠ c → (t.coords c').phase = .idle := by
    intro c' hne
    rw [hcoords, update_of_ne hne]
    by_contra hbusy
    exact hne (hinv.alone c' c hbusy fun hc => hbusy (halone hc c'))
  have hself : t.coords c = co := by rw [hcoords, update_self]
  refine ⟨?_, ?_, ?_, ?_, ?_, hpool⟩
  · have honly : ∀ c', (t.coords c').phase ≠ .idle → c' = c := by
      intro c' hbusy
      by_contra hne
      exact hbusy (hidle c' hne)
    intro c₁ c₂ h₁ h₂
    rw [honly c₁ h₁, honly c₂ h₂]
  · intro c'
    rcases eq_or_ne c' c with rfl | hne
    · rw [hself]
      exact hfacts
    · unfold CoordFacts
      rw [hidle c' hne]
      trivial
  · intro hall
    exact hplain (hself ▸ hall c)
  · intro hstage
    exact ⟨c, by rw [hself]; exact hwaited hstage⟩
  · intro d hd c' hc'
    have hmono : (s.coords c').serial ≤ (t.coords c').serial := by
      rcases eq_or_ne c' c with rfl | hne
      · rw [hself]
        exact hserial
      · rw [hcoords, update_of_ne hne]
    rcases hlogged d hd with hold | htag
    · exact (hinv.logged d hold c' hc').trans hmono
    · have heq : c' = c := Fin.ext (hc'.symm.trans (congrArg BatchTag.coord htag))
      rw [heq, hself, htag]
      exact Nat.le_refl _

theorem PoolFacts.params {k : Nat} {ps ps' : ModeParams} {p : Pool} {workers : Fin k → Worker}
    {h : History} (hp : PoolFacts ps p workers h) (hscheme : p.scheme ps' = p.scheme ps) :
    PoolFacts ps' p workers h where
  calm := fun hst =>
    let hc := hp.calm hst
    ⟨fun w => ⟨(hc.workers w).placed.congr hscheme, (hc.workers w).away⟩, hc.allDone, hc.nodup,
      hc.fresh⟩
  busy := fun hst =>
    let hb := hp.busy hst
    ⟨hb.sharing.congr hscheme, hb.signals, hb.counterReset, hb.cursorReset, hb.remainingSet,
      hb.scheme.trans hscheme.symm, hb.services, hb.returned⟩

section

variable (hinv : Inv s)
include hinv

theorem Inv.setParams {ps : ModeParams} (hcare : AllIdle s ∨ SameMode s.params ps) :
    Inv { s with params := ps } := by
  refine ⟨hinv.alone, fun c => ?_, hinv.plain, hinv.waited, hinv.logged, ?_⟩
  · have hfacts := hinv.coords c
    unfold CoordFacts at hfacts ⊢
    rcases hcare with hidle | hmode
    · rw [hidle c]
      trivial
    · cases hphase : (s.coords c).phase with
      | inside =>
        rw [hphase] at hfacts
        have hin : Inside .. := hfacts
        exact ⟨hin.allGroups, hin.plan, hin.groups, hin.items,
          ⟨hin.mode.1.trans hmode.1.symm, hin.mode.2.trans hmode.2.symm⟩, hin.past, hin.waits⟩
      | idle | writeGroups | writeCount | call | inline | inlineService =>
        rw [hphase] at hfacts
        exact hfacts
  · apply hinv.pool.params
    rcases hcare with hidle | hmode
    -- between batches no mode is on, whatever the parameters
    · have hplain := hinv.plain hidle
      simp [Layout.scheme, hplain.dynamic, hplain.segParallel]
    · exact hmode.scheme_eq _

theorem Inv.stage_ne_of_idle (hidle : AllIdle s) : s.history.stage ≠ .waiting := by
  intro hstage
  obtain ⟨c, hc⟩ := hinv.waited hstage
  rw [hidle c] at hc
  cases hc

theorem Inv.submit (hidle : AllIdle s) {phase : Phase}
    (hphase : (∃ n, phase = .writeGroups n) ∨ ∃ n, phase = .inline 0 n)
    (hstep : submitStep s c phase = some t) : Inv t := by
  have hstage := hinv.stage_ne_of_idle hidle
  unfold submitStep at hstep
  rw [if_pos (hidle c)] at hstep
  cases hstep
  -- the serial number is new
  have hfresh : ∀ d ∈ s.history.returned, d.tag ≠ ⟨c, (s.coords c).serial + 1⟩ := by
    intro d hd htag
    have hle := hinv.logged d hd c (congrArg BatchTag.coord htag)
    rw [htag] at hle
    exact absurd hle (Nat.not_succ_le_self _)
  refine hinv.update rfl (fun _ => hidle) (Nat.le_succ _) (fun _ => .inl) ?_ ?_ ?_ hinv.pool
  · rcases hphase with ⟨n, rfl⟩ | ⟨n, rfl⟩
    · exact ⟨hinv.plain hidle, hstage, hfresh⟩
    · exact ⟨hinv.plain hidle, hstage⟩
  · rcases hphase with ⟨n, rfl⟩ | ⟨n, rfl⟩ <;> exact nofun
  · exact fun hst => absurd hst hstage

theorem Inv.call {cfg : SegmentConfig} {ans : Answers} {faults : List Nat}
    (hstep : callStep s c cfg ans faults = some t) : Inv t := by
  unfold callStep at hstep
  dsimp only at hstep
  split at hstep
  · rename_i hphase
    cases hstep
    have hfacts := hinv.coords c
    unfold CoordFacts at hfacts
    rw [hphase] at hfacts
    obtain ⟨hcalled, hremaining, hstage, hfresh⟩ := hfacts
    refine hinv.update rfl (by simp [hphase]) (Nat.le_refl _) (fun _ => .inl)
      ?_ nofun (fun hst => absurd hst hstage) hinv.pool
    refine ⟨hcalled.groups, ⟨faults.length, s.pool.queueBase, fallsBack cfg s.params ans faults = true, ?_⟩,
      hcalled.groups, ?_, ⟨rfl, rfl⟩, ?_, fun hst => absurd hst hstage⟩
    · exact eachStart_dispatchPlan cfg s.params ans faults hcalled
    · rw [hremaining]
      exact nofun
    · exact fun d hd htag => absurd htag (hfresh d hd)
  · cases hstep

theorem Inv.coord (hexpire : (s.coords c).expires = false)
    (hreading : (s.coords c).disturbs = true → ∀ w, (s.workers w).pc.reading = false)
    (hstep : coordStep s c = some t) : Inv t := by
  have hfacts := hinv.coords c
  unfold CoordFacts at hfacts
  unfold coordStep at hstep
  unfold Coord.expires at hexpire
  unfold Coord.disturbs at hreading
  dsimp only at hstep
  cases hphase : (s.coords c).phase with
  | idle | call =>
    rw [hphase] at hstep
    cases hstep
  | writeGroups numGroups =>
    rw [hphase] at hstep hfacts
    cases hstep
    obtain ⟨hplain, hstage, hfresh⟩ := hfacts
    refine hinv.update rfl (by simp [hphase]) (Nat.le_refl _) (fun _ => .inl)
      ⟨⟨⟨hplain.dynamic, hplain.segParallel⟩, rfl, rfl⟩, rfl, hstage, hfresh⟩ nofun
      (fun hst => absurd hst hstage) ?_
    exact hinv.pool.congr hstage ⟨rfl, rfl, rfl, nofun, rfl, rfl, rfl, rfl⟩
  | writeCount numGroups =>
    rw [hphase] at hstep hfacts hreading
    cases hstep
    obtain ⟨hcalled, hremaining, hstage, hfresh⟩ := hfacts
    refine hinv.update rfl (by simp [hphase]) (Nat.le_refl _) (fun _ => .inl)
      ⟨⟨⟨hcalled.dynamic, hcalled.segParallel⟩, hcalled.groups, hcalled.dispatchedTo⟩, hremaining,
        nofun, hfresh⟩ nofun nofun ?_
    have hfresh' := hinv.pool.fresh
    refine ⟨fun _ => ⟨fun w => ?_, hinv.pool.allDone hstage, hinv.pool.nodup, hfresh'.counter,
      hfresh'.cursor, hfresh'.remaining⟩, fun hne => absurd rfl hne⟩
    exact calm_of_outside (hinv.pool.outside hstage (hreading rfl) w)
  | inside =>
    rw [hphase] at hstep hfacts hreading hexpire
    have hin : Inside .. := hfacts
    cases hprog : (s.coords c).program with
    | nil =>
      rw [hprog] at hstep
      cases hstep
      -- the plan is done: no mode is on any more
      obtain ⟨_, _, _, hplan⟩ := hin.plan
      rw [hprog] at hplan
      refine hinv.update rfl (by simp [hphase]) (Nat.le_refl _)
        (fun _ => .inl) trivial (fun _ => hplan) (fun hst => ?_) hinv.pool
      have hawaits := (hin.waits hst).awaits
      rw [hprog] at hawaits
      cases hawaits
    | cons a rest =>
      rw [hprog] at hstep hreading hexpire
      obtain ⟨p', hafter, rfl⟩ := Option.map_eq_some_iff.1 hstep
      rw [hin.allGroups] at hafter
      have hne : a ≠ .expire := by
        rintro rfl
        cases hexpire
      obtain ⟨hpool, hin'⟩ := access_inside hinv.pool hin hprog hafter hne hreading
      refine hinv.update rfl (by simp [hphase])
        (Nat.le_of_eq (Coord.after_serial ..).symm) ?_ ?_ ?_ ?_ hpool
      · intro d hd
        rcases @returned_afterAccess s.history s.pool.toFields a (s.coords c) c with hlog | hlog
        · rw [hlog] at hd
          exact .inl hd
        · rw [hlog] at hd
          rcases List.mem_cons.1 hd with rfl | hold
          · exact .inr (by rw [Coord.tag, Coord.after_serial])
          · exact .inl hold
      · unfold CoordFacts
        rw [Coord.after_phase, hphase, Coord.tag, Coord.after_serial]
        exact hin'
      · intro hidle
        rw [Coord.after_phase, hphase] at hidle
        cases hidle
      · exact fun _ => by rw [Coord.after_phase, hphase]
  | inline i numGroups =>
    rw [hphase] at hstep hfacts
    obtain ⟨hplain, hstage⟩ := hfacts
    dsimp only at hstep
    split at hstep
    · cases hstep
      refine hinv.update rfl (by simp [hphase]) (Nat.le_refl _)
        (fun _ => .inl) ⟨⟨hplain.dynamic, hplain.segParallel⟩, hstage⟩ nofun
        (fun hst => absurd hst hstage) ?_
      exact hinv.pool.congr hstage ⟨rfl, rfl, rfl, fun _ => id, rfl, rfl, rfl, rfl⟩
    · cases hstep
      exact hinv.update rfl (by simp [hphase]) (Nat.le_refl _) (fun _ => .inl)
        trivial (fun _ => hplain) (fun hst => absurd hst hstage) hinv.pool
  | inlineService i numGroups =>
    rw [hphase] at hstep hfacts
    cases hstep
    obtain ⟨hplain, hstage⟩ := hfacts
    exact hinv.update rfl (by simp [hphase]) (Nat.le_refl _) (fun _ => .inl)
      ⟨hplain, hstage⟩ nofun (fun hst => absurd hst hstage) hinv.pool

theorem Inv.worker {w : Fin numWorkers} {merge : Bool}
    (hclaim : (s.workers w).pc = .outside → s.history.stage = .calm →
      s.pool.batchNumActive ≤ s.pool.batchWorkerCounter) : Inv (workerStep s w merge) := by
  have hfields := toFields_workerAccess s.params merge s.pool (s.workers w)
  have hstage := stage_afterWorker s.history (s.workers w)
  have hlog := returned_afterWorker s.history (s.workers w)
  refine ⟨hinv.alone, fun c => ?_, fun hidle => ?_, fun hst => ?_, fun d hd => ?_,
    hinv.pool.workerAccess hclaim⟩
  · simp only [workerStep]
    rw [hfields, hstage, hlog]
    exact hinv.coords c
  · simp only [workerStep]
    rw [hfields]
    exact hinv.plain hidle
  · simp only [workerStep] at hst
    rw [hstage] at hst
    exact hinv.waited hst
  · simp only [workerStep] at hd
    rw [hlog] at hd
    exact hinv.logged d hd

theorem inv_step {label : Label numCoords numWorkers} (hcare : Careful s label)
    (hstep : step s label = some t) : Inv t := by
  cases label with
  | setParams ps =>
    cases hstep
    exact hinv.setParams hcare
  | submit c numGroups => exact hinv.submit hcare (.inl ⟨numGroups, rfl⟩) hstep
  | submitInline c numGroups => exact hinv.submit hcare (.inr ⟨numGroups, rfl⟩) hstep
  | call c cfg ans faults => exact hinv.call hstep
  | coord c => exact hinv.coord hcare.1 hcare.2 hstep
  | worker w merge =>
    cases hstep
    exact hinv.worker hcare

end

/-- The invariant holds in every state of a careful run. -/
theorem inv_of_careful {labels : List (Label numCoords numWorkers)}
    (hcare : (modes numCoords numWorkers).Meets Careful {} labels)
    (hrun : (modes numCoords numWorkers).run {} labels = some t) : Inv t := by
  have hstep : ∀ (s : State numCoords numWorkers) label t, Inv s → Careful s label →
      (modes numCoords numWorkers).step s label = some t → Inv t :=
    fun _ _ _ hinv hcare hstep => inv_step hinv hcare hstep
  exact (modes numCoords numWorkers).run_invariant hstep inv_init hcare hrun

end Steps

end FaultMesh.Modes
