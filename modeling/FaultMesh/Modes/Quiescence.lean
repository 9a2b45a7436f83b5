import FaultMesh.Modes.Invariant

/-!
# Quiescence at return

When `dispatch_wait_inner` returns, the coordinator goes on as if no worker had anything to do with
the dispatch any more: it ends the shared pushes, hands the same queue and groups out again and at
last releases the `mm` of the batch. In careful runs this is right. It is not when the wait expires.
-/

namespace FaultMesh.Modes

section Quiescence

variable {numCoords numWorkers : Nat}

/-- The next access of the coordinator ends the push. -/
def Coord.ends (co : Coord) (push : PushKind × Nat) : Bool :=
  match co.phase, co.program with
  | .inside, .pushEnd kind slot :: _ => push == (kind, slot)
  | .inside, .pushEndUnlessClosed slot :: _ => push == (.copy, slot)
  | _, _ => false

/-- What a worker uses while it services an item is left to it. -/
structure Quiescent (s : State numCoords numWorkers) : Prop where
  /-- A dispatch whose wait has returned is not being serviced. -/
  returned : ∀ d ∈ s.history.returned, ∀ w, (s.workers w).pc = .service →
    ¬ d.Has (s.workers w).group
  /-- The batch of the item is still being dispatched: its `mm` is held and its groups stand. -/
  held : ∀ w, (s.workers w).pc = .service →
    ∃ c, (s.coords c).phase = .inside ∧ (s.coords c).tag c = (s.workers w).group.1
  /-- So is the batch that a worker is about to take an item from. -/
  taken : ∀ w, (s.workers w).pc = .takeItem →
    ∃ c, (s.coords c).phase = .inside ∧ (s.coords c).tag c = s.pool.batchGroups.1
  /-- The queue entry of the item is not filled in again. -/
  slots : ∀ w, (s.workers w).pc = .service →
    s.pool.queue (s.workers w).slot = (s.workers w).group
  /-- No coordinator is about to end a push that the worker appends to. -/
  pushes : ∀ w, (s.workers w).pc = .service → ∀ push ∈ (s.workers w).pushes,
    ∀ c, (s.coords c).ends push = false

variable {s : State numCoords numWorkers}

theorem Inv.inside (hinv : Inv s) {c : Fin numCoords} (hphase : (s.coords c).phase = .inside) :
    Inside s.params s.pool.toFields s.history.stage s.history.returned ((s.coords c).tag c)
      (s.coords c) := by
  have hfacts := hinv.coords c
  unfold CoordFacts at hfacts
  rw [hphase] at hfacts
  exact hfacts

theorem Inv.waiting_of_hasItem (hinv : Inv s) {w : Fin numWorkers}
    (hitem : (s.workers w).pc.hasItem = true) :
    s.history.stage = .waiting ∧ BusyPool s.params s.pool s.workers s.history ∧
      ∃ c, (s.coords c).phase = .inside ∧ Inside s.params s.pool.toFields s.history.stage
        s.history.returned ((s.coords c).tag c) (s.coords c) := by
  have hstage : s.history.stage = .waiting := by
    by_contra hne
    have hnone := (hinv.pool.pc_ne hne w).1
    rw [hitem] at hnone
    cases hnone
  refine ⟨hstage, hinv.pool.busy (by rw [hstage]; exact nofun), ?_⟩
  obtain ⟨c, hc⟩ := hinv.waited hstage
  exact ⟨c, hc, hinv.inside hc⟩

theorem Inside.not_ends {ps : ModeParams} {p : Pool} {h : History} {tag : BatchTag} {co : Coord}
    {wk : Worker} (hin : Inside ps p.toFields h.stage h.returned tag co)
    (hstage : h.stage = .waiting) (hserv : Services p wk) (hscheme : wk.scheme = p.scheme ps)
    {push : PushKind × Nat} (hpush : push ∈ wk.pushes) : co.ends push = false := by
  have hawaits := (hin.waits hstage).awaits
  unfold Coord.ends
  cases co.phase with
  | inside =>
    cases hprog : co.program with
    | nil => rfl
    | cons a rest =>
      rw [hprog] at hawaits
      cases a with
      | pushEnd kind slot =>
        obtain ⟨hdynamic, hsegParallel, hslot⟩ := hawaits.1
        have hstrides : wk.scheme = .strides := by
          rw [hscheme]
          simp [Layout.scheme, hdynamic, hsegParallel]
        have hmine := hserv.pushes hstrides push hpush
        apply Bool.eq_false_iff.2
        intro hends
        have heq : push = (kind, slot) := eq_of_beq hends
        rw [hmine] at heq
        exact hslot (congrArg Prod.snd heq).symm
      | pushEndUnlessClosed => cases hawaits
      | _ => rfl
  | _ => rfl

theorem Inv.quiescent (hinv : Inv s) : Quiescent s := by
  constructor
  case returned =>
    intro d hd w hpc hhas
    obtain ⟨hstage, hb, c, -, hin⟩ := hinv.waiting_of_hasItem (w := w) (by rw [hpc]; rfl)
    obtain ⟨htag, -, hlt⟩ := hhas
    rw [(hb.services w hpc).group] at htag hlt
    -- dispatches of the batch that are done end before the groups of this one begin
    have hpast := hin.past d hd (by rw [← htag, hin.groups])
    have hahead := (hin.waits hstage).ahead
    dsimp only at hlt
    omega
  case held =>
    intro w hpc
    obtain ⟨-, hb, c, hc, hin⟩ := hinv.waiting_of_hasItem (w := w) (by rw [hpc]; rfl)
    refine ⟨c, hc, ?_⟩
    rw [(hb.services w hpc).group, hin.groups]
  case taken =>
    intro w hpc
    obtain ⟨-, -, c, hc, hin⟩ := hinv.waiting_of_hasItem (w := w) (by rw [hpc]; rfl)
    exact ⟨c, hc, by rw [hin.groups]⟩
  case slots =>
    intro w hpc
    obtain ⟨-, hb, -⟩ := hinv.waiting_of_hasItem (w := w) (by rw [hpc]; rfl)
    exact (hb.services w hpc).slot
  case pushes =>
    intro w hpc push hpush c'
    obtain ⟨hstage, hb, c, hc, hin⟩ := hinv.waiting_of_hasItem (w := w) (by rw [hpc]; rfl)
    by_cases hbusy : (s.coords c').phase = .idle
    · unfold Coord.ends
      rw [hbusy]
    · rw [hinv.alone c' c hbusy (by rw [hc]; exact nofun)]
      have hloop := (hb.sharing.placed w).loop (by rw [hpc]; rfl)
      exact hin.not_ends hstage (hb.services w hpc) hloop.scheme hpush

/-- **Quiescence**: in every state of a careful run, what workers use while they service an item is
left to them. -/
theorem dispatch_quiescent {labels : List (Label numCoords numWorkers)}
    (hcare : (modes numCoords numWorkers).Meets Careful {} labels)
    (hrun : (modes numCoords numWorkers).run {} labels = some s) : Quiescent s :=
  (inv_of_careful hcare hrun).quiescent

end Quiescence

/-! ## Two runs -/

def oneWorker : SegmentConfig := uvmKthreadPoolCreate 1 0

def beginBatch (ps : ModeParams) (ans : Answers) (faults : List Nat) : List (Label 1 1) :=
  [.setParams ps, .submit 0 faults.length, .coord 0, .coord 0, .call 0 oneWorker ans faults]

/-- A whole batch is merged; its wait expires while the worker services the only item, and the
coordinator ends the copy push. -/
def expiredRun : List (Label 1 1) :=
  beginBatch { mergeDispatch := true, segmentedDispatch := false } { status := fun _ => .timeout } [1] ++
    List.replicate 11 (.coord 0) ++ List.replicate 9 (.worker 0 true) ++ List.replicate 2 (.coord 0)

structure Glimpse where
  returned : List Dispatch
  pc : WorkerPc
  group : BatchTag × Nat
  pushes : List (PushKind × Nat)
  /-- The map push of the first pair is about to be ended. -/
  ends : Bool
  deriving DecidableEq

def glimpse (s : State 1 1) : Glimpse :=
  ⟨s.history.returned, (s.workers 0).pc, (s.workers 0).group, (s.workers 0).pushes,
    (s.coords 0).ends (.map, 0)⟩

/-- The dispatch has returned, its item is being serviced, and the coordinator is about to end the
push that the worker appends to. -/
theorem expired_wait_ends_push :
    ∃ s, (modes 1 1).run {} expiredRun = some s ∧
      glimpse s = ⟨[⟨⟨0, 1⟩, 0, 1⟩], .service, (⟨0, 1⟩, 0), [(.map, 0)], true⟩ ∧ ¬ Quiescent s := by
  refine ⟨_, rfl, by decide +kernel, fun hquiet => ?_⟩
  apply hquiet.returned _ List.mem_cons_self 0 (by decide +kernel)
  exact ⟨rfl, by decide +kernel, by decide +kernel⟩

/-- Two segments with pushes begun ahead. The first one has been dispatched, and the worker services
the item of the second one. -/
def twoSegments : List (Label 1 1) :=
  beginBatch { mergeDispatch := true, pipelineOverlap := true } {} [16, 16] ++
    List.replicate 13 (.coord 0) ++ List.replicate 12 (.worker 0 true) ++
    List.replicate 14 (.coord 0) ++ List.replicate 9 (.worker 0 true)

theorem two_segments_quiescent :
    ∃ s, (modes 1 1).run {} twoSegments = some s ∧
      glimpse s = ⟨[⟨⟨0, 1⟩, 0, 1⟩], .service, (⟨0, 1⟩, 1), [(.map, 1)], false⟩ ∧ Quiescent s := by
  have hcare : (modes 1 1).Meets Careful {} twoSegments := by decide +kernel
  exact ⟨_, rfl, by decide +kernel, dispatch_quiescent hcare rfl⟩

end FaultMesh.Modes
