import FaultMesh.Modes.Entries

/-!
# Queue entries across batches

Every work item of a batch has its own entry in the queue of the pool: the entry with the index of
its group. Workers and the collecting coordinator reach it as `queue_base + idx`, where `idx` counts
from the first group of the dispatch. So `queue_base` has to be the index of that group.

It is when a dispatch writes it. But if `uvm_push_begin` fails in a mode that opens all pushes
beforehand, the whole batch is dispatched without writing `queue_base`, and if the batch before was
dispatched in segments, the start of its last segment is still there. Besides, a worker reads
`queue_base` apart from the other fields, and may combine values of two dispatches.
-/

namespace FaultMesh.Modes

open Function

def uvmKthreadQueueSize : Nat := 1024

section Slots

variable {numCoords numWorkers : Nat}

/-- The entries that workers and the collecting coordinators touch are in the queue, and each is the
one with the index of its group. -/
structure SlotsInRange (s : State numCoords numWorkers) : Prop where
  /-- A worker that is filling in or servicing an item. -/
  workers : ∀ w, (s.workers w).pc.hasItem = true →
    (s.workers w).slot < uvmKthreadQueueSize ∧
      (s.workers w).slot = s.pool.batchGroups.2 + (s.workers w).idx
  serviced : ∀ w, (s.workers w).pc = .service → (s.workers w).group.2 = (s.workers w).slot
  /-- A coordinator that collects finds its own groups. -/
  collected : ∀ c items rest, (s.coords c).phase = .inside →
    (s.coords c).program = .collect items :: rest → ∀ i < items,
      s.pool.queueBase + i < uvmKthreadQueueSize ∧
        s.pool.queue (s.pool.queueBase + i) = ((s.coords c).tag c, s.pool.queueBase + i)

/-- Batches fit into the queue, and one for which a `uvm_push_begin` fails in a mode that opens all
pushes beforehand finds `queue_base` zero. -/
def FallsBackAtZero (s : State numCoords numWorkers) : Label numCoords numWorkers → Prop
  | .call _ cfg ans faults => faults.length ≤ uvmKthreadQueueSize ∧
      (fallsBack cfg s.params ans faults = true → s.pool.queueBase = 0)
  | _ => True

instance (s : State numCoords numWorkers) : ∀ label, Decidable (FallsBackAtZero s label)
  | .call .. => inferInstanceAs (Decidable (_ ∧ (_ → _)))
  | .setParams _ | .submit .. | .submitInline .. | .coord _ | .worker .. => isTrue trivial

/-! ## One dispatch -/

/-- The dispatch uses the entries of its groups. -/
structure Fields.InQueue (f : Fields) : Prop where
  base : f.queueBase = f.batchGroups.2
  bound : f.batchGroups.2 + f.batchNumGroups ≤ uvmKthreadQueueSize

theorem inQueue_of_setUpRight {ps : ModeParams} {tag : BatchTag} {numGroups q : Nat} {b : Prop}
    {g : Fields} {rest : List Access} (h : SetUpRight ps tag numGroups q b g rest)
    (hzero : b → q = 0) (hsize : numGroups ≤ uvmKthreadQueueSize) : g.InQueue := by
  refine ⟨?_, h.bound.trans hsize⟩
  rcases h.slots with heq | ⟨hb, hfirst, hq⟩
  · exact heq
  · rw [hq, hzero hb, hfirst]

/-! ## Batch after batch -/

/-- All dispatches to come use the entries of their groups, and so does the current one. -/
structure SlotInv (s : State numCoords numWorkers) : Prop where
  plans : ∀ c, (s.coords c).phase = .inside →
    EachStart ((s.coords c).tag c, 0) (fun g _ => g.InQueue) (fun _ => True) s.pool.toFields
      (s.coords c).program
  current : s.history.stage = .waiting ∨ s.pool.awaited ≠ none → s.pool.InQueue

variable {s t : State numCoords numWorkers} {label : Label numCoords numWorkers} {c : Fin numCoords}

theorem slotInv_init : SlotInv ({} : State numCoords numWorkers) := by
  refine ⟨(fun _ h => by cases h), fun h => ?_⟩
  rcases h with hst | hsome
  · cases hst
  · exact absurd rfl hsome

section

variable (h : SlotInv s) (hinv : Inv s) (hcare : Careful s label) (hstep : step s label = some t)
include h hinv hcare hstep

theorem SlotInv.current_step : t.history.stage = .waiting ∨ t.pool.awaited ≠ none → t.pool.InQueue := by
  intro hor
  by_cases hstands : s.history.stage = .waiting ∨ t.pool.awaited ≠ none
  · obtain ⟨hgroups, hbase, hcount, -, hwas⟩ := hinv.stands hcare hstep hstands
    obtain ⟨hold, hbound⟩ := h.current hwas
    exact ⟨by rw [hbase, hgroups, hold], by rw [hgroups, hcount]; exact hbound⟩
  -- a dispatch begins
  · obtain ⟨hnot, -⟩ := not_or.1 hstands
    have hstage := hor.resolve_right fun hsome => hstands (.inr hsome)
    rcases step_cases hstep with ⟨-, -, hhistory⟩ | ⟨c, rfl⟩ | ⟨w, merge, rfl⟩
    · rw [hhistory] at hstage
      exact absurd hstage hnot
    · obtain ⟨rest, hphase, hprog, hfields⟩ := coord_starts hnot hstage hstep
      have hplan := h.plans c hphase
      rw [hprog] at hplan
      obtain ⟨hbase, hbound⟩ := hplan.1 rfl
      rw [hfields]
      exact ⟨hbase, hbound⟩
    · cases hstep
      exact absurd ((stage_afterWorker ..).symm.trans hstage) hnot

end

section

variable (h : SlotInv s) (hinv : Inv s)
include h hinv

theorem SlotInv.plans_coord (hstep : coordStep s c = some t) (c' : Fin numCoords)
    (hphase' : (t.coords c').phase = .inside) :
    EachStart ((t.coords c').tag c', 0) (fun g _ => g.InQueue) (fun _ => True) t.pool.toFields
      (t.coords c').program := by
  obtain ⟨co, hmoves⟩ := coordMoves_of_step hstep
  -- nobody else is inside, and no step leads there
  have hc : c' = c := by
    by_contra hne
    rw [hmoves.coords, update_of_ne hne] at hphase'
    exact hne (hinv.alone c' c (by simp [hphase']) hmoves.busy)
  subst hc
  have hphase : (s.coords c').phase = .inside := by
    by_contra hout
    rw [hmoves.coords, update_self] at hphase'
    exact hmoves.outside hout hphase'
  have hin := hinv.inside hphase
  have hplan := h.plans c' hphase
  unfold coordStep at hstep
  dsimp only at hstep
  rw [hphase] at hstep
  cases hprog : (s.coords c').program with
  | nil =>
    rw [hprog] at hstep
    cases hstep
    simp at hphase'
  | cons a rest =>
    rw [hprog] at hstep hplan
    obtain ⟨p', hafter, rfl⟩ := Option.map_eq_some_iff.1 hstep
    rw [hin.allGroups] at hafter
    simp only [update_self, Coord.after_program, Coord.tag, Coord.after_serial]
    rw [toFields_after hafter]
    exact hplan.2.2

omit h in
/-- What a call plans, if batches fit and fall back at zero. -/
theorem plans_call {cfg : SegmentConfig} {ans : Answers} {faults : List Nat}
    (hphase : (s.coords c).phase = .call faults.length)
    (hzero : FallsBackAtZero s (.call c cfg ans faults)) :
    EachStart ((s.coords c).tag c, 0) (fun g _ => g.InQueue) (fun _ => True) s.pool.toFields
      (dispatchPlan cfg s.params ans faults) := by
  have hfacts := hinv.coords c
  unfold CoordFacts at hfacts
  rw [hphase] at hfacts
  apply (eachStart_dispatchPlan cfg s.params ans faults hfacts.1).imp
  · exact fun g rest hg => inQueue_of_setUpRight hg hzero.2 hzero.1
  · exact fun _ _ => trivial

theorem SlotInv.step (hcare : Careful s label) (hzero : FallsBackAtZero s label)
    (hstep : step s label = some t) : SlotInv t := by
  refine ⟨?_, h.current_step hinv hcare hstep⟩
  cases label with
  | setParams ps =>
    cases hstep
    exact h.plans
  | submit c numGroups | submitInline c numGroups =>
    simp only [Modes.step, submitStep] at hstep
    split at hstep
    · cases hstep
      intro c' hphase'
      rcases eq_or_ne c' c with rfl | hne
      · simp only [update_self] at hphase'
        cases hphase'
      · simp only [update_of_ne hne] at hphase' ⊢
        exact h.plans c' hphase'
    · cases hstep
  | call c cfg ans faults =>
    simp only [Modes.step, callStep] at hstep
    split at hstep
    · rename_i hphase
      cases hstep
      intro c' hphase'
      rcases eq_or_ne c' c with rfl | hne
      · simp only [update_self]
        exact plans_call hinv hphase hzero
      · simp only [update_of_ne hne] at hphase' ⊢
        exact h.plans c' hphase'
    · cases hstep
  | coord c => exact h.plans_coord hinv hstep
  | worker w merge =>
    cases hstep
    intro c' hphase'
    have hfields := toFields_workerAccess s.params merge s.pool (s.workers w)
    simp only [workerStep, hfields]
    exact h.plans c' hphase'

theorem SlotInv.slotsInRange (hkept : Kept s s.pool.Holds) : SlotsInRange s := by
  refine ⟨fun w hitem => ?_, fun w hpc => ?_, fun c items rest hphase hprog i hi => ?_⟩
  · obtain ⟨hstage, -⟩ := hinv.waiting_of_hasItem hitem
    obtain ⟨hbase, hbound⟩ := h.current (.inl hstage)
    have hidx := hinv.idx_lt hitem
    rw [hinv.slot_eq hitem, hbase]
    exact ⟨by omega, rfl⟩
  · obtain ⟨hstage, hb, -⟩ := hinv.waiting_of_hasItem (w := w) (by rw [hpc]; rfl)
    rw [(hb.services w hpc).group, hinv.slot_eq (by rw [hpc]; rfl), (h.current (.inl hstage)).base]
  · obtain ⟨-, hlt, hqueue⟩ := hinv.collects hkept hphase hprog hi
    have hawaited := hinv.awaited_of_collect hphase hprog
    obtain ⟨hbase, hbound⟩ := h.current (.inr (by simp [hawaited]))
    have hstart : s.pool.queueBase = (s.coords c).start := by
      rw [hbase, (hinv.inside hphase).groups]
    refine ⟨by omega, ?_⟩
    rw [hqueue, hstart]

end

/-- If batches fit into the queue and fall back only while `queue_base` is zero, all entries
that are touched in a careful run are in the queue and belong to their groups. -/
theorem queue_slots_in_range {labels : List (Label numCoords numWorkers)}
    (hcare : (modes numCoords numWorkers).Meets
      (fun s label => Careful s label ∧ FallsBackAtZero s label) {} labels)
    (hrun : (modes numCoords numWorkers).run {} labels = some s) : SlotsInRange s := by
  have hstep : ∀ (s : State numCoords numWorkers) label t,
      (Inv s ∧ SlotInv s ∧ Kept s s.pool.Holds) → (Careful s label ∧ FallsBackAtZero s label) →
        (modes numCoords numWorkers).step s label = some t →
          Inv t ∧ SlotInv t ∧ Kept t t.pool.Holds := by
    rintro s label t ⟨hinv, hslot, hkept⟩ ⟨hcare, hzero⟩ hstep
    exact ⟨inv_step hinv hcare hstep, hslot.step hinv hcare hzero hstep,
      hinv.kept_holds hcare hstep hkept⟩
  obtain ⟨hinv, hslot, hkept⟩ := (modes numCoords numWorkers).run_invariant hstep
    ⟨inv_init, slotInv_init, kept_init⟩ hcare hrun
  exact hslot.slotsInRange hinv hkept

end Slots

/-! ## Two runs -/

local instance oneEach_neZero : NeZero 1 := ⟨Nat.one_ne_zero⟩

/-- A batch of two groups, dispatched in two segments. -/
def segmentedBatch : List (Label 1 1) :=
  let segment : List (Label 1 1) := List.replicate 11 (.coord 0) ++
    List.replicate 12 (.worker 0 true) ++ List.replicate 5 (.coord 0)
  beginBatch { mergeDispatch := true } {} [16, 16] ++ segment ++ segment ++
    List.replicate 2 (.coord 0)

/-- Then a full batch in the dynamic mode that gets no pushes, up to its first item. -/
def staleRun : List (Label 1 1) :=
  segmentedBatch ++
    beginBatch { mergeDispatch := true, dynamicDispatch := true } { pushOk := fun _ _ => false }
      (List.replicate 1024 1) ++
    List.replicate 9 (.coord 0) ++ List.replicate 8 (.worker 0 true)

/-- Where the worker is in the groups and in the queue, and where the entries of the dispatch end. -/
structure Place where
  pc : WorkerPc
  group : Nat
  slot : Nat
  stop : Nat
  deriving DecidableEq

def place (s : State 1 1) : Place :=
  ⟨(s.workers 0).pc, s.pool.batchGroups.2 + (s.workers 0).idx, (s.workers 0).slot,
    s.pool.queueBase + s.pool.batchNumGroups⟩

/-- The worker is about to fill in the first group in the second entry, since `queue_base` is still
that of the last segment of the batch before; and the entries of the dispatch go past the end of the
queue. -/
theorem stale_queue_base :
    ∃ s, (modes 1 1).run {} staleRun = some s ∧ place s = ⟨.takeItem, 0, 1, 1025⟩ ∧
      ¬ SlotsInRange s := by
  have hplace : ((modes 1 1).run {} staleRun).map place = some ⟨.takeItem, 0, 1, 1025⟩ := by
    decide +kernel
  obtain ⟨s, hrun, hs⟩ := Option.map_eq_some_iff.1 hplace
  refine ⟨s, hrun, hs, fun hrange => ?_⟩
  have hitem : (s.workers 0).pc.hasItem = true := congrArg (fun pl => pl.pc.hasItem) hs
  have hgroup : s.pool.batchGroups.2 + (s.workers 0).idx = 0 := congrArg Place.group hs
  have hslot : (s.workers 0).slot = 1 := congrArg Place.slot hs
  have heq := (hrange.workers 0 hitem).2
  omega

/-- A batch in segments and one in the dynamic mode that gets its pushes, up to the second item. -/
def dynamicRun : List (Label 1 1) :=
  segmentedBatch ++ beginBatch { mergeDispatch := true, dynamicDispatch := true } {} [1, 1] ++
    List.replicate 14 (.coord 0) ++ List.replicate 11 (.worker 0 true)

theorem segmented_then_dynamic :
    ∃ s, (modes 1 1).run {} dynamicRun = some s ∧ place s = ⟨.takeItem, 1, 1, 2⟩ ∧ SlotsInRange s := by
  have hcare : (modes 1 1).Meets (fun s label => Careful s label ∧ FallsBackAtZero s label) {}
      dynamicRun := by decide +kernel
  exact ⟨_, rfl, by decide +kernel, queue_slots_in_range hcare rfl⟩

end FaultMesh.Modes
