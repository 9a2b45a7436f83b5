import FaultMesh.Grouping
import FaultMesh.Lib.Machine

/-!
# Lifetime of the blocks of a batch

Phase 1 of `service_fault_batch_parallel` keeps pointers to the blocks it finds. It holds the lock
of a VA space for reading only while it walks over the faults of that VA space: the lock is dropped
when the VA space changes and before the dispatch, and no reference to the blocks is taken. A worker
reads the VA space through the pointer before it takes the lock again. A thread that holds the lock
for writing can destroy a range and with it the block objects.

The machine has the coordinator, the workers of the pool and the writers. What a lookup finds, which
worker takes which item and when `uvm_kthread_dispatch_and_wait` returns are left open. Its wait can
expire, so that workers are still in the batch then, and go on to further items of it.
-/

namespace FaultMesh

open Function

/-! ## The machine -/

inductive LifePc where
  /-- At the fault at place `i` of the grouping loop. -/
  | group (i : Nat)
  /-- Taking the lock of the VA space of the fault. -/
  | acquire (i : Nat)
  /-- Before the dispatch. -/
  | release
  /-- In `uvm_kthread_dispatch_and_wait`. -/
  | dispatched
  /-- At a group of the inline fallback. -/
  | inline (k : Nat)
  | returned
  deriving DecidableEq, Repr

def LifePc.serve : ServicePath → LifePc
  | .inline => .inline 0
  | .dispatched => .release
  | .none => .returned

def LifePc.place : LifePc → Option Nat
  | .group i | .acquire i => some i
  | _ => none

inductive ItemPc where
  | idle
  /-- `uvm_va_block_get_va_space_maybe_dead`. -/
  | read (group : BlockFaultGroup)
  /-- `uvm_va_space_down_read`. -/
  | lock (group : BlockFaultGroup) (vaSpace : VaSpaceId)
  /-- Entering `service_block_faults_kthread`. -/
  | service (group : BlockFaultGroup)
  /-- The last access of `service_block_faults_kthread`. -/
  | finish (group : BlockFaultGroup)
  deriving DecidableEq

def ItemPc.item : ItemPc → Option BlockFaultGroup
  | .idle => none
  | .read group | .lock group _ | .service group | .finish group => some group

structure LifeWorker where
  pc : ItemPc := .idle
  /-- `held_va_space`, locked for reading. -/
  held : Option VaSpaceId := none
  /-- The worker was woken for the batch and is not done with it. -/
  inBatch : Bool := false
  deriving DecidableEq

/-- An access through the block pointer of a group. -/
structure BlockUse where
  firstFaultIndex : Nat
  /-- The object was not released since it was found. -/
  alive : Bool
  deriving DecidableEq, Repr

/-- One batch on its way, `n` workers, and the locks and blocks of the VA spaces. -/
structure LifeState (n : Nat) where
  pc : LifePc := .group 0
  grouping : Grouping
  /-- The VA space the coordinator holds for reading. -/
  held : Option VaSpaceId := none
  workers : Fin n → LifeWorker := fun _ => {}
  /-- Some thread holds the lock for writing. -/
  writer : VaSpaceId → Bool
  /-- How many objects of the block were released. -/
  released : VaBlock → Nat
  /-- That number when the block of the fault was found. -/
  foundAt : Nat → Nat := fun _ => 0
  /-- All accesses so far. Nothing reads this. -/
  uses : List BlockUse := []

inductive LifeLabel (n : Nat) where
  /-- With what the coordinator gets from the lookups. -/
  | coord (ans : BatchAnswers)
  /-- The worker comes to the item. -/
  | take (w : Fin n) (k : Nat)
  /-- `seen` is what a read through a released object gives. -/
  | worker (w : Fin n) (seen : Option VaSpaceId)
  /-- The worker has no more items for its number and drops its lock; it may take another number. -/
  | leave (w : Fin n) (again : Bool)
  | downWrite (vaSpace : VaSpaceId)
  | upWrite (vaSpace : VaSpaceId)
  /-- A range is destroyed, and its block with it. -/
  | destroy (block : VaBlock)

namespace LifeState

variable {n : Nat}

/-- The object that was found for the group is still there. -/
def alive (s : LifeState n) (group : BlockFaultGroup) : Bool :=
  s.released group.vaBlock = s.foundAt group.firstFaultIndex

def use (s : LifeState n) (group : BlockFaultGroup) : LifeState n :=
  { s with uses := ⟨group.firstFaultIndex, s.alive group⟩ :: s.uses }

def setWorker (s : LifeState n) (w : Fin n) (wk : LifeWorker) : LifeState n :=
  { s with workers := update s.workers w wk }

/-- The body of the grouping loop for the fault at place `i`, in its VA space. -/
def groupFault (ans : BatchAnswers) (batch : ServiceBatch) (i : Nat) (s : LifeState n) : LifeState n :=
  let g := FaultMesh.groupFault ans batch.entries i s.grouping
  { s with
    grouping := g
    foundAt := update s.foundAt i ((g.currentBlock.map s.released).getD 0)
    pc := .group (i + 1) }

/-- One step of `service_fault_batch_parallel`. -/
def coordStep (ans : BatchAnswers) (batch : ServiceBatch) (cfg : ParallelConfig) (s : LifeState n) :
    Option (LifeState n) :=
  match s.pc with
  | .group i =>
    if i < batch.numCoalescedFaults then
      if s.grouping.vaSpace = (batch.entries i).vaSpace then some (s.groupFault ans batch i)
      else some { s with held := none, pc := .acquire i }
    else
      let g := s.grouping.flush
      some { s with grouping := g, pc := .serve (cfg.path g.groups.length) }
  | .acquire i =>
    if (batch.entries i).vaSpace.any s.writer then none
    else some { s.groupFault ans batch i with held := (batch.entries i).vaSpace }
  | .release =>
    some { s with
      held := none
      workers := fun w => { s.workers w with inBatch := true }
      pc := .dispatched }
  -- all items are done, or the wait has timed out
  | .dispatched => some { s with pc := .returned }
  | .inline k =>
    match s.grouping.groups[k]? with
    | some group => some { s.use group with pc := .inline (k + 1) }
    | none => some { s with held := none, pc := .returned }
  | .returned => none

def workerStep (s : LifeState n) (w : Fin n) (seen : Option VaSpaceId) : Option (LifeState n) :=
  match (s.workers w).pc with
  | .idle => none
  | .read group =>
    let itemVs := if s.alive group then some group.vaBlock.vaSpace else seen
    some ((s.use group).setWorker w
      (if itemVs = (s.workers w).held then
        { s.workers w with pc := if itemVs.isSome then .service group else .idle }
      else
        -- the lock of another VA space is dropped first
        { s.workers w with
          held := none
          pc := match itemVs with
            | some vaSpace => .lock group vaSpace
            | none => .idle }))
  | .lock group vaSpace =>
    if s.writer vaSpace then none
    else some (s.setWorker w { s.workers w with held := some vaSpace, pc := .service group })
  | .service group => some ((s.use group).setWorker w { s.workers w with pc := .finish group })
  | .finish group => some ((s.use group).setWorker w { s.workers w with pc := .idle })

theorem setWorker_workers (s : LifeState n) (w : Fin n) (wk : LifeWorker) (w' : Fin n) :
    (s.setWorker w wk).workers w' = wk ∨ (s.setWorker w wk).workers w' = s.workers w' := by
  by_cases hw : w' = w
  · exact .inl (by rw [hw]; exact update_self ..)
  · exact .inr (update_of_ne hw ..)

/-- The batch was returned from, and all workers are done with it. -/
def Over (s : LifeState n) : Prop := s.pc = .returned ∧ ∀ w, (s.workers w).inBatch = false

instance (s : LifeState n) : Decidable s.Over := inferInstanceAs (Decidable (_ ∧ _))

end LifeState

def lifeStep {n : Nat} (batch : ServiceBatch) (cfg : ParallelConfig) (s : LifeState n) :
    LifeLabel n → Option (LifeState n)
  | .coord ans => s.coordStep ans batch cfg
  | .take w k =>
    if (s.workers w).inBatch ∧ (s.workers w).pc = .idle then
      s.grouping.groups[k]?.map fun group => s.setWorker w { s.workers w with pc := .read group }
    else none
  | .worker w seen => s.workerStep w seen
  | .leave w again =>
    if (s.workers w).pc = .idle then
      some (s.setWorker w { inBatch := again && (s.workers w).inBatch })
    else none
  | .downWrite vaSpace =>
    if s.writer vaSpace = false ∧ s.held ≠ some vaSpace ∧
        ∀ w, (s.workers w).held ≠ some vaSpace then
      some { s with writer := update s.writer vaSpace true }
    else none
  | .upWrite vaSpace => some { s with writer := update s.writer vaSpace false }
  | .destroy block =>
    if s.writer block.vaSpace then
      some { s with released := update s.released block (s.released block + 1) }
    else none

def lifeMachine (n : Nat) (batch : ServiceBatch) (cfg : ParallelConfig) :
    Machine (LifeState n) (LifeLabel n) where
  step := lifeStep batch cfg

def LifeState.begin (n : Nat) (batch : ServiceBatch) (writer : VaSpaceId → Bool)
    (released : VaBlock → Nat) : LifeState n where
  grouping := { fatalVaSpace := batch.fatalVaSpace }
  writer := writer
  released := released

/-! ## The condition -/

/-- The blocks the grouping loop keeps pointers to, each with the place it was found at. -/
def Grouping.pointers (g : Grouping) : List (VaBlock × Nat) :=
  g.groups.map (fun group => (group.vaBlock, group.firstFaultIndex)) ++
    g.currentBlock.toList.map fun block => (block, g.currentBlockFirstFault)

/-- No block is destroyed as long as the batch keeps a pointer to it. -/
def BlocksStay {n : Nat} (s : LifeState n) : LifeLabel n → Prop
  | .destroy block => s.Over ∨ ∀ p ∈ s.grouping.pointers, p.1 ≠ block
  | _ => True

instance {n : Nat} (s : LifeState n) : (l : LifeLabel n) → Decidable (BlocksStay s l)
  | .destroy _ => inferInstanceAs (Decidable (_ ∨ _))
  | .coord _ | .take .. | .worker .. | .leave .. | .downWrite _ | .upWrite _ => isTrue trivial

/-! ## Pointers of the grouping loop -/

section Pointers

variable {ans : BatchAnswers} {entries : Nat → FaultEntry} {i : Nat} {g : Grouping} {p : VaBlock × Nat}

theorem Grouping.mem_pointers : p ∈ g.pointers ↔
    (∃ group ∈ g.groups, (group.vaBlock, group.firstFaultIndex) = p) ∨
      (g.currentBlock = some p.1 ∧ g.currentBlockFirstFault = p.2) := by
  rw [pointers, List.mem_append, List.mem_map, List.mem_map]
  apply or_congr Iff.rfl
  constructor
  · rintro ⟨block, hblock, rfl⟩
    exact ⟨Option.mem_toList.1 hblock, rfl⟩
  · rintro ⟨hblock, hfirst⟩
    exact ⟨p.1, Option.mem_toList.2 hblock, by rw [hfirst]⟩

theorem Grouping.mem_pointers_of_group {group : BlockFaultGroup} (h : group ∈ g.groups) :
    (group.vaBlock, group.firstFaultIndex) ∈ g.pointers :=
  mem_pointers.2 (.inl ⟨group, h, rfl⟩)

theorem Grouping.mem_flush_groups {group : BlockFaultGroup} (h : group ∈ g.flush.groups) :
    (group.vaBlock, group.firstFaultIndex) ∈ g.pointers := by
  rw [flush] at h
  split at h
  next block hblock =>
    split at h
    · rcases List.mem_append.1 h with h | h
      · exact mem_pointers_of_group h
      · obtain rfl := List.mem_singleton.1 h
        exact mem_pointers.2 (.inr ⟨hblock, rfl⟩)
    · exact mem_pointers_of_group h
  next => exact mem_pointers_of_group h

theorem Grouping.flush_currentBlock (g : Grouping) : g.flush.currentBlock = g.currentBlock ∧
    g.flush.currentBlockFirstFault = g.currentBlockFirstFault := by
  rw [flush]
  split
  · split <;> exact ⟨rfl, rfl⟩
  · exact ⟨rfl, rfl⟩

theorem Grouping.mem_pointers_of_flush (h : p ∈ g.flush.pointers) : p ∈ g.pointers := by
  rcases mem_pointers.1 h with ⟨group, hg, rfl⟩ | hcurrent
  · exact mem_flush_groups hg
  · rw [g.flush_currentBlock.1, g.flush_currentBlock.2] at hcurrent
    exact mem_pointers.2 (.inr hcurrent)

theorem Grouping.mem_pointers_of_changeVaSpace {vaSpace : VaSpaceId}
    (h : p ∈ (g.changeVaSpace ans vaSpace).pointers) : p ∈ g.pointers := by
  rcases mem_pointers.1 h with ⟨group, hg, rfl⟩ | ⟨hcurrent, -⟩
  · exact mem_flush_groups hg
  · cases hcurrent

/-- The pointers of `g'` are those of `g` and the one to the block that was found at place `i`. -/
def Grouping.Finds (i : Nat) (g g' : Grouping) : Prop :=
  ∀ p ∈ g'.pointers, p ∈ g.pointers ∨ g'.currentBlock = some p.1 ∧ p.2 = i

theorem Grouping.locate_finds (addr : Nat) : g.Finds i (g.locate ans i addr) := by
  unfold locate
  split
  · exact fun p => .inl
  · split
    · split
      · exact fun p => .inl
      · split
        · exact fun p => .inl
        -- another block
        · intro p hp
          rcases mem_pointers.1 hp with ⟨group, hg, rfl⟩ | ⟨hblock, hfirst⟩
          · exact .inl (mem_flush_groups hg)
          · exact .inr ⟨hblock, hfirst.symm⟩
    · exact fun p => .inl

theorem groupFault_finds : g.Finds i (groupFault ans entries i g) := by
  -- the pointers that the loop has, and the one it finds
  have hcount : ∀ g : Grouping, g.Finds i
      (if (entries i).isFatal then { g with fatalVaSpace := g.fatalVaSpace.or g.vaSpace }
        else if g.gpuVaSpace.isNone then g else g.locate ans i (entries i).faultAddress) := by
    intro g
    split
    · exact fun p => .inl
    · split
      · exact fun p => .inl
      · exact Grouping.locate_finds _
  unfold groupFault
  dsimp only
  split
  · exact fun p => .inl
  next vaSpace _ =>
    split
    · exact hcount g
    · by_cases hgpu : (g.changeVaSpace ans vaSpace).gpuVaSpace.isNone
      · rw [if_pos hgpu]
        exact fun p hp => .inl (Grouping.mem_pointers_of_changeVaSpace hp)
      · rw [if_neg hgpu]
        exact fun p hp => (hcount _ p hp).imp_left Grouping.mem_pointers_of_changeVaSpace

end Pointers

/-! ## The invariant -/

section Invariant

variable {n : Nat} {ans : BatchAnswers} {batch : ServiceBatch} {cfg : ParallelConfig}
  {s t : LifeState n}

structure LifeInv (s : LifeState n) : Prop where
  uses : ∀ u ∈ s.uses, u.alive = true
  /-- The blocks that were found are there until the batch is over. -/
  kept : ¬ s.Over → ∀ p ∈ s.grouping.pointers, s.released p.1 = s.foundAt p.2
  places : ∀ i, s.pc.place = some i → ∀ p ∈ s.grouping.pointers, p.2 < i
  /-- A worker with an item of the batch is in the batch. -/
  items : ∀ w group, (s.workers w).pc.item = some group →
    (s.workers w).inBatch = true ∧ group ∈ s.grouping.groups
  started : ∀ w, (s.workers w).inBatch = true → s.pc = .dispatched ∨ s.pc = .returned

namespace LifeInv

theorem not_over_of_inBatch {w : Fin n} (h : (s.workers w).inBatch = true) : ¬ s.Over := by
  intro hover
  rw [hover.2 w] at h
  cases h

theorem begin (batch : ServiceBatch) (writer : VaSpaceId → Bool) (released : VaBlock → Nat) :
    LifeInv (LifeState.begin n batch writer released) :=
  ⟨nofun, fun _ => nofun, fun _ _ => nofun, nofun, nofun⟩

section

variable (h : LifeInv s)
include h

theorem use (hover : ¬ s.Over) {group : BlockFaultGroup} (hg : group ∈ s.grouping.groups) :
    ∀ u ∈ (s.use group).uses, u.alive = true := by
  intro u hu
  rcases List.mem_cons.1 hu with rfl | hu
  · exact decide_eq_true (h.kept hover _ (Grouping.mem_pointers_of_group hg))
  · exact h.uses u hu

/-- Before the dispatch no worker is in the batch. -/
theorem not_inBatch (hpc : s.pc ≠ .dispatched) (hpc' : s.pc ≠ .returned) (w : Fin n) :
    (s.workers w).inBatch ≠ true := fun hin => (h.started w hin).elim hpc hpc'

theorem phaseOne (hpc : s.pc ≠ .dispatched) (hpc' : s.pc ≠ .returned)
    (huses : ∀ u ∈ t.uses, u.alive = true) (hworkers : t.workers = s.workers)
    (hkept : ∀ p ∈ t.grouping.pointers, t.released p.1 = t.foundAt p.2)
    (hplaces : ∀ i, t.pc.place = some i → ∀ p ∈ t.grouping.pointers, p.2 < i) : LifeInv t where
  uses := huses
  kept _ := hkept
  places := hplaces
  items w group hitem := by
    rw [hworkers] at hitem
    exact absurd (h.items w group hitem).1 (h.not_inBatch hpc hpc' w)
  started w hin := by
    rw [hworkers] at hin
    exact absurd hin (h.not_inBatch hpc hpc' w)

theorem groupFault {i : Nat} (hplace : s.pc.place = some i) (held : Option VaSpaceId) :
    LifeInv { s.groupFault ans batch i with held := held } := by
  have hpc : s.pc ≠ .dispatched := by rintro heq; rw [heq] at hplace; cases hplace
  have hpc' : s.pc ≠ .returned := by rintro heq; rw [heq] at hplace; cases hplace
  refine h.phaseOne (t := { s.groupFault ans batch i with held := held }) hpc hpc' h.uses rfl ?_ ?_
  · intro p hp
    show s.released p.1 = update s.foundAt i _ p.2
    rcases groupFault_finds p hp with hold | ⟨hblock, rfl⟩
    -- found earlier, so it is still there
    · rw [update_of_ne (h.places i hplace p hold).ne]
      exact h.kept (fun hover => hpc' hover.1) p hold
    -- found now
    · rw [update_self, hblock]
      rfl
  · rintro j hj p hp
    obtain rfl : i + 1 = j := Option.some.inj hj
    rcases groupFault_finds p hp with hold | ⟨-, rfl⟩
    · exact (h.places i hplace p hold).trans (Nat.lt_succ_self i)
    · exact Nat.lt_succ_self _

theorem coordStep (hstep : s.coordStep ans batch cfg = some t) : LifeInv t := by
  have hkept := fun hpc : s.pc ≠ .returned => h.kept fun hover => hpc hover.1
  cases hpc : s.pc <;> simp only [LifeState.coordStep, hpc] at hstep
  case group i =>
    have hmove := h.phaseOne (t := t) (by simp [hpc]) (by simp [hpc])
    have hplaces := h.places i (by rw [hpc]; rfl)
    specialize hkept (by simp [hpc])
    split at hstep
    · split at hstep
      · cases hstep
        exact h.groupFault (by rw [hpc]; rfl) s.held
      · cases hstep
        exact hmove h.uses rfl hkept fun j hj => Option.some.inj hj ▸ hplaces
    · cases hstep
      refine hmove h.uses rfl (fun p hp => hkept p (Grouping.mem_pointers_of_flush hp)) fun j hj => ?_
      cases hpath : cfg.path s.grouping.flush.groups.length <;>
        simp [hpath, LifePc.serve, LifePc.place] at hj
  case acquire i =>
    split at hstep
    · cases hstep
    · cases hstep
      exact h.groupFault (by rw [hpc]; rfl) _
  case release =>
    specialize hkept (by simp [hpc])
    cases hstep
    refine ⟨h.uses, fun _ => hkept, nofun, fun w group hitem => ?_, fun _ _ => .inl rfl⟩
    exact ⟨rfl, (h.items w group hitem).2⟩
  case dispatched =>
    specialize hkept (by simp [hpc])
    cases hstep
    exact ⟨h.uses, fun _ => hkept, nofun, h.items, fun _ _ => .inr rfl⟩
  case inline k =>
    have hmove := h.phaseOne (t := t) (by simp [hpc]) (by simp [hpc])
    specialize hkept (by simp [hpc])
    split at hstep
    next group hg =>
      cases hstep
      refine hmove (h.use (fun hover => ?_) (List.mem_of_getElem? hg)) rfl hkept nofun
      rw [hover.1] at hpc
      cases hpc
    next =>
      cases hstep
      exact hmove h.uses rfl hkept nofun
  case returned =>
    cases hstep

/-- A worker in the batch comes to an item, goes on with it or is done with it, and may
access its block. -/
theorem move {w : Fin n} {group : BlockFaultGroup} {wk : LifeWorker}
    (ht : t = (s.use group).setWorker w wk ∨ t = s.setWorker w wk)
    (hin : (s.workers w).inBatch = true) (hg : group ∈ s.grouping.groups) (hwk : wk.inBatch = true)
    (hitem : ∀ group', wk.pc.item = some group' → group' = group) : LifeInv t := by
  have hover := not_over_of_inBatch hin
  have hitems : ∀ w' group', ((s.setWorker w wk).workers w').pc.item = some group' →
      ((s.setWorker w wk).workers w').inBatch = true ∧ group' ∈ s.grouping.groups := by
    intro w' group' hitem'
    rcases s.setWorker_workers w wk w' with heq | heq
    · rw [heq] at hitem' ⊢
      exact ⟨hwk, hitem group' hitem' ▸ hg⟩
    · rw [heq] at hitem' ⊢
      exact h.items w' group' hitem'
  have hstarted : ∀ w', ((s.setWorker w wk).workers w').inBatch = true →
      s.pc = .dispatched ∨ s.pc = .returned := by
    intro w' hin'
    rcases s.setWorker_workers w wk w' with heq | heq
    · exact h.started w hin
    · rw [heq] at hin'
      exact h.started w' hin'
  -- with or without an access to the block
  rcases ht with rfl | rfl
  · exact ⟨h.use hover hg, fun _ => h.kept hover, h.places, hitems, hstarted⟩
  · exact ⟨h.uses, fun _ => h.kept hover, h.places, hitems, hstarted⟩

theorem workerStep {w : Fin n} {seen : Option VaSpaceId} (hstep : s.workerStep w seen = some t) :
    LifeInv t := by
  unfold LifeState.workerStep at hstep
  split at hstep
  next => cases hstep
  next group hpc =>
    obtain ⟨hin, hg⟩ := h.items w group (by rw [hpc]; rfl)
    cases hstep
    -- whatever VA space was read
    generalize (if s.alive group = true then some group.vaBlock.vaSpace else seen) = itemVs
    refine h.move (.inl rfl) hin hg ?_ fun group' hitem => ?_
    · split <;> exact hin
    · split at hitem <;> dsimp only at hitem <;> split at hitem
      · exact (Option.some.inj hitem).symm
      · cases hitem
      · exact (Option.some.inj hitem).symm
      · cases hitem
  next group vaSpace hpc =>
    obtain ⟨hin, hg⟩ := h.items w group (by rw [hpc]; rfl)
    split at hstep
    · cases hstep
    · cases hstep
      exact h.move (.inr rfl) hin hg hin fun _ hitem => (Option.some.inj hitem).symm
  next group hpc =>
    obtain ⟨hin, hg⟩ := h.items w group (by rw [hpc]; rfl)
    cases hstep
    exact h.move (.inl rfl) hin hg hin fun _ hitem => (Option.some.inj hitem).symm
  next group hpc =>
    obtain ⟨hin, hg⟩ := h.items w group (by rw [hpc]; rfl)
    cases hstep
    exact h.move (.inl rfl) hin hg hin nofun

theorem leave (w : Fin n) (again : Bool) :
    LifeInv (s.setWorker w { inBatch := again && (s.workers w).inBatch }) := by
  have hother := s.setWorker_workers w { inBatch := again && (s.workers w).inBatch }
  refine ⟨h.uses, fun hover => h.kept fun hover' => hover ⟨hover'.1, fun w' => ?_⟩, h.places,
    fun w' group hitem => ?_, fun w' hin => ?_⟩
  · rcases hother w' with heq | heq
    · rw [heq, hover'.2 w, Bool.and_false]
    · rw [heq, hover'.2 w']
  · rcases hother w' with heq | heq
    · rw [heq] at hitem
      cases hitem
    · rw [heq] at hitem ⊢
      exact h.items w' group hitem
  · rcases hother w' with heq | heq
    · rw [heq] at hin
      exact h.started w (Bool.and_eq_true_iff.1 hin).2
    · rw [heq] at hin
      exact h.started w' hin

/-- A block that is destroyed is not one of the batch. -/
theorem destroy {block : VaBlock} (hstay : s.Over ∨ ∀ p ∈ s.grouping.pointers, p.1 ≠ block) :
    LifeInv { s with released := update s.released block (s.released block + 1) } where
  uses := h.uses
  kept hover p hp := (update_of_ne (hstay.resolve_left hover p hp) _ _).trans (h.kept hover p hp)
  places := h.places
  items := h.items
  started := h.started

theorem step {l : LifeLabel n} (hstay : BlocksStay s l) (hstep : lifeStep batch cfg s l = some t) :
    LifeInv t := by
  cases l with
  | coord ans => exact h.coordStep hstep
  | take w k =>
    obtain ⟨⟨hin, -⟩, hstep⟩ := Option.ite_none_right_eq_some.1 hstep
    obtain ⟨group, hg, rfl⟩ := Option.map_eq_some_iff.1 hstep
    exact h.move (.inr rfl) hin (List.mem_of_getElem? hg) hin fun _ hitem =>
      (Option.some.inj hitem).symm
  | worker w seen => exact h.workerStep hstep
  | leave w again =>
    obtain ⟨-, hstep⟩ := Option.ite_none_right_eq_some.1 hstep
    cases hstep
    exact h.leave w again
  | downWrite vaSpace =>
    obtain ⟨-, hstep⟩ := Option.ite_none_right_eq_some.1 hstep
    cases hstep
    exact ⟨h.uses, h.kept, h.places, h.items, h.started⟩
  | upWrite vaSpace =>
    cases hstep
    exact ⟨h.uses, h.kept, h.places, h.items, h.started⟩
  | destroy block =>
    obtain ⟨-, hstep⟩ := Option.ite_none_right_eq_some.1 hstep
    cases hstep
    exact h.destroy hstay

end

end LifeInv

end Invariant

/-! ## Main result -/

/-- For every batch, whatever the lookups find, and every interleaving of the coordinator, the workers
and the writers, with a wait that may expire: if no block is destroyed as long as the batch keeps a
pointer to it, then no block that is accessed was released since it was found. -/
theorem blocks_alive_in_use {n : Nat} (batch : ServiceBatch) (cfg : ParallelConfig)
    (writer : VaSpaceId → Bool) (released : VaBlock → Nat) (ls : List (LifeLabel n))
    (s : LifeState n)
    (hstay : (lifeMachine n batch cfg).Meets BlocksStay (.begin n batch writer released) ls)
    (hrun : (lifeMachine n batch cfg).run (.begin n batch writer released) ls = some s) :
    ∀ u ∈ s.uses, u.alive = true :=
  ((lifeMachine n batch cfg).run_invariant (fun _ _ _ h hstay hstep => h.step hstay hstep)
    (LifeInv.begin batch writer released) hstay hrun).uses

local instance soleWorker_neZero : NeZero 1 := ⟨Nat.one_ne_zero⟩

/-- Phase 1 over a batch of one fault, and the dispatch. -/
def dispatchOne : List (LifeLabel 1) := List.replicate 4 (.coord locatedBatch.ans)

/-- The wait expires before the worker has come to the item. A writer waits until the worker is done
with the batch. -/
def patientWriter : List (LifeLabel 1) :=
  dispatchOne ++ [.coord locatedBatch.ans, .take 0 0, .worker 0 none, .worker 0 none, .worker 0 none,
    .worker 0 none, .leave 0 false, .downWrite 0, .destroy firstBlock, .upWrite 0]

/-- The condition can be met: the block is accessed three times and destroyed afterwards. -/
theorem patient_writer_after_use :
    (((lifeMachine 1 locatedBatch.batch {}).run
        (.begin 1 locatedBatch.batch (fun _ => false) fun _ => 0) patientWriter).map
          fun s => (s.uses, s.released firstBlock)) =
      some ([⟨0, true⟩, ⟨0, true⟩, ⟨0, true⟩], 1) ∧
    ∀ s, (lifeMachine 1 locatedBatch.batch {}).run
        (.begin 1 locatedBatch.batch (fun _ => false) fun _ => 0) patientWriter = some s →
      ∀ u ∈ s.uses, u.alive = true :=
  ⟨by decide, fun s => blocks_alive_in_use locatedBatch.batch {} (fun _ => false) (fun _ => 0)
    patientWriter s (by decide)⟩

/-- The writer comes as soon as the lock is dropped. -/
def eagerWriter : List (LifeLabel 1) :=
  dispatchOne ++ [.downWrite 0, .destroy firstBlock, .upWrite 0, .take 0 0, .worker 0 none]

/-- The worker reads the VA space through a pointer to a block that was released. -/
theorem released_block_read :
    ((lifeMachine 1 locatedBatch.batch {}).run
        (.begin 1 locatedBatch.batch (fun _ => false) fun _ => 0) eagerWriter).map LifeState.uses =
      some [⟨0, false⟩] ∧
    ¬ ∀ s, (lifeMachine 1 locatedBatch.batch {}).run
        (.begin 1 locatedBatch.batch (fun _ => false) fun _ => 0) eagerWriter = some s →
      ∀ u ∈ s.uses, u.alive = true := by
  refine ⟨by decide, fun hall => ?_⟩
  exact absurd (hall _ rfl ⟨0, false⟩ (by decide +kernel)) Bool.false_ne_true

end FaultMesh
