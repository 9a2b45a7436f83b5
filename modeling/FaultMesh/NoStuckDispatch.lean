import FaultMesh.PoolInvariant
import FaultMesh.Wakeups

/-!
# No stuck dispatch

A coordinator that waits for `all_done` waits for workers to claim the numbers of its dispatch. The
dispatch is stuck if a number is left and all workers are parked: asleep, or spinning on a
generation that the coordinator changes only after its wait.
-/

namespace FaultMesh

open Function (update update_self update_of_ne)
open Coord Worker

/-! ## Being stuck -/

/-- The dispatch is for a later segment of a continuous batch. -/
def Coord.goesOn (co : Coord) : Bool := co.continuous && !co.isFirstSeg

/-- The worker stands where the next dispatch finds it: on the wait queue, in the spin of persistent
workers with the current generation, or in the spin of the continuous batch that goes on. -/
def Worker.rested (cfg : PoolConfig) (p : Pool) (co : Coord) (wk : Worker) : Bool :=
  match wk.pc with
  | .waiting | .asleep => true
  | .spinSegGen | .spinFinished | .spinBatchGen =>
    co.goesOn && wk.lastGen = p.segGeneration && wk.myBatchGen = p.batchGen
  | .spinPersistent => cfg.persistentSpin && wk.lastPersistent = p.persistentGen
  | _ => false

/-- Workers may spin: persistently, or since the first continuous batch. -/
def MaySpin (cfg : PoolConfig) (p : Pool) : Prop := cfg.persistentSpin = true ∨ 0 < p.batchGen

instance (cfg : PoolConfig) (p : Pool) : Decidable (MaySpin cfg p) :=
  inferInstanceAs (Decidable (_ ∨ _))

/-- Coordinators use the pool one at a time and a wake-up takes sleepers. If workers may spin, all
have come to rest when a coordinator resets the counter. -/
def RestGuard (cfg : PoolConfig) (s : PoolState) : PoolLabel → Prop
  | .submit c job => OneAtATime cfg s (.submit c job)
  | .coord c woken =>
    (∀ w ∈ woken, (s.workers w).pc = .asleep) ∧
      ((s.coords c).pc = .resetCounter → MaySpin cfg s.pool →
        ∀ w < cfg.numWorkers, (s.workers w).rested cfg s.pool (s.coords c))
  | .worker _ => True

instance (cfg : PoolConfig) (s : PoolState) : ∀ l, Decidable (RestGuard cfg s l)
  | .submit c job => inferInstanceAs (Decidable (OneAtATime cfg s (.submit c job)))
  | .coord c woken =>
    inferInstanceAs (Decidable
      ((∀ w ∈ woken, (s.workers w).pc = .asleep) ∧
        ((s.coords c).pc = .resetCounter → MaySpin cfg s.pool →
          ∀ w < cfg.numWorkers, (s.workers w).rested cfg s.pool (s.coords c) = true)))
  | .worker _ => .isTrue trivial

/-! ## What the coordinator has written -/

/-- From the set-up of its first segment to the end of a continuous batch. -/
def Coord.inBatch (co : Coord) : Bool :=
  co.continuous && match co.pc with
    | .writeGroups | .writeQueueBase | .writeNumActive | .writeNumGroups | .resetCounter
    | .setRemaining | .reinitDone | .setReady | .bumpPersistent | .wake | .wakeMore | .bumpSegGen
    | .waitDone | .readContinuous | .clearReady | .collect | .checkContinuous
    | .finishSegments => true
    | _ => false

/-- `batch_ready` is set: while a dispatch is announced and waited for, and from the first segment
of a continuous batch to the last. -/
def Coord.announced (co : Coord) : Bool :=
  match co.pc with
  | .writeGroups | .writeQueueBase | .writeNumActive | .writeNumGroups | .resetCounter
  | .setRemaining | .reinitDone => co.goesOn
  | .bumpPersistent | .wake | .wakeMore | .bumpSegGen | .waitDone => true
  | .readContinuous | .clearReady | .collect | .checkContinuous | .finishSegments => co.continuous
  | _ => false

def CoordPc.preparing : CoordPc → Bool
  | .writeGpu | .writeSnapshot | .writeBatchCtx | .writeAllGroups | .writeAllCount | .readAllGroups
  | .contActivate | .contBatchGen | .contUnfinish => true
  | _ => false

def CoordPc.numbered : CoordPc → Bool
  | .writeNumGroups | .resetCounter | .setRemaining | .reinitDone | .setReady | .bumpPersistent
  | .wake | .wakeMore | .bumpSegGen | .waitDone => true
  | _ => false

def CoordPc.begun : CoordPc → Bool
  | .reinitDone | .setReady | .bumpPersistent | .wake | .wakeMore | .bumpSegGen | .waitDone => true
  | _ => false

/-- What the pool holds at each point of a coordinator, whatever the workers do. -/
structure CoordFacts (cfg : PoolConfig) (p : Pool) (d : Dispatch) (co : Coord) : Prop where
  first : co.pc.preparing → co.isFirstSeg = true
  activated : co.pc = .contBatchGen ∨ co.pc = .contUnfinish → p.continuousActive = true
  started : co.pc = .contUnfinish → 0 < p.batchGen
  batch : co.inBatch → p.continuousActive = true ∧ p.segFinished = false ∧ 0 < p.batchGen
  ready : co.announced → p.batchReady = true
  continuous : co.pc = .wakeMore ∨ co.pc = .bumpSegGen → co.continuous = true
  saw : co.pc = .clearReady → co.continuous = true → co.sawContinuous = true
  numActive : co.pc.numbered → p.batchNumActive = cfg.numActive co.segCount
  items : co.pc.begun → d.items = co.segCount

section Facts

variable {cfg : PoolConfig} {c : Nat} {p p' : Pool} {d : Dispatch} {co co' : Coord}

section

variable (h : CoordFacts cfg p d co) (hacc : coordAccess cfg c p co = some (p', co'))
include h hacc

theorem CoordFacts.counted :
    (co'.pc.preparing → co'.isFirstSeg = true) ∧
      (co'.pc.numbered → p'.batchNumActive = cfg.numActive co'.segCount) ∧
      (co'.pc.begun → (d.begin c co).items = co'.segCount) := by
  have hfirst := h.first
  have hnumActive := h.numActive
  have hitems := h.items
  cases hpc : co.pc
  all_goals
    simp only [coordAccess, hpc] at hacc
    try split at hacc
  all_goals
    cases hacc
  -- at each point: the facts known there, then the facts due at the next
  all_goals
    simp only [hpc, CoordPc.preparing, CoordPc.numbered, CoordPc.begun, forall_const,
      Bool.false_eq_true, false_implies] at hfirst hnumActive hitems
    refine ⟨?_, ?_, ?_⟩ <;>
      simp [CoordPc.preparing, CoordPc.numbered, CoordPc.begun, Dispatch.begin, hpc, segCount,
        Coord.segment, Coord.nextSegment] <;>
      grind [segCount]

theorem CoordFacts.active :
    (co'.pc = .contBatchGen ∨ co'.pc = .contUnfinish → p'.continuousActive = true) ∧
      (co'.pc = .contUnfinish → 0 < p'.batchGen) ∧
      (co'.inBatch → p'.continuousActive = true ∧ p'.segFinished = false ∧ 0 < p'.batchGen) := by
  have hactivated := h.activated
  have hstarted := h.started
  have hbatch := h.batch
  cases hpc : co.pc
  all_goals
    simp only [coordAccess, hpc] at hacc
    try split at hacc
  all_goals
    cases hacc
  all_goals
    simp only [hpc, inBatch, reduceCtorEq, or_false, or_true, forall_const, false_implies,
      Bool.false_eq_true, Bool.and_true, Bool.and_false] at hactivated hstarted hbatch
    refine ⟨?_, ?_, ?_⟩ <;> simp [inBatch, Coord.nextSegment] <;> grind

theorem CoordFacts.announce :
    (co'.announced → p'.batchReady = true) ∧
      (co'.pc = .wakeMore ∨ co'.pc = .bumpSegGen → co'.continuous = true) ∧
      (co'.pc = .clearReady → co'.continuous = true → co'.sawContinuous = true) := by
  have hfirst := h.first
  have hready := h.ready
  have hbatch := h.batch
  have hcontinuous := h.continuous
  have hsaw := h.saw
  cases hpc : co.pc
  all_goals
    simp only [coordAccess, hpc] at hacc
    try split at hacc
  all_goals
    cases hacc
  all_goals
    simp only [hpc, CoordPc.preparing, inBatch, announced, goesOn, reduceCtorEq,
      or_false, or_true, forall_const, false_implies, Bool.false_eq_true, Bool.and_true,
      Bool.and_false] at hfirst hready hbatch hcontinuous hsaw
    refine ⟨?_, ?_, ?_⟩ <;> simp [announced, goesOn, Coord.nextSegment] <;> grind

/-- The coordinator writes what its next point needs. -/
theorem CoordFacts.coordAccess : CoordFacts cfg p' (d.begin c co) co' := by
  obtain ⟨hfirst, hnumActive, hitems⟩ := h.counted hacc
  obtain ⟨hactivated, hstarted, hbatch⟩ := h.active hacc
  obtain ⟨hready, hcontinuous, hsaw⟩ := h.announce hacc
  exact ⟨hfirst, hactivated, hstarted, hbatch, hready, hcontinuous, hsaw, hnumActive, hitems⟩

end

end Facts

/-! ## The workers of a dispatch -/

def Signals.rung (cfg : PoolConfig) (σ : Signals) : Signals :=
  { σ with
    ready := true
    persistentGen := if cfg.persistentSpin then σ.persistentGen + 1 else σ.persistentGen }

/-- The fields after the next segment is announced. -/
def Signals.nextSegment (σ : Signals) : Signals := { σ with segGen := σ.segGen + 1 }

/-- The fields as they will be when the coordinator waits. -/
def Coord.pending (cfg : PoolConfig) (co : Coord) (σ : Signals) : Signals :=
  match co.pc with
  | .setRemaining | .reinitDone => if co.goesOn then σ.nextSegment else σ.rung cfg
  | .setReady => σ.rung cfg
  | .bumpPersistent => { σ with persistentGen := σ.persistentGen + 1 }
  | .bumpSegGen => σ.nextSegment
  | _ => σ

/-- The counter is reset and sleepers are still to be woken. -/
def Coord.calls (co : Coord) : Bool :=
  match co.pc with
  | .setRemaining | .reinitDone => !co.goesOn
  | .setReady | .bumpPersistent | .wake => true
  | _ => false

/-- The counter is reset and all workers that the dispatch needs are on their way. -/
def Coord.expects (co : Coord) : Bool :=
  match co.pc with
  | .setRemaining | .reinitDone => co.goesOn
  | .bumpSegGen | .wakeMore | .waitDone => true
  | _ => false

/-- A continuous batch after its first wake-ups. -/
def Coord.underway (co : Coord) : Bool :=
  co.continuous && match co.pc with
    | .writeGroups | .writeQueueBase | .writeNumActive | .writeNumGroups | .resetCounter
    | .setRemaining | .reinitDone => !co.isFirstSeg
    | .bumpSegGen | .waitDone | .readContinuous | .clearReady | .collect | .checkContinuous
    | .finishSegments => true
    | _ => false

def Worker.awake (wk : Worker) : Bool := wk.pc ≠ .asleep

/-- Every number of a dispatch was claimed or finds a worker. -/
structure CallInv (cfg : PoolConfig) (p : Pool) (workers : Nat → Worker) (co : Coord) : Prop where
  called : MaySpin cfg p → co.calls → cfg.numWorkers ≤ p.batchWorkerCounter +
    census cfg.numWorkers workers (orAsleep (comes (co.pending cfg p.signals)))
  expected : MaySpin cfg p → co.expects → p.batchNumActive ≤ p.batchWorkerCounter +
    census cfg.numWorkers workers (comes (co.pending cfg p.signals))
  -- a continuous batch keeps the workers it has
  joining : co.continuous = true → co.calls ∨ co.pc = .wakeMore → cfg.numWorkers ≤
    census cfg.numWorkers workers (orAsleep (joins (co.pending cfg p.signals)))
  someJoined : co.pc = .wakeMore →
    p.batchNumActive ≤ census cfg.numWorkers workers (joins p.signals)
  joined : co.underway → cfg.maxActive ≤ census cfg.numWorkers workers (joins p.signals)
  -- workers that only sleep need no counting
  plain : ¬ MaySpin cfg p → co.pc ≠ .contBatchGen →
    p.continuousActive = false ∧ ∀ w < cfg.numWorkers, (workers w).plain
  awake : ¬ MaySpin cfg p → co.pc = .waitDone → p.batchWorkerCounter < p.batchNumActive →
    0 < census cfg.numWorkers workers awake

theorem PoolConfig.maxActive_le (cfg : PoolConfig) : cfg.maxActive ≤ cfg.numWorkers := by
  unfold maxActive
  split
  · exact Nat.min_le_right ..
  · exact Nat.le_refl _

theorem PoolConfig.numActive_le (cfg : PoolConfig) (items : Nat) :
    cfg.numActive items ≤ cfg.maxActive := Nat.min_le_left ..

theorem Coord.pending_ahead (cfg : PoolConfig) (co : Coord) (σ : Signals) :
    σ.Ahead (co.pending cfg σ) := by
  unfold pending
  split
  all_goals try split
  all_goals exact ⟨rfl, rfl⟩

theorem Coord.announced_of_expects {co : Coord} (h : co.expects) : co.announced := by
  unfold expects at h
  unfold announced
  split at h <;> simp_all

theorem Coord.announced_of_underway {co : Coord} (h : co.underway) : co.announced ∧ co.inBatch := by
  unfold underway at h
  unfold announced inBatch goesOn
  rw [Bool.and_eq_true] at h
  obtain ⟨hcont, hpc⟩ := h
  split at hpc <;> simp_all

theorem Coord.inBatch_of_calls {co : Coord} (hcont : co.continuous = true)
    (h : co.calls ∨ co.pc = .wakeMore) : co.inBatch := by
  unfold calls at h
  unfold inBatch
  split at h <;> simp_all

/-! ### Steps of a worker -/

variable {wk : Worker}

theorem census_claim {cfg : PoolConfig} {p p' : Pool} {workers : Nat → Worker} {w : Nat}
    {P : Worker → Bool} (hacc : workerAccess cfg p (workers w) = some (p', wk))
    (hP : (workers w).pc ≠ .claim → P (workers w) → P wk) :
    p.batchWorkerCounter + census cfg.numWorkers workers P ≤
      p'.batchWorkerCounter + census cfg.numWorkers (update workers w wk) P := by
  have hcounter := workerAccess_counter hacc
  by_cases hpc : (workers w).pc = .claim
  · have := @census_update_le_succ _ cfg.numWorkers workers P w wk
    rw [if_pos hpc] at hcounter
    omega
  · have := @census_update_mono _ cfg.numWorkers workers P w wk (hP hpc)
    rw [if_neg hpc] at hcounter
    omega

theorem workerAccess_not_asleep {cfg : PoolConfig} {p : Pool} {r : Pool × Worker}
    (h : workerAccess cfg p wk = some r) : wk.pc ≠ .asleep := by
  intro hpc
  rw [workerAccess, hpc] at h
  cases h

theorem orAsleep_step {cfg : PoolConfig} {p : Pool} {wk' : Worker} {r : Pool × Worker}
    {P : Worker → Bool} {Q : Prop} (hacc : workerAccess cfg p wk = some r)
    (hstep : P wk → P wk' ∨ wk'.pc = .asleep ∧ Q) (h : orAsleep P wk) : orAsleep P wk' := by
  have hP : P wk := by
    simpa [orAsleep, workerAccess_not_asleep hacc] using h
  rcases hstep hP with hP' | ⟨hpc, -⟩
  · simp [orAsleep, hP']
  · simp [orAsleep, hpc]

theorem awake_step {p : Pool} {wk' : Worker} {P : Worker → Bool} (hready : p.batchReady = true)
    (hstep : P wk → P wk' ∨ wk'.pc = .asleep ∧ p.batchReady = false) (h : P wk) : P wk' := by
  rcases hstep h with hP' | ⟨-, hnot⟩
  · exact hP'
  · rw [hready] at hnot
    cases hnot

theorem workerAccess_asleep {cfg : PoolConfig} {p p' : Pool} {wk' : Worker}
    (hready : p.batchReady = true) (h : workerAccess cfg p wk = some (p', wk')) :
    wk'.pc ≠ .asleep := by
  cases hpc : wk.pc
  case asleep => exact absurd hpc (workerAccess_not_asleep h)
  all_goals
    simp only [workerAccess, hpc] at h
    try split at h
  all_goals
    cases h
    grind [loopFrom]

theorem MaySpin.congr {cfg : PoolConfig} {p p' : Pool} (h : p'.batchGen = p.batchGen) :
    MaySpin cfg p' ↔ MaySpin cfg p := by
  rw [MaySpin, MaySpin, h]

theorem CallInv.workerAccess {cfg : PoolConfig} {p p' : Pool} {d : Dispatch}
    {workers : Nat → Worker} {co : Coord} {w : Nat} (h : CallInv cfg p workers co)
    (hf : CoordFacts cfg p d co) (hacc : workerAccess cfg p (workers w) = some (p', wk)) :
    CallInv cfg p' (update workers w wk) co := by
  have hsig := workerAccess_signals hacc
  have hgen : p'.batchGen = p.batchGen := congrArg Signals.batchGen hsig
  have hactive : p'.continuousActive = p.continuousActive := congrArg Signals.active hsig
  have hnum : p'.batchNumActive = p.batchNumActive :=
    congrArg BatchFields.batchNumActive (workerAccess_batchFields hacc)
  have hahead := co.pending_ahead cfg p.signals
  have hcomes := fun hclaim : (workers w).pc ≠ .claim => comes_step hahead hclaim hacc
  -- of a continuous batch nobody leaves
  have hjoins : ∀ σ : Signals, σ.batchGen = p.batchGen → co.inBatch →
      (workers w).joins σ → wk.joins σ ∨ wk.pc = .asleep ∧ p.batchReady = false := by
    intro σ hσ hbatch
    obtain ⟨hact, hfin, -⟩ := hf.batch hbatch
    exact joins_step hσ hact hfin hacc
  constructor
  · intro hspin hcalls
    rw [hsig]
    refine le_trans (h.called ((MaySpin.congr hgen).1 hspin) hcalls) (census_claim hacc ?_)
    exact fun hclaim => orAsleep_step hacc (hcomes hclaim)
  · intro hspin hexp
    rw [hsig, hnum]
    refine le_trans (h.expected ((MaySpin.congr hgen).1 hspin) hexp) (census_claim hacc ?_)
    exact fun hclaim => awake_step (hf.ready (announced_of_expects hexp)) (hcomes hclaim)
  · intro hcont hcalls
    rw [hsig]
    refine le_trans (h.joining hcont hcalls) (census_update_mono ?_)
    exact orAsleep_step hacc (hjoins _ hahead.batchGen (inBatch_of_calls hcont hcalls))
  · intro hmore
    rw [hsig, hnum]
    have hcont := hf.continuous (.inl hmore)
    refine le_trans (h.someJoined hmore) (census_update_mono ?_)
    exact awake_step (hf.ready (by simp [announced, hmore]))
      (hjoins _ rfl (inBatch_of_calls hcont (.inr hmore)))
  · intro hunder
    rw [hsig]
    obtain ⟨hann, hbatch⟩ := announced_of_underway hunder
    refine le_trans (h.joined hunder) (census_update_mono ?_)
    exact awake_step (hf.ready hann) (hjoins _ rfl hbatch)
  · intro hspin hpc
    have hspin' : ¬ MaySpin cfg p := fun hs => hspin ((MaySpin.congr hgen).2 hs)
    obtain ⟨hact, hall⟩ := h.plain hspin' hpc
    have hnospin : cfg.persistentSpin = false := Bool.eq_false_iff.2 fun hs => hspin' (.inl hs)
    refine ⟨hactive.trans hact, fun w' hw' => ?_⟩
    by_cases hw : w' = w
    · subst hw
      rw [update_self]
      exact plain_step hnospin hact hacc (hall w' hw')
    · rw [update_of_ne hw]
      exact hall w' hw'
  · intro hspin hpc hlt
    have hspin' : ¬ MaySpin cfg p := fun hs => hspin ((MaySpin.congr hgen).2 hs)
    have hcounter := workerAccess_counter hacc
    have hready := hf.ready (by simp [announced, hpc])
    refine lt_of_lt_of_le (h.awake hspin' hpc (by omega)) (census_update_mono fun _ => ?_)
    exact decide_eq_true (workerAccess_asleep hready hacc)

/-! ### Steps of a coordinator -/

/-- A step that neither resets the counter nor wakes workers. -/
structure CallStep (cfg : PoolConfig) (p p' : Pool) (co co' : Coord) : Prop where
  calls : co'.calls → co.calls ∧ co'.continuous = co.continuous
  expects : co'.expects → co.expects
  pending : co'.calls ∨ co'.expects → co'.pending cfg p'.signals = co.pending cfg p.signals ∧
    p'.batchWorkerCounter = p.batchWorkerCounter ∧ p'.batchNumActive = p.batchNumActive
  notMore : co'.pc ≠ .wakeMore
  underway : co'.underway → co.underway ∧ p'.batchReady = p.batchReady ∧
    p'.persistentGen = p.persistentGen ∧ p'.batchGen = p.batchGen
  waits : co'.pc = .waitDone → co.pc = .bumpSegGen
  batchGen : p.batchGen ≤ p'.batchGen
  plain : co'.pc ≠ .contBatchGen → p'.batchGen = 0 → co.pc ≠ .contBatchGen ∧
    (p.continuousActive = false → p'.continuousActive = false)

section Quiet

variable {cfg : PoolConfig} {c : Nat} {p p' : Pool} {d : Dispatch} {co co' : Coord}

theorem coordAccess_pending (hf : CoordFacts cfg p d co) (hreset : co.pc ≠ .resetCounter)
    (hwake : co.pc ≠ .wake) (hmore : co.pc ≠ .wakeMore)
    (hacc : coordAccess cfg c p co = some (p', co')) :
    (co'.calls → co.calls ∧ co'.continuous = co.continuous) ∧ (co'.expects → co.expects) ∧
      (co'.calls ∨ co'.expects → co'.pending cfg p'.signals = co.pending cfg p.signals ∧
        p'.batchWorkerCounter = p.batchWorkerCounter ∧ p'.batchNumActive = p.batchNumActive) := by
  have hbump := hf.continuous
  have hfirst := hf.first
  cases hpc : co.pc
  case resetCounter => exact absurd hpc hreset
  case wake => exact absurd hpc hwake
  case wakeMore => exact absurd hpc hmore
  all_goals
    simp only [coordAccess, hpc] at hacc
    try split at hacc
  all_goals
    cases hacc
  all_goals
    simp only [hpc, CoordPc.preparing, reduceCtorEq, or_true, or_false, forall_const,
      false_implies] at hbump hfirst
    refine ⟨?_, ?_, ?_⟩ <;>
      simp [calls, expects, pending, goesOn, Signals.rung,
        Signals.nextSegment, Pool.signals, Pool.setItem, hpc, Coord.nextSegment] <;>
      grind

theorem coordAccess_underway (hf : CoordFacts cfg p d co) (hwake : co.pc ≠ .wake)
    (hmore : co.pc ≠ .wakeMore) (hacc : coordAccess cfg c p co = some (p', co')) :
    co'.pc ≠ .wakeMore ∧
      (co'.underway → co.underway ∧ p'.batchReady = p.batchReady ∧
        p'.persistentGen = p.persistentGen ∧ p'.batchGen = p.batchGen) ∧
      (co'.pc = .waitDone → co.pc = .bumpSegGen) := by
  have hsaw := hf.saw
  have hbump := hf.continuous
  have hfirst := hf.first
  cases hpc : co.pc
  case wake => exact absurd hpc hwake
  case wakeMore => exact absurd hpc hmore
  all_goals
    simp only [coordAccess, hpc] at hacc
    try split at hacc
  all_goals
    cases hacc
  all_goals
    simp only [hpc, CoordPc.preparing, reduceCtorEq, or_true, or_false, forall_const,
      false_implies] at hsaw hbump hfirst
    refine ⟨?_, ?_, ?_⟩ <;> simp [underway, hpc, Coord.nextSegment] <;> grind

theorem coordAccess_batchGen (hacc : coordAccess cfg c p co = some (p', co')) :
    p.batchGen ≤ p'.batchGen ∧
      (co'.pc ≠ .contBatchGen → p'.batchGen = 0 → co.pc ≠ .contBatchGen ∧
        (p.continuousActive = false → p'.continuousActive = false)) := by
  cases hpc : co.pc
  all_goals
    simp only [coordAccess, hpc] at hacc
    try split at hacc
  all_goals
    cases hacc
  all_goals
    refine ⟨?_, ?_⟩ <;> simp [Pool.setItem, Coord.nextSegment]

theorem coordAccess_callStep (hf : CoordFacts cfg p d co) (hreset : co.pc ≠ .resetCounter)
    (hwake : co.pc ≠ .wake) (hmore : co.pc ≠ .wakeMore)
    (hacc : coordAccess cfg c p co = some (p', co')) : CallStep cfg p p' co co' := by
  obtain ⟨hcalls, hexpects, hpending⟩ := coordAccess_pending hf hreset hwake hmore hacc
  obtain ⟨hnotMore, hunderway, hwaits⟩ := coordAccess_underway hf hwake hmore hacc
  obtain ⟨hbatchGen, hplain⟩ := coordAccess_batchGen hacc
  exact ⟨hcalls, hexpects, hpending, hnotMore, hunderway, hwaits, hbatchGen, hplain⟩

end Quiet

theorem Worker.joins_congr {σ σ' : Signals} (hready : σ'.ready = σ.ready)
    (hpers : σ'.persistentGen = σ.persistentGen) (hgen : σ'.batchGen = σ.batchGen) :
    joins σ' = joins σ := by
  funext wk
  unfold joins
  rw [hready, hpers, hgen]

section

variable {cfg : PoolConfig} {p p' : Pool} {d : Dispatch} {workers : Nat → Worker} {co co' : Coord}

theorem CoordFacts.maySpin (hf : CoordFacts cfg p d co) (h : co.inBatch) : MaySpin cfg p :=
  .inr (hf.batch h).2.2

/-- The coordinator neither resets the counter nor wakes workers. -/
theorem CallInv.quiet (h : CallInv cfg p workers co) (hf : CoordFacts cfg p d co)
    (hstep : CallStep cfg p p' co co') : CallInv cfg p' workers co' := by
  -- what is to be written includes the generation of the batch
  have hspin : co'.calls ∨ co'.expects → MaySpin cfg p' → MaySpin cfg p := by
    intro hco hs
    have hpending := congrArg Signals.batchGen (hstep.pending hco).1
    rw [(co'.pending_ahead cfg _).batchGen, (co.pending_ahead cfg _).batchGen] at hpending
    exact (MaySpin.congr hpending).1 hs
  have hnospin : ¬ MaySpin cfg p' → ¬ MaySpin cfg p := by
    intro hs hs'
    exact hs (hs'.imp_right fun hgen => lt_of_lt_of_le hgen hstep.batchGen)
  constructor
  · intro hs hcalls
    obtain ⟨hpending, hcounter, -⟩ := hstep.pending (.inl hcalls)
    rw [hpending, hcounter]
    exact h.called (hspin (.inl hcalls) hs) (hstep.calls hcalls).1
  · intro hs hexp
    obtain ⟨hpending, hcounter, hnum⟩ := hstep.pending (.inr hexp)
    rw [hpending, hcounter, hnum]
    exact h.expected (hspin (.inr hexp) hs) (hstep.expects hexp)
  · intro hcont hcalls
    have hcalls := hcalls.resolve_right hstep.notMore
    obtain ⟨hcalls', hsame⟩ := hstep.calls hcalls
    rw [(hstep.pending (.inl hcalls)).1]
    exact h.joining (hsame ▸ hcont) (.inl hcalls')
  · exact fun hmore => absurd hmore hstep.notMore
  · intro hunder
    obtain ⟨hunder', hready, hpers, hgen⟩ := hstep.underway hunder
    have hjoins : joins p'.signals = joins p.signals :=
      joins_congr hready hpers hgen
    rw [hjoins]
    exact h.joined hunder'
  · intro hs hpc
    have hgen : p'.batchGen = 0 := Nat.eq_zero_of_not_pos fun hpos => hs (.inr hpos)
    obtain ⟨hpc', hactive⟩ := hstep.plain hpc hgen
    obtain ⟨hoff, hall⟩ := h.plain (hnospin hs) hpc'
    exact ⟨hactive hoff, hall⟩
  · intro hs hpc
    -- a wait that begins without a wake-up is for a later segment
    have hbump := hstep.waits hpc
    have hbatch : co.inBatch := by
      simp [inBatch, hbump, hf.continuous (.inr hbump)]
    exact absurd (hf.maySpin hbatch) (hnospin hs)

theorem Worker.rested_comes (hfirst : co.goesOn = false) (h : wk.rested cfg p co) :
    orAsleep (comes (p.signals.rung cfg)) wk := by
  unfold rested at h
  unfold orAsleep comes
  split at h <;> simp_all [Signals.rung, Pool.signals]

theorem Worker.rested_joins (hfirst : co.goesOn = false) (h : wk.rested cfg p co) :
    orAsleep (joins (p.signals.rung cfg)) wk := by
  unfold rested at h
  unfold orAsleep joins
  split at h <;> simp_all [Signals.rung, Pool.signals]

theorem Worker.rested_goesOn (hopen : p.segFinished = false) (h : wk.rested cfg p co)
    (hjoins : wk.joins p.signals) : wk.comes p.signals.nextSegment := by
  unfold rested at h
  unfold joins at hjoins
  unfold comes
  split at h <;> simp_all [Signals.nextSegment, Pool.signals]

theorem Coord.pending_setRemaining (cfg : PoolConfig) (co : Coord) (σ : Signals) :
    ({ co with pc := .setRemaining } : Coord).pending cfg σ =
      if co.goesOn then σ.nextSegment else σ.rung cfg := rfl

/-- The counter is reset while all workers are at rest. -/
theorem CallInv.reset (h : CallInv cfg p workers co) (hf : CoordFacts cfg p d co)
    (hpc : co.pc = .resetCounter)
    (hrest : MaySpin cfg p → ∀ w < cfg.numWorkers, (workers w).rested cfg p co) :
    CallInv cfg { p with batchWorkerCounter := 0 } workers { co with pc := .setRemaining } := by
  have hbatch : co.continuous = true → co.inBatch := fun hcont => by
    simp [inBatch, hpc, hcont]
  constructor
  · intro hs hcalls
    have hfirst : co.goesOn = false := (Bool.not_eq_true' _).mp hcalls
    rw [pending_setRemaining, hfirst]
    -- workers at rest come once the dispatch is announced
    show cfg.numWorkers ≤ 0 + census _ workers (orAsleep (comes (p.signals.rung cfg)))
    rw [census_eq_card fun w hw => rested_comes hfirst (hrest hs w hw)]
    omega
  · intro hs hexp
    have hgoes : co.goesOn = true := hexp
    rw [pending_setRemaining, hgoes]
    have hcont : co.continuous = true ∧ co.isFirstSeg = false := by
      simpa [goesOn] using hgoes
    have hunder : co.underway := by simp [underway, hpc, hcont]
    -- a later segment: those who joined go on with it
    calc
      p.batchNumActive = cfg.numActive co.segCount := hf.numActive (by rw [hpc]; rfl)
      _ ≤ cfg.maxActive := cfg.numActive_le _
      _ ≤ census cfg.numWorkers workers (joins p.signals) := h.joined hunder
      _ ≤ census cfg.numWorkers workers (comes p.signals.nextSegment) :=
          census_mono fun w hw =>
            rested_goesOn (hf.batch (hbatch hcont.1)).2.1 (hrest hs w hw)
      _ ≤ 0 + census cfg.numWorkers workers (comes p.signals.nextSegment) := by omega
  · intro hcont hcalls
    have hcont : co.continuous = true := hcont
    have hfirst : co.goesOn = false := (Bool.not_eq_true' _).mp (hcalls.resolve_right nofun)
    have hs : MaySpin cfg p := hf.maySpin (hbatch hcont)
    rw [pending_setRemaining, hfirst]
    show cfg.numWorkers ≤ census _ workers (orAsleep (joins (p.signals.rung cfg)))
    rw [census_eq_card fun w hw => rested_joins hfirst (hrest hs w hw)]
  · exact nofun
  · intro hunder
    apply h.joined
    simpa [underway, hpc] using hunder
  · exact fun hs _ => h.plain hs (by rw [hpc]; nofun)
  · exact fun _ => nofun

theorem Worker.plain_wakeWorkers {woken : List Nat}
    (hasleep : ∀ w ∈ woken, (workers w).pc = .asleep) {w : Nat} (h : (workers w).plain) :
    (wakeWorkers workers woken w).plain := by
  unfold wakeWorkers
  split
  · rename_i hw
    rw [plain, hasleep w hw] at h
    exact h
  · exact h

theorem Worker.awake_wokenMeets : WokenMeets awake :=
  fun wk hpc => ⟨by simp [awake, hpc], by simp [awake]⟩

/-- The dispatch wakes as many workers as it needs. -/
theorem CallInv.wake {woken : List Nat} (h : CallInv cfg p workers co) (hf : CoordFacts cfg p d co)
    (hpc : co.pc = .wake) (hasleep : ∀ w ∈ woken, (workers w).pc = .asleep)
    (hchoice : wakeChoice cfg workers (cfg.numActive co.segCount) woken) :
    CallInv cfg p (wakeWorkers workers woken)
      { co with pc := if co.continuous then .wakeMore else .waitDone } := by
  have hready : p.signals.ready = true := hf.ready (by simp [announced, hpc])
  have hnum : p.batchNumActive = cfg.numActive co.segCount := hf.numActive (by rw [hpc]; rfl)
  have hle : p.batchNumActive ≤ cfg.numWorkers := by
    rw [hnum]
    exact (cfg.numActive_le _).trans cfg.maxActive_le
  have hcalls : co.calls := by simp [calls, hpc]
  have hpending : co.pending cfg p.signals = p.signals := by simp [pending, hpc]
  -- as many as needed, or everybody who was asleep
  have hreach : ∀ {P : Worker → Bool} {k : Nat}, WokenMeets P →
      cfg.numWorkers ≤ k + census cfg.numWorkers workers (orAsleep P) →
      p.batchNumActive ≤ k + census cfg.numWorkers (wakeWorkers workers woken) P := by
    intro P k hP hall
    rcases wake_reaches hP hasleep hchoice with hmany | hmany <;> omega
  have hcomes := comes_wokenMeets hready
  have hjoins := joins_wokenMeets hready
  have hexpected : MaySpin cfg p → p.batchNumActive ≤ p.batchWorkerCounter +
      census cfg.numWorkers (wakeWorkers workers woken) (comes p.signals) := by
    intro hs
    have hall := h.called hs hcalls
    rw [hpending] at hall
    exact hreach (comes_wokenMeets hready) hall
  cases hcont : co.continuous
  · refine ⟨fun _ h => (by cases h), fun hs _ => hexpected hs, by simp, by simp,
      fun h => (by cases h), ?_, ?_⟩
    · intro hs _
      obtain ⟨hoff, hall⟩ := h.plain hs (by simp [hpc])
      exact ⟨hoff, fun w hw => plain_wakeWorkers hasleep (hall w hw)⟩
    · intro _ _ hlt
      -- everybody is awake or can be woken
      have hall : census cfg.numWorkers workers (orAsleep Worker.awake) = cfg.numWorkers :=
        census_eq_card fun w _ => by simp [orAsleep, Worker.awake]
      have hsome := hreach (k := 0) awake_wokenMeets (by omega)
      omega
  · have hbatch : co.inBatch := by simp [inBatch, hpc, hcont]
    have hall := h.joining hcont (.inl hcalls)
    rw [hpending] at hall
    have hjoins := joins_wokenMeets hready
    refine ⟨fun _ h => (by cases h), fun hs _ => hexpected hs, fun _ _ => ?_, fun _ => ?_,
      fun h => (by cases h), ?_, by simp⟩
    · exact hall.trans (wakeWorkers_orAsleep hjoins hasleep)
    · have hsome := hreach (k := 0) hjoins (by omega)
      omega
    · exact fun hs => absurd (hf.maySpin hbatch) hs

/-- A continuous batch wakes the workers that its later segments may need. -/
theorem CallInv.wakeMore {woken : List Nat} (h : CallInv cfg p workers co)
    (hf : CoordFacts cfg p d co) (hpc : co.pc = .wakeMore)
    (hasleep : ∀ w ∈ woken, (workers w).pc = .asleep)
    (hchoice : wakeChoice cfg workers (cfg.maxActive - cfg.numActive co.segCount) woken) :
    CallInv cfg p (wakeWorkers workers woken) { co with pc := .waitDone } := by
  have hready : p.signals.ready = true := hf.ready (by simp [announced, hpc])
  have hnum : p.batchNumActive = cfg.numActive co.segCount := hf.numActive (by rw [hpc]; rfl)
  have hcont := hf.continuous (.inl hpc)
  have hspin := hf.maySpin (inBatch_of_calls hcont (.inr hpc))
  have hpending : co.pending cfg p.signals = p.signals := by simp [pending, hpc]
  refine ⟨fun _ => nofun, fun hs _ => ?_, fun _ hcalls => absurd hcalls nofun, nofun, fun _ => ?_,
    fun hs => absurd hspin hs, fun hs => absurd hspin hs⟩
  -- whoever was expected still comes
  · have hold := h.expected hs (by simp [expects, hpc])
    rw [hpending] at hold
    refine hold.trans (Nat.add_le_add_left (census_mono fun w _ hw => ?_) _)
    exact (comes_wokenMeets hready).wakeWorkers hasleep hw
  · have hsome := h.someJoined hpc
    have hall := h.joining hcont (.inr hpc)
    rw [hpending] at hall
    have hmax := cfg.maxActive_le
    -- as many as asked for, or all that sleep
    rcases wake_reaches (joins_wokenMeets hready) hasleep hchoice with hmany | hmany <;>
      omega

end

/-! ## Runs -/

/-- One coordinator uses the pool, and its dispatches find their workers. -/
structure RestInv (cfg : PoolConfig) (s : PoolState) (c : Nat) : Prop where
  inside : c < cfg.numCoords ∨ (s.coords c).pc = .idle
  others : ∀ c' ≠ c, (s.coords c').pc = .idle
  facts : CoordFacts cfg s.pool s.current (s.coords c)
  call : CallInv cfg s.pool s.workers (s.coords c)

variable {s : PoolState}

theorem RestInv.coordStep {cfg : PoolConfig} {t : PoolState} {c : Nat} {woken : List Nat}
    (h : RestInv cfg s c) (hc : c < cfg.numCoords) (hguard : RestGuard cfg s (.coord c woken))
    (hstep : coordStep cfg s c woken = some t) : RestInv cfg t c := by
  obtain ⟨hchoice, p', co', hacc, rfl⟩ := coordStep_eq_some.1 hstep
  obtain ⟨hasleep, hrest⟩ := hguard
  refine ⟨.inl hc, fun c' hne => ?_, ?_, ?_⟩
  · show (update s.coords c co' c').pc = .idle
    rw [update_of_ne hne]
    exact h.others c' hne
  · show CoordFacts cfg p' _ (update s.coords c co' c)
    rw [update_self]
    exact h.facts.coordAccess hacc
  show CallInv cfg p' (wakeWorkers s.workers woken) (update s.coords c co' c)
  rw [update_self]
  by_cases hwake : (s.coords c).pc = .wake
  · rw [wakeCount, hwake] at hchoice
    rw [coordAccess, hwake] at hacc
    cases hacc
    exact h.call.wake h.facts hwake hasleep hchoice
  by_cases hmore : (s.coords c).pc = .wakeMore
  · rw [wakeCount, hmore] at hchoice
    rw [coordAccess, hmore] at hacc
    cases hacc
    exact h.call.wakeMore h.facts hmore hasleep hchoice
  -- nobody is woken
  have hzero : (s.coords c).wakeCount cfg = 0 := by
    unfold wakeCount
    split
    · exact absurd ‹_› hwake
    · exact absurd ‹_› hmore
    · rfl
  rw [hzero] at hchoice
  rw [wakeWorkers_of_zero hchoice]
  by_cases hreset : (s.coords c).pc = .resetCounter
  · rw [coordAccess, hreset] at hacc
    cases hacc
    exact h.call.reset h.facts hreset (hrest hreset)
  · exact h.call.quiet h.facts (coordAccess_callStep h.facts hreset hwake hmore hacc)

theorem CoordFacts.frame {cfg : PoolConfig} {p p' : Pool} {d d' : Dispatch} {co : Coord}
    (h : CoordFacts cfg p d co) (hsig : p'.signals = p.signals)
    (hnum : p'.batchNumActive = p.batchNumActive) (hitems : d'.items = d.items) :
    CoordFacts cfg p' d' co := by
  have hactive : p'.continuousActive = p.continuousActive := congrArg Signals.active hsig
  have hgen : p'.batchGen = p.batchGen := congrArg Signals.batchGen hsig
  have hfin : p'.segFinished = p.segFinished := congrArg Signals.finished hsig
  have hready : p'.batchReady = p.batchReady := congrArg Signals.ready hsig
  refine ⟨h.first, hactive ▸ h.activated, hgen ▸ h.started, ?_, hready ▸ h.ready, h.continuous,
    h.saw, hnum ▸ h.numActive, hitems ▸ h.items⟩
  rw [hactive, hfin, hgen]
  exact h.batch

theorem RestInv.workerStep {cfg : PoolConfig} {t : PoolState} {c w : Nat} (h : RestInv cfg s c)
    (hstep : workerStep cfg s w = some t) : RestInv cfg t c := by
  obtain ⟨p', wk, hacc, rfl⟩ := workerStep_eq_some.1 hstep
  refine ⟨h.inside, h.others, ?_, h.call.workerAccess h.facts hacc⟩
  apply h.facts.frame (workerAccess_signals hacc)
  · exact congrArg BatchFields.batchNumActive (workerAccess_batchFields hacc)
  · exact congrArg Segment.items (record_toSegment ..)

/-- A coordinator that has not begun owes nothing. -/
def CoordPc.fresh : CoordPc → Bool
  | .idle | .writeGpu | .inlineGroup => true
  | _ => false

theorem CoordFacts.of_fresh {cfg : PoolConfig} {p : Pool} {d : Dispatch} {co : Coord}
    (h : co.pc.fresh) (hfirst : co.pc.preparing → co.isFirstSeg = true) :
    CoordFacts cfg p d co := by
  unfold CoordPc.fresh at h
  split at h
  all_goals try cases h
  all_goals
    rename_i hpc
    constructor <;>
      simp_all [inBatch, announced, CoordPc.numbered, CoordPc.begun]

theorem CallInv.of_fresh {cfg : PoolConfig} {p : Pool} {workers : Nat → Worker} {co : Coord}
    (h : co.pc.fresh) (hplain : ¬ MaySpin cfg p →
      p.continuousActive = false ∧ ∀ w < cfg.numWorkers, (workers w).plain) :
    CallInv cfg p workers co := by
  unfold CoordPc.fresh at h
  split at h
  all_goals try cases h
  all_goals
    rename_i hpc
    constructor <;> simp [calls, expects, underway, hpc]
    exact hplain

/-- A coordinator gets a job while all are idle. -/
theorem RestInv.submit {cfg : PoolConfig} {c c' : Nat} {co : Coord} {job : Job}
    (h : RestInv cfg s c) (hc' : c' < cfg.numCoords) (hidle : ∀ c, (s.coords c).pc = .idle)
    (htake : (s.coords c').take job = some co) :
    RestInv cfg { s with coords := update s.coords c' co } c' := by
  have hplain := fun hs => h.call.plain hs (by rw [hidle c]; nofun)
  -- a job begins before the first write
  have hfresh : co.pc.fresh ∧ (co.pc.preparing → co.isFirstSeg = true) := by
    cases job with
    | dispatch numGroups continuous pushes counts =>
      simp only [take] at htake
      split at htake
      · cases htake
        exact ⟨rfl, fun _ => rfl⟩
      · cases htake
    | inline numGroups =>
      cases htake
      exact ⟨rfl, fun _ => rfl⟩
  refine ⟨.inl hc', fun c'' hne => ?_, ?_, ?_⟩
  · show (update s.coords c' co c'').pc = .idle
    rw [update_of_ne hne]
    exact hidle c''
  · show CoordFacts cfg s.pool s.current (update s.coords c' co c')
    rw [update_self]
    exact .of_fresh hfresh.1 hfresh.2
  · show CallInv cfg s.pool s.workers (update s.coords c' co c')
    rw [update_self]
    exact .of_fresh hfresh.1 hplain

end FaultMesh
