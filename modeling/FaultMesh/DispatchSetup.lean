import FaultMesh.DispatchRun

/-!
# Setting up a dispatch

A coordinator goes through three phases: settled, starting and running. Outside a running dispatch
its steps leave alone what the workers count with, up to the writes that renumber them.
-/

namespace FaultMesh

open Function Coord

/-! ## Phases of a coordinator -/

inductive DispatchPhase where
  /-- The last dispatch is over. -/
  | settled
  /-- The fields of the next dispatch are being written. -/
  | starting
  | running
  deriving DecidableEq, Repr

def Coord.phase (co : Coord) : DispatchPhase :=
  match co.pc with
  | .idle | .writeGpu | .readContinuous | .clearReady | .collect | .checkContinuous
  | .restoreGroups | .inlineGroup | .inlineGpu | .inlineSnapshot | .inlineBatchCtx
  | .inlineService => .settled
  | .writeGroups => if co.isFirstSeg then .starting else .settled
  -- after the last segment, or because a push for the next one failed
  | .finishSegments | .finishGen | .finishActive | .finishReady =>
    if co.counts = [] then .settled else .starting
  | .reinitDone | .setReady | .bumpPersistent | .wake | .wakeMore | .bumpSegGen
  | .waitDone => .running
  | .writeSnapshot | .writeBatchCtx | .writeAllGroups | .writeAllCount | .readAllGroups
  | .contActivate | .contBatchGen | .contUnfinish | .writeQueueBase | .contAbandon
  | .writeNumActive | .writeNumGroups | .resetCounter | .setRemaining => .starting

/-- The next step is the first write of a dispatch. -/
def Coord.opens (co : Coord) : Bool :=
  co.pc = .writeGpu || (co.pc = .writeGroups && !co.isFirstSeg)

/-- A dispatch is being set up: from its first write to `reinit_completion`. -/
def Coord.settingUp (co : Coord) : Bool := co.phase = .starting || co.pc = .reinitDone

/-- `batch_num_active` is that of the new dispatch, the counter is not reset yet. -/
@[simp] def CoordPc.renumbers : CoordPc → Bool
  | .writeNumGroups | .resetCounter | .setRemaining => true
  | _ => false

/-- The coordinator was told that the dispatch is complete and has not collected everything. -/
@[simp] def CoordPc.collecting : CoordPc → Bool
  | .readContinuous | .clearReady | .collect => true
  | _ => false

variable {co : Coord}

theorem Coord.renumbers_of_settled (h : co.phase = .settled) : co.pc.renumbers = false := by
  cases hpc : co.pc
  case writeNumGroups | resetCounter | setRemaining =>
    rw [phase, hpc] at h
    cases h
  all_goals rfl

/-! ## The order of the writes -/

/-- What is written before the counters are set. -/
structure Wrote (cfg : PoolConfig) (b : BatchFields) (co : Coord) : Prop where
  numActive : co.pc.renumbers → b.batchNumActive = cfg.numActive co.segCount
  numGroups : co.pc.renumbers → co.pc ≠ .writeNumGroups → b.batchNumGroups = co.segCount
  ended : co.pc = .checkContinuous → co.counts = []

variable {cfg : PoolConfig} {c : Nat}

theorem Wrote.of_not_renumbers {b : BatchFields} (hren : co.pc.renumbers = false)
    (hend : co.pc = .checkContinuous → co.counts = []) : Wrote cfg b co := by
  have hnot : ¬ co.pc.renumbers := by rw [hren]; exact Bool.false_ne_true
  exact ⟨fun h => absurd h hnot, fun h => absurd h hnot, hend⟩

theorem Wrote.nextSegment (b : BatchFields) (co : Coord) : Wrote cfg b co.nextSegment := by
  by_cases hrest : co.counts.tail = []
  · cases hcont : co.continuous <;>
      exact .of_not_renumbers (by simp [Coord.nextSegment, hrest, hcont]) fun _ => hrest
  · have hpc : co.nextSegment.pc = .writeGroups := by simp [Coord.nextSegment, hrest]
    exact .of_not_renumbers (by rw [hpc]; rfl) (by rw [hpc]; nofun)

variable {p p' : Pool} {co' : Coord}

theorem Wrote.coordAccess (h : Wrote cfg p.toBatchFields co)
    (hacc : coordAccess cfg c p co = some (p', co')) : Wrote cfg p'.toBatchFields co' := by
  cases hpc : co.pc <;> simp only [FaultMesh.coordAccess, hpc] at hacc
  case writeNumActive =>
    cases hacc
    exact ⟨fun _ => rfl, fun _ hne => absurd rfl hne, nofun⟩
  case writeNumGroups =>
    cases hacc
    exact ⟨fun _ => h.numActive (by rw [hpc]; rfl), fun _ _ => rfl, nofun⟩
  case resetCounter =>
    cases hacc
    exact ⟨fun _ => h.numActive (by rw [hpc]; rfl),
      fun _ _ => h.numGroups (by rw [hpc]; rfl) (by rw [hpc]; nofun), nofun⟩
  case collect =>
    split at hacc
    · cases hacc
      exact .of_not_renumbers rfl nofun
    · cases hacc
      exact .nextSegment ..
  case idle => cases hacc
  case waitDone | inlineGroup =>
    split at hacc <;> cases hacc
    all_goals exact .of_not_renumbers rfl nofun
  case writeQueueBase =>
    cases hacc
    split
    · cases co.isFirstSeg <;> exact .of_not_renumbers rfl nofun
    · exact .of_not_renumbers rfl nofun
  case writeAllCount | readAllGroups | reinitDone | setReady | wake | checkContinuous
      | finishReady =>
    cases hacc
    split <;> exact .of_not_renumbers rfl nofun
  -- the other places are followed by one fixed place
  all_goals
    cases hacc
    exact .of_not_renumbers rfl nofun

/-! ## What a coordinator may change -/

theorem coordStep_eq_some {s t : PoolState} {woken : List Nat} :
    coordStep cfg s c woken = some t ↔
      wakeChoice cfg s.workers ((s.coords c).wakeCount cfg) woken ∧
      ∃ p co, coordAccess cfg c s.pool (s.coords c) = some (p, co) ∧
        t = { pool := p
              coords := update s.coords c co
              workers := wakeWorkers s.workers woken
              current := s.current.begin c (s.coords c) } := by
  unfold coordStep
  split
  · rename_i hwake
    simp only [Option.map_eq_some_iff, Prod.exists, hwake, true_and]
    constructor <;> rintro ⟨p, co, hacc, rfl⟩ <;> exact ⟨p, co, hacc, rfl⟩
  · rename_i hwake
    simp [hwake]

/-- What a coordinator may change outside a running dispatch. -/
structure QuietStep (p p' : Pool) (co co' : Coord) : Prop where
  phase : co'.phase ≠ .running
  remaining : p'.itemsRemaining = p.itemsRemaining
  allDone : p'.allDone = p.allDone
  opens : co'.phase = .starting → co.phase = .starting ∨ co.opens
  /-- Up to `batch_num_active` the numbers of the last dispatch stay. -/
  numbers : co'.pc.renumbers = false → co.pc.renumbers = false ∧
    p'.batchNumActive = p.batchNumActive ∧ p'.batchWorkerCounter = p.batchWorkerCounter

theorem coordAccess_quiet (hph : co.phase ≠ .running) (hset : co.pc ≠ .setRemaining)
    (hend : co.pc = .checkContinuous → co.counts = [])
    (hacc : coordAccess cfg c p co = some (p', co')) : QuietStep p p' co co' := by
  cases hpc : co.pc <;> simp only [coordAccess, hpc] at hacc
  case idle => cases hacc
  case setRemaining => exact absurd hpc hset
  case reinitDone | setReady | bumpPersistent | wake | wakeMore | bumpSegGen | waitDone =>
    exact absurd (by rw [phase, hpc]) hph
  case writeGpu | writeSnapshot | writeBatchCtx | writeAllGroups | contActivate | contBatchGen
      | contAbandon | writeNumActive | writeNumGroups | resetCounter
      | restoreGroups | inlineGpu | inlineSnapshot | inlineBatchCtx | inlineService =>
    cases hacc
    constructor <;> simp [phase, opens, hpc, Pool.setItem]
  case contUnfinish | writeGroups =>
    cases hacc
    cases hfirst : co.isFirstSeg <;> constructor <;> simp [phase, opens, hpc, hfirst]
  case readAllGroups =>
    cases hacc
    cases hcont : co.continuous <;> cases hfirst : co.isFirstSeg <;> constructor <;>
      simp [phase, opens, hpc, hfirst]
  case writeAllCount | finishSegments | finishGen | finishActive | finishReady =>
    cases hacc
    by_cases hcounts : co.counts = [] <;> constructor <;> simp [phase, opens, hpc, hcounts]
  case writeQueueBase =>
    cases hacc
    by_cases hcont : co.continuous ∧ co.pushesLeft = 0 <;> cases hfirst : co.isFirstSeg <;>
      by_cases hcounts : co.counts = [] <;> constructor <;> simp [phase, opens, hpc, hcounts, hcont]
  case readContinuous =>
    cases hacc
    constructor <;> simp [phase, opens, hpc]
  case clearReady =>
    cases hacc
    cases hsaw : co.sawContinuous <;> constructor <;> simp [phase, opens, hpc]
  case collect =>
    split at hacc
    · cases hacc
      constructor <;> simp [phase, opens, hpc]
    · cases hacc
      by_cases hrest : co.counts.tail = [] <;> cases hcont : co.continuous <;> constructor <;>
        simp [phase, opens, hpc, nextSegment, hrest, hcont]
  case checkContinuous =>
    cases hacc
    have hcounts := hend hpc
    cases hact : p.continuousActive <;> constructor <;> simp [phase, opens, hpc, hcounts]
  case inlineGroup =>
    split at hacc <;> cases hacc <;> constructor <;> simp [phase, opens, hpc, Pool.setItem]

/-- What a coordinator may change in a running dispatch. -/
structure RunningStep (p p' : Pool) (co co' : Coord) : Prop where
  phase : co'.phase = .running
  armed : co'.pc ≠ .reinitDone
  fields : p'.toBatchFields = p.toBatchFields
  counter : p'.batchWorkerCounter = p.batchWorkerCounter
  remaining : p'.itemsRemaining = p.itemsRemaining
  allDone : p'.allDone = p.allDone ∨ co.pc = .reinitDone ∧ p'.allDone = 0

theorem coordAccess_running (hph : co.phase = .running) (hwait : co.pc ≠ .waitDone)
    (hacc : coordAccess cfg c p co = some (p', co')) : RunningStep p p' co co' := by
  cases hpc : co.pc <;> simp only [coordAccess, hpc] at hacc
  case reinitDone =>
    cases hacc
    cases hcont : co.continuous <;> cases hfirst : co.isFirstSeg <;> constructor <;>
      simp [phase, hpc]
  case setReady =>
    cases hacc
    cases hspin : cfg.persistentSpin <;> constructor <;> simp [phase, hpc]
  case wake =>
    cases hacc
    cases hcont : co.continuous <;> constructor <;> simp [phase, hpc]
  case bumpPersistent | wakeMore | bumpSegGen =>
    cases hacc
    constructor <;> simp [phase, hpc]
  case waitDone => exact absurd hpc hwait
  case writeGroups | finishSegments | finishGen | finishActive | finishReady =>
    rw [phase, hpc] at hph
    dsimp only at hph
    split at hph <;> cases hph
  all_goals
    rw [phase, hpc] at hph
    cases hph

theorem Coord.not_collecting_of_running (h : co.phase = .running) : co.pc.collecting = false := by
  cases hpc : co.pc
  case readContinuous | clearReady | collect =>
    rw [phase, hpc] at h
    cases h
  all_goals rfl

end FaultMesh
