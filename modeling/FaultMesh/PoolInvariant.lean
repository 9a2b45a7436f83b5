import FaultMesh.DispatchSetup

/-!
# The invariant of the pool

A dispatch is safe while no worker takes part in two of them at once: no number is claimed while a
coordinator is setting up a dispatch, and none is set up while a worker is between its claim and
the test of its number. Along such runs, with one coordinator, each of its phases has an invariant.
-/

namespace FaultMesh

open Function

/-! ## Guards -/

/-- No worker takes part in two dispatches at once: no dispatch is set up while a worker holds a
number that it has not tested, and no number is claimed while one is set up. -/
def SetupGuard (cfg : PoolConfig) (s : PoolState) : PoolLabel → Prop
  | .submit _ _ => True
  | .coord c _ => (s.coords c).opens → ∀ w < cfg.numWorkers, (s.workers w).pc.inWindow = false
  | .worker w =>
    (s.workers w).pc = .claim → ∀ c < cfg.numCoords, (s.coords c).settingUp = false

/-- A coordinator gets a job only while the others are idle. -/
def OneAtATime (cfg : PoolConfig) (s : PoolState) : PoolLabel → Prop
  | .submit c _ =>
    c < cfg.numCoords → ∀ c' < cfg.numCoords, c' ≠ c → (s.coords c').pc = .idle
  | _ => True

instance (cfg : PoolConfig) (s : PoolState) : ∀ l, Decidable (SetupGuard cfg s l)
  | .submit _ _ => .isTrue trivial
  | .coord c _ =>
    inferInstanceAs (Decidable
      ((s.coords c).opens = true → ∀ w < cfg.numWorkers, (s.workers w).pc.inWindow = false))
  | .worker w =>
    inferInstanceAs (Decidable
      ((s.workers w).pc = .claim → ∀ c < cfg.numCoords, (s.coords c).settingUp = false))

instance (cfg : PoolConfig) (s : PoolState) : ∀ l, Decidable (OneAtATime cfg s l)
  | .submit c _ =>
    inferInstanceAs (Decidable
      (c < cfg.numCoords → ∀ c' < cfg.numCoords, c' ≠ c → (s.coords c').pc = .idle))
  | .coord _ _ => .isTrue trivial
  | .worker _ => .isTrue trivial

/-! ## Invariants -/

/-- The last dispatch is over and no worker is in its loop. -/
structure DispatchOver (p : Pool) (workers : Nat → Worker) (d : Dispatch) : Prop where
  noLoop : ∀ w, (workers w).pc.inLoop = false
  remaining : p.itemsRemaining = 0
  allDone : p.allDone = 0
  finished_iff : ∀ idx, idx ∈ d.finished ↔ idx < d.items
  finished_once : d.finished.Nodup
  finished_length : d.finished.length = d.items
  recorded : Recorded d fun _ => False

/-- The worker, if it holds a number, will find it too large. -/
def Worker.Late (numActive : Nat) (wk : Worker) : Prop :=
  wk.pc.inWindow → numActive ≤ wk.myBatchId ∧
    (wk.pc = .readQueueBase → wk.numActive ≤ wk.myBatchId)

/-- All numbers of the last dispatch are taken: who claims one now is too late. -/
structure NumbersTaken (p : Pool) (workers : Nat → Worker) : Prop where
  counter : p.batchNumActive ≤ p.batchWorkerCounter
  late : ∀ w, (workers w).Late p.batchNumActive

/-- Nobody holds a number while the fields of a dispatch are written. -/
structure Starting (p : Pool) (workers : Nat → Worker) (co : Coord) : Prop where
  noWindow : ∀ w, (workers w).pc.inWindow = false
  counter : co.pc.renumbers = false → p.batchNumActive ≤ p.batchWorkerCounter

/-- Before the completion is armed nobody holds a number. -/
structure Armed (p : Pool) (workers : Nat → Worker) (co : Coord) : Prop where
  free : co.pc = .reinitDone → ∀ w, (workers w).pc.busy = false
  allDone : co.pc = .reinitDone → p.allDone = 0

def PhaseInv (p : Pool) (workers : Nat → Worker) (d : Dispatch) (co : Coord) : Prop :=
  match co.phase with
  | .settled => DispatchOver p workers d ∧ NumbersTaken p workers
  | .starting => DispatchOver p workers d ∧ Starting p workers co
  | .running => Armed p workers co ∧ ∃ f, RunInv p workers d f

structure CoordInv (cfg : PoolConfig) (p : Pool) (workers : Nat → Worker) (d : Dispatch)
    (co : Coord) : Prop where
  wrote : Wrote cfg p.toBatchFields co
  phase : PhaseInv p workers d co

/-- The first coordinator is the only one that uses the pool. -/
structure PoolInv (cfg : PoolConfig) (s : PoolState) : Prop where
  others : ∀ c ≠ 0, (s.coords c).pc = .idle
  outside : ∀ w, cfg.numWorkers ≤ w → (s.workers w).pc.busy = false
  coord : CoordInv cfg s.pool s.workers s.current (s.coords 0)

/-! ## Steps of a worker -/

variable {cfg : PoolConfig} {s t : PoolState}

theorem workerStep_free {w : Nat} (hbusy : (s.workers w).pc.busy = false)
    (hclaim : (s.workers w).pc ≠ .claim) (hstep : workerStep cfg s w = some t) :
    ∃ wk, wk.pc.busy = false ∧ t = { s with workers := update s.workers w wk } := by
  obtain ⟨p', wk, hacc, rfl⟩ := workerStep_eq_some.1 hstep
  obtain ⟨rfl, hwk⟩ := workerAccess_free hbusy hclaim hacc
  refine ⟨wk, hwk, ?_⟩
  rw [record_eq_self]
  · intro hpc
    rw [hpc] at hbusy
    cases hbusy
  · intro hpc
    rw [hpc] at hbusy
    cases hbusy

theorem workerStep_frame {w : Nat} (hstep : workerStep cfg s w = some t) :
    t.coords = s.coords ∧ t.pool.toBatchFields = s.pool.toBatchFields ∧
      ∀ w' ≠ w, t.workers w' = s.workers w' := by
  obtain ⟨p', wk, hacc, rfl⟩ := workerStep_eq_some.1 hstep
  exact ⟨rfl, workerAccess_batchFields hacc, fun w' hne => update_of_ne hne _ _⟩

variable {p p' : Pool} {workers workers' : Nat → Worker} {d : Dispatch}

theorem DispatchOver.frame (h : DispatchOver p workers d)
    (hrem : p'.itemsRemaining = p.itemsRemaining) (hdone : p'.allDone = p.allDone)
    (hloop : ∀ w, (workers' w).pc.inLoop = false) : DispatchOver p' workers' d :=
  { h with
    noLoop := hloop
    remaining := hrem.trans h.remaining
    allDone := hdone.trans h.allDone }

theorem workerAccess_late {wk wk' : Worker} (hloop : wk.pc.inLoop = false)
    (hlate : wk.Late p.batchNumActive) (hcounter : p.batchNumActive ≤ p.batchWorkerCounter)
    (h : workerAccess cfg p wk = some (p', wk')) :
    (p' = p ∨ p' = { p with batchWorkerCounter := p.batchWorkerCounter + 1 }) ∧
      wk'.pc.inLoop = false ∧ wk'.Late p.batchNumActive := by
  cases hpc : wk.pc
  case claim =>
    rw [workerAccess, hpc] at h
    cases h
    exact ⟨.inr rfl, rfl, fun _ => ⟨hcounter, fun h => by cases h⟩⟩
  case readNumItems =>
    rw [workerAccess, hpc] at h
    cases h
    exact ⟨.inl rfl, rfl, fun _ => ⟨(hlate (by rw [hpc]; rfl)).1, fun h => by cases h⟩⟩
  case readNumActive =>
    rw [workerAccess, hpc] at h
    cases h
    have hid := (hlate (by rw [hpc]; rfl)).1
    exact ⟨.inl rfl, rfl, fun _ => ⟨hid, fun _ => hid⟩⟩
  case readQueueBase =>
    -- the test of the number fails
    rw [workerAccess, hpc] at h
    have hid := (hlate (by rw [hpc]; rfl)).2 hpc
    dsimp only at h
    rw [if_pos (.inl hid)] at h
    cases h
    exact ⟨.inl rfl, rfl, fun h => by cases h⟩
  case readGroup | readGpu | readSnapshot | readBatchCtx | service | decRemaining | complete =>
    rw [hpc] at hloop
    cases hloop
  all_goals
    obtain ⟨rfl, hfree⟩ := workerAccess_free (by rw [hpc]; rfl) (by simp [hpc]) h
    simp only [WorkerPc.busy, Bool.or_eq_false_iff] at hfree
    exact ⟨.inl rfl, hfree.2, fun hwin => absurd hwin (by simp [hfree.1])⟩

/-- After a dispatch a worker that comes late finds nothing to do. -/
theorem DispatchOver.workerStep {w : Nat} (h : DispatchOver s.pool s.workers s.current)
    (hn : NumbersTaken s.pool s.workers) (hstep : workerStep cfg s w = some t) :
    DispatchOver t.pool t.workers t.current ∧ NumbersTaken t.pool t.workers := by
  obtain ⟨p', wk, hacc, rfl⟩ := workerStep_eq_some.1 hstep
  have hrecord : s.current.record s.pool w (s.workers w) = s.current := by
    apply record_eq_self
    · intro hpc
      exact absurd (h.noLoop w) (by simp [hpc, WorkerPc.inLoop])
    · intro hpc
      exact absurd (h.noLoop w) (by simp [hpc, WorkerPc.inLoop])
  -- a late number is not below `batch_num_active`
  obtain ⟨hp, hloop, hlate⟩ := workerAccess_late (h.noLoop w) (hn.late w) hn.counter hacc
  have hloops : ∀ w', (update s.workers w wk w').pc.inLoop = false :=
    (forall_update_iff s.workers fun _ wk' => wk'.pc.inLoop = false).2
      ⟨hloop, fun w' _ => h.noLoop w'⟩
  have hlates : ∀ w', (update s.workers w wk w').Late s.pool.batchNumActive :=
    (forall_update_iff s.workers fun _ wk' => wk'.Late s.pool.batchNumActive).2
      ⟨hlate, fun w' _ => hn.late w'⟩
  rw [hrecord]
  rcases hp with rfl | rfl
  · exact ⟨h.frame rfl rfl hloops, hn.counter, hlates⟩
  · exact ⟨h.frame rfl rfl hloops, Nat.le_succ_of_le hn.counter, hlates⟩

variable {co : Coord}

theorem PhaseInv.workerStep {w : Nat} (h : PhaseInv s.pool s.workers s.current co)
    (hclaim : co.settingUp → (s.workers w).pc ≠ .claim) (hstep : workerStep cfg s w = some t) :
    PhaseInv t.pool t.workers t.current co := by
  cases hph : co.phase with
  | settled =>
    simp only [PhaseInv, hph] at h ⊢
    exact h.1.workerStep h.2 hstep
  | starting =>
    simp only [PhaseInv, hph] at h ⊢
    obtain ⟨hover, hstart⟩ := h
    -- nobody holds a number and nobody claims one
    have hbusy : (s.workers w).pc.busy = false := by
      simp [WorkerPc.busy, hstart.noWindow w, hover.noLoop w]
    obtain ⟨wk, hwk, rfl⟩ :=
      workerStep_free hbusy (hclaim (by simp [Coord.settingUp, hph])) hstep
    simp only [WorkerPc.busy, Bool.or_eq_false_iff] at hwk
    refine ⟨hover.frame rfl rfl ?_, ?_, hstart.counter⟩
    · exact (forall_update_iff s.workers fun _ wk' => wk'.pc.inLoop = false).2
        ⟨hwk.2, fun w' _ => hover.noLoop w'⟩
    · exact (forall_update_iff s.workers fun _ wk' => wk'.pc.inWindow = false).2
        ⟨hwk.1, fun w' _ => hstart.noWindow w'⟩
  | running =>
    simp only [PhaseInv, hph] at h ⊢
    obtain ⟨harmed, f, hrun⟩ := h
    refine ⟨?_, hrun.workerStep hstep⟩
    by_cases hpc : co.pc = .reinitDone
    · obtain ⟨wk, hwk, rfl⟩ := workerStep_free (harmed.free hpc w)
        (hclaim (by simp [Coord.settingUp, hpc])) hstep
      refine ⟨fun _ => ?_, harmed.allDone⟩
      exact (forall_update_iff s.workers fun _ wk' => wk'.pc.busy = false).2
        ⟨hwk, fun w' _ => harmed.free hpc w'⟩
    · exact ⟨fun hpc' => absurd hpc' hpc, fun hpc' => absurd hpc' hpc⟩

theorem PoolInv.workerStep {w : Nat} (h : PoolInv cfg s) (hw : w < cfg.numWorkers)
    (hguard : (s.workers w).pc = .claim → (s.coords 0).settingUp = false)
    (hstep : workerStep cfg s w = some t) : PoolInv cfg t := by
  obtain ⟨hcoords, hfields, hworkers⟩ := workerStep_frame hstep
  refine ⟨hcoords ▸ h.others, fun w' hw' => ?_, ?_⟩
  · rw [hworkers w' (Nat.ne_of_gt (Nat.lt_of_lt_of_le hw hw'))]
    exact h.outside w' hw'
  · rw [hcoords]
    refine ⟨hfields ▸ h.coord.wrote, h.coord.phase.workerStep (fun hset hpc => ?_) hstep⟩
    rw [hguard hpc] at hset
    cases hset

/-! ## Steps of a coordinator -/

section

variable {c : Nat} (h : CoordInv cfg p workers d co)
include h

/-- A coordinator outside a running dispatch. -/
theorem CoordInv.quiet {co' : Coord} (hph : co.phase ≠ .running) (hset : co.pc ≠ .setRemaining)
    (hguard : co.opens → ∀ w, (workers w).pc.inWindow = false) (hw : SameHolders workers workers')
    (hacc : coordAccess cfg c p co = some (p', co')) : CoordInv cfg p' workers' d co' := by
  have hstep := coordAccess_quiet hph hset h.wrote.ended hacc
  have hphase := h.phase
  have hover : DispatchOver p workers d := by
    cases hco : co.phase <;> simp only [PhaseInv, hco] at hphase
    · exact hphase.1
    · exact hphase.1
    · exact absurd hco hph
  -- what the coordinator writes here leaves the dispatch over
  have hover' : DispatchOver p' workers' d := by
    apply hover.frame hstep.remaining hstep.allDone
    refine hw.forall_of (P := fun wk => wk.pc.inLoop = false) (fun wk hb => ?_) hover.noLoop
    simp only [WorkerPc.busy, Bool.or_eq_false_iff] at hb
    exact hb.2
  have htaken : co.pc.renumbers = false → p.batchNumActive ≤ p.batchWorkerCounter := by
    cases hco : co.phase <;> simp only [PhaseInv, hco] at hphase
    · exact fun _ => hphase.2.counter
    · exact hphase.2.counter
    · exact absurd hco hph
  refine ⟨h.wrote.coordAccess hacc, ?_⟩
  cases hco' : co'.phase with
  | running => exact absurd hco' hstep.phase
  | settled =>
    simp only [PhaseInv, hco']
    obtain ⟨hren, hactive, hcounter⟩ := hstep.numbers (Coord.renumbers_of_settled hco')
    refine ⟨hover', by rw [hactive, hcounter]; exact htaken hren, ?_⟩
    rw [hactive]
    refine hw.forall_of (P := Worker.Late p.batchNumActive) (fun wk hb hwin => ?_) ?_
    · simp [WorkerPc.busy_of_inWindow hwin] at hb
    -- late before, or nobody in the window
    · cases hco : co.phase <;> simp only [PhaseInv, hco] at hphase
      · exact hphase.2.late
      · exact fun w hwin => absurd hwin (by simp [hphase.2.noWindow w])
      · exact absurd hco hph
  -- the guard keeps everyone out of the window
  | starting =>
    simp only [PhaseInv, hco']
    refine ⟨hover', ?_, fun hren => ?_⟩
    · refine hw.forall_of (P := fun wk => wk.pc.inWindow = false) (fun wk hb => ?_) ?_
      · simp only [WorkerPc.busy, Bool.or_eq_false_iff] at hb
        exact hb.1
      · rcases hstep.opens hco' with hco | hopens
        · simp only [PhaseInv, hco] at hphase
          exact hphase.2.noWindow
        · exact hguard hopens
    · obtain ⟨hren, hactive, hcounter⟩ := hstep.numbers hren
      rw [hactive, hcounter]
      exact htaken hren

/-- The counters are set and the dispatch begins. -/
theorem CoordInv.begin (hpc : co.pc = .setRemaining) (hw : SameHolders workers workers') :
    CoordInv cfg { p with itemsRemaining := co.segCount } workers' ⟨co.segment c, [], []⟩
      { co with pc := .reinitDone } := by
  have hphase := h.phase
  simp only [PhaseInv, Coord.phase, hpc] at hphase
  obtain ⟨hover, hstart⟩ := hphase
  -- nobody holds a number
  have hfree : ∀ w, (workers' w).pc.busy = false :=
    hw.forall_of (P := fun wk => wk.pc.busy = false) (fun _ hb => hb)
      fun w => by simp [WorkerPc.busy, hstart.noWindow w, hover.noLoop w]
  have hactive : p.batchNumActive ≤ co.segCount := by
    rw [h.wrote.numActive (by rw [hpc]; rfl)]
    exact Nat.min_le_right ..
  have hgroups : p.batchNumGroups = co.segCount :=
    h.wrote.numGroups (by rw [hpc]; rfl) (by simp [hpc])
  refine ⟨.of_not_renumbers rfl (by simp), ?_⟩
  show Armed _ _ _ ∧ _
  exact ⟨⟨fun _ => hfree, fun _ => hover.allDone⟩, id,
    .start hgroups hactive hfree rfl hover.allDone⟩

theorem CoordInv.running {co' : Coord} (hph : co.phase = .running) (hwait : co.pc ≠ .waitDone)
    (hw : SameHolders workers workers') (hacc : coordAccess cfg c p co = some (p', co')) :
    CoordInv cfg p' workers' d co' := by
  have hstep := coordAccess_running hph hwait hacc
  have hphase := h.phase
  simp only [PhaseInv, hph] at hphase
  obtain ⟨harmed, f, hrun⟩ := hphase
  -- `reinit_completion` finds the count at zero
  have hdone : p'.allDone = p.allDone := by
    rcases hstep.allDone with hsame | ⟨hpc, hzero⟩
    · exact hsame
    · rw [hzero, harmed.allDone hpc]
  refine ⟨h.wrote.coordAccess hacc, ?_⟩
  simp only [PhaseInv, hstep.phase]
  refine ⟨⟨fun hpc => absurd hpc hstep.armed, fun hpc => absurd hpc hstep.armed⟩, f, ?_⟩
  exact hrun.frame hstep.fields hstep.counter hstep.remaining hdone hw

theorem CoordInv.wait {co' : Coord} (hpc : co.pc = .waitDone) (hw : SameHolders workers workers')
    (hacc : coordAccess cfg c p co = some (p', co')) : CoordInv cfg p' workers' d co' := by
  have hwrote := h.wrote.coordAccess hacc
  have hphase := h.phase
  simp only [PhaseInv, Coord.phase, hpc] at hphase
  obtain ⟨-, f, hrun⟩ := hphase
  have hrun' : RunInv p workers' d f := hrun.frame rfl rfl rfl rfl hw
  rw [coordAccess, hpc] at hacc
  dsimp only at hacc
  split at hacc
  · cases hacc
  rename_i hne
  cases hacc
  -- the completion came, so all items are finished
  have hdone : 0 < p.allDone := Nat.pos_of_ne_zero hne
  have hlen := hrun'.done hdone
  refine ⟨hwrote, ⟨hrun'.not_inLoop hdone, ?_, ?_, fun idx => ⟨hrun'.progress.mem_range,
    hrun'.progress.mem_of_length_eq hlen⟩, hrun'.progress.nodup, hlen, ?_⟩, ?_, fun w hwin => ?_⟩
  · rw [hrun'.remaining, hlen]
    exact Int.sub_self _
  · show p.allDone - 1 = 0
    exact Nat.sub_eq_zero_of_le hrun'.done_le
  · refine ⟨fun idx => ?_, hrun'.recorded.nodup⟩
    rw [hrun'.recorded.serviced_iff]
    refine or_congr_right (iff_false_intro ?_)
    rintro ⟨w, hdec, -⟩
    have hin := hrun'.not_inLoop hdone w
    rw [hdec] at hin
    cases hin
  · exact hrun'.numActive_le_counter hdone
  -- numbers that are still out are too large
  · have hid := hrun'.numActive_le_id hdone hwin
    refine ⟨hid, fun hbase => ?_⟩
    rw [(hrun'.window w hwin).numActive hbase]
    exact hid

end

theorem PoolInv.coordStep {woken : List Nat} (h : PoolInv cfg s)
    (hguard : (s.coords 0).opens → ∀ w < cfg.numWorkers, (s.workers w).pc.inWindow = false)
    (hstep : coordStep cfg s 0 woken = some t) : PoolInv cfg t := by
  obtain ⟨hwake, p', co', hacc, rfl⟩ := coordStep_eq_some.1 hstep
  have hw := wakeWorkers_sameHolders hwake
  refine ⟨fun c hne => ?_, fun w hout => ?_, ?_⟩
  · show (update s.coords 0 co' c).pc = .idle
    rw [update_of_ne hne]
    exact h.others c hne
  · rcases hw w with heq | ⟨-, hb⟩
    · show (wakeWorkers s.workers woken w).pc.busy = false
      rw [heq]
      exact h.outside w hout
    · exact hb
  show CoordInv cfg p' (wakeWorkers s.workers woken) _ (update s.coords 0 co' 0)
  rw [update_self]
  by_cases hset : (s.coords 0).pc = .setRemaining
  · rw [Dispatch.begin, hset]
    rw [coordAccess, hset] at hacc
    cases hacc
    exact h.coord.begin hset hw
  · have hcur : s.current.begin 0 (s.coords 0) = s.current := by
      unfold Dispatch.begin
      split
      · exact absurd ‹_› hset
      · rfl
    rw [hcur]
    by_cases hph : (s.coords 0).phase = .running
    · by_cases hwait : (s.coords 0).pc = .waitDone
      · exact h.coord.wait hwait hw hacc
      · exact h.coord.running hph hwait hw hacc
    · refine h.coord.quiet hph hset (fun hopens w => ?_) hw hacc
      rcases Nat.lt_or_ge w cfg.numWorkers with hin | hout
      · exact hguard hopens w hin
      · have hb := h.outside w hout
        simp only [WorkerPc.busy, Bool.or_eq_false_iff] at hb
        exact hb.1

theorem PoolInv.submit {job : Job} (h : PoolInv cfg s) (hidle : (s.coords 0).pc = .idle)
    (htake : (s.coords 0).take job = some co) :
    PoolInv cfg { s with coords := update s.coords 0 co } := by
  have hphase := h.coord.phase
  simp only [PhaseInv, Coord.phase, hidle] at hphase
  refine ⟨fun c hne => ?_, h.outside, ?_⟩
  · show (update s.coords 0 co c).pc = .idle
    rw [update_of_ne hne]
    exact h.others c hne
  show CoordInv cfg s.pool s.workers s.current (update s.coords 0 co 0)
  rw [update_self]
  cases job with
  | dispatch numGroups continuous pushes counts =>
    simp only [Coord.take] at htake
    split at htake
    · cases htake
      exact ⟨.of_not_renumbers rfl (by simp), hphase⟩
    · cases htake
  | inline numGroups =>
    cases htake
    exact ⟨.of_not_renumbers rfl (by simp), hphase⟩

/-- With one coordinator, guarded steps keep the invariant. -/
theorem poolStep_inv {l : PoolLabel} (hone : cfg.numCoords = 1) (h : PoolInv cfg s)
    (hguard : SetupGuard cfg s l) (hstep : poolStep cfg s l = some t) : PoolInv cfg t := by
  cases l with
  | submit c job =>
    simp only [poolStep] at hstep
    split at hstep
    · rename_i hc
      obtain rfl : c = 0 := by omega
      obtain ⟨co, htake, rfl⟩ := Option.map_eq_some_iff.1 hstep
      exact h.submit hc.2 htake
    · cases hstep
  | coord c woken =>
    simp only [poolStep] at hstep
    split at hstep
    · obtain rfl : c = 0 := by omega
      exact h.coordStep hguard hstep
    · cases hstep
  | worker w =>
    simp only [poolStep] at hstep
    split at hstep
    · rename_i hw
      exact h.workerStep hw (fun hpc => hguard hpc 0 (by omega)) hstep
    · cases hstep

theorem poolInv_init (cfg : PoolConfig) : PoolInv cfg {} := by
  refine ⟨fun _ _ => rfl, fun _ _ => rfl, .of_not_renumbers rfl (by simp), ?_⟩
  refine ⟨⟨fun _ => rfl, rfl, rfl, ?_, List.nodup_nil, rfl, ?_⟩, Nat.le_refl _, fun _ h => by cases h⟩
  · exact fun idx => ⟨(fun h => by cases h), fun h => absurd h (Nat.not_lt_zero idx)⟩
  · exact ⟨fun idx => ⟨(fun h => by cases h), fun h => by simp at h⟩, List.nodup_nil⟩

end FaultMesh
