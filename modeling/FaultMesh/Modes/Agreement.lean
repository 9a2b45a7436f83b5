import FaultMesh.Modes.Quiescence

/-!
# Workers follow the mode of the coordinator

A coordinator reads the module parameters once, chooses a branch and sets flags in the pool. Every
worker reads the flags and the parameters `uvm_dynamic_dispatch` and `uvm_merge_group_seg_parallel`
again when it has taken a number. If a parameter has been written in between, the flag and the
parameter do not go together any more, and the worker takes the loop of another mode.
-/

namespace FaultMesh.Modes

section Agreement

variable {numCoords numWorkers : Nat}

/-- The workers share the items of the current dispatch the way its coordinator set it up. -/
structure FollowsMode (s : State numCoords numWorkers) : Prop where
  /-- A worker that got past its number is in the loop of the scheme. -/
  scheme : ∀ w, (s.workers w).pc.inLoop = true → (s.workers w).scheme = s.history.scheme
  /-- No item is serviced twice. -/
  once : s.history.serviced.Nodup
  /-- Items that are not serviced yet are with a worker or still to be given out. -/
  covered : s.history.stage = .waiting → s.pool.Adequate s.params →
    ∀ i < s.pool.batchNumGroups, i ∈ s.history.serviced ∨
      i ∈ pot s.pool.toLayout s.params s.pool.batchWorkerCounter s.pool.workCursor ∨
      ∃ w, i ∈ (s.workers w).hand s.pool.toLayout s.params
  /-- When the wait returns, all items are serviced. -/
  all : s.history.stage = .returned → ∀ i < s.pool.batchNumGroups, i ∈ s.history.serviced

variable {s : State numCoords numWorkers}

theorem WorkerPc.inLoop_of_inWindow {pc : WorkerPc} (hin : pc.inWindow = true) :
    pc.inLoop = false := by
  cases pc <;> simp [WorkerPc.inWindow, WorkerPc.inLoop] at hin ⊢

theorem Inv.followsMode (hinv : Inv s) : FollowsMode s := by
  refine ⟨?_, hinv.pool.nodup, ?_, ?_⟩
  · intro w hloop
    by_cases hst : s.history.stage = .calm
    -- while a dispatch is set up nobody is in a loop
    · have hwk := (hinv.pool.calm hst).workers w
      have hout : (s.workers w).pc ≠ .outside := by
        intro hpc
        rw [hpc] at hloop
        cases hloop
      rw [WorkerPc.inLoop_of_inWindow (hwk.away hout).1] at hloop
      cases hloop
    · have hb := hinv.pool.busy hst
      rw [hb.scheme]
      exact ((hb.sharing.placed w).loop hloop).scheme
  · intro hst hadequate i hi
    have hb := hinv.pool.busy (by rw [hst]; exact nofun)
    refine (hb.sharing.covered hadequate i hi).imp_left fun hfinished => ?_
    exact (hb.sharing.serviced_iff i).2 (.inl hfinished)
  · intro hst i hi
    have hb := hinv.pool.busy (by rw [hst]; exact nofun)
    obtain ⟨hall, -⟩ := hb.returned hst
    have hfinished := hb.sharing.shared.mem_done (by rw [hall, Finset.card_range])
      (Finset.mem_range.2 hi)
    exact (hb.sharing.serviced_iff i).2 (.inl hfinished)

/-- **Agreement**: in every state of a careful run the workers follow the mode that the coordinator
chose. -/
theorem workers_follow_mode {labels : List (Label numCoords numWorkers)}
    (hcare : (modes numCoords numWorkers).Meets Careful {} labels)
    (hrun : (modes numCoords numWorkers).run {} labels = some s) : FollowsMode s :=
  (inv_of_careful hcare hrun).followsMode

end Agreement

/-! ## Two runs -/

def twoWorkers : SegmentConfig := uvmKthreadPoolCreate 2 0

def dynamicMode : ModeParams := { mergeDispatch := true, dynamicDispatch := true }

local instance soleCoordinator_neZero : NeZero 1 := ⟨Nat.one_ne_zero⟩

/-- A batch of two groups in the dynamic mode, up to the start of the workers. -/
def beginDynamic : List (Label 1 2) :=
  [.setParams dynamicMode, .submit 0 2, .coord 0, .coord 0, .call 0 twoWorkers {} [1, 1]] ++
    List.replicate 14 (.coord 0)

/-- One worker is in the loop of the dynamic mode and has serviced item 0. Then the mode is switched
off; the other worker takes item 1 by strides, and the first one gets it from the cursor. -/
def switchedRun : List (Label 1 2) :=
  beginDynamic ++ List.replicate 10 (.worker 0 true) ++
    [.setParams { dynamicMode with dynamicDispatch := false }] ++
    List.replicate 10 (.worker 1 true) ++ List.replicate 3 (.worker 0 true)

/-- Both workers are in a loop, each in another one, and have serviced the same item. -/
theorem mode_switch_services_twice :
    ∃ s, (modes 1 2).run {} switchedRun = some s ∧
      s.history.serviced = [1, 1, 0] ∧ s.history.scheme = .cursor ∧
      (s.workers 0).scheme = .cursor ∧ (s.workers 1).scheme = .strides ∧ ¬ FollowsMode s := by
  refine ⟨_, rfl, by decide +kernel, by decide +kernel, by decide +kernel, by decide +kernel,
    fun hfollows => ?_⟩
  exact absurd hfollows.once (by decide +kernel)

/-- The same batch when another parameter is written instead, up to the return of the wait. -/
def steadyRun : List (Label 1 2) :=
  beginDynamic ++ List.replicate 10 (.worker 0 true) ++
    [.setParams { dynamicMode with segmentParallel := true }] ++
    List.replicate 12 (.worker 1 true) ++ [.worker 0 true, .coord 0]

theorem steady_run_follows_mode :
    ∃ s, (modes 1 2).run {} steadyRun = some s ∧
      s.history = ⟨.returned, .cursor, [1, 0], [1, 0], [⟨⟨0, 1⟩, 0, 2⟩]⟩ ∧ FollowsMode s := by
  have hcare : (modes 1 2).Meets Careful {} steadyRun := by decide +kernel
  exact ⟨_, rfl, by decide +kernel, workers_follow_mode hcare rfl⟩

end FaultMesh.Modes
