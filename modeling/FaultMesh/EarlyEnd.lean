import FaultMesh.AllocationRetry
import FaultMesh.SegmentLoops
import FaultMesh.Lib.Countdown
import FaultMesh.Lib.Machine

/-!
# Who ends the copy push of a segment

In a dynamic dispatch with `uvm_merge_copy_map_split` the blocks of a segment share a copy push.
`copy_done_counters` starts at the number of blocks that may use it. `uvm_va_block_service_locked`
takes one off when the last copy phase of a block is over, or at the end if that phase was not
reached, provided that the block has used the push; whoever takes the last one ends the push.

A worker calls `uvm_va_block_service_locked` again as long as it asks for more processing, with the
uses of the push counted on. So a block can be counted off once for every call, and can copy after
it has been.
-/

namespace FaultMesh.EarlyEnd

open Function (update)

/-! ## A worker -/

/-- The variables of the loop over the residencies. -/
structure LoopState where
  /-- Residencies that are still to be visited. -/
  left : Nat
  copyPhasesLeft : Nat
  copyCounterDecremented : Bool
  deriving DecidableEq, Repr

def LoopState.next (l : LoopState) : LoopState := { l with left := l.left - 1 }

/-- Where a worker is in `uvm_va_block_service_locked`, as far as the shared push is concerned. -/
inductive Pc where
  /-- The worker has the block and has not decided whether there is something to service. -/
  | taken
  | call
  | visit (l : LoopState)
  /-- In `uvm_va_block_service_copy`, or in the service of an HMM block. -/
  | copying (l : LoopState)
  /-- In `block_copy_resident_pages_between`, with `use_ext_push` and whether `copying_gpu` is set. -/
  | between (l : LoopState) (useExtPush copying : Bool)
  /-- After a copy phase. -/
  | copied (l : LoopState)
  /-- The counter has reached zero. -/
  | endPush (l : LoopState)
  /-- In `uvm_va_block_service_finish`. -/
  | finish (l : LoopState)
  /-- After the loop. -/
  | leave (l : LoopState) (status : NvStatus)
  /-- The counter has reached zero after the loop. -/
  | endPushLate (status : NvStatus)
  | returned (status : NvStatus)
  deriving DecidableEq, Repr

structure Job where
  block : Nat
  /-- `merge_ext.copy_ext_used`, set to zero when the worker takes the block. -/
  copyExtUsed : Nat
  pc : Pc
  deriving DecidableEq, Repr

/-- What a worker does next, with the answers of the rest of the driver. -/
inductive Event where
  /-- No page of the block is to be serviced. -/
  | skip
  | serve
  /-- The call, for a number of residencies. -/
  | call (numResidencies : Nat)
  | visit
  | leaveLoop
  /-- A copy between two processors begins; half of the push is free or not. -/
  | enterBetween (hasSpace : Bool)
  /-- The first page that needs a push; a quarter of it is still free under the lock or not. -/
  | beginCopy (hasSpace : Bool)
  /-- A command goes into the shared push: an acquire or a copy. -/
  | append
  | leaveBetween
  | copyReturns (status : NvStatus)
  /-- The test of the counter, where there is one. -/
  | countDown
  | pushEnd
  | finishReturns (status : NvStatus)
  | returns
  deriving DecidableEq, Repr

inductive Effect where
  | none
  | appends
  | decrements
  | ends
  deriving DecidableEq, Repr

def Job.at (j : Job) (pc : Pc) : Option Job := some { j with pc := pc }

/-- One step of a worker; at the end there is no job left. -/
def Job.step (isHmm : Bool) (copyDone : Int) (j : Job) (e : Event) :
    Option (Option Job × Effect) :=
  match j.pc, e with
  | .taken, .skip => some (none, .none)
  | .taken, .serve => some (j.at .call, .none)
  | .call, .call n => some (j.at (.visit ⟨n, n, false⟩), .none)
  | .visit l, .visit => if l.left = 0 then none else some (j.at (.copying l), .none)
  | .visit l, .leaveLoop => if l.left = 0 then some (j.at (.leave l .ok), .none) else none
  | .copying l, .enterBetween hasSpace =>
    some (some { j with pc := .between l hasSpace false,
                        copyExtUsed := j.copyExtUsed + hasSpace.toNat }, .none)
  | .between l useExtPush false, .beginCopy hasSpace =>
    -- a private push from here on; the use of the shared one stays counted
    some (j.at (.between l (useExtPush && hasSpace) true), .none)
  | .between _ true true, .append => some (some j, .appends)
  | .between l _ _, .leaveBetween => some (j.at (.copying l), .none)
  | .copying l, .copyReturns status =>
    if status = .ok then
      -- the service of an HMM block goes on without counting its phases
      some (j.at (if isHmm then .visit l.next else .copied l), .none)
    else some (j.at (.leave l status), .none)
  | .copied l, .countDown =>
    let l := { l with copyPhasesLeft := l.copyPhasesLeft - 1 }
    if l.copyPhasesLeft = 0 ∧ 0 < j.copyExtUsed then
      let l := { l with copyCounterDecremented := true }
      -- `atomic_dec_and_test`
      some (j.at (if copyDone - 1 = 0 then .endPush l else .finish l), .decrements)
    else some (j.at (.finish l), .none)
  | .endPush l, .pushEnd => some (j.at (.finish l), .ends)
  | .finish l, .finishReturns status =>
    some (j.at (if status = .ok then .visit l.next else .leave l status), .none)
  | .leave l status, .countDown =>
    if l.copyCounterDecremented = false ∧ 0 < j.copyExtUsed then
      some (j.at (if copyDone - 1 = 0 then .endPushLate status else .returned status), .decrements)
    else some (j.at (.returned status), .none)
  | .endPushLate status, .pushEnd => some (j.at (.returned status), .ends)
  | .returned status, .returns =>
    -- `UVM_VA_BLOCK_RETRY_LOCKED`
    some (if status = .errMoreProcessingRequired then j.at .call else none, .none)
  | _, _ => none

/-! ## The segment -/

/-- The shared push of a segment, and the workers on its blocks. -/
structure Segment where
  workCursor : Nat
  /-- `copy_done_counters`. -/
  copyDone : Int
  /-- A worker has ended the push, as `copy_pushed_end` says. -/
  pushedEnd : Bool
  jobs : Nat → Option Job
  /-- The blocks that have been counted off, the latest first. -/
  countedOff : List Nat
  /-- The blocks that have appended something since the push was ended by a worker. -/
  late : List Nat

inductive Label where
  /-- A worker takes the next block of the batch. -/
  | take (worker : Nat)
  | work (worker : Nat) (event : Event)
  deriving DecidableEq, Repr

def Segment.perform (s : Segment) (block : Nat) : Effect → Segment
  | .none => s
  | .appends => { s with late := if s.pushedEnd then block :: s.late else s.late }
  | .decrements =>
    { s with copyDone := s.copyDone - 1, countedOff := block :: s.countedOff }
  | .ends => { s with pushedEnd := true }

/-- The workers of a dispatch of `numItems` blocks, seen from one segment. Blocks that are not
eligible belong to other segments or are heavy, and do not concern it. -/
def segmentMachine (numItems : Nat) (eligible isHmm : Nat → Bool) : Machine Segment Label where
  step s
    | .take w =>
      if s.jobs w = none ∧ s.workCursor < numItems then
        let job := if eligible s.workCursor then some ⟨s.workCursor, 0, .taken⟩ else none
        some { s with workCursor := s.workCursor + 1, jobs := update s.jobs w job }
      else none
    | .work w e =>
      (s.jobs w).bind fun j => (j.step (isHmm j.block) s.copyDone e).map fun r =>
        { s.perform j.block r.2 with jobs := update s.jobs w r.1 }

/-- Phase 3 of the dispatch, with `merged_blocks_per_seg`. -/
def Segment.init (mergedBlocks : Nat) : Segment where
  workCursor := 0
  copyDone := mergedBlocks
  pushedEnd := false
  jobs _ := none
  countedOff := []
  late := []

/-! ## What a step does -/

/-- The steps of a worker, one for each way through `Job.step`. -/
inductive Works (isHmm : Bool) (copyDone : Int) (j : Job) : Option Job → Effect → Prop
  | skip (hpc : j.pc = .taken) : Works isHmm copyDone j none .none
  | serve (hpc : j.pc = .taken) : Works isHmm copyDone j (some { j with pc := .call }) .none
  | call (n : Nat) (hpc : j.pc = .call) :
      Works isHmm copyDone j (some { j with pc := .visit ⟨n, n, false⟩ }) .none
  | visit (l : LoopState) (hpc : j.pc = .visit l) (hleft : l.left ≠ 0) :
      Works isHmm copyDone j (some { j with pc := .copying l }) .none
  | leaveLoop (l : LoopState) (hpc : j.pc = .visit l) (hleft : l.left = 0) :
      Works isHmm copyDone j (some { j with pc := .leave l .ok }) .none
  | enterBetween (l : LoopState) (hasSpace : Bool) (hpc : j.pc = .copying l) :
      Works isHmm copyDone j
        (some { j with pc := .between l hasSpace false,
                       copyExtUsed := j.copyExtUsed + hasSpace.toNat }) .none
  | beginCopy (l : LoopState) (useExtPush hasSpace : Bool)
      (hpc : j.pc = .between l useExtPush false) :
      Works isHmm copyDone j (some { j with pc := .between l (useExtPush && hasSpace) true }) .none
  | append (l : LoopState) (hpc : j.pc = .between l true true) :
      Works isHmm copyDone j (some j) .appends
  | leaveBetween (l : LoopState) (useExtPush copying : Bool)
      (hpc : j.pc = .between l useExtPush copying) :
      Works isHmm copyDone j (some { j with pc := .copying l }) .none
  | serviced (l : LoopState) (hpc : j.pc = .copying l) (hmm : isHmm = true) :
      Works isHmm copyDone j (some { j with pc := .visit l.next }) .none
  | copied (l : LoopState) (hpc : j.pc = .copying l) (hmm : isHmm = false) :
      Works isHmm copyDone j (some { j with pc := .copied l }) .none
  | copyFails (l : LoopState) (status : NvStatus) (hpc : j.pc = .copying l) :
      Works isHmm copyDone j (some { j with pc := .leave l status }) .none
  | lastPhase (l : LoopState) (pc : Pc) (hpc : j.pc = .copied l) (hlast : l.copyPhasesLeft - 1 = 0)
      (hused : 0 < j.copyExtUsed)
      (hnext : pc = .finish ⟨l.left, 0, true⟩ ∨ copyDone - 1 = 0 ∧ pc = .endPush ⟨l.left, 0, true⟩) :
      Works isHmm copyDone j (some { j with pc := pc }) .decrements
  | phase (l : LoopState) (hpc : j.pc = .copied l) :
      Works isHmm copyDone j
        (some { j with pc := .finish { l with copyPhasesLeft := l.copyPhasesLeft - 1 } }) .none
  | pushEnd (l : LoopState) (hpc : j.pc = .endPush l) :
      Works isHmm copyDone j (some { j with pc := .finish l }) .ends
  | finished (l : LoopState) (hpc : j.pc = .finish l) :
      Works isHmm copyDone j (some { j with pc := .visit l.next }) .none
  | finishFails (l : LoopState) (status : NvStatus) (hpc : j.pc = .finish l) :
      Works isHmm copyDone j (some { j with pc := .leave l status }) .none
  | countOff (l : LoopState) (status : NvStatus) (pc : Pc) (hpc : j.pc = .leave l status)
      (hdec : l.copyCounterDecremented = false) (hused : 0 < j.copyExtUsed)
      (hnext : pc = .returned status ∨ copyDone - 1 = 0 ∧ pc = .endPushLate status) :
      Works isHmm copyDone j (some { j with pc := pc }) .decrements
  | leave (l : LoopState) (status : NvStatus) (hpc : j.pc = .leave l status)
      (hnot : ¬(l.copyCounterDecremented = false ∧ 0 < j.copyExtUsed)) :
      Works isHmm copyDone j (some { j with pc := .returned status }) .none
  | pushEndLate (status : NvStatus) (hpc : j.pc = .endPushLate status) :
      Works isHmm copyDone j (some { j with pc := .returned status }) .ends
  | again (hpc : j.pc = .returned .errMoreProcessingRequired) :
      Works isHmm copyDone j (some { j with pc := .call }) .none
  | done : Works isHmm copyDone j none .none

theorem Job.works {isHmm : Bool} {copyDone : Int} {j : Job} {e : Event} {next : Option Job}
    {effect : Effect} (h : j.step isHmm copyDone e = some (next, effect)) :
    Works isHmm copyDone j next effect := by
  unfold Job.step at h
  split at h
  next hpc => cases h; exact .skip hpc
  next hpc => cases h; exact .serve hpc
  next n hpc => cases h; exact .call n hpc
  next l hpc =>
    obtain ⟨hleft, h⟩ := Option.ite_none_left_eq_some.1 h
    cases h
    exact .visit l hpc hleft
  next l hpc =>
    obtain ⟨hleft, h⟩ := Option.ite_none_right_eq_some.1 h
    cases h
    exact .leaveLoop l hpc hleft
  next l hasSpace hpc => cases h; exact .enterBetween l hasSpace hpc
  next l useExtPush hasSpace hpc => cases h; exact .beginCopy l useExtPush hasSpace hpc
  next l hpc => cases h; exact .append l hpc
  next l useExtPush copying hpc => cases h; exact .leaveBetween l useExtPush copying hpc
  next l status hpc =>
    split at h
    · cases hmm : isHmm <;> simp only [hmm] at h <;> cases h
      · exact .copied l hpc rfl
      · exact .serviced l hpc rfl
    · cases h
      exact .copyFails l status hpc
  next l hpc =>
    -- whether the last phase is over, and then whether the counter reaches zero
    dsimp only at h
    split at h
    next hlast =>
      cases h
      refine .lastPhase l _ hpc hlast.1 hlast.2 ?_
      rw [show l.copyPhasesLeft - 1 = 0 from hlast.1]
      by_cases hzero : copyDone - 1 = 0
      · exact .inr ⟨hzero, if_pos hzero⟩
      · exact .inl (if_neg hzero)
    next =>
      cases h
      exact .phase l hpc
  next l hpc => cases h; exact .pushEnd l hpc
  next l status hpc =>
    cases h
    by_cases hok : status = .ok
    · rw [if_pos hok]
      exact .finished l hpc
    · rw [if_neg hok]
      exact .finishFails l status hpc
  next l status hpc =>
    split at h
    next hoff =>
      cases h
      refine .countOff l status _ hpc hoff.1 hoff.2 ?_
      by_cases hzero : copyDone - 1 = 0
      · exact .inr ⟨hzero, if_pos hzero⟩
      · exact .inl (if_neg hzero)
    next hnot =>
      cases h
      exact .leave l status hpc hnot
  next status hpc => cases h; exact .pushEndLate status hpc
  next status hpc =>
    cases h
    by_cases hmore : status = .errMoreProcessingRequired
    · rw [if_pos hmore]
      exact .again (hmore ▸ hpc)
    · rw [if_neg hmore]
      exact .done
  next => cases h

def Pc.IsEnding : Pc → Prop
  | .endPush _ | .endPushLate _ => True
  | _ => False

/-- What a worker knows at its place, when no block is called for again after it has used the push;
`isOff` says that the block has been counted off. -/
def Pc.Right (isHmm : Bool) (used : Nat) (isOff : Prop) : Pc → Prop
  | .taken | .call => used = 0 ∧ ¬isOff
  | .visit l =>
    (isOff ↔ l.copyCounterDecremented = true) ∧ (isOff → 0 < used ∧ l.left = 0) ∧
      (isHmm = false → l.left = l.copyPhasesLeft)
  | .copying l | .between l _ _ =>
    ¬isOff ∧ l.copyCounterDecremented = false ∧ 0 < l.left ∧
      (isHmm = false → l.left = l.copyPhasesLeft)
  | .copied l =>
    ¬isOff ∧ l.copyCounterDecremented = false ∧ 0 < l.left ∧ l.left = l.copyPhasesLeft
  | .endPush l | .finish l =>
    (isOff ↔ l.copyCounterDecremented = true) ∧ (isOff → 0 < used ∧ l.left = 1) ∧
      l.left = l.copyPhasesLeft + 1
  | .leave l _ => (isOff ↔ l.copyCounterDecremented = true) ∧ (isOff → 0 < used)
  | .endPushLate _ => isOff ∧ 0 < used
  | .returned _ => isOff ↔ 0 < used

def Job.Right (isHmm : Bool) (isOff : Prop) (j : Job) : Prop := j.pc.Right isHmm j.copyExtUsed isOff

section Works

variable {isHmm : Bool} {copyDone : Int} {j next : Job} {effect : Effect} {isOff : Prop}

theorem Works.block_eq (h : Works isHmm copyDone j (some next) effect) : next.block = j.block := by
  cases h <;> rfl

theorem Works.not_off {after : Option Job} (h : Works isHmm copyDone j after effect)
    (hright : j.Right isHmm isOff) (heffect : effect = .appends ∨ effect = .decrements) : ¬isOff := by
  unfold Job.Right at hright
  cases h with
  | append l hpc =>
    rw [hpc] at hright
    exact hright.1
  | lastPhase l pc hpc =>
    rw [hpc] at hright
    exact hright.1
  | countOff l status pc hpc hdec =>
    rw [hpc] at hright
    intro hoff
    have htrue := hright.1.1 hoff
    rw [hdec] at htrue
    cases htrue
  | _ => simp at heffect

theorem Works.ending (h : Works isHmm copyDone j (some next) effect) (hending : next.pc.IsEnding) :
    effect = .decrements ∧ copyDone - 1 = 0 := by
  cases h with
  | append l hpc =>
    rw [hpc] at hending
    exact hending.elim
  | lastPhase l pc hpc hlast hused hnext =>
    obtain rfl | ⟨hzero, rfl⟩ := hnext
    · exact hending.elim
    · exact ⟨rfl, hzero⟩
  | countOff l status pc hpc hdec hused hnext =>
    obtain rfl | ⟨hzero, rfl⟩ := hnext
    · exact hending.elim
    · exact ⟨rfl, hzero⟩
  | _ => exact hending.elim

theorem Works.ends {after : Option Job} (h : Works isHmm copyDone j after .ends) : j.pc.IsEnding := by
  cases h with
  | pushEnd l hpc => rw [hpc]; trivial
  | pushEndLate status hpc => rw [hpc]; trivial

/-- **Step lemma**: a worker that knows what is right at its place knows it at the next one. -/
theorem Works.right (h : Works isHmm copyDone j (some next) effect) (hright : j.Right isHmm isOff)
    (hretry : j.pc = .returned .errMoreProcessingRequired → j.copyExtUsed = 0) :
    next.Right isHmm (isOff ∨ effect = .decrements) := by
  unfold Job.Right at hright ⊢
  cases h with
  | serve hpc | enterBetween l hasSpace hpc | beginCopy l useExtPush hasSpace hpc | append l hpc
  | leaveBetween l useExtPush copying hpc | pushEnd l hpc =>
    -- the two places know the same
    simp only [hpc, Pc.Right, reduceCtorEq, or_false] at hright ⊢
    exact hright
  | call n hpc =>
    simp only [hpc, Pc.Right] at hright
    simp [Pc.Right, hright.2]
  | visit l hpc hleft =>
    simp only [hpc, Pc.Right, reduceCtorEq, or_false] at hright ⊢
    have hnot : ¬isOff := fun hoff => hleft (hright.2.1 hoff).2
    exact ⟨hnot, Bool.eq_false_iff.2 (mt hright.1.2 hnot), Nat.pos_of_ne_zero hleft, hright.2.2⟩
  | leaveLoop l hpc hleft =>
    simp only [hpc, Pc.Right, reduceCtorEq, or_false] at hright ⊢
    exact ⟨hright.1, fun hoff => (hright.2.1 hoff).1⟩
  | serviced l hpc hmm =>
    simp only [hpc, Pc.Right] at hright
    simp [Pc.Right, LoopState.next, hright.1, hright.2.1, hmm]
  | copied l hpc hmm =>
    simp only [hpc, Pc.Right, reduceCtorEq, or_false] at hright ⊢
    exact ⟨hright.1, hright.2.1, hright.2.2.1, hright.2.2.2 hmm⟩
  | copyFails l status hpc =>
    simp only [hpc, Pc.Right] at hright
    simp [Pc.Right, hright.1, hright.2.1]
  | lastPhase l pc hpc hlast hused hnext =>
    simp only [hpc, Pc.Right] at hright
    -- the counted phases are the residencies that are left, so this was the last one
    have hone : l.left = 1 := by omega
    obtain rfl | ⟨-, rfl⟩ := hnext <;> simp [Pc.Right, hused, hone]
  | phase l hpc =>
    simp only [hpc, Pc.Right] at hright
    have hleft : l.left = l.copyPhasesLeft - 1 + 1 := by omega
    simp [Pc.Right, hright.1, hright.2.1, hleft]
  | finished l hpc =>
    simp only [hpc, Pc.Right, LoopState.next, reduceCtorEq, or_false] at hright ⊢
    refine ⟨hright.1, fun hoff => ⟨(hright.2.1 hoff).1, ?_⟩, fun _ => ?_⟩
    · rw [(hright.2.1 hoff).2]
    · rw [hright.2.2, Nat.add_sub_cancel]
  | finishFails l status hpc =>
    simp only [hpc, Pc.Right, reduceCtorEq, or_false] at hright ⊢
    exact ⟨hright.1, fun hoff => (hright.2.1 hoff).1⟩
  | countOff l status pc hpc hdec hused hnext =>
    obtain rfl | ⟨-, rfl⟩ := hnext <;> simp [Pc.Right, hused]
  | leave l status hpc hnot =>
    simp only [hpc, Pc.Right, reduceCtorEq, or_false] at hright ⊢
    refine ⟨hright.2, fun hused => hright.1.2 ?_⟩
    exact (Bool.eq_false_or_eq_true _).resolve_right fun hdec => hnot ⟨hdec, hused⟩
  | pushEndLate status hpc =>
    simp only [hpc, Pc.Right, reduceCtorEq, or_false] at hright ⊢
    exact iff_of_true hright.1 hright.2
  | again hpc =>
    simp only [hpc, Pc.Right, reduceCtorEq, or_false] at hright ⊢
    -- the block has not used the push, so that it has not been counted off
    have hused := hretry hpc
    exact ⟨hused, fun hoff => Nat.ne_of_gt (hright.1 hoff) hused⟩

end Works

/-! ## Which worker has which block -/

/-- The blocks that the workers have got from the cursor. -/
structure Held (members : Finset Nat) (workCursor : Nat) (jobs : Nat → Option Job) : Prop where
  mem : ∀ {w j}, jobs w = some j → j.block ∈ members
  lt : ∀ {w j}, jobs w = some j → j.block < workCursor
  /-- A block is with one worker. -/
  eq_of_block : ∀ {v w i j}, jobs v = some i → jobs w = some j → i.block = j.block → v = w

namespace Held

variable {members : Finset Nat} {workCursor : Nat} {jobs : Nat → Option Job}

theorem take (h : Held members workCursor jobs) (w : Nat) {job : Option Job}
    (hjob : ∀ j, job = some j → j.block = workCursor ∧ workCursor ∈ members) :
    Held members (workCursor + 1) (update jobs w job) where
  mem hj := by
    obtain ⟨-, hnew⟩ | ⟨-, hold⟩ := update_eq_some hj
    · obtain ⟨hblock, hmem⟩ := hjob _ hnew
      exact hblock ▸ hmem
    · exact h.mem hold
  lt hj := by
    obtain ⟨-, hnew⟩ | ⟨-, hold⟩ := update_eq_some hj
    · exact (hjob _ hnew).1 ▸ Nat.lt_succ_self workCursor
    · exact Nat.lt_succ_of_lt (h.lt hold)
  eq_of_block hi hj heq := by
    obtain ⟨hv, hi⟩ | ⟨-, hi⟩ := update_eq_some hi <;>
      obtain ⟨hw, hj⟩ | ⟨-, hj⟩ := update_eq_some hj
    · exact hv.trans hw.symm
    -- the block at the cursor is with nobody yet
    · exact absurd (heq.symm.trans (hjob _ hi).1) (Nat.ne_of_lt (h.lt hj))
    · exact absurd (heq.trans (hjob _ hj).1) (Nat.ne_of_lt (h.lt hi))
    · exact h.eq_of_block hi hj heq

theorem put (h : Held members workCursor jobs) {w : Nat} {j : Job} (hj : jobs w = some j)
    {next : Option Job} (hnext : ∀ i, next = some i → i.block = j.block) :
    Held members workCursor (update jobs w next) where
  mem hi := by
    obtain ⟨-, hnew⟩ | ⟨-, hold⟩ := update_eq_some hi
    · exact hnext _ hnew ▸ h.mem hj
    · exact h.mem hold
  lt hi := by
    obtain ⟨-, hnew⟩ | ⟨-, hold⟩ := update_eq_some hi
    · exact hnext _ hnew ▸ h.lt hj
    · exact h.lt hold
  eq_of_block hi hk heq := by
    obtain ⟨hv, hi⟩ | ⟨-, hi⟩ := update_eq_some hi <;>
      obtain ⟨hu, hk⟩ | ⟨-, hk⟩ := update_eq_some hk
    · exact hv.trans hu.symm
    · exact hv.trans (h.eq_of_block hj hk ((hnext _ hi).symm.trans heq))
    · exact (h.eq_of_block hi hj (heq.trans (hnext _ hk))).trans hu.symm
    · exact h.eq_of_block hi hk heq

end Held

/-! ## What holds in every state -/

/-- What the workers leave behind, step by step, for the blocks that may share the push. -/
structure Inv (members : Finset Nat) (isHmm : Nat → Bool) (s : Segment) : Prop where
  counted : Countdown members s.copyDone s.countedOff
  counted_lt : ∀ b ∈ s.countedOff, b < s.workCursor
  held : Held members s.workCursor s.jobs
  right : ∀ {w j}, s.jobs w = some j → j.Right (isHmm j.block) (j.block ∈ s.countedOff)
  ending : ∀ {w j}, s.jobs w = some j → j.pc.IsEnding → s.copyDone = 0
  ended : s.pushedEnd = true → s.copyDone = 0
  late : s.late = []

namespace Segment

variable (s : Segment) (block : Nat) (effect : Effect)

@[simp] theorem perform_workCursor : (s.perform block effect).workCursor = s.workCursor := by
  cases effect <;> rfl

theorem mem_countedOff_perform {b : Nat} :
    b ∈ (s.perform block effect).countedOff ↔
      b ∈ s.countedOff ∨ b = block ∧ effect = .decrements := by
  cases effect <;> simp [perform, or_comm]

end Segment

namespace Inv

variable {members : Finset Nat} {isHmm : Nat → Bool} {s : Segment}

theorem start (isHmm : Nat → Bool) (members : Finset Nat) :
    Inv members isHmm (Segment.init members.card) where
  counted := Countdown.start members
  counted_lt := nofun
  held := ⟨nofun, nofun, nofun⟩
  right := nofun
  ending := nofun
  ended := nofun
  late := rfl

theorem take (h : Inv members isHmm s) (w : Nat) {job : Option Job}
    (hjob : ∀ j, job = some j → j = ⟨s.workCursor, 0, .taken⟩ ∧ s.workCursor ∈ members) :
    Inv members isHmm
      { s with workCursor := s.workCursor + 1, jobs := update s.jobs w job } where
  counted := h.counted
  counted_lt b hb := Nat.lt_succ_of_lt (h.counted_lt b hb)
  held := h.held.take w fun j hj => ⟨congrArg Job.block (hjob j hj).1, (hjob j hj).2⟩
  right hj := by
    obtain ⟨-, hnew⟩ | ⟨-, hold⟩ := update_eq_some hj
    · obtain ⟨rfl, -⟩ := hjob _ hnew
      exact ⟨rfl, fun hmem => Nat.lt_irrefl _ (h.counted_lt _ hmem)⟩
    · exact h.right hold
  ending hj hending := by
    obtain ⟨-, hnew⟩ | ⟨-, hold⟩ := update_eq_some hj
    · obtain ⟨rfl, -⟩ := hjob _ hnew
      exact hending.elim
    · exact h.ending hold hending
  ended := h.ended
  late := h.late

section Work

variable {w : Nat} {j : Job} {next : Option Job} {effect : Effect}

section

variable (h : Inv members isHmm s) (hj : s.jobs w = some j)
  (hworks : Works (isHmm j.block) s.copyDone j next effect)
include h hj hworks

theorem copyDone_ne_zero (heffect : effect = .appends ∨ effect = .decrements) : s.copyDone ≠ 0 := by
  intro hzero
  exact hworks.not_off (h.right hj) heffect (h.counted.all_signed hzero (h.held.mem hj))

theorem counted_perform :
    Countdown members (s.perform j.block effect).copyDone
      (s.perform j.block effect).countedOff := by
  cases effect with
  | decrements => exact h.counted.sign (h.held.mem hj) (hworks.not_off (h.right hj) (.inr rfl))
  | _ => exact h.counted

theorem copyDone_perform (hzero : s.copyDone = 0) : (s.perform j.block effect).copyDone = 0 := by
  cases effect with
  | decrements => exact absurd hzero (h.copyDone_ne_zero hj hworks (.inr rfl))
  | _ => exact hzero

theorem ended_perform (hended : (s.perform j.block effect).pushedEnd = true) : s.copyDone = 0 := by
  cases effect with
  | ends => exact h.ending hj hworks.ends
  | _ => exact h.ended hended

theorem late_perform : (s.perform j.block effect).late = [] := by
  cases effect with
  | appends =>
    have hopen : s.pushedEnd ≠ true := fun hended =>
      h.copyDone_ne_zero hj hworks (.inl rfl) (h.ended hended)
    exact (if_neg hopen).trans h.late
  | _ => exact h.late

theorem work
    (hretry : j.pc = .returned .errMoreProcessingRequired → j.copyExtUsed = 0) :
    Inv members isHmm
      { s.perform j.block effect with jobs := update s.jobs w next } where
  counted := h.counted_perform hj hworks
  counted_lt b hb := by
    obtain hb | ⟨rfl, -⟩ := (s.mem_countedOff_perform j.block effect).1 hb
    · exact s.perform_workCursor j.block effect ▸ h.counted_lt b hb
    · exact s.perform_workCursor j.block effect ▸ h.held.lt hj
  held := by
    rw [Segment.perform_workCursor]
    exact h.held.put hj fun i hi => (hi ▸ hworks).block_eq
  right {v i} hi := by
    dsimp only at hi ⊢
    rw [Segment.mem_countedOff_perform]
    obtain ⟨-, rfl⟩ | ⟨hne, hi⟩ := update_eq_some hi
    · have hright := hworks.right (h.right hj) hretry
      rwa [hworks.block_eq, and_iff_right rfl]
    -- the other workers have other blocks
    · have hother : i.block ≠ j.block := fun heq => hne (h.held.eq_of_block hi hj heq)
      simpa only [hother, false_and, or_false] using h.right hi
  ending {v i} hi hending := by
    obtain ⟨-, rfl⟩ | ⟨-, hi⟩ := update_eq_some hi
    · obtain ⟨rfl, hzero⟩ := hworks.ending hending
      exact hzero
    · exact h.copyDone_perform hj hworks (h.ending hi hending)
  ended hended := h.copyDone_perform hj hworks (h.ended_perform hj hworks hended)
  late := h.late_perform hj hworks

end

end Work

end Inv

/-! ## Whole dispatches -/

/-- A call that asks for more processing comes back from a block that has not used the push. -/
def Job.RetriesUnused (j : Job) : Prop :=
  j.pc = .returned .errMoreProcessingRequired → j.copyExtUsed = 0

instance (j : Job) : Decidable j.RetriesUnused := by unfold Job.RetriesUnused; infer_instance

/-- No block is called for again after it has used the push. -/
def NoRetryAfterUse (s : Segment) : Label → Prop
  | .take _ => True
  | .work w _ => ∀ j ∈ s.jobs w, j.RetriesUnused

instance (s : Segment) : ∀ label, Decidable (NoRetryAfterUse s label)
  | .take _ => isTrue trivial
  | .work _ _ => by unfold NoRetryAfterUse; infer_instance

def sharing (numItems : Nat) (eligible : Nat → Bool) : Finset Nat :=
  ((List.range numItems).filter eligible).toFinset

theorem Inv.step {numItems : Nat} {eligible isHmm : Nat → Bool} (s : Segment) (label : Label)
    (t : Segment) (h : Inv (sharing numItems eligible) isHmm s) (hguard : NoRetryAfterUse s label)
    (hstep : (segmentMachine numItems eligible isHmm).step s label = some t) :
    Inv (sharing numItems eligible) isHmm t := by
  cases label with
  | take w =>
    obtain ⟨⟨-, hlt⟩, hstep⟩ := Option.ite_none_right_eq_some.1 hstep
    cases hstep
    apply h.take w
    intro j hj
    obtain ⟨heligible, hj⟩ := Option.ite_none_right_eq_some.1 hj
    cases hj
    exact ⟨rfl, List.mem_toFinset.2 (List.mem_filter.2 ⟨List.mem_range.2 hlt, heligible⟩)⟩
  | work w e =>
    obtain ⟨j, hj, hstep⟩ := Option.bind_eq_some_iff.1 hstep
    obtain ⟨r, hr, rfl⟩ := Option.map_eq_some_iff.1 hstep
    exact h.work hj (Job.works hr) (hguard j hj)

def twoWorkers : SegmentConfig := uvmKthreadPoolCreate 2 0

end FaultMesh.EarlyEnd
