import FaultMesh.Lib.Machine
import FaultMesh.Lib.Reservation

/-!
# Space in the shared pushes

The workers of a merged dispatch write to one copy push and one map push, each under a lock of its
own, and a push has room for `UVM_MAX_PUSH_SIZE` bytes. A worker looks at the space twice: without
the lock it asks for half of a push, and under the lock for a quarter. `block_map_gpu_to` writes all
it has to write in the lock section of the second look. `block_copy_resident_pages_between` writes the
acquires there and its copies in later lock sections, and nothing keeps the space for it meanwhile.

A push is modelled by the number of its words, and a step is one lock section or one look without
the lock. The number of words that one block writes after its second look is bounded by a share.
-/

namespace FaultMesh.PushSpace

open Function

open Relation

def uvmMaxPushSize : Nat := 128 * 1024

/-- `uvm_push_get_size` of a push with so many words between `begin` and `next`. -/
def uvmPushGetSize (words : Nat) : Nat := words * 4 % 2 ^ 32

/-- `uvm_push_has_space`. The difference is one of unsigned 32-bit numbers. -/
def uvmPushHasSpace (words freeSpace : Nat) : Bool :=
  decide (freeSpace ≤ (uvmMaxPushSize + 2 ^ 32 - uvmPushGetSize words) % 2 ^ 32)

inductive Stage
  | idle
  /-- `use_ext_push` holds in `block_copy_resident_pages_between`, and no page needed the push yet. -/
  | copyChosen
  /-- `copying_gpu` is set, and so many words were written to the copy push since the check. -/
  | copying (written : Nat)
  /-- `use_ext_push` holds in `block_map_gpu_to`, and the lock is not taken yet. -/
  | mapChosen
deriving DecidableEq, Repr

/-- The shared pushes and the workers. -/
structure Merge (numWorkers : Nat) where
  /-- The words of `merge_ext.copy_push`. -/
  copyPush : Nat := 0
  /-- The words of `merge_ext.map_push`. -/
  mapPush : Nat := 0
  workers : Fin numWorkers → Stage := fun _ => .idle

/-- One look at a push without its lock, or one lock section. -/
inductive Label (numWorkers : Nat)
  /-- The first look of `block_copy_resident_pages_between`. -/
  | enterCopy (w : Fin numWorkers)
  /-- The second look, with the acquires of the tracker of the block. -/
  | beginCopy (w : Fin numWorkers) (acquires : Nat)
  /-- `block_copy_pages` for one more region. -/
  | copyPages (w : Fin numWorkers) (words : Nat)
  | leaveCopy (w : Fin numWorkers)
  /-- The first look of `block_map_gpu_to`; `split` tells a 2M mapping that has to be split. -/
  | enterMap (w : Fin numWorkers) (split : Bool)
  /-- The second look, with the acquires and the PTE writes. -/
  | mapGpuTo (w : Fin numWorkers) (acquires words : Nat)

namespace Merge

variable {numWorkers : Nat}

def setStage (s : Merge numWorkers) (w : Fin numWorkers) (stage : Stage) : Merge numWorkers :=
  { s with workers := update s.workers w stage }

/-- One step; `allowSplit` is `uvm_merge_map_allow_2m_split_shared`. A worker that falls back to a
push of its own does not touch the shared one any more. -/
def step (allowSplit : Bool) (s : Merge numWorkers) : Label numWorkers → Option (Merge numWorkers)
  | .enterCopy w =>
    match s.workers w with
    | .idle =>
      if uvmPushHasSpace s.copyPush (uvmMaxPushSize / 2) then some (s.setStage w .copyChosen)
      else some s
    | _ => none
  | .beginCopy w acquires =>
    match s.workers w with
    | .copyChosen =>
      if uvmPushHasSpace s.copyPush (uvmMaxPushSize / 4) then
        some { s.setStage w (.copying acquires) with copyPush := s.copyPush + acquires }
      else some (s.setStage w .idle)
    | _ => none
  | .copyPages w words =>
    match s.workers w with
    | .copying written =>
      some { s.setStage w (.copying (written + words)) with copyPush := s.copyPush + words }
    | _ => none
  | .leaveCopy w =>
    match s.workers w with
    -- no page needed the push: all were clean, or the copy was one of the CPU
    | .copyChosen => some (s.setStage w .idle)
    | .copying _ => some (s.setStage w .idle)
    | _ => none
  | .enterMap w split =>
    match s.workers w with
    | .idle =>
      if !allowSplit && split then some s
      else if uvmPushHasSpace s.mapPush (uvmMaxPushSize / 2) then some (s.setStage w .mapChosen)
      else some s
    | _ => none
  | .mapGpuTo w acquires words =>
    match s.workers w with
    | .mapChosen =>
      if uvmPushHasSpace s.mapPush (uvmMaxPushSize / 4) then
        some { s.setStage w .idle with mapPush := s.mapPush + acquires + words }
      else some (s.setStage w .idle)
    | _ => none

end Merge

def mergeMachine (allowSplit : Bool) (numWorkers : Nat) :
    Machine (Merge numWorkers) (Label numWorkers) where
  step := Merge.step allowSplit

/-- The words written to the copy push since the second look. -/
def Stage.written : Stage → Nat
  | .copying written => written
  | _ => 0

/-- The block that the step is for has written at most `share` words since its second look. -/
def WithinShare {numWorkers : Nat} (share : Nat) (s : Merge numWorkers) : Label numWorkers → Prop
  | .beginCopy _ acquires => acquires ≤ share
  | .copyPages w words => (s.workers w).written + words ≤ share
  | .mapGpuTo _ acquires words => acquires + words ≤ share
  | _ => True

instance {numWorkers : Nat} (share : Nat) (s : Merge numWorkers) :
    ∀ i, Decidable (WithinShare share s i)
  | .beginCopy _ acquires => inferInstanceAs (Decidable (acquires ≤ share))
  | .copyPages w words => inferInstanceAs (Decidable ((s.workers w).written + words ≤ share))
  | .mapGpuTo _ acquires words => inferInstanceAs (Decidable (acquires + words ≤ share))
  | .enterCopy _ => isTrue trivial
  | .leaveCopy _ => isTrue trivial
  | .enterMap .. => isTrue trivial

/-! ## Looking at the space -/

theorem uvmPushHasSpace_iff {words freeSpace : Nat} (h : words * 4 ≤ uvmMaxPushSize) :
    uvmPushHasSpace words freeSpace = true ↔ words * 4 + freeSpace ≤ uvmMaxPushSize := by
  unfold uvmPushHasSpace uvmPushGetSize uvmMaxPushSize at *
  rw [decide_eq_true_iff]
  omega

/-! ## What the workers may still write -/

/-- What a worker may still write to the copy push before it looks at the space again. -/
def Stage.allowance (share : Nat) : Stage → Nat
  | .copyChosen => share
  | .copying written => share - written
  | .idle => 0
  | .mapChosen => 0

variable {allowSplit : Bool} {numWorkers share : Nat} {s t : Merge numWorkers}

/-- The copy push together with what the workers may still write. -/
def Covered (share : Nat) (s : Merge numWorkers) : Prop :=
  Reserved (uvmMaxPushSize / 2 / 4) share s.copyPush fun w => (s.workers w).allowance share

theorem allowance_setStage (w : Fin numWorkers) (stage : Stage) :
    (fun v => ((s.setStage w stage).workers v).allowance share) =
      update (fun v => (s.workers v).allowance share) w (stage.allowance share) :=
  comp_update (Stage.allowance share) s.workers w stage

theorem Covered.copyPush_le (h : Covered share s)
    (hfit : numWorkers * share * 4 ≤ uvmMaxPushSize / 2) : s.copyPush * 4 ≤ uvmMaxPushSize := by
  have hused := h.used_le
  rw [Fintype.card_fin] at hused
  unfold uvmMaxPushSize at *
  omega

theorem Covered.enterCopy (h : Covered share s) (hfit : numWorkers * share * 4 ≤ uvmMaxPushSize / 2)
    (hspace : uvmPushHasSpace s.copyPush (uvmMaxPushSize / 2)) (w : Fin numWorkers) :
    Covered share (s.setStage w .copyChosen) := by
  have hhalf := (uvmPushHasSpace_iff (h.copyPush_le hfit)).1 hspace
  rw [Covered, allowance_setStage]
  apply Reserved.grant h _ (Nat.le_refl share)
  unfold uvmMaxPushSize at *
  omega

theorem Covered.lower (h : Covered share s) {w : Fin numWorkers} {stage : Stage}
    (hle : stage.allowance share ≤ (s.workers w).allowance share) :
    Covered share (s.setStage w stage) := by
  rw [Covered, allowance_setStage]
  exact Reserved.lower h hle

theorem Covered.write (h : Covered share s) {w : Fin numWorkers} {stage : Stage} {words : Nat}
    (heq : stage.allowance share + words = (s.workers w).allowance share) :
    Covered share { s.setStage w stage with copyPush := s.copyPush + words } := by
  show Reserved _ share (s.copyPush + words) fun v => ((s.setStage w stage).workers v).allowance share
  rw [allowance_setStage]
  exact Reserved.spend h heq

theorem Covered.step (hfit : numWorkers * share * 4 ≤ uvmMaxPushSize / 2) (s : Merge numWorkers)
    (i : Label numWorkers) (t : Merge numWorkers) (h : Covered share s) (hshare : WithinShare share s i)
    (hstep : (mergeMachine allowSplit numWorkers).step s i = some t) : Covered share t := by
  cases i with
  | enterCopy w =>
    simp only [mergeMachine, Merge.step] at hstep
    split at hstep
    · split at hstep
      next hspace => cases hstep; exact h.enterCopy hfit hspace w
      next => cases hstep; exact h
    · cases hstep
  | beginCopy w acquires =>
    simp only [mergeMachine, Merge.step] at hstep
    split at hstep
    next hw =>
      split at hstep
      · cases hstep
        apply h.write
        rw [hw]
        exact Nat.sub_add_cancel hshare
      · cases hstep
        exact h.lower (Nat.zero_le _)
    next => cases hstep
  | copyPages w words =>
    simp only [mergeMachine, Merge.step] at hstep
    split at hstep
    next written hw =>
      cases hstep
      have hle : (s.workers w).written + words ≤ share := hshare
      rw [hw, Stage.written] at hle
      apply h.write
      rw [hw, Stage.allowance, Stage.allowance]
      omega
    next => cases hstep
  | leaveCopy w =>
    simp only [mergeMachine, Merge.step] at hstep
    split at hstep <;> cases hstep <;> exact h.lower (Nat.zero_le _)
  | enterMap w split =>
    simp only [mergeMachine, Merge.step] at hstep
    split at hstep
    · split at hstep
      · cases hstep; exact h
      · split at hstep
        · cases hstep; exact h.lower (Nat.zero_le _)
        · cases hstep; exact h
    · cases hstep
  | mapGpuTo w acquires words =>
    -- the lock section of the map push leaves the copy push
    have hidle : Covered share (s.setStage w .idle) := h.lower (Nat.zero_le _)
    simp only [mergeMachine, Merge.step] at hstep
    split at hstep
    · split at hstep
      · cases hstep; exact hidle
      · cases hstep; exact hidle
    · cases hstep

end FaultMesh.PushSpace
