import FaultMesh.Grouping

/-!
# The snapshot of the work items

`service_fault_batch_parallel` keeps one snapshot of a VA space, overwrites it whenever the grouping
loop comes to a VA space with a GPU VA space, and copies it to all items afterwards. The mm of a VA
space is released when the loop leaves the VA space, and that of the last one when the dispatch has
returned, although an item may still be serviced then: the wait for the workers can expire.
-/

namespace FaultMesh

open SortedBatch

/-! ## References on an mm -/

/-- The change of the number of references on the mm of a VA space. -/
def LockOp.mmRef (vaSpace : VaSpaceId) : LockOp → Int
  | .mmRetainLock v (some _) => if v = vaSpace then 1 else 0
  | .mmReleaseUnlock v (some _) => if v = vaSpace then -1 else 0
  | .mmRelease v => if v = vaSpace then -1 else 0
  | _ => 0

/-- The number of references on the mm of a VA space. -/
def mmRefs (ops : List LockOp) (vaSpace : VaSpaceId) : Int := (ops.map (LockOp.mmRef vaSpace)).sum

@[simp] theorem mmRefs_nil (vaSpace : VaSpaceId) : mmRefs [] vaSpace = 0 := rfl

@[simp] theorem mmRefs_cons (op : LockOp) (ops : List LockOp) (vaSpace : VaSpaceId) :
    mmRefs (op :: ops) vaSpace = op.mmRef vaSpace + mmRefs ops vaSpace := by
  simp [mmRefs]

theorem mmRef_retain (v w : VaSpaceId) (mm : Option MmId) :
    (LockOp.mmRetainLock v mm).mmRef w = if v = w ∧ mm.isSome then 1 else 0 := by
  cases mm <;> simp [LockOp.mmRef]

theorem mmRef_release (v w : VaSpaceId) (mm : Option MmId) :
    (LockOp.mmReleaseUnlock v mm).mmRef w = if v = w ∧ mm.isSome then -1 else 0 := by
  cases mm <;> simp [LockOp.mmRef]

theorem mmRefs_append (ops ops' : List LockOp) (vaSpace : VaSpaceId) :
    mmRefs (ops ++ ops') vaSpace = mmRefs ops vaSpace + mmRefs ops' vaSpace := by
  simp [mmRefs]

/-! ## The grouping loop -/

namespace SortedBatch

/-- The snapshot of the VA space of the last of the first `n` faults that has a GPU VA space. -/
def lastSnapshot (sb : SortedBatch) : Nat → Option VaSpaceSnapshot
  | 0 => none
  | n + 1 =>
    match sb.ans.gpuVaSpace (sb.space n) with
    | some gpuVaSpace => some ⟨sb.space n, gpuVaSpace, sb.ans.mm (sb.space n)⟩
    | none => sb.lastSnapshot n

variable {sb : SortedBatch} {i j n : Nat}

theorem lastSnapshot_of_none (h : sb.ans.gpuVaSpace (sb.space n) = none) :
    sb.lastSnapshot (n + 1) = sb.lastSnapshot n := by
  rw [lastSnapshot, h]

theorem lastSnapshot_of_some {gpuVaSpace : GpuVaSpaceId}
    (h : sb.ans.gpuVaSpace (sb.space n) = some gpuVaSpace) :
    sb.lastSnapshot (n + 1) = some ⟨sb.space n, gpuVaSpace, sb.ans.mm (sb.space n)⟩ := by
  rw [lastSnapshot, h]

end SortedBatch

/-- What the loop has in the snapshot and what it has retained after `n` faults. -/
structure SnapshotInv (sb : SortedBatch) (n : Nat) (g : Grouping) : Prop where
  vaSpace_zero : n = 0 → g.vaSpace = none
  vaSpace : ∀ m, n = m + 1 → g.vaSpace = some (sb.space m)
  mm : g.mm = g.vaSpace.bind sb.ans.mm
  snapshot : g.vaSpaceSnapshot = sb.lastSnapshot n
  refs : ∀ v, mmRefs g.lockOps v = if g.vaSpace = some v ∧ (sb.ans.mm v).isSome then 1 else 0

section Loop

variable {sb : SortedBatch} {n : Nat} {g : Grouping}

/-- Counting a fault leaves the VA space, the snapshot and the locks. -/
structure SameSpace (g g' : Grouping) : Prop where
  vaSpace : g'.vaSpace = g.vaSpace
  mm : g'.mm = g.mm
  snapshot : g'.vaSpaceSnapshot = g.vaSpaceSnapshot
  lockOps : g'.lockOps = g.lockOps

theorem Grouping.flush_sameSpace (g : Grouping) : SameSpace g g.flush := by
  rw [flush]
  split
  · split <;> exact ⟨rfl, rfl, rfl, rfl⟩
  · exact ⟨rfl, rfl, rfl, rfl⟩

theorem Grouping.locate_sameSpace (ans : BatchAnswers) (i addr : Nat) :
    SameSpace g (g.locate ans i addr) := by
  rw [locate]
  split
  · exact ⟨rfl, rfl, rfl, rfl⟩
  · split
    · split
      · exact ⟨rfl, rfl, rfl, rfl⟩
      · split
        · exact ⟨rfl, rfl, rfl, rfl⟩
        · exact { g.flush_sameSpace with }
    · exact ⟨rfl, rfl, rfl, rfl⟩

theorem countFault_sameSpace : SameSpace g (countFault sb n g) := by
  rw [countFault]
  split
  · exact ⟨rfl, rfl, rfl, rfl⟩
  · split
    · exact ⟨rfl, rfl, rfl, rfl⟩
    · exact Grouping.locate_sameSpace ..

section

variable (h : SnapshotInv sb n g)
include h

theorem SnapshotInv.congr {g' : Grouping} (hsame : SameSpace g g') : SnapshotInv sb n g' where
  vaSpace_zero := by rw [hsame.vaSpace]; exact h.vaSpace_zero
  vaSpace := by rw [hsame.vaSpace]; exact h.vaSpace
  mm := by rw [hsame.mm, hsame.vaSpace]; exact h.mm
  snapshot := hsame.snapshot.trans h.snapshot
  refs := by rw [hsame.lockOps, hsame.vaSpace]; exact h.refs

theorem SnapshotInv.stay (hsame : g.vaSpace = some (sb.space n)) : SnapshotInv sb (n + 1) g where
  vaSpace_zero := nofun
  vaSpace := fun m hm => by rwa [← Nat.succ.inj hm]
  mm := h.mm
  snapshot := by
    rw [h.snapshot]
    cases hgpu : sb.ans.gpuVaSpace (sb.space n) with
    | none => exact (SortedBatch.lastSnapshot_of_none hgpu).symm
    | some gpuVaSpace =>
      cases n with
      | zero =>
        rw [h.vaSpace_zero rfl] at hsame
        cases hsame
      | succ m =>
        have hm : sb.space m = sb.space (m + 1) :=
          Option.some.inj ((h.vaSpace m rfl).symm.trans hsame)
        rw [SortedBatch.lastSnapshot_of_some hgpu, ← hm, ← SortedBatch.lastSnapshot_of_some]
        rw [hm, hgpu]
  refs := h.refs

theorem SnapshotInv.mmRefs_changeLocks (v w : VaSpaceId) :
    mmRefs (g.lockOps ++ g.changeLocks v (sb.ans.mm v)) w =
      if v = w ∧ (sb.ans.mm w).isSome then 1 else 0 := by
  have hnew : mmRefs [.mmRetainLock v (sb.ans.mm v), .downRead v] w =
      if v = w ∧ (sb.ans.mm w).isSome then 1 else 0 := by
    have hdown : (LockOp.downRead v).mmRef w = 0 := rfl
    simp only [mmRefs_cons, mmRefs_nil, mmRef_retain, hdown, Int.add_zero]
    by_cases hw : v = w
    · rw [hw]
    · rw [if_neg fun h => hw h.1, if_neg fun h => hw h.1]
  rw [Grouping.changeLocks, mmRefs_append, mmRefs_append, hnew, h.refs w]
  cases hspace : g.vaSpace with
  | none => simp
  | some old =>
    have hmm : g.mm = sb.ans.mm old := by
      rw [h.mm, hspace]
      rfl
    have hup : (LockOp.upRead old).mmRef w = 0 := rfl
    simp only [mmRefs_cons, mmRefs_nil, mmRef_release, hup, hmm, Option.some.injEq]
    by_cases hw : old = w
    · subst hw
      by_cases hsome : (sb.ans.mm old).isSome <;> simp [hsome]
    · simp [hw]

theorem SnapshotInv.changeVaSpace :
    SnapshotInv sb (n + 1) (g.changeVaSpace sb.ans (sb.space n)) where
  vaSpace_zero := nofun
  vaSpace := fun m hm => by rw [← Nat.succ.inj hm]; rfl
  mm := rfl
  snapshot := by
    simp only [Grouping.changeVaSpace, SortedBatch.lastSnapshot]
    cases hgpu : sb.ans.gpuVaSpace (sb.space n) with
    | none => exact h.snapshot
    | some gpuVaSpace => rfl
  refs := by
    intro w
    show mmRefs (g.lockOps ++ g.changeLocks (sb.space n) (sb.ans.mm (sb.space n))) w =
      if some (sb.space n) = some w ∧ (sb.ans.mm w).isSome then 1 else 0
    rw [h.mmRefs_changeLocks]
    simp only [Option.some.injEq]

theorem SnapshotInv.groupFault (hn : n < sb.size) :
    SnapshotInv sb (n + 1) (groupFault sb.ans sb.batch.entries n g) := by
  rw [groupFault_eq hn]
  split
  next hsame => exact (h.stay hsame).congr countFault_sameSpace
  next =>
    split
    · exact h.changeVaSpace
    · exact h.changeVaSpace.congr countFault_sameSpace

end

end Loop

/-! ## Main result -/

section Items

variable {sb : SortedBatch} {g : Grouping} {path : ServicePath}

end Items

section Converse

variable {sb : SortedBatch} {i j : Nat} {snapshot : VaSpaceSnapshot}

end Converse

end FaultMesh
