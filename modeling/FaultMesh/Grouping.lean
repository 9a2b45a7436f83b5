import FaultMesh.BatchService

/-!
# The groups of a batch

The grouping loop of `service_fault_batch_parallel` counts the faults of each block and takes the
count for the length of an interval. The groups are therefore the runs of equal blocks among the
faults that can be located, cut off at the capacity of the array.
-/

namespace FaultMesh

/-! ## Sorted batches -/

/-- The block the fault is to be serviced on: it is not fatal, its VA space has a GPU VA space, and
the range and the block are found. -/
def BatchAnswers.located (ans : BatchAnswers) (entries : Nat → FaultEntry) (i : Nat) :
    Option VaBlock :=
  if (entries i).isFatal then none
  else if ((entries i).vaSpace.bind ans.gpuVaSpace).isNone then none
  else if ans.inRange i then (ans.findCreateInRange i).toOption
  else none

theorem BatchAnswers.found_of_located {ans : BatchAnswers} {entries : Nat → FaultEntry} {i : Nat}
    {block : VaBlock} (h : ans.located entries i = some block) :
    ans.inRange i = true ∧ ans.findCreateInRange i = .ok block := by
  rw [located] at h
  by_cases hfatal : (entries i).isFatal
  · rw [if_pos hfatal] at h
    cases h
  · by_cases hgpu : ((entries i).vaSpace.bind ans.gpuVaSpace).isNone
    · rw [if_neg hfatal, if_pos hgpu] at h
      cases h
    · rw [if_neg hfatal, if_neg hgpu] at h
      split at h
      next hrange =>
        cases hfind : ans.findCreateInRange i with
        | error status =>
          rw [hfind] at h
          cases h
        | ok found =>
          rw [hfind] at h
          exact ⟨hrange, by rw [Option.some.inj h]⟩
      next => cases h

/-- A batch sorted by VA space and address, and the answers to what is asked about it. -/
structure SortedBatch where
  ans : BatchAnswers
  batch : ServiceBatch
  space : Nat → VaSpaceId
  /-- Preprocessing gives every fault its VA space. -/
  vaSpace : ∀ i < batch.numCoalescedFaults, (batch.entries i).vaSpace = some (space i)
  sorted : ∀ i j, i ≤ j → j < batch.numCoalescedFaults → space i < space j ∨
    space i = space j ∧ (batch.entries i).faultAddress ≤ (batch.entries j).faultAddress
  /-- Fetching aligns the addresses. -/
  aligned : ∀ i < batch.numCoalescedFaults, (batch.entries i).faultAddress % pageSize = 0
  /-- The block that is found holds the address and belongs to the VA space. -/
  found : ∀ i < batch.numCoalescedFaults, ∀ block, ans.located batch.entries i = some block →
    block.vaSpace = space i ∧ block.start ≤ (batch.entries i).faultAddress ∧
      (batch.entries i).faultAddress ≤ block.last
  hmmFound : ∀ i < batch.numCoalescedFaults, ∀ block, ans.hmmFindCreate i = .ok block →
    block.vaSpace = space i ∧ (batch.entries i).faultAddress ≤ block.last
  /-- While the VA space is locked, a block that was found is found again. -/
  kept : ∀ i j, i < j → j < batch.numCoalescedFaults → ∀ block,
    ans.located batch.entries i = some block → space j = space i →
      (batch.entries j).faultAddress ≤ block.last →
        ans.inRange j = true ∧ ans.findCreateInRange j = .ok block

namespace SortedBatch

variable (sb : SortedBatch)

def size : Nat := sb.batch.numCoalescedFaults

def address (i : Nat) : Nat := (sb.batch.entries i).faultAddress

def located (i : Nat) : Option VaBlock := sb.ans.located sb.batch.entries i

def blocks : List VaBlock := ((List.range sb.size).filterMap sb.located).dedup

variable {sb} {i j k n : Nat} {block : VaBlock}

theorem located_eq (hi : i < sb.size) : sb.located i =
    if (sb.batch.entries i).isFatal then none
    else if (sb.ans.gpuVaSpace (sb.space i)).isNone then none
    else if sb.ans.inRange i then (sb.ans.findCreateInRange i).toOption
    else none := by
  have hbind : (sb.batch.entries i).vaSpace.bind sb.ans.gpuVaSpace =
      sb.ans.gpuVaSpace (sb.space i) := by
    rw [sb.vaSpace i hi]
    rfl
  simp only [located, BatchAnswers.located, hbind]

theorem not_isFatal_of_located (h : sb.located i = some block) :
    (sb.batch.entries i).isFatal = false := by
  cases hfatal : (sb.batch.entries i).isFatal with
  | false => rfl
  | true =>
    rw [located, BatchAnswers.located, hfatal] at h
    cases h

theorem gpuVaSpace_of_located (hi : i < sb.size) (h : sb.located i = some block) :
    (sb.ans.gpuVaSpace (sb.space i)).isSome := by
  rw [located_eq hi] at h
  split_ifs at h with _ hgpu
  exact Option.isSome_iff_ne_none.2 fun hnone => hgpu (by rw [hnone]; rfl)

theorem space_mono (hij : i ≤ j) (hj : j < sb.size) : sb.space i ≤ sb.space j :=
  (sb.sorted i j hij hj).elim le_of_lt fun heq => heq.1.le

theorem between (hij : i ≤ j) (hjk : j ≤ k) (hk : k < sb.size) (h : sb.space i = sb.space k) :
    sb.space j = sb.space i ∧ sb.address i ≤ sb.address j ∧ sb.address j ≤ sb.address k := by
  have hj : j < sb.size := Nat.lt_of_le_of_lt hjk hk
  have h₁ := sb.sorted i j hij hj
  have h₂ := sb.sorted j k hjk hk
  have hji : sb.space j = sb.space i :=
    le_antisymm ((space_mono hjk hk).trans h.symm.le) (space_mono hij hj)
  refine ⟨hji, (h₁.resolve_left ?_).2, (h₂.resolve_left ?_).2⟩
  · rw [hji]
    exact lt_irrefl _
  · rw [hji, h]
    exact lt_irrefl _

theorem located_of_le_last (hij : i < j) (hj : j < sb.size) (h : sb.located i = some block)
    (hspace : sb.space j = sb.space i) (hlast : sb.address j ≤ block.last)
    (hfatal : (sb.batch.entries j).isFatal = false) : sb.located j = some block := by
  obtain ⟨hrange, hfind⟩ := sb.kept i j hij hj block h hspace hlast
  have hgpu := gpuVaSpace_of_located (Nat.lt_trans hij hj) h
  rw [located_eq hj, hfatal, hspace, Option.isNone_eq_false_iff.2 hgpu, hrange, hfind]
  rfl

theorem clustered : Clustered sb.located sb.size := by
  intro i j k block hij hjk hk hi hkb
  obtain ⟨hspace, -, hlast⟩ := sb.found k hk block hkb
  obtain ⟨hspace', -, -⟩ := sb.found i (Nat.lt_trans hij (Nat.lt_trans hjk hk)) block hi
  obtain ⟨hj, -, haddr⟩ := between hij.le hjk.le hk (hspace'.symm.trans hspace)
  cases hfatal : (sb.batch.entries j).isFatal with
  | true =>
    left
    rw [located, BatchAnswers.located, hfatal]
    rfl
  | false =>
    right
    exact located_of_le_last hij (Nat.lt_trans hjk hk) hi hj (haddr.trans hlast) hfatal

end SortedBatch

/-! ## The grouping loop -/

def BlockFaultGroup.toRun (group : BlockFaultGroup) : Run VaBlock :=
  ⟨group.vaBlock, group.firstFaultIndex, group.numFaults⟩

/-- The current block as a run that is not closed. -/
def Grouping.currentRun (g : Grouping) : List (Run VaBlock) :=
  match g.currentBlock with
  | some block => [⟨block, g.currentBlockFirstFault, g.currentBlockFaultCount⟩]
  | none => []

theorem Grouping.flush_vaSpace (g : Grouping) : g.flush.vaSpace = g.vaSpace := by
  rw [flush]
  split
  · split <;> rfl
  · rfl

theorem Grouping.flush_gpuVaSpace (g : Grouping) : g.flush.gpuVaSpace = g.gpuVaSpace := by
  rw [flush]
  split
  · split <;> rfl
  · rfl

/-- The state of the loop after `n` faults: the closed runs are in `groups` as far as there is room,
and the current block belongs to the current VA space. -/
structure GroupInv (sb : SortedBatch) (n : Nat) (closed : List (Run VaBlock)) (g : Grouping) :
    Prop where
  groups : g.groups.map BlockFaultGroup.toRun = takeRuns uvmParallelFaultMaxBlocks closed
  runs : g.currentRun ++ closed = FaultMesh.runs sb.located n
  count_pos : ∀ block, g.currentBlock = some block → 0 < g.currentBlockFaultCount
  gpuVaSpace : g.gpuVaSpace = g.vaSpace.bind sb.ans.gpuVaSpace
  block : ∀ block, g.currentBlock = some block →
    ∃ i < n, sb.located i = some block ∧ g.vaSpace = some (sb.space i)
  /-- Without a current block no fault of the VA space was located yet. -/
  fresh : g.currentBlock = none → ∀ i < n, (sb.located i).isSome → g.vaSpace ≠ some (sb.space i)

namespace GroupInv

variable {sb : SortedBatch} {n : Nat} {closed : List (Run VaBlock)} {g : Grouping}

theorem init (fatal : Option VaSpaceId) : GroupInv sb 0 [] { fatalVaSpace := fatal } where
  groups := rfl
  runs := rfl
  count_pos := nofun
  gpuVaSpace := rfl
  block := nofun
  fresh := fun _ i hi => absurd hi (Nat.not_lt_zero i)

section

variable (h : GroupInv sb n closed g)
include h

theorem flush_groups :
    g.flush.groups.map BlockFaultGroup.toRun =
      takeRuns uvmParallelFaultMaxBlocks (g.currentRun ++ closed) := by
  have hlen : (takeRuns uvmParallelFaultMaxBlocks closed).length = g.groups.length := by
    rw [← h.groups, List.length_map]
  cases hblock : g.currentBlock with
  | none =>
    simp only [Grouping.flush, Grouping.currentRun, hblock]
    exact h.groups
  | some block =>
    have hpos := h.count_pos block hblock
    simp only [Grouping.flush, Grouping.currentRun, hblock, hpos, true_and, List.singleton_append,
      takeRuns_cons, hlen]
    split
    · rw [List.map_append, h.groups]
      rfl
    · exact h.groups

theorem changeVaSpace {vaSpace : VaSpaceId} (hnew : ∀ i < n, sb.space i ≠ vaSpace) :
    GroupInv sb n (g.currentRun ++ closed) (g.changeVaSpace sb.ans vaSpace) where
  groups := h.flush_groups
  runs := h.runs
  count_pos := nofun
  gpuVaSpace := rfl
  block := nofun
  fresh := fun _ i hi _ heq => hnew i hi (Option.some.inj heq).symm

/-- A fault that is not located leaves the groups alone. -/
theorem skip (hnone : sb.located n = none) : GroupInv sb (n + 1) closed g where
  groups := h.groups
  runs := by rw [h.runs, FaultMesh.runs, hnone, pushRun]
  count_pos := h.count_pos
  gpuVaSpace := h.gpuVaSpace
  block := fun block hblock => by
    obtain ⟨i, hi, hloc⟩ := h.block block hblock
    exact ⟨i, Nat.lt_succ_of_lt hi, hloc⟩
  fresh := fun hblock i hi hsome => by
    rcases Nat.lt_succ_iff_lt_or_eq.1 hi with hi | rfl
    · exact h.fresh hblock i hi hsome
    · rw [hnone] at hsome
      cases hsome

theorem countUp {block : VaBlock} (hblock : g.currentBlock = some block)
    (hloc : sb.located n = some block) :
    GroupInv sb (n + 1) closed
      { g with currentBlockFaultCount := g.currentBlockFaultCount + 1 } where
  groups := h.groups
  runs := by
    have hruns := h.runs
    simp only [Grouping.currentRun, hblock] at hruns ⊢
    rw [FaultMesh.runs, hloc, ← hruns]
    exact (pushRun_head n ⟨block, _, _⟩ closed).symm
  count_pos := fun _ _ => Nat.succ_pos _
  gpuVaSpace := h.gpuVaSpace
  block := fun block' hblock' => by
    obtain ⟨i, hi, hloc'⟩ := h.block block' hblock'
    exact ⟨i, Nat.lt_succ_of_lt hi, hloc'⟩
  fresh := fun hnone => by
    have hnone : g.currentBlock = none := hnone
    rw [hblock] at hnone
    cases hnone

theorem startBlock {block : VaBlock} (hn : n < sb.size)
    (hspace : g.vaSpace = some (sb.space n)) (hne : some block ≠ g.currentBlock)
    (hloc : sb.located n = some block) :
    GroupInv sb (n + 1) (g.currentRun ++ closed)
      { g.flush with
        status := .ok
        currentBlock := some block
        currentBlockFirstFault := n
        currentBlockFaultCount := 1 } where
  groups := h.flush_groups
  runs := by
    show ⟨block, n, 1⟩ :: (g.currentRun ++ closed) = _
    rw [FaultMesh.runs, hloc, ← h.runs]
    refine (pushRun_of_ne ?_).symm
    intro r hr
    cases hblock : g.currentBlock with
    | some current =>
      simp only [Grouping.currentRun, hblock, List.cons_append, List.head?_cons,
        Option.mem_some_iff] at hr
      rintro rfl
      rw [hblock, ← hr] at hne
      exact hne rfl
    | none =>
      -- the latest run lies in an earlier VA space
      rintro rfl
      have hmem : r ∈ FaultMesh.runs sb.located n := by
        rw [← h.runs]
        exact List.mem_of_mem_head? hr
      have hrun := (runs_spec (SortedBatch.clustered.mono hn.le)).runOf r hmem
      have hold := (sb.found r.first (Nat.lt_trans hrun.first_lt hn) r.key hrun.first_key).1
      have hnew := (sb.found n hn r.key hloc).1
      apply h.fresh hblock r.first hrun.first_lt (by rw [hrun.first_key]; rfl)
      rw [hspace, ← hold, hnew]
  count_pos := fun _ _ => Nat.one_pos
  gpuVaSpace := by
    show g.flush.gpuVaSpace = g.flush.vaSpace.bind _
    rw [g.flush_gpuVaSpace, g.flush_vaSpace]
    exact h.gpuVaSpace
  block := fun block' hblock' => by
    refine ⟨n, Nat.lt_succ_self n, hloc.trans hblock', ?_⟩
    show g.flush.vaSpace = _
    rw [g.flush_vaSpace, hspace]
  fresh := nofun

theorem locate (hn : n < sb.size) (hspace : g.vaSpace = some (sb.space n))
    (hfatal : (sb.batch.entries n).isFatal = false) (hgpu : g.gpuVaSpace.isNone = false) :
    ∃ closed', GroupInv sb (n + 1) closed' (g.locate sb.ans n (sb.address n)) := by
  have hgpu' : (sb.ans.gpuVaSpace (sb.space n)).isNone = false := by
    rwa [h.gpuVaSpace, hspace] at hgpu
  rw [Grouping.locate]
  by_cases hholds : g.holds (sb.address n)
  · rw [if_pos hholds]
    rw [Grouping.holds, Option.any_eq_true] at hholds
    obtain ⟨block, hblock, hin⟩ := hholds
    simp only [Bool.and_eq_true, decide_eq_true_eq] at hin
    -- the block was found for an earlier fault of the space
    obtain ⟨i, hi, hloc, hi'⟩ := h.block block hblock
    have hsame : sb.space n = sb.space i := Option.some.inj (hspace.symm.trans hi')
    exact ⟨closed, h.countUp hblock (SortedBatch.located_of_le_last hi hn hloc hsame hin.2 hfatal)⟩
  · rw [if_neg hholds]
    have hloc : sb.located n = if sb.ans.inRange n then (sb.ans.findCreateInRange n).toOption
        else none := by
      rw [SortedBatch.located_eq hn, hfatal, hgpu']
      rfl
    by_cases hrange : sb.ans.inRange n
    · rw [if_pos hrange] at hloc ⊢
      cases hfind : sb.ans.findCreateInRange n with
      | error status =>
        rw [hfind] at hloc
        have hskip := h.skip hloc
        exact ⟨closed, hskip.groups, hskip.runs, hskip.count_pos, hskip.gpuVaSpace, hskip.block,
          hskip.fresh⟩
      | ok block =>
        rw [hfind] at hloc
        dsimp only
        split
        next heq =>
          have hcount := h.countUp heq.symm hloc
          exact ⟨closed, hcount.groups, hcount.runs, hcount.count_pos, hcount.gpuVaSpace,
            hcount.block, hcount.fresh⟩
        next hne => exact ⟨_, h.startBlock hn hspace hne hloc⟩
    · rw [if_neg hrange] at hloc ⊢
      exact ⟨closed, h.skip hloc⟩

end

end GroupInv

section Loop

variable {sb : SortedBatch} {n : Nat} {closed : List (Run VaBlock)} {g : Grouping}

/-- The part of the loop body behind the change of the VA space. -/
def countFault (sb : SortedBatch) (n : Nat) (g : Grouping) : Grouping :=
  if (sb.batch.entries n).isFatal then { g with fatalVaSpace := g.fatalVaSpace.or g.vaSpace }
  else if g.gpuVaSpace.isNone then g
  else g.locate sb.ans n (sb.address n)

theorem GroupInv.countFault (h : GroupInv sb n closed g) (hn : n < sb.size)
    (hspace : g.vaSpace = some (sb.space n)) :
    ∃ closed', GroupInv sb (n + 1) closed' (countFault sb n g) := by
  have hgpuVaSpace : g.gpuVaSpace = sb.ans.gpuVaSpace (sb.space n) := by
    rw [h.gpuVaSpace, hspace]
    rfl
  rw [FaultMesh.countFault]
  cases hfatal : (sb.batch.entries n).isFatal with
  | true =>
    have hskip := h.skip (by rw [SortedBatch.located_eq hn, hfatal]; rfl)
    exact ⟨closed, hskip.groups, hskip.runs, hskip.count_pos, hskip.gpuVaSpace, hskip.block,
      hskip.fresh⟩
  | false =>
    cases hgpu : g.gpuVaSpace.isNone with
    | true =>
      refine ⟨closed, h.skip ?_⟩
      rw [SortedBatch.located_eq hn, hfatal, ← hgpuVaSpace, hgpu]
      rfl
    | false => exact h.locate hn hspace hfatal hgpu

theorem groupFault_eq (hn : n < sb.size) : groupFault sb.ans sb.batch.entries n g =
    if g.vaSpace = some (sb.space n) then countFault sb n g
    else if (sb.ans.gpuVaSpace (sb.space n)).isNone then g.changeVaSpace sb.ans (sb.space n)
    else countFault sb n (g.changeVaSpace sb.ans (sb.space n)) := by
  simp only [groupFault, sb.vaSpace n hn]
  rfl

theorem space_ne_of_changed (hn : n < sb.size) (hprev : ∀ m, n = m + 1 → g.vaSpace = some (sb.space m))
    (hne : g.vaSpace ≠ some (sb.space n)) : ∀ i < n, sb.space i ≠ sb.space n := by
  intro i hi heq
  obtain ⟨m, rfl⟩ : ∃ m, n = m + 1 := ⟨n - 1, by omega⟩
  have hm := (SortedBatch.between (Nat.lt_succ_iff.1 hi) (Nat.le_succ m) hn heq).1
  rw [hprev m rfl, hm, heq] at hne
  exact hne rfl

theorem Grouping.locate_vaSpace {i addr : Nat} : (g.locate sb.ans i addr).vaSpace = g.vaSpace := by
  rw [Grouping.locate]
  split
  · rfl
  · split
    · split
      · rfl
      · split
        · rfl
        · exact g.flush_vaSpace
    · rfl

theorem countFault_vaSpace : (countFault sb n g).vaSpace = g.vaSpace := by
  rw [countFault]
  split
  · rfl
  · split
    · rfl
    · exact Grouping.locate_vaSpace

theorem groupFault_vaSpace (hn : n < sb.size) :
    (groupFault sb.ans sb.batch.entries n g).vaSpace = some (sb.space n) := by
  rw [groupFault_eq hn]
  split
  next hsame => rw [countFault_vaSpace, hsame]
  next =>
    split
    · rfl
    · rw [countFault_vaSpace]
      rfl

theorem GroupInv.groupFault (h : GroupInv sb n closed g) (hn : n < sb.size)
    (hprev : ∀ m, n = m + 1 → g.vaSpace = some (sb.space m)) :
    ∃ closed', GroupInv sb (n + 1) closed' (groupFault sb.ans sb.batch.entries n g) := by
  rw [groupFault_eq hn]
  split
  next hsame => exact h.countFault hn hsame
  next hne =>
    have hchange := h.changeVaSpace (space_ne_of_changed hn hprev hne)
    split
    next hgpu =>
      refine ⟨_, hchange.skip ?_⟩
      rw [SortedBatch.located_eq hn, if_pos hgpu]
      exact ite_self none
    next => exact hchange.countFault hn rfl

theorem groupFaults_inv (hn : n ≤ sb.size) (fatal : Option VaSpaceId) :
    ∃ closed, GroupInv sb n closed
      (groupFaults sb.ans sb.batch.entries { fatalVaSpace := fatal } n) := by
  induction n with
  | zero => exact ⟨[], GroupInv.init fatal⟩
  | succ n ih =>
    obtain ⟨closed, h⟩ := ih (Nat.le_of_succ_le hn)
    refine h.groupFault hn fun m hm => ?_
    subst hm
    exact groupFault_vaSpace (Nat.lt_of_succ_lt hn)

end Loop

theorem groupBatch_groups (sb : SortedBatch) :
    (groupBatch sb.ans sb.batch).groups.map BlockFaultGroup.toRun =
      takeRuns uvmParallelFaultMaxBlocks (runs sb.located sb.size) := by
  obtain ⟨closed, h⟩ := @groupFaults_inv sb sb.size le_rfl sb.batch.fatalVaSpace
  rw [← h.runs]
  exact h.flush_groups

theorem runs_length (sb : SortedBatch) : (runs sb.located sb.size).length = sb.blocks.length :=
  (runs_spec SortedBatch.clustered).length_eq

/-! ## Main result -/

def BlockFaultGroup.Covers (group : BlockFaultGroup) (i : Nat) : Prop :=
  group.firstFaultIndex ≤ i ∧ i < group.firstFaultIndex + group.numFaults

/-- The groups partition the located faults: the intervals ascend and do not meet, every located
fault lies in exactly one of them, and the faults of an interval that are not fatal belong to the
block and the VA space of the group. -/
structure FaithfulGroups (sb : SortedBatch) (groups : List BlockFaultGroup) : Prop where
  ascending : groups.Pairwise fun g h => g.firstFaultIndex + g.numFaults ≤ h.firstFaultIndex
  exactlyOne : ∀ i < sb.size, (sb.located i).isSome →
    ∃ g ∈ groups, g.Covers i ∧ ∀ h ∈ groups, h.Covers i → h = g
  own : ∀ g ∈ groups, ∀ i, g.Covers i → (sb.batch.entries i).isFatal = false →
    (sb.batch.entries i).vaSpace = some g.vaBlock.vaSpace ∧
      g.vaBlock.start ≤ sb.address i ∧ sb.address i ≤ g.vaBlock.last

/-- No fatal fault stands between two faults located on one block. -/
def NoFatalBetween (sb : SortedBatch) : Prop :=
  ∀ i j k block, i < j → j < k → k < sb.size → sb.located i = some block →
    sb.located k = some block → (sb.batch.entries j).isFatal = false

namespace SortedBatch

variable {sb : SortedBatch}

theorem gapless_iff : Gapless sb.located sb.size ↔ NoFatalBetween sb := by
  constructor
  · intro h i j k block hij hjk hk hi hkb
    exact not_isFatal_of_located (h i j k block hij hjk hk hi hkb)
  · intro h i j k block hij hjk hk hi hkb
    rcases clustered i j k block hij hjk hk hi hkb with hnone | hsome
    · obtain ⟨hspace, -, hlast⟩ := sb.found k hk block hkb
      obtain ⟨hspace', -, -⟩ := sb.found i (Nat.lt_trans hij (Nat.lt_trans hjk hk)) block hi
      obtain ⟨hj, -, haddr⟩ := between hij.le hjk.le hk (hspace'.symm.trans hspace)
      exact located_of_le_last hij (Nat.lt_trans hjk hk) hi hj (haddr.trans hlast)
        (h i j k block hij hjk hk hi hkb)
    · exact hsome

theorem own_of_runOf {r : Run VaBlock} (h : RunOf sb.located sb.size r) {i : Nat} (hi : r.Covers i) :
    (sb.batch.entries i).vaSpace = some r.key.vaSpace ∧
      r.key.start ≤ sb.address i ∧ sb.address i ≤ r.key.last := by
  obtain ⟨k, hik, hk, hloc⟩ := h.exists_ge_of_covers hi
  obtain ⟨hspace, hstart, -⟩ := sb.found r.first h.first_lt r.key h.first_key
  obtain ⟨hspace', -, hlast⟩ := sb.found k hk r.key hloc
  obtain ⟨hi', h₁, h₂⟩ := between hi.1 hik hk (hspace.symm.trans hspace')
  refine ⟨?_, hstart.trans h₁, h₂.trans hlast⟩
  rw [sb.vaSpace i (Nat.lt_of_le_of_lt hik hk), hi', hspace]

end SortedBatch

theorem faithfulGroups_iff {sb : SortedBatch} {groups : List BlockFaultGroup}
    (hruns : ∀ r ∈ groups.map BlockFaultGroup.toRun, RunOf sb.located sb.size r) :
    FaithfulGroups sb groups ↔ Partition sb.located sb.size (groups.map BlockFaultGroup.toRun) := by
  have hinj : Function.Injective BlockFaultGroup.toRun := by
    rintro ⟨b, f, n⟩ ⟨b', f', n'⟩ heq
    cases heq
    rfl
  constructor
  · intro h
    refine ⟨List.pairwise_map.2 h.ascending, ?_, ?_⟩
    · intro i hi hsome
      obtain ⟨g, hg, hgi, hunique⟩ := h.exactlyOne i hi hsome
      refine ⟨g.toRun, List.mem_map_of_mem hg, hgi, fun r hr hri => ?_⟩
      obtain ⟨g', hg', rfl⟩ := List.mem_map.1 hr
      rw [hunique g' hg' hri]
    · intro r hr i block hri hloc
      exact (hruns r hr).key_of_covers SortedBatch.clustered hri hloc
  · intro h
    refine ⟨List.pairwise_map.1 h.ascending, ?_, ?_⟩
    · intro i hi hsome
      obtain ⟨r, hr, hri, hunique⟩ := h.exactlyOne i hi hsome
      obtain ⟨g, hg, rfl⟩ := List.mem_map.1 hr
      exact ⟨g, hg, hri, fun g' hg' hgi => hinj (hunique _ (List.mem_map_of_mem hg') hgi)⟩
    · intro g hg i hgi _
      exact SortedBatch.own_of_runOf (hruns _ (List.mem_map_of_mem hg)) hgi

/-- For every sorted batch: the groups partition the located faults if and only if no fatal fault
stands between two faults of a block and there are no more blocks than groups can be written. -/
theorem groups_faithful_iff (sb : SortedBatch) :
    FaithfulGroups sb (groupBatch sb.ans sb.batch).groups ↔
      NoFatalBetween sb ∧ sb.blocks.length ≤ uvmParallelFaultMaxBlocks := by
  have hclu : Clustered sb.located sb.size := SortedBatch.clustered
  have hspec := runs_spec hclu
  have hgroups := groupBatch_groups sb
  have hruns : ∀ r ∈ (groupBatch sb.ans sb.batch).groups.map BlockFaultGroup.toRun,
      RunOf sb.located sb.size r := by
    intro r hr
    rw [hgroups] at hr
    exact hspec.runOf r (mem_takeRuns hr)
  rw [faithfulGroups_iff hruns, hgroups, takeRuns_partition_iff hspec hclu, SortedBatch.gapless_iff,
    runs_length]

def firstBlock : VaBlock where
  vaSpace := 0
  start := 0
  last := 512 * 4096 - 1
  start_aligned := Nat.zero_mod pageSize
  last_lt := by decide

/-- Everything that is looked up is found on the first block and permitted. -/
def firstBlockAnswers : BatchAnswers where
  block :=
    { logicalPermissions := fun _ _ _ => .ok
      migratable := fun _ => true
      gpuAuthorized := fun _ _ => false
      thrashingHint := fun _ => .none
      selectResidency := fun _ _ => (0, false) }
  vaSpaceMm := fun _ => none
  mmAlive := fun _ => true
  gpuVaSpace := fun _ => some 0
  inRange := fun _ => true
  findCreateInRange := fun _ => .ok firstBlock
  hmmFindCreate := fun _ => .error .errInvalidAddress
  atsCanServiceFaults := fun _ => false
  atsCheckInGmmuRegion := fun _ => false
  serviceFaultBatchAts := fun _ => {}
  serviceLocked := fun _ _ => .ok

theorem firstBlockAnswers_located {entries : Nat → FaultEntry} {i : Nat} {block : VaBlock}
    (h : firstBlockAnswers.located entries i = some block) : firstBlock = block :=
  Except.ok.inj (BatchAnswers.found_of_located h).2

/-- One fault on the first page, with the given answers. -/
def firstPageBatch (ans : BatchAnswers)
    (hfind : ∀ block, ans.findCreateInRange 0 = .ok block → block = firstBlock)
    (hhmm : ∀ block, ans.hmmFindCreate 0 ≠ .ok block) : SortedBatch where
  ans := ans
  batch :=
    { entries := fun _ => { faultAddress := 0, vaSpace := some 0 }
      numCoalescedFaults := 1 }
  space := fun _ => 0
  vaSpace := fun _ _ => rfl
  sorted := fun _ _ _ _ => .inr ⟨rfl, le_rfl⟩
  aligned := fun _ _ => rfl
  found := by
    intro i hi block hloc
    obtain rfl : i = 0 := Nat.lt_one_iff.1 hi
    obtain rfl := hfind block (BatchAnswers.found_of_located hloc).2
    exact ⟨rfl, le_rfl, Nat.zero_le _⟩
  hmmFound := by
    intro i hi block hfound
    obtain rfl : i = 0 := Nat.lt_one_iff.1 hi
    exact absurd hfound (hhmm block)
  kept := fun i j hij hj => absurd hij (by have : j < 1 := hj; omega)

def locatedBatch : SortedBatch :=
  firstPageBatch firstBlockAnswers (fun _ h => (Except.ok.inj h).symm) nofun

/-- Faults on the first three pages, the middle one fatal. -/
def fatalBetween : SortedBatch where
  ans := firstBlockAnswers
  batch :=
    { entries := fun i => { faultAddress := i * 4096, vaSpace := some 0, isFatal := i = 1 }
      numCoalescedFaults := 3 }
  space := fun _ => 0
  vaSpace := fun _ _ => rfl
  sorted := fun _ _ hij _ => .inr ⟨rfl, Nat.mul_le_mul_right 4096 hij⟩
  aligned := fun i _ => Nat.mul_mod_left i 4096
  hmmFound := fun _ _ _ => nofun
  found := by
    intro i hi block hloc
    obtain rfl := firstBlockAnswers_located hloc
    simp only [firstBlock] at hi ⊢
    exact ⟨trivial, Nat.zero_le _, by omega⟩
  kept := by
    intro i j _ _ block hloc _ _
    obtain rfl := firstBlockAnswers_located hloc
    exact ⟨rfl, rfl⟩

/-- The group counts two faults, so that its interval has the fatal one and not the last one. -/
theorem fatal_between_loses_fault :
    (groupBatch fatalBetween.ans fatalBetween.batch).groups = [⟨firstBlock, 0, 2⟩] ∧
      fatalBetween.located 2 = some firstBlock ∧
      ¬ FaithfulGroups fatalBetween (groupBatch fatalBetween.ans fatalBetween.batch).groups := by
  have hgroups : (groupBatch fatalBetween.ans fatalBetween.batch).groups = [⟨firstBlock, 0, 2⟩] := by
    decide
  refine ⟨hgroups, by decide, fun h => ?_⟩
  obtain ⟨g, hg, hcovers, -⟩ := h.exactlyOne 2 (by decide) (by decide)
  rw [hgroups, List.mem_singleton] at hg
  subst hg
  exact absurd hcovers.2 (by decide)

end FaultMesh
