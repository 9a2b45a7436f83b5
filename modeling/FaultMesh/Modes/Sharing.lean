import FaultMesh.Modes.Machine
import FaultMesh.Lib.Sharing

/-!
# Sharing out the items of a dispatch

From the moment workers are let loose, every item of a dispatch is in one place: still to be given
out, in the hand of one worker, or finished. A worker that took a number has the lane of that number
in its hand, even before it has found out; with the cursor, it has the one item that the cursor gave
it. This holds for all schemes alike, as long as the fields and the parameters that workers read
stay as they were.
-/

namespace FaultMesh.Modes

open Function FaultMesh.Modes.WorkerPc FaultMesh.Modes.Worker

/-! ## Hands -/

/-- The worker took a number and is on its way into a loop. -/
def WorkerPc.inWindow : WorkerPc → Bool
  | .readNumItems | .readNumActive | .readQueueBase | .readMerge | .readDynamic | .readGroupSeg
  | .readTables | .readSegParallel | .readSegment => true
  | _ => false

def WorkerPc.inLoop : WorkerPc → Bool
  | .addCursor | .takeItem | .service | .decRemaining | .complete => true
  | _ => false

/-- The worker has an item that is not counted yet. -/
def WorkerPc.hasItem : WorkerPc → Bool
  | .takeItem | .service | .decRemaining => true
  | _ => false

/-- How far the worker got with its reads. -/
def WorkerPc.rank : WorkerPc → Nat
  | .outside => 0
  | .readNumItems => 1
  | .readNumActive => 2
  | .readQueueBase => 3
  | .readMerge => 4
  | _ => 5

/-- What a loop with a stride visits from an index on. -/
def Worker.rest (wk : Worker) (idx : Nat) : Set Nat :=
  { i | i ∈ (⟨idx, wk.stop, wk.stride⟩ : Lane).indices }

section Hands

variable (v : Layout) (ps : ModeParams)

def numberItems (id : Nat) : Set Nat :=
  { i | id < v.batchNumActive ∧ ∃ lanes, v.lanes ps = some lanes ∧ TakenBy lanes i id }

def Worker.hand (wk : Worker) : Set Nat :=
  match wk.pc with
  | .outside | .addCursor => ∅
  | .takeItem | .service | .decRemaining =>
    if wk.scheme = .cursor then {wk.idx} else wk.rest wk.idx
  | .complete => if wk.scheme = .cursor then ∅ else wk.rest (wk.idx + wk.stride)
  | _ => numberItems v ps wk.myBatchId

/-- The items that are still to be given out. -/
def pot (counter cursor : Nat) : Set Nat :=
  match v.lanes ps with
  | none => { i | cursor ≤ i ∧ i < v.batchNumGroups }
  | some _ => { i | ∃ id, counter ≤ id ∧ i ∈ numberItems v ps id }

/-- A number is dispatched for every lane. -/
def Layout.Adequate : Prop := ∀ lanes, v.lanes ps = some lanes → lanes.length ≤ v.batchNumActive

/-- On the way into a loop: the local copies agree with the fields. -/
structure Window (counter : Nat) (wk : Worker) : Prop where
  claimed : wk.myBatchId < v.batchNumActive → wk.myBatchId < counter
  numItems : 2 ≤ wk.pc.rank → wk.numItems = v.batchNumGroups
  numActive : 3 ≤ wk.pc.rank → wk.numActive = v.batchNumActive
  qBase : 4 ≤ wk.pc.rank → wk.qBase = v.queueBase
  active : 5 ≤ wk.pc.rank → wk.myBatchId < v.batchNumActive
  groupSeg : wk.pc = .readGroupSeg → v.scheme ps ≠ .cursor
  tables : wk.pc = .readTables → v.scheme ps = .tables
  segParallel : wk.pc = .readSegParallel → v.scheme ps ≠ .cursor ∧ v.scheme ps ≠ .tables
  segment : wk.pc = .readSegment → v.scheme ps = .segments

structure InLoop (counter : Nat) (wk : Worker) : Prop where
  claimed : wk.myBatchId < counter
  active : wk.myBatchId < v.batchNumActive
  numItems : wk.numItems = v.batchNumGroups
  qBase : wk.qBase = v.queueBase
  scheme : wk.scheme = v.scheme ps
  stride : wk.scheme ≠ .cursor → 0 < wk.stride

structure Placed (counter : Nat) (wk : Worker) : Prop where
  window : wk.pc.inWindow = true → Window v ps counter wk
  loop : wk.pc.inLoop = true → InLoop v ps counter wk
  bound : wk.pc.hasItem = true → wk.scheme ≠ .cursor → wk.idx < wk.stop
  cursor : wk.pc = .addCursor → wk.scheme = .cursor

structure Valid : Prop where
  groups_pos : 0 < v.batchNumGroups
  shares : ∀ lanes, v.lanes ps = some lanes → Shares lanes v.batchNumGroups

/-- The items of a dispatch are shared out among the workers. -/
structure Sharing {k : Nat} (counter cursor : Nat) (workers : Fin k → Worker)
    (serviced finished : List Nat) : Prop where
  valid : Valid v ps
  shared : SharedOut (Finset.range v.batchNumGroups) (fun w => (workers w).hand v ps)
    (pot v ps counter cursor) finished
  placed : ∀ w, Placed v ps counter (workers w)
  covered : v.Adequate ps → ∀ i < v.batchNumGroups,
    i ∈ finished ∨ i ∈ pot v ps counter cursor ∨ ∃ w, i ∈ (workers w).hand v ps
  nodup : serviced.Nodup
  serviced_iff : ∀ i, i ∈ serviced ↔
    i ∈ finished ∨ ∃ w, (workers w).pc = .decRemaining ∧ (workers w).idx = i

end Hands

/-! ## Loops -/

section Loops

variable {v : Layout} {ps : ModeParams} {counter : Nat} {wk : Worker}

theorem hand_of_inWindow (h : wk.pc.inWindow = true) :
    wk.hand v ps = numberItems v ps wk.myBatchId := by
  unfold hand
  cases hpc : wk.pc <;> simp [hpc, inWindow] at h ⊢

theorem WorkerPc.inLoop_of_hasItem {pc : WorkerPc} (h : pc.hasItem = true) : pc.inLoop = true := by
  cases pc <;> simp [hasItem, inLoop] at h ⊢

def Worker.later (wk : Worker) : Set Nat :=
  if wk.scheme = .cursor then ∅ else wk.rest (wk.idx + wk.stride)

theorem Placed.mem_hand_iff (h : Placed v ps counter wk) (hitem : wk.pc.hasItem = true) {i : Nat} :
    i ∈ wk.hand v ps ↔ i = wk.idx ∨ i ∈ wk.later := by
  have hloop := h.loop (inLoop_of_hasItem hitem)
  have hhand : wk.hand v ps = if wk.scheme = .cursor then {wk.idx} else wk.rest wk.idx := by
    unfold hand
    cases hpc : wk.pc <;> simp [hpc, hasItem] at hitem ⊢
  rw [hhand, later]
  split
  · simp
  · rename_i hscheme
    exact Lane.mem_indices_next (hloop.stride hscheme) (h.bound hitem hscheme)

theorem Placed.idx_mem_hand (h : Placed v ps counter wk) (hitem : wk.pc.hasItem = true) :
    wk.idx ∈ wk.hand v ps := (h.mem_hand_iff hitem).2 (.inl rfl)

theorem InLoop.idx_not_mem_later (h : InLoop v ps counter wk) : wk.idx ∉ wk.later := by
  unfold later
  split
  · exact nofun
  · rename_i hscheme
    intro hmem
    have hpos := h.stride hscheme
    have hle := ((Lane.mem_indices hpos).1 hmem).1
    dsimp only at hle
    omega

theorem InLoop.loopFrom (h : InLoop v ps counter wk) (hscheme : wk.scheme ≠ .cursor) (idx : Nat) :
    Placed v ps counter (wk.loopFrom idx) ∧ (wk.loopFrom idx).hand v ps = wk.rest idx := by
  unfold Worker.loopFrom
  by_cases hlt : idx < wk.stop
  · rw [if_pos hlt]
    refine ⟨⟨nofun, fun _ => ⟨h.claimed, h.active, h.numItems, h.qBase, h.scheme, h.stride⟩,
      fun _ _ => hlt, nofun⟩, ?_⟩
    exact if_neg hscheme
  · rw [if_neg hlt]
    refine ⟨⟨nofun, nofun, nofun, nofun⟩, ?_⟩
    -- past the end of the loop there is nothing left
    have hnil := Lane.indices_eq_nil (h.stride hscheme) (Nat.le_of_not_lt hlt)
    simp [hand, rest, hnil]

theorem InLoop.next (h : InLoop v ps counter wk) :
    Placed v ps counter wk.next ∧ wk.next.hand v ps = wk.later := by
  unfold Worker.next later
  split
  · rename_i hscheme
    refine ⟨⟨nofun, fun _ => ⟨h.claimed, h.active, h.numItems, h.qBase, h.scheme, h.stride⟩, nofun,
      fun _ => hscheme⟩, rfl⟩
  · rename_i hscheme
    exact h.loopFrom hscheme _

theorem next_pc_ne (wk : Worker) : wk.next.pc ≠ .decRemaining := by
  unfold Worker.next Worker.loopFrom
  split_ifs <;> exact nofun

theorem Window.enter (h : Window v ps counter wk) (hrank : 5 ≤ wk.pc.rank) {scheme : Scheme}
    {segId : Nat} {lane : Lane} {lanes : List Lane} (hscheme : v.scheme ps = scheme)
    (hcursor : scheme ≠ .cursor) (hlanes : v.lanes ps = some lanes)
    (hlane : lanes[wk.myBatchId]? = some lane) (hpos : 0 < lane.stride) :
    Placed v ps counter (wk.enter scheme segId lane) ∧
      (wk.enter scheme segId lane).hand v ps = numberItems v ps wk.myBatchId := by
  have hactive := h.active hrank
  have hloop : InLoop v ps counter { wk with
      scheme := scheme, segId := segId, stop := lane.stop, stride := lane.stride } :=
    ⟨h.claimed hactive, hactive, h.numItems (by omega), h.qBase (by omega), hscheme.symm,
      fun _ => hpos⟩
  obtain ⟨hplaced, hhand⟩ := hloop.loopFrom hcursor lane.start
  refine ⟨hplaced, ?_⟩
  show hand v ps (Worker.loopFrom _ lane.start) = _
  rw [hhand]
  ext i
  constructor
  · intro hi
    exact ⟨hactive, lanes, hlanes, lane, hlane, hi⟩
  · rintro ⟨-, lanes', hlanes', lane', hlane', hi⟩
    rw [hlanes] at hlanes'
    cases hlanes'
    rw [hlane] at hlane'
    cases hlane'
    exact hi

theorem Placed.mono {counter' : Nat} (h : Placed v ps counter wk) (hle : counter ≤ counter') :
    Placed v ps counter' wk :=
  { h with
    window := fun hpc =>
      let hw := h.window hpc
      { hw with claimed := fun hlt => (hw.claimed hlt).trans_le hle }
    loop := fun hpc =>
      let hl := h.loop hpc
      { hl with claimed := hl.claimed.trans_le hle } }

theorem Placed.congr {ps' : ModeParams} (h : Placed v ps counter wk)
    (hscheme : v.scheme ps' = v.scheme ps) : Placed v ps' counter wk :=
  { h with
    window := fun hpc =>
      let hw := h.window hpc
      { hw with
        groupSeg := hscheme ▸ hw.groupSeg
        tables := hscheme ▸ hw.tables
        segParallel := hscheme ▸ hw.segParallel
        segment := hscheme ▸ hw.segment }
    loop := fun hpc =>
      let hl := h.loop hpc
      { hl with scheme := hscheme ▸ hl.scheme } }

section

variable (h : Window v ps counter wk)
include h

theorem Window.readNumItems :
    Window v ps counter { wk with numItems := v.batchNumGroups, pc := .readNumActive } :=
  ⟨h.claimed, fun _ => rfl, by simp [rank], by simp [rank],
    by simp [rank], nofun, nofun, nofun, nofun⟩

theorem Window.readNumActive (hpc : wk.pc = .readNumActive) :
    Window v ps counter { wk with numActive := v.batchNumActive, pc := .readQueueBase } :=
  ⟨h.claimed, fun _ => h.numItems (by rw [hpc]; decide), fun _ => rfl, by simp [rank],
    by simp [rank], nofun, nofun, nofun, nofun⟩

theorem Window.readQueueBase (hpc : wk.pc = .readQueueBase) :
    Window v ps counter { wk with qBase := v.queueBase, pc := .readMerge } :=
  ⟨h.claimed, fun _ => h.numItems (by rw [hpc]; decide),
    fun _ => h.numActive (by rw [hpc]; decide), fun _ => rfl, by simp [rank], nofun, nofun,
    nofun, nofun⟩

theorem Window.goTo (hrank : wk.pc.rank = 5) {pc : WorkerPc}
    (groupSeg : pc = .readGroupSeg → v.scheme ps ≠ .cursor)
    (tables : pc = .readTables → v.scheme ps = .tables)
    (segParallel : pc = .readSegParallel → v.scheme ps ≠ .cursor ∧ v.scheme ps ≠ .tables)
    (segment : pc = .readSegment → v.scheme ps = .segments) :
    Window v ps counter { wk with pc := pc } :=
  ⟨h.claimed, fun _ => h.numItems (by omega), fun _ => h.numActive (by omega),
    fun _ => h.qBase (by omega), fun _ => h.active (by omega), groupSeg, tables, segParallel, segment⟩

end

end Loops

/-! ## The pot -/

section Pot

variable {v : Layout} {ps : ModeParams} {counter cursor i : Nat}

theorem numberItems_of_cursor (h : v.lanes ps = none) (id : Nat) : numberItems v ps id = ∅ := by
  ext i
  simp [numberItems, h]

theorem numberItems_of_length_le {lanes : List Lane} (h : v.lanes ps = some lanes) {id : Nat}
    (hle : lanes.length ≤ id) : numberItems v ps id = ∅ := by
  ext i
  refine ⟨?_, nofun⟩
  rintro ⟨-, lanes', hlanes', htaken⟩
  rw [h] at hlanes'
  cases hlanes'
  exact absurd htaken.lt_length (Nat.not_lt.2 hle)

theorem numberItems_of_active_le {id : Nat} (hle : v.batchNumActive ≤ id) :
    numberItems v ps id = ∅ := by
  ext i
  exact ⟨fun hi => absurd hi.1 (Nat.not_lt.2 hle), nofun⟩

theorem length_workerTable (seg : Nat) (ws : List Nat) : (workerTable seg ws).length = ws.sum := by
  induction ws generalizing seg with
  | nil => rfl
  | cons w ws ih => simp [workerTable, ih]

theorem Valid.eq_of_mem (h : Valid v ps) {id id' : Nat} (hi : i ∈ numberItems v ps id)
    (hi' : i ∈ numberItems v ps id') : id = id' := by
  obtain ⟨-, lanes, hlanes, htaken⟩ := hi
  obtain ⟨-, lanes', hlanes', htaken'⟩ := hi'
  rw [hlanes] at hlanes'
  cases hlanes'
  exact (h.shares lanes hlanes).eq_of_takenBy htaken htaken'

theorem mem_pot_claim :
    i ∈ pot v ps counter cursor ↔
      i ∈ numberItems v ps counter ∨ i ∈ pot v ps (counter + 1) cursor := by
  unfold pot
  cases hlanes : v.lanes ps with
  | none => simp [numberItems_of_cursor hlanes]
  | some lanes =>
    constructor
    · rintro ⟨id, hle, hi⟩
      rcases Nat.eq_or_lt_of_le hle with rfl | hlt
      · exact .inl hi
      · exact .inr ⟨id, hlt, hi⟩
    · rintro (hi | ⟨id, hle, hi⟩)
      · exact ⟨counter, Nat.le_refl _, hi⟩
      · exact ⟨id, Nat.le_of_succ_le hle, hi⟩

theorem Valid.not_mem_pot (h : Valid v ps) (hi : i ∈ numberItems v ps counter) :
    i ∉ pot v ps (counter + 1) cursor := by
  unfold pot
  cases hlanes : v.lanes ps with
  | none => simp [numberItems_of_cursor hlanes] at hi
  | some lanes =>
    rintro ⟨id, hle, hi'⟩
    have := h.eq_of_mem hi hi'
    omega

theorem mem_pot_cursor (h : v.lanes ps = none) :
    i ∈ pot v ps counter cursor ↔
      (i = cursor ∧ cursor < v.batchNumGroups) ∨ i ∈ pot v ps counter (cursor + 1) := by
  simp only [pot, h, Set.mem_ofPred_eq]
  omega

end Pot

/-! ## Moves -/

section Moves

variable {v : Layout} {ps : ModeParams} {k counter cursor : Nat} {workers : Fin k → Worker}
  {serviced finished : List Nat}

theorem hand_update (w : Fin k) (wk' : Worker) :
    (fun w' => (update workers w wk' w').hand v ps) =
      update (fun w' => (workers w').hand v ps) w (wk'.hand v ps) :=
  comp_update (hand v ps) workers w wk'

theorem exists_dec_update {w : Fin k} {wk' : Worker} {i : Nat}
    (hpc : (workers w).pc ≠ .decRemaining) (hpc' : wk'.pc ≠ .decRemaining) :
    (∃ w', (update workers w wk' w').pc = .decRemaining ∧
        (update workers w wk' w').idx = i) ↔
      ∃ w', (workers w').pc = .decRemaining ∧ (workers w').idx = i := by
  rw [exists_update_iff workers fun _ wk => wk.pc = .decRemaining ∧ wk.idx = i]
  constructor
  · rintro (⟨hdec, -⟩ | ⟨w', -, hw'⟩)
    · exact absurd hdec hpc'
    · exact ⟨w', hw'⟩
  · rintro ⟨w', hw'⟩
    exact .inr ⟨w', fun heq => hpc (heq ▸ hw'.1), hw'⟩

theorem placed_update {counter' : Nat} (h : ∀ w, Placed v ps counter (workers w))
    (hle : counter ≤ counter') {w : Fin k} {wk' : Worker} (hwk : Placed v ps counter' wk')
    (w' : Fin k) : Placed v ps counter' (update workers w wk' w') := by
  rcases eq_or_ne w' w with rfl | hne
  · rwa [update_self]
  · rw [update_of_ne hne]
    exact (h w').mono hle

variable (h : Sharing v ps counter cursor workers serviced finished)
include h

theorem Sharing.take {counter' cursor' : Nat} {w : Fin k} {wk' : Worker}
    (htake : ∀ i, i ∈ (workers w).hand v ps ∨ i ∈ pot v ps counter cursor ↔
      i ∈ wk'.hand v ps ∨ i ∈ pot v ps counter' cursor')
    (hpot : pot v ps counter' cursor' ⊆ pot v ps counter cursor)
    (hapart : ∀ i ∈ wk'.hand v ps, i ∈ (workers w).hand v ps ∨ i ∉ pot v ps counter' cursor')
    (hle : counter ≤ counter') (hplaced : Placed v ps counter' wk')
    (hpc : (workers w).pc ≠ .decRemaining) (hpc' : wk'.pc ≠ .decRemaining) :
    Sharing v ps counter' cursor' (update workers w wk') serviced finished where
  valid := h.valid
  shared := by
    rw [hand_update]
    apply h.shared.take hpot
    intro i hi
    rcases (htake i).2 (.inl hi) with hold | hin
    · exact .inl hold
    · exact (hapart i hi).imp_right fun hout => ⟨hin, hout⟩
  placed := placed_update h.placed hle hplaced
  covered := by
    intro hadequate i hi
    have hwhere : i ∈ (workers w).hand v ps ∨ i ∈ pot v ps counter cursor →
        i ∈ pot v ps counter' cursor' ∨
          ∃ w', i ∈ (update workers w wk' w').hand v ps := by
      intro hold
      rcases (htake i).1 hold with hnew | hnew
      · exact .inr ⟨w, by rwa [update_self]⟩
      · exact .inl hnew
    rcases h.covered hadequate i hi with hdone | hin | ⟨w', hin⟩
    · exact .inl hdone
    · exact .inr (hwhere (.inr hin))
    · rcases eq_or_ne w' w with rfl | hne
      · exact .inr (hwhere (.inl hin))
      · exact .inr (.inr ⟨w', by rwa [update_of_ne hne]⟩)
  nodup := h.nodup
  serviced_iff := by
    intro i
    rw [h.serviced_iff, exists_dec_update hpc hpc']

theorem Sharing.keep {w : Fin k} {wk' : Worker} (hhand : wk'.hand v ps = (workers w).hand v ps)
    (hplaced : Placed v ps counter wk') (hpc : (workers w).pc ≠ .decRemaining)
    (hpc' : wk'.pc ≠ .decRemaining) :
    Sharing v ps counter cursor (update workers w wk') serviced finished := by
  apply h.take (fun i => by rw [hhand]) (Set.Subset.refl _) ?_ (Nat.le_refl _) hplaced hpc hpc'
  intro i hi
  exact .inl (hhand ▸ hi)

theorem Sharing.claim {w : Fin k} (hpc : (workers w).pc = .outside) :
    Sharing v ps (counter + 1) cursor
      (update workers w { workers w with myBatchId := counter, pc := .readNumItems })
      serviced finished := by
  have hnone : (workers w).hand v ps = ∅ := by simp [hand, hpc]
  apply h.take
  · intro i
    rw [hnone, mem_pot_claim]
    simp [hand]
  · intro i hi
    exact mem_pot_claim.2 (.inr hi)
  · intro i hi
    exact .inr (h.valid.not_mem_pot hi)
  · exact Nat.le_succ counter
  · refine ⟨fun _ => ?_, nofun, nofun, nofun⟩
    exact ⟨fun _ => Nat.lt_succ_self counter, by simp [rank], by simp [rank],
      by simp [rank], by simp [rank], nofun, nofun, nofun, nofun⟩
  · rw [hpc]
    exact nofun
  · exact nofun

theorem Sharing.addCursor {w : Fin k} (hpc : (workers w).pc = .addCursor) :
    Sharing v ps counter (cursor + 1)
      (update workers w { workers w with
        idx := cursor
        pc := if cursor < (workers w).numItems then .takeItem else .outside })
      serviced finished := by
  have hloop := (h.placed w).loop (by rw [hpc]; rfl)
  have hscheme := (h.placed w).cursor hpc
  have hlanes : v.lanes ps = none := by
    rw [Layout.lanes, ← hloop.scheme, hscheme]
    rfl
  have hnone : (workers w).hand v ps = ∅ := by simp [hand, hpc]
  have hsub : pot v ps counter (cursor + 1) ⊆ pot v ps counter cursor :=
    fun i hi => (mem_pot_cursor hlanes).2 (.inr hi)
  have hpcne : (workers w).pc ≠ .decRemaining := by simp [hpc]
  rw [hloop.numItems]
  by_cases hlt : cursor < v.batchNumGroups
  · rw [if_pos hlt]
    have hhand : hand v ps { workers w with idx := cursor, pc := .takeItem } = {cursor} :=
      if_pos hscheme
    refine h.take (fun i => ?_) hsub (fun i hi => ?_) (Nat.le_refl _) ?_ hpcne (by simp)
    · rw [hnone, hhand, mem_pot_cursor hlanes]
      simp [hlt]
    · rw [hhand] at hi
      cases hi
      refine .inr ?_
      simp [pot, hlanes]
    · exact ⟨(fun h => by cases h), fun _ => { hloop with }, fun _ hne => absurd hscheme hne,
        fun h => by cases h⟩
  · rw [if_neg hlt]
    have hhand : hand v ps { workers w with idx := cursor, pc := .outside } = ∅ := rfl
    refine h.take (fun i => ?_) hsub (by simp [hhand]) (Nat.le_refl _) ?_ hpcne (by simp)
    · rw [hnone, hhand, mem_pot_cursor hlanes]
      simp [hlt]
    · constructor <;> exact fun h => by cases h

theorem Sharing.leave {w : Fin k} {wk' : Worker} (hnone : (workers w).hand v ps = ∅)
    (hpc : (workers w).pc ≠ .decRemaining) (hpc' : wk'.pc = .outside) :
    Sharing v ps counter cursor (update workers w wk') serviced finished := by
  apply h.keep
  · rw [hnone]
    simp [hand, hpc']
  · constructor <;> simp [hpc', inWindow, inLoop, hasItem]
  · exact hpc
  · rw [hpc']
    exact nofun

theorem Sharing.service {w : Fin k} (hpc : (workers w).pc = .service) :
    Sharing v ps counter cursor
      (update workers w { workers w with pushes := [], pc := .decRemaining })
      ((workers w).idx :: serviced) finished := by
  have hplaced := h.placed w
  have hloop := hplaced.loop (by rw [hpc]; rfl)
  have hmine := hplaced.idx_mem_hand (by rw [hpc]; rfl)
  have hhand : hand v ps { workers w with pushes := [], pc := .decRemaining } =
      (workers w).hand v ps := by simp [hand, hpc, rest]
  -- only this worker has the item in hand
  have hfresh : (workers w).idx ∉ serviced := by
    rw [h.serviced_iff]
    rintro (hdone | ⟨w', hdec, hidx⟩)
    · exact (h.shared.hand_mem w _ hmine).2.1 hdone
    · have hother := (h.placed w').idx_mem_hand (by rw [hdec]; rfl)
      rw [hidx] at hother
      have heq := h.shared.hand_inj _ w w' hmine hother
      rw [← heq, hpc] at hdec
      cases hdec
  have hhands : (fun w' => (update workers w
      { workers w with pushes := [], pc := .decRemaining } w').hand v ps) =
      fun w' => (workers w').hand v ps := by
    rw [hand_update, hhand, update_eq_self w fun w' => (workers w').hand v ps]
  refine ⟨h.valid, ?_, ?_, ?_, List.nodup_cons.2 ⟨hfresh, h.nodup⟩, ?_⟩
  · rw [hhands]
    exact h.shared
  · apply placed_update h.placed (Nat.le_refl _)
    exact ⟨nofun, fun _ => { hloop with }, fun _ => hplaced.bound (by rw [hpc]; rfl), nofun⟩
  · intro hadequate i hi
    obtain hdone | hpot | ⟨w', hin⟩ := h.covered hadequate i hi
    · exact .inl hdone
    · exact .inr (.inl hpot)
    · exact .inr (.inr ⟨w', (congrFun hhands w').symm ▸ hin⟩)
  · intro i
    rw [List.mem_cons, h.serviced_iff,
      exists_update_iff workers fun _ wk => wk.pc = .decRemaining ∧ wk.idx = i]
    constructor
    · rintro (rfl | hdone | ⟨w', hw'⟩)
      · exact .inr (.inl ⟨rfl, rfl⟩)
      · exact .inl hdone
      · refine .inr (.inr ⟨w', ?_, hw'⟩)
        rintro rfl
        exact nomatch hpc.symm.trans hw'.1
    · rintro (hdone | ⟨-, rfl⟩ | ⟨w', -, hw'⟩)
      · exact .inr (.inl hdone)
      · exact .inl rfl
      · exact .inr (.inr ⟨w', hw'⟩)

theorem Sharing.count {w : Fin k} (hpc : (workers w).pc = .decRemaining) {wk' : Worker}
    (hhand : wk'.hand v ps = (workers w).later) (hplaced' : Placed v ps counter wk')
    (hpc' : wk'.pc ≠ .decRemaining) :
    Sharing v ps counter cursor (update workers w wk') serviced ((workers w).idx :: finished) := by
  have hplaced := h.placed w
  have hitem : (workers w).pc.hasItem = true := by rw [hpc]; rfl
  have hloop := hplaced.loop (inLoop_of_hasItem hitem)
  refine ⟨h.valid, ?_, placed_update h.placed (Nat.le_refl _) hplaced', ?_, h.nodup, ?_⟩
  · rw [hand_update, hhand]
    apply h.shared.finish (hplaced.idx_mem_hand hitem)
    intro i hi
    refine ⟨(hplaced.mem_hand_iff hitem).2 (.inr hi), ?_⟩
    rintro rfl
    exact hloop.idx_not_mem_later hi
  -- the item is finished, the later ones stay in hand
  · intro hadequate i hi
    obtain hdone | hpot | ⟨w', hin⟩ := h.covered hadequate i hi
    · exact .inl (List.mem_cons_of_mem _ hdone)
    · exact .inr (.inl hpot)
    · rcases eq_or_ne w' w with rfl | hne
      · rcases (hplaced.mem_hand_iff hitem).1 hin with rfl | hlater
        · exact .inl List.mem_cons_self
        · exact .inr (.inr ⟨w', by rwa [update_self, hhand]⟩)
      · exact .inr (.inr ⟨w', by rwa [update_of_ne hne]⟩)
  · intro i
    rw [h.serviced_iff, List.mem_cons,
      exists_update_iff workers fun _ wk => wk.pc = .decRemaining ∧ wk.idx = i]
    constructor
    · rintro (hdone | ⟨w', hw'⟩)
      · exact .inl (.inr hdone)
      · rcases eq_or_ne w' w with rfl | hne
        · exact .inl (.inl hw'.2.symm)
        · exact .inr (.inr ⟨w', hne, hw'⟩)
    · rintro ((rfl | hdone) | ⟨hdec, -⟩ | ⟨w', -, hw'⟩)
      · exact .inr ⟨w, hpc, rfl⟩
      · exact .inl hdone
      · exact absurd hdec hpc'
      · exact .inr ⟨w', hw'⟩

end Moves

/-! ## Before and after -/

section Ends

variable {v : Layout} {ps : ModeParams} {k counter cursor : Nat} {workers : Fin k → Worker}
  {serviced finished : List Nat}

/-- A worker that has nothing to do with items: it is outside, or its number will be turned away. -/
structure Calm (v : Layout) (ps : ModeParams) (wk : Worker) : Prop where
  placed : Placed v ps 0 wk
  away : wk.pc ≠ .outside → wk.pc.inWindow = true ∧ v.batchNumActive ≤ wk.myBatchId

theorem Calm.hand_eq_empty {wk : Worker} (h : Calm v ps wk) : wk.hand v ps = ∅ := by
  by_cases hpc : wk.pc = .outside
  · simp [hand, hpc]
  · obtain ⟨hin, hle⟩ := h.away hpc
    rw [hand_of_inWindow hin, numberItems_of_active_le hle]

theorem calm_of_outside {wk : Worker} (h : wk.pc = .outside) : Calm v ps wk := by
  refine ⟨?_, fun hne => absurd h hne⟩
  constructor <;> simp [h, inWindow, inLoop, hasItem]

theorem Sharing.start (hvalid : Valid v ps) (hcursor : v.lanes ps = none → cursor = 0)
    (hcalm : ∀ w, Calm v ps (workers w)) : Sharing v ps 0 cursor workers [] [] where
  valid := hvalid
  shared := by
    apply SharedOut.start
    · intro i hi
      rw [Finset.mem_range]
      unfold pot at hi
      cases hlanes : v.lanes ps with
      | none =>
        simp only [hlanes] at hi
        exact hi.2
      | some lanes =>
        simp only [hlanes] at hi
        obtain ⟨id, -, -, lanes', hlanes', htaken⟩ := hi
        exact (hvalid.shares lanes' hlanes').lt i id htaken
    · exact fun w => (hcalm w).hand_eq_empty
  placed := fun w => (hcalm w).placed
  covered := by
    intro hadequate i hi
    refine .inr (.inl ?_)
    unfold pot
    cases hlanes : v.lanes ps with
    | none => exact ⟨(Nat.le_of_eq (hcursor hlanes)).trans (Nat.zero_le i), hi⟩
    | some lanes =>
      obtain ⟨id, htaken, -⟩ := (hvalid.shares lanes hlanes).existsUnique i hi
      have hid := htaken.lt_length.trans_le (hadequate lanes hlanes)
      exact ⟨id, Nat.zero_le id, hid, lanes, hlanes, htaken⟩
  nodup := List.nodup_nil
  serviced_iff := by
    intro i
    refine ⟨nofun, ?_⟩
    rintro (hnil | ⟨w, hdec, -⟩)
    · exact hnil
    · have hin := ((hcalm w).away (by rw [hdec]; exact nofun)).1
      rw [hdec] at hin
      cases hin

theorem Sharing.hasItem_eq_false (h : Sharing v ps counter cursor workers serviced finished)
    (hall : finished.length = v.batchNumGroups) (w : Fin k) : (workers w).pc.hasItem = false := by
  apply Bool.eq_false_iff.2
  intro hitem
  have hempty := h.shared.hand_eq_empty (by rw [hall, Finset.card_range]) w
  have hmine := (h.placed w).idx_mem_hand hitem
  exact absurd hmine (hempty ▸ Set.notMem_empty _)

theorem Sharing.congr {ps' : ModeParams}
    (h : Sharing v ps counter cursor workers serviced finished)
    (hscheme : v.scheme ps' = v.scheme ps) :
    Sharing v ps' counter cursor workers serviced finished := by
  have hlanes : v.lanes ps' = v.lanes ps := by rw [Layout.lanes, hscheme, Layout.lanes]
  have hnumber : numberItems v ps' = numberItems v ps := by
    funext id
    simp only [numberItems, hlanes]
  have hhand : hand v ps' = hand v ps := by
    funext wk
    simp only [hand, hnumber]
  have hpot : pot v ps' = pot v ps := by
    funext counter cursor
    simp only [pot, hlanes, hnumber]
  refine ⟨⟨h.valid.groups_pos, ?_⟩, ?_, fun w => (h.placed w).congr hscheme, ?_, h.nodup,
    h.serviced_iff⟩
  · rw [hlanes]
    exact h.valid.shares
  · rw [hhand, hpot]
    exact h.shared
  · rw [hhand, hpot, Layout.Adequate, hlanes]
    exact h.covered

end Ends

/-! ## Accesses -/

section Accesses

variable {ps : ModeParams} {k : Nat} {workers : Fin k → Worker} {h : History} {p : Pool}
  {w : Fin k}

theorem Sharing.read {v : Layout} {counter cursor : Nat} {serviced finished : List Nat}
    (h : Sharing v ps counter cursor workers serviced finished) {wk' : Worker}
    (hpc : (workers w).pc.inWindow = true) (hpc' : wk'.pc.inWindow = true)
    (hid : wk'.myBatchId = (workers w).myBatchId) (hwindow : Window v ps counter wk') :
    Sharing v ps counter cursor (update workers w wk') serviced finished := by
  apply h.keep
  · rw [hand_of_inWindow hpc, hand_of_inWindow hpc', hid]
  · refine ⟨fun _ => hwindow, fun hloop => ?_, fun hitem => ?_, fun hcursor => ?_⟩
    · cases hwk : wk'.pc <;> simp [hwk, inWindow, inLoop] at hpc' hloop
    · cases hwk : wk'.pc <;> simp [hwk, inWindow, hasItem] at hpc' hitem
    · rw [hcursor] at hpc'
      cases hpc'
  · rintro hdec
    rw [hdec] at hpc
    cases hpc
  · rintro hdec
    rw [hdec] at hpc'
    cases hpc'

variable (hs : Sharing p.toLayout ps p.batchWorkerCounter p.workCursor workers h.serviced h.finished)
include hs

theorem Sharing.readMerge (hpc : (workers w).pc = .readMerge) :
    Sharing p.toLayout ps p.batchWorkerCounter p.workCursor
      (update workers w { workers w with
        useMerge := p.mergeOn
        pc := if (workers w).numActive ≤ (workers w).myBatchId ∨ (workers w).numItems = 0 then
          .outside else .readDynamic })
      h.serviced h.finished := by
  have hin : (workers w).pc.inWindow = true := by rw [hpc]; rfl
  have hwin := (hs.placed w).window hin
  have hrank : (workers w).pc.rank = 4 := by rw [hpc]; rfl
  have hactive := hwin.numActive (by omega)
  have hitems := hwin.numItems (by omega)
  have hpos := hs.valid.groups_pos
  split
  · rename_i htest
    apply hs.leave
    -- a number that is turned away has no items
    · rw [hand_of_inWindow hin]
      apply numberItems_of_active_le
      omega
    · rw [hpc]
      exact nofun
    · rfl
  · rename_i htest
    exact hs.read hin rfl rfl ⟨hwin.claimed, fun _ => hitems, fun _ => hactive,
      fun _ => hwin.qBase (by omega), fun _ => by dsimp only; omega, nofun, nofun, nofun, nofun⟩

theorem Sharing.readDynamic (hpc : (workers w).pc = .readDynamic) :
    Sharing p.toLayout ps p.batchWorkerCounter p.workCursor
      (update workers w
        (if p.dynamicActive && ps.dynamicDispatch then
          { workers w with scheme := .cursor, pc := .addCursor }
        else { workers w with pc := .readGroupSeg }))
      h.serviced h.finished := by
  have hin : (workers w).pc.inWindow = true := by rw [hpc]; rfl
  have hwin := (hs.placed w).window hin
  have hrank : (workers w).pc.rank = 5 := by rw [hpc]; rfl
  have hactive := hwin.active (by omega)
  split
  · rename_i hdynamic
    have hscheme : p.scheme ps = .cursor := by simp [Layout.scheme, hdynamic]
    have hlanes : p.lanes ps = none := by rw [Layout.lanes, hscheme]; rfl
    apply hs.keep
    · rw [hand_of_inWindow hin, numberItems_of_cursor hlanes]
      rfl
    · refine ⟨(fun h => by cases h), fun _ => ?_, (fun h => by cases h), fun _ => rfl⟩
      exact ⟨hwin.claimed hactive, hactive, hwin.numItems (by omega), hwin.qBase (by omega),
        hscheme.symm, fun hne => absurd rfl hne⟩
    · simp [hpc]
    · simp
  · rename_i hdynamic
    refine hs.read hin rfl rfl (hwin.goTo hrank (fun _ => ?_) (by simp) (by simp) (by simp))
    simp only [Layout.scheme, hdynamic, Bool.false_eq_true, if_false]
    split_ifs <;> simp

theorem Sharing.readGroupSeg (hpc : (workers w).pc = .readGroupSeg) :
    Sharing p.toLayout ps p.batchWorkerCounter p.workCursor
      (update workers w { workers w with
        pc := if p.segParallelActive && ps.groupSegParallel then .readTables
          else .readSegParallel })
      h.serviced h.finished := by
  have hin : (workers w).pc.inWindow = true := by rw [hpc]; rfl
  have hwin := (hs.placed w).window hin
  have hrank : (workers w).pc.rank = 5 := by rw [hpc]; rfl
  have hcursor := hwin.groupSeg hpc
  have hdynamic : (p.dynamicActive && ps.dynamicDispatch) = false := by
    apply Bool.eq_false_iff.2
    intro hdynamic
    exact hcursor (by simp [Layout.scheme, hdynamic])
  split
  · rename_i hgroup
    refine hs.read hin rfl rfl (hwin.goTo hrank (by simp) (fun _ => ?_) (by simp) (by simp))
    simp [Layout.scheme, hdynamic, hgroup]
  · rename_i hgroup
    refine hs.read hin rfl rfl (hwin.goTo hrank (by simp) (by simp) (fun _ => ⟨hcursor, ?_⟩) (by simp))
    simp only [Layout.scheme, hdynamic, hgroup, Bool.false_eq_true, if_false]
    split_ifs <;> simp

theorem Sharing.enter (hpc : (workers w).pc.inWindow = true) (hrank : (workers w).pc.rank = 5)
    {scheme : Scheme} {segId : Nat} {lane : Lane} {lanes : List Lane}
    (hscheme : p.scheme ps = scheme) (hcursor : scheme ≠ .cursor)
    (hlanes : p.lanes ps = some lanes) (hlane : lanes[(workers w).myBatchId]? = some lane) :
    Sharing p.toLayout ps p.batchWorkerCounter p.workCursor
      (update workers w ((workers w).enter scheme segId lane)) h.serviced h.finished := by
  have hwin := (hs.placed w).window hpc
  have hpos := (hs.valid.shares lanes hlanes).stride_pos lane (List.mem_of_getElem? hlane)
  obtain ⟨hplaced, hhand⟩ := @Window.enter _ _ _ _ hwin (by omega) _ segId _ _ hscheme hcursor hlanes
    hlane hpos
  apply hs.keep
  · rw [hhand, hand_of_inWindow hpc]
  · exact hplaced
  · rintro hdec
    rw [hdec] at hpc
    cases hpc
  · unfold Worker.enter Worker.loopFrom
    split_ifs <;> exact nofun

theorem Sharing.readTables (hpc : (workers w).pc = .readTables) :
    Sharing p.toLayout ps p.batchWorkerCounter p.workCursor
      (update workers w
        (if (workers w).myBatchId < p.workersPerSeg.sum then
          (workers w).enter .tables
            ((workerTable 0 p.workersPerSeg).getD (workers w).myBatchId (0, 0)).1
            (segmentLane (p.segs.zip p.workersPerSeg)
              ((workerTable 0 p.workersPerSeg).getD (workers w).myBatchId (0, 0)))
        else { workers w with pc := .outside }))
      h.serviced h.finished := by
  have hin : (workers w).pc.inWindow = true := by rw [hpc]; rfl
  have hscheme := ((hs.placed w).window hin).tables hpc
  have hlanes : p.lanes ps = some (groupLanes p.segs p.workersPerSeg) := by
    rw [Layout.lanes, hscheme]
    rfl
  have hlength : (groupLanes p.segs p.workersPerSeg).length = p.workersPerSeg.sum := by
    rw [groupLanes, List.length_map, length_workerTable]
  split
  · rename_i hlt
    apply hs.enter hin (by rw [hpc]; rfl) hscheme (by simp) hlanes
    rw [← length_workerTable 0] at hlt
    simp [groupLanes, List.getD_eq_getElem?_getD, List.getElem?_eq_getElem hlt]
  · rename_i hge
    apply hs.leave
    · rw [hand_of_inWindow hin, numberItems_of_length_le hlanes]
      omega
    · simp [hpc]
    · rfl

theorem Sharing.readSegment (hpc : (workers w).pc = .readSegment) :
    Sharing p.toLayout ps p.batchWorkerCounter p.workCursor
      (update workers w
        (if (workers w).myBatchId < p.segs.length then
          (workers w).enter .segments (workers w).myBatchId
            ⟨(p.segs.getD (workers w).myBatchId (0, 0)).1,
              (p.segs.getD (workers w).myBatchId (0, 0)).1 +
                (p.segs.getD (workers w).myBatchId (0, 0)).2, 1⟩
        else { workers w with pc := .outside }))
      h.serviced h.finished := by
  have hin : (workers w).pc.inWindow = true := by rw [hpc]; rfl
  have hscheme := ((hs.placed w).window hin).segment hpc
  have hlanes : p.lanes ps = some (p.segs.map fun seg => ⟨seg.1, seg.1 + seg.2, 1⟩) := by
    rw [Layout.lanes, hscheme]
    rfl
  split
  · rename_i hlt
    apply hs.enter hin (by rw [hpc]; rfl) hscheme (by simp) hlanes
    simp [List.getD_eq_getElem?_getD, List.getElem?_eq_getElem hlt]
  · rename_i hge
    apply hs.leave
    · rw [hand_of_inWindow hin, numberItems_of_length_le hlanes]
      rw [List.length_map]
      omega
    · simp [hpc]
    · rfl

theorem Sharing.readSegParallel (hpc : (workers w).pc = .readSegParallel) :
    Sharing p.toLayout ps p.batchWorkerCounter p.workCursor
      (update workers w
        (if p.segParallelActive then { workers w with pc := .readSegment }
        else (workers w).enter .strides 0
          ⟨(workers w).myBatchId, (workers w).numItems, (workers w).numActive⟩))
      h.serviced h.finished := by
  have hin : (workers w).pc.inWindow = true := by rw [hpc]; rfl
  have hrank : (workers w).pc.rank = 5 := by rw [hpc]; rfl
  have hwin := (hs.placed w).window hin
  obtain ⟨hcursor, htables⟩ := hwin.segParallel hpc
  have hscheme : p.scheme ps = if p.segParallelActive then .segments else .strides := by
    unfold Layout.scheme at hcursor htables ⊢
    split_ifs at hcursor htables ⊢ <;> first | rfl | exact absurd rfl ‹_›
  split
  · rename_i hactive
    rw [if_pos hactive] at hscheme
    exact hs.read hin rfl rfl (hwin.goTo hrank (by simp) (by simp) (by simp) fun _ => hscheme)
  · rename_i hactive
    rw [if_neg hactive] at hscheme
    have hid := hwin.active (by omega)
    have hlanes : p.lanes ps = some (strideLanes 0 p.batchNumGroups p.batchNumActive) := by
      rw [Layout.lanes, hscheme]
      rfl
    apply hs.enter hin hrank hscheme (by simp) hlanes
    rw [hwin.numItems (by omega), hwin.numActive (by omega), strideLanes, List.getElem?_map,
      List.getElem?_range hid]
    simp

theorem Sharing.workerAccess (merge : Bool) :
    Sharing p.toLayout ps (workerAccess ps merge p (workers w)).1.batchWorkerCounter
      (workerAccess ps merge p (workers w)).1.workCursor
      (update workers w (workerAccess ps merge p (workers w)).2)
      (h.afterWorker (workers w)).serviced (h.afterWorker (workers w)).finished := by
  have hplaced := hs.placed w
  cases hpc : (workers w).pc <;> simp only [Modes.workerAccess, History.afterWorker, hpc]
  -- the claim, then the reads up to the choice of the loop
  case outside => exact hs.claim hpc
  case readNumItems =>
    have hin : (workers w).pc.inWindow = true := by rw [hpc]; rfl
    exact hs.read hin rfl rfl (hplaced.window hin).readNumItems
  case readNumActive =>
    have hin : (workers w).pc.inWindow = true := by rw [hpc]; rfl
    exact hs.read hin rfl rfl ((hplaced.window hin).readNumActive hpc)
  case readQueueBase =>
    have hin : (workers w).pc.inWindow = true := by rw [hpc]; rfl
    exact hs.read hin rfl rfl ((hplaced.window hin).readQueueBase hpc)
  case readMerge => exact hs.readMerge hpc
  case readDynamic =>
    have hmove := hs.readDynamic hpc
    split <;> simp_all
  case readGroupSeg => exact hs.readGroupSeg hpc
  case readTables =>
    have hmove := hs.readTables hpc
    split <;> simp_all
  case readSegParallel =>
    have hmove := hs.readSegParallel hpc
    split <;> simp_all
  case readSegment =>
    have hmove := hs.readSegment hpc
    split <;> simp_all
  case addCursor => exact hs.addCursor hpc
  -- inside the loop
  case takeItem =>
    have hloop := hplaced.loop (by rw [hpc]; rfl)
    apply hs.keep
    · simp [hand, hpc, rest]
    · exact ⟨nofun, fun _ => { hloop with }, fun _ => hplaced.bound (by rw [hpc]; rfl), nofun⟩
    · rw [hpc]
      exact nofun
    · exact nofun
  case service => exact hs.service hpc
  case decRemaining =>
    have hloop := hplaced.loop (by rw [hpc]; rfl)
    split
    · apply hs.count hpc
      · rfl
      · exact ⟨nofun, fun _ => { hloop with }, nofun, nofun⟩
      · exact nofun
    · obtain ⟨hnext, hhand⟩ := hloop.next
      exact hs.count hpc hhand hnext (next_pc_ne _)
  case complete =>
    obtain ⟨hnext, hhand⟩ := (hplaced.loop (by rw [hpc]; rfl)).next
    apply hs.keep _ hnext _ (next_pc_ne _)
    · rw [hhand]
      simp [hand, hpc, later]
    · rw [hpc]
      exact nofun

end Accesses

/-! ## What an access leaves alone -/

theorem toFields_workerAccess (ps : ModeParams) (merge : Bool) (p : Pool) (wk : Worker) :
    (workerAccess ps merge p wk).1.toFields = p.toFields := by
  cases hpc : wk.pc <;> simp only [workerAccess, hpc]
  all_goals split <;> rfl

theorem Calm.workerAccess {ps : ModeParams} {p : Pool} {wk : Worker} (h : Calm p.toLayout ps wk)
    (hclaim : wk.pc = .outside → p.batchNumActive ≤ p.batchWorkerCounter) (merge : Bool) :
    Calm p.toLayout ps (workerAccess ps merge p wk).2 ∧
      (wk.pc ≠ .outside → (workerAccess ps merge p wk).1 = p) := by
  by_cases hout : wk.pc = .outside
  · simp only [Modes.workerAccess, hout, ne_eq, not_true_eq_false, false_implies, and_true]
    refine ⟨⟨fun _ => ?_, nofun, nofun, nofun⟩, fun _ => ⟨rfl, hclaim hout⟩⟩
    exact ⟨fun hlt => absurd (hclaim hout) (Nat.not_le.2 hlt), by simp [rank],
      by simp [rank], by simp [rank], by simp [rank], nofun, nofun,
      nofun, nofun⟩
  · obtain ⟨hin, hle⟩ := h.away hout
    have hwin := h.placed.window hin
    have hnot : ¬ wk.myBatchId < p.batchNumActive := Nat.not_lt.2 hle
    cases hpc : wk.pc with
    | outside => exact absurd hpc hout
    | readNumItems =>
      simp only [Modes.workerAccess, hpc]
      exact ⟨⟨⟨fun _ => hwin.readNumItems, nofun, nofun, nofun⟩, fun _ => ⟨rfl, hle⟩⟩, fun _ => trivial⟩
    | readNumActive =>
      simp only [Modes.workerAccess, hpc]
      exact ⟨⟨⟨fun _ => hwin.readNumActive hpc, nofun, nofun, nofun⟩, fun _ => ⟨rfl, hle⟩⟩,
        fun _ => trivial⟩
    | readQueueBase =>
      simp only [Modes.workerAccess, hpc]
      exact ⟨⟨⟨fun _ => hwin.readQueueBase hpc, nofun, nofun, nofun⟩, fun _ => ⟨rfl, hle⟩⟩,
        fun _ => trivial⟩
    | readMerge =>
      -- the number is turned away
      have htest : wk.numActive ≤ wk.myBatchId ∨ wk.numItems = 0 := by
        rw [hwin.numActive (by rw [hpc]; decide)]
        exact .inl hle
      simp only [Modes.workerAccess, hpc, if_pos htest]
      exact ⟨calm_of_outside rfl, fun _ => trivial⟩
    | readDynamic | readGroupSeg | readTables | readSegParallel | readSegment =>
      exact absurd (hwin.active (by rw [hpc]; decide)) hnot
    | addCursor | takeItem | service | decRemaining | complete =>
      rw [hpc] at hin
      cases hin

end FaultMesh.Modes
