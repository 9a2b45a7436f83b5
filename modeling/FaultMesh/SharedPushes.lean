import FaultMesh.PushTracking

/-!
# Shared pushes and the trackers of the blocks

In the merge modes the copies and the page-table writes of several blocks go into pushes that are
begun before the blocks are serviced and ended later: by the coordinator, or by the last worker.
`block_copy_resident_pages_between` and `block_map_gpu_to` have the same shape. They acquire the
tracker of the block in the push, write their commands, end the push if it is their own, and add it
to a tracker. A shared push is still open then, so that its tracking value is zero. Whether it has
been ended already is not tested either when a block writes into it.
-/

namespace FaultMesh.Tracking

open Function (update update_self update_of_ne)

/-! ## The blocks and their pushes -/

inductive TrackerId where
  /-- `local_tracker` of `block_copy_resident_pages`. -/
  | copies (block : Nat)
  /-- `local_tracker` of `uvm_va_block_add_mappings_after_migration`. -/
  | mappings (block : Nat)
  | block (block : Nat)
  | item (block : Nat)
  | batch
  deriving DecidableEq, Repr

/-- A push is filled by `block_copy_resident_pages_between`, or by `block_map_gpu_to` with its
`out_tracker`. -/
inductive Round where
  | copy
  | map (out : TrackerId)
  deriving DecidableEq, Repr

def Round.kind : Round → Kind
  | .copy => .copy
  | .map _ => .map

/-- The tracker that the push is added to. -/
def Round.out (b : Nat) : Round → TrackerId
  | .copy => .copies b
  | .map out => out

inductive Pc where
  | idle
  /-- In `block_copy_resident_pages`. -/
  | copying
  /-- The tracker of the block has been acquired, commands are written. -/
  | writing (round : Round) (push : Nat)
  /-- Before `uvm_tracker_add_push_safe`. -/
  | written (round : Round) (push : Nat)
  deriving DecidableEq, Repr

/-- Where the round is called from. -/
def Round.caller : Round → Pc
  | .copy => .copying
  | .map _ => .idle

abbrev Place := Nat × Nat

structure Service where
  gpu : Gpu
  trackers : TrackerId → Tracker
  pcs : Nat → Pc
  /-- The commands that have been added to a tracker. -/
  covers : TrackerId → List Place
  /-- The entries that have been recorded, each with the commands that it is for. -/
  recorded : List (Entry × List Place)
  /-- What a block has written into its push and not yet added to a tracker. -/
  current : Nat → List Place
  copies : Nat → List Place
  /-- The page-table writes, each with the copies that its block has made before. -/
  maps : List (Place × List Place)

inductive Label where
  | beginShared (p channel : Nat)
  | endShared (p : Nat)
  | enterCopies (b : Nat)
  /-- A round with a shared push. -/
  | enter (b : Nat) (round : Round) (p : Nat)
  /-- A round with a push of its own. -/
  | enterPrivate (b : Nat) (round : Round) (p channel : Nat)
  | write (b : Nat)
  | close (b : Nat)
  | record (b : Nat)
  /-- The copies to the staging pages become dependencies of those from them. -/
  | stage (b : Nat)
  | leaveCopies (b : Nat)
  | addTracker (dst src : TrackerId)
  | removeCompleted (tracker : TrackerId)
  | execute (p : Nat)
  | release (p : Nat)
  deriving DecidableEq, Repr

def Gpu.isShared (g : Gpu) (p : Nat) : Bool := (g.pushes p).any fun x => x.owner = none

def Gpu.isEnded (g : Gpu) (p : Nat) : Bool := (g.pushes p).any fun x => x.channelTrackingValue ≠ 0

namespace Service

variable (s : Service) (b : Nat)

def init : Service where
  gpu := .init
  trackers _ := []
  pcs _ := .idle
  covers _ := []
  recorded := []
  current _ := []
  copies _ := []
  maps := []

def goto (pc : Pc) : Service := { s with pcs := update s.pcs b pc }

def removeCompleted (tracker : TrackerId) : Service :=
  let kept := dropPassed s.gpu.completedValue (s.trackers tracker)
  { s with trackers := update s.trackers tracker kept }

def addTracker (dst src : TrackerId) : Service :=
  { s with
    trackers := update s.trackers dst (addMarks (s.trackers dst) (s.trackers src))
    covers := update s.covers dst (s.covers src ++ s.covers dst) }

def clearTracker (tracker : TrackerId) : Service :=
  { s with
    trackers := update s.trackers tracker []
    covers := update s.covers tracker [] }

/-- The copies are added to the tracker of the block, and `local_tracker` is cleared. -/
def joinCopies : Service := (s.addTracker (.block b) (.copies b)).clearTracker (.copies b)

/-- `uvm_push_acquire_tracker` with the tracker of the block. -/
def acquire (p : Nat) : Option Service :=
  let s := s.removeCompleted (.block b)
  (s.gpu.pushes p).bind fun x =>
    (s.gpu.append p (Gpu.acquires x.channel (s.trackers (.block b)))).map fun g => { s with gpu := g }

def write (round : Round) (p : Nat) : Option Service :=
  (s.gpu.pushes p).bind fun x =>
    (s.gpu.append p [.work round.kind b]).map fun g =>
      let place := (p, s.gpu.nextPlace p x)
      let s := { s with gpu := g, current := update s.current b (place :: s.current b) }
      match round with
      | .copy => { s with copies := update s.copies b (place :: s.copies b) }
      | .map _ => { s with maps := (place, s.copies b) :: s.maps }

/-- Only a private push is ended here. -/
def close (round : Round) (p : Nat) : Option Service :=
  if s.gpu.isShared p then some (s.goto b (.written round p))
  else (s.gpu.endPush p).map fun g => { s with gpu := g }.goto b (.written round p)

/-- `uvm_tracker_add_push_safe`. -/
def record (round : Round) (p : Nat) : Option Service :=
  (s.gpu.trackerEntry p).map fun entry =>
    { s with
      pcs := update s.pcs b round.caller
      trackers :=
        update s.trackers (round.out b) (addMark entry (s.trackers (round.out b)))
      covers := update s.covers (round.out b) (s.current b ++ s.covers (round.out b))
      recorded := (entry, s.current b) :: s.recorded
      current := update s.current b [] }

def step : Label → Option Service
  | .beginShared p channel => (s.gpu.beginPush p channel none).map fun g => { s with gpu := g }
  | .endShared p =>
    if s.gpu.isShared p then (s.gpu.endPush p).map fun g => { s with gpu := g } else none
  | .enterCopies b => if s.pcs b = .idle then some (s.goto b .copying) else none
  | .enter b round p =>
    if s.pcs b = round.caller ∧ s.gpu.isShared p then
      (s.acquire b p).map fun t => t.goto b (.writing round p)
    else none
  | .enterPrivate b round p channel =>
    if s.pcs b = round.caller then
      (s.gpu.beginPush p channel (some b)).bind fun g =>
        (Service.acquire { s with gpu := g } b p).map fun t => t.goto b (.writing round p)
    else none
  | .write b => match s.pcs b with
      | .writing round p => s.write b round p
      | _ => none
  | .close b => match s.pcs b with
      | .writing round p => s.close b round p
      | _ => none
  | .record b => match s.pcs b with
      | .written round p => s.record b round p
      | _ => none
  | .stage b => if s.pcs b = .copying then some (s.joinCopies b) else none
  | .leaveCopies b => if s.pcs b = .copying then some ((s.joinCopies b).goto b .idle) else none
  | .addTracker dst src => some (s.addTracker dst src)
  | .removeCompleted tracker => some (s.removeCompleted tracker)
  | .execute p => (s.gpu.execute p).map fun g => { s with gpu := g }
  | .release p => (s.gpu.release p).map fun g => { s with gpu := g }

end Service

def serviceMachine : Machine Service Label := ⟨Service.step⟩

/-- What the trackers are for. -/
structure Tracks (s : Service) : Prop where
  /-- An entry is complete only when the commands that it was recorded for have been executed. -/
  recorded : ∀ r ∈ s.recorded, Passed s.gpu.completedValue r.1 → ∀ c ∈ r.2, s.gpu.Done c
  /-- So is a tracker, for all that has been added to it. -/
  trackers : ∀ tracker, (∀ entry ∈ s.trackers tracker, Passed s.gpu.completedValue entry) →
    ∀ c ∈ s.covers tracker, s.gpu.Done c
  /-- A page-table write is executed after the copies of its block. -/
  ordered : ∀ m ∈ s.maps, s.gpu.Done m.1 → ∀ c ∈ m.2, s.gpu.Done c

/-! ## What holds while pushes are filled before their end and added after it -/

def Pc.push : Pc → Option Nat
  | .writing _ p | .written _ p => some p
  | _ => none

def Pc.InCopies : Pc → Prop
  | .copying | .writing .copy _ | .written .copy _ => True
  | _ => False

/-- What the service of a block knows at its place. -/
structure BlockRight (g : Gpu) (covers : TrackerId → List Place) (b : Nat) (pc : Pc)
    (current copies : List Place) : Prop where
  inPush : ∀ c ∈ current, pc.push = some c.1 ∧ ∃ x, g.pushes c.1 = some x ∧ c.2 < x.commands.length
  /-- Between two calls the tracker of the block has all of its copies. -/
  held : ∀ c ∈ copies, c ∈ covers (.block b) ∨
    pc.InCopies ∧ (c ∈ covers (.copies b) ∨ c ∈ current)
  fenced : ∀ {out p}, pc = .writing (.map out) p → ∀ c ∈ copies, ∃ x, g.pushes p = some x ∧
    (x.channelTrackingValue = 0 → Fenced g p x.commands.length c)

structure Inv (s : Service) : Prop where
  timeline : Timeline s.gpu
  covers : ∀ tracker, ∀ c ∈ s.covers tracker, Secured s.gpu (s.trackers tracker) c
  recorded : ∀ r ∈ s.recorded, ∀ c ∈ r.2, Secured s.gpu [r.1] c
  maps : ∀ m ∈ s.maps, ∀ c ∈ m.2, Fenced s.gpu m.1.1 m.1.2 c
  blocks : ∀ b, BlockRight s.gpu s.covers b (s.pcs b) (s.current b) (s.copies b)

theorem Inv.tracks {s : Service} (h : Inv s) : Tracks s where
  recorded r hr hpassed c hc := by
    apply (h.recorded r hr c hc).done h.timeline
    simpa using hpassed
  trackers tracker hall c hc := (h.covers tracker c hc).done h.timeline hall
  ordered m hm hdone c hc := (h.maps m hm c hc).done h.timeline hdone

namespace BlockRight

variable {g t : Gpu} {covers more : TrackerId → List Place} {b : Nat} {pc : Pc}
  {current copies : List Place}

section

variable (h : BlockRight g covers b pc current copies)
include h

theorem later (htime : Timeline g) (hext : Extends g t) :
    BlockRight t covers b pc current copies where
  inPush c hc := by
    obtain ⟨hpush, x, hx, hlt⟩ := h.inPush c hc
    obtain ⟨y, hy, hgrows⟩ := hext.push hx
    exact ⟨hpush, y, hy, hlt.trans_le hgrows.commands.length_le⟩
  held := h.held
  fenced hpc c hc := by
    obtain ⟨x, hx, hfenced⟩ := h.fenced hpc c hc
    obtain ⟨y, hy, hgrows⟩ := hext.push hx
    refine ⟨y, hy, fun hopen => ?_⟩
    have hopen' : x.channelTrackingValue = 0 := by
      by_contra hended
      exact hended (hgrows.ended hended ▸ hopen)
    exact ((hfenced hopen').extends htime hext).mono hgrows.commands.length_le

theorem mono (hmore : ∀ tracker, ∀ c ∈ covers tracker, c ∈ more tracker) :
    BlockRight g more b pc current copies where
  inPush := h.inPush
  held c hc := (h.held c hc).imp (hmore _ c) (And.imp_right (Or.imp_left (hmore _ c)))
  fenced := h.fenced

theorem current_eq_nil (hpc : pc.push = none) : current = [] := by
  apply List.eq_nil_iff_forall_not_mem.2
  intro c hc
  have hpush := (h.inPush c hc).1
  rw [hpc] at hpush
  cases hpush

end

end BlockRight

namespace Inv

variable {s t : Service} {b p : Nat}

theorem init : Inv .init :=
  ⟨.init, fun _ => nofun, nofun, nofun, fun _ => ⟨nofun, nofun, nofun⟩⟩

theorem moves (h : Inv s) {g : Gpu} (hmoves : Moves s.gpu g) : Inv { s with gpu := g } where
  timeline := h.timeline.step hmoves
  covers tracker c hc := (h.covers tracker c hc).extends hmoves.extends
  recorded r hr c hc := (h.recorded r hr c hc).extends hmoves.extends
  maps m hm c hc := (h.maps m hm c hc).extends h.timeline hmoves.extends
  blocks b := (h.blocks b).later h.timeline hmoves.extends

theorem goto (h : Inv s) {pc : Pc}
    (hb : BlockRight s.gpu s.covers b pc (s.current b) (s.copies b)) : Inv (s.goto b pc) where
  timeline := h.timeline
  covers := h.covers
  recorded := h.recorded
  maps := h.maps
  blocks b' := by
    dsimp only [Service.goto]
    obtain rfl | hne := eq_or_ne b' b
    · rwa [update_self]
    · rw [update_of_ne hne]
      exact h.blocks b'

theorem removeCompleted (h : Inv s) (tracker : TrackerId) : Inv (s.removeCompleted tracker) where
  timeline := h.timeline
  covers other c hc := by
    dsimp only [Service.removeCompleted]
    obtain rfl | hne := eq_or_ne other tracker
    · rw [update_self]
      exact (h.covers other c hc).dropPassed h.timeline
    · rw [update_of_ne hne]
      exact h.covers other c hc
  recorded := h.recorded
  maps := h.maps
  blocks := h.blocks

theorem cover (h : Inv s) {tracker : TrackerId} {entries : Tracker} {places : List Place}
    (hold : ∀ c, Secured s.gpu (s.trackers tracker) c → Secured s.gpu entries c)
    (hnew : ∀ c ∈ places, Secured s.gpu entries c) :
    Inv { s with
      trackers := update s.trackers tracker entries
      covers := update s.covers tracker (places ++ s.covers tracker) } where
  timeline := h.timeline
  covers other c hc := by
    dsimp only at hc ⊢
    obtain rfl | hne := eq_or_ne other tracker
    · rw [update_self] at hc ⊢
      obtain hc | hc := List.mem_append.1 hc
      · exact hnew c hc
      · exact hold c (h.covers other c hc)
    · rw [update_of_ne hne] at hc ⊢
      exact h.covers other c hc
  recorded := h.recorded
  maps := h.maps
  blocks b := by
    refine (h.blocks b).mono fun other c hc => ?_
    dsimp only
    obtain rfl | hne := eq_or_ne other tracker
    · rw [update_self]
      exact List.mem_append_right _ hc
    · rwa [update_of_ne hne]

theorem addTracker (h : Inv s) (dst src : TrackerId) : Inv (s.addTracker dst src) := by
  apply h.cover
  · exact fun c => Or.imp_right fun ⟨x, hqueued, hdom⟩ => ⟨x, hqueued, hdom.addMarks _⟩
  · intro c hc
    refine (h.covers src c hc).imp_right fun ⟨x, hqueued, hdom⟩ => ?_
    exact ⟨x, hqueued, hdom.addMarks_right _⟩

theorem covers_clearCopies (s : Service) (b b' : Nat) :
    (s.clearTracker (.copies b)).covers (.block b') = s.covers (.block b') := by
  have hne : TrackerId.block b' ≠ .copies b := nofun
  exact update_of_ne hne [] s.covers

theorem clearCopies (h : Inv s) (hheld : ∀ c ∈ s.copies b, c ∈ s.covers (.block b)) :
    Inv (s.clearTracker (.copies b)) where
  timeline := h.timeline
  covers tracker c hc := by
    dsimp only [Service.clearTracker] at hc ⊢
    obtain rfl | hne := eq_or_ne tracker (.copies b)
    · rw [update_self] at hc
      cases hc
    · rw [update_of_ne hne] at hc ⊢
      exact h.covers tracker c hc
  recorded := h.recorded
  maps := h.maps
  blocks b' := by
    refine ⟨(h.blocks b').inPush, fun c hc => ?_, (h.blocks b').fenced⟩
    rw [covers_clearCopies]
    obtain rfl | hne := eq_or_ne b' b
    · exact .inl (hheld c hc)
    · have hother : TrackerId.copies b' ≠ .copies b := fun heq => hne (TrackerId.copies.inj heq)
      dsimp only [Service.clearTracker]
      rw [update_of_ne hother]
      exact (h.blocks b').held c hc

theorem mem_joinCopies (h : Inv s) (hpc : s.pcs b = .copying) {c : Place} (hc : c ∈ s.copies b) :
    c ∈ (s.addTracker (.block b) (.copies b)).covers (.block b) := by
  have hb := h.blocks b
  rw [hpc] at hb
  dsimp only [Service.addTracker]
  rw [update_self]
  obtain hblock | ⟨-, hlocal | hcurrent⟩ := hb.held c hc
  · exact List.mem_append_right _ hblock
  · exact List.mem_append_left _ hlocal
  · rw [hb.current_eq_nil rfl] at hcurrent
    cases hcurrent

theorem joinCopies (h : Inv s) (hpc : s.pcs b = .copying) : Inv (s.joinCopies b) :=
  (h.addTracker (.block b) (.copies b)).clearCopies fun _ => h.mem_joinCopies hpc

theorem leaveCopies (h : Inv s) (hpc : s.pcs b = .copying) : Inv ((s.joinCopies b).goto b .idle) := by
  have hjoin := h.joinCopies hpc
  have hcurrent : s.current b = [] := (h.blocks b).current_eq_nil (hpc ▸ rfl)
  apply hjoin.goto
  refine ⟨fun c hc => ?_, fun c hc => .inl ?_, nofun⟩
  · rw [show (s.joinCopies b).current b = [] from hcurrent] at hc
    cases hc
  · rw [Service.joinCopies, covers_clearCopies]
    exact h.mem_joinCopies hpc hc

theorem acquire (h : Inv s) (hacquire : s.acquire b p = some t) :
    Inv t ∧ (t.pcs = s.pcs ∧ t.covers = s.covers ∧ t.current = s.current ∧ t.copies = s.copies) ∧
      ∀ c ∈ s.covers (.block b), ∃ x, t.gpu.pushes p = some x ∧
        (x.channelTrackingValue = 0 → Fenced t.gpu p x.commands.length c) := by
  have hkept := h.removeCompleted (.block b)
  obtain ⟨x, hx, hacquire⟩ := Option.bind_eq_some_iff.1 hacquire
  obtain ⟨g, hg, rfl⟩ := Option.map_eq_some_iff.1 hacquire
  refine ⟨hkept.moves (moves_append hg), ⟨rfl, rfl, rfl, rfl⟩, fun c hc => ?_⟩
  by_cases hopen : x.channelTrackingValue = 0
  · obtain rfl := append_of_open hx hopen hg
    exact ⟨_, put_self .., fun _ => (hkept.covers (.block b) c hc).fenced hx hopen⟩
  · obtain ⟨y, hy, hgrows⟩ := (moves_append hg).extends.push hx
    exact ⟨y, hy, fun hopen' => absurd (hgrows.ended hopen ▸ hopen') hopen⟩

variable {round : Round}

theorem enter (h : Inv s) (hpc : s.pcs b = round.caller) (hacquire : s.acquire b p = some t) :
    Inv (t.goto b (.writing round p)) := by
  obtain ⟨ht, ⟨-, hcovers, hcurrent, hcopies⟩, hfenced⟩ := h.acquire hacquire
  have hb := h.blocks b
  rw [hpc] at hb
  have hnil : s.current b = [] := hb.current_eq_nil (by cases round <;> rfl)
  apply ht.goto
  rw [hcovers, hcurrent, hcopies]
  refine ⟨by simp [hnil], fun c hc => ?_, ?_⟩
  · cases round with
    | copy => exact (hb.held c hc).imp_right fun hlocal => ⟨trivial, hlocal.2⟩
    | map out => exact .inl ((hb.held c hc).resolve_right fun hlocal => hlocal.1)
  · rintro out q hround c hc
    cases hround
    exact hfenced c ((hb.held c hc).resolve_right fun hlocal => hlocal.1)

theorem write (h : Inv s) (hpc : s.pcs b = .writing round p) (hguard : s.gpu.isEnded p = false)
    (hwrite : s.write b round p = some t) : Inv t := by
  obtain ⟨x, hx, hwrite⟩ := Option.bind_eq_some_iff.1 hwrite
  obtain ⟨g, hg, rfl⟩ := Option.map_eq_some_iff.1 hwrite
  have hopen : x.channelTrackingValue = 0 := by simpa [Gpu.isEnded, hx] using hguard
  rw [Gpu.nextPlace, if_pos hopen]
  have hmoves := moves_append hg
  have hkept := h.moves hmoves
  have hb := hkept.blocks b
  rw [show ({ s with gpu := g } : Service).pcs b = .writing round p from hpc] at hb
  have hnew : ∃ y, g.pushes p = some y ∧ x.commands.length < y.commands.length := by
    obtain rfl := append_of_open hx hopen hg
    exact ⟨_, put_self .., by simp⟩
  have hcurrent : ∀ c ∈ (p, x.commands.length) :: s.current b,
      (Pc.writing round p).push = some c.1 ∧ ∃ y, g.pushes c.1 = some y ∧ c.2 < y.commands.length :=
    List.forall_mem_cons.2 ⟨⟨rfl, hnew⟩, hb.inPush⟩
  cases round with
  | copy =>
    refine ⟨hkept.timeline, hkept.covers, hkept.recorded, hkept.maps, fun b' => ?_⟩
    dsimp only
    obtain rfl | hne := eq_or_ne b' b
    · rw [update_self, update_self, hpc]
      refine ⟨hcurrent, List.forall_mem_cons.2 ⟨.inr ⟨trivial, .inr List.mem_cons_self⟩, ?_⟩, nofun⟩
      intro c hc
      exact (hb.held c hc).imp_right (And.imp_right (Or.imp_right (List.mem_cons_of_mem _)))
    · rw [update_of_ne hne, update_of_ne hne]
      exact hkept.blocks b'
  | map out =>
    -- the copies are fenced off at the place of the new command
    have hfenced : ∀ c ∈ s.copies b, Fenced g p x.commands.length c := by
      intro c hc
      obtain ⟨y, hy, hfenced⟩ := (h.blocks b).fenced hpc c hc
      obtain rfl : x = y := Option.some.inj (hx.symm.trans hy)
      exact (hfenced hopen).extends h.timeline hmoves.extends
    refine ⟨hkept.timeline, hkept.covers, hkept.recorded,
      List.forall_mem_cons.2 ⟨hfenced, hkept.maps⟩, fun b' => ?_⟩
    dsimp only
    obtain rfl | hne := eq_or_ne b' b
    · rw [update_self, hpc]
      refine ⟨hcurrent, fun c hc => ?_, hb.fenced⟩
      exact (hb.held c hc).imp_right fun hlocal => hlocal.1.elim
    · rw [update_of_ne hne]
      exact hkept.blocks b'

theorem goto_written (h : Inv s) (hpc : s.pcs b = .writing round p) :
    Inv (s.goto b (.written round p)) := by
  have hb := h.blocks b
  rw [hpc] at hb
  apply h.goto
  refine ⟨hb.inPush, fun c hc => (hb.held c hc).imp_right fun hlocal => ⟨?_, hlocal.2⟩, nofun⟩
  cases round with
  | copy => trivial
  | map out => exact hlocal.1

theorem close (h : Inv s) (hpc : s.pcs b = .writing round p) (hclose : s.close b round p = some t) :
    Inv t := by
  unfold Service.close at hclose
  split at hclose
  · cases hclose
    exact h.goto_written hpc
  · obtain ⟨g, hg, rfl⟩ := Option.map_eq_some_iff.1 hclose
    exact (h.moves (moves_endPush hg)).goto_written hpc

theorem record (h : Inv s) (hpc : s.pcs b = .written round p)
    (hguard : s.current b = [] ∨ s.gpu.isEnded p = true) (hrecord : s.record b round p = some t) :
    Inv t := by
  obtain ⟨entry, hentry, rfl⟩ := Option.map_eq_some_iff.1 hrecord
  obtain ⟨x, hx, rfl⟩ := Option.map_eq_some_iff.1 hentry
  have hb := h.blocks b
  rw [hpc] at hb
  -- the entry stands for what the block has written
  have hnew : ∀ {tracker : Tracker}, Dominates tracker (x.channel, x.channelTrackingValue) →
      ∀ c ∈ s.current b, Secured s.gpu tracker c := by
    intro tracker hdom c hc
    obtain ⟨hp, y, hy, hlt⟩ := hb.inPush c hc
    obtain rfl : p = c.1 := Option.some.inj hp
    obtain rfl : x = y := Option.some.inj (hx.symm.trans hy)
    have hended : x.channelTrackingValue ≠ 0 := by
      have hany := hguard.resolve_left (List.ne_nil_of_mem hc)
      simpa [Gpu.isEnded, hx] using hany
    exact .inr ⟨x, ⟨hx, hended, hlt⟩, hdom⟩
  have hcover := h.cover
    (fun c => Or.imp_right fun ⟨y, hqueued, hdom⟩ => ⟨y, hqueued, hdom.addMark _⟩)
    (hnew (dominates_addMark_self _ (s.trackers (round.out b))))
  refine ⟨hcover.timeline, hcover.covers, ?_, hcover.maps, fun b' => ?_⟩
  · exact List.forall_mem_cons.2 ⟨hnew (.of_mem (List.mem_singleton_self _)), h.recorded⟩
  · have hb' := hcover.blocks b'
    dsimp only at hb' ⊢
    obtain rfl | hne := eq_or_ne b' b
    · rw [hpc] at hb'
      rw [update_self, update_self]
      refine ⟨nofun, fun c hc => ?_, by cases round <;> exact nofun⟩
      obtain hblock | ⟨hin, hlocal⟩ := hb'.held c hc
      · exact .inl hblock
      · cases round with
        | copy =>
          refine .inr ⟨trivial, .inl (hlocal.elim id fun hcurrent => ?_)⟩
          rw [Round.out, update_self]
          exact List.mem_append_left _ hcurrent
        | map out => exact hin.elim
    · rw [update_of_ne hne, update_of_ne hne]
      exact hb'

end Inv

/-! ## Whole runs -/

/-- A block writes into a push that has not been ended; and a push that it adds to a tracker, with
commands of its own in it, has been ended. -/
def EndsBetween (s : Service) : Label → Prop
  | .write b => ∀ p ∈ (s.pcs b).push, s.gpu.isEnded p = false
  | .record b => s.current b = [] ∨ ∀ p ∈ (s.pcs b).push, s.gpu.isEnded p = true
  | _ => True

instance (s : Service) (label : Label) : Decidable (EndsBetween s label) := by
  cases label <;> unfold EndsBetween <;> infer_instance

theorem Inv.step (s : Service) (label : Label) (t : Service) (h : Inv s)
    (hguard : EndsBetween s label) (hstep : serviceMachine.step s label = some t) : Inv t := by
  cases label with
  | beginShared p channel =>
    obtain ⟨g, hg, rfl⟩ := Option.map_eq_some_iff.1 hstep
    exact h.moves (moves_beginPush hg)
  | endShared p =>
    obtain ⟨-, hstep⟩ := Option.ite_none_right_eq_some.1 hstep
    obtain ⟨g, hg, rfl⟩ := Option.map_eq_some_iff.1 hstep
    exact h.moves (moves_endPush hg)
  | enterCopies b =>
    obtain ⟨hpc, hstep⟩ := Option.ite_none_right_eq_some.1 hstep
    cases hstep
    have hb := h.blocks b
    rw [hpc] at hb
    refine h.goto ⟨by simp [hb.current_eq_nil rfl], fun c hc => ?_, nofun⟩
    exact .inl ((hb.held c hc).resolve_right fun hlocal => hlocal.1)
  | enter b round p =>
    obtain ⟨⟨hpc, -⟩, hstep⟩ := Option.ite_none_right_eq_some.1 hstep
    obtain ⟨u, hu, rfl⟩ := Option.map_eq_some_iff.1 hstep
    exact h.enter hpc hu
  | enterPrivate b round p channel =>
    obtain ⟨hpc, hstep⟩ := Option.ite_none_right_eq_some.1 hstep
    obtain ⟨g, hg, hstep⟩ := Option.bind_eq_some_iff.1 hstep
    obtain ⟨u, hu, rfl⟩ := Option.map_eq_some_iff.1 hstep
    exact (h.moves (moves_beginPush hg)).enter hpc hu
  | write b =>
    dsimp only [serviceMachine, Service.step] at hstep
    split at hstep
    next round p hpc =>
      refine h.write hpc (hguard p ?_) hstep
      rw [hpc]
      rfl
    next => cases hstep
  | close b =>
    dsimp only [serviceMachine, Service.step] at hstep
    split at hstep
    next round p hpc => exact h.close hpc hstep
    next => cases hstep
  | record b =>
    dsimp only [serviceMachine, Service.step] at hstep
    split at hstep
    next round p hpc =>
      refine h.record hpc (hguard.imp_right fun hended => hended p ?_) hstep
      rw [hpc]
      rfl
    next => cases hstep
  | stage b =>
    obtain ⟨hpc, hstep⟩ := Option.ite_none_right_eq_some.1 hstep
    cases hstep
    exact h.joinCopies hpc
  | leaveCopies b =>
    obtain ⟨hpc, hstep⟩ := Option.ite_none_right_eq_some.1 hstep
    cases hstep
    exact h.leaveCopies hpc
  | addTracker dst src =>
    cases hstep
    exact h.addTracker dst src
  | removeCompleted tracker =>
    cases hstep
    exact h.removeCompleted tracker
  | execute p =>
    obtain ⟨g, hg, rfl⟩ := Option.map_eq_some_iff.1 hstep
    exact h.moves (moves_execute hg)
  | release p =>
    obtain ⟨g, hg, rfl⟩ := Option.map_eq_some_iff.1 hstep
    exact h.moves (moves_release hg)

/-- **Trackers cover the work**, in every run in which blocks write only into pushes that have not
been ended, and add them to trackers only when they have been. -/
theorem trackers_cover_work (labels : List Label) (t : Service)
    (hguard : serviceMachine.Meets EndsBetween .init labels)
    (hrun : serviceMachine.run .init labels = some t) : Tracks t :=
  (serviceMachine.run_invariant Inv.step .init hguard hrun).tracks

/-- A block is copied and mapped with pushes of its own, on two channels. -/
def privatePushes : List Label :=
  [.enterCopies 7, .enterPrivate 7 .copy 0 0, .write 7, .close 7, .record 7, .leaveCopies 7,
    .enterPrivate 7 (.map (.block 7)) 1 1, .write 7, .close 7, .record 7,
    .addTracker (.item 7) (.block 7), .addTracker .batch (.item 7),
    .execute 0, .release 0, .execute 1, .execute 1, .release 1]

theorem private_pushes_tracked :
    ∃ t, serviceMachine.run .init privatePushes = some t ∧ t.covers .batch = [(1, 1), (0, 0)] ∧
      Tracks t :=
  ⟨_, rfl, by decide +kernel, trackers_cover_work privatePushes _ (by decide +kernel) rfl⟩

/-- The same with the shared pushes of a segment in the dynamic mode: a copy push and a map push on
one channel, begun before the block is serviced and ended afterwards. -/
def sharedPushes : List Label :=
  [.beginShared 0 0, .beginShared 1 0,
    .enterCopies 7, .enter 7 .copy 0, .write 7, .close 7, .record 7, .leaveCopies 7,
    .enter 7 (.map (.block 7)) 1, .write 7, .close 7, .record 7,
    .addTracker (.item 7) (.block 7), .addTracker .batch (.item 7)]

/-- The tracker of the batch is complete, and the push with the copy has not even been ended. -/
theorem complete_before_copy :
    (serviceMachine.run .init sharedPushes).map (fun t => (t.gpu.isEnded 0, t.gpu.executed 0)) =
        some (false, 0) ∧
      ¬∀ labels t, serviceMachine.run .init labels = some t → Tracks t := by
  refine ⟨by decide +kernel, fun h => ?_⟩
  have hcopy := (h sharedPushes _ rfl).trackers .batch (by decide +kernel) (0, 0) (by decide +kernel)
  exact absurd hcopy (by decide +kernel)

end FaultMesh.Tracking
