import FaultMesh.Lib.Watermarks
import FaultMesh.Lib.Machine

/-!
# Channels, pushes and trackers

A push collects commands for a channel. `uvm_channel_begin_push` sets its tracking value to zero;
`uvm_channel_end_push` gives it the next value of the channel and hands it to the GPU, which executes
the pushes of a channel one after the other and releases the value of each at its end. An entry of a
tracker is a channel with a value, complete once the channel has released it.

A tracker entry that is taken from an ended push stands for all of its commands. One that is taken
earlier has the value zero and stands for nothing. Commands that are written into a push after its
end are not tested for either: the GPU never gets them.
-/

namespace FaultMesh.Tracking

open Function (update update_self update_of_ne)

/-! ## The model -/

/-- What a block has done by the GPU. -/
inductive Kind where
  | copy
  | map
  deriving DecidableEq, Repr

inductive Command where
  /-- A copy or a page-table write for a block. -/
  | work (kind : Kind) (block : Nat)
  /-- `semaphore_acquire` on the tracking semaphore of another channel. -/
  | acquire (channel value : Nat)
  deriving DecidableEq, Repr

structure Push where
  channel : Nat
  /-- The block that has begun the push for itself; none for a shared push. -/
  owner : Option Nat
  commands : List Command
  /-- Zero until the push is ended. -/
  channelTrackingValue : Nat
  deriving DecidableEq, Repr

/-- `uvm_tracker_entry_t`: a channel and a value. -/
abbrev Entry := Nat × Nat

abbrev Tracker := List Entry

/-- The channels and the pushes. -/
structure Gpu where
  /-- `tracking_sem.queued_value` of a channel. -/
  queuedValue : Nat → Nat
  /-- `tracking_sem.completed_value` of a channel. -/
  completedValue : Nat → Nat
  pushes : Nat → Option Push
  /-- How many commands of a push have been executed. -/
  executed : Nat → Nat
  /-- How many commands were written into a push behind its end. -/
  late : Nat → Nat

namespace Gpu

variable (g : Gpu) (p : Nat)

def init : Gpu := ⟨fun _ => 0, fun _ => 0, fun _ => none, fun _ => 0, fun _ => 0⟩

def put (x : Push) : Gpu := { g with pushes := update g.pushes p (some x) }

/-- `uvm_channel_begin_push`, for a push that has not been used. -/
def beginPush (channel : Nat) (owner : Option Nat) : Option Gpu :=
  if g.pushes p = none then some (g.put p ⟨channel, owner, [], 0⟩) else none

def append (commands : List Command) : Option Gpu :=
  (g.pushes p).map fun x =>
    if x.channelTrackingValue = 0 then g.put p { x with commands := x.commands ++ commands }
    else { g with late := update g.late p (g.late p + commands.length) }

def nextPlace (x : Push) : Nat :=
  if x.channelTrackingValue = 0 then x.commands.length else x.commands.length + g.late p

def endPush : Option Gpu :=
  (g.pushes p).bind fun x =>
    if x.channelTrackingValue = 0 then
      let value := g.queuedValue x.channel + 1
      some { g.put p { x with channelTrackingValue := value } with
        queuedValue := update g.queuedValue x.channel value }
    else none

def trackerEntry : Option Entry := (g.pushes p).map fun x => (x.channel, x.channelTrackingValue)

/-- The commands of `uvm_push_acquire_tracker`; entries of the own channel are left out. -/
def acquires (channel : Nat) (tracker : Tracker) : List Command :=
  (tracker.filter fun entry => entry.1 ≠ channel).map fun entry => .acquire entry.1 entry.2

/-- An acquire waits for its value. -/
def CanExecute : Command → Prop
  | .work _ _ => True
  | .acquire channel value => value ≤ g.completedValue channel

instance : ∀ command, Decidable (g.CanExecute command)
  | .work _ _ => isTrue trivial
  | .acquire _ _ => inferInstanceAs (Decidable (_ ≤ _))

def IsNext (x : Push) : Prop := x.channelTrackingValue = g.completedValue x.channel + 1

instance (x : Push) : Decidable (g.IsNext x) := inferInstanceAs (Decidable (_ = _))

/-- The GPU executes the next command of the push. -/
def execute : Option Gpu :=
  (g.pushes p).bind fun x =>
    (x.commands[g.executed p]?).bind fun command =>
      if g.IsNext x ∧ g.CanExecute command then
        some { g with executed := update g.executed p (g.executed p + 1) }
      else none

/-- The GPU releases the value of a push that it has executed. -/
def release : Option Gpu :=
  (g.pushes p).bind fun x =>
    if g.IsNext x ∧ g.executed p = x.commands.length then
      some { g with
        completedValue := update g.completedValue x.channel x.channelTrackingValue }
    else none

/-- The command at a place in a push has been executed. -/
def Done (c : Nat × Nat) : Prop := c.2 < g.executed c.1

instance (c : Nat × Nat) : Decidable (g.Done c) := inferInstanceAs (Decidable (_ < _))

end Gpu

/-! ## What a step does -/

/-- Everything that happens to the pushes. -/
inductive Moves (g : Gpu) : Gpu → Prop
  | beginPush (p channel : Nat) (owner : Option Nat) (hnew : g.pushes p = none) :
      Moves g (g.put p ⟨channel, owner, [], 0⟩)
  | append (p : Nat) (x : Push) (commands : List Command) (hx : g.pushes p = some x)
      (hopen : x.channelTrackingValue = 0) :
      Moves g (g.put p { x with commands := x.commands ++ commands })
  | late (late : Nat → Nat) : Moves g { g with late := late }
  | endPush (p : Nat) (x : Push) (hx : g.pushes p = some x) (hopen : x.channelTrackingValue = 0) :
      Moves g { g.put p { x with channelTrackingValue := g.queuedValue x.channel + 1 } with
        queuedValue := update g.queuedValue x.channel (g.queuedValue x.channel + 1) }
  | execute (p : Nat) (x : Push) (command : Command) (hx : g.pushes p = some x)
      (hcommand : x.commands[g.executed p]? = some command) (hnext : g.IsNext x)
      (hcan : g.CanExecute command) :
      Moves g { g with executed := update g.executed p (g.executed p + 1) }
  | release (p : Nat) (x : Push) (hx : g.pushes p = some x) (hnext : g.IsNext x)
      (hall : g.executed p = x.commands.length) :
      Moves g { g with
        completedValue := update g.completedValue x.channel x.channelTrackingValue }

section Inversion

variable {g t : Gpu} {p : Nat}

theorem beginPush_eq_some {channel : Nat} {owner : Option Nat}
    (h : g.beginPush p channel owner = some t) :
    g.pushes p = none ∧ t = g.put p ⟨channel, owner, [], 0⟩ := by
  obtain ⟨hnew, h⟩ := Option.ite_none_right_eq_some.1 h
  exact ⟨hnew, (Option.some.inj h).symm⟩

theorem append_of_open {commands : List Command} {x : Push} (hx : g.pushes p = some x)
    (hopen : x.channelTrackingValue = 0) (h : g.append p commands = some t) :
    t = g.put p { x with commands := x.commands ++ commands } := by
  rw [Gpu.append, hx, Option.map_some, if_pos hopen] at h
  exact (Option.some.inj h).symm

theorem moves_beginPush {channel : Nat} {owner : Option Nat}
    (h : g.beginPush p channel owner = some t) : Moves g t := by
  obtain ⟨hnew, rfl⟩ := beginPush_eq_some h
  exact .beginPush p channel owner hnew

theorem moves_append {commands : List Command} (h : g.append p commands = some t) : Moves g t := by
  obtain ⟨x, hx, rfl⟩ := Option.map_eq_some_iff.1 h
  split
  next hopen => exact .append p x commands hx hopen
  next => exact .late _

theorem moves_endPush (h : g.endPush p = some t) : Moves g t := by
  obtain ⟨x, hx, h⟩ := Option.bind_eq_some_iff.1 h
  obtain ⟨hopen, h⟩ := Option.ite_none_right_eq_some.1 h
  cases h
  exact .endPush p x hx hopen

theorem moves_execute (h : g.execute p = some t) : Moves g t := by
  obtain ⟨x, hx, h⟩ := Option.bind_eq_some_iff.1 h
  obtain ⟨command, hcommand, h⟩ := Option.bind_eq_some_iff.1 h
  obtain ⟨⟨hnext, hcan⟩, h⟩ := Option.ite_none_right_eq_some.1 h
  cases h
  exact .execute p x command hx hcommand hnext hcan

theorem moves_release (h : g.release p = some t) : Moves g t := by
  obtain ⟨x, hx, h⟩ := Option.bind_eq_some_iff.1 h
  obtain ⟨⟨hnext, hall⟩, h⟩ := Option.ite_none_right_eq_some.1 h
  cases h
  exact .release p x hx hnext hall

end Inversion

/-! ## The order of the pushes of a channel -/

/-- The values of a channel number its ended pushes in the order in which the GPU executes them. -/
structure Timeline (g : Gpu) : Prop where
  completed_le : ∀ c, g.completedValue c ≤ g.queuedValue c
  value_le : ∀ {p x}, g.pushes p = some x → x.channelTrackingValue ≤ g.queuedValue x.channel
  eq_of_value : ∀ {p q x y}, g.pushes p = some x → g.pushes q = some y →
    x.channelTrackingValue ≠ 0 → x.channel = y.channel →
    x.channelTrackingValue = y.channelTrackingValue → p = q
  /-- A released push has been executed. -/
  done : ∀ {p x}, g.pushes p = some x → x.channelTrackingValue ≠ 0 →
    x.channelTrackingValue ≤ g.completedValue x.channel → x.commands.length ≤ g.executed p
  /-- A push is not executed before those ahead of it are released. -/
  started : ∀ {p}, 0 < g.executed p → ∃ x, g.pushes p = some x ∧ x.channelTrackingValue ≠ 0 ∧
    x.channelTrackingValue ≤ g.completedValue x.channel + 1
  /-- An acquire that has been executed has got its value. -/
  acquired : ∀ {p x m c v}, g.pushes p = some x → m < g.executed p →
    x.commands[m]? = some (.acquire c v) → v ≤ g.completedValue c

theorem put_eq_some {g : Gpu} {p q : Nat} {x y : Push} (h : (g.put p x).pushes q = some y) :
    q = p ∧ x = y ∨ q ≠ p ∧ g.pushes q = some y :=
  (update_eq_some h).imp_left fun hp => ⟨hp.1, Option.some.inj hp.2⟩

theorem put_of_ne {g : Gpu} {p q : Nat} (hne : q ≠ p) (x : Push) :
    (g.put p x).pushes q = g.pushes q :=
  update_of_ne hne ..

theorem put_self (g : Gpu) (p : Nat) (x : Push) : (g.put p x).pushes p = some x :=
  update_self ..

namespace Timeline

variable {g : Gpu} {p : Nat} {x : Push}

theorem init : Timeline Gpu.init := ⟨fun _ => le_rfl, nofun, nofun, nofun, nofun, nofun⟩

section

variable (h : Timeline g)
include h

theorem executed_of_open (hx : g.pushes p = some x) (hopen : x.channelTrackingValue = 0) :
    g.executed p = 0 := by
  by_contra hne
  obtain ⟨y, hy, hended, -⟩ := h.started (Nat.pos_of_ne_zero hne)
  obtain rfl : x = y := Option.some.inj (hx.symm.trans hy)
  exact hended hopen

theorem put_open (hopen : x.channelTrackingValue = 0) (hidle : g.executed p = 0) :
    Timeline (g.put p x) where
  completed_le := h.completed_le
  value_le hy := by
    obtain ⟨-, rfl⟩ | ⟨-, hy⟩ := put_eq_some hy
    · exact hopen ▸ Nat.zero_le _
    · exact h.value_le hy
  eq_of_value hy hz hended hchannel hvalue := by
    obtain ⟨-, rfl⟩ | ⟨-, hy⟩ := put_eq_some hy
    · exact absurd hopen hended
    obtain ⟨-, rfl⟩ | ⟨-, hz⟩ := put_eq_some hz
    · exact absurd (hvalue.trans hopen) hended
    · exact h.eq_of_value hy hz hended hchannel hvalue
  done hy hended hle := by
    obtain ⟨-, rfl⟩ | ⟨-, hy⟩ := put_eq_some hy
    · exact absurd hopen hended
    · exact h.done hy hended hle
  started {q} hpos := by
    have hne : q ≠ p := by
      rintro rfl
      exact Nat.ne_of_gt hpos hidle
    rw [put_of_ne hne]
    exact h.started hpos
  acquired {q y m c v} hy hm hcommand := by
    obtain ⟨rfl, -⟩ | ⟨-, hy⟩ := put_eq_some hy
    · exact absurd (hidle ▸ hm) (Nat.not_lt_zero m)
    · exact h.acquired hy hm hcommand

theorem endPush (hx : g.pushes p = some x) (hopen : x.channelTrackingValue = 0) :
    Timeline { g.put p { x with channelTrackingValue := g.queuedValue x.channel + 1 } with
      queuedValue := update g.queuedValue x.channel (g.queuedValue x.channel + 1) } := by
  have hidle := h.executed_of_open hx hopen
  have hqueued : ∀ c, g.queuedValue c ≤
      update g.queuedValue x.channel (g.queuedValue x.channel + 1) c := fun c =>
    le_update_iff.2 ⟨Nat.le_succ _, fun _ _ => le_rfl⟩ c
  -- the new value is larger than those that the channel has given out
  have hnew : ∀ {q y}, g.pushes q = some y → y.channel = x.channel →
      y.channelTrackingValue ≠ g.queuedValue x.channel + 1 := fun {q y} hy hchannel =>
    Nat.ne_of_lt (Nat.lt_succ_of_le (hchannel ▸ h.value_le hy))
  refine ⟨fun c => (h.completed_le c).trans (hqueued c), ?_, ?_, ?_, ?_, ?_⟩
  · intro q y hy
    obtain ⟨-, rfl⟩ | ⟨-, hy⟩ := put_eq_some hy
    · simp
    · exact (h.value_le hy).trans (hqueued _)
  · intro q r y z hy hz hended hchannel hvalue
    obtain ⟨hq, rfl⟩ | ⟨-, hyOld⟩ := put_eq_some hy <;>
      obtain ⟨hr, rfl⟩ | ⟨-, hzOld⟩ := put_eq_some hz
    · exact hq.trans hr.symm
    · exact absurd hvalue.symm (hnew hzOld hchannel.symm)
    · exact absurd hvalue (hnew hyOld hchannel)
    · exact h.eq_of_value hyOld hzOld hended hchannel hvalue
  · intro q y hy hended hle
    obtain ⟨-, rfl⟩ | ⟨-, hy⟩ := put_eq_some hy
    · exact absurd (Nat.le_trans hle (h.completed_le x.channel)) (Nat.not_succ_le_self _)
    · exact h.done hy hended hle
  · intro q hpos
    have hne : q ≠ p := by
      rintro rfl
      exact Nat.ne_of_gt hpos hidle
    obtain ⟨y, hy, hstarted⟩ := h.started hpos
    exact ⟨y, (put_of_ne hne _).trans hy, hstarted⟩
  · intro q y m c v hy hm hcommand
    obtain ⟨rfl, -⟩ | ⟨-, hy⟩ := put_eq_some hy
    · exact absurd (hidle ▸ hm) (Nat.not_lt_zero m)
    · exact h.acquired hy hm hcommand

theorem execute {command : Command} (hx : g.pushes p = some x)
    (hcommand : x.commands[g.executed p]? = some command) (hnext : g.IsNext x)
    (hcan : g.CanExecute command) :
    Timeline { g with executed := update g.executed p (g.executed p + 1) } where
  completed_le := h.completed_le
  value_le := h.value_le
  eq_of_value := h.eq_of_value
  done {q y} hy hended hle := by
    have hmore : g.executed q ≤ update g.executed p (g.executed p + 1) q :=
      le_update_iff.2 ⟨Nat.le_succ _, fun _ _ => le_rfl⟩ q
    exact (h.done hy hended hle).trans hmore
  started {q} hpos := by
    obtain rfl | hne := eq_or_ne q p
    · exact ⟨x, hx, hnext ▸ Nat.succ_ne_zero _, Nat.le_of_eq hnext⟩
    · dsimp only at hpos
      rw [update_of_ne hne] at hpos
      exact h.started hpos
  acquired {q y m c v} hy hm hacquire := by
    dsimp only at hm
    obtain rfl | hne := eq_or_ne q p
    · rw [update_self] at hm
      obtain rfl : x = y := Option.some.inj (hx.symm.trans hy)
      obtain hlt | rfl := Nat.lt_succ_iff_lt_or_eq.1 hm
      · exact h.acquired hx hlt hacquire
      -- the command that is executed now
      · obtain rfl : command = .acquire c v := Option.some.inj (hcommand.symm.trans hacquire)
        exact hcan
    · rw [update_of_ne hne] at hm
      exact h.acquired hy hm hacquire

theorem release (hx : g.pushes p = some x) (hnext : g.IsNext x)
    (hall : g.executed p = x.commands.length) :
    Timeline { g with
      completedValue := update g.completedValue x.channel x.channelTrackingValue } := by
  have hmore : ∀ c, g.completedValue c ≤
      update g.completedValue x.channel x.channelTrackingValue c := fun c =>
    le_update_iff.2 ⟨hnext ▸ Nat.le_succ _, fun _ _ => le_rfl⟩ c
  refine ⟨?_, h.value_le, h.eq_of_value, ?_, ?_, ?_⟩
  · intro c
    exact update_le_iff.2 ⟨h.value_le hx, fun d _ => h.completed_le d⟩ c
  · intro q y hy hended hle
    dsimp only at hle
    obtain hchannel | hne := eq_or_ne y.channel x.channel
    · rw [hchannel, update_self] at hle
      obtain hlt | heq := Nat.lt_or_eq_of_le hle
      · rw [hnext] at hlt
        exact h.done hy hended (hchannel ▸ Nat.le_of_lt_succ hlt)
      -- the push that is released now
      · obtain rfl := h.eq_of_value hy hx hended hchannel heq
        obtain rfl : x = y := Option.some.inj (hx.symm.trans hy)
        exact Nat.le_of_eq hall.symm
    · rw [update_of_ne hne] at hle
      exact h.done hy hended hle
  · intro q hpos
    obtain ⟨y, hy, hended, hle⟩ := h.started hpos
    exact ⟨y, hy, hended, hle.trans (Nat.succ_le_succ (hmore _))⟩
  · intro q y m c v hy hm hacquire
    exact (h.acquired hy hm hacquire).trans (hmore c)

theorem step {t : Gpu} (hmoves : Moves g t) : Timeline t := by
  cases hmoves with
  | beginPush p channel owner hnew =>
    apply h.put_open rfl
    by_contra hne
    obtain ⟨x, hx, -⟩ := h.started (Nat.pos_of_ne_zero hne)
    rw [hnew] at hx
    cases hx
  | append p x commands hx hopen => exact h.put_open hopen (h.executed_of_open hx hopen)
  | late => exact ⟨h.completed_le, h.value_le, h.eq_of_value, h.done, h.started, h.acquired⟩
  | endPush p x hx hopen => exact h.endPush hx hopen
  | execute p x command hx hcommand hnext hcan => exact h.execute hx hcommand hnext hcan
  | release p x hx hnext hall => exact h.release hx hnext hall

end

end Timeline

/-! ## What later states have kept -/

structure Grows (g : Gpu) (x y : Push) : Prop where
  channel : y.channel = x.channel
  commands : x.commands <+: y.commands
  ended : x.channelTrackingValue ≠ 0 → y = x
  /-- A push that is ended comes after those that have been. -/
  later : x.channelTrackingValue = 0 →
    y.channelTrackingValue = 0 ∨ g.queuedValue x.channel < y.channelTrackingValue

theorem Grows.refl (g : Gpu) (x : Push) : Grows g x x := ⟨rfl, List.prefix_rfl, fun _ => rfl, .inl⟩

structure Extends (g t : Gpu) : Prop where
  push : ∀ {p x}, g.pushes p = some x → ∃ y, t.pushes p = some y ∧ Grows g x y
  executed : ∀ p, g.executed p ≤ t.executed p

theorem exists_grows_put {g : Gpu} {p : Nat} {y : Push}
    (hgrows : ∀ x, g.pushes p = some x → Grows g x y) {q : Nat} {x : Push}
    (hx : g.pushes q = some x) : ∃ z, (g.put p y).pushes q = some z ∧ Grows g x z := by
  obtain rfl | hne := eq_or_ne q p
  · exact ⟨y, put_self g q y, hgrows x hx⟩
  · exact ⟨x, (put_of_ne hne y).trans hx, .refl g x⟩

theorem Moves.extends {g t : Gpu} (h : Moves g t) : Extends g t := by
  cases h with
  | beginPush p channel owner hnew =>
    refine ⟨exists_grows_put fun x hx => ?_, fun _ => le_rfl⟩
    rw [hnew] at hx
    cases hx
  | append p x commands hx hopen =>
    refine ⟨exists_grows_put fun y hy => ?_, fun _ => le_rfl⟩
    obtain rfl : x = y := Option.some.inj (hx.symm.trans hy)
    exact ⟨rfl, List.prefix_append _ _, fun hended => absurd hopen hended, fun _ => .inl hopen⟩
  | late | release => exact ⟨fun {q y} hy => ⟨y, hy, .refl g y⟩, fun _ => le_rfl⟩
  | endPush p x hx hopen =>
    refine ⟨exists_grows_put fun y hy => ?_, fun _ => le_rfl⟩
    obtain rfl : x = y := Option.some.inj (hx.symm.trans hy)
    exact ⟨rfl, List.prefix_rfl, fun hended => absurd hopen hended, fun _ => .inr (Nat.lt_succ_self _)⟩
  | execute p x command hx hcommand hnext hcan =>
    refine ⟨fun {q y} hy => ⟨y, hy, .refl g y⟩, fun q => ?_⟩
    exact le_update_iff.2 ⟨Nat.le_succ _, fun _ _ => le_rfl⟩ q

/-! ## What a tracker stands for -/

/-- The command at a place of an ended push. -/
structure Queued (g : Gpu) (c : Nat × Nat) (x : Push) : Prop where
  push : g.pushes c.1 = some x
  ended : x.channelTrackingValue ≠ 0
  lt : c.2 < x.commands.length

/-- The command has been executed, or the tracker has an entry for its push. -/
def Secured (g : Gpu) (tracker : Tracker) (c : Nat × Nat) : Prop :=
  g.Done c ∨ ∃ x, Queued g c x ∧ Dominates tracker (x.channel, x.channelTrackingValue)

/-- The command has been executed, or the GPU gets to it before it gets to the given place: it comes
earlier on the same channel, or there is an acquire for it on the way. -/
def Fenced (g : Gpu) (p i : Nat) (c : Nat × Nat) : Prop :=
  g.Done c ∨ ∃ x y, Queued g c x ∧ g.pushes p = some y ∧
    (x.channel = y.channel ∧
        (y.channelTrackingValue = 0 ∨ x.channelTrackingValue < y.channelTrackingValue) ∨
      ∃ m < i, ∃ v, y.commands[m]? = some (.acquire x.channel v) ∧ x.channelTrackingValue ≤ v)

section Standing

variable {g t : Gpu} {tracker : Tracker} {p i : Nat} {c : Nat × Nat} {x : Push}

theorem Queued.done (h : Queued g c x) (htime : Timeline g)
    (hle : x.channelTrackingValue ≤ g.completedValue x.channel) : g.Done c :=
  h.lt.trans_le (htime.done h.push h.ended hle)

theorem Secured.done (h : Secured g tracker c) (htime : Timeline g)
    (hall : ∀ entry ∈ tracker, Passed g.completedValue entry) : g.Done c := by
  obtain hdone | ⟨x, hqueued, hdom⟩ := h
  · exact hdone
  · exact hqueued.done htime (hdom.passed hall)

theorem Fenced.done (h : Fenced g p i c) (htime : Timeline g) (hdone : g.Done (p, i)) : g.Done c := by
  obtain hc | ⟨x, y, hqueued, hy, hsame | ⟨m, hm, v, hacquire, hle⟩⟩ := h
  · exact hc
  -- the push at the place has been started, so those ahead of it are released
  · obtain ⟨z, hz, hended, hstarted⟩ := htime.started (Nat.zero_lt_of_lt hdone)
    obtain rfl : y = z := Option.some.inj (hy.symm.trans hz)
    have hlt := hsame.2.resolve_left hended
    apply hqueued.done htime
    rw [hsame.1]
    exact Nat.le_of_lt_succ (hlt.trans_le hstarted)
  · exact hqueued.done htime (hle.trans (htime.acquired hy (hm.trans hdone) hacquire))

theorem Extends.done (h : Extends g t) (hc : g.Done c) : t.Done c := hc.trans_le (h.executed c.1)

theorem Queued.extends (h : Queued g c x) (hext : Extends g t) : Queued t c x := by
  obtain ⟨y, hy, hgrows⟩ := hext.push h.push
  obtain rfl := hgrows.ended h.ended
  exact ⟨hy, h.ended, h.lt⟩

theorem Secured.extends (h : Secured g tracker c) (hext : Extends g t) : Secured t tracker c := by
  obtain hdone | ⟨x, hqueued, hdom⟩ := h
  · exact .inl (hext.done hdone)
  · exact .inr ⟨x, hqueued.extends hext, hdom⟩

theorem Fenced.extends (h : Fenced g p i c) (htime : Timeline g) (hext : Extends g t) :
    Fenced t p i c := by
  obtain hdone | ⟨x, y, hqueued, hy, hway⟩ := h
  · exact .inl (hext.done hdone)
  obtain ⟨z, hz, hgrows⟩ := hext.push hy
  refine .inr ⟨x, z, hqueued.extends hext, hz, ?_⟩
  obtain ⟨hchannel, hopen | hlt⟩ | ⟨m, hm, v, hacquire, hle⟩ := hway
  · refine .inl ⟨hchannel.trans hgrows.channel.symm, (hgrows.later hopen).imp_right fun hlater => ?_⟩
    exact (htime.value_le hqueued.push).trans_lt (hchannel ▸ hlater)
  · obtain rfl := hgrows.ended (Nat.ne_zero_of_lt hlt)
    exact .inl ⟨hchannel, .inr hlt⟩
  · refine .inr ⟨m, hm, v, ?_, hle⟩
    obtain ⟨rest, hrest⟩ := hgrows.commands
    rw [← hrest, List.getElem?_append_left (List.getElem?_eq_some_iff.1 hacquire).1, hacquire]

theorem Fenced.mono {k : Nat} (h : Fenced g p i c) (hle : i ≤ k) : Fenced g p k c := by
  obtain hdone | ⟨x, y, hqueued, hy, hsame | ⟨m, hm, hacquire⟩⟩ := h
  · exact .inl hdone
  · exact .inr ⟨x, y, hqueued, hy, .inl hsame⟩
  · exact .inr ⟨x, y, hqueued, hy, .inr ⟨m, hm.trans_le hle, hacquire⟩⟩

theorem Secured.dropPassed (h : Secured g tracker c) (htime : Timeline g) :
    Secured g (dropPassed g.completedValue tracker) c := by
  obtain hdone | ⟨x, hqueued, hdom⟩ := h
  · exact .inl hdone
  by_cases hpassed : Passed g.completedValue (x.channel, x.channelTrackingValue)
  · exact .inl (hqueued.done htime hpassed)
  · exact .inr ⟨x, hqueued, hdom.dropPassed hpassed⟩

theorem Secured.fenced {y : Push} (h : Secured g tracker c) (hy : g.pushes p = some y)
    (hopen : y.channelTrackingValue = 0) :
    Fenced (g.put p { y with commands := y.commands ++ Gpu.acquires y.channel tracker }) p
      (y.commands ++ Gpu.acquires y.channel tracker).length c := by
  have hext : Extends g (g.put p { y with commands := y.commands ++ Gpu.acquires y.channel tracker }) :=
    (Moves.append p y _ hy hopen).extends
  obtain hdone | ⟨x, hqueued, entry, hentry, hchannel, hle⟩ := h
  · exact .inl (hext.done hdone)
  refine .inr ⟨x, _, hqueued.extends hext, put_self .., ?_⟩
  obtain hsame | hne := eq_or_ne x.channel y.channel
  · exact .inl ⟨hsame, .inl hopen⟩
  · have hmem : Command.acquire entry.1 entry.2 ∈ y.commands ++ Gpu.acquires y.channel tracker := by
      apply List.mem_append_right
      refine List.mem_map.2 ⟨entry, List.mem_filter.2 ⟨hentry, ?_⟩, rfl⟩
      exact decide_eq_true (hchannel.trans_ne hne)
    obtain ⟨m, hm, hget⟩ := List.mem_iff_getElem.1 hmem
    refine .inr ⟨m, hm, entry.2, ?_, hle⟩
    rw [List.getElem?_eq_getElem hm, hget, hchannel]

end Standing

end FaultMesh.Tracking
