import Mathlib

/-!
# Direct-mapped tables emptied by a generation counter

A table of slots, each stamped with the generation that wrote it. A slot counts as occupied
only when its stamp is the current generation, so that the whole table is emptied by advancing
one 32-bit counter; only when that counter wraps are the stamps themselves cleared.

The structure carries the invariant that makes this work: no slot is stamped with a generation
that has not begun yet. `EpochTable.lookup_build` then describes a rebuilt table completely.
-/

namespace FaultMesh

/-- Slots stamped with a generation, none of them from a later generation than the current. -/
structure EpochTable (α : Type*) where
  size : Nat
  generation : Nat
  epoch : Nat → Nat
  value : Nat → α
  size_pos : 0 < size
  generation_pos : 0 < generation
  generation_lt : generation < 2 ^ 32
  epoch_le : ∀ i, i < size → epoch i ≤ generation

namespace EpochTable

variable {α : Type*}

/-- A zeroed table in its first generation. -/
def init (size : Nat) (hsize : 0 < size) (zero : α) : EpochTable α where
  size := size
  generation := 1
  epoch := fun _ => 0
  value := fun _ => zero
  size_pos := hsize
  generation_pos := Nat.one_pos
  generation_lt := by decide
  epoch_le := fun _ _ => Nat.zero_le _

/-- What the slot holds in the current generation. -/
def lookup (t : EpochTable α) (i : Nat) : Option α :=
  if t.epoch i = t.generation then some (t.value i) else none

/-- Begin a new generation. On the wrap of the 32-bit counter every stamp is cleared and the
counter restarts at one. -/
def advance (t : EpochTable α) : EpochTable α :=
  if h : (t.generation + 1) % 2 ^ 32 = 0 then
    { t with
      generation := 1
      epoch := fun i => if i < t.size then 0 else t.epoch i
      generation_pos := Nat.one_pos
      generation_lt := by decide
      epoch_le := by
        intro i hi
        simp [hi] }
  else
    { t with
      generation := (t.generation + 1) % 2 ^ 32
      generation_pos := Nat.pos_of_ne_zero h
      generation_lt := Nat.mod_lt _ (by decide)
      epoch_le := by
        intro i hi
        have hle := t.epoch_le i hi
        have hlt := t.generation_lt
        omega }

/-- Stamp a slot with the current generation and store a value, whatever it held before. -/
def write (t : EpochTable α) (i : Nat) (a : α) : EpochTable α :=
  { t with
    epoch := Function.update t.epoch i t.generation
    value := Function.update t.value i a
    epoch_le := by
      intro j hj
      by_cases hji : j = i
      · subst hji
        simp
      · simpa [hji] using t.epoch_le j hj }

/-- Empty the table and write the given slots in order. -/
def build (t : EpochTable α) (l : List (Nat × α)) : EpochTable α :=
  l.foldl (fun t p => t.write p.1 p.2) t.advance

@[simp] theorem lookup_init (size : Nat) (hsize : 0 < size) (zero : α) (i : Nat) :
    (init size hsize zero).lookup i = none := by
  simp [lookup, init]

@[simp] theorem advance_size (t : EpochTable α) : t.advance.size = t.size := by
  unfold advance
  split <;> rfl

@[simp] theorem write_size (t : EpochTable α) (i : Nat) (a : α) : (t.write i a).size = t.size :=
  rfl

theorem lookup_write (t : EpochTable α) (i j : Nat) (a : α) :
    (t.write i a).lookup j = if j = i then some a else t.lookup j := by
  by_cases h : j = i
  · subst h
    simp [lookup, write]
  · simp [lookup, write, h]

theorem lookup_advance (t : EpochTable α) {i : Nat} (hi : i < t.size) :
    t.advance.lookup i = none := by
  have hle := t.epoch_le i hi
  have hlt := t.generation_lt
  unfold advance lookup
  split
  · simp [hi]
  · next h =>
      -- no wrap: the old stamps are all below the new generation
      have hne : t.epoch i ≠ (t.generation + 1) % 2 ^ 32 := by omega
      exact if_neg hne

private theorem lookup_foldl_write (l : List (Nat × α)) (t : EpochTable α) (i : Nat) :
    (l.foldl (fun t p => t.write p.1 p.2) t).lookup i =
      ((l.reverse.find? fun p => p.1 = i).map Prod.snd).or (t.lookup i) := by
  induction l generalizing t with
  | nil => simp
  | cons p l ih =>
    rw [List.foldl_cons, ih, lookup_write, List.reverse_cons, List.find?_append]
    cases hf : l.reverse.find? fun p => p.1 = i with
    | some q => simp
    | none =>
      by_cases hp : i = p.1
      · simp [hp]
      · have hp' : ¬ p.1 = i := fun h => hp h.symm
        simp [hp, hp']

@[simp] theorem build_size (t : EpochTable α) (l : List (Nat × α)) : (t.build l).size = t.size := by
  unfold build
  suffices ∀ u : EpochTable α, (l.foldl (fun t p => t.write p.1 p.2) u).size = u.size by
    rw [this, advance_size]
  induction l with
  | nil => intro u; rfl
  | cons p l ih => intro u; rw [List.foldl_cons, ih, write_size]

/-- **Content of a rebuilt table**: a slot holds the last value of the list that was written to
it, and nothing that an earlier generation left behind. -/
theorem lookup_build (t : EpochTable α) (l : List (Nat × α)) {i : Nat} (hi : i < t.size) :
    (t.build l).lookup i = (l.reverse.find? fun p => p.1 = i).map Prod.snd := by
  unfold build
  rw [lookup_foldl_write, lookup_advance t hi, Option.or_none]

theorem mem_of_lookup_build (t : EpochTable α) {l : List (Nat × α)} {i : Nat} {a : α}
    (hi : i < t.size) (h : (t.build l).lookup i = some a) : (i, a) ∈ l := by
  rw [lookup_build t l hi, Option.map_eq_some_iff] at h
  obtain ⟨p, hfind, rfl⟩ := h
  have hp : p.1 = i := by simpa using List.find?_some hfind
  have hmem : p ∈ l := by simpa using List.mem_of_find?_eq_some hfind
  rw [← hp]
  exact hmem

end EpochTable

end FaultMesh
