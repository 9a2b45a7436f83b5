import Mathlib

/-!
# Tables with bounded probing

A key may stand in any of the slots that its first probes lead to. A search stops at the first empty
slot, and a key that finds neither itself nor an empty slot takes the place of another one.
-/

namespace FaultMesh

open Function

section Probing

variable {ι κ ν : Type*} (slot : κ → Nat → ι)

/-- A key stands at one of its first `n` probes, with no empty slot before it, and nowhere else. -/
structure Probed (n : Nat) (table : ι → Option (κ × ν)) : Prop where
  reach : ∀ s key v, table s = some (key, v) →
    ∃ k < n, slot key k = s ∧ ∀ j < k, table (slot key j) ≠ none
  unique : ∀ s s' key v v', table s = some (key, v) → table s' = some (key, v') → s = s'

/-- The slot is empty or has the key. -/
def OpenTo (table : ι → Option (κ × ν)) (key : κ) (s : ι) : Prop := ∀ e, table s = some e → e.1 = key

/-- A key is written at the first probe that is open to it, or anywhere if there is none. -/
structure Writable (n : Nat) (table : ι → Option (κ × ν)) (key : κ) (p : Nat) : Prop where
  lt : p < n
  before : ∀ j < p, ¬ OpenTo table key (slot key j)
  here : OpenTo table key (slot key p) ∨ ∀ j < n, ¬ OpenTo table key (slot key j)

/-- The value found for a key by at most `n` probes from the given one on. -/
def searchFrom [DecidableEq κ] (table : ι → Option (κ × ν)) (key : κ) : Nat → Nat → Option ν
  | 0, _ => none
  | n + 1, probe =>
    match table (slot key probe) with
    | none => none
    | some e => if e.1 = key then some e.2 else searchFrom table key n (probe + 1)

end Probing

variable {ι κ ν : Type*} {slot : κ → Nat → ι} {table : ι → Option (κ × ν)} {n p : Nat} {key : κ}
  {v : ν} {s : ι}

theorem probed_empty (slot : κ → Nat → ι) (n : Nat) :
    Probed slot n (fun _ => none : ι → Option (κ × ν)) := ⟨nofun, nofun⟩

theorem ne_none_of_not_openTo (h : ¬ OpenTo table key s) : table s ≠ none := by
  intro hnone
  apply h
  intro e he
  rw [hnone] at he
  cases he

/-- A key that is in the table is written where it stands. -/
theorem Probed.slot_eq (h : Probed slot n table) (hp : Writable slot n table key p)
    (hs : table s = some (key, v)) : s = slot key p := by
  obtain ⟨k, hk, rfl, hbefore⟩ := h.reach s key v hs
  have hopen : OpenTo table key (slot key k) := by
    intro e he
    rw [hs] at he
    cases he
    rfl
  obtain hlt | rfl | hlt := Nat.lt_trichotomy p k
  -- the slot before it is not empty, so it has the key as well
  · obtain ⟨e, he⟩ := Option.ne_none_iff_exists'.1 (hbefore p hlt)
    have hkey := (hp.here.resolve_right fun hnone => hnone k hk hopen) e he
    exact h.unique _ _ key v e.2 hs (he.trans (by rw [← hkey]))
  · rfl
  · exact absurd hopen (hp.before k hlt)

theorem Probed.write [DecidableEq ι] (h : Probed slot n table) (hp : Writable slot n table key p)
    (v : ν) : Probed slot n (update table (slot key p) (some (key, v))) := by
  have hmono : ∀ s, table s ≠ none →
      update table (slot key p) (some (key, v)) s ≠ none := by
    intro s hs
    by_cases heq : s = slot key p
    · rw [heq, update_self]
      exact nofun
    · rwa [update_of_ne heq]
  -- no other slot has the key
  have hother : ∀ s v', s ≠ slot key p → table s ≠ some (key, v') :=
    fun s v' hne hs => hne (h.slot_eq hp hs)
  constructor
  · intro s key' v' hs
    by_cases heq : s = slot key p
    · rw [heq, update_self] at hs
      cases hs
      exact ⟨p, hp.lt, heq.symm, fun j hj => hmono _ (ne_none_of_not_openTo (hp.before j hj))⟩
    · rw [update_of_ne heq] at hs
      obtain ⟨k, hk, hslot, hbefore⟩ := h.reach s key' v' hs
      exact ⟨k, hk, hslot, fun j hj => hmono _ (hbefore j hj)⟩
  · intro s s' key' v₁ v₂ hs hs'
    by_cases heq : s = slot key p <;> by_cases heq' : s' = slot key p
    · rw [heq, heq']
    · rw [heq, update_self] at hs
      rw [update_of_ne heq'] at hs'
      cases hs
      exact absurd hs' (hother s' v₂ heq')
    · rw [heq', update_self] at hs'
      rw [update_of_ne heq] at hs
      cases hs'
      exact absurd hs (hother s v₁ heq)
    · rw [update_of_ne heq] at hs
      rw [update_of_ne heq'] at hs'
      exact h.unique s s' key' v₁ v₂ hs hs'

variable [DecidableEq κ]

theorem exists_of_searchFrom {i : Nat} (h : searchFrom slot table key n i = some v) :
    ∃ s, table s = some (key, v) := by
  induction n generalizing i with
  | zero => cases h
  | succ n ih =>
    rw [searchFrom] at h
    split at h
    next => cases h
    next e he =>
      split at h
      next hkey =>
        cases h
        exact ⟨_, he.trans (by rw [← hkey])⟩
      next => exact ih h

theorem Probed.searchFrom_eq (h : Probed slot n table) {k : Nat}
    (hk : table (slot key k) = some (key, v)) (hbefore : ∀ j < k, table (slot key j) ≠ none)
    {m i : Nat} (hle : i ≤ k) (hlt : k < i + m) : searchFrom slot table key m i = some v := by
  induction m generalizing i with
  | zero => omega
  | succ m ih =>
    rw [searchFrom]
    by_cases heq : i = k
    · rw [heq, hk]
      exact if_pos rfl
    · obtain ⟨e, he⟩ := Option.ne_none_iff_exists'.1 (hbefore i (by omega))
      simp only [he]
      split
      next hkey =>
        -- it is the same slot
        have he' : table (slot key i) = some (key, e.2) := he.trans (by rw [← hkey])
        rw [h.unique _ _ key _ _ he' hk, hk] at he'
        cases he'
        rfl
      next => exact ih (by omega) (by omega)

theorem Probed.search_eq_some_iff (h : Probed slot n table) :
    searchFrom slot table key n 0 = some v ↔ ∃ s, table s = some (key, v) := by
  refine ⟨exists_of_searchFrom, ?_⟩
  rintro ⟨s, hs⟩
  obtain ⟨k, hk, rfl, hbefore⟩ := h.reach s key v hs
  exact h.searchFrom_eq hs hbefore (Nat.zero_le k) (by omega)

end FaultMesh
