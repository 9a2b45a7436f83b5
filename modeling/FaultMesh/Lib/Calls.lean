import Mathlib

/-!
# Calls with a status

A call changes a state and returns a status. Calls follow each other as long as they succeed; a
call that fails leaves the state it has got to, and is the last one.

Three things carry over from the parts to the whole: what is kept between the state before and the
state after, which statuses are not returned, and which changes of the state make no difference to
the call.
-/

namespace FaultMesh

/-- A type of statuses, with the one of success. -/
class Success (ε : Type*) where
  ok : ε

def Call (ε σ : Type*) := σ → ε × σ

namespace Call

variable {ε σ α : Type*}

/-- A call that is chosen by the state it begins in. -/
def choose (f : σ → Call ε σ) : Call ε σ := fun s => f s s

def fail (e : ε) : Call ε σ := fun s => (e, s)

/-- The states before and after the call are related, whether it succeeds or not. -/
def Keeps (R : σ → σ → Prop) (f : Call ε σ) : Prop := ∀ s, R s (f s).2

def Avoids (e : ε) (f : Call ε σ) : Prop := ∀ s, (f s).1 ≠ e

/-- The change of the state can be made before the call or after it. -/
def Commutes (k : σ → σ) (f : Call ε σ) : Prop := ∀ s, f (k s) = ((f s).1, k (f s).2)

section Branches

variable {p : Prop} [Decidable p] {f g : Call ε σ}

theorem Keeps.ite {R : σ → σ → Prop} (hf : Keeps R f) (hg : Keeps R g) :
    Keeps R (if p then f else g) := by
  split <;> assumption

theorem Avoids.ite {e : ε} (hf : Avoids e f) (hg : Avoids e g) : Avoids e (if p then f else g) := by
  split <;> assumption

end Branches

section Choose

variable {f : σ → Call ε σ}

theorem Keeps.choose {R : σ → σ → Prop} (hf : ∀ s, Keeps R (f s)) : Keeps R (choose f) :=
  fun s => hf s s

theorem Avoids.choose {e : ε} (hf : ∀ s, Avoids e (f s)) : Avoids e (choose f) :=
  fun s => hf s s

/-- The change does not affect the choice either. -/
theorem Commutes.choose {k : σ → σ} (hsame : ∀ s, f (k s) = f s) (hf : ∀ s, Commutes k (f s)) :
    Commutes k (choose f) := by
  intro s
  show f (k s) (k s) = _
  rw [hsame s]
  exact hf s s

end Choose

variable [Success ε]

def skip : Call ε σ := fun s => (Success.ok, s)

/-- A change of the state that cannot fail. -/
def alter (m : σ → σ) : Call ε σ := fun s => (Success.ok, m s)

theorem Avoids.alter {e : ε} {m : σ → σ} (he : Success.ok ≠ e) : Avoids e (alter m) :=
  fun _ => he

theorem Commutes.alter {k m : σ → σ} (hm : ∀ s, m (k s) = k (m s)) :
    Commutes k (alter m : Call ε σ) :=
  fun s => Prod.ext rfl (hm s)

variable [DecidableEq ε]

/-- The second call follows if the first one succeeds. -/
def andThen (f g : Call ε σ) : Call ε σ := fun s =>
  let r := f s
  if r.1 = Success.ok then g r.2 else r

/-- One call for each element, until one fails. -/
def forEach (f : α → Call ε σ) : List α → Call ε σ
  | [] => skip
  | x :: xs => (f x).andThen (forEach f xs)

section Laws

variable {f g h : Call ε σ} {s : σ}

theorem andThen_of_ok (hf : (f s).1 = Success.ok) : f.andThen g s = g (f s).2 := if_pos hf

theorem andThen_of_fails (hf : (f s).1 ≠ Success.ok) : f.andThen g s = f s := if_neg hf

@[simp] theorem alter_andThen {m : σ → σ} : (alter m).andThen g s = g (m s) := if_pos rfl

theorem choose_andThen {f : σ → Call ε σ} : (choose f).andThen g s = (f s).andThen g s := rfl

@[simp] theorem andThen_skip : f.andThen skip = f := by
  funext s
  by_cases hf : (f s).1 = Success.ok
  · rw [andThen_of_ok hf]
    exact Prod.ext hf.symm rfl
  · exact andThen_of_fails hf

theorem andThen_assoc : (f.andThen g).andThen h = f.andThen (g.andThen h) := by
  funext s
  by_cases hf : (f s).1 = Success.ok
  · rw [andThen_of_ok hf]
    unfold andThen
    rw [if_pos hf]
  · rw [andThen_of_fails hf, andThen_of_fails]
    · exact andThen_of_fails hf
    · rwa [andThen_of_fails hf]

end Laws

section Parts

variable {f g : Call ε σ}

theorem Keeps.andThen {R : σ → σ → Prop} (trans : ∀ ⦃a b c⦄, R a b → R b c → R a c)
    (hf : Keeps R f) (hg : Keeps R g) : Keeps R (f.andThen g) := by
  intro s
  by_cases hok : (f s).1 = Success.ok
  · rw [andThen_of_ok hok]
    exact trans (hf s) (hg _)
  · rw [andThen_of_fails hok]
    exact hf s

theorem Keeps.forEach {R : σ → σ → Prop} (refl : ∀ a, R a a)
    (trans : ∀ ⦃a b c⦄, R a b → R b c → R a c) {f : α → Call ε σ} (hf : ∀ x, Keeps R (f x))
    (xs : List α) : Keeps R (forEach f xs) := by
  induction xs with
  | nil => exact fun s => refl s
  | cons x xs ih => exact Keeps.andThen trans (hf x) ih

theorem Avoids.andThen {e : ε} (hf : Avoids e f) (hg : Avoids e g) : Avoids e (f.andThen g) := by
  intro s
  by_cases hok : (f s).1 = Success.ok
  · rw [andThen_of_ok hok]
    exact hg _
  · rw [andThen_of_fails hok]
    exact hf s

theorem Avoids.forEach {e : ε} (he : Success.ok ≠ e) {f : α → Call ε σ}
    (hf : ∀ x, Avoids e (f x)) (xs : List α) : Avoids e (forEach f xs) := by
  induction xs with
  | nil => exact fun _ => he
  | cons x xs ih => exact (hf x).andThen ih

theorem Commutes.andThen {k : σ → σ} (hf : Commutes k f) (hg : Commutes k g) :
    Commutes k (f.andThen g) := by
  intro s
  have hfst : (f (k s)).1 = (f s).1 := by rw [hf s]
  by_cases hok : (f s).1 = Success.ok
  · rw [andThen_of_ok hok, andThen_of_ok (hfst.trans hok), hf s]
    exact hg _
  · rw [andThen_of_fails hok, andThen_of_fails (hfst ▸ hok)]
    exact hf s

end Parts

end Call

end FaultMesh
