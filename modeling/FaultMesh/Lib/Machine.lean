import Mathlib

/-!
# Labelled machines and invariants over guarded runs

A machine is a partial step function: a state and a label (an input, an answer of the
environment, or the choice of the thread that moves) give at most one next state. A run is a
list of labels. Nondeterminism sits entirely in the labels, so that a concrete run can be
evaluated and an arbitrary one is just an arbitrary list.
-/

namespace FaultMesh

/-- A deterministic step function over labels; `none` means the label is not enabled. -/
structure Machine (σ ι : Type*) where
  step : σ → ι → Option σ

namespace Machine

variable {σ ι : Type*} (M : Machine σ ι)

def run : σ → List ι → Option σ
  | s, [] => some s
  | s, i :: is => (M.step s i).bind fun t => run t is

/-- Every step of the run is taken in a state in which the guard allows its label. -/
def Meets (G : σ → ι → Prop) : σ → List ι → Prop
  | _, [] => True
  | s, i :: is => G s i ∧ ∀ t, M.step s i = some t → Meets G t is

/-- A guard that can be checked can be checked along a run. -/
instance decidableMeets (G : σ → ι → Prop) [∀ s i, Decidable (G s i)] :
    ∀ s is, Decidable (M.Meets G s is)
  | _, [] => isTrue trivial
  | s, i :: is =>
    match h : M.step s i with
    | none => decidable_of_iff (G s i) (by simp [Meets, h])
    | some t =>
      have := decidableMeets G t is
      decidable_of_iff (G s i ∧ M.Meets G t is) (by simp [Meets, h])

@[simp] theorem run_nil (s : σ) : M.run s [] = some s := rfl

theorem run_cons_eq_some {s t : σ} {i : ι} {is : List ι} :
    M.run s (i :: is) = some t ↔ ∃ u, M.step s i = some u ∧ M.run u is = some t := by
  simp [run, Option.bind_eq_some_iff]

theorem run_append_eq_some {s t : σ} {is js : List ι} :
    M.run s (is ++ js) = some t ↔ ∃ u, M.run s is = some u ∧ M.run u js = some t := by
  induction is generalizing s with
  | nil => simp
  | cons i is ih =>
    simp only [List.cons_append, run_cons_eq_some, ih]
    constructor
    · rintro ⟨u, hu, v, hv, ht⟩
      exact ⟨v, ⟨u, hu, hv⟩, ht⟩
    · rintro ⟨v, ⟨u, hu, hv⟩, ht⟩
      exact ⟨u, hu, v, hv, ht⟩

theorem meets_true (s : σ) (is : List ι) : M.Meets (fun _ _ => True) s is := by
  induction is generalizing s with
  | nil => trivial
  | cons i is ih => exact ⟨trivial, fun t _ => ih t⟩

/-- A condition on the labels alone joins the guard. -/
theorem Meets.and_mem {G : σ → ι → Prop} {P : ι → Prop} {s : σ} {is : List ι}
    (h : M.Meets G s is) (hP : ∀ i ∈ is, P i) : M.Meets (fun s i => P i ∧ G s i) s is := by
  induction is generalizing s with
  | nil => trivial
  | cons i is ih =>
    refine ⟨⟨hP i List.mem_cons_self, h.1⟩, fun t ht => ih (h.2 t ht) ?_⟩
    exact fun j hj => hP j (List.mem_cons_of_mem _ hj)

/-- **Run lemma**: a property that every guarded step preserves holds at the end of every
guarded run. -/
theorem run_invariant {G : σ → ι → Prop} {I : σ → Prop}
    (hstep : ∀ s i t, I s → G s i → M.step s i = some t → I t)
    {s t : σ} {is : List ι} (hI : I s) (hG : M.Meets G s is) (hrun : M.run s is = some t) :
    I t := by
  induction is generalizing s with
  | nil =>
    cases hrun
    exact hI
  | cons i is ih =>
    obtain ⟨u, hu, hrest⟩ := (run_cons_eq_some M).1 hrun
    exact ih (hstep s i u hI hG.1 hu) (hG.2 u hu) hrest

/-- **Simulation**: if a second machine can follow each guarded step, it can follow every guarded
run with the same labels. -/
theorem run_simulation {τ : Type*} (N : Machine τ ι) {G : σ → ι → Prop} {R : σ → τ → Prop}
    (hstep : ∀ s s' i t, R s s' → G s i → M.step s i = some t → ∃ t', N.step s' i = some t' ∧ R t t')
    {s t : σ} {s' : τ} {is : List ι} (hR : R s s') (hG : M.Meets G s is)
    (hrun : M.run s is = some t) : ∃ t', N.run s' is = some t' ∧ R t t' := by
  induction is generalizing s s' with
  | nil =>
    cases hrun
    exact ⟨s', rfl, hR⟩
  | cons i is ih =>
    obtain ⟨u, hu, hrest⟩ := (run_cons_eq_some M).1 hrun
    obtain ⟨u', hu', hRu⟩ := hstep s s' i u hR hG.1 hu
    obtain ⟨t', ht', hRt⟩ := ih hRu (hG.2 u hu) hrest
    exact ⟨t', (run_cons_eq_some N).2 ⟨u', hu', ht'⟩, hRt⟩

/-- The property holds in every state that the run goes through. -/
def Always (I : σ → Prop) (s : σ) (is : List ι) : Prop :=
  ∀ js t, js <+: is → M.run s js = some t → I t

theorem Always.start {I : σ → Prop} {s : σ} {is : List ι} (h : M.Always I s is) : I s :=
  h [] s List.nil_prefix rfl

theorem always_cons {I : σ → Prop} {s : σ} {i : ι} {is : List ι} :
    M.Always I s (i :: is) ↔ I s ∧ ∀ t, M.step s i = some t → M.Always I t is := by
  constructor
  · intro h
    refine ⟨h.start, fun t ht js u hjs hu => ?_⟩
    exact h (i :: js) u (List.cons_prefix_cons.2 ⟨rfl, hjs⟩) ((M.run_cons_eq_some).2 ⟨t, ht, hu⟩)
  · rintro ⟨hs, h⟩ js u hjs hu
    cases js with
    | nil =>
      cases hu
      exact hs
    | cons j js =>
      obtain ⟨rfl, htail⟩ := List.cons_prefix_cons.1 hjs
      obtain ⟨t, ht, hrest⟩ := (M.run_cons_eq_some).1 hu
      exact h t ht js u htail hrest

/-- **Sharp run lemma**: where every label is enabled and the guard says exactly when a step keeps
the property, it says exactly which runs keep it all along. -/
theorem always_iff_meets {G : σ → ι → Prop} {I : σ → Prop}
    (htotal : ∀ s i, ∃ t, M.step s i = some t)
    (hstep : ∀ s i t, I s → M.step s i = some t → (I t ↔ G s i))
    {s : σ} (hI : I s) (is : List ι) : M.Always I s is ↔ M.Meets G s is := by
  induction is generalizing s with
  | nil =>
    refine ⟨fun _ => trivial, fun _ js t hjs ht => ?_⟩
    obtain rfl := List.prefix_nil.1 hjs
    cases ht
    exact hI
  | cons i is ih =>
    obtain ⟨t, ht⟩ := htotal s i
    -- a step has one outcome
    have hrest : ∀ u, M.step s i = some u → u = t := fun u hu => Option.some.inj (hu.symm.trans ht)
    rw [always_cons]
    constructor
    · rintro ⟨-, h⟩
      have hkept := (h t ht).start
      refine ⟨(hstep s i t hI ht).1 hkept, fun u hu => ?_⟩
      obtain rfl := hrest u hu
      exact (ih hkept).1 (h u hu)
    · rintro ⟨hG, h⟩
      refine ⟨hI, fun u hu => ?_⟩
      obtain rfl := hrest u hu
      exact (ih ((hstep s i u hI hu).2 hG)).2 (h u hu)

end Machine

/-! ## Tables in a state -/

/-- What is in a table after one slot has been written: the new value in this slot, the old values
in the others. -/
theorem update_eq_some {κ α : Type*} [DecidableEq κ] {table : κ → Option α} {k l : κ} {new : Option α}
    {a : α} (h : Function.update table k new l = some a) :
    l = k ∧ new = some a ∨ l ≠ k ∧ table l = some a := by
  obtain rfl | hne := eq_or_ne l k
  · exact .inl ⟨rfl, by rwa [Function.update_self] at h⟩
  · exact .inr ⟨hne, by rwa [Function.update_of_ne hne] at h⟩

end FaultMesh
