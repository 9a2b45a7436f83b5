import Mathlib

/-!
# Requests and answers in an event log

A log is a list of events, newest first. Some events ask for a key, some answer a key, and some
are cuts that divide the log into rounds. The property of interest: between two requests for the
same key that are separated by a cut, the key was answered.
-/

namespace FaultMesh

section Trace

variable {ε κ : Type*} (ask : ε → Option κ) (ack : κ → ε → Bool) (cut : ε → Bool)

/-- Between two requests for one key with a cut between them, the key was answered. -/
def AnsweredBetween (log : List ε) : Prop :=
  ∀ newer e middle e' older k, log = newer ++ e :: (middle ++ e' :: older) →
    ask e = some k → ask e' = some k → (∃ c ∈ middle, cut c = true) →
    ∃ r ∈ middle, ack k r = true

variable [DecidableEq κ]

/-- The key was asked for and has not been answered since. -/
def owed (k : κ) : List ε → Bool
  | [] => false
  | e :: log => ask e = some k || (!ack k e && owed k log)

/-- The key was owed at some cut and has not been answered since. -/
def owedAtCut (k : κ) : List ε → Bool
  | [] => false
  | e :: log => (cut e && owed ask ack k log) || (!ack k e && owedAtCut k log)

/-- Scan the log: no request is for a key that was owed at a cut before it. -/
def answeredBetween : List ε → Bool
  | [] => true
  | e :: log =>
    ((ask e).all fun k => !owedAtCut ask ack cut k log) && answeredBetween log

variable {ask ack cut} {k : κ} {log evs : List ε}

/-! ## Where a key is owed -/

theorem owed_iff :
    owed ask ack k log = true ↔
      ∃ middle e older, log = middle ++ e :: older ∧ ask e = some k ∧
        ∀ r ∈ middle, ack k r = false := by
  induction log with
  | nil => simp [owed]
  | cons x log ih =>
    simp only [owed, Bool.or_eq_true, decide_eq_true_eq, Bool.and_eq_true,
      Bool.not_eq_eq_eq_not, Bool.not_true, ih]
    constructor
    · rintro (hx | ⟨hx, middle, e, older, rfl, he, hmid⟩)
      · exact ⟨[], x, log, rfl, hx, by simp⟩
      · exact ⟨x :: middle, e, older, rfl, he, by simpa using ⟨hx, hmid⟩⟩
    · rintro ⟨middle, e, older, heq, he, hmid⟩
      cases middle with
      | nil =>
        obtain ⟨rfl, -⟩ := List.cons.inj heq
        exact .inl he
      | cons y middle =>
        obtain ⟨rfl, rfl⟩ := List.cons.inj heq
        refine .inr ⟨hmid _ List.mem_cons_self, middle, e, older, rfl, he, ?_⟩
        exact fun r hr => hmid r (List.mem_cons_of_mem _ hr)

theorem owedAtCut_iff (hack : ∀ c, cut c = true → ack k c = false) :
    owedAtCut ask ack cut k log = true ↔
      ∃ middle e older, log = middle ++ e :: older ∧ ask e = some k ∧
        (∃ c ∈ middle, cut c = true) ∧ ∀ r ∈ middle, ack k r = false := by
  induction log with
  | nil => simp [owedAtCut]
  | cons x log ih =>
    simp only [owedAtCut, Bool.or_eq_true, Bool.and_eq_true, Bool.not_eq_eq_eq_not, Bool.not_true,
      ih, owed_iff]
    constructor
    · rintro (⟨hcut, middle, e, older, rfl, he, hmid⟩ | ⟨hx, middle, e, older, rfl, he, hc, hmid⟩)
      · exact ⟨x :: middle, e, older, rfl, he, ⟨x, List.mem_cons_self, hcut⟩,
          by simpa using ⟨hack x hcut, hmid⟩⟩
      · obtain ⟨c, hmem, hc⟩ := hc
        exact ⟨x :: middle, e, older, rfl, he, ⟨c, List.mem_cons_of_mem _ hmem, hc⟩,
          by simpa using ⟨hx, hmid⟩⟩
    · rintro ⟨middle, e, older, heq, he, ⟨c, hmem, hc⟩, hmid⟩
      cases middle with
      | nil => cases hmem
      | cons y middle =>
        obtain ⟨rfl, rfl⟩ := List.cons.inj heq
        have hrest : ∀ r ∈ middle, ack k r = false :=
          fun r hr => hmid r (List.mem_cons_of_mem _ hr)
        rcases List.mem_cons.1 hmem with rfl | hmem
        · exact .inl ⟨hc, middle, e, older, rfl, he, hrest⟩
        · exact .inr ⟨hmid _ List.mem_cons_self, middle, e, older, rfl, he, ⟨c, hmem, hc⟩, hrest⟩

theorem owed_of_owedAtCut (hack : ∀ c, cut c = true → ack k c = false)
    (h : owedAtCut ask ack cut k log = true) : owed ask ack k log = true := by
  obtain ⟨middle, e, older, hlog, he, -, hmid⟩ := (owedAtCut_iff hack).1 h
  exact owed_iff.2 ⟨middle, e, older, hlog, he, hmid⟩

/-- The scan computes the property, if a cut answers nothing. -/
theorem answeredBetween_iff (hack : ∀ k c, cut c = true → ack k c = false) :
    answeredBetween ask ack cut log = true ↔ AnsweredBetween ask ack cut log := by
  induction log with
  | nil => simp [answeredBetween, AnsweredBetween]
  | cons x log ih =>
    simp only [answeredBetween, Bool.and_eq_true, Option.all_eq_true, ih]
    constructor
    · rintro ⟨hx, hlog⟩ newer e middle e' older k heq he he' hcut
      cases newer with
      | cons y newer => exact hlog newer e middle e' older k (List.cons.inj heq).2 he he' hcut
      | nil =>
        obtain ⟨rfl, rfl⟩ := List.cons.inj heq
        -- an unanswered request would be owed at the cut
        by_contra hnone
        have howed : owedAtCut ask ack cut k (middle ++ e' :: older) = true :=
          (owedAtCut_iff (hack k)).2 ⟨middle, e', older, rfl, he', hcut, by simpa using hnone⟩
        have hfree := hx k he
        rw [howed] at hfree
        cases hfree
    · intro h
      refine ⟨fun k hk => ?_, fun newer e middle e' older k heq =>
        h (x :: newer) e middle e' older k (by rw [heq]; rfl)⟩
      by_contra howed
      obtain ⟨middle, e', older, rfl, he', hcut, hmid⟩ :=
        (owedAtCut_iff (hack k)).1 (by simpa using howed)
      obtain ⟨r, hr, hrk⟩ := h [] x middle e' older k rfl hk he' hcut
      rw [hmid r hr] at hrk
      cases hrk

/-! ## Growing the log -/

theorem owed_append (h : owed ask ack k (evs ++ log) = true) :
    (∃ e ∈ evs, ask e = some k) ∨ owed ask ack k log = true := by
  induction evs with
  | nil => exact .inr h
  | cons x evs ih =>
    simp only [List.cons_append, owed, Bool.or_eq_true, decide_eq_true_eq, Bool.and_eq_true] at h
    rcases h with hx | ⟨-, h⟩
    · exact .inl ⟨x, List.mem_cons_self, hx⟩
    · rcases ih h with ⟨e, he, hk⟩ | h
      · exact .inl ⟨e, List.mem_cons_of_mem _ he, hk⟩
      · exact .inr h

theorem owed_of_append (hask : ∀ e ∈ evs, ask e = none)
    (h : owed ask ack k (evs ++ log) = true) : owed ask ack k log = true := by
  refine (owed_append h).resolve_left ?_
  rintro ⟨e, he, hk⟩
  rw [hask e he] at hk
  cases hk

omit [DecidableEq κ] in
theorem AnsweredBetween.append (h : AnsweredBetween ask ack cut log)
    (hask : ∀ e ∈ evs, ask e = none) : AnsweredBetween ask ack cut (evs ++ log) := by
  induction evs with
  | nil => exact h
  | cons x evs ih =>
    have ih := ih fun e he => hask e (List.mem_cons_of_mem _ he)
    intro newer e middle e' older k heq he
    cases newer with
    | nil =>
      obtain ⟨rfl, -⟩ := List.cons.inj heq
      rw [hask _ List.mem_cons_self] at he
      cases he
    | cons y newer => exact ih newer e middle e' older k (List.cons.inj heq).2 he

theorem owedAtCut_round (hack : ∀ c, cut c = true → ack k c = false) {c : ε}
    (hcut : ∀ e ∈ evs, cut e = false) (howed : owed ask ack k log = false) :
    owedAtCut ask ack cut k (evs ++ c :: log) = false := by
  induction evs with
  | nil =>
    have hlog : owedAtCut ask ack cut k log = false := by
      by_contra hw
      rw [owed_of_owedAtCut hack (by simpa using hw)] at howed
      cases howed
    simp [owedAtCut, howed, hlog]
  | cons y evs ih =>
    have hy : cut y = false := hcut y List.mem_cons_self
    simp [owedAtCut, hy, ih fun e he => hcut e (List.mem_cons_of_mem _ he)]

/-- **A new round**: after a cut, requests for keys that were not owed at the cut keep the
property. -/
theorem AnsweredBetween.round (hack : ∀ k c, cut c = true → ack k c = false)
    (h : AnsweredBetween ask ack cut log) {c : ε} (hc : ask c = none)
    (hcut : ∀ e ∈ evs, cut e = false)
    (howed : ∀ e ∈ evs, ∀ k, ask e = some k → owed ask ack k log = false) :
    AnsweredBetween ask ack cut (evs ++ c :: log) := by
  induction evs with
  | nil =>
    show AnsweredBetween ask ack cut ([c] ++ log)
    exact h.append (by simpa using hc)
  | cons x evs ih =>
    have hcut' : ∀ e ∈ evs, cut e = false := fun e he => hcut e (List.mem_cons_of_mem _ he)
    have ih := ih hcut' fun e he => howed e (List.mem_cons_of_mem _ he)
    rw [← answeredBetween_iff hack] at ih ⊢
    simp only [List.cons_append, answeredBetween, Bool.and_eq_true, Option.all_eq_true, ih,
      and_true]
    intro k hk
    rw [owedAtCut_round (hack k) hcut' (howed x List.mem_cons_self k hk)]
    rfl

end Trace

end FaultMesh
