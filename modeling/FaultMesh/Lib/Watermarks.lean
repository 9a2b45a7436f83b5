import Mathlib

/-!
# Lists of watermarks

Each key has a level that only rises. A mark is a key with a level that is waited for; a list of marks
has passed when every level has been reached. A mark is added to the entry of its key, which is
raised, and entries that have passed may be dropped.
-/

namespace FaultMesh

variable {κ ν : Type*} [LinearOrder ν]

/-- The level of the key has reached the mark. -/
def Passed (level : κ → ν) (mark : κ × ν) : Prop := mark.2 ≤ level mark.1

instance (level : κ → ν) (mark : κ × ν) : Decidable (Passed level mark) :=
  inferInstanceAs (Decidable (_ ≤ _))

def dropPassed (level : κ → ν) (marks : List (κ × ν)) : List (κ × ν) :=
  marks.filter fun mark => ¬Passed level mark

/-- Raise the entry of the key, or make a new one at the end. -/
def addMark [DecidableEq κ] (mark : κ × ν) : List (κ × ν) → List (κ × ν)
  | [] => [mark]
  | entry :: marks =>
    if entry.1 = mark.1 then (entry.1, max entry.2 mark.2) :: marks
    else entry :: addMark mark marks

def addMarks [DecidableEq κ] (marks : List (κ × ν)) : List (κ × ν) → List (κ × ν)
  | [] => marks
  | mark :: more => addMarks (addMark mark marks) more

/-- An entry for the key of the mark that is at least as high. -/
def Dominates (marks : List (κ × ν)) (mark : κ × ν) : Prop :=
  ∃ entry ∈ marks, entry.1 = mark.1 ∧ mark.2 ≤ entry.2

namespace Dominates

variable {marks more : List (κ × ν)} {mark : κ × ν}

theorem of_mem (h : mark ∈ marks) : Dominates marks mark := ⟨mark, h, rfl, le_rfl⟩

theorem passed {level : κ → ν} (h : Dominates marks mark)
    (hmarks : ∀ entry ∈ marks, Passed level entry) : Passed level mark := by
  obtain ⟨entry, hentry, hkey, hle⟩ := h
  calc mark.2 ≤ entry.2 := hle
    _ ≤ level entry.1 := hmarks entry hentry
    _ = level mark.1 := congrArg level hkey

theorem dropPassed {level : κ → ν} (h : Dominates marks mark) (hnot : ¬Passed level mark) :
    Dominates (dropPassed level marks) mark := by
  obtain ⟨entry, hentry, hkey, hle⟩ := h
  refine ⟨entry, List.mem_filter.2 ⟨hentry, decide_eq_true fun hpassed => hnot ?_⟩, hkey, hle⟩
  exact passed ⟨entry, List.mem_singleton_self entry, hkey, hle⟩ (by simpa using hpassed)

variable [DecidableEq κ]

theorem addMark (h : Dominates marks mark) (new : κ × ν) : Dominates (addMark new marks) mark := by
  obtain ⟨entry, hentry, hkey, hle⟩ := h
  induction marks with
  | nil => cases hentry
  | cons first marks ih =>
    unfold FaultMesh.addMark
    split
    -- the first entry is raised; the others stay as they are
    · obtain rfl | hrest := List.mem_cons.1 hentry
      · exact ⟨_, List.mem_cons_self, hkey, hle.trans (le_max_left _ _)⟩
      · exact ⟨entry, List.mem_cons_of_mem _ hrest, hkey, hle⟩
    · obtain rfl | hrest := List.mem_cons.1 hentry
      · exact ⟨_, List.mem_cons_self, hkey, hle⟩
      · obtain ⟨entry', hentry', h'⟩ := ih hrest
        exact ⟨entry', List.mem_cons_of_mem _ hentry', h'⟩

theorem addMarks (h : Dominates marks mark) (more : List (κ × ν)) :
    Dominates (addMarks marks more) mark := by
  induction more generalizing marks with
  | nil => exact h
  | cons new more ih => exact ih (h.addMark new)

end Dominates

section Add

variable [DecidableEq κ]

theorem dominates_addMark_self (mark : κ × ν) (marks : List (κ × ν)) :
    Dominates (addMark mark marks) mark := by
  induction marks with
  | nil => exact .of_mem (List.mem_singleton_self mark)
  | cons entry marks ih =>
    unfold addMark
    split
    next hkey => exact ⟨_, List.mem_cons_self, hkey, le_max_right entry.2 mark.2⟩
    next =>
      obtain ⟨entry', hentry', h'⟩ := ih
      exact ⟨entry', List.mem_cons_of_mem _ hentry', h'⟩

/-- What the added list dominates is dominated afterwards. -/
theorem Dominates.addMarks_right {more : List (κ × ν)} {mark : κ × ν} (h : Dominates more mark)
    (marks : List (κ × ν)) : Dominates (FaultMesh.addMarks marks more) mark := by
  obtain ⟨entry, hentry, hkey, hle⟩ := h
  induction more generalizing marks with
  | nil => cases hentry
  | cons new more ih =>
    obtain rfl | hrest := List.mem_cons.1 hentry
    · obtain ⟨entry', hentry', hkey', hle'⟩ :=
        (dominates_addMark_self entry marks).addMarks more
      exact ⟨entry', hentry', hkey'.trans hkey, hle.trans hle'⟩
    · exact ih (FaultMesh.addMark new marks) hrest

end Add

end FaultMesh
