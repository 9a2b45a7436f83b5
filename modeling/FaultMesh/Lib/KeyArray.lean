import Mathlib

/-!
# Sorted key arrays

The two operations a sorted key array is used with: dropping repetitions that stand next to
each other, and binary search. Both are stated for an arbitrary comparison, so that they apply
whether or not the comparison looks at the whole key.
-/

namespace FaultMesh

variable {α : Type*}

/-- Keep an element only if it differs from the last one kept. -/
def uniqueFrom (cmp : α → α → Ordering) (last : α) : List α → List α
  | [] => []
  | b :: l => if cmp b last = .eq then uniqueFrom cmp last l else b :: uniqueFrom cmp b l

/-- Drop adjacent repetitions in place. -/
def uniqueAdjacent (cmp : α → α → Ordering) : List α → List α
  | [] => []
  | a :: l => a :: uniqueFrom cmp a l

/-- The loop of a binary search over `keys` with the interval `[left, right)` still open;
`order` compares the needle with a key. -/
def binarySearch (keys : List α) (order : α → Ordering) : Nat → Nat → Nat → Bool
  | 0, _, _ => false
  | fuel + 1, left, right =>
    if left < right then
      let mid := left + (right - left) / 2
      match keys[mid]? with
      | none => false
      | some k =>
        match order k with
        | .eq => true
        | .lt => binarySearch keys order fuel left mid
        | .gt => binarySearch keys order fuel (mid + 1) right
    else
      false

variable {l : List α}

theorem mem_of_mem_uniqueFrom {cmp : α → α → Ordering} {last a : α} (h : a ∈ uniqueFrom cmp last l)
    : a ∈ l := by
  induction l generalizing last with
  | nil => simp [uniqueFrom] at h
  | cons b l ih =>
    unfold uniqueFrom at h
    split at h
    · exact List.mem_cons_of_mem _ (ih h)
    · rcases List.mem_cons.1 h with rfl | h
      · exact List.mem_cons_self
      · exact List.mem_cons_of_mem _ (ih h)

theorem mem_of_mem_uniqueAdjacent {cmp : α → α → Ordering} {a : α} (h : a ∈ uniqueAdjacent cmp l) :
    a ∈ l := by
  cases l with
  | nil => simp [uniqueAdjacent] at h
  | cons b l =>
    rcases List.mem_cons.1 h with rfl | h
    · exact List.mem_cons_self
    · exact List.mem_cons_of_mem _ (mem_of_mem_uniqueFrom h)

variable {keys : List α} {order : α → Ordering}

/-- A hit of the binary search is a key of the array that compares equal, sorted or not. -/
theorem exists_mem_of_binarySearch {fuel left right : Nat}
    (h : binarySearch keys order fuel left right = true) : ∃ k ∈ keys, order k = .eq := by
  induction fuel generalizing left right with
  | zero => simp [binarySearch] at h
  | succ fuel ih =>
    unfold binarySearch at h
    split at h
    · dsimp only at h
      split at h
      · simp at h
      · next k hk =>
          split at h
          · next heq => exact ⟨k, List.mem_of_getElem? hk, heq⟩
          · exact ih h
          · exact ih h
    · simp at h

/-! ## Searching -/

/-- Of two keys the earlier one is too small or the later one is too large. This is all that a
search for one needle needs to know about the order of the array. -/
def Separated (order : α → Ordering) (keys : List α) : Prop :=
  keys.Pairwise fun a b => order a = .gt ∨ order b = .lt

theorem Separated.getElem (h : Separated order keys) {i j : Nat} {a b : α} (hij : i < j)
    (ha : keys[i]? = some a) (hb : keys[j]? = some b) : order a = .gt ∨ order b = .lt := by
  obtain ⟨hi, rfl⟩ := List.getElem?_eq_some_iff.1 ha
  obtain ⟨hj, rfl⟩ := List.getElem?_eq_some_iff.1 hb
  exact List.pairwise_iff_getElem.1 h i j hi hj hij

theorem Separated.binarySearch_of_mem (h : Separated order keys) {i fuel left right : Nat} {k : α}
    (hk : keys[i]? = some k) (heq : order k = .eq) (hleft : left ≤ i) (hright : i < right)
    (hlength : right ≤ keys.length) (hfuel : right - left ≤ fuel) :
    binarySearch keys order fuel left right = true := by
  induction fuel generalizing left right with
  | zero => omega
  | succ fuel ih =>
    have hlt : left < right := by omega
    rw [binarySearch, if_pos hlt]
    dsimp only
    have hmidlt : left + (right - left) / 2 < keys.length := by omega
    obtain ⟨m, hmid⟩ : ∃ m, keys[left + (right - left) / 2]? = some m :=
      ⟨_, List.getElem?_eq_getElem hmidlt⟩
    rw [hmid]
    -- the middle is on the side of the key where the search goes on
    rcases Nat.lt_trichotomy i (left + (right - left) / 2) with hbelow | rfl | habove
    · have hm : order m = .lt := by simpa [heq] using h.getElem hbelow hk hmid
      simp only [hm]
      exact ih hleft hbelow (by omega) (by omega)
    · cases hmid.symm.trans hk
      simp only [heq]
    · have hm : order m = .gt := by simpa [heq] using h.getElem habove hmid hk
      simp only [hm]
      exact ih habove hright hlength (by omega)

/-- Binary search finds exactly what is in an array that the needle separates. -/
theorem Separated.binarySearch_iff (h : Separated order keys) :
    binarySearch keys order keys.length 0 keys.length = true ↔ ∃ k ∈ keys, order k = .eq := by
  constructor
  · exact exists_mem_of_binarySearch
  · rintro ⟨k, hk, heq⟩
    obtain ⟨i, hi⟩ := List.mem_iff_getElem?.1 hk
    obtain ⟨hlt, -⟩ := List.getElem?_eq_some_iff.1 hi
    exact h.binarySearch_of_mem hi heq (Nat.zero_le i) hlt (Nat.le_refl _) (Nat.le_refl _)

/-! ## Ascending arrays -/

section Ascending

variable {cmp : α → α → Ordering}

def Ascending (cmp : α → α → Ordering) (keys : List α) : Prop :=
  keys.Pairwise fun a b => cmp a b = .lt

def NonDescending (cmp : α → α → Ordering) (keys : List α) : Prop :=
  keys.Pairwise fun a b => (cmp a b).isLE = true

theorem uniqueFrom_concat (last : α) (l : List α) (a : α) :
    uniqueFrom cmp last (l ++ [a]) =
      if cmp a ((uniqueFrom cmp last l).getLastD last) = .eq then uniqueFrom cmp last l
      else uniqueFrom cmp last l ++ [a] := by
  induction l generalizing last with
  | nil => simp [uniqueFrom]
  | cons b l ih =>
    simp only [List.cons_append, uniqueFrom]
    split
    · exact ih last
    · rw [ih b, List.getLastD_cons]
      split <;> rfl

/-- Repetitions can be dropped while the array grows: a new element is kept unless it repeats the
last one kept. -/
theorem uniqueAdjacent_concat (l : List α) (a : α) :
    uniqueAdjacent cmp (l ++ [a]) =
      if (uniqueAdjacent cmp l).getLast?.any (fun last => cmp a last = .eq) then
        uniqueAdjacent cmp l
      else uniqueAdjacent cmp l ++ [a] := by
  cases l with
  | nil => simp [uniqueAdjacent, uniqueFrom]
  | cons b l =>
    simp only [List.cons_append, uniqueAdjacent, uniqueFrom_concat, List.getLast?_cons,
      List.getLastD_eq_getLast?, Option.any_some, decide_eq_true_eq]
    split <;> rfl

theorem uniqueAdjacent_prefix_append (l m : List α) :
    uniqueAdjacent cmp l <+: uniqueAdjacent cmp (l ++ m) := by
  induction m using List.reverseRecOn with
  | nil => simp
  | append_singleton m a ih =>
    rw [← List.append_assoc, uniqueAdjacent_concat]
    split
    · exact ih
    · exact ih.trans (List.prefix_append _ _)

variable [Std.TransCmp cmp]

theorem ascending_uniqueFrom {last : α} (h : NonDescending cmp (last :: l)) :
    Ascending cmp (last :: uniqueFrom cmp last l) := by
  induction l generalizing last with
  | nil => exact List.pairwise_singleton _ _
  | cons b l ih =>
    obtain ⟨hlast, hrest⟩ := List.pairwise_cons.1 h
    unfold uniqueFrom
    split
    -- a repetition of the last element kept
    · apply ih
      exact List.pairwise_cons.2 ⟨fun c hc => hlast c (List.mem_cons_of_mem b hc),
        (List.pairwise_cons.1 hrest).2⟩
    · rename_i hne
      have hlt : cmp last b = .lt := by
        rcases Ordering.isLE_iff_eq_lt_or_eq_eq.1 (hlast b List.mem_cons_self) with hlt | heq
        · exact hlt
        · exact absurd (Std.OrientedCmp.eq_symm heq) hne
      have hnext := ih hrest
      refine List.pairwise_cons.2 ⟨?_, hnext⟩
      intro c hc
      rcases List.mem_cons.1 hc with rfl | hc
      · exact hlt
      · exact Std.TransCmp.lt_trans hlt ((List.pairwise_cons.1 hnext).1 c hc)

theorem ascending_uniqueAdjacent (h : NonDescending cmp l) :
    Ascending cmp (uniqueAdjacent cmp l) := by
  cases l with
  | nil => exact List.Pairwise.nil
  | cons a l => exact ascending_uniqueFrom h

theorem exists_mem_uniqueFrom {last a : α} (ha : a ∈ last :: l) :
    ∃ k ∈ last :: uniqueFrom cmp last l, cmp a k = .eq := by
  induction l generalizing last with
  | nil =>
    cases List.mem_singleton.1 ha
    exact ⟨a, List.mem_cons_self, Std.ReflCmp.compare_self⟩
  | cons b l ih =>
    unfold uniqueFrom
    rcases List.mem_cons.1 ha with rfl | ha
    · exact ⟨a, List.mem_cons_self, Std.ReflCmp.compare_self⟩
    · split
      · rename_i heq
        rcases List.mem_cons.1 ha with rfl | ha
        · exact ⟨last, List.mem_cons_self, heq⟩
        · exact ih (List.mem_cons_of_mem last ha)
      · obtain ⟨k, hk, heq⟩ := ih ha
        exact ⟨k, List.mem_cons_of_mem last hk, heq⟩

theorem exists_mem_uniqueAdjacent {a : α} (ha : a ∈ l) :
    ∃ k ∈ uniqueAdjacent cmp l, cmp a k = .eq := by
  cases l with
  | nil => cases ha
  | cons b l => exact exists_mem_uniqueFrom ha

theorem repeats_last_iff {a : α} (h : NonDescending cmp (l ++ [a])) :
    (uniqueAdjacent cmp l).getLast?.any (fun last => cmp a last = .eq) = true ↔
      ∃ k ∈ l, cmp a k = .eq := by
  obtain ⟨hl, -, hle⟩ := List.pairwise_append.1 h
  cases hlast : (uniqueAdjacent cmp l).getLast? with
  | none =>
    -- nothing was kept, so there was nothing
    have hnil := List.getLast?_eq_none_iff.1 hlast
    cases l with
    | nil => simp
    | cons b l => simp [uniqueAdjacent] at hnil
  | some last =>
    have hmem := List.mem_of_getLast? hlast
    simp only [Option.any_some, decide_eq_true_eq]
    constructor
    · intro heq
      exact ⟨last, mem_of_mem_uniqueAdjacent hmem, heq⟩
    · rintro ⟨k, hk, heq⟩
      obtain ⟨kept, hkept, hk'⟩ : ∃ kept ∈ uniqueAdjacent cmp l, cmp k kept = .eq :=
        exists_mem_uniqueAdjacent hk
      have hakept : cmp a kept = .eq := Std.TransCmp.eq_trans heq hk'
      -- whatever is kept behind it would have to be below the new element as well
      obtain ⟨front, hfront⟩ := List.getLast?_eq_some_iff.1 hlast
      have hasc := ascending_uniqueAdjacent hl
      rw [hfront] at hasc hkept
      rcases List.mem_append.1 hkept with hin | hin
      · have hlt := (List.pairwise_append.1 hasc).2.2 kept hin last List.mem_cons_self
        have halt : cmp a last = .lt := Std.TransCmp.lt_of_eq_of_lt hakept hlt
        have hla := hle last (mem_of_mem_uniqueAdjacent hmem) a List.mem_cons_self
        rw [Std.OrientedCmp.gt_of_lt halt] at hla
        cases hla
      · rwa [← List.mem_singleton.1 hin]

/-- In an ascending array the needle tells the keys before it from those behind. -/
theorem Ascending.separated (h : Ascending cmp keys) (a : α) : Separated (cmp a) keys := by
  apply h.imp
  intro b c hlt
  cases hb : cmp a b with
  | gt => exact .inl rfl
  | eq => exact .inr (Std.TransCmp.lt_of_eq_of_lt hb hlt)
  | lt => exact .inr (Std.TransCmp.lt_trans hb hlt)

/-- **Binary search** finds exactly the keys of an ascending array. -/
theorem binarySearch_iff (h : Ascending cmp keys) {a : α} :
    binarySearch keys (cmp a) keys.length 0 keys.length = true ↔ ∃ k ∈ keys, cmp a k = .eq :=
  (h.separated a).binarySearch_iff

/-- What a search still finds after keys below the needle were written over the front of the array:
the keys behind them. -/
theorem binarySearch_overwritten_iff {written : List α} (h : Ascending cmp keys) {a : α}
    (hwritten : ∀ k ∈ written, cmp a k = .gt) :
    let array := (written ++ keys.drop written.length).take keys.length
    binarySearch array (cmp a) keys.length 0 keys.length = true ↔
      ∃ k ∈ keys.drop written.length, cmp a k = .eq := by
  intro array
  have hlength : array.length = keys.length := by
    simp only [array, List.length_take, List.length_append, List.length_drop]
    omega
  have hdrop : Separated (cmp a) (keys.drop written.length) :=
    (h.separated a).sublist (List.drop_sublist _ _)
  have hall : Separated (cmp a) (written ++ keys.drop written.length) := by
    apply List.pairwise_append.2
    refine ⟨?_, hdrop, fun k hk _ _ => .inl (hwritten k hk)⟩
    exact List.pairwise_of_forall_mem_list fun k hk _ _ => .inl (hwritten k hk)
  have harray : Separated (cmp a) array := hall.sublist (List.take_sublist keys.length _)
  have hsearch := harray.binarySearch_iff
  rw [hlength] at hsearch
  refine hsearch.trans ⟨?_, ?_⟩
  · rintro ⟨k, hk, heq⟩
    rcases List.mem_append.1 (List.mem_of_mem_take hk) with hk | hk
    · rw [hwritten k hk] at heq
      cases heq
    · exact ⟨k, hk, heq⟩
  · rintro ⟨k, hk, heq⟩
    refine ⟨k, ?_, heq⟩
    -- if anything is left behind the written keys, nothing is cut off
    have hshort : written.length < keys.length := by
      have hpos := List.length_pos_of_mem hk
      rw [List.length_drop] at hpos
      omega
    have hwhole : array = written ++ keys.drop written.length := by
      apply List.take_of_length_le
      simp only [List.length_append, List.length_drop]
      omega
    rw [hwhole]
    exact List.mem_append_right written hk

/-- Positions in an ascending array: a key stands behind the first `j` keys iff at least `j` keys
are below it. -/
theorem Ascending.mem_drop_iff (h : Ascending cmp keys) {a : α} (ha : a ∈ keys) (j : Nat) :
    a ∈ keys.drop j ↔ j ≤ keys.countP fun k => cmp k a = .lt := by
  induction keys generalizing j with
  | nil => cases ha
  | cons k keys ih =>
    obtain ⟨hhead, htail⟩ := List.pairwise_cons.1 h
    cases j with
    | zero => simpa using ha
    | succ j =>
      rw [List.drop_succ_cons, List.countP_cons]
      rcases List.mem_cons.1 ha with rfl | hmem
      -- nothing is below the first key, and it does not occur again
      · have hself : cmp a a = .eq := Std.ReflCmp.compare_self
        have hnone : keys.countP (fun k => cmp k a = .lt) = 0 := by
          apply List.countP_eq_zero.2
          intro b hb
          simp [Std.OrientedCmp.gt_of_lt (hhead b hb)]
        have hfirst : a ∉ keys.drop j := by
          intro hagain
          have hlt := hhead a (List.mem_of_mem_drop hagain)
          rw [hself] at hlt
          cases hlt
        simp [hnone, hfirst, hself]
      · rw [ih htail hmem j, hhead a hmem]
        simp

theorem Ascending.countP_below {front rest : List α} {a : α}
    (h : Ascending cmp (front ++ a :: rest)) :
    (front ++ a :: rest).countP (fun k => cmp k a = .lt) = front.length := by
  obtain ⟨-, hrest, hbelow⟩ := List.pairwise_append.1 h
  have hself : cmp a a = .eq := Std.ReflCmp.compare_self
  have hfront : front.countP (fun k => cmp k a = .lt) = front.length := by
    apply List.countP_eq_length.2
    intro k hk
    exact decide_eq_true (hbelow k hk a List.mem_cons_self)
  have habove : rest.countP (fun k => cmp k a = .lt) = 0 := by
    apply List.countP_eq_zero.2
    intro k hk
    simp [Std.OrientedCmp.gt_of_lt ((List.pairwise_cons.1 hrest).1 k hk)]
  simp [List.countP_append, hfront, habove, hself]

end Ascending

end FaultMesh
