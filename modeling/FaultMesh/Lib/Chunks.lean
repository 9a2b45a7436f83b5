import FaultMesh.Lib.Lanes

/-!
# Cutting a list into chunks

Two ways to cut a list of weighted elements into consecutive chunks while walking over it. The
capped way closes a chunk when its weight reaches a threshold, until only one more chunk is
allowed; that one takes the rest. The balanced way closes a chunk only if the rest can fill another
one. A list of chunks can be written down by the spans of its chunks or by the label of every
element.
-/

namespace FaultMesh

section Chunks

variable {α : Type*} (weight : α → Nat) (threshold : Nat)

def chunkWeight (chunk : List α) : Nat := (chunk.map weight).sum

@[simp] theorem chunkWeight_nil : chunkWeight weight ([] : List α) = 0 := rfl

@[simp] theorem chunkWeight_append (xs ys : List α) :
    chunkWeight weight (xs ++ ys) = chunkWeight weight xs + chunkWeight weight ys := by
  simp [chunkWeight]

@[simp] theorem chunkWeight_cons (a : α) (xs : List α) :
    chunkWeight weight (a :: xs) = weight a + chunkWeight weight xs := by
  simp [chunkWeight]

/-! ## At most so many chunks -/

/-- Cut the list, with `cur` already in the current chunk and `used` chunks before it. -/
def cappedChunks (cap : Nat) : List α → List α → Nat → List (List α)
  | [], _, _ => []
  | a :: rest, cur, used =>
    if threshold ≤ chunkWeight weight (cur ++ [a]) ∨ rest = [] then
      if cap ≤ used + 1 ∧ rest ≠ [] then [cur ++ a :: rest]
      else (cur ++ [a]) :: cappedChunks cap rest [] (used + 1)
    else cappedChunks cap rest (cur ++ [a]) used

variable {weight threshold}

theorem flatten_cappedChunks {cap : Nat} {xs : List α} (hxs : xs ≠ []) (cur : List α) (used : Nat) :
    (cappedChunks weight threshold cap xs cur used).flatten = cur ++ xs := by
  induction xs generalizing cur used with
  | nil => exact absurd rfl hxs
  | cons a rest ih =>
    rw [cappedChunks]
    split
    · split
      · simp
      · rw [List.flatten_cons]
        by_cases hrest : rest = []
        · simp [hrest, cappedChunks]
        · rw [ih hrest]
          simp
    · rename_i hgo
      rw [ih (fun hrest => hgo (.inr hrest))]
      simp

theorem ne_nil_of_mem_cappedChunks {cap : Nat} {xs cur : List α} {used : Nat} {chunk : List α}
    (h : chunk ∈ cappedChunks weight threshold cap xs cur used) : chunk ≠ [] := by
  induction xs generalizing cur used with
  | nil => exact absurd h List.not_mem_nil
  | cons a rest ih =>
    rw [cappedChunks] at h
    split at h
    · split at h
      · rw [List.mem_singleton.1 h]
        simp
      · rcases List.mem_cons.1 h with rfl | h
        · simp
        · exact ih h
    · exact ih h

theorem le_weight_of_mem_dropLast_cappedChunks {cap : Nat} {xs cur : List α} {used : Nat}
    {chunk : List α} (h : chunk ∈ (cappedChunks weight threshold cap xs cur used).dropLast) :
    threshold ≤ chunkWeight weight chunk := by
  induction xs generalizing cur used with
  | nil => exact absurd h List.not_mem_nil
  | cons a rest ih =>
    rw [cappedChunks] at h
    split at h
    · rename_i hclose
      split at h
      · exact absurd h List.not_mem_nil
      · by_cases hnext : cappedChunks weight threshold cap rest [] (used + 1) = []
        · rw [hnext] at h
          exact absurd h List.not_mem_nil
        · rw [List.dropLast_cons_of_ne_nil hnext] at h
          rcases List.mem_cons.1 h with rfl | h
          -- a chunk that is closed at the end of the list is the last one
          · rcases hclose with hle | rfl
            · exact hle
            · exact absurd rfl hnext
          · exact ih h
    · exact ih h

theorem length_cappedChunks_le {cap : Nat} {xs cur : List α} {used : Nat} (hused : used < cap) :
    used + (cappedChunks weight threshold cap xs cur used).length ≤ cap := by
  induction xs generalizing cur used with
  | nil => exact Nat.le_of_lt hused
  | cons a rest ih =>
    rw [cappedChunks]
    split
    · split
      · exact hused
      · rename_i hmore
        rw [List.length_cons]
        by_cases hrest : rest = []
        · rw [hrest]
          exact hused
        · have hlt : used + 1 < cap := by
            apply Nat.lt_of_not_le
            exact fun hle => hmore ⟨hle, hrest⟩
          have hle := @ih [] (used + 1) hlt
          omega
    · exact ih hused

/-! ## Only chunks that are full -/

variable (weight threshold)

/-- Cut the list, with `cur` already in the current chunk. -/
def balancedChunks : List α → List α → List (List α)
  | [], _ => []
  | a :: rest, cur =>
    if rest ≠ [] ∧ (chunkWeight weight (cur ++ [a]) < threshold ∨
        chunkWeight weight rest < threshold) then
      balancedChunks rest (cur ++ [a])
    else (cur ++ [a]) :: balancedChunks rest []

variable {weight threshold}

theorem flatten_balancedChunks {xs : List α} (hxs : xs ≠ []) (cur : List α) :
    (balancedChunks weight threshold xs cur).flatten = cur ++ xs := by
  induction xs generalizing cur with
  | nil => exact absurd rfl hxs
  | cons a rest ih =>
    rw [balancedChunks]
    split
    · rename_i hgo
      rw [ih hgo.1]
      simp
    · rw [List.flatten_cons]
      by_cases hrest : rest = []
      · simp [hrest, balancedChunks]
      · rw [ih hrest]
        simp

theorem ne_nil_of_mem_balancedChunks {xs cur chunk : List α}
    (h : chunk ∈ balancedChunks weight threshold xs cur) : chunk ≠ [] := by
  induction xs generalizing cur with
  | nil => exact absurd h List.not_mem_nil
  | cons a rest ih =>
    rw [balancedChunks] at h
    split at h
    · exact ih h
    · rcases List.mem_cons.1 h with rfl | h
      · simp
      · exact ih h

/-- If what is left can fill a chunk, all chunks are full; otherwise there is one chunk. -/
theorem balancedChunks_spec {xs : List α} (hxs : xs ≠ []) (cur : List α) :
    if threshold ≤ chunkWeight weight (cur ++ xs) then
      ∀ chunk ∈ balancedChunks weight threshold xs cur, threshold ≤ chunkWeight weight chunk
    else balancedChunks weight threshold xs cur = [cur ++ xs] := by
  induction xs generalizing cur with
  | nil => exact absurd rfl hxs
  | cons a rest ih =>
    have hsplit : cur ++ a :: rest = cur ++ [a] ++ rest := by simp
    rw [balancedChunks, hsplit]
    split
    · rename_i hfull
      split
      · rename_i hgo
        have hrec := ih hgo.1 (cur ++ [a])
        rwa [if_pos hfull] at hrec
      · rename_i hclose
        intro chunk hchunk
        by_cases hrest : rest = []
        · subst hrest
          rw [balancedChunks, List.mem_singleton] at hchunk
          rw [hchunk]
          simpa using hfull
        -- both this chunk and the rest reach the threshold
        · simp only [hrest, ne_eq, not_false_eq_true, true_and, not_or, Nat.not_lt] at hclose
          have hrec := ih hrest []
          rw [List.nil_append, if_pos hclose.2] at hrec
          rcases List.mem_cons.1 hchunk with rfl | hchunk
          · exact hclose.1
          · exact hrec chunk hchunk
    · rename_i hfew
      by_cases hrest : rest = []
      · simp [hrest, balancedChunks]
      -- too little for a chunk: everything goes into the current one
      · have hlt : chunkWeight weight (cur ++ [a]) < threshold := by
          rw [chunkWeight_append _ (cur ++ [a]) rest] at hfew
          omega
        rw [if_pos ⟨hrest, .inl hlt⟩]
        have hrec := ih hrest (cur ++ [a])
        rwa [if_neg hfew] at hrec

end Chunks

/-! ## Spans -/

/-- Where the chunks lie: start and length. -/
def spans {α : Type*} : Nat → List (List α) → List (Nat × Nat)
  | _, [] => []
  | start, chunk :: chunks => (start, chunk.length) :: spans (start + chunk.length) chunks

section Spans

variable {α : Type*}

@[simp] theorem length_spans (start : Nat) (chunks : List (List α)) :
    (spans start chunks).length = chunks.length := by
  induction chunks generalizing start with
  | nil => rfl
  | cons chunk chunks ih => simp [spans, ih]

theorem tiles_spans (start : Nat) (chunks : List (List α)) :
    Tiles start (spans start chunks) (start + chunks.flatten.length) := by
  induction chunks generalizing start with
  | nil => rfl
  | cons chunk chunks ih =>
    refine ⟨rfl, ?_⟩
    have hrest := ih (start + chunk.length)
    rwa [Nat.add_assoc, ← List.length_append, ← List.flatten_cons] at hrest

theorem map_spans {β : Type*} (f : List α → β) (front : List α) (chunks : List (List α)) :
    (spans front.length chunks).map
      (fun span => f (((front ++ chunks.flatten).drop span.1).take span.2)) = chunks.map f := by
  induction chunks generalizing front with
  | nil => rfl
  | cons chunk chunks ih =>
    have hrest := ih (front ++ chunk)
    rw [List.length_append, List.append_assoc] at hrest
    rw [spans, List.map_cons, List.map_cons, List.flatten_cons, hrest]
    simp

theorem pos_of_mem_spans {start : Nat} {chunks : List (List α)} (hne : ∀ chunk ∈ chunks, chunk ≠ [])
    {span : Nat × Nat} (h : span ∈ spans start chunks) : 0 < span.2 := by
  induction chunks generalizing start with
  | nil => exact absurd h List.not_mem_nil
  | cons chunk chunks ih =>
    rcases List.mem_cons.1 h with rfl | h
    · exact List.length_pos_iff.2 (hne chunk List.mem_cons_self)
    · exact ih (fun c hc => hne c (List.mem_cons_of_mem chunk hc)) h

end Spans

/-! ## Labels -/

/-- The number of its chunk for every element, the first chunk having number `k`. -/
def labels {α : Type*} : Nat → List (List α) → List Nat
  | _, [] => []
  | k, chunk :: chunks => List.replicate chunk.length k ++ labels (k + 1) chunks

section Labels

variable {α : Type*}

@[simp] theorem length_labels (k : Nat) (chunks : List (List α)) :
    (labels k chunks).length = chunks.flatten.length := by
  induction chunks generalizing k with
  | nil => rfl
  | cons chunk chunks ih => simp [labels, ih]

section

variable {chunks : List (List α)} (hne : ∀ chunk ∈ chunks, chunk ≠ [])
include hne

/-- The labels that are used, if no chunk is empty. -/
theorem mem_labels {k s : Nat} : s ∈ labels k chunks ↔ k ≤ s ∧ s < k + chunks.length := by
  induction chunks generalizing k with
  | nil => simp [labels]
  | cons chunk chunks ih =>
    have hchunk := hne chunk List.mem_cons_self
    rw [labels, List.mem_append, ih fun c hc => hne c (List.mem_cons_of_mem chunk hc)]
    simp only [List.mem_replicate, ne_eq, List.length_eq_zero_iff, hchunk, not_false_eq_true,
      true_and, List.length_cons]
    omega

theorem head?_labels {k : Nat} (hchunks : chunks ≠ []) : (labels k chunks).head? = some k := by
  cases chunks with
  | nil => exact absurd rfl hchunks
  | cons chunk chunks =>
    have hchunk := hne chunk List.mem_cons_self
    rw [labels, List.head?_append, List.head?_replicate]
    simp [hchunk]

theorem isChain_labels {k : Nat} : (labels k chunks).IsChain fun a b => b = a ∨ b = a + 1 := by
  induction chunks generalizing k with
  | nil => exact List.IsChain.nil
  | cons chunk chunks ih =>
    have hrest := ih (k := k + 1) fun c hc => hne c (List.mem_cons_of_mem chunk hc)
    apply List.IsChain.append
    · exact List.isChain_replicate_of_rel _ (.inl rfl)
    · exact hrest
    · intro a ha b hb
      rw [List.eq_of_mem_replicate (List.mem_of_getLast? ha)]
      cases chunks with
      | nil => exact absurd hb (by simp [labels])
      | cons next chunks =>
        rw [head?_labels (fun c hc => hne c (List.mem_cons_of_mem chunk hc))
          (List.cons_ne_nil next chunks)] at hb
        exact .inr (Option.some.inj hb).symm

end

/-- The elements with a label are those of its chunk. -/
theorem zip_labels_filter {k j : Nat} {chunks : List (List α)} {chunk : List α}
    (h : chunks[j]? = some chunk) :
    (((chunks.flatten.zip (labels k chunks)).filter fun b => b.2 = k + j).map Prod.fst) = chunk := by
  -- the elements of one chunk all have its number
  have hhere : ∀ (c : List α) (n : Nat), c.zip (List.replicate c.length n) = c.map fun a => (a, n) := by
    intro c n
    induction c with
    | nil => rfl
    | cons a c ih => simp [List.replicate_succ, ih]
  have hlater : ∀ (cs : List (List α)) (n m : Nat), n < m →
      ((cs.flatten.zip (labels m cs)).filter fun b => b.2 = n) = [] := by
    intro cs n m hlt
    rw [List.filter_eq_nil_iff]
    intro b hb
    have hmem := (List.of_mem_zip hb).2
    have hge : ∀ (cs : List (List α)) (m : Nat), b.2 ∈ labels m cs → m ≤ b.2 := by
      intro cs
      induction cs with
      | nil => exact fun m hm => absurd hm List.not_mem_nil
      | cons c cs ih =>
        intro m hm
        rcases List.mem_append.1 hm with hm | hm
        · exact Nat.le_of_eq (List.eq_of_mem_replicate hm).symm
        · exact Nat.le_trans (Nat.le_succ m) (ih (m + 1) hm)
    have hle := hge cs m hmem
    simp only [decide_eq_true_eq]
    omega
  induction chunks generalizing k j with
  | nil => simp at h
  | cons c chunks ih =>
    rw [List.flatten_cons, labels, List.zip_append (by simp), hhere, List.filter_append,
      List.map_append]
    cases j with
    | zero =>
      obtain rfl := Option.some.inj h
      have hall : ((c.map fun a => (a, k)).filter fun b => b.2 = k) = c.map fun a => (a, k) := by
        rw [List.filter_eq_self]
        simp
      rw [Nat.add_zero, hlater chunks k (k + 1) (Nat.lt_succ_self k), hall]
      simp [Function.comp_def]
    | succ j =>
      have hnone : ((c.map fun a => (a, k)).filter fun b => b.2 = k + (j + 1)) = [] := by
        rw [List.filter_eq_nil_iff]
        simp
      have hrest := ih (k := k + 1) (j := j) h
      rw [hnone, List.map_nil, List.nil_append, ← Nat.add_assoc, Nat.add_right_comm]
      exact hrest

end Labels

end FaultMesh
