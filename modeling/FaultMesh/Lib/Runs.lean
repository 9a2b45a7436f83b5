import Mathlib

/-!
# Counting runs of equal keys

The places `0, 1, ..., n - 1` of a sequence have keys, or none. One pass over them makes a run for
each key: the first place that has it, and the number of places that have it. A pass that counts in
this way does not note where a run ends.

If the places of a key lie together, up to places without a key, there is one run per key. The
interval that begins at the first place and is as long as the count then reaches the last place of
the key exactly if no place without a key lies in between.
-/

namespace FaultMesh

/-- A key, its first place and the number of its places. -/
structure Run (κ : Type*) where
  key : κ
  first : Nat
  count : Nat
  deriving DecidableEq, Repr

def Run.Covers {κ : Type*} (r : Run κ) (i : Nat) : Prop := r.first ≤ i ∧ i < r.first + r.count

variable {κ : Type*} [DecidableEq κ]

/-- Count the next place, the latest run being the head. -/
def pushRun (i : Nat) : Option κ → List (Run κ) → List (Run κ)
  | none, rs => rs
  | some a, [] => [⟨a, i, 1⟩]
  | some a, r :: rs =>
    if r.key = a then { r with count := r.count + 1 } :: rs else ⟨a, i, 1⟩ :: r :: rs

/-- The runs among the first `n` places, the latest first. -/
def runs (key : Nat → Option κ) : Nat → List (Run κ)
  | 0 => []
  | n + 1 => pushRun n (key n) (runs key n)

theorem pushRun_head (i : Nat) (r : Run κ) (rs : List (Run κ)) :
    pushRun i (some r.key) (r :: rs) = { r with count := r.count + 1 } :: rs :=
  if_pos rfl

theorem pushRun_of_ne {i : Nat} {a : κ} {rs : List (Run κ)} (h : ∀ r ∈ rs.head?, r.key ≠ a) :
    pushRun i (some a) rs = ⟨a, i, 1⟩ :: rs := by
  cases rs with
  | nil => rfl
  | cons r rs => exact if_neg (h r rfl)

/-- Between two places of a key there are only places of that key and places without a key. -/
def Clustered (key : Nat → Option κ) (n : Nat) : Prop :=
  ∀ i j k a, i < j → j < k → k < n → key i = some a → key k = some a → key j = none ∨ key j = some a

/-- There are no places without a key between two places of a key. -/
def Gapless (key : Nat → Option κ) (n : Nat) : Prop :=
  ∀ i j k a, i < j → j < k → k < n → key i = some a → key k = some a → key j = some a

/-- The run describes its key among the first `n` places. -/
structure RunOf (key : Nat → Option κ) (n : Nat) (r : Run κ) : Prop where
  first_key : key r.first = some r.key
  first_lt : r.first < n
  least : ∀ i < r.first, key i ≠ some r.key
  count_eq : r.count = Nat.count (fun i => key i = some r.key) n

/-- The runs describe all keys, each run begins behind the places of older ones. -/
structure RunsSpec (key : Nat → Option κ) (n : Nat) (rs : List (Run κ)) : Prop where
  runOf : ∀ r ∈ rs, RunOf key n r
  sep : rs.Pairwise fun r r' => ∀ i < n, key i = some r'.key → i < r.first
  complete : ∀ i < n, ∀ a, key i = some a → ∃ r ∈ rs, r.key = a

variable {key : Nat → Option κ} {n : Nat} {r r' : Run κ} {rs : List (Run κ)}

/-! ## One run -/

namespace RunOf

section

variable (h : RunOf key n r)
include h

/-- A place with another key does not change the run. -/
theorem succ_of_ne (hne : key n ≠ some r.key) : RunOf key (n + 1) r where
  first_key := h.first_key
  first_lt := Nat.lt_succ_of_lt h.first_lt
  least := h.least
  count_eq := by rw [Nat.count_succ, if_neg hne, Nat.add_zero, ← h.count_eq]

theorem succ_of_eq (heq : key n = some r.key) :
    RunOf key (n + 1) { r with count := r.count + 1 } where
  first_key := h.first_key
  first_lt := Nat.lt_succ_of_lt h.first_lt
  least := h.least
  count_eq := by
    show r.count + 1 = Nat.count (fun i => key i = some r.key) (n + 1)
    rw [Nat.count_succ, if_pos heq, ← h.count_eq]

theorem card_eq : ((Finset.range n).filter fun i => key i = some r.key).card = r.count := by
  rw [h.count_eq, Nat.count_eq_card_filter_range]

theorem first_le {i : Nat} (hi : key i = some r.key) : r.first ≤ i := by
  by_contra hlt
  exact h.least i (Nat.lt_of_not_le hlt) hi

theorem exists_ge_of_covers {i : Nat} (hi : r.Covers i) :
    ∃ j, i ≤ j ∧ j < n ∧ key j = some r.key := by
  by_contra hnone
  push Not at hnone
  have hsub : ((Finset.range n).filter fun j => key j = some r.key) ⊆ Finset.Ico r.first i := by
    intro j hj
    rw [Finset.mem_filter, Finset.mem_range] at hj
    rw [Finset.mem_Ico]
    refine ⟨h.first_le hj.2, Nat.lt_of_not_le fun hle => ?_⟩
    exact hnone j hle hj.1 hj.2
  have hcard := Finset.card_le_card hsub
  rw [h.card_eq, Nat.card_Ico] at hcard
  obtain ⟨hfirst, hlt⟩ := hi
  omega

theorem key_of_covers (hclu : Clustered key n) {i : Nat} (hi : r.Covers i) {a : κ}
    (ha : key i = some a) : a = r.key := by
  obtain ⟨j, hij, hj, hkey⟩ := h.exists_ge_of_covers hi
  rcases Nat.eq_or_lt_of_le hij with rfl | hij
  · exact Option.some.inj (ha.symm.trans hkey)
  · rcases Nat.eq_or_lt_of_le hi.1 with hfirst | hfirst
    · rw [← hfirst, h.first_key] at ha
      exact (Option.some.inj ha).symm
    · rcases hclu r.first i j r.key hfirst hij hj h.first_key hkey with hnone | hsome
      · rw [hnone] at ha
        cases ha
      · exact Option.some.inj (ha.symm.trans hsome)

theorem covers_all_iff :
    (∀ i < n, key i = some r.key → r.Covers i) ↔
      ∀ j k, r.first ≤ j → j ≤ k → k < n → key k = some r.key → key j = some r.key := by
  constructor
  · intro hall j k hj hjk hk hkey
    -- as many places as the interval has lie in it, so they are all of it
    have hsub : ((Finset.range n).filter fun i => key i = some r.key) ⊆
        Finset.Ico r.first (r.first + r.count) := by
      intro i hi
      rw [Finset.mem_filter, Finset.mem_range] at hi
      exact Finset.mem_Ico.2 (hall i hi.1 hi.2)
    have heq := Finset.eq_of_subset_of_card_le hsub
      (by rw [h.card_eq, Nat.card_Ico, Nat.add_sub_cancel_left])
    have hmem : j ∈ Finset.Ico r.first (r.first + r.count) := by
      rw [Finset.mem_Ico]
      exact ⟨hj, Nat.lt_of_le_of_lt hjk (hall k hk hkey).2⟩
    rw [← heq, Finset.mem_filter] at hmem
    exact hmem.2
  · intro hgap k hk hkey
    have hfirst := h.first_le hkey
    refine ⟨hfirst, ?_⟩
    have hsub : Finset.Ico r.first (k + 1) ⊆
        (Finset.range n).filter fun i => key i = some r.key := by
      intro j hj
      rw [Finset.mem_Ico] at hj
      rw [Finset.mem_filter, Finset.mem_range]
      exact ⟨by omega, hgap j k hj.1 (by omega) hk hkey⟩
    have hcard := Finset.card_le_card hsub
    rw [h.card_eq, Nat.card_Ico] at hcard
    omega

end

end RunOf

/-! ## All runs -/

namespace RunsSpec

theorem key_ne_head (h : RunsSpec key n (r :: rs)) (hmem : r' ∈ rs) : r'.key ≠ r.key := by
  intro heq
  have hr := h.runOf r List.mem_cons_self
  have hlt := (List.pairwise_cons.1 h.sep).1 r' hmem r.first hr.first_lt
  rw [heq] at hlt
  exact absurd (hlt hr.first_key) (Nat.lt_irrefl _)

theorem new_key (h : RunsSpec key n (r :: rs)) (hclu : Clustered key (n + 1)) {a : κ}
    (ha : key n = some a) (hne : r.key ≠ a) : ∀ i < n, key i ≠ some a := by
  intro i hi hkey
  obtain ⟨r', hmem, rfl⟩ := h.complete i hi a hkey
  rcases List.mem_cons.1 hmem with rfl | hmem
  · exact hne rfl
  -- the place lies before the head's first one, and the key comes again after it
  · have hr := h.runOf r List.mem_cons_self
    have hlt := (List.pairwise_cons.1 h.sep).1 r' hmem i hi hkey
    rcases hclu i r.first n r'.key hlt hr.first_lt (Nat.lt_succ_self n) hkey ha with hnone | hsome
    · rw [hr.first_key] at hnone
      cases hnone
    · rw [hr.first_key] at hsome
      exact hne (Option.some.inj hsome)

theorem push_none (h : RunsSpec key n rs) (hn : key n = none) : RunsSpec key (n + 1) rs where
  runOf := fun r hr => (h.runOf r hr).succ_of_ne (by rw [hn]; exact nofun)
  sep := h.sep.imp fun {r r'} hsep i hi hkey => by
    rcases Nat.lt_succ_iff_lt_or_eq.1 hi with hi | rfl
    · exact hsep i hi hkey
    · rw [hn] at hkey
      cases hkey
  complete := fun i hi a ha => by
    rcases Nat.lt_succ_iff_lt_or_eq.1 hi with hi | rfl
    · exact h.complete i hi a ha
    · rw [hn] at ha
      cases ha

theorem push_new (h : RunsSpec key n rs) {a : κ} (ha : key n = some a)
    (hnew : ∀ i < n, key i ≠ some a) : RunsSpec key (n + 1) (⟨a, n, 1⟩ :: rs) where
  runOf := by
    intro r hr
    rcases List.mem_cons.1 hr with rfl | hr
    · refine ⟨ha, Nat.lt_succ_self n, hnew, ?_⟩
      have hzero : Nat.count (fun i => key i = some a) n = 0 := by
        rw [Nat.count_eq_card_filter_range, Finset.card_eq_zero, Finset.filter_eq_empty_iff]
        exact fun i hi => hnew i (Finset.mem_range.1 hi)
      show 1 = Nat.count (fun i => key i = some a) (n + 1)
      rw [Nat.count_succ, hzero, if_pos ha]
    · apply (h.runOf r hr).succ_of_ne
      intro heq
      have hold := h.runOf r hr
      rw [ha] at heq
      exact hnew r.first hold.first_lt (hold.first_key.trans heq.symm)
  sep := by
    rw [List.pairwise_cons]
    constructor
    · intro r hr i hi hkey
      rcases Nat.lt_succ_iff_lt_or_eq.1 hi with hi | rfl
      · exact hi
      · have hold := h.runOf r hr
        rw [ha] at hkey
        exact absurd (hold.first_key.trans hkey.symm) (hnew r.first hold.first_lt)
    · refine h.sep.imp_of_mem fun {r r'} _ hr' hsep i hi hkey => ?_
      rcases Nat.lt_succ_iff_lt_or_eq.1 hi with hi | rfl
      · exact hsep i hi hkey
      · have hold := h.runOf r' hr'
        rw [ha] at hkey
        exact absurd (hold.first_key.trans hkey.symm) (hnew r'.first hold.first_lt)
  complete := by
    intro i hi b hb
    rcases Nat.lt_succ_iff_lt_or_eq.1 hi with hi | rfl
    · obtain ⟨r, hr, hrb⟩ := h.complete i hi b hb
      exact ⟨r, List.mem_cons_of_mem _ hr, hrb⟩
    · exact ⟨_, List.mem_cons_self, Option.some.inj (ha.symm.trans hb)⟩

theorem push_head (h : RunsSpec key n (r :: rs)) (ha : key n = some r.key) :
    RunsSpec key (n + 1) ({ r with count := r.count + 1 } :: rs) where
  runOf := by
    intro r' hr'
    rcases List.mem_cons.1 hr' with rfl | hr'
    · exact (h.runOf r List.mem_cons_self).succ_of_eq ha
    · apply (h.runOf r' (List.mem_cons_of_mem _ hr')).succ_of_ne
      intro heq
      rw [ha] at heq
      exact h.key_ne_head hr' (Option.some.inj heq).symm
  sep := by
    rw [List.pairwise_cons]
    constructor
    · intro r' hr' i hi hkey
      rcases Nat.lt_succ_iff_lt_or_eq.1 hi with hi | rfl
      · exact (List.pairwise_cons.1 h.sep).1 r' hr' i hi hkey
      · rw [ha] at hkey
        exact absurd (Option.some.inj hkey).symm (h.key_ne_head hr')
    · refine (List.pairwise_cons.1 h.sep).2.imp_of_mem fun {r₁ r₂} _ h₂ hsep i hi hkey => ?_
      rcases Nat.lt_succ_iff_lt_or_eq.1 hi with hi | rfl
      · exact hsep i hi hkey
      · rw [ha] at hkey
        exact absurd (Option.some.inj hkey).symm (h.key_ne_head h₂)
  complete := by
    intro i hi b hb
    rcases Nat.lt_succ_iff_lt_or_eq.1 hi with hi | rfl
    · obtain ⟨r', hr', hrb⟩ := h.complete i hi b hb
      rcases List.mem_cons.1 hr' with rfl | hr'
      · exact ⟨_, List.mem_cons_self, hrb⟩
      · exact ⟨r', List.mem_cons_of_mem _ hr', hrb⟩
    · exact ⟨_, List.mem_cons_self, Option.some.inj (ha.symm.trans hb)⟩

theorem push (h : RunsSpec key n rs) (hclu : Clustered key (n + 1)) :
    RunsSpec key (n + 1) (pushRun n (key n) rs) := by
  cases hkey : key n with
  | none => exact h.push_none hkey
  | some a =>
    cases rs with
    | nil =>
      apply h.push_new hkey
      intro i hi ha
      obtain ⟨r, hr, -⟩ := h.complete i hi a ha
      cases hr
    | cons r rs =>
      rw [pushRun]
      split
      next heq =>
        subst heq
        exact h.push_head hkey
      next hne => exact h.push_new hkey (h.new_key hclu hkey hne)

end RunsSpec

omit [DecidableEq κ] in
theorem Clustered.mono {m : Nat} (h : Clustered key n) (hm : m ≤ n) : Clustered key m :=
  fun i j k a hij hjk hk => h i j k a hij hjk (Nat.lt_of_lt_of_le hk hm)

theorem runs_spec (hclu : Clustered key n) : RunsSpec key n (runs key n) := by
  induction n with
  | zero => exact ⟨nofun, List.Pairwise.nil, fun i hi => absurd hi (Nat.not_lt_zero i)⟩
  | succ n ih => exact (ih (hclu.mono (Nat.le_succ n))).push hclu

namespace RunsSpec

theorem keys_nodup (h : RunsSpec key n rs) : (rs.map Run.key).Nodup := by
  rw [List.Nodup, List.pairwise_map]
  refine h.sep.imp_of_mem fun {r r'} hr _ hsep heq => ?_
  have hold := h.runOf r hr
  exact absurd (hsep r.first hold.first_lt (heq ▸ hold.first_key)) (Nat.lt_irrefl _)

theorem length_eq (h : RunsSpec key n rs) :
    rs.length = ((List.range n).filterMap key).dedup.length := by
  have hperm : (rs.map Run.key).Perm ((List.range n).filterMap key).dedup := by
    rw [List.perm_ext_iff_of_nodup h.keys_nodup (List.nodup_dedup _)]
    intro a
    rw [List.mem_map, List.mem_dedup, List.mem_filterMap]
    constructor
    · rintro ⟨r, hr, rfl⟩
      have hold := h.runOf r hr
      exact ⟨r.first, List.mem_range.2 hold.first_lt, hold.first_key⟩
    · rintro ⟨i, hi, ha⟩
      exact h.complete i (List.mem_range.1 hi) a ha
  rw [← hperm.length_eq, List.length_map]

/-- The interval of an older run ends before the next run begins. -/
theorem ascending (h : RunsSpec key n rs) :
    rs.Pairwise fun r r' => r'.first + r'.count ≤ r.first := by
  refine h.sep.imp_of_mem fun {r r'} _ hr' hsep => ?_
  have hold := h.runOf r' hr'
  by_contra hlt
  have hfirst := hsep r'.first hold.first_lt hold.first_key
  obtain ⟨j, hj, hjn, hkey⟩ := hold.exists_ge_of_covers (i := r.first) ⟨hfirst.le, by omega⟩
  exact absurd (hsep j hjn hkey) (by omega)

end RunsSpec

/-! ## Partition -/

/-- The intervals ascend, each place with a key lies in exactly one of them, and the places with a
key in an interval have its key. -/
structure Partition (key : Nat → Option κ) (n : Nat) (gs : List (Run κ)) : Prop where
  ascending : gs.Pairwise fun g h => g.first + g.count ≤ h.first
  exactlyOne : ∀ i < n, (key i).isSome → ∃ g ∈ gs, g.Covers i ∧ ∀ h ∈ gs, h.Covers i → h = g
  own : ∀ g ∈ gs, ∀ i a, g.Covers i → key i = some a → a = g.key

/-- The first `cap` runs, the oldest first. -/
def takeRuns (cap : Nat) (rs : List (Run κ)) : List (Run κ) := rs.reverse.take cap

omit [DecidableEq κ] in
theorem mem_takeRuns {cap : Nat} (h : r ∈ takeRuns cap rs) : r ∈ rs :=
  List.mem_reverse.1 (List.mem_of_mem_take h)

omit [DecidableEq κ] in
theorem takeRuns_cons (cap : Nat) (r : Run κ) (rs : List (Run κ)) : takeRuns cap (r :: rs) =
    if (takeRuns cap rs).length < cap then takeRuns cap rs ++ [r] else takeRuns cap rs := by
  simp only [takeRuns, List.reverse_cons, List.length_take, List.length_reverse]
  split
  next h =>
    have hle : rs.length + 1 ≤ cap := by omega
    rw [List.take_of_length_le (by simpa using hle),
      List.take_of_length_le (by rw [List.length_reverse]; omega)]
  next h =>
    rw [List.take_append_of_le_length (by rw [List.length_reverse]; omega)]

theorem covers_unique {gs : List (Run κ)}
    (hasc : gs.Pairwise fun g h => g.first + g.count ≤ h.first) {g h : Run κ} (hg : g ∈ gs)
    (hh : h ∈ gs) {i : Nat} (hgi : g.Covers i) (hhi : h.Covers i) : h = g := by
  by_contra hne
  have hget := List.pairwise_iff_get.1 hasc
  obtain ⟨p, rfl⟩ := List.mem_iff_get.1 hg
  obtain ⟨q, rfl⟩ := List.mem_iff_get.1 hh
  obtain ⟨hg₁, hg₂⟩ := hgi
  obtain ⟨hh₁, hh₂⟩ := hhi
  rcases Nat.lt_trichotomy p.val q.val with hlt | heq | hgt
  · have := hget p q hlt
    omega
  · exact hne (by rw [Fin.ext heq])
  · have := hget q p hgt
    omega

/-- The first `cap` runs are a partition as soon as every place with a key is covered. -/
theorem RunsSpec.takeRuns_partition {cap : Nat} (h : RunsSpec key n rs) (hclu : Clustered key n)
    (hcov : ∀ i < n, (key i).isSome → ∃ g ∈ takeRuns cap rs, g.Covers i) :
    Partition key n (takeRuns cap rs) := by
  have hasc : (takeRuns cap rs).Pairwise fun g h => g.first + g.count ≤ h.first :=
    (List.pairwise_reverse.2 h.ascending).sublist (List.take_sublist _ _)
  refine ⟨hasc, ?_, fun g hg i a hgi ha => (h.runOf g (mem_takeRuns hg)).key_of_covers hclu hgi ha⟩
  intro i hi hsome
  obtain ⟨g, hg, hgi⟩ := hcov i hi hsome
  exact ⟨g, hg, hgi, fun g' hg' hgi' => covers_unique hasc hg hg' hgi hgi'⟩

/-- The first `cap` runs are a partition exactly if no key has a gap and there are no more runs. -/
theorem takeRuns_partition_iff {cap : Nat} (h : RunsSpec key n rs) (hclu : Clustered key n) :
    Partition key n (takeRuns cap rs) ↔ Gapless key n ∧ rs.length ≤ cap := by
  constructor
  · intro hpart
    -- the run of a place that is covered has the key of the place
    have hcov : ∀ i < n, ∀ a, key i = some a → ∃ g ∈ takeRuns cap rs, g.Covers i ∧ g.key = a := by
      intro i hi a ha
      obtain ⟨g, hg, hgi, -⟩ := hpart.exactlyOne i hi (by rw [ha]; rfl)
      exact ⟨g, hg, hgi, (hpart.own g hg i a hgi ha).symm⟩
    have hkey : ∀ r ∈ rs, ∀ g ∈ takeRuns cap rs, g.key = r.key → g = r := by
      intro r hr g hg heq
      exact List.inj_on_of_nodup_map h.keys_nodup (mem_takeRuns hg) hr heq
    constructor
    · intro i j k a hij hjk hk hi hka
      obtain ⟨g, hg, hgi, rfl⟩ := hcov i (by omega) a hi
      have hrun := h.runOf g (mem_takeRuns hg)
      refine hrun.covers_all_iff.1 ?_ j k (hgi.1.trans hij.le) hjk.le hk hka
      intro m hm hmk
      obtain ⟨g', hg', hg'm, heq⟩ := hcov m hm g.key hmk
      rwa [hkey g (mem_takeRuns hg) g' hg' heq] at hg'm
    -- the first place of every run is covered, so that the run is among those taken
    · have hsub : rs ⊆ takeRuns cap rs := by
        intro r hr
        have hrun := h.runOf r hr
        obtain ⟨g, hg, -, heq⟩ := hcov r.first hrun.first_lt r.key hrun.first_key
        rwa [← hkey r hr g hg heq]
      have hnodup : rs.Nodup := h.keys_nodup.of_map
      have hlen := (hnodup.subperm hsub).length_le
      exact hlen.trans (List.length_take_le _ _)
  · rintro ⟨hgap, hlen⟩
    have htake : takeRuns cap rs = rs.reverse :=
      List.take_of_length_le (by rwa [List.length_reverse])
    apply h.takeRuns_partition hclu
    intro i hi hsome
    obtain ⟨a, ha⟩ := Option.isSome_iff_exists.1 hsome
    obtain ⟨r, hr, rfl⟩ := h.complete i hi a ha
    have hrun := h.runOf r hr
    have hmem : r ∈ takeRuns cap rs := by
      rw [htake]
      exact List.mem_reverse.2 hr
    refine ⟨r, hmem, hrun.covers_all_iff.2 ?_ i hi ha⟩
    intro j k hj hjk hk hkk
    rcases Nat.eq_or_lt_of_le hj with rfl | hj
    · exact hrun.first_key
    · rcases Nat.eq_or_lt_of_le hjk with rfl | hjk
      · exact hkk
      · exact hgap r.first j k r.key hj hjk hk hrun.first_key hkk

/-! ## One interval -/

/-- The number of places from `i` on, at most `fuel`, up to the first that fails the test. -/
def countWhile (p : Nat → Bool) : Nat → Nat → Nat
  | 0, _ => 0
  | fuel + 1, i => if p i then countWhile p fuel (i + 1) + 1 else 0

variable {p : Nat → Bool} {fuel i : Nat}

theorem countWhile_le : countWhile p fuel i ≤ fuel := by
  induction fuel generalizing i with
  | zero => exact le_rfl
  | succ fuel ih =>
    rw [countWhile]
    split
    · exact Nat.succ_le_succ ih
    · exact Nat.zero_le _

theorem countWhile_pos (hfuel : 0 < fuel) (hp : p i) : 0 < countWhile p fuel i := by
  cases fuel with
  | zero => exact absurd hfuel (Nat.lt_irrefl 0)
  | succ fuel =>
    rw [countWhile, if_pos hp]
    exact Nat.succ_pos _

theorem of_lt_countWhile {j : Nat} (h : j < countWhile p fuel i) : p (i + j) := by
  induction fuel generalizing i j with
  | zero => exact absurd h (Nat.not_lt_zero j)
  | succ fuel ih =>
    rw [countWhile] at h
    split at h
    next hp =>
      cases j with
      | zero => exact hp
      | succ j =>
        have hnext := ih (Nat.lt_of_succ_lt_succ h)
        rwa [Nat.add_assoc, Nat.add_comm 1 j] at hnext
    next => exact absurd h (Nat.not_lt_zero j)

theorem countWhile_end (h : countWhile p fuel i < fuel) : p (i + countWhile p fuel i) = false := by
  induction fuel generalizing i with
  | zero => exact absurd h (Nat.not_lt_zero _)
  | succ fuel ih =>
    rw [countWhile] at h ⊢
    split
    next hp =>
      rw [if_pos hp] at h
      have hnext := ih (Nat.lt_of_succ_lt_succ h)
      rwa [Nat.add_assoc, Nat.add_comm 1 _] at hnext
    next hp => simpa using hp

end FaultMesh
