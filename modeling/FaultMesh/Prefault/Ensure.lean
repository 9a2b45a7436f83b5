import FaultMesh.Prefault.Protocol

/-!
# What `ensure` guarantees

A view relies on its hints, on the counter of a block and on the flag of the array instead of the
status of the page. Each of them is backed by the table: statuses only move on, so what was ready
when the hint was taken is ready now.
-/

namespace FaultMesh

open Function PrefaultState

/-! ## Threads and views -/

/-- How the status of a page may change in one step. -/
inductive StatusMoves : PageStatus → PageStatus → Prop
  | stay (st : PageStatus) : StatusMoves st st
  | win : StatusMoves .unknown .pending
  | publish : StatusMoves .pending .ready

theorem StatusMoves.ready {st st' : PageStatus} (h : StatusMoves st st') (hst : st = .ready) :
    st' = .ready := by
  cases h with
  | stay => exact hst
  | win => cases hst
  | publish => rfl

theorem StatusMoves.known {st st' : PageStatus} (h : StatusMoves st st') (hst : st ≠ .unknown) :
    st' ≠ .unknown := by
  cases h with
  | stay => exact hst
  | win => exact nofun
  | publish => exact nofun

structure ViewOk (cfg : PrefaultConfig) (s : PrefaultState) (v : PrefaultView) : Prop where
  lastPage : ∀ page < cfg.array.nPages, page = v.lastPage → s.status page = .ready
  lastBlk : ∀ page < cfg.array.nPages, page / pfBlkPages = v.lastBlk → s.status page = .ready
  unchecked : v.checks = false → ∀ page < cfg.array.nPages, s.status page = .ready

/-- The elected lane of a waiting thread has its attempt before it. -/
def LeaderAhead (s : PrefaultState) (t : GpuThread) (page : Nat) : Prop :=
  (s.threads t).leader.warp = t.warp ∧ (s.threads (s.threads t).leader).pc = .cas ∧
    (s.threads (s.threads t).leader).page = page

structure ThreadOk (cfg : PrefaultConfig) (s : PrefaultState) (t : GpuThread) : Prop where
  page_lt : (s.threads t).pc ≠ .idle → (s.threads t).page < cfg.array.nPages
  elem : (s.threads t).pc ≠ .idle → ∀ i, (s.threads t).elem = some i →
    i < cfg.array.nElems ∧ (s.threads t).page = cfg.array.pageOf i
  returned : (s.threads t).pc = .returned → s.status (s.threads t).page = .ready
  waits : (s.threads t).pc = .wait →
    s.status (s.threads t).page ≠ .unknown ∨ LeaderAhead s t (s.threads t).page

structure PrefaultInv (cfg : PrefaultConfig) (s : PrefaultState) : Prop where
  table : TableInv cfg s
  threads : ∀ t, ThreadOk cfg s t
  views : ∀ t view v, s.views t view = some v → ViewOk cfg s v

variable {s' : PrefaultState} {v : PrefaultView}

theorem ViewOk.mono {cfg : PrefaultConfig} {s : PrefaultState} (h : ViewOk cfg s v)
    (hmoves : ∀ page, StatusMoves (s.status page) (s'.status page)) : ViewOk cfg s' v where
  lastPage page hp heq := (hmoves page).ready (h.lastPage page hp heq)
  lastBlk page hp heq := (hmoves page).ready (h.lastBlk page hp heq)
  unchecked hc page hp := (hmoves page).ready (h.unchecked hc page hp)

/-- **Step rule**: statuses only move on, an elected lane only leaves its attempt by making it, and
what is new is in order. -/
theorem PrefaultInv.advance {cfg : PrefaultConfig} {s : PrefaultState} (h : PrefaultInv cfg s)
    (htable : TableInv cfg s') (hmoves : ∀ page, StatusMoves (s.status page) (s'.status page))
    (hcas : ∀ t, (s.threads t).pc = .cas →
      s'.threads t = s.threads t ∨ s'.status (s.threads t).page ≠ .unknown)
    (hthreads : ∀ t, s'.threads t = s.threads t ∨ ThreadOk cfg s' t)
    (hviews : ∀ t view v, s'.views t view = some v → s.views t view = some v ∨ ViewOk cfg s' v) :
    PrefaultInv cfg s' := by
  refine ⟨htable, fun t => ?_, fun t view v hv => ?_⟩
  · rcases hthreads t with heq | hok
    · have hold := h.threads t
      refine ⟨?_, ?_, ?_, ?_⟩
      · rw [heq]
        exact hold.page_lt
      · rw [heq]
        exact hold.elem
      · rw [heq]
        exact fun hpc => (hmoves _).ready (hold.returned hpc)
      · intro hpc
        rw [heq] at hpc ⊢
        rcases hold.waits hpc with hknown | ⟨hwarp, hlead, hpage⟩
        · exact .inl ((hmoves _).known hknown)
        -- the elected lane is where it was, or has made its attempt
        · rcases hcas _ hlead with hsame | hknown
          · right
            unfold LeaderAhead
            rw [heq, hsame]
            exact ⟨hwarp, hlead, hpage⟩
          · rw [hpage] at hknown
            exact .inl hknown
    · exact hok
  · rcases hviews t view v hv with hold | hok
    · exact (h.views t view v hold).mono hmoves
    · exact hok

namespace PrefaultInv

variable {cfg : PrefaultConfig} {s : PrefaultState} {t : GpuThread}

/-! ## Steps of one thread -/

theorem advanceThread (h : PrefaultInv cfg s) (htable : TableInv cfg s')
    (hmoves : ∀ page, StatusMoves (s.status page) (s'.status page)) (hviews : s'.views = s.views)
    (hother : ∀ t' ≠ t, s'.threads t' = s.threads t')
    (hcas : (s.threads t).pc = .cas → s'.status (s.threads t).page ≠ .unknown)
    (hok : ThreadOk cfg s' t) : PrefaultInv cfg s' := by
  refine h.advance htable hmoves (fun t' hpc => ?_) (fun t' => ?_) fun _ _ _ hv => .inl (hviews ▸ hv)
  · by_cases ht : t' = t
    · subst ht
      exact .inr (hcas hpc)
    · exact .inl (hother t' ht)
  · by_cases ht : t' = t
    · subst ht
      exact .inr hok
    · exact .inl (hother t' ht)

theorem setThread (h : PrefaultInv cfg s) {th : EnsureThread}
    (hno : ∀ d, (s.threads t).pc ≠ .duty d)
    (hcas : (s.threads t).pc = .cas → s.status (s.threads t).page ≠ .unknown)
    (hno' : ∀ d, th.pc ≠ .duty d) (hset : th.pc ≠ .setResident)
    (hok : ThreadOk cfg (s.setThread t th) t) : PrefaultInv cfg (s.setThread t th) :=
  h.advanceThread (h.table.setThread hno hno' hset) (fun _ => .stay _) rfl
    (fun _ ht => update_of_ne ht _ _) hcas hok

theorem setView (h : PrefaultInv cfg s) {view : Nat} (hv : ViewOk cfg s v) :
    PrefaultInv cfg (s.setView t view v) := by
  apply h.advance (h.table.setView view v) fun page => .stay _
  · exact fun _ _ => .inl rfl
  · exact fun _ => .inl rfl
  · intro t' view' v' hv'
    by_cases hsame : t' = t ∧ view' = view
    · obtain ⟨rfl, rfl⟩ := hsame
      simp only [PrefaultState.setView, update_self, Option.some.injEq] at hv'
      exact .inr (hv' ▸ hv.mono fun _ => .stay _)
    · refine .inl ?_
      rw [← hv']
      by_cases ht : t' = t
      · subst ht
        have hne : view' ≠ view := fun hview => hsame ⟨rfl, hview⟩
        simp [PrefaultState.setView, hne]
      · simp [PrefaultState.setView, ht]

end PrefaultInv

theorem PrefaultState.goTo_self (s : PrefaultState) (t : GpuThread) (pc : EnsurePc) :
    (s.goTo t pc).threads t = { s.threads t with pc := pc } := update_self ..

theorem ThreadOk.goTo {cfg : PrefaultConfig} {s : PrefaultState} {t : GpuThread}
    (h : ThreadOk cfg s t) (hidle : (s.threads t).pc ≠ .idle) (pc : EnsurePc)
    (hready : pc = .returned → s.status (s.threads t).page = .ready)
    (hwait : pc = .wait → s.status (s.threads t).page ≠ .unknown) :
    ThreadOk cfg (s.goTo t pc) t := by
  refine ⟨?_, ?_, ?_, ?_⟩
  · rw [s.goTo_self]
    exact fun _ => h.page_lt hidle
  · rw [s.goTo_self]
    exact fun _ => h.elem hidle
  · rw [s.goTo_self]
    exact hready
  · rw [s.goTo_self]
    exact fun hpc => .inl (hwait hpc)

namespace PrefaultInv

variable {cfg : PrefaultConfig} {s : PrefaultState} {t : GpuThread}

section

variable (h : PrefaultInv cfg s)
include h

theorem goTo (hidle : (s.threads t).pc ≠ .idle) (hno : ∀ d, (s.threads t).pc ≠ .duty d)
    (hcas : (s.threads t).pc = .cas → s.status (s.threads t).page ≠ .unknown) {pc : EnsurePc}
    (hno' : ∀ d, pc ≠ .duty d) (hset : pc ≠ .setResident)
    (hready : pc = .returned → s.status (s.threads t).page = .ready)
    (hwait : pc = .wait → s.status (s.threads t).page ≠ .unknown) : PrefaultInv cfg (s.goTo t pc) :=
  h.setThread hno hcas hno' hset ((h.threads t).goTo hidle pc hready hwait)

theorem leave (hidle : (s.threads t).pc ≠ .idle) (hno : ∀ d, (s.threads t).pc ≠ .duty d)
    (hcas : (s.threads t).pc ≠ .cas) (hv : ViewOk cfg s v) {blkFull : Bool}
    (hready : s.status (s.threads t).page = .ready)
    (hblk : blkFull = true → ∀ page < cfg.array.nPages,
      page / pfBlkPages = (s.threads t).page / pfBlkPages → s.status page = .ready)
    : PrefaultInv cfg (s.leave t v blkFull) := by
  have hv' : ViewOk cfg s
      { v with
        lastPage := (s.threads t).page
        lastBlk := if blkFull then (s.threads t).page / pfBlkPages else v.lastBlk } := by
    refine ⟨fun page _ heq => heq ▸ hready, fun page hp heq => ?_, hv.unchecked⟩
    cases blkFull with
    | false => exact hv.lastBlk page hp heq
    | true => exact hblk rfl page hp heq
  refine (h.setView hv').goTo hidle hno (fun hpc => absurd hpc hcas) nofun nofun ?_ nofun
  exact fun _ => hready

theorem buildView_ok : ViewOk cfg s s.buildView := by
  have hbound := cfg.array.nPages_lt
  refine ⟨fun page hp heq => ?_, fun page hp heq => ?_, fun hc page hp => ?_⟩
  -- no page has the number of no page
  · have : page = 2 ^ 64 - 1 := heq
    omega
  · have : page / pfBlkPages = 2 ^ 64 - 1 := heq
    have := Nat.div_le_self page pfBlkPages
    omega
  · exact h.table.ready_of_resident (of_decide_eq_false hc) hp

theorem ensure (hidle : (s.threads t).pc = .idle) (hv : ViewOk cfg s v) {th : EnsureThread}
    (hpage : th.page < cfg.array.nPages)
    (helem : ∀ i, th.elem = some i → i < cfg.array.nElems ∧ th.page = cfg.array.pageOf i) :
    PrefaultInv cfg (s.ensure t v th) := by
  have hself : (s.setThread t { th with pc := .loadBlk, checked := true }).threads t =
      { th with pc := .loadBlk, checked := true } := update_self ..
  have hload : PrefaultInv cfg (s.setThread t { th with pc := .loadBlk, checked := true }) := by
    refine h.setThread (by simp [hidle]) (by simp [hidle]) nofun nofun ⟨?_, ?_, ?_, ?_⟩ <;>
      rw [hself]
    · exact fun _ => hpage
    · exact fun _ => helem
    · exact nofun
    · exact nofun
  unfold PrefaultState.ensure
  split
  -- the hints answer
  · rename_i hhint
    apply hload.leave
    · simp [hself]
    · simp [hself]
    · simp [hself]
    · exact hv.mono fun _ => .stay _
    · rw [hself]
      rcases hhint with heq | heq
      · exact hv.lastPage _ hpage heq
      · exact hv.lastBlk _ hpage heq
    · exact nofun
  · exact hload

theorem call (hidle : (s.threads t).pc = .idle) {view : Nat} {c : PrefaultCall}
    (hstep : s.call cfg t view c = some s') : PrefaultInv cfg s' := by
  cases c with
  | ensure page =>
    simp only [PrefaultState.call] at hstep
    split at hstep
    · rename_i hpage
      obtain ⟨v, hv, rfl⟩ := Option.map_eq_some_iff.1 hstep
      exact h.ensure hidle (h.views t view v hv) hpage (by simp)
    · cases hstep
  | access i =>
    simp only [PrefaultState.call] at hstep
    split at hstep
    · rename_i hi
      obtain ⟨v, hv, rfl⟩ := Option.map_eq_some_iff.1 hstep
      have hview := h.views t view v hv
      have hpage := cfg.array.pageOf_lt hi
      have helem : ∀ j, some i = some j →
          j < cfg.array.nElems ∧ cfg.array.pageOf i = cfg.array.pageOf j := by
        rintro j ⟨⟩
        exact ⟨hi, rfl⟩
      split
      · exact h.ensure hidle hview hpage helem
      -- the flag was set when the view was built
      · rename_i hchecks
        have hready := hview.unchecked (Bool.eq_false_iff.2 hchecks) _ hpage
        refine h.setThread (by simp [hidle]) (by simp [hidle]) (by simp) (by simp) ⟨?_, ?_, ?_, ?_⟩ <;>
          simp only [PrefaultState.setThread, update_self]
        · exact fun _ => hpage
        · exact fun _ => helem
        · exact fun _ => hready
        · simp
    · cases hstep

end

end PrefaultInv

theorem PrefaultState.elect_spec (cfg : PrefaultConfig) (s : PrefaultState) (warp : Nat)
    {active : LaneMask} {l : Fin 32} (hl : l ∈ active) :
    ∃ m ∈ active, (s.threads ⟨warp, m⟩).page = (s.threads ⟨warp, l⟩).page ∧
      (s.elect cfg warp active l).leader = ⟨warp, m⟩ ∧ (s.elect cfg warp active m).pc = .cas ∧
      ((s.elect cfg warp active l).pc = .cas ∨ (s.elect cfg warp active l).pc = .wait) := by
  have hmask : ∀ k, pfWarpMatchAnyU64 cfg.cudaArch active (s.laneValue warp)
      (s.threads ⟨warp, k⟩).page =
        active.filter fun j => (s.threads ⟨warp, j⟩).page = (s.threads ⟨warp, k⟩).page :=
    fun k => pfWarpMatchAnyU64_eq ..
  -- a lane is in its own group, so somebody is elected
  obtain ⟨m, hm⟩ := exists_firstLane (Finset.mem_filter.2 ⟨hl, rfl⟩ :
    l ∈ active.filter fun j => (s.threads ⟨warp, j⟩).page = (s.threads ⟨warp, l⟩).page)
  obtain ⟨hmact, hmpage⟩ := Finset.mem_filter.1 (firstLane_mem hm)
  refine ⟨m, hmact, hmpage, ?_, ?_, ?_⟩
  · simp only [elect, hmask, hm, Option.getD_some]
  · simp only [elect, hmask, hmpage, hm, if_true]
  · simp only [elect]
    split
    · exact .inl rfl
    · exact .inr rfl

namespace PrefaultInv

variable {cfg : PrefaultConfig} {s : PrefaultState} {t : GpuThread}

section

variable (h : PrefaultInv cfg s)
include h

/-- The lanes of a warp elect one lane for each page. -/
theorem converge {warp : Nat} {active : LaneMask}
    (hpcs : ∀ l ∈ active, (s.threads ⟨warp, l⟩).pc = .converge) :
    PrefaultInv cfg { s with
      threads := fun t =>
        if t.warp = warp ∧ t.lane ∈ active then s.elect cfg warp active t.lane
        else s.threads t } := by
  have hin : ∀ t : GpuThread, t.warp = warp ∧ t.lane ∈ active → (s.threads t).pc = .converge := by
    rintro ⟨warp', l⟩ ⟨rfl, hl⟩
    exact hpcs l hl
  -- a lane gets its page and its leader, the table stays
  apply h.advance
  · apply h.table.frame
    intro t
    by_cases ht : t.warp = warp ∧ t.lane ∈ active
    · obtain ⟨-, -, -, -, -, hpc⟩ := s.elect_spec cfg warp ht.2
      refine .inr ⟨by simp [hin t ht], ?_⟩
      simp only [if_pos ht]
      rcases hpc with hpc | hpc <;> simp [hpc]
    · exact .inl (if_neg ht)
  · exact fun page => .stay _
  · intro t hpc
    refine .inl (if_neg fun ht => ?_)
    rw [hin t ht] at hpc
    cases hpc
  · intro t
    by_cases ht : t.warp = warp ∧ t.lane ∈ active
    · obtain ⟨warp', l⟩ := t
      obtain ⟨rfl, hl⟩ := ht
      have hold := h.threads ⟨warp', l⟩
      have hidle : (s.threads ⟨warp', l⟩).pc ≠ .idle := by simp [hpcs l hl]
      -- the leader is at its attempt for the same page
      obtain ⟨m, hm, hpage, hleader, hcas, hpc⟩ := s.elect_spec cfg warp' hl
      refine .inr ⟨?_, ?_, ?_, ?_⟩
      · simp only [hl, and_self, if_true]
        exact fun _ => hold.page_lt hidle
      · simp only [hl, and_self, if_true]
        exact fun _ => hold.elem hidle
      · simp only [hl, and_self, if_true]
        rcases hpc with hpc | hpc <;> simp [hpc]
      · intro _
        right
        unfold LeaderAhead
        simp only [hl, and_self, if_true, hleader, hm, hcas]
        exact ⟨trivial, trivial, hpage⟩
    · exact .inl (if_neg ht)
  · exact fun _ _ _ hv => .inl hv

theorem known_of_duty {d : Duty} (hpc : (s.threads t).pc = .duty d) :
    s.status (s.threads t).page ≠ .unknown := fun hunknown =>
  (h.table.unknown_iff _).1 hunknown t (h.table.owner t d hpc)

theorem pending_of_ready (hpc : (s.threads t).pc = .duty .ready) :
    s.status (s.threads t).page = .pending := by
  cases hst : s.status (s.threads t).page with
  | unknown => exact absurd hst (h.known_of_duty hpc)
  | pending => rfl
  | ready =>
    obtain ⟨t', ht'⟩ := (h.table.ready_iff _).1 hst
    exact absurd (List.mem_map.2 ⟨_, ht', rfl⟩) (h.table.not_done hpc)

theorem win (hpc : (s.threads t).pc = .cas)
    (hunknown : s.status (s.threads t).page = .unknown) :
    PrefaultInv cfg (({ s with
      status := update s.status (s.threads t).page .pending
      won := (t, (s.threads t).page) :: s.won } : PrefaultState).goTo t (.duty .countWin)) ∧
    ∀ page, StatusMoves (s.status page)
      (update s.status (s.threads t).page .pending page) := by
  have hold := h.threads t
  have hidle : (s.threads t).pc ≠ .idle := by simp [hpc]
  have hlt := hold.page_lt hidle
  have hmoves : ∀ page, StatusMoves (s.status page)
      (update s.status (s.threads t).page .pending page) := by
    intro page
    by_cases hp : page = (s.threads t).page
    · rw [hp, update_self, hunknown]
      exact .win
    · rw [update_of_ne hp]
      exact .stay _
  refine ⟨?_, hmoves⟩
  apply h.advanceThread (h.table.win hpc hlt hunknown) hmoves rfl fun _ ht => update_of_ne ht _ _
  · intro _
    show update s.status (s.threads t).page .pending (s.threads t).page ≠ .unknown
    rw [update_self]
    exact nofun
  · refine ⟨?_, ?_, ?_, ?_⟩ <;> rw [goTo_self]
    · exact fun _ => hlt
    · exact fun _ => hold.elem hidle
    · exact nofun
    · exact nofun

theorem doDuty {d : Duty} (hpc : (s.threads t).pc = .duty d) :
    PrefaultInv cfg (s.doDuty cfg t d) ∧
      ∀ page, StatusMoves (s.status page) ((s.doDuty cfg t d).status page) := by
  have hold := h.threads t
  have hidle : (s.threads t).pc ≠ .idle := by simp [hpc]
  have hthreads := s.doDuty_threads cfg t d
  have hmoves : ∀ page, StatusMoves (s.status page) ((s.doDuty cfg t d).status page) := by
    intro page
    rw [s.doDuty_status]
    by_cases hp : d = .ready ∧ page = (s.threads t).page
    · obtain ⟨rfl, rfl⟩ := hp
      rw [if_pos rfl, update_self, h.pending_of_ready hpc]
      exact .publish
    · split
      · rw [update_of_ne fun heq => hp ⟨‹_›, heq⟩]
        exact .stay _
      · exact .stay _
  refine ⟨?_, hmoves⟩
  apply h.advanceThread (h.table.doDuty hpc) hmoves (s.doDuty_frame cfg t d).2.1
  · intro t' ht
    rw [hthreads, update_of_ne ht]
  · exact fun _ => (hmoves _).known (h.known_of_duty hpc)
  · have hself : (s.doDuty cfg t d).threads t = { s.threads t with pc := s.afterDuty cfg d } := by
      rw [hthreads, update_self]
    refine ⟨?_, ?_, ?_, ?_⟩ <;> rw [hself]
    · exact fun _ => hold.page_lt hidle
    · exact fun _ => hold.elem hidle
    -- a duty is not followed by a return
    · intro hret
      cases d with
      | countPublished =>
        dsimp only [afterDuty] at hret
        split at hret <;> cases hret
      | countWin | touch | ready | countBlk => cases hret
    · exact fun _ => .inl ((hmoves _).known (h.known_of_duty hpc))

theorem setResident (hpc : (s.threads t).pc = .setResident) :
    PrefaultInv cfg (({ s with allResident := 1, residentBy := t :: s.residentBy } :
      PrefaultState).goTo t .wait) := by
  have hold := h.threads t
  have hidle : (s.threads t).pc ≠ .idle := by simp [hpc]
  have hlt := hold.page_lt hidle
  have hready : s.status (s.threads t).page = .ready := by
    obtain ⟨t', ht'⟩ := h.table.exists_did_of_length (h.table.last t (.inl hpc)).1 hlt
    exact h.table.ready_of_did (by decide) ht'
  have hknown : s.status (s.threads t).page ≠ .unknown := by
    rw [hready]
    exact nofun
  apply h.advanceThread (h.table.setResident hpc) (fun page => .stay _) rfl
    (fun _ ht => update_of_ne ht _ _) fun _ => hknown
  refine ⟨?_, ?_, ?_, ?_⟩ <;> rw [goTo_self]
  · exact fun _ => hlt
  · exact fun _ => hold.elem hidle
  · exact nofun
  · exact fun _ => .inl hknown

theorem stepThread (hstep : s.stepThread cfg t = some s') :
    PrefaultInv cfg s' ∧ ∀ page, StatusMoves (s.status page) (s'.status page) := by
  have hstay : ∀ page, StatusMoves (s.status page) (s.status page) := fun page => .stay _
  cases hpc : (s.threads t).pc <;> simp only [PrefaultState.stepThread, hpc] at hstep
  case idle | converge => cases hstep
  case loadBlk =>
    obtain ⟨v, hv, rfl⟩ := Option.map_eq_some_iff.1 hstep
    have hlt := (h.threads t).page_lt (by simp [hpc])
    split
    · rename_i hfull
      refine ⟨?_, hstay⟩
      apply h.leave (by simp [hpc]) (by simp [hpc]) (by simp [hpc]) (h.views _ _ _ hv)
      · exact h.table.ready_of_full hlt hfull
      · exact fun _ page hp heq => h.table.ready_of_full hp (heq ▸ hfull)
    · refine ⟨?_, hstay⟩
      exact h.goTo (by simp [hpc]) (by simp [hpc]) (by simp [hpc]) nofun nofun nofun nofun
  case loadStatus =>
    obtain ⟨v, hv, rfl⟩ := Option.map_eq_some_iff.1 hstep
    split
    · rename_i hready
      refine ⟨?_, hstay⟩
      exact h.leave (by simp [hpc]) (by simp [hpc]) (by simp [hpc]) (h.views _ _ _ hv) hready nofun
    · refine ⟨?_, hstay⟩
      exact h.goTo (by simp [hpc]) (by simp [hpc]) (by simp [hpc]) nofun nofun nofun nofun
  case cas =>
    split at hstep
    -- the thread wins the page
    · rename_i hunknown
      cases hstep
      exact h.win hpc hunknown
    · rename_i hknown
      cases hstep
      refine ⟨?_, hstay⟩
      exact h.goTo (by simp [hpc]) (by simp [hpc]) (fun _ => hknown) nofun nofun nofun
        fun _ => hknown
  case duty d =>
    cases hstep
    exact h.doDuty hpc
  case setResident =>
    cases hstep
    exact ⟨h.setResident hpc, hstay⟩
  case wait =>
    obtain ⟨v, hv, rfl⟩ := Option.map_eq_some_iff.1 hstep
    split
    · rename_i hready
      refine ⟨?_, hstay⟩
      exact h.leave (by simp [hpc]) (by simp [hpc]) (by simp [hpc]) (h.views _ _ _ hv) hready nofun
    · exact ⟨h, hstay⟩
  case returned =>
    cases hstep
    refine ⟨?_, hstay⟩
    exact h.goTo (by simp [hpc]) (by simp [hpc]) (by simp [hpc]) nofun nofun nofun nofun

end

end PrefaultInv

theorem PrefaultState.call_status {cfg : PrefaultConfig} {s : PrefaultState} {t : GpuThread}
    {view : Nat} {c : PrefaultCall} (h : s.call cfg t view c = some s') : s'.status = s.status := by
  have hensure : ∀ v th, (s.ensure t v th).status = s.status := by
    intro v th
    unfold PrefaultState.ensure
    split <;> rfl
  cases c with
  | ensure page =>
    simp only [call] at h
    split at h
    · obtain ⟨v, -, rfl⟩ := Option.map_eq_some_iff.1 h
      exact hensure ..
    · cases h
  | access i =>
    simp only [call] at h
    split at h
    · obtain ⟨v, -, rfl⟩ := Option.map_eq_some_iff.1 h
      split
      · exact hensure ..
      · rfl
    · cases h

/-- Every step keeps the invariant, and statuses only move on. -/
theorem prefaultStep_inv {cfg : PrefaultConfig} {s : PrefaultState} {l : PrefaultLabel}
    (h : PrefaultInv cfg s) (hstep : prefaultStep cfg s l = some s') :
    PrefaultInv cfg s' ∧ ∀ page, StatusMoves (s.status page) (s'.status page) := by
  cases l with
  | build t view =>
    simp only [prefaultStep] at hstep
    split at hstep
    · cases hstep
      exact ⟨h.setView h.buildView_ok, fun page => .stay _⟩
    · cases hstep
  | call t view c =>
    simp only [prefaultStep] at hstep
    split at hstep
    · refine ⟨h.call ‹_› hstep, fun page => ?_⟩
      rw [call_status hstep]
      exact .stay _
    · cases hstep
  | converge warp active =>
    simp only [prefaultStep] at hstep
    split at hstep
    · rename_i hlanes
      cases hstep
      exact ⟨h.converge hlanes.2, fun page => .stay _⟩
    · cases hstep
  -- the only step that writes to the table
  | step t => exact h.stepThread hstep

/-! ## Runs -/

theorem prefaultInv_init (cfg : PrefaultConfig) : PrefaultInv cfg (.init cfg) := by
  refine ⟨?_, fun t => ⟨nofun, nofun, nofun, nofun⟩, nofun⟩
  refine ⟨List.nodup_nil, nofun, nofun, ?_, fun _ => List.nodup_nil, ?_, ?_, fun _ => rfl, ?_, rfl,
    ?_, ?_⟩
  · exact fun d t page => iff_of_false List.not_mem_nil fun hwon => List.not_mem_nil hwon.1
  · exact fun page => iff_of_true rfl fun t => List.not_mem_nil
  · exact fun page => iff_of_false nofun fun ⟨t, ht⟩ => List.not_mem_nil ht
  · intro blk
    simp [blkCounted, donePages, init]
  · rintro t (hset | hmem)
    · cases hset
    · cases hmem
  · exact iff_of_false (fun hne => hne rfl) (fun hne => hne rfl)

theorem prefaultInv_of_run {cfg : PrefaultConfig} {labels : List PrefaultLabel} {s : PrefaultState}
    (hrun : (prefaultMachine cfg).run (.init cfg) labels = some s) : PrefaultInv cfg s :=
  (prefaultMachine cfg).run_invariant (G := fun _ _ => True)
    (fun _ _ _ hI _ hstep => (prefaultStep_inv hI hstep).1) (prefaultInv_init cfg)
    ((prefaultMachine cfg).meets_true _ _) hrun

/-! ## Small arrays -/

local instance laneCount_neZero : NeZero 32 := ⟨by decide⟩

def lane0 : GpuThread := ⟨0, 0⟩

def lane1 : GpuThread := ⟨0, 1⟩

def twoPages : PrefaultConfig where
  array := ⟨4096, 2000, 4, 12, by decide, by decide, by decide⟩
  cudaArch := 700
  countsWins := true

/-- An array without elements that begins inside a page. -/
def emptyArray : PrefaultConfig where
  array := ⟨8, 0, 4, 12, by decide, by decide, by decide⟩
  cudaArch := 700
  countsWins := true

def threadSteps (t : GpuThread) (n : Nat) : List PrefaultLabel := List.replicate n (.step t)

/-- One thread calls for a page that nobody has asked for, up to its attempt. -/
def soloCall (call : PrefaultCall) : List PrefaultLabel :=
  [.build lane0 0, .call lane0 0 call, .step lane0, .step lane0, .converge 0 {0}]

/-- Two lanes of a warp access elements of one page, up to the election. -/
def pairCall : List PrefaultLabel :=
  [.build lane0 0, .build lane1 0, .call lane0 0 (.access 0), .call lane1 0 (.access 5),
    .step lane0, .step lane1, .step lane0, .step lane1, .converge 0 {0, 1}]

/-! ## What a return means -/

/-- Some thread has read a byte of the array on the page. -/
def PrefaultState.Touched (cfg : PrefaultConfig) (s : PrefaultState) (page : Nat) : Prop :=
  ∃ t addr, (t, page) ∈ s.did .touch ∧ cfg.array.touchAddr page = some addr

theorem PrefaultInv.touched_of_ready {cfg : PrefaultConfig} {s : PrefaultState}
    (h : PrefaultInv cfg s) (hne : 0 < cfg.array.nElems) {page : Nat}
    (hready : s.status page = .ready) : s.Touched cfg page := by
  obtain ⟨t, ht⟩ := (h.table.ready_iff page).1 hready
  have hlt := h.table.won_lt t page (h.table.won_of_did ht)
  obtain ⟨k, -, haddr, -⟩ := cfg.array.touchAddr_spec hlt hne
  exact ⟨t, _, h.table.did_of_did (by decide) ht, haddr⟩

/-- **Soundness of the guard**: when `ensure` has returned for a page, or a view has skipped the check
because the flag was set, the page is ready; and it was touched, unless the array is empty. -/
theorem ensured_page_ready {cfg : PrefaultConfig} {labels : List PrefaultLabel} {s : PrefaultState}
    (hrun : (prefaultMachine cfg).run (.init cfg) labels = some s) {t : GpuThread}
    (hreturned : (s.threads t).pc = .returned) :
    s.status (s.threads t).page = .ready ∧
      (0 < cfg.array.nElems → s.Touched cfg (s.threads t).page) := by
  have hinv := prefaultInv_of_run hrun
  have hready := (hinv.threads t).returned hreturned
  exact ⟨hready, fun hne => hinv.touched_of_ready hne hready⟩

/-- Lane 0 touches and publishes the page; lane 1 returns after it has waited. -/
theorem waiting_lane_returns :
    ∃ s, (prefaultMachine twoPages).run (.init twoPages)
        (pairCall ++ threadSteps lane0 6 ++ threadSteps lane1 1) = some s ∧
      (s.threads lane1).pc = .returned ∧ (s.threads lane1).page = 0 ∧ s.status 0 = .ready ∧
      s.Touched twoPages 0 := by
  have hreturned := @ensured_page_ready twoPages
    (pairCall ++ threadSteps lane0 6 ++ threadSteps lane1 1) _ rfl lane1 (by decide +kernel)
  exact ⟨_, rfl, by decide +kernel, by decide +kernel, hreturned.1, hreturned.2 (by decide)⟩

/-- The one page of an array without elements is published without being touched. -/
theorem empty_array_untouched :
    0 < emptyArray.array.nPages ∧
      ∃ s, (prefaultMachine emptyArray).run (.init emptyArray)
          (soloCall (.ensure 0) ++ threadSteps lane0 8) = some s ∧
        (s.threads lane0).pc = .returned ∧ (s.threads lane0).page = 0 ∧
        ¬ s.Touched emptyArray 0 := by
  refine ⟨by decide, _, rfl, by decide +kernel, by decide +kernel, ?_⟩
  rintro ⟨t, addr, -, haddr⟩
  rw [emptyArray.array.touchAddr_eq_none rfl] at haddr
  cases haddr

/-! ## What the table tells -/

/-- The thread has won the page and has not published it. -/
def EnsureThread.Publishing (th : EnsureThread) (page : Nat) : Prop := th.Owes .ready page

structure TouchProtocol (cfg : PrefaultConfig) (s : PrefaultState) : Prop where
  /-- Pages are won, touched and published at most once, and each by its winner. -/
  won_once : (s.won.map Prod.snd).Nodup
  done_once : ∀ d, ((s.did d).map Prod.snd).Nodup
  done_by_winner : ∀ d t page, (t, page) ∈ s.did d → (t, page) ∈ s.won
  won_iff : ∀ page, s.status page ≠ .unknown ↔ ∃ t, (t, page) ∈ s.won
  published_iff : ∀ page, s.status page = .ready ↔ ∃ t, (t, page) ∈ s.did .ready
  /-- The counter of wins is behind by the winners that have not counted yet. -/
  casWins : cfg.countsWins = true → s.casWins = (s.did .countWin).length
  uncounted_iff : ∀ t page, (t, page) ∈ s.won → ((t, page) ∉ s.did .countWin ↔
    (s.threads t).pc = .duty .countWin ∧ (s.threads t).page = page)
  blkCnt : ∀ blk, s.blkCnt blk =
    pfBlkPages - (pagesOfBlk cfg.array.nPages blk).card + (s.blkCounted blk).card
  blkCounted_iff : ∀ blk page, page ∈ s.blkCounted blk ↔
    page / pfBlkPages = blk ∧ ∃ t, (t, page) ∈ s.did .countBlk
  full : ∀ blk, pfBlkPages ≤ s.blkCnt blk →
    ∀ page ∈ pagesOfBlk cfg.array.nPages blk, s.status page = .ready
  resident : s.allResident ≠ 0 → ∀ page < cfg.array.nPages, s.status page = .ready
  /-- Who set the flag was the last to publish. -/
  residentBy : (s.allResident ≠ 0 ↔ s.residentBy ≠ []) ∧ ∀ t ∈ s.residentBy,
    (s.did .countPublished).length = cfg.array.nPages ∧
      (s.did .countPublished).head?.map Prod.fst = some t
  waits : ∀ t, (s.threads t).pc = .wait → s.status (s.threads t).page ≠ .ready →
    (∃ t', (s.threads t').Publishing (s.threads t).page) ∨ LeaderAhead s t (s.threads t).page

theorem PrefaultInv.publishing {cfg : PrefaultConfig} {s : PrefaultState} (h : PrefaultInv cfg s)
    {page : Nat} (hknown : s.status page ≠ .unknown) (hready : s.status page ≠ .ready) :
    ∃ t, (s.threads t).Publishing page := by
  have hwon : ∃ t, (t, page) ∈ s.won := by
    by_contra hno
    exact hknown ((h.table.unknown_iff page).2 fun t ht => hno ⟨t, ht⟩)
  obtain ⟨t, ht⟩ := hwon
  refine ⟨t, ?_⟩
  by_contra howes
  exact hready ((h.table.ready_iff page).2 ⟨t, (h.table.did_iff .ready t page).2 ⟨ht, howes⟩⟩)

theorem EnsureThread.owes_countWin_iff {th : EnsureThread} {page : Nat} :
    th.Owes .countWin page ↔ th.pc = .duty .countWin ∧ th.page = page := by
  constructor
  · rintro ⟨e, hpc, hpage, hrank⟩
    have he : e = .countWin := Duty.rank_inj (Nat.le_zero.1 hrank)
    exact ⟨he ▸ hpc, hpage⟩
  · rintro ⟨hpc, hpage⟩
    exact ⟨_, hpc, hpage, Nat.le_refl _⟩

theorem PrefaultInv.touchProtocol {cfg : PrefaultConfig} {s : PrefaultState}
    (h : PrefaultInv cfg s) : TouchProtocol cfg s where
  won_once := h.table.won_nodup
  done_once := h.table.did_nodup
  done_by_winner _ _ _ hd := h.table.won_of_did hd
  won_iff page := by
    rw [Ne, h.table.unknown_iff]
    simp
  published_iff := h.table.ready_iff
  casWins := h.table.casWins
  uncounted_iff t page hwon := by
    rw [h.table.did_iff, EnsureThread.owes_countWin_iff]
    simp [hwon]
  blkCnt blk := by
    rw [← pfInitBlkCounts_eq]
    exact h.table.blkCnt blk
  blkCounted_iff blk page := by
    rw [blkCounted, Finset.mem_filter, TableInv.mem_donePages, and_comm]
  full blk hfull page hp := by
    rw [pagesOfBlk, Finset.mem_filter, Finset.mem_range] at hp
    exact h.table.ready_of_full hp.1 (hp.2.symm ▸ hfull)
  resident hres page hp := h.table.ready_of_resident hres hp
  residentBy := ⟨h.table.resident_iff, fun t ht => h.table.last t (.inr ht)⟩
  waits t hpc hready := by
    rcases (h.threads t).waits hpc with hknown | hahead
    · exact .inl (h.publishing hknown hready)
    · exact .inr hahead

/-- **Touch protocol**: in every run the table agrees with who won, touched and published its pages,
and in every next step statuses only move from unknown to pending to ready. -/
theorem touch_protocol {cfg : PrefaultConfig} {labels : List PrefaultLabel} {s : PrefaultState}
    (hrun : (prefaultMachine cfg).run (.init cfg) labels = some s) :
    TouchProtocol cfg s ∧ ∀ l s', prefaultStep cfg s l = some s' →
      ∀ page, StatusMoves (s.status page) (s'.status page) := by
  have hinv := prefaultInv_of_run hrun
  exact ⟨hinv.touchProtocol, fun l s' hstep => (prefaultStep_inv hinv hstep).2⟩

/-- Lane 1 waits while lane 0 is publishing the page. -/
theorem waiting_lane_protocol :
    ∃ s, (prefaultMachine twoPages).run (.init twoPages) (pairCall ++ threadSteps lane0 1) =
        some s ∧
      (s.threads lane1).pc = .wait ∧ s.status 0 = .pending ∧ TouchProtocol twoPages s := by
  refine ⟨_, rfl, by decide +kernel, by decide +kernel, ?_⟩
  exact (@touch_protocol twoPages (pairCall ++ threadSteps lane0 1) _ rfl).1

/-- Between its `atomicCAS` and its `atomicAdd` a winner is not in the counter of wins. -/
theorem win_counted_late :
    twoPages.countsWins = true ∧
      ∃ s, (prefaultMachine twoPages).run (.init twoPages)
          (soloCall (.access 0) ++ threadSteps lane0 1) = some s ∧
        s.won = [(lane0, 0)] ∧ s.casWins = 0 := by
  exact ⟨rfl, _, rfl, by decide +kernel, by decide +kernel⟩

end FaultMesh
