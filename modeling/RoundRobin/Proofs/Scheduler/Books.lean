import RoundRobin.Proofs.Scheduler.Step

/-!
# Blocks and identifiers

What each step does to the pool, to the destruction queue and to the identifiers: a thread keeps
its identifier, only a creation hands out a block, and only a yield and an exit take one back.
-/

namespace RoundRobin.Scheduler

variable {s s' s₁ : Scheduler} {b r n sp sp' now : Nat}

/-- Blocks, identifiers and the two distinguished threads are the same. -/
structure SameBooks (s s' : Scheduler) : Prop where
  pool : s'.pool = s.pool
  idle : s'.idle = s.idle
  initial : s'.initial = s.initial
  nextTid : s'.nextTid = s.nextTid
  tid : ∀ b, (s'.threads.get b).tid = (s.threads.get b).tid

namespace SameBooks

theorem refl (s : Scheduler) : SameBooks s s :=
  ⟨rfl, rfl, rfl, rfl, fun _ => rfl⟩

theorem trans (h : SameBooks s s₁) (h' : SameBooks s₁ s') : SameBooks s s' :=
  ⟨h'.pool.trans h.pool, h'.idle.trans h.idle, h'.initial.trans h.initial,
    h'.nextTid.trans h.nextTid, fun b => (h'.tid b).trans (h.tid b)⟩

/-- One control block changes and keeps its identifier. -/
theorem modify {f : Thread → Thread} (hpool : s'.pool = s.pool) (hidle : s'.idle = s.idle)
    (hinitial : s'.initial = s.initial) (hnext : s'.nextTid = s.nextTid)
    (hthreads : s'.threads = s.threads.modify b f) (hf : ∀ t, (f t).tid = t.tid) :
    SameBooks s s' := by
  refine ⟨hpool, hidle, hinitial, hnext, ?_⟩
  intro c
  rw [hthreads]
  exact Memory.apply_get_modify Thread.tid (hf _) c

theorem alter (s : Scheduler) (b : Nat) {f : Thread → Thread} (hf : ∀ t, (f t).tid = t.tid) :
    SameBooks s (s.alter b f) :=
  modify rfl rfl rfl rfl rfl hf

theorem mark (s : Scheduler) (b : Nat) (status : Status) : SameBooks s (s.mark b status) :=
  alter s b fun _ => rfl

theorem enqueue (s : Scheduler) (b : Nat) : SameBooks s (s.enqueue b) :=
  modify rfl rfl rfl rfl rfl fun _ => rfl

theorem makeReady (s : Scheduler) (b : Nat) : SameBooks s (s.makeReady b) :=
  (enqueue s b).trans (mark _ b .ready)

theorem bury (s : Scheduler) (b : Nat) : SameBooks s (s.bury b) :=
  modify rfl rfl rfl rfl rfl fun _ => rfl

theorem shelve (s : Scheduler) (b wake : Nat) : SameBooks s (s.shelve b wake) :=
  modify rfl rfl rfl rfl rfl fun _ => rfl

theorem unshelve (s : Scheduler) (b : Nat) : SameBooks s (s.unshelve b) :=
  modify rfl rfl rfl rfl rfl fun _ => rfl

theorem putToSleep (s : Scheduler) (b wake : Nat) : SameBooks s (s.putToSleep b wake) :=
  (alter s b (f := fun t => { t with wakeTick := some wake }) fun _ => rfl).trans (shelve _ b wake)

theorem rouse (s : Scheduler) (b : Nat) : SameBooks s (s.rouse b) :=
  ((unshelve s b).trans (alter _ b (f := fun t => { t with wakeTick := none }) fun _ => rfl)).trans
    (makeReady _ b)

theorem dequeue (s : Scheduler) : SameBooks s s.dequeue := by
  unfold Scheduler.dequeue
  split
  · exact refl s
  · exact modify rfl rfl rfl rfl rfl fun _ => rfl

theorem elect (s : Scheduler) (n : Nat) : SameBooks s (s.elect n) :=
  ((dequeue s).trans (mark _ n .running)).trans ⟨rfl, rfl, rfl, rfl, fun _ => rfl⟩

theorem park (s : Scheduler) (r : Nat) : SameBooks s (s.park r) := by
  unfold Scheduler.park
  split
  · exact bury s r
  · exact refl s

theorem counted (s : Scheduler) (stats : TickStats) (sliceTicks : Nat) :
    SameBooks s ((s.withStats stats).withSlice sliceTicks) :=
  ⟨rfl, rfl, rfl, rfl, fun _ => rfl⟩

theorem advance (s : Scheduler) : SameBooks s s.advance :=
  ⟨rfl, rfl, rfl, rfl, fun _ => rfl⟩

end SameBooks

theorem Dispatched.sameBooks (hd : Dispatched s sp r s' sp' n) : SameBooks s s' := by
  cases hd with
  | stay => exact .elect s r
  | switch => exact ((SameBooks.elect s n).trans (.park _ r)).trans (.alter _ r fun _ => rfl)

theorem Woken.sameBooks (h : Woken now s s') : SameBooks s s' := by
  induction h with
  | done => exact .refl _
  | next _ _ _ _ ih => exact (SameBooks.rouse _ _).trans ih

theorem Woken.destruction_eq (h : Woken now s s') : s'.destruction = s.destruction := by
  induction h with
  | done => rfl
  | next _ _ _ _ ih => exact ih

/-- A dispatch buries the thread that is left if it exits and has a block of the pool. -/
theorem Dispatched.destruction_eq (hd : Dispatched s sp r s' sp' n)
    (h : s.Settled (s.Leaving r) r) :
    s'.destruction.members =
      if (s.threads.get r).status = .dying ∧ s.initial ≠ some r then s.destruction.members ++ [r]
      else s.destruction.members := by
  cases hd with
  | stay hnext =>
      have hwaits := h.waits_of_next hnext
      rw [destruction_elect, if_neg]
      rintro ⟨hdying, hmain⟩
      rcases hnext.cases h.linked with howner | ⟨-, hidle⟩
      · rw [(hwaits.ready_of_owner howner).1] at hdying
        cases hdying
      · rcases h.here with ⟨-, hne⟩ | ⟨-, -, -, hne, -⟩
        · exact hne hdying
        · exact hne hidle
  | switch hnext hne =>
      have hget : (s.elect n).threads.get r = s.threads.get r := by
        rw [h.get_elect hnext, if_neg (Ne.symm hne)]
      change ((s.elect n).park r).destruction.members = _
      unfold park
      rw [hget, initial_elect]
      split
      · change (s.elect n).destruction.members ++ [r] = _
        rw [destruction_elect]
      · rw [destruction_elect]

theorem Reclaimed.nextTid_eq (h : Reclaimed s s') : s'.nextTid = s.nextTid := by
  cases h <;> rfl

theorem Reclaimed.tid_eq (h : Reclaimed s s') (c : Nat) :
    (s'.threads.get c).tid = (s.threads.get c).tid := by
  cases h with
  | none => rfl
  | @one b k =>
      change ((s.exhume b).threads.get c).tid = _
      rw [get_exhume]
      split
      · next heq => rw [← heq]; rfl
      · rfl

/-- What taking back an exited thread does to the pool. -/
inductive Returned (s : Scheduler) : Pool → Prop
  | none (empty : s.destruction.members = []) : Returned s s.pool
  | one {b k : Nat} (only : s.destruction.members = [b]) (busy : s.pool.busy[k]? = some true)
      (slot : s.pool.slotAddress k = b) : Returned s (s.pool.vacated k)

theorem Reclaimed.returned (h : Reclaimed s s') : Returned s s'.pool := by
  cases h with
  | none hempty => exact .none hempty
  | one honly hbusy hslot => exact .one honly hbusy hslot

theorem Returned.congr {pool : Pool} (h : Returned s₁ pool) (hpool : s₁.pool = s.pool)
    (hdead : s₁.destruction = s.destruction) : Returned s pool := by
  cases h with
  | none hempty =>
      rw [hpool]
      exact .none (hdead ▸ hempty)
  | one honly hbusy hslot =>
      rw [hpool] at hbusy hslot ⊢
      exact .one (hdead ▸ honly) hbusy hslot

/-- The blocks taken back are those on the destruction queue. -/
theorem Returned.perm {pool : Pool} (h : Returned s pool) :
    s.pool.blocksInUse.Perm (s.destruction.members ++ pool.blocksInUse) ∧
      pool.frees = s.pool.frees + s.destruction.members.length := by
  cases h with
  | none hempty =>
      rw [hempty]
      exact ⟨List.Perm.refl _, rfl⟩
  | one honly hbusy hslot =>
      rw [honly, ← hslot]
      exact ⟨Pool.perm_blocksInUse_vacated hbusy, rfl⟩

theorem Returned.filter_eq {pool : Pool} (h : Returned s pool) :
    s.pool.blocksInUse.filter (· ∉ pool.blocksInUse) = s.destruction.members := by
  cases h with
  | none hempty =>
      rw [hempty, List.filter_eq_nil_iff]
      intro b hb
      simpa using hb
  | @one b k honly hbusy hslot =>
      have hfresh : b ∉ (s.pool.vacated k).blocksInUse := by
        rw [Pool.mem_blocksInUse_vacated, hslot]
        exact fun hb => hb.2 rfl
      have hperm := (Pool.perm_blocksInUse_vacated hbusy).filter
        (· ∉ (s.pool.vacated k).blocksInUse)
      have hrest : (s.pool.vacated k).blocksInUse.filter
          (· ∉ (s.pool.vacated k).blocksInUse) = [] := by
        rw [List.filter_eq_nil_iff]
        intro c hc
        simpa using hc
      rw [hslot, List.filter_cons_of_pos (by simpa using hfresh), hrest] at hperm
      rw [honly]
      exact List.perm_singleton.mp hperm

/-- What an action in the thread in `r` does to blocks and identifiers. -/
inductive Bookkeeping (s : Scheduler) (r : Nat) : Action → Scheduler → Prop
  /-- Nothing changes. -/
  | kept {a : Action} {s' : Scheduler} (quiet : a ≠ .yield ∧ a ≠ .exit ∧ ∀ b, a ≠ .create b)
      (same : SameBooks s s') (dead : s'.destruction.members = s.destruction.members) :
      Bookkeeping s r a s'
  /-- A free block is handed out, and its thread gets the next identifier. -/
  | created {s' : Scheduler} {k : Nat} (free : s.pool.busy[k]? = some false)
      (pool : s'.pool = s.pool.occupied k) (idle : s'.idle = s.idle)
      (initial : s'.initial = s.initial) (nextTid : s'.nextTid = s.nextTid + 1)
      (tid : ∀ c, (s'.threads.get c).tid =
        if s.pool.slotAddress k = c then s.nextTid else (s.threads.get c).tid)
      (dead : s'.destruction.members = s.destruction.members) :
      Bookkeeping s r (.create (s.pool.slotAddress k)) s'
  /-- The exited thread, if there is one, is taken back; one that exits now with a block of the
  pool takes its place. -/
  | returned {a : Action} {s' : Scheduler} (schedules : a = .yield ∨ a = .exit)
      (pool : Returned s s'.pool) (idle : s'.idle = s.idle) (initial : s'.initial = s.initial)
      (nextTid : s'.nextTid = s.nextTid)
      (tid : ∀ c, (s'.threads.get c).tid = (s.threads.get c).tid)
      (dead : s'.destruction.members = if a = .exit ∧ s.initial ≠ some r then [r] else []) :
      Bookkeeping s r a s'

/-- The state after a yield or an exit, from the one in which the thread was left. -/
theorem Bookkeeping.of_reclaimed {a : Action} (ha : a = .yield ∨ a = .exit) {s₂ : Scheduler}
    (hsame : SameBooks s s₁) (hdead : s₁.destruction = s.destruction) (hback : Reclaimed s₁ s₂)
    {status : Status} (hstatus : status = .dying ↔ a = .exit)
    (hd : Dispatched (s₂.mark r status) sp r s' sp' n)
    (h : (s₂.mark r status).Settled ((s₂.mark r status).Leaving r) r) : Bookkeeping s r a s' := by
  have hbooks := (SameBooks.mark s₂ r status).trans hd.sameBooks
  have hpool : Returned s s'.pool := by
    rw [hbooks.pool]
    exact hback.returned.congr hsame.pool hdead
  refine .returned ha hpool ?_ ?_ ?_ ?_ ?_
  · rw [hbooks.idle, hback.idle_eq, hsame.idle]
  · rw [hbooks.initial, hback.initial_eq, hsame.initial]
  · rw [hbooks.nextTid, hback.nextTid_eq, hsame.nextTid]
  · intro c
    rw [hbooks.tid, hback.tid_eq, hsame.tid]
  · rw [hd.destruction_eq h, get_mark, if_pos rfl]
    change (if status = .dying ∧ s₂.initial ≠ some r then s₂.destruction.members ++ [r]
      else s₂.destruction.members) = _
    rw [hback.destruction_eq, hback.initial_eq, hsame.initial, List.nil_append]
    simp only [hstatus]

theorem Step.bookkeeping {a : Action} (hstep : Step s sp r a s' sp' n)
    (h : s.Settled Active r) : Bookkeeping s r a s' := by
  cases hstep with
  | counted stats sliceTicks =>
      exact .kept ⟨by decide, by decide, by simp⟩ (.counted s stats sliceTicks) rfl
  | prioritised priority =>
      exact .kept ⟨by decide, by decide, by simp⟩ (.alter s r fun _ => rfl) rfl
  | @unblocked b => exact .kept ⟨by simp, by simp, by simp⟩ (.makeReady s b) rfl
  | @created k t context hslot =>
      have hk := Pool.busy_of_freeSlot? hslot
      have hframe := h.spawned_frame hk t context
      have hbooks := SameBooks.makeReady (s.spawned k t context) (s.pool.slotAddress k)
      refine .created hk ?_ ?_ ?_ ?_ ?_ ?_
      · rw [hbooks.pool, hframe]
      · rw [hbooks.idle, hframe]
      · rw [hbooks.initial, hframe]
      · rw [hbooks.nextTid, hframe]
      · intro c
        rw [hbooks.tid, get_spawned]
        split <;> rfl
      · change (s.spawned k t context).destruction.members = _
        rw [hframe]
  | departed hdeparts hdispatched =>
      have hleft := hdeparts.settled h
      cases hdeparts with
      | idles hself hback =>
          exact .of_reclaimed (Or.inl rfl) (.refl s) rfl hback (by simp) hdispatched hleft
      | yields hother hback =>
          exact .of_reclaimed (Or.inl rfl) (.enqueue s r) rfl hback (by simp) hdispatched hleft
      | exits hother hback =>
          exact .of_reclaimed (Or.inr rfl) (.refl s) rfl hback (by simp) hdispatched hleft
      | blocks =>
          refine .kept ⟨by simp, by simp, by simp⟩
            ((SameBooks.mark s r .blocked).trans hdispatched.sameBooks) ?_
          rw [hdispatched.destruction_eq hleft, get_mark, if_pos rfl]
          rfl
      | @sleeps wake hother =>
          refine .kept ⟨by simp, by simp, by simp⟩
            (((SameBooks.putToSleep s r wake).trans (.mark _ r .blocked)).trans
              hdispatched.sameBooks) ?_
          rw [hdispatched.destruction_eq hleft, get_mark, if_pos rfl]
          rfl
  | woke hwoken =>
      refine .kept ⟨by simp, by simp, by simp⟩ hwoken.sameBooks ?_
      rw [hwoken.destruction_eq]
  | interrupted stats sliceTicks hwoken =>
      refine .kept ⟨by simp, by simp, by simp⟩
        (((SameBooks.advance s).trans (.counted _ stats sliceTicks)).trans hwoken.sameBooks) ?_
      rw [hwoken.destruction_eq]
      rfl

/-- The pool stays where it is. -/
theorem Step.pool_place {a : Action} (hstep : Step s sp r a s' sp' n) (h : s.Settled Active r) :
    s'.pool.base = s.pool.base ∧ s'.pool.capacity = s.pool.capacity := by
  cases hstep.bookkeeping h with
  | kept _ hsame =>
      rw [hsame.pool]
      exact ⟨rfl, rfl⟩
  | created _ hpool =>
      rw [hpool]
      exact ⟨rfl, List.length_set⟩
  | returned _ hback =>
      generalize s'.pool = pool at hback
      cases hback with
      | none => exact ⟨rfl, rfl⟩
      | one => exact ⟨rfl, List.length_set⟩

/-- Each block that is handed out takes an identifier, so the blocks are counted for as long as
there are identifiers. -/
theorem Step.allocs_lt_nextTid {a : Action} (hstep : Step s sp r a s' sp' n)
    (h : s.Settled Active r) (hcount : s.pool.allocs < s.nextTid) :
    s'.pool.allocs < s'.nextTid := by
  cases hstep.bookkeeping h with
  | kept _ hsame =>
      rw [hsame.pool, hsame.nextTid]
      exact hcount
  | created _ hpool _ _ hnext =>
      rw [hpool, hnext]
      exact Nat.succ_lt_succ hcount
  | returned _ hback _ _ hnext =>
      rw [hnext]
      generalize s'.pool = pool at hback
      cases hback with
      | none | one => exact hcount

end RoundRobin.Scheduler
