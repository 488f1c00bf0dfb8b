import RoundRobin.Proofs.Scheduler.Step

/-!
# Threads that a step leaves alone

A sleeper is touched by nothing but the tick handler, and by that only when it is due. The boot
thread is touched by nothing once it has exited.
-/

namespace RoundRobin.Scheduler

variable {s s' s₁ : Scheduler} {P : Thread → Prop} {b r n sp sp' now : Nat}

theorem get_rouse_of_ne {c : Nat} (hne : b ≠ c) :
    (s.rouse c).threads.get b = s.threads.get b := by
  rw [get_rouse, if_neg (Ne.symm hne)]

/-- A thread that does not sleep is not woken. -/
theorem Woken.get_of_not_asleep (hw : Woken now s s') (h : s.Settled Active r)
    (howner : (s.threads.get b).owner ≠ .sleep) : s'.threads.get b = s.threads.get b := by
  induction hw with
  | done => rfl
  | @next s s' c wake rest hfirst htick hdue _ ih =>
      have hne : b ≠ c := by
        rintro rfl
        exact howner (h.owner_of_first hfirst)
      have hget := get_rouse_of_ne (s := s) hne
      rw [ih (h.rouse_active hfirst) (by rw [hget]; exact howner), hget]

/-- A sleeper that is not due sleeps on. -/
theorem Woken.get_of_later (hw : Woken now s s') {wake : Nat}
    (hwake : (s.threads.get b).wakeTick = some wake) (hlater : now < wake) :
    s'.threads.get b = s.threads.get b := by
  induction hw with
  | done => rfl
  | @next s s' c first rest hfirst htick hdue _ ih =>
      have hne : b ≠ c := by
        rintro rfl
        rw [hwake] at htick
        cases htick
        omega
      have hget := get_rouse_of_ne (s := s) hne
      rw [ih (by rw [hget]; exact hwake), hget]

/-- The earliest sleeper is due if any is. -/
theorem Settled.due_of_asleep (h : s.Settled Active r) (howner : (s.threads.get b).owner = .sleep)
    {wake : Nat} (hwake : (s.threads.get b).wakeTick = some wake) (hdue : wake ≤ now) :
    s.sleepers.Due s.threads now := by
  have hmem := (h.linked.sleep.mem_iff b).mpr howner
  cases hmembers : s.sleepers.queue.members with
  | nil =>
      rw [hmembers] at hmem
      cases hmem
  | cons c rest =>
      obtain ⟨-, htick, -⟩ := h.asleep_of_owner (h.owner_of_first hmembers)
      obtain ⟨w, hw⟩ := Option.ne_none_iff_exists'.mp htick
      refine SleepQueue.due_of_cons hmembers hw ?_
      have hle : (s.threads.get c).wake ≤ (s.threads.get b).wake := by
        have hascending := h.linked.ascending
        rw [SleepQueue.Ascending, hmembers, List.pairwise_cons] at hascending
        rw [hmembers, List.mem_cons] at hmem
        rcases hmem with rfl | hmem
        · exact Nat.le_refl _
        · exact hascending.1 b hmem
      simp only [Thread.wake, hw, hwake, Option.getD_some] at hle
      omega

/-- A sleeper that is due becomes ready. -/
theorem Woken.get_of_due (hw : Woken now s s') (h : s.Settled Active r)
    (howner : (s.threads.get b).owner = .sleep) {wake : Nat}
    (hwake : (s.threads.get b).wakeTick = some wake) (hdue : wake ≤ now) :
    s'.threads.get b =
      { s.threads.get b with
        owner := .ready, linked := true, wakeTick := none, status := .ready } := by
  induction hw with
  | done hnot => exact absurd (h.due_of_asleep howner hwake hdue) hnot
  | @next s s' c first rest hfirst htick hle hrest ih =>
      have hsettled := h.rouse_active hfirst
      by_cases hbc : b = c
      · subst hbc
        have hget := get_rouse s b b
        rw [if_pos rfl, h.linked.ready.kind_eq] at hget
        rw [hrest.get_of_not_asleep hsettled (by rw [hget]; simp), hget]
      · have hget := get_rouse_of_ne (s := s) hbc
        rw [ih hsettled (by rw [hget]; exact howner) (by rw [hget]; exact hwake), hget]

/-- Who still sleeps after that is not due. -/
theorem Woken.later_of_asleep (hw : Woken now s s') (h : s.Settled Active r)
    (howner : (s'.threads.get b).owner = .sleep) :
    ∃ wake, (s'.threads.get b).wakeTick = some wake ∧ now < wake := by
  induction hw with
  | @done s hnot =>
      obtain ⟨-, htick, -⟩ := h.asleep_of_owner howner
      obtain ⟨wake, hwake⟩ := Option.ne_none_iff_exists'.mp htick
      refine ⟨wake, hwake, ?_⟩
      by_contra hle
      exact hnot (h.due_of_asleep howner hwake (by omega))
  | next hfirst _ _ _ ih => exact ih (h.rouse_active hfirst) howner

theorem Reclaimed.get_of_ne (hback : Reclaimed s s') (h : s.Linked)
    (howner : (s.threads.get b).owner ≠ .destruction) :
    s'.threads.get b = s.threads.get b := by
  cases hback with
  | none => rfl
  | @one c k honly =>
      have hne : c ≠ b := by
        rintro rfl
        apply howner
        apply (h.destruction.mem_iff c).mp
        rw [honly]
        exact List.mem_singleton_self c
      exact (get_exhume s c b).trans (if_neg hne)

/-- A thread that gives up the processor changes nothing in others, but for the exited one that it
takes back. -/
theorem Departs.get_of_ne {a : Action} (hd : Departs s r a s₁) (h : s.Settled Active r)
    (hbr : b ≠ r) (howner : (s.threads.get b).owner ≠ .destruction) :
    s₁.threads.get b = s.threads.get b := by
  cases hd with
  | idles hself hback =>
      rw [get_mark, if_neg (Ne.symm hbr), hback.get_of_ne h.linked howner]
  | yields hother hback =>
      have hget : (s.enqueue r).threads.get b = s.threads.get b := by
        rw [get_enqueue, if_neg (Ne.symm hbr)]
      rw [get_mark, if_neg (Ne.symm hbr),
        hback.get_of_ne (h.linked.enqueue h.here.owner) (by rw [hget]; exact howner), hget]
  | blocks => rw [get_mark, if_neg (Ne.symm hbr)]
  | sleeps => rw [get_mark, if_neg (Ne.symm hbr), get_putToSleep, if_neg (Ne.symm hbr)]
  | exits hother hback =>
      rw [get_mark, if_neg (Ne.symm hbr), hback.get_of_ne h.linked howner]

theorem Departs.idle_eq {a : Action} (hd : Departs s r a s₁) : s₁.idle = s.idle := by
  cases hd with
  | idles _ hback => exact hback.idle_eq
  | yields _ hback => exact hback.idle_eq
  | blocks => rfl
  | sleeps => rfl
  | exits _ hback => exact hback.idle_eq

/-- A dispatch touches only the thread that is left and the next one. -/
theorem Dispatched.get_of_neither (hd : Dispatched s sp r s' sp' n) (hbr : b ≠ r) (hbn : b ≠ n) :
    s'.threads.get b = s.threads.get b := by
  have helect : s.Next n → (s.elect n).threads.get b = s.threads.get b := by
    intro hnext
    change (s.dequeue.mark n .running).threads.get b = _
    rw [get_mark, if_neg (Ne.symm hbn)]
    cases hmembers : s.ready.members with
    | nil => rw [dequeue_of_nil hmembers]
    | cons first rest =>
        obtain rfl : first = n := by simpa [Next, hmembers] using hnext
        rw [get_dequeue_of_cons hmembers, if_neg (Ne.symm hbn)]
  cases hd with
  | stay hnext => exact helect hnext
  | switch hnext =>
      rw [get_saveStack, if_neg (Ne.symm hbr), get_park_of_ne hbr, helect hnext]

/-- A dispatch changes nothing in a thread that is neither left nor ready nor idle. -/
theorem Dispatched.get_of_ne (hd : Dispatched s sp r s' sp' n) (h : s.Settled (s.Leaving r) r)
    (hbr : b ≠ r) (howner : (s.threads.get b).owner ≠ .ready) (hidle : s.idle ≠ some b) :
    s'.threads.get b = s.threads.get b ∧ n ≠ b := by
  have hne : n ≠ b := by
    rintro rfl
    have hnext : s.Next n := by
      cases hd with
      | stay hnext => exact hnext
      | switch hnext => exact hnext
    rcases hnext.cases h.linked with hready | ⟨-, hself⟩
    · exact howner hready
    · exact hidle hself
  exact ⟨hd.get_of_neither hbr (Ne.symm hne), hne⟩

/-- A dispatch changes only the saved stack pointer of a thread that is left to wait, unless that
is put to the destruction queue. -/
theorem Dispatched.get_of_left (hd : Dispatched s sp r s' sp' n)
    (h : s.Settled (s.Leaving r) r) (howner : (s.threads.get r).owner ≠ .ready)
    (hidle : s.idle ≠ some r)
    (hkept : ¬ ((s.threads.get r).status = .dying ∧ s.initial ≠ some r)) :
    s'.threads.get r = { s.threads.get r with context.sp := sp } := by
  cases hd with
  | stay hnext =>
      rcases hnext.cases h.linked with hready | ⟨-, hself⟩
      · exact absurd hready howner
      · exact absurd hself hidle
  | switch hnext hne =>
      have hget : (s.elect n).threads.get r = s.threads.get r := by
        rw [h.get_elect hnext, if_neg (Ne.symm hne)]
      rw [get_saveStack, if_pos rfl, park_of_not (by rw [hget, initial_elect]; exact hkept), hget]

/-- A thread that sleeps, or that has exited and is on no queue, is left alone by every step but
the waking of sleepers. -/
theorem Step.get_of_still {a : Action} (hstep : Step s sp r a s' sp' n) (h : s.Settled Active r)
    (hlive : s.Live b) (hidle : s.idle ≠ some b)
    (hstill : ((s.threads.get b).owner = .sleep ∧ a ≠ .interrupt ∧ ∀ now, a ≠ .wake now) ∨
      ((s.threads.get b).owner = .detached ∧ (s.threads.get b).status = .dying)) :
    s'.threads.get b = s.threads.get b := by
  have hbr : b ≠ r := by
    rintro rfl
    rcases hstill with ⟨howner, -⟩ | ⟨-, hstatus⟩
    · rw [h.here.owner] at howner
      cases howner
    · rw [h.here.status] at hstatus
      cases hstatus
  have hready : (s.threads.get b).owner ≠ .ready := by
    rcases hstill with ⟨howner, -⟩ | ⟨howner, -⟩ <;> rw [howner] <;> decide
  have hdead : (s.threads.get b).owner ≠ .destruction := by
    rcases hstill with ⟨howner, -⟩ | ⟨howner, -⟩ <;> rw [howner] <;> decide
  cases hstep with
  | counted => rfl
  | prioritised => rw [get_alter, if_neg (Ne.symm hbr)]
  | @unblocked c _ hfree hblocked =>
      have hne : c ≠ b := by
        rintro rfl
        rcases hstill with ⟨howner, -⟩ | ⟨-, hstatus⟩
        · rw [hfree.1] at howner
          cases howner
        · rw [hblocked] at hstatus
          cases hstatus
      rw [get_makeReady, if_neg hne]
  | @created k t context hslot =>
      have hk := Pool.busy_of_freeSlot? hslot
      have hne : s.pool.slotAddress k ≠ b := fun heq => h.not_live_of_free hk (heq ▸ hlive)
      rw [get_makeReady, if_neg hne, get_spawned, if_neg hne]
  | departed hdeparts hdispatched =>
      have hget := hdeparts.get_of_ne h hbr hdead
      rw [← hget] at hready
      have hself : _ ≠ some b := hdeparts.idle_eq.trans_ne hidle
      rw [(hdispatched.get_of_ne (hdeparts.settled h) hbr hready hself).1, hget]
  | @woke s' now hwoken =>
      rcases hstill with ⟨-, -, hwake⟩ | ⟨howner, -⟩
      · exact absurd rfl (hwake now)
      · exact hwoken.get_of_not_asleep h (by rw [howner]; decide)
  | interrupted stats sliceTicks hwoken =>
      rcases hstill with ⟨-, hinterrupt, -⟩ | ⟨howner, -⟩
      · exact absurd rfl hinterrupt
      · refine hwoken.get_of_not_asleep (h.advance.counted stats sliceTicks) ?_
        change (s.threads.get b).owner ≠ .sleep
        rw [howner]
        decide

/-- The boot thread is on no queue after its exit. -/
theorem Step.exit_main (hstep : Step s sp r .exit s' sp' n) (h : s.Settled Active r)
    (hmain : s.initial = some r) :
    (s'.threads.get r).owner = .detached ∧ (s'.threads.get r).status = .dying := by
  cases hstep with
  | departed hdeparts hdispatched =>
      have hleft := hdeparts.settled h
      cases hdeparts with
      | @exits s₁ hother hback =>
          have hinitial : (s₁.mark r .dying).initial = some r := hback.initial_eq.trans hmain
          have hget : (s₁.mark r .dying).threads.get r =
              { s.threads.get r with status := .dying } := by
            rw [get_mark, if_pos rfl, hback.get_of_ne h.linked (by rw [h.here.owner]; decide)]
          rw [hdispatched.get_of_left hleft, hget]
          · exact ⟨h.here.owner, rfl⟩
          · rw [hget]
            change (s.threads.get r).owner ≠ .ready
            rw [h.here.owner]
            decide
          · exact hback.idle_eq.trans_ne hother
          · exact fun hkept => hkept.2 hinitial

end RoundRobin.Scheduler
