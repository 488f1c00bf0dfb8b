import RoundRobin.Proofs.Host.Custody
import RoundRobin.Proofs.Scheduler.Roster

/-!
# Threads with a wrong tag are shunned

Not every operation looks at integrity tags. But on each way to the processor there is one that
does, so whatever returns has neither run a thread whose tag is wrong nor made it ready, and has
left its control block alone.
-/

namespace RoundRobin.Host

open Scheduler

variable {h h' h₁ : Host} {call : Call} {created : Option Nat} {u : Unit} {b r n : Nat}

/-- Between `h` and `h'` the thread in `b` neither left nor joined the ready queue, and the
processor did not go on with its stack. -/
structure PassedOver (b : Nat) (h h' : Host) : Prop where
  ready : ∃ gone joined, b ∉ gone ∧ b ∉ joined ∧
    h.scheduler.ready.members ++ joined = gone ++ h'.scheduler.ready.members
  switches : ∃ loaded, b ∉ loaded ∧ h'.switches.toList = h.switches.toList ++ loaded
  stack : h'.sp = h.sp ∨ Block.base h'.sp ≠ b

namespace PassedOver

theorem of_same (hready : h'.scheduler.ready.members = h.scheduler.ready.members)
    (hswitches : h'.switches = h.switches) (hsp : h'.sp = h.sp) : PassedOver b h h' where
  ready := ⟨[], [], List.not_mem_nil, List.not_mem_nil, by rw [hready, List.append_nil]; rfl⟩
  switches := ⟨[], List.not_mem_nil, by rw [hswitches, List.append_nil]⟩
  stack := Or.inl hsp

theorem trans (hp : PassedOver b h h₁) (hp' : PassedOver b h₁ h') : PassedOver b h h' := by
  obtain ⟨⟨gone, joined, hgone, hjoined, hready⟩, ⟨loaded, hloaded, hswitches⟩, hsp⟩ := hp
  obtain ⟨⟨gone', joined', hgone', hjoined', hready'⟩, ⟨loaded', hloaded', hswitches'⟩, hsp'⟩ := hp'
  refine ⟨⟨gone ++ gone', joined ++ joined', List.not_mem_append hgone hgone',
    List.not_mem_append hjoined hjoined', ?_⟩, ⟨loaded ++ loaded',
    List.not_mem_append hloaded hloaded', ?_⟩, ?_⟩
  · rw [← List.append_assoc, hready, List.append_assoc, hready', List.append_assoc]
  · rw [hswitches', hswitches, List.append_assoc]
  · rcases hsp' with hsame | haway
    · rwa [hsame]
    · exact Or.inr haway

end PassedOver

/-- Between `h` and `h'` nothing at all happened to the thread in `b`. -/
structure Shuns (b : Nat) (h h' : Host) : Prop extends PassedOver b h h' where
  thread : h'.scheduler.threads.get b = h.scheduler.threads.get b

namespace Shuns

theorem of_same (hthread : h'.scheduler.threads.get b = h.scheduler.threads.get b)
    (hready : h'.scheduler.ready.members = h.scheduler.ready.members)
    (hswitches : h'.switches = h.switches) (hsp : h'.sp = h.sp) : Shuns b h h' :=
  ⟨.of_same hready hswitches hsp, hthread⟩

theorem refl (b : Nat) (h : Host) : Shuns b h h :=
  of_same rfl rfl rfl rfl

theorem trans (hs : Shuns b h h₁) (hs' : Shuns b h₁ h') : Shuns b h h' :=
  ⟨hs.toPassedOver.trans hs'.toPassedOver, hs'.thread.trans hs.thread⟩

/-- Other threads may join the ready queue. -/
theorem join {s : Scheduler} {joined : List Nat}
    (hthread : s.threads.get b = h.scheduler.threads.get b)
    (hready : s.ready.members = h.scheduler.ready.members ++ joined) (hnone : b ∉ joined) :
    Shuns b h (h.withScheduler s) where
  thread := hthread
  ready := ⟨[], joined, List.not_mem_nil, hnone, hready.symm⟩
  switches := ⟨[], List.not_mem_nil, (List.append_nil _).symm⟩
  stack := Or.inl rfl

end Shuns

/-- The thread in `r` runs, that in `b` has a wrong tag, and whoever else can be dispatched has
saved a stack pointer of its own block. -/
structure Tainted (h : Host) (r b : Nat) : Prop where
  here : Block.containing h.sp = .ok r
  wrong : ¬ (h.scheduler.threads.get b).IsValid
  stack : ∀ n, n ≠ r → n ∈ h.scheduler.ready.members ∨ h.scheduler.idle = some n →
    Block.base (h.scheduler.threads.get n).context.sp = n

namespace Tainted

/-- Who passes the check of the running thread is another thread. -/
theorem current (ht : h.Tainted r b) (hcurrent : h.IsCurrent n) : r = n ∧ b ≠ r := by
  obtain rfl := here_unique ht.here hcurrent.here
  refine ⟨rfl, ?_⟩
  rintro rfl
  exact ht.wrong hcurrent.intact

/-- The running thread works on its own control block, and may become ready. -/
theorem own {s : Scheduler} {joined : List Nat} (ht : h.Tainted r b) (hne : b ≠ r)
    (hget : ∀ c, c ≠ r → s.threads.get c = h.scheduler.threads.get c)
    (hidle : s.idle = h.scheduler.idle)
    (hready : s.ready.members = h.scheduler.ready.members ++ joined)
    (hjoined : ∀ c ∈ joined, c = r) :
    Shuns b h (h.withScheduler s) ∧ (h.withScheduler s).Tainted r b := by
  have hnone : b ∉ joined := fun hmem => hne (hjoined b hmem)
  refine ⟨.join (hget b hne) hready hnone, ht.here, ?_, ?_⟩
  · rw [scheduler_withScheduler, hget b hne]
    exact ht.wrong
  · intro n hnr hn
    rw [scheduler_withScheduler, hready, hidle, List.mem_append] at hn
    rw [scheduler_withScheduler, hget n hnr]
    refine ht.stack n hnr (hn.imp_left fun hmem => hmem.resolve_right fun hmem => ?_)
    exact hnr (hjoined n hmem)

theorem mark (ht : h.Tainted r b) (hne : b ≠ r) (status : Status) :
    Shuns b h (h.withScheduler (h.scheduler.mark r status)) ∧
      (h.withScheduler (h.scheduler.mark r status)).Tainted r b := by
  have hget : ∀ c, c ≠ r →
      (h.scheduler.mark r status).threads.get c = h.scheduler.threads.get c := by
    intro c hc
    rw [get_mark, if_neg (Ne.symm hc)]
  exact ht.own hne hget rfl (List.append_nil _).symm nofun

end Tainted

/-- The stack pointer with which a dispatched thread goes on. -/
theorem context_of_elected (s : Scheduler) (r n : Nat) :
    (((s.elect n).park r).threads.get n).context = (s.threads.get n).context :=
  ((SameRegisters.elect s n).trans (.park _ r)).context n

/-- A thread that is dispatched goes on with a stack pointer of its own block. -/
theorem Tainted.goes_on (ht : h.Tainted r b) (hd : h.Dispatches r n) (hne : b ≠ n) :
    (∃ loaded, b ∉ loaded ∧
        (h.dispatched r n).switches.toList = h.switches.toList ++ loaded) ∧
      ((h.dispatched r n).sp = h.sp ∨ Block.base (h.dispatched r n).sp ≠ b) := by
  unfold dispatched
  by_cases hself : r = n
  · rw [if_pos hself]
    exact ⟨⟨[], List.not_mem_nil, (List.append_nil _).symm⟩, Or.inl rfl⟩
  · rw [if_neg hself]
    have hcandidate : n ∈ h.scheduler.ready.members ∨ h.scheduler.idle = some n := by
      have hnext := hd.next
      cases hmembers : h.scheduler.ready.members with
      | nil => exact Or.inr (by simpa [hmembers] using hnext)
      | cons first rest =>
          obtain rfl : first = n := by simpa [hmembers] using hnext
          exact Or.inl List.mem_cons_self
    have hbase : Block.base (((h.scheduler.elect n).park r).threads.get n).context.sp = n := by
      rw [context_of_elected]
      exact ht.stack n (Ne.symm hself) hcandidate
    refine ⟨⟨[n], List.mem_singleton.not.mpr hne, ?_⟩, Or.inr ?_⟩
    · change (h.switches.push (Block.base
        (((h.scheduler.elect n).park r).threads.get n).context.sp)).toList = _
      rw [hbase, Array.toList_push]
    · change Block.base (((h.scheduler.elect n).park r).threads.get n).context.sp ≠ b
      rw [hbase]
      exact Ne.symm hne

theorem shuns_schedule (ht : h.Tainted r b) (hne : b ≠ r)
    (hrun : (schedule : HostM Unit) h = .ok u h') : Shuns b h h' := by
  obtain ⟨source, n, hdispatches, rfl⟩ := schedule_eq_ok_iff.mp hrun
  obtain rfl := here_unique ht.here hdispatches.here
  have hbn : b ≠ n := by
    rintro rfl
    exact ht.wrong hdispatches.intact
  have hd := hdispatches.dispatched
  obtain ⟨hswitches, hstack⟩ := ht.goes_on hdispatches hbn
  refine ⟨⟨?_, hswitches, hstack⟩, hd.get_of_neither hne hbn⟩
  rw [hd.ready_eq]
  have hnext := hdispatches.next
  cases hmembers : h.scheduler.ready.members with
  | nil => exact ⟨[], [], List.not_mem_nil, List.not_mem_nil, rfl⟩
  | cons first rest =>
      obtain rfl : first = n := by simpa [hmembers] using hnext
      exact ⟨[first], [], List.mem_singleton.not.mpr hbn, List.not_mem_nil, List.append_nil _⟩

/-- Exited threads are taken back one after another, and nothing happens to all others. -/
theorem shuns_reclaim {running count : Nat} (hdead : b ∉ h.scheduler.destruction.members)
    (hrun : (reclaim running count : HostM Unit) h = .ok u h') :
    Shuns b h h' ∧ (h.Tainted r b → h'.Tainted r b) := by
  induction count generalizing h with
  | zero =>
      obtain ⟨-, rfl⟩ := pure_eq_ok_iff.mp hrun
      exact ⟨.refl b h', id⟩
  | succ count ih =>
      cases hmembers : h.scheduler.destruction.members with
      | nil =>
          rw [reclaim_eq_ok_iff_of_nil hmembers] at hrun
          subst hrun
          exact ⟨.refl b h', id⟩
      | cons victim rest =>
          rw [reclaim_eq_ok_iff_of_cons hmembers] at hrun
          obtain ⟨-, -, pool, -, hrest⟩ := hrun
          rw [hmembers, List.mem_cons, not_or] at hdead
          have hget : ∀ c, c ≠ victim →
              (h.reaped victim pool).scheduler.threads.get c = h.scheduler.threads.get c := by
            intro c hc
            exact (get_exhume h.scheduler victim c).trans (if_neg (Ne.symm hc))
          have hleft : (h.reaped victim pool).scheduler.destruction.members = rest := by
            change h.scheduler.destruction.members.tail = rest
            rw [hmembers]
            rfl
          obtain ⟨hrestShuns, hrestTainted⟩ := ih (by rw [hleft]; exact hdead.2) hrest
          have hfirst : Shuns b h (h.reaped victim pool) := .of_same (hget b hdead.1) rfl rfl rfl
          refine ⟨hfirst.trans hrestShuns, fun ht => hrestTainted ⟨ht.here, ?_, ?_⟩⟩
          · rw [hget b hdead.1]
            exact ht.wrong
          · intro n hnr hn
            have hcontext : ((h.reaped victim pool).scheduler.threads.get n).context =
                (h.scheduler.threads.get n).context :=
              (SameRegisters.exhume h.scheduler victim).context n
            rw [hcontext]
            exact ht.stack n hnr hn

theorem shuns_doSchedule {status : Status} (ht : h.Tainted r b)
    (hdead : b ∉ h.scheduler.destruction.members)
    (hrun : (doSchedule status : HostM Unit) h = .ok u h') : b ≠ r ∧ Shuns b h h' := by
  obtain ⟨-, _, hcurrent, h₁, hreclaim, hschedule⟩ := doSchedule_eq_ok_iff.mp hrun
  obtain ⟨rfl, hne⟩ := ht.current hcurrent
  obtain ⟨hback, hkeeps⟩ := shuns_reclaim hdead hreclaim
  obtain ⟨hmarked, ht'⟩ := (hkeeps ht).mark hne status
  exact ⟨hne, (hback.trans hmarked).trans (shuns_schedule ht' hne hschedule)⟩

/-- Flags of the processor and the log do not matter. -/
theorem Tainted.congr (ht : h.Tainted r b) (hscheduler : h'.scheduler = h.scheduler)
    (hsp : h'.sp = h.sp) : h'.Tainted r b :=
  ⟨hsp ▸ ht.here, hscheduler ▸ ht.wrong, hscheduler ▸ ht.stack⟩

theorem shuns_withLevel (b : Nat) (h : Host) (level : Level) : Shuns b h (h.withLevel level) :=
  .of_same rfl rfl rfl rfl

theorem shuns_block (ht : h.Tainted r b) (hrun : (block : HostM Unit) h = .ok u h') :
    b ≠ r ∧ Shuns b h h' := by
  obtain ⟨-, -, _, hcurrent, hschedule⟩ := block_eq_ok_iff.mp hrun
  obtain ⟨rfl, hne⟩ := ht.current hcurrent
  obtain ⟨hmarked, ht'⟩ := ht.mark hne .blocked
  exact ⟨hne, hmarked.trans (shuns_schedule ht' hne hschedule)⟩

theorem shuns_idlePass (ht : h.Tainted r b) (hrun : (idlePass : HostM Unit) h = .ok u h') :
    b ≠ r ∧ Shuns b h h' := by
  obtain ⟨h₁, hblock, -, rfl⟩ := idlePass_eq_ok_iff.mp hrun
  have ht' : (h.withLevel .off).Tainted r b := ht.congr rfl rfl
  obtain ⟨hne, hblocked⟩ := shuns_block ht' hblock
  exact ⟨hne, ((shuns_withLevel b h .off).trans hblocked).trans (.of_same rfl rfl rfl rfl)⟩

theorem shuns_yieldNow (ht : h.Tainted r b) (hdead : b ∉ h.scheduler.destruction.members)
    (hrun : (yieldNow : HostM Unit) h = .ok u h') : b ≠ r ∧ Shuns b h h' := by
  obtain ⟨-, _, hcurrent, h₁, hyields, rfl⟩ := yieldNow_eq_ok_iff.mp hrun
  obtain ⟨rfl, hne⟩ := ht.current hcurrent
  have ht' : (h.withLevel .off).Tainted r b := ht.congr rfl rfl
  have hleft : Shuns b h h₁ := by
    rcases hyields with ⟨-, hdo⟩ | ⟨-, -, hdo⟩
    · exact (shuns_withLevel b h .off).trans (shuns_doSchedule ht' hdead hdo).2
    · have hget : ∀ c, c ≠ r →
          (h.scheduler.enqueue r).threads.get c = h.scheduler.threads.get c := by
        intro c hc
        rw [get_enqueue, if_neg (Ne.symm hc)]
      obtain ⟨hqueued, hqueuedTainted⟩ := ht'.own hne hget rfl rfl
        fun c hc => List.mem_singleton.mp hc
      exact ((shuns_withLevel b h .off).trans hqueued).trans
        (shuns_doSchedule hqueuedTainted hdead hdo).2
  exact ⟨hne, hleft.trans (shuns_withLevel b h₁ h.level)⟩

theorem shuns_retire (ht : h.Tainted r b) (hdead : b ∉ h.scheduler.destruction.members)
    (hrun : (retire : HostM Unit) h = .ok u h') : b ≠ r ∧ Shuns b h h' := by
  obtain ⟨-, _, hcurrent, hdo⟩ := retire_eq_ok_iff.mp hrun
  obtain ⟨rfl, hne⟩ := ht.current hcurrent
  have hstart : ∀ record, Shuns b h ((h.withLevel .off).logged record) ∧
      ((h.withLevel .off).logged record).Tainted r b :=
    fun record => ⟨.of_same rfl rfl rfl rfl, ht.congr rfl rfl⟩
  exact ⟨hne, (hstart _).1.trans (shuns_doSchedule (hstart _).2 hdead hdo).2⟩

theorem shuns_sleepUntil {wake : Nat} (ht : h.Tainted r b)
    (hrun : (sleepUntil wake : HostM Unit) h = .ok u h') : b ≠ r ∧ Shuns b h h' := by
  obtain ⟨-, -, _, hcurrent, -, -, hblock⟩ := sleepUntil_eq_ok_iff.mp hrun
  obtain ⟨rfl, hne⟩ := ht.current hcurrent
  have hget : ∀ c, c ≠ r →
      (h.scheduler.putToSleep r wake).threads.get c = h.scheduler.threads.get c := by
    intro c hc
    rw [get_putToSleep, if_neg (Ne.symm hc)]
  obtain ⟨hslept, ht'⟩ := ht.own hne hget rfl (List.append_nil _).symm nofun
  exact ⟨hne, hslept.trans (shuns_block ht' hblock).2⟩

/-- A sleep that lasts checks who sleeps, and one that does not changes nothing. -/
theorem shuns_sleep {ticks : Nat} (ht : h.Tainted r b)
    (hrun : (Scheduler.sleep ticks : HostM Unit) h = .ok u h') :
    (ticks ≠ 0 ∧ b ≠ r ∧ Shuns b h h') ∨ (ticks = 0 ∧ h' = h) := by
  obtain ⟨-, ⟨hzero, hsame⟩ | ⟨hpos, -, h₁, hsleep, rfl⟩⟩ := sleep_eq_ok_iff.mp hrun
  · exact Or.inr ⟨hzero, hsame⟩
  · have ht' : (h.withLevel .off).Tainted r b := ht.congr rfl rfl
    obtain ⟨hne, hslept⟩ := shuns_sleepUntil ht' hsleep
    exact Or.inl ⟨hpos, hne, ((shuns_withLevel b h .off).trans hslept).trans
      (shuns_withLevel b h₁ .on)⟩

theorem shuns_setPriority {priority : Nat} (ht : h.Tainted r b)
    (hrun : (setPriority priority : HostM Unit) h = .ok u h') : b ≠ r ∧ Shuns b h h' := by
  obtain ⟨-, _, hcurrent, rfl⟩ := setPriority_eq_ok_iff.mp hrun
  obtain ⟨rfl, hne⟩ := ht.current hcurrent
  refine ⟨hne, .of_same ?_ rfl rfl rfl⟩
  rw [scheduler_withScheduler, get_alter, if_neg (Ne.symm hne)]

theorem shuns_tick (ht : h.Tainted r b) (hrun : (tick : HostM Unit) h = .ok u h') :
    b ≠ r ∧ Shuns b h h' := by
  obtain ⟨_, hcurrent, -, -, rfl⟩ := tick_eq_ok_iff.mp hrun
  obtain ⟨rfl, hne⟩ := ht.current hcurrent
  refine ⟨hne, ?_⟩
  simp only [ticked]
  split <;> exact .of_same rfl rfl rfl rfl

theorem shuns_unblock {c : Nat} (hwrong : ¬ (h.scheduler.threads.get b).IsValid)
    (hrun : (unblock c : HostM Unit) h = .ok u h') : Shuns b h h' := by
  obtain ⟨hvalid, -, -, rfl⟩ := unblock_eq_ok_iff.mp hrun
  have hne : b ≠ c := by
    rintro rfl
    exact hwrong hvalid
  refine .join ?_ rfl (List.mem_singleton.not.mpr hne)
  rw [get_makeReady, if_neg (Ne.symm hne)]

theorem shuns_wakeDue {now count : Nat} (hwrong : ¬ (h.scheduler.threads.get b).IsValid)
    (hrun : (wakeDue now count : HostM Unit) h = .ok u h') : Shuns b h h' := by
  induction count generalizing h with
  | zero =>
      obtain ⟨-, rfl⟩ := pure_eq_ok_iff.mp hrun
      exact .refl b h'
  | succ count ih =>
      by_cases hdue : h.scheduler.sleepers.Due h.scheduler.threads now
      · obtain ⟨wake, hwake, hle⟩ := hdue
        obtain ⟨c, hhead, htick⟩ := Option.bind_eq_some_iff.mp hwake
        obtain ⟨rest, hmembers⟩ := List.head?_eq_some_iff.mp hhead
        rw [wakeDue_eq_ok_iff_of_due hmembers htick hle] at hrun
        obtain ⟨-, hvalid, -, hrest⟩ := hrun
        have hne : b ≠ c := by
          rintro rfl
          exact hwrong hvalid
        have hget := get_rouse_of_ne (s := h.scheduler) hne
        have hfirst : Shuns b h (h.withScheduler (h.scheduler.rouse c)) :=
          .join hget rfl (List.mem_singleton.not.mpr hne)
        exact hfirst.trans (ih (by rw [scheduler_withScheduler, hget]; exact hwrong) hrest)
      · rw [wakeDue_eq_ok_iff_of_not_due hdue] at hrun
        rw [hrun]
        exact .refl b h

theorem shuns_wake {now : Nat} (hwrong : ¬ (h.scheduler.threads.get b).IsValid)
    (hrun : (wake now : HostM Unit) h = .ok u h') : Shuns b h h' :=
  shuns_wakeDue hwrong (wake_eq_ok_iff.mp hrun)

theorem shuns_timerInterrupt (ht : h.Tainted r b)
    (hrun : (timerInterrupt : HostM Unit) h = .ok u h') : b ≠ r ∧ Shuns b h h' := by
  obtain ⟨-, h₁, htick, hwake⟩ := timerInterrupt_eq_ok_iff.mp hrun
  have hadvanced : Shuns b h (h.withScheduler h.scheduler.advance) := .of_same rfl rfl rfl rfl
  have ht' : (h.withScheduler h.scheduler.advance).Tainted r b := ⟨ht.here, ht.wrong, ht.stack⟩
  obtain ⟨hne, hticked⟩ := shuns_tick ht' htick
  have hwrong : ¬ (h₁.scheduler.threads.get b).IsValid := by
    rw [(hadvanced.trans hticked).thread]
    exact ht.wrong
  exact ⟨hne, (hadvanced.trans hticked).trans (shuns_wake hwrong hwake)⟩

/-- A thread is created in a block that no live thread has. -/
theorem shuns_create {name : String} {priority entry arg : Nat} {res : Except SpawnError Nat}
    (hc : h.scheduler.Custody r) (hlive : h.scheduler.Live b)
    (hrun : (create name priority entry arg : HostM (Except SpawnError Nat)) h = .ok res h') :
    Shuns b h h' ∧ h'.sp = h.sp := by
  obtain ⟨-, ⟨-, -, rfl⟩ | ⟨c, h₁, hspawn, hunblock, -⟩⟩ := create_eq_ok_iff.mp hrun
  · exact ⟨.refl b h', rfl⟩
  · have hswitches : h₁.switches = h.switches := by
      obtain ⟨_, _, _, _, -, -, -, -, rfl⟩ := hspawn
      rfl
    obtain ⟨k, t, context, hslot, rfl, -, -, -, hscheduler, hsp⟩ :=
      hspawn.spawned hc.reclaimable.placed
    have hk := Pool.busy_of_freeSlot? hslot
    have hne : b ≠ h.scheduler.pool.slotAddress k :=
      fun heq => hc.housed.not_live_of_free hk (heq ▸ hlive)
    have hspawned : Shuns b h h₁ := by
      refine .of_same ?_ ?_ hswitches hsp
      · rw [hscheduler, get_spawned, if_neg (Ne.symm hne)]
      · rw [hscheduler, hc.housed.spawned_frame hc.linked hk]
    obtain ⟨-, -, -, rfl⟩ := unblock_eq_ok_iff.mp hunblock
    refine ⟨hspawned.trans (.join ?_ rfl (List.mem_singleton.not.mpr hne)), hsp⟩
    rw [get_makeReady, if_neg (Ne.symm hne)]

end RoundRobin.Host
