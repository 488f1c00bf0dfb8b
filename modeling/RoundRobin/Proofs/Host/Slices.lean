import Mathlib.Data.List.DropRight
import RoundRobin.Proofs.Host.Fairness

/-!
# Time slices

If only interrupts tick and a request to yield is honoured on the way out of the handler, no request
is left over, and the slice counter is the number of interrupts since the last scheduling step. So
an interrupt takes the processor away exactly if it is the one that uses up the slice.
-/

namespace RoundRobin

/-- The tick handler switches to no other stack. -/
theorem Scheduler.Step.sp_of_interrupt {s s' : Scheduler} {sp sp' r n : Nat}
    (hstep : Step s sp r .interrupt s' sp' n) : sp' = sp := by
  cases hstep with
  | departed hdeparts => cases hdeparts
  | interrupted => rfl

/-- A thread that is ready is dispatched by a yield. -/
theorem Roster.running_yield {m : Roster} {x : Nat} {rest : List Nat} (idle : Nat)
    (hready : m.ready = x :: rest) : (m.yield idle).running = x := by
  rw [yield]
  split <;> simp [dispatch, drain, append, hready]

namespace Host

open Scheduler

variable {h h' h₀ g : Host} {c : Call} {created : Option Nat} {ms : List Move} {u : Unit}
  {r main idle x : Nat}

/-- Where `act` returns, a request to yield is pending exactly if one was before. So it is with
every operation but the tick. -/
def KeepsRequest {α : Type} (act : HostM α) : Prop :=
  ∀ ⦃h a h'⦄, act h = .ok a h' → h'.yieldPending = h.yieldPending

theorem KeepsRequest.silently {α : Type} {act : HostM α} (hact : KeepsRequest act) :
    KeepsRequest (Call.silently act) := by
  intro h created h' hrun
  obtain ⟨-, a, hrun⟩ := Call.silently_eq_ok_iff.mp hrun
  exact hact hrun

theorem keepsRequest_schedule : KeepsRequest schedule := by
  intro h u h' hrun
  obtain ⟨source, target, -, rfl⟩ := schedule_eq_ok_iff.mp hrun
  unfold dispatched
  split <;> rfl

theorem keepsRequest_reclaim (r count : Nat) : KeepsRequest (reclaim r count) := by
  intro h u h' hrun
  induction count generalizing h with
  | zero =>
      obtain ⟨-, rfl⟩ := pure_eq_ok_iff.mp hrun
      rfl
  | succ count ih =>
      cases hmembers : h.scheduler.destruction.members with
      | nil =>
          rw [reclaim_eq_ok_iff_of_nil hmembers] at hrun
          rw [hrun]
      | cons b rest =>
          rw [reclaim_eq_ok_iff_of_cons hmembers] at hrun
          obtain ⟨-, -, pool, -, hrest⟩ := hrun
          exact (ih hrest).trans rfl

theorem keepsRequest_doSchedule (status : Status) : KeepsRequest (doSchedule status) := by
  intro h u h' hrun
  obtain ⟨-, r, -, h₁, hreclaim, hschedule⟩ := doSchedule_eq_ok_iff.mp hrun
  have hfreed := keepsRequest_reclaim _ _ hreclaim
  exact (keepsRequest_schedule hschedule).trans hfreed

theorem keepsRequest_block : KeepsRequest block := by
  intro h u h' hrun
  obtain ⟨-, -, r, -, hschedule⟩ := block_eq_ok_iff.mp hrun
  exact (keepsRequest_schedule hschedule).trans rfl

theorem keepsRequest_idlePass : KeepsRequest idlePass := by
  intro h u h' hrun
  obtain ⟨h₁, hblock, -, rfl⟩ := idlePass_eq_ok_iff.mp hrun
  exact (keepsRequest_block hblock).trans rfl

theorem keepsRequest_yieldNow : KeepsRequest yieldNow := by
  intro h u h' hrun
  obtain ⟨-, r, -, h₁, ⟨-, hdo⟩ | ⟨-, -, hdo⟩, rfl⟩ := yieldNow_eq_ok_iff.mp hrun
  · exact (keepsRequest_doSchedule _ hdo).trans rfl
  · exact (keepsRequest_doSchedule _ hdo).trans rfl

theorem keepsRequest_retire : KeepsRequest retire := by
  intro h u h' hrun
  obtain ⟨-, r, -, hdo⟩ := retire_eq_ok_iff.mp hrun
  exact (keepsRequest_doSchedule _ hdo).trans rfl

theorem keepsRequest_unblock (b : Nat) : KeepsRequest (unblock b) := by
  intro h u h' hrun
  obtain ⟨-, -, -, rfl⟩ := unblock_eq_ok_iff.mp hrun
  rfl

theorem keepsRequest_create (name : String) (priority entry arg : Nat) :
    KeepsRequest (Call.create name priority entry arg).perform := by
  intro h created h' hrun
  obtain ⟨_, _, hcreate, hrest⟩ := bind_eq_ok_iff.mp hrun
  obtain ⟨-, rfl⟩ := pure_eq_ok_iff.mp hrest
  obtain ⟨-, ⟨-, -, rfl⟩ | ⟨b, h₁, ⟨_, _, _, _, -, -, -, -, rfl⟩, hunblock, -⟩⟩ :=
    create_eq_ok_iff.mp hcreate
  · rfl
  · exact (keepsRequest_unblock b hunblock).trans rfl

theorem keepsRequest_sleepUntil (wake : Nat) : KeepsRequest (sleepUntil wake) := by
  intro h u h' hrun
  obtain ⟨-, -, r, -, -, -, hblock⟩ := sleepUntil_eq_ok_iff.mp hrun
  exact (keepsRequest_block hblock).trans rfl

theorem keepsRequest_sleep (ticks : Nat) : KeepsRequest (Scheduler.sleep ticks) := by
  intro h u h' hrun
  obtain ⟨-, ⟨-, rfl⟩ | ⟨-, -, h₁, hsleep, rfl⟩⟩ := sleep_eq_ok_iff.mp hrun
  · rfl
  · exact (keepsRequest_sleepUntil _ hsleep).trans rfl

theorem keepsRequest_sleepFor (num denom : Nat) : KeepsRequest (sleepFor num denom) := by
  intro h u h' hrun
  exact keepsRequest_sleep _ (sleepFor_eq_ok_iff.mp hrun).2.2.2

theorem keepsRequest_wake (now : Nat) : KeepsRequest (wake now) := by
  intro h u h' hrun
  rw [frame_wakeDue (wake_eq_ok_iff.mp hrun)]
  rfl

theorem keepsRequest_setPriority (priority : Nat) : KeepsRequest (setPriority priority) := by
  intro h u h' hrun
  obtain ⟨-, r, -, rfl⟩ := setPriority_eq_ok_iff.mp hrun
  rfl

theorem keepsRequest_setLevel (level : Level) : KeepsRequest (Port.setLevel level) := by
  intro h old h' hrun
  obtain ⟨-, rfl⟩ := setLevel_eq_ok_iff.mp hrun
  rfl

/-- A call of a kernel that leaves the ticks to interrupts asks for no yield. -/
theorem Call.quiet (hallowed : (Turn.call c).Allowed h) (hquiet : h.yieldPending = false)
    (hperforms : c.perform h = .ok created h') : h'.yieldPending = false := by
  suffices c = .takeYield ∨ KeepsRequest c.perform by
    rcases this with rfl | hkeeps
    · obtain ⟨-, _, htake⟩ := silently_eq_ok_iff.mp hperforms
      cases htake
      rfl
    · rw [hkeeps hperforms, hquiet]
  cases c with
  | tick => exact absurd rfl hallowed.2.1
  | timerInterrupt => exact absurd rfl hallowed.2.2
  | takeYield => exact Or.inl rfl
  | create => exact Or.inr (keepsRequest_create ..)
  | yieldNow => exact Or.inr keepsRequest_yieldNow.silently
  | block => exact Or.inr keepsRequest_block.silently
  | unblock => exact Or.inr (keepsRequest_unblock _).silently
  | retire => exact Or.inr keepsRequest_retire.silently
  | idlePass => exact Or.inr keepsRequest_idlePass.silently
  | sleep => exact Or.inr (keepsRequest_sleep _).silently
  | sleepUntil => exact Or.inr (keepsRequest_sleepUntil _).silently
  | msleep | usleep | nsleep => exact Or.inr (keepsRequest_sleepFor _ _).silently
  | wake => exact Or.inr (keepsRequest_wake _).silently
  | setPriority => exact Or.inr (keepsRequest_setPriority _).silently
  | setLevel => exact Or.inr (keepsRequest_setLevel _).silently
  | setInInterrupt =>
      refine Or.inr (KeepsRequest.silently fun h u h' hrun => ?_)
      cases hrun
      rfl

/-- The number of timer interrupts since the last scheduling step, or since the beginning. -/
def sinceDispatch (ms : List Move) : Nat :=
  interrupts (ms.rtakeWhile (·.dispatched.isNone))

theorem sinceDispatch_snoc (ms : List Move) (m : Move) :
    sinceDispatch (ms ++ [m]) =
      if m.dispatched.isNone then sinceDispatch ms + if m.turn = .interrupt then 1 else 0
      else 0 := by
  by_cases hnone : m.dispatched.isNone = true
  · rw [if_pos hnone, sinceDispatch,
      List.rtakeWhile_concat_pos (fun m : Move => m.dispatched.isNone) _ _ hnone, interrupts_snoc]
    rfl
  · rw [if_neg hnone, sinceDispatch,
      List.rtakeWhile_concat_neg (fun m : Move => m.dispatched.isNone) _ _ hnone]
    rfl

/-- Between two turns no request is left over, and the slice counter is the number of interrupts
since the last scheduling step, which is a part of a slice. -/
structure SliceKept (ms : List Move) (h : Host) : Prop where
  quiet : h.yieldPending = false
  sliceTicks_eq : h.scheduler.sliceTicks = sinceDispatch ms
  part : sinceDispatch ms < Config.timeSlice

namespace SliceKept

theorem isNone_dispatched (turn : Turn) :
    (Move.between h turn h').dispatched.isNone = !turn.schedules h := by
  cases hschedules : turn.schedules h <;> simp [Move.between, hschedules]

/-- The handler asks for a yield exactly if the interrupt is the last one of the slice. -/
theorem yieldPending_iff (hk : SliceKept ms h) (hrun : Host.interrupt h = .ok u g) :
    g.yieldPending = true ↔ sinceDispatch ms + 1 = Config.timeSlice := by
  have hpart := hk.part
  rw [(sliceTicks_of_interrupt hrun).2, hk.quiet, Bool.false_or, decide_eq_true_iff,
    hk.sliceTicks_eq]
  omega

theorem snoc_call (hk : SliceKept ms h) (ho : h.Orderly r) (hallowed : (Turn.call c).Allowed h)
    (hperforms : c.perform h = .ok created h') :
    SliceKept (ms ++ [.between h (.call c) h']) h' := by
  have hslice := Call.sliceTicks_eq ho hallowed hperforms
  have hsince := sinceDispatch_snoc ms (.between h (.call c) h')
  have hturn : (Move.between h (.call c) h').turn ≠ .interrupt := nofun
  have hschedules : (Turn.call c).schedules h = (c.action h).schedules := rfl
  rw [isNone_dispatched, if_neg hturn, hschedules] at hsince
  have hpart := hk.part
  refine ⟨Call.quiet hallowed hk.quiet hperforms, ?_, ?_⟩
  · rw [hslice, hsince, hk.sliceTicks_eq]
    cases (c.action h).schedules <;> rfl
  · rw [hsince]
    cases (c.action h).schedules with
    | true => exact Nat.zero_lt_succ _
    | false => exact hpart

/-- The last interrupt of a slice ends in a scheduling step, and any other one leaves the thread
the rest of its slice. -/
theorem snoc_interrupt (hk : SliceKept ms h) (hs : h.Ordered main idle)
    (hperforms : interruptAndPreempt h = .ok u h') :
    SliceKept (ms ++ [.between h .interrupt h']) h' := by
  obtain ⟨g, hinterrupt, hyields⟩ := yields_of_interruptAndPreempt hperforms
  have hslice := (sliceTicks_of_interrupt hinterrupt).1
  have hlast := hk.yieldPending_iff hinterrupt
  have hsince := sinceDispatch_snoc ms (.between h .interrupt h')
  have hturn : (Move.between h .interrupt h').turn = .interrupt := rfl
  rw [isNone_dispatched, if_pos hturn, Turn.schedules_of_interrupt hinterrupt] at hsince
  rcases hyields with ⟨hpending, hyield⟩ | ⟨hpending, rfl⟩
  · rw [hpending] at hsince
    have hmiddle := (hs.interrupt hinterrupt).1
    refine ⟨(keepsRequest_yieldNow hyield).trans rfl, ?_, ?_⟩
    · rw [hsince]
      exact hmiddle.sliceTicks_of_yield hyield
    · rw [hsince]
      exact Nat.zero_lt_succ _
  · rw [hpending] at hsince hlast
    have hmore : sinceDispatch ms + 1 ≠ Config.timeSlice := fun heq => nomatch hlast.mpr heq
    have hpart := hk.part
    refine ⟨rfl, ?_, ?_⟩
    · change g.scheduler.sliceTicks = _
      rw [hslice, hsince, hk.sliceTicks_eq]
      rfl
    · rw [hsince]
      change sinceDispatch ms + 1 < Config.timeSlice
      omega

end SliceKept

theorem Booted.sliceTicks_eq (hbooted : h.Booted) : h.scheduler.sliceTicks = 0 := by
  rw [hbooted.scheduler_eq]

theorem Course.sliceKept (hbooted : h₀.Booted) (hquiet : h₀.yieldPending = false)
    (hs : h₀.Ordered main idle) (hcourse : Course h₀ ms h) :
    h.Ordered main idle ∧ SliceKept ms h := by
  induction hcourse with
  | nil => exact ⟨hs, hquiet, hbooted.sliceTicks_eq, by decide⟩
  | @snoc ms h h' turn hcourse hallowed hperforms ih =>
      obtain ⟨hbefore, hk⟩ := ih
      refine ⟨(hbefore.rotates hallowed hperforms).1, ?_⟩
      cases turn with
      | call c =>
          obtain ⟨created, g, hcall, hrest⟩ := bind_eq_ok_iff.mp hperforms
          obtain ⟨-, rfl⟩ := pure_eq_ok_iff.mp hrest
          obtain ⟨r, ho⟩ := hbefore.orderly
          exact hk.snoc_call ho hallowed hcall
      | interrupt => exact hk.snoc_interrupt hbefore hperforms

theorem interruptAndPreempt_of_interrupt (hrun : Host.interrupt h = .ok u g) :
    interruptAndPreempt h =
      if g.yieldPending then (yieldNow : HostM Unit) g.withoutRequest
      else .ok () g.withoutRequest := by
  have htake : takeYield g = .ok g.yieldPending g.withoutRequest := rfl
  rw [interruptAndPreempt, bind_of_ok hrun, bind_of_ok htake]
  cases g.yieldPending <;> rfl

theorem withoutRequest_of_not (hnone : g.yieldPending = false) : g.withoutRequest = g := by
  rw [withoutRequest, ← hnone]

/-- The handler returns to the thread that it interrupted. -/
theorem sp_of_interrupt (hrun : Host.interrupt h = .ok u g) : g.sp = h.sp := by
  obtain ⟨g', htimer, rfl⟩ := timerInterrupt_of_interrupt hrun
  have htakes : (h.withIrq true).Takes (Block.base h.sp) .interrupt g' (Block.base h.sp) :=
    takes_timerInterrupt htimer
  exact htakes.sp_of_interrupt

/-- A thread that is ready is not the one that runs. -/
theorem Ordered.ne_running_of_ready (hs : h.Ordered main idle) (hx : x ∈ h.roster.ready) :
    x ≠ h.roster.running := by
  obtain ⟨r, ho⟩ := hs.orderly
  rw [ho.roster_eq] at hx ⊢
  rintro rfl
  have howner := (ho.settled.linked.ready.mem_iff _).mp hx
  rw [ho.settled.here.owner] at howner
  cases howner

/-- The thread that yields after an interrupt gives way to the first one that is ready. -/
theorem Ordered.relieved {rest : List Nat} (hs : h.Ordered main idle)
    (hrun : Host.interrupt h = .ok u g)
    (hyield : (yieldNow : HostM Unit) g.withoutRequest = .ok u h')
    (hready : (h.roster.release (h.scheduler.ticks + 1)).ready = x :: rest) :
    h'.roster.running = x ∧ x ≠ h.roster.running := by
  obtain ⟨hmiddle, hlists⟩ := hs.interrupt hrun
  have hwaits : g.withoutRequest.roster.ready = x :: rest := by rw [hlists, hready]
  have hruns : g.withoutRequest.roster.running = h.roster.running := by
    rw [hlists]
    rfl
  constructor
  · rw [(hmiddle.yield hyield).2]
    exact Roster.running_yield idle hwaits
  · rw [← hruns]
    exact hmiddle.ne_running_of_ready (hwaits ▸ List.mem_cons_self)

namespace SliceKept

/-- The last interrupt of a slice ends in a yield, and any other one with its handler. -/
theorem preempts (hk : SliceKept ms h) (hrun : Host.interrupt h = .ok u g) :
    interruptAndPreempt h =
      if sinceDispatch ms + 1 = Config.timeSlice then (yieldNow : HostM Unit) g.withoutRequest
      else .ok () g := by
  have hlast := hk.yieldPending_iff hrun
  rw [interruptAndPreempt_of_interrupt hrun]
  by_cases hfull : sinceDispatch ms + 1 = Config.timeSlice
  · rw [if_pos hfull, if_pos (hlast.mpr hfull)]
  · have hnone : g.yieldPending = false := by
      rw [Bool.eq_false_iff]
      exact mt hlast.mp hfull
    rw [if_neg hfull, hnone, withoutRequest_of_not hnone]
    rfl

theorem undisturbed (hk : SliceKept ms h) (hs : h.Ordered main idle)
    (hmore : sinceDispatch ms + 1 < Config.timeSlice) (hrun : interruptAndPreempt h = .ok u h') :
    h'.sp = h.sp ∧ h'.roster = h.roster.release (h.scheduler.ticks + 1) := by
  obtain ⟨g, hinterrupt, ⟨hpending, -⟩ | ⟨-, rfl⟩⟩ := yields_of_interruptAndPreempt hrun
  · have hfull := (hk.yieldPending_iff hinterrupt).mp hpending
    omega
  · have hsp : g.sp = h.sp := sp_of_interrupt hinterrupt
    exact ⟨hsp, (hs.interrupt hinterrupt).2⟩

theorem relieved {rest : List Nat} (hk : SliceKept ms h) (hs : h.Ordered main idle)
    (hfull : sinceDispatch ms + 1 = Config.timeSlice) (hrun : interruptAndPreempt h = .ok u h')
    (hready : (h.roster.release (h.scheduler.ticks + 1)).ready = x :: rest) :
    h'.roster.running = x ∧ x ≠ h.roster.running := by
  obtain ⟨g, hinterrupt, ⟨-, hyield⟩ | ⟨hnone, -⟩⟩ := yields_of_interruptAndPreempt hrun
  · exact hs.relieved hinterrupt hyield hready
  · rw [(hk.yieldPending_iff hinterrupt).mpr hfull] at hnone
    cases hnone

end SliceKept

/-- What is known of time slices after the moves `ms`. -/
structure Sliced (ms : List Move) (h : Host) : Prop extends SliceKept ms h where
  /-- The slice counter does not outgrow its word. -/
  fits : h.scheduler.sliceTicks + 1 < Word.limit32
  /-- An interrupt forces a yield exactly if it is the last one of the slice. -/
  forced_iff : ∀ g, Host.interrupt h = .ok () g →
    (Turn.interrupt.schedules h = true ↔ sinceDispatch ms + 1 = Config.timeSlice) ∧
      interruptAndPreempt h =
        if sinceDispatch ms + 1 = Config.timeSlice then (yieldNow : HostM Unit) g.withoutRequest
        else .ok () g
  /-- Before that, the interrupted thread runs on, and sleepers that are due become ready. -/
  undisturbed : sinceDispatch ms + 1 < Config.timeSlice → ∀ h',
    interruptAndPreempt h = .ok () h' →
      h'.sp = h.sp ∧ h'.roster = h.roster.release (h.scheduler.ticks + 1)
  /-- Then the thread gives way to the first one that is ready, if there is one. -/
  relieved : sinceDispatch ms + 1 = Config.timeSlice → ∀ h',
    interruptAndPreempt h = .ok () h' → ∀ x rest,
      (h.roster.release (h.scheduler.ticks + 1)).ready = x :: rest →
        h'.roster.running = x ∧ x ≠ h.roster.running
  /-- Slices are kept also past the life of a thread. -/
  life : ∀ (body : HostM Unit) ms' g h', body (h.withLevel .on) = .ok () g →
    Course (h.withLevel .on) ms' g → Kernel g .retire →
      (Scheduler.runThread body : HostM Unit) h = .ok () h' →
        SliceKept (ms ++ lifeMoves h ms' g h') h'

/-- Let a kernel boot on a processor on which no yield is asked for, and let only interrupts tick,
whose request to yield is honoured at once. However it goes on, slices are exact: no request is
left over, the slice counter is the number of interrupts since the last scheduling step, and the
running thread gives way in an interrupt exactly if that is the last one of its slice. -/
theorem Course.slices_exactly (hbooted : h₀.Booted) (hquiet : h₀.yieldPending = false)
    (hcourse : Course h₀ ms h) : Sliced ms h := by
  obtain ⟨main, idle, hafter⟩ := hbooted.after
  have hstart : h₀.Ordered main idle := ⟨⟨main, hafter.orderly⟩, hafter.ledger.toNamed⟩
  obtain ⟨hs, hk⟩ := hcourse.sliceKept hbooted hquiet hstart
  refine {
    toSliceKept := hk
    fits := ?_
    forced_iff := fun g hinterrupt => ?_
    undisturbed := fun hmore h' hruns => hk.undisturbed hs hmore hruns
    relieved := fun hfull h' hruns x rest hready => hk.relieved hs hfull hruns hready
    life := fun body ms' g h' hbody hrest hallowed hlife =>
      ((hcourse.runThread hbody hrest hallowed hlife).sliceKept hbooted hquiet hstart).2 }
  · have hpart := hk.part
    rw [hk.sliceTicks_eq]
    simp only [Config.timeSlice, Word.limit32] at *
    omega
  · rw [Turn.schedules_of_interrupt hinterrupt]
    exact ⟨hk.yieldPending_iff hinterrupt, hk.preempts hinterrupt⟩

/-- The boot thread is preempted after four ticks, the thread it created yields after one, and two
more ticks follow. -/
def slicesSample : List Move × Host :=
  follow [] sample
    [.call (.create "a" 3 threadBody 7), .interrupt, .interrupt, .interrupt, .interrupt, .interrupt,
      .call .yieldNow, .interrupt, .interrupt]

theorem slices_exactly_sample :
    sample.Booted ∧ sample.yieldPending = false ∧ Course sample slicesSample.1 slicesSample.2 ∧
      dispatches slicesSample.1 = [0x40001000, 0x100000000] ∧ sinceDispatch slicesSample.1 = 2 ∧
      slicesSample.2.scheduler.sliceTicks = 2 ∧ Sliced slicesSample.1 slicesSample.2 := by
  have hquiet : sample.yieldPending = false := by decide +kernel
  have hcourse : Course sample slicesSample.1 slicesSample.2 := Course.nil.follow _
  exact ⟨booted_sample, hquiet, hcourse, by decide +kernel, by decide +kernel, by decide +kernel,
    Course.slices_exactly booted_sample hquiet hcourse⟩

end Host

end RoundRobin
