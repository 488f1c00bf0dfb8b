import RoundRobin.Proofs.Host.Refinement
import RoundRobin.Proofs.Scheduler.Rotation

/-!
# No thread starves

A thread that is ready moves up by one place with every scheduling step, and the time slice sees to
it that scheduling steps do come. So it runs after as many of them as there are threads before it,
and within a time slice for each of these and one more.
-/

namespace RoundRobin.Host

open Scheduler

variable {h h' h₀ h₁ : Host} {es : List Event} {c : Call} {created : Option Nat}
  {u : Unit} {r main idle i x : Nat}

/-- What happens next: a call of the running thread, or a timer interrupt after which a request to
yield is honoured at once. -/
inductive Turn where
  | call (call : Call)
  | interrupt
  deriving DecidableEq

namespace Turn

/-- Take a turn. -/
def perform : Turn → HostM Unit
  | call c => do
    let _ ← c.perform
  | interrupt => interruptAndPreempt

/-- A kernel makes its calls, but for the ticks, which interrupts alone deliver. -/
def Allowed (h : Host) : Turn → Prop
  | call c => Kernel h c ∧ c ≠ .tick ∧ c ≠ .timerInterrupt
  | interrupt => True

instance decidableAllowed (h : Host) : (turn : Turn) → Decidable (turn.Allowed h)
  | call c => inferInstanceAs (Decidable (Kernel h c ∧ c ≠ .tick ∧ c ≠ .timerInterrupt))
  | interrupt => isTrue trivial

/-- Whether the turn reaches the scheduling step: the call gives up the processor, or the handler
leaves a request to yield. -/
def schedules (h : Host) : Turn → Bool
  | call c => (c.action h).schedules
  | interrupt =>
    match Host.interrupt h with
    | .ok _ h' => h'.yieldPending
    | .error _ _ => false

end Turn

/-- A turn and what became of it. -/
structure Move where
  turn : Turn
  /-- Block of the thread that was dispatched, if the turn reached the scheduling step. -/
  dispatched : Option Nat

/-- The move from `h` to `h'`. -/
def Move.between (h : Host) (turn : Turn) (h' : Host) : Move :=
  { turn, dispatched := if turn.schedules h then some (Block.base h'.sp) else none }

/-- Turns taken one after another from `h₀` on, none of which halts. -/
inductive Course (h₀ : Host) : List Move → Host → Prop
  | nil : Course h₀ [] h₀
  | snoc {ms : List Move} {h h' : Host} {turn : Turn} (course : Course h₀ ms h)
      (allowed : turn.Allowed h) (performs : turn.perform h = .ok () h') :
      Course h₀ (ms ++ [.between h turn h']) h'

/-- Take turns one after another, up to the first that is not allowed or halts. Gives the moves,
behind the earlier ones `ms`, and the host they lead to. -/
def follow (ms : List Move) (h : Host) : List Turn → List Move × Host
  | [] => (ms, h)
  | turn :: rest =>
    if turn.Allowed h then
      match turn.perform h with
      | .ok _ h' => follow (ms ++ [.between h turn h']) h' rest
      | .error _ _ => (ms, h)
    else
      (ms, h)

theorem Course.follow {ms : List Move} (hcourse : Course h₀ ms h) (turns : List Turn) :
    Course h₀ (Host.follow ms h turns).1 (Host.follow ms h turns).2 := by
  induction turns generalizing ms h with
  | nil => exact hcourse
  | cons turn rest ih =>
      rw [Host.follow]
      by_cases hallowed : turn.Allowed h
      · rw [if_pos hallowed]
        cases hperforms : turn.perform h with
        | ok u h' => exact ih (.snoc hcourse hallowed hperforms)
        | error cause h' => exact hcourse
      · rw [if_neg hallowed]
        exact hcourse

/-- The moves of the life of a thread that is entered on `h` and left on `h'`, when its body makes
the moves `ms` and ends on `g`. -/
def lifeMoves (h : Host) (ms : List Move) (g h' : Host) : List Move :=
  .between h (.call (.setLevel .on)) (h.withLevel .on) :: ms ++ [.between g (.call .retire) h']

namespace Course

variable {ms ms' : List Move}

theorem append (hcourse : Course h₀ ms h) (hrest : Course h ms' h') :
    Course h₀ (ms ++ ms') h' := by
  induction hrest with
  | nil => rwa [List.append_nil]
  | snoc _ hallowed hperforms ih =>
      rw [← List.append_assoc]
      exact .snoc ih hallowed hperforms

theorem snoc_call (hcourse : Course h₀ ms h) (hallowed : (Turn.call c).Allowed h)
    (hperforms : c.perform h = .ok created h') :
    Course h₀ (ms ++ [.between h (.call c) h']) h' :=
  .snoc hcourse hallowed (bind_eq_ok_iff.mpr ⟨created, h', hperforms, rfl⟩)

/-- The life of a thread is a course if its body is one, and the thread may exit at the end. -/
theorem runThread {body : HostM Unit} {g : Host} (hcourse : Course h₀ ms h)
    (hbody : body (h.withLevel .on) = .ok () g) (hrest : Course (h.withLevel .on) ms' g)
    (hallowed : Kernel g .retire) (hlife : (Scheduler.runThread body : HostM Unit) h = .ok u h') :
    Course h₀ (ms ++ lifeMoves h ms' g h') h' := by
  obtain ⟨h₁, henter, hrunBody, hretire⟩ := Call.performs_of_runThread hlife
  cases hbody.symm.trans hrunBody
  have hmasks : (Turn.call (.setLevel .on)).Allowed h := ⟨trivial, by simp, by simp⟩
  have hexits : (Turn.call .retire).Allowed g := ⟨hallowed, by simp, by simp⟩
  have hall := ((hcourse.snoc_call hmasks henter).append hrest).snoc_call hexits hretire
  simpa [lifeMoves] using hall

end Course

/-- The threads that were dispatched, one for each scheduling step. -/
def dispatches (ms : List Move) : List Nat :=
  ms.filterMap (·.dispatched)

/-- The number of timer interrupts. -/
def interrupts (ms : List Move) : Nat :=
  ms.countP (·.turn = .interrupt)

theorem dispatches_snoc (ms : List Move) (m : Move) :
    dispatches (ms ++ [m]) = dispatches ms ++ m.dispatched.toList := by
  cases hdispatched : m.dispatched <;> simp [dispatches, hdispatched]

theorem interrupts_snoc (ms : List Move) (m : Move) :
    interrupts (ms ++ [m]) = interrupts ms + if m.turn = .interrupt then 1 else 0 := by
  by_cases hturn : m.turn = .interrupt <;> simp [interrupts, List.countP_append, hturn]

theorem Move.dispatched_of {turn : Turn} (hschedules : turn.schedules h = true) :
    (Move.between h turn h').dispatched = some (Block.base h'.sp) :=
  if_pos hschedules

theorem Move.dispatched_of_not {turn : Turn} (hschedules : turn.schedules h = false) :
    (Move.between h turn h').dispatched = none := by
  simp [between, hschedules]

/-- The state between two turns. -/
structure Ordered (main idle : Nat) (h : Host) : Prop where
  orderly : ∃ r, h.Orderly r
  named : h.Named main idle

theorem Ordered.call (hs : h.Ordered main idle) (hallowed : Kernel h c)
    (hperforms : c.perform h = .ok created h') :
    h'.Ordered main idle ∧ Obeys main idle h c created h' := by
  obtain ⟨⟨r, ho⟩, hn⟩ := hs
  obtain ⟨⟨n, ht⟩, -⟩ := Call.takes_action ho hallowed hperforms
  exact ⟨⟨⟨n, ht.orderly ho⟩, (entry_of_call ho hallowed hperforms).named ho hn⟩,
    Call.obeys ho hn hallowed hperforms⟩

/-- The host in or out of an interrupt handler. -/
def withIrq (h : Host) (on : Bool) : Host :=
  { h with inInterrupt := on }

/-- The host without a request to yield. -/
def withoutRequest (h : Host) : Host :=
  { h with yieldPending := false }

/-- A timer interrupt is a call of the tick handler. -/
theorem timerInterrupt_of_interrupt (hrun : Host.interrupt h = .ok u h') :
    ∃ g, (timerInterrupt : HostM Unit) (h.withIrq true) = .ok () g ∧ h' = g.withIrq false := by
  obtain ⟨_, g₁, henter, hrest⟩ := bind_eq_ok_iff.mp hrun
  obtain ⟨_, g, htimer, hleave⟩ := bind_eq_ok_iff.mp hrest
  cases henter
  cases hleave
  exact ⟨g, htimer, rfl⟩

theorem Turn.schedules_of_interrupt (hrun : Host.interrupt h = .ok u h') :
    Turn.interrupt.schedules h = h'.yieldPending := by
  simp only [schedules, hrun]

/-- The interrupted thread yields exactly if there is a request. -/
theorem yields_of_interruptAndPreempt (hrun : interruptAndPreempt h = .ok u h') :
    ∃ g, Host.interrupt h = .ok () g ∧
      ((g.yieldPending = true ∧ (yieldNow : HostM Unit) g.withoutRequest = .ok u h') ∨
        (g.yieldPending = false ∧ h' = g.withoutRequest)) := by
  obtain ⟨_, g, hinterrupt, hrest⟩ := bind_eq_ok_iff.mp hrun
  obtain ⟨pending, g₁, htake, hyield⟩ := bind_eq_ok_iff.mp hrest
  cases htake
  refine ⟨g, hinterrupt, ?_⟩
  cases hpending : g.yieldPending with
  | true =>
      rw [hpending] at hyield
      exact Or.inl ⟨rfl, hyield⟩
  | false =>
      rw [hpending] at hyield
      exact Or.inr ⟨rfl, (pure_eq_ok_iff.mp hyield).2⟩

/-- Flags of the processor do not matter to the scheduler. -/
theorem Ordered.congr (hs : h.Ordered main idle) (hscheduler : h'.scheduler = h.scheduler)
    (hsp : h'.sp = h.sp) : h'.Ordered main idle := by
  obtain ⟨⟨r, hsettled, hhere⟩, hinitial, hidle, hmain, htid⟩ := hs
  rw [← hscheduler] at *
  exact ⟨⟨r, hsettled, hsp ▸ hhere⟩, hinitial, hidle, hmain, htid⟩

/-- An interrupt releases the sleepers that are due, whatever it requests. -/
theorem Ordered.interrupt (hs : h.Ordered main idle) (hrun : Host.interrupt h = .ok u h') :
    h'.withoutRequest.Ordered main idle ∧
      h'.withoutRequest.roster = h.roster.release (h.scheduler.ticks + 1) := by
  obtain ⟨g, htimer, rfl⟩ := timerInterrupt_of_interrupt hrun
  have hstart : (h.withIrq true).Ordered main idle := hs.congr rfl rfl
  have hallowed : Kernel (h.withIrq true) .timerInterrupt := trivial
  obtain ⟨hafter, hobeys⟩ := hstart.call hallowed (Call.silently_of_ok htimer)
  exact ⟨hafter.congr rfl rfl, hobeys.lists⟩

theorem Ordered.yield (hs : h.Ordered main idle)
    (hrun : (yieldNow : HostM Unit) h = .ok u h') :
    h'.Ordered main idle ∧ h'.roster = h.roster.yield idle := by
  have hallowed : Kernel h .yieldNow := trivial
  obtain ⟨hafter, hobeys⟩ := hs.call hallowed (Call.silently_of_ok hrun)
  exact ⟨hafter, hobeys.lists⟩

theorem Ordered.rotates {turn : Turn} (hs : h.Ordered main idle) (hallowed : turn.Allowed h)
    (hperforms : turn.perform h = .ok u h') :
    h'.Ordered main idle ∧ h.roster.Rotates idle (turn.schedules h) h'.roster := by
  cases turn with
  | call c =>
      obtain ⟨created, g, hcall, hrest⟩ := bind_eq_ok_iff.mp hperforms
      obtain ⟨-, rfl⟩ := pure_eq_ok_iff.mp hrest
      obtain ⟨hafter, hobeys⟩ := hs.call hallowed.1 hcall
      rw [hobeys.lists]
      exact ⟨hafter, Roster.rotates_obey ..⟩
  | interrupt =>
      obtain ⟨g, hinterrupt, hyields⟩ := yields_of_interruptAndPreempt hperforms
      obtain ⟨hmiddle, hlists⟩ := hs.interrupt hinterrupt
      have hreleased : h.roster.Rotates idle false g.withoutRequest.roster := by
        rw [hlists]
        exact Roster.rotates_obey idle main h.scheduler.ticks h.roster .interrupt
      rw [Turn.schedules_of_interrupt hinterrupt]
      rcases hyields with ⟨hpending, hyield⟩ | ⟨hpending, rfl⟩
      · obtain ⟨hlast, hyielded⟩ := hmiddle.yield hyield
        rw [hpending, hyielded]
        exact ⟨hlast, hreleased.trans (Roster.rotates_obey idle main 0 _ .yield)⟩
      · rw [hpending]
        exact ⟨hmiddle, hreleased⟩

/-- A thread that is ready moves up by one place with every scheduling step, and the one after the
last of them dispatches it. -/
theorem Course.place {ms : List Move} (hs : h₀.Ordered main idle)
    (hx : h₀.scheduler.ready.members[i]? = some x) (hcourse : Course h₀ ms h) :
    h.Ordered main idle ∧
      ((dispatches ms).length ≤ i →
        h.scheduler.ready.members[i - (dispatches ms).length]? = some x) ∧
      (i < (dispatches ms).length → (dispatches ms)[i]? = some x) := by
  induction hcourse with
  | nil => exact ⟨hs, fun _ => hx, fun hlt => absurd hlt (Nat.not_lt_zero i)⟩
  | @snoc ms h h' turn hcourse hallowed hperforms ih =>
      obtain ⟨hbefore, hwaits, hserved⟩ := ih
      obtain ⟨hafter, hrotates⟩ := hbefore.rotates hallowed hperforms
      refine ⟨hafter, ?_⟩
      rw [dispatches_snoc]
      cases hschedules : turn.schedules h with
      | false =>
          rw [Move.dispatched_of_not hschedules, Option.toList_none, List.append_nil]
          refine ⟨fun hle => ?_, hserved⟩
          rw [hschedules] at hrotates
          exact hrotates.place (hwaits hle)
      | true =>
          rw [Move.dispatched_of hschedules, Option.toList_some]
          rw [hschedules] at hrotates
          constructor
          · intro hle
            rw [List.length_append, List.length_singleton] at hle ⊢
            have hplace := (hrotates.place (hwaits (by omega))).2 (by omega)
            rw [← Nat.sub_sub]
            exact hplace
          · intro hlt
            rw [List.length_append, List.length_singleton] at hlt
            by_cases hlast : i = (dispatches ms).length
            · have hplace := (hrotates.place (hwaits (by omega))).1 (by omega)
              rw [hlast, List.getElem?_concat_length]
              exact congrArg some hplace
            · have hearlier : i < (dispatches ms).length := by omega
              rw [List.getElem?_append_left hearlier]
              exact hserved hearlier

/-- An interrupt uses up a tick of the slice, and asks for a yield if that was the last one. -/
theorem sliceTicks_of_interrupt (hrun : Host.interrupt h = .ok u h') :
    h'.scheduler.sliceTicks = h.scheduler.sliceTicks + 1 ∧
      h'.yieldPending =
        (h.yieldPending || decide (Config.timeSlice ≤ h.scheduler.sliceTicks + 1)) := by
  obtain ⟨g, htimer, rfl⟩ := timerInterrupt_of_interrupt hrun
  obtain ⟨-, h₁, htick, hwake⟩ := timerInterrupt_eq_ok_iff.mp htimer
  obtain ⟨r, -, -, -, rfl⟩ := tick_eq_ok_iff.mp htick
  have hdue := wake_eq_ok_iff.mp hwake
  have hwoken := (woken_of_wakeDue (Nat.le_refl _) hdue).1
  have hscheduler := ((h.withIrq true).withScheduler h.scheduler.advance).scheduler_ticked r
  constructor
  · change g.scheduler.sliceTicks = _
    rw [hwoken.sliceTicks_eq]
    exact congrArg Scheduler.sliceTicks hscheduler.1
  · change g.yieldPending = _
    rw [frame_wakeDue hdue]
    change (((h.withIrq true).withScheduler h.scheduler.advance).ticked r).yieldPending = _
    by_cases hlast : Config.timeSlice ≤ h.scheduler.sliceTicks + 1
    · have hticked : ((h.withIrq true).withScheduler h.scheduler.advance).ticked r =
          Host.yieldRequested _ := if_pos hlast
      rw [hticked, decide_eq_true hlast, Bool.or_true]
      rfl
    · have hticked : ((h.withIrq true).withScheduler h.scheduler.advance).ticked r =
          Host.withScheduler _ _ := if_neg hlast
      rw [hticked, decide_eq_false hlast, Bool.or_false]
      rfl

/-- A call that neither ticks nor gives up the processor touches control blocks at most. -/
theorem Call.scheduler_of_count (hallowed : (Turn.call c).Allowed h)
    (hperforms : c.perform h = .ok created h') (hcount : c.action h = .count) :
    ∃ threads, h'.scheduler = { h.scheduler with threads } := by
  have hsleep : ∀ {u ticks}, napAction h.scheduler.ticks ticks = .count →
      (Scheduler.sleep ticks : HostM Unit) h = .ok u h' → h' = h := by
    intro u ticks hnap hrun
    obtain ⟨-, ⟨-, hsame⟩ | ⟨hpos, -⟩⟩ := sleep_eq_ok_iff.mp hrun
    · exact hsame
    · rw [napAction, if_neg hpos] at hnap
      cases hnap
  cases c with
  | create name priority entry arg =>
      obtain ⟨_, _, hcreate, hrest⟩ := bind_eq_ok_iff.mp hperforms
      obtain ⟨-, rfl⟩ := pure_eq_ok_iff.mp hrest
      obtain ⟨-, ⟨-, -, rfl⟩ | ⟨b, h₁, ⟨_, _, _, _, halloc, -⟩, -, -⟩⟩ :=
        create_eq_ok_iff.mp hcreate
      · exact ⟨_, rfl⟩
      · obtain ⟨k, hslot, -⟩ := Pool.alloc_eq_some_iff.mp halloc
        simp only [action, hslot] at hcount
        cases hcount
  | sleep ticks =>
      obtain ⟨-, _, hact⟩ := silently_eq_ok_iff.mp hperforms
      rw [hsleep hcount hact]
      exact ⟨_, rfl⟩
  | msleep | usleep | nsleep =>
      obtain ⟨-, _, hact⟩ := silently_eq_ok_iff.mp hperforms
      rw [hsleep hcount (sleepFor_eq_ok_iff.mp hact).2.2.2]
      exact ⟨_, rfl⟩
  | setPriority =>
      obtain ⟨-, _, hact⟩ := silently_eq_ok_iff.mp hperforms
      obtain ⟨-, r, -, rfl⟩ := setPriority_eq_ok_iff.mp hact
      exact ⟨_, rfl⟩
  | setLevel =>
      obtain ⟨-, _, hact⟩ := silently_eq_ok_iff.mp hperforms
      obtain ⟨-, rfl⟩ := setLevel_eq_ok_iff.mp hact
      exact ⟨_, rfl⟩
  | takeYield | setInInterrupt =>
      obtain ⟨-, _, hact⟩ := silently_eq_ok_iff.mp hperforms
      cases hact
      exact ⟨_, rfl⟩
  | tick => exact absurd rfl hallowed.2.1
  | timerInterrupt => exact absurd rfl hallowed.2.2
  | yieldNow | block | unblock | retire | idlePass | sleepUntil | wake => cases hcount

theorem Call.eq_of_action_interrupt (haction : c.action h = .interrupt) : c = .timerInterrupt := by
  cases c with
  | timerInterrupt => rfl
  | create =>
      simp only [action] at haction
      split at haction <;> cases haction
  | sleep | msleep | usleep | nsleep =>
      simp only [action, napAction] at haction
      split at haction <;> cases haction
  | _ => cases haction

/-- A call that gives up the processor begins a new slice. -/
theorem Call.sliceTicks_eq (ho : h.Orderly r) (hallowed : (Turn.call c).Allowed h)
    (hperforms : c.perform h = .ok created h') :
    h'.scheduler.sliceTicks = if (c.action h).schedules then 0 else h.scheduler.sliceTicks := by
  by_cases hcount : c.action h = .count
  · obtain ⟨threads, hscheduler⟩ := Call.scheduler_of_count hallowed hperforms hcount
    rw [hcount, hscheduler]
    rfl
  · obtain ⟨⟨n, ht⟩, -⟩ := Call.takes_action ho hallowed.1 hperforms
    exact Step.sliceTicks_eq ht hcount (mt Call.eq_of_action_interrupt hallowed.2.2)

theorem Ordered.sliceTicks_of_yield (hs : h.Ordered main idle)
    (hrun : (yieldNow : HostM Unit) h = .ok u h') : h'.scheduler.sliceTicks = 0 := by
  obtain ⟨r, ho⟩ := hs.orderly
  have hallowed : (Turn.call .yieldNow).Allowed h := ⟨trivial, by simp, by simp⟩
  exact Call.sliceTicks_eq ho hallowed (Call.silently_of_ok hrun)

/-- What a turn does to the slice. An interrupt that leaves the thread running leaves it a part of
its slice. -/
theorem Ordered.sliceTicks {turn : Turn} (hs : h.Ordered main idle) (hallowed : turn.Allowed h)
    (hperforms : turn.perform h = .ok u h') :
    (turn.schedules h = true ∧ h'.scheduler.sliceTicks = 0) ∨
      (turn ≠ .interrupt ∧ h'.scheduler.sliceTicks = h.scheduler.sliceTicks) ∨
      (turn.schedules h = false ∧ h'.scheduler.sliceTicks = h.scheduler.sliceTicks + 1 ∧
        h'.scheduler.sliceTicks < Config.timeSlice) := by
  obtain ⟨r, ho⟩ := hs.orderly
  cases turn with
  | call c =>
      obtain ⟨created, g, hcall, hrest⟩ := bind_eq_ok_iff.mp hperforms
      obtain ⟨-, rfl⟩ := pure_eq_ok_iff.mp hrest
      have hslice := Call.sliceTicks_eq ho hallowed hcall
      cases hschedules : (c.action h).schedules with
      | true =>
          rw [hschedules] at hslice
          exact Or.inl ⟨hschedules, hslice⟩
      | false =>
          rw [hschedules] at hslice
          exact Or.inr (Or.inl ⟨by simp, hslice⟩)
  | interrupt =>
      obtain ⟨g, hinterrupt, hyields⟩ := yields_of_interruptAndPreempt hperforms
      obtain ⟨hslice, hlast⟩ := sliceTicks_of_interrupt hinterrupt
      rw [Turn.schedules_of_interrupt hinterrupt]
      rcases hyields with ⟨hpending, hyield⟩ | ⟨hpending, rfl⟩
      · have hmiddle := (hs.interrupt hinterrupt).1
        exact Or.inl ⟨hpending, hmiddle.sliceTicks_of_yield hyield⟩
      · refine Or.inr (Or.inr ⟨hpending, hslice, ?_⟩)
        by_contra hfull
        change ¬ g.scheduler.sliceTicks < Config.timeSlice at hfull
        rw [hpending, decide_eq_true (by omega), Bool.or_true] at hlast
        cases hlast

/-- With each scheduling step at most a time slice of interrupts goes by. -/
theorem Course.interrupts_le {ms : List Move} (hs : h₀.Ordered main idle)
    (hcourse : Course h₀ ms h) :
    h.Ordered main idle ∧ interrupts ms ≤
      Config.timeSlice * (dispatches ms).length +
        min h.scheduler.sliceTicks (Config.timeSlice - 1) := by
  induction hcourse with
  | nil => exact ⟨hs, Nat.zero_le _⟩
  | @snoc ms h h' turn hcourse hallowed hperforms ih =>
      obtain ⟨hbefore, hle⟩ := ih
      refine ⟨(hbefore.rotates hallowed hperforms).1, ?_⟩
      have hdispatches : (dispatches (ms ++ [.between h turn h'])).length =
          (dispatches ms).length + if turn.schedules h then 1 else 0 := by
        rw [dispatches_snoc, List.length_append]
        cases hschedules : turn.schedules h with
        | true =>
            rw [Move.dispatched_of hschedules]
            rfl
        | false =>
            rw [Move.dispatched_of_not hschedules]
            rfl
      rw [hdispatches, interrupts_snoc]
      have hturn : (Move.between h turn h').turn = turn := rfl
      rw [hturn]
      rcases hbefore.sliceTicks hallowed hperforms with ⟨hschedules, hslice⟩ |
        ⟨hcall, hslice⟩ | ⟨hschedules, hslice, hpart⟩
      · rw [if_pos hschedules, hslice]
        simp only [Config.timeSlice] at *
        split <;> omega
      · rw [if_neg hcall, hslice]
        simp only [Config.timeSlice] at *
        omega
      · rw [hslice] at hpart ⊢
        simp only [Config.timeSlice] at *
        split <;> omega

/-- What has become of the thread in `x` with the moves `ms`, when `i` threads were before it in the
ready queue. -/
structure InTurn (i x : Nat) (ms : List Move) (h : Host) : Prop where
  /-- It moves up with every scheduling step. -/
  waits : (dispatches ms).length ≤ i →
    h.scheduler.ready.members[i - (dispatches ms).length]? = some x
  /-- The scheduling step after as many as there are threads before it dispatches it. -/
  runs : i < (dispatches ms).length → (dispatches ms)[i]? = some x
  /-- A time slice of interrupts for each of these threads and one more do not go by without it. -/
  soon : Config.timeSlice * (i + 1) ≤ interrupts ms → x ∈ dispatches ms

theorem Course.inTurn {ms : List Move} (hs : h₀.Ordered main idle)
    (hx : h₀.scheduler.ready.members[i]? = some x) (hcourse : Course h₀ ms h) :
    InTurn i x ms h := by
  obtain ⟨-, hwaits, hruns⟩ := hcourse.place hs hx
  obtain ⟨-, hle⟩ := hcourse.interrupts_le hs
  refine ⟨hwaits, hruns, ?_⟩
  intro hmany
  have hlate : i < (dispatches ms).length := by
    simp only [Config.timeSlice] at *
    omega
  exact List.mem_of_getElem? (hruns hlate)

/-- What is known of the thread in `x` after the moves `ms`, when `i` threads were before it in the
ready queue. -/
structure Served (i x : Nat) (ms : List Move) (h : Host) : Prop extends InTurn i x ms h where
  /-- It gets its turn also past the life of another thread. -/
  life : ∀ (body : HostM Unit) ms' g h', body (h.withLevel .on) = .ok () g →
    Course (h.withLevel .on) ms' g → Kernel g .retire →
      (Scheduler.runThread body : HostM Unit) h = .ok () h' →
        InTurn i x (ms ++ lifeMoves h ms' g h') h'

/-- In every state that a kernel reaches after boot, let a thread be ready. However the kernel goes
on from there, if only ticks come from interrupts whose request to yield is honoured at once, the
thread moves up with every scheduling step and runs in its turn, which comes within a time slice
for each thread before it and one more. -/
theorem Run.served {ms : List Move} (hbooted : h₀.Booted) (hrun : Run Kernel h₀ es h₁)
    (hx : h₁.scheduler.ready.members[i]? = some x) (hcourse : Course h₁ ms h) :
    Served i x ms h := by
  obtain ⟨main, idle, hafter⟩ := hbooted.after
  have hs : h₁.Ordered main idle :=
    ⟨hrun.orderly ⟨main, hafter.orderly⟩, (hrun.ledger hafter).toNamed⟩
  refine { toInTurn := hcourse.inTurn hs hx, life := ?_ }
  intro body ms' g h' hbody hrest hallowed hlife
  exact (hcourse.runThread hbody hrest hallowed hlife).inTurn hs hx

/-- Two threads were created. -/
def readySample : List Event × Host :=
  play Kernel sample [.create "a" 3 threadBody 7, .create "b" 5 threadBody 9]

/-- The boot thread goes to sleep after two ticks, and six more follow. -/
def turnsSample : List Move × Host :=
  follow [] readySample.2
    [.interrupt, .interrupt, .call (.setLevel .on), .call (.sleep 9), .interrupt, .interrupt,
      .interrupt, .interrupt, .interrupt, .interrupt]

theorem served_sample :
    sample.Booted ∧ Run Kernel sample readySample.1 readySample.2 ∧
      readySample.2.scheduler.ready.members[1]? = some 0x40002000 ∧
      Course readySample.2 turnsSample.1 turnsSample.2 ∧ interrupts turnsSample.1 = 8 ∧
      dispatches turnsSample.1 = [0x40001000, 0x40002000] ∧
      Served 1 0x40002000 turnsSample.1 turnsSample.2 := by
  have hready : readySample.2.scheduler.ready.members[1]? = some 0x40002000 := by decide +kernel
  have hcourse : Course readySample.2 turnsSample.1 turnsSample.2 := Course.nil.follow _
  exact ⟨booted_sample, Run.play _ _, hready, hcourse, by decide +kernel, by decide +kernel,
    Run.served booted_sample (Run.play _ _) hready hcourse⟩

end RoundRobin.Host
