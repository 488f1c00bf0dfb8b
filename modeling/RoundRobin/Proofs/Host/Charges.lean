import RoundRobin.Host.Request
import RoundRobin.Proofs.Host.Fairness
import RoundRobin.Proofs.Host.Running

/-!
# Where the ticks go

Every timer interrupt is charged to one account: that of the idle thread, that of the unprivileged
threads, or that of the others. The thread that was running when the interrupt came decides, before
the handler releases sleepers and before anybody yields. Nothing else moves the counters.
-/

namespace RoundRobin

open Host

/-- What a tick can be charged to. -/
inductive Account where
  | idle
  | kernel
  | user
  deriving DecidableEq

/-- The ticks charged to an account. -/
def TickStats.of (stats : TickStats) : Account → Nat
  | .idle => stats.idle
  | .kernel => stats.kernel
  | .user => stats.user

/-- The ticks charged to all accounts. -/
def TickStats.total (stats : TickStats) : Nat :=
  stats.idle + stats.kernel + stats.user

namespace Scheduler

variable {s : Scheduler} {b c r : Nat}

/-- The account of the thread in `b`. -/
def account (s : Scheduler) (b : Nat) : Account :=
  if s.idle = some b then .idle
  else if (s.threads.get b).context.control.testBit 0 then .user
  else .kernel

theorem mem_threadBlocks : b ∈ threadBlocks s ↔ s.Live b := by
  simp [threadBlocks, Live, Option.mem_toList]

theorem isUser_eq_testBit (t : Thread) : t.isUser = t.context.control.testBit 0 := by
  rw [Thread.isUser, Context.isUser, Nat.testBit, Nat.shiftRight_zero, Nat.and_comm]

/-- A tick moves the account of the running thread by one and no other. -/
theorem of_charged (s : Scheduler) (r : Nat) (a : Account) :
    (s.charged r).of a = s.stats.of a + if s.account r = a then 1 else 0 := by
  rw [charged, account, isUser_eq_testBit]
  split
  · cases a <;> rfl
  · split <;> cases a <;> rfl

/-- The sum of the accounts grows by one with a tick. -/
theorem total_charged (s : Scheduler) (r : Nat) :
    (s.charged r).total = s.stats.total + 1 := by
  simp only [TickStats.total, charged]
  split_ifs <;> dsimp only <;> omega

/-- The saved privilege is no part of a settled state. -/
theorem Settled.withControl (h : s.Settled Active r) (b control : Nat) :
    (s.alter b fun t => { t with context.control := control }).Settled Active r := by
  have hget : ∀ {γ : Type} (g : Thread → γ),
      g { s.threads.get b with context.control := control } = g (s.threads.get b) → ∀ c,
        g ((s.alter b fun t => { t with context.control := control }).threads.get c) =
          g (s.threads.get c) :=
    fun g hg => Memory.apply_get_modify g hg
  have howner := hget Thread.owner rfl
  have hstatus := hget Thread.status rfl
  have htick := hget Thread.wakeTick rfl
  have hmagic := hget Thread.magic rfl
  have hintact : ∀ c, (s.threads.get c).IsValid →
      ((s.alter b fun t => { t with context.control := control }).threads.get c).IsValid :=
    fun c hc => (hmagic c).trans hc
  exact {
    linked := h.linked.alter rfl rfl fun _ => rfl
    housed := h.housed.congr rfl rfl rfl fun c hc => h.housed.owned c (by rwa [howner c] at hc)
    dead := h.dead
    live := h.live
    intact := hintact r h.intact
    here := ⟨(howner r).trans h.here.owner, (hstatus r).trans h.here.status,
      (htick r).trans h.here.tick⟩
    others := by
      intro c hc hne
      have hparked := h.others c hc hne
      refine ⟨hintact c hparked.intact, ?_, hparked.waits.congr (howner c) (hstatus c) (htick c)⟩
      rw [hget (·.context.sp) rfl]
      exact hparked.stack }

end Scheduler

namespace Host

open Scheduler

variable {h h' h₀ h₁ : Host} {c : Call} {created : Option Nat} {u : Unit} {a : Account} {r : Nat}

/-- The running thread has the account `a`. Which thread that is is read off the control blocks and
not off the stack pointer. -/
def RunsOn (h : Host) (a : Account) : Prop :=
  ∃ b ∈ threadBlocks h.scheduler,
    (h.scheduler.threads.get b).status = .running ∧ h.scheduler.account b = a

instance (h : Host) (a : Account) : Decidable (h.RunsOn a) :=
  inferInstanceAs (Decidable (∃ b ∈ _, _))

/-- The thread whose stack is in use has the status of a running one, and it alone. -/
theorem Orderly.runsOn_iff (ho : h.Orderly r) : h.RunsOn a ↔ h.scheduler.account r = a := by
  constructor
  · rintro ⟨b, hlive, hrunning, haccount⟩
    rwa [(ho.running_iff b).mp ⟨mem_threadBlocks.mp hlive, hrunning⟩] at haccount
  · intro haccount
    obtain ⟨hlive, hrunning⟩ := (ho.running_iff r).mpr rfl
    exact ⟨r, mem_threadBlocks.mpr hlive, hrunning, haccount⟩

/-- Neither the tick counter nor an account moves. -/
structure Uncharged (h h' : Host) : Prop where
  ticks : h'.scheduler.ticks = h.scheduler.ticks
  stats : h'.scheduler.stats = h.scheduler.stats

/-- What one timer interrupt on `h` does to the counters. -/
structure ChargedOnce (h h' : Host) : Prop where
  ticks : h'.scheduler.ticks = h.scheduler.ticks + 1
  total : h'.scheduler.stats.total = h.scheduler.stats.total + 1
  account : ∀ a, h'.scheduler.stats.of a = h.scheduler.stats.of a + if h.RunsOn a then 1 else 0

theorem ChargedOnce.followed (hcharged : ChargedOnce h h₁) (hrest : Uncharged h₁ h') :
    ChargedOnce h h' where
  ticks := hrest.ticks.trans hcharged.ticks
  total := by rw [hrest.stats, hcharged.total]
  account a := by rw [hrest.stats, hcharged.account a]

/-- No call but a tick moves a counter. -/
theorem Call.uncharged (ho : h.Orderly r) (hallowed : (Turn.call c).Allowed h)
    (hperforms : c.perform h = .ok created h') : Uncharged h h' := by
  by_cases hcount : c.action h = .count
  · obtain ⟨threads, hscheduler⟩ := Call.scheduler_of_count hallowed hperforms hcount
    constructor <;> rw [hscheduler]
  · have hinterrupt : c.action h ≠ .interrupt := mt Call.eq_of_action_interrupt hallowed.2.2
    obtain ⟨⟨n, ht⟩, -⟩ := Call.takes_action ho hallowed.1 hperforms
    have hticks := Step.ticks_eq ht
    rw [if_neg hinterrupt] at hticks
    exact ⟨hticks, Step.stats_eq ht hcount hinterrupt⟩

/-- The handler charges the thread that it interrupted, before it releases sleepers. -/
theorem Orderly.chargedOnce (ho : h.Orderly r)
    (hrun : (timerInterrupt : HostM Unit) h = .ok u h') : ChargedOnce h h' := by
  obtain ⟨-, g, htick, hwake⟩ := timerInterrupt_eq_ok_iff.mp hrun
  obtain ⟨b, hcurrent, -, -, rfl⟩ := tick_eq_ok_iff.mp htick
  obtain rfl := here_unique ho.here hcurrent.here
  obtain ⟨hscheduler, -⟩ := (h.withScheduler h.scheduler.advance).scheduler_ticked r
  obtain ⟨hwoken, -⟩ := woken_of_wakeDue (Nat.le_refl _) (wake_eq_ok_iff.mp hwake)
  have hclock := hwoken.sameClock
  rw [hscheduler] at hclock
  have hstats : h'.scheduler.stats = h.scheduler.charged r := hclock.stats
  refine ⟨hclock.ticks, ?_, fun a => ?_⟩
  · rw [hstats]
    exact total_charged h.scheduler r
  · rw [hstats, of_charged]
    simp only [ho.runsOn_iff]

/-- If the request to yield is honoured, the thread that is charged is still the interrupted one. -/
theorem Orderly.preempt (ho : h.Orderly r) (hrun : interruptAndPreempt h = .ok u h') :
    (∃ n, h'.Orderly n) ∧ ChargedOnce h h' := by
  obtain ⟨g, hinterrupt, hyields⟩ := yields_of_interruptAndPreempt hrun
  obtain ⟨g', htimer, rfl⟩ := timerInterrupt_of_interrupt hinterrupt
  have hentered : (h.withIrq true).Orderly r := ⟨ho.settled, ho.here⟩
  have hcharged : ChargedOnce (h.withIrq true) g' := hentered.chargedOnce htimer
  have hhandled : ChargedOnce h (g'.withIrq false).withoutRequest :=
    ⟨hcharged.ticks, hcharged.total, hcharged.account⟩
  have hleft : (g'.withIrq false).withoutRequest.Orderly r := by
    have hmiddle := (takes_timerInterrupt (r := r) htimer).orderly hentered
    exact ⟨hmiddle.settled, hmiddle.here⟩
  rcases hyields with ⟨-, hyield⟩ | ⟨-, rfl⟩
  · have hallowed : (Turn.call .yieldNow).Allowed (g'.withIrq false).withoutRequest :=
      ⟨trivial, by simp, by simp⟩
    have hperforms := Call.silently_of_ok hyield
    obtain ⟨⟨n, ht⟩, -⟩ := Call.takes_action hleft hallowed.1 hperforms
    exact ⟨⟨n, ht.orderly hleft⟩, hhandled.followed (Call.uncharged hleft hallowed hperforms)⟩
  · exact ⟨⟨r, hleft⟩, hhandled⟩

/-- What happens next: a call, a timer interrupt whose request to yield is honoured, or a saved
privilege is overwritten. -/
inductive Deed where
  | call (call : Call)
  | preempt
  | control (b word : Nat)

namespace Deed

/-- Do a deed. -/
def perform : Deed → HostM Unit
  | call c => do
    let _ ← c.perform
  | preempt => interruptAndPreempt
  | control b word => Scheduler.modifyThread b fun t => { t with context.control := word }

/-- A kernel makes its calls, but for the ticks outside of the handler of the timer interrupt. -/
def Allowed (h : Host) : Deed → Prop
  | call c => Kernel h c ∧ c ≠ .tick
  | preempt | control _ _ => True

instance decidableAllowed (h : Host) : (deed : Deed) → Decidable (deed.Allowed h)
  | call c => inferInstanceAs (Decidable (Kernel h c ∧ c ≠ .tick))
  | preempt | control _ _ => isTrue trivial

/-- Whether the deed delivers a timer interrupt. -/
def interrupts : Deed → Bool
  | call .timerInterrupt | preempt => true
  | call _ | control _ _ => false

theorem interrupts_call : (call c).interrupts = true ↔ c = .timerInterrupt := by
  cases c <;> simp [interrupts]

end Deed

/-- A timer interrupt is charged once, and no other deed moves a counter. -/
theorem Orderly.perform {deed : Deed} (ho : h.Orderly r) (hallowed : deed.Allowed h)
    (hperforms : deed.perform h = .ok u h') :
    (∃ n, h'.Orderly n) ∧ (deed.interrupts = true → ChargedOnce h h') ∧
      (deed.interrupts = false → Uncharged h h') := by
  cases deed with
  | call c =>
      obtain ⟨created, g, hcall, hrest⟩ := bind_eq_ok_iff.mp hperforms
      obtain ⟨-, rfl⟩ := pure_eq_ok_iff.mp hrest
      obtain ⟨⟨n, ht⟩, -⟩ := Call.takes_action ho hallowed.1 hcall
      refine ⟨⟨n, ht.orderly ho⟩, fun htick => ?_, fun hother => ?_⟩
      · obtain rfl := Deed.interrupts_call.mp htick
        obtain ⟨-, _, hact⟩ := Call.silently_eq_ok_iff.mp hcall
        exact ho.chargedOnce hact
      · have hne : c ≠ .timerInterrupt := by
          rintro rfl
          cases hother
        exact Call.uncharged ho ⟨hallowed.1, hallowed.2, hne⟩ hcall
  | preempt =>
      obtain ⟨hafter, hcharged⟩ := ho.preempt hperforms
      exact ⟨hafter, fun _ => hcharged, nofun⟩
  | control b word =>
      obtain rfl := modifyThread_eq_ok_iff.mp hperforms
      exact ⟨⟨r, ho.settled.withControl b word, ho.here⟩, nofun, fun _ => ⟨rfl, rfl⟩⟩

/-- A deed and the host that it was done on. -/
structure Moment where
  before : Host
  deed : Deed

/-- Deeds one after another from `h₀` on, none of which halts. -/
inductive Metered (h₀ : Host) : List Moment → Host → Prop
  | nil : Metered h₀ [] h₀
  | snoc {ms : List Moment} {h h' : Host} {deed : Deed} (metered : Metered h₀ ms h)
      (allowed : deed.Allowed h) (performs : deed.perform h = .ok () h') :
      Metered h₀ (ms ++ [⟨h, deed⟩]) h'

/-- Do deeds one after another, up to the first that is not allowed or halts. Gives the moments,
behind the earlier ones `ms`, and the host they lead to. -/
def meter (ms : List Moment) (h : Host) : List Deed → List Moment × Host
  | [] => (ms, h)
  | deed :: rest =>
    if deed.Allowed h then
      match deed.perform h with
      | .ok _ h' => meter (ms ++ [⟨h, deed⟩]) h' rest
      | .error _ _ => (ms, h)
    else
      (ms, h)

namespace Metered

variable {ms ms' : List Moment}

theorem append (hmetered : Metered h₀ ms h) (hrest : Metered h ms' h') :
    Metered h₀ (ms ++ ms') h' := by
  induction hrest with
  | nil => simpa using hmetered
  | snoc _ hallowed hperforms ih =>
      rw [← List.append_assoc]
      exact .snoc ih hallowed hperforms

theorem meter (hmetered : Metered h₀ ms h) (deeds : List Deed) :
    Metered h₀ (Host.meter ms h deeds).1 (Host.meter ms h deeds).2 := by
  induction deeds generalizing ms h with
  | nil => exact hmetered
  | cons deed rest ih =>
      rw [Host.meter]
      by_cases hallowed : deed.Allowed h
      · rw [if_pos hallowed]
        cases hperforms : deed.perform h with
        | ok u h' => exact ih (.snoc hmetered hallowed hperforms)
        | error cause h' => exact hmetered
      · rw [if_neg hallowed]
        exact hmetered

theorem snoc_call (hmetered : Metered h₀ ms h) (hallowed : Kernel h c) (htimed : c ≠ .tick)
    (hperforms : c.perform h = .ok created h') : Metered h₀ (ms ++ [⟨h, .call c⟩]) h' := by
  have hdone : (Deed.call c).perform h = .ok () h' :=
    bind_eq_ok_iff.mpr ⟨created, h', hperforms, rfl⟩
  exact .snoc hmetered ⟨hallowed, htimed⟩ hdone

/-- The life of a thread whose body is such a history is such a history. -/
theorem runThread {body : HostM Unit} (hmetered : Metered h₀ ms h)
    (hbody : ∀ h₁, body (h.withLevel .on) = .ok () h₁ →
      (∃ ms', Metered (h.withLevel .on) ms' h₁) ∧ Kernel h₁ .retire)
    (hlife : (Scheduler.runThread body : HostM Unit) h = .ok u h') :
    ∃ ms', Metered h₀ (ms ++ ms') h' := by
  obtain ⟨h₁, henter, hrunBody, hretire⟩ := Call.performs_of_runThread hlife
  obtain ⟨⟨ms', hmiddle⟩, hallowed⟩ := hbody h₁ hrunBody
  have hmasks : Kernel h (.setLevel .on) := trivial
  have hfirst := hmetered.snoc_call hmasks (by simp) henter
  have hall := (hfirst.append hmiddle).snoc_call hallowed (by simp) hretire
  rw [List.append_assoc, List.append_assoc] at hall
  exact ⟨_, hall⟩

end Metered

/-- The number of timer interrupts. -/
def delivered (ms : List Moment) : Nat :=
  ms.countP (·.deed.interrupts)

/-- The number of timer interrupts that came while a thread with the account `a` was running. -/
def deliveredTo (a : Account) (ms : List Moment) : Nat :=
  ms.countP fun m => m.deed.interrupts && decide (m.before.RunsOn a)

theorem delivered_snoc (ms : List Moment) (m : Moment) :
    delivered (ms ++ [m]) = delivered ms + if m.deed.interrupts then 1 else 0 := by
  rw [delivered, List.countP_append, List.countP_singleton, delivered]

theorem deliveredTo_snoc (a : Account) (ms : List Moment) (m : Moment) :
    deliveredTo a (ms ++ [m]) =
      deliveredTo a ms + if m.deed.interrupts && decide (m.before.RunsOn a) then 1 else 0 := by
  rw [deliveredTo, List.countP_append, List.countP_singleton, deliveredTo]

/-- The counters say what the history `ms` says. -/
structure Accounted (ms : List Moment) (h : Host) : Prop where
  ticks_eq : h.scheduler.ticks = delivered ms
  account_eq : ∀ a, h.scheduler.stats.of a = deliveredTo a ms
  total_eq : h.scheduler.stats.total = h.scheduler.ticks

namespace Accounted

variable {ms : List Moment} {deed : Deed}

theorem snoc_interrupt (hacc : Accounted ms h) (hinterrupts : deed.interrupts = true)
    (hcharged : ChargedOnce h h') : Accounted (ms ++ [⟨h, deed⟩]) h' where
  ticks_eq := by rw [hcharged.ticks, hacc.ticks_eq, delivered_snoc, if_pos hinterrupts]
  account_eq a := by
    rw [hcharged.account a, hacc.account_eq a, deliveredTo_snoc, hinterrupts]
    simp only [Bool.true_and, decide_eq_true_eq]
  total_eq := by rw [hcharged.total, hcharged.ticks, hacc.total_eq]

theorem snoc_other (hacc : Accounted ms h) (hother : deed.interrupts = false)
    (huncharged : Uncharged h h') : Accounted (ms ++ [⟨h, deed⟩]) h' where
  ticks_eq := by
    rw [huncharged.ticks, hacc.ticks_eq, delivered_snoc, hother]
    rfl
  account_eq a := by
    rw [huncharged.stats, hacc.account_eq a, deliveredTo_snoc, hother]
    rfl
  total_eq := by rw [huncharged.stats, huncharged.ticks, hacc.total_eq]

end Accounted

/-- After boot nothing is charged yet. -/
theorem Booted.accounted (hbooted : h.Booted) : Accounted [] h := by
  constructor
  · rw [hbooted.scheduler_eq]
    rfl
  · intro a
    rw [hbooted.scheduler_eq]
    cases a <;> rfl
  · rw [hbooted.scheduler_eq]
    rfl

theorem Metered.accounted {ms : List Moment} (hbooted : h₀.Booted) (hmetered : Metered h₀ ms h) :
    (∃ r, h.Orderly r) ∧ Accounted ms h := by
  induction hmetered with
  | nil => exact ⟨Run.exists_orderly hbooted .nil, hbooted.accounted⟩
  | @snoc ms h h' deed _ hallowed hperforms ih =>
      obtain ⟨⟨r, ho⟩, hacc⟩ := ih
      obtain ⟨hafter, hcharged, huncharged⟩ := ho.perform hallowed hperforms
      refine ⟨hafter, ?_⟩
      cases hdeed : deed.interrupts with
      | true => exact hacc.snoc_interrupt hdeed (hcharged hdeed)
      | false => exact hacc.snoc_other hdeed (huncharged hdeed)

/-- What is known of the counters after the history `ms`. -/
structure Charged (ms : List Moment) (h : Host) : Prop extends Accounted ms h where
  /-- Exactly one account is that of the running thread. -/
  one : ∃ a, ∀ a', h.RunsOn a' ↔ a' = a
  /-- An interrupt is charged to it, whichever threads it wakes and whether or not it leads to a
  switch. -/
  interrupt : ∀ (deed : Deed) h', deed.Allowed h → deed.interrupts = true →
    deed.perform h = .ok () h' → ChargedOnce h h'
  /-- Nothing else moves a counter. -/
  others : ∀ (deed : Deed) h', deed.Allowed h → deed.interrupts = false →
    deed.perform h = .ok () h' → Uncharged h h'
  /-- The counters are right also at the end of the life of a thread. -/
  life : ∀ (body : HostM Unit) h', (∀ h₁, body (h.withLevel .on) = .ok () h₁ →
      (∃ ms', Metered (h.withLevel .on) ms' h₁) ∧ Kernel h₁ .retire) →
    (Scheduler.runThread body : HostM Unit) h = .ok () h' →
      ∃ ms', Accounted (ms ++ ms') h'

/-- Whatever happens after boot, if only timer interrupts tick, the tick counter is the number of
timer interrupts, and each of them is charged once: to the account of the thread that was running
when it came. -/
theorem Metered.charges {ms : List Moment} (hbooted : h₀.Booted) (hmetered : Metered h₀ ms h) :
    Charged ms h := by
  obtain ⟨⟨r, ho⟩, hacc⟩ := hmetered.accounted hbooted
  refine {
    toAccounted := hacc
    one := ⟨h.scheduler.account r, fun a => ho.runsOn_iff.trans eq_comm⟩
    interrupt := fun deed h' hallowed hdeed hrun => (ho.perform hallowed hrun).2.1 hdeed
    others := fun deed h' hallowed hdeed hrun => (ho.perform hallowed hrun).2.2 hdeed
    life := fun body h' hbody hlife => ?_ }
  obtain ⟨ms', hlived⟩ := hmetered.runThread hbody hlife
  exact ⟨ms', (hlived.accounted hbooted).2⟩

/-- The boot thread loses its privilege after a tick, and goes to sleep after another. A third tick
comes in the thread that it created, which exits, and three more in the idle thread, whose account
they go to whatever its privilege. -/
def chargesSample : List Moment × Host :=
  meter [] sample
    [.call (.create "a" 3 threadBody 7), .preempt, .control 0x100000000 3, .preempt,
      .call (.setLevel .on), .call (.sleep 3), .preempt, .call .retire, .preempt,
      .control 0x40000000 1, .preempt, .preempt]

theorem charges_sample :
    sample.Booted ∧ Metered sample chargesSample.1 chargesSample.2 ∧
      delivered chargesSample.1 = 6 ∧ deliveredTo .idle chargesSample.1 = 3 ∧
      deliveredTo .kernel chargesSample.1 = 2 ∧ deliveredTo .user chargesSample.1 = 1 ∧
      chargesSample.2.scheduler.stats = { idle := 3, kernel := 2, user := 1 } ∧
      Charged chargesSample.1 chargesSample.2 := by
  have hmetered : Metered sample chargesSample.1 chargesSample.2 := Metered.nil.meter _
  exact ⟨booted_sample, hmetered, by decide +kernel, by decide +kernel, by decide +kernel,
    by decide +kernel, by decide +kernel, Metered.charges booted_sample hmetered⟩

end Host

end RoundRobin
