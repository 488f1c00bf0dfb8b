import RoundRobin.Proofs.Host.Misuse
import RoundRobin.Proofs.Host.Sleepers

/-!
# Requests for sleep

A request names the length of the sleep in ticks or in a fraction of a second. On the way to a
wake tick two numbers can outgrow a word, and nothing keeps a request from it: such a request
halts. Every other one is granted.
-/

namespace RoundRobin.Host

open Scheduler

variable {h h' h₀ : Host} {es : List Event} {created : Option Nat} {n r : Nat}

/-- The unit in which the length of a sleep is given. -/
inductive SleepUnit where
  | tick
  | millisecond
  | microsecond
  | nanosecond
  deriving DecidableEq

namespace SleepUnit

variable {unit : SleepUnit}

/-- The request to sleep for `n` units. -/
def request (n : Nat) : SleepUnit → Call
  | tick => .sleep n
  | millisecond => .msleep n
  | microsecond => .usleep n
  | nanosecond => .nsleep n

/-- The whole ticks in `n` units. -/
def ticks (n : Nat) : SleepUnit → Nat
  | tick => n
  | millisecond => wholeTicks n 1000
  | microsecond => wholeTicks n 1000000
  | nanosecond => wholeTicks n 1000000000

/-- The halt for a sleep of `ticks` ticks that begins at the tick `now`, if its wake tick outgrows a
word. -/
def wakeOverflow (now ticks : Nat) : Option Halt :=
  if ticks ≠ 0 ∧ Word.limit64 ≤ now + ticks then some .addOverflow else none

/-- The halt for a sleep of `n` units that begins at the tick `now`, if a number outgrows a word. A
fraction of a second is multiplied by the tick rate first. -/
def overflow (now n : Nat) : SleepUnit → Option Halt
  | tick => wakeOverflow now n
  | unit =>
    if Word.limit64 ≤ n * Config.tickHz then some .multiplyOverflow
    else wakeOverflow now (unit.ticks n)

/-- A thread that may sleep breaks no rule but that the numbers fit. -/
theorem misuse_request (hlevel : h.level = .on) (hirq : h.inInterrupt = false)
    (hself : ¬ h.CallerIdle) :
    (unit.request n).misuse h = unit.overflow h.scheduler.ticks n := by
  have hnap : ∀ ticks, napMisuse h ticks = wakeOverflow h.scheduler.ticks ticks := by
    intro ticks
    by_cases hzero : ticks = 0
    · simp [napMisuse, wakeOverflow, hlevel, hzero]
    · simp [napMisuse, wakeOverflow, hlevel, hzero, hirq, hself]
  cases unit with
  | tick => exact hnap n
  | millisecond | microsecond | nanosecond =>
      simp only [request, Call.misuse, napForMisuse, hnap, overflow, ticks]

theorem ends_request (ho : h.Orderly r) (hidle : h.scheduler.idle ≠ none)
    (hloops : h.scheduler.loopsPerTick < Word.limit32) :
    Ends (unit.request n).perform h ((unit.request n).misuse h) := by
  cases unit with
  | tick => exact (ends_sleep ho hidle n).silently
  | millisecond | microsecond | nanosecond =>
      exact (ends_sleepFor ho hidle hloops (by decide) (by decide)).silently

/-- A request that is granted comes to a sleep for its whole ticks. -/
theorem sleep_of_request (hperforms : (unit.request n).perform h = .ok created h') :
    created = none ∧ (Scheduler.sleep (unit.ticks n) : HostM Unit) h = .ok () h' := by
  cases unit with
  | tick =>
      obtain ⟨hcreated, _, hsleep⟩ := Call.silently_eq_ok_iff.mp hperforms
      exact ⟨hcreated, hsleep⟩
  | millisecond | microsecond | nanosecond =>
      obtain ⟨hcreated, _, hsleep⟩ := Call.silently_eq_ok_iff.mp hperforms
      exact ⟨hcreated, (sleepFor_eq_ok_iff.mp hsleep).2.2.2⟩

end SleepUnit

/-- Let a kernel reach after boot a state in which a thread other than the idle thread runs with
interrupts on and outside of the tick handler. Its request for a sleep of any length halts exactly
if a number outgrows a word. Otherwise it is granted: a length of less than one tick changes
nothing, and a longer one leaves the caller asleep for its whole ticks. -/
theorem Run.sleep_request (hbooted : h₀.Booted) (hrun : Run Kernel h₀ es h)
    (hlevel : h.level = .on) (hirq : h.inInterrupt = false) (hself : ¬ h.CallerIdle)
    (n : Nat) (unit : SleepUnit) :
    (∀ cause, Halts (unit.request n).perform h cause ↔
        unit.overflow h.scheduler.ticks n = some cause) ∧
      (unit.overflow h.scheduler.ticks n = none →
        ∃ h', (unit.request n).perform h = .ok none h' ∧
          ((unit.ticks n = 0 ∧ h' = h) ∨
            (unit.ticks n ≠ 0 ∧ h'.Asleep (Block.base h.sp) h.callerTid
              (h.scheduler.ticks + unit.ticks n)))) := by
  obtain ⟨main, idle, hafter⟩ := hbooted.after
  obtain ⟨r, ho⟩ := hrun.orderly ⟨main, hafter.orderly⟩
  have hidle : h.scheduler.idle ≠ none := by
    rw [(hrun.ledger hafter).idle_eq]
    exact Option.some_ne_none idle
  have hloops : h.scheduler.loopsPerTick < Word.limit32 := by
    rw [(hrun.pool_place ⟨main, hafter.orderly⟩).2.2, hbooted.at_rest.2.2]
    decide
  have hends : Ends (unit.request n).perform h ((unit.request n).misuse h) :=
    SleepUnit.ends_request ho hidle hloops
  rw [SleepUnit.misuse_request hlevel hirq hself] at hends
  refine ⟨hends.iff.1, fun hfits => ?_⟩
  obtain ⟨created, h', hperforms⟩ := hends.iff.2.mpr hfits
  obtain ⟨rfl, hsleep⟩ := SleepUnit.sleep_of_request hperforms
  refine ⟨h', hperforms, ?_⟩
  rcases takes_sleep ho.here hsleep with ⟨hzero, hsame⟩ | ⟨hpos, next, ht⟩
  · exact Or.inl ⟨hzero, hsame⟩
  · refine Or.inr ⟨hpos, ?_⟩
    rw [callerTid, base_of_containing ho.here]
    exact ht.asleep ho

/-- One tick after boot. -/
def tickedSample : List Event × Host :=
  play Kernel sample [.setInInterrupt true, .timerInterrupt, .setInInterrupt false]

/-- A sleep of two and a half ticks lasts two. -/
theorem sleep_request_sample :
    sample.Booted ∧ tickedSample.1.length = 3 ∧ tickedSample.2.scheduler.ticks = 1 ∧
      tickedSample.2.level = .on ∧ tickedSample.2.inInterrupt = false ∧
      ¬ tickedSample.2.CallerIdle ∧
      SleepUnit.microsecond.overflow tickedSample.2.scheduler.ticks 25000 = none ∧
      ∃ h', (Call.usleep 25000).perform tickedSample.2 = .ok none h' ∧
        h'.Asleep 0x100000000 1 3 := by
  have hticks : tickedSample.2.scheduler.ticks = 1 := by decide +kernel
  have htid : tickedSample.2.callerTid = 1 := by decide +kernel
  have hbase : Block.base tickedSample.2.sp = 0x100000000 := by decide +kernel
  have hlevel : tickedSample.2.level = .on := by decide +kernel
  have hirq : tickedSample.2.inInterrupt = false := by decide +kernel
  have hself : ¬ tickedSample.2.CallerIdle := by decide +kernel
  have hfits : SleepUnit.microsecond.overflow tickedSample.2.scheduler.ticks 25000 = none := by
    rw [hticks]
    decide
  refine ⟨booted_sample, by decide +kernel, hticks, hlevel, hirq, hself, hfits, ?_⟩
  have hrun : Run Kernel sample tickedSample.1 tickedSample.2 := Run.play _ _
  obtain ⟨h', hperforms, ⟨hzero, -⟩ | ⟨-, hasleep⟩⟩ :=
    (Run.sleep_request booted_sample hrun hlevel hirq hself 25000 .microsecond).2 hfits
  · exact absurd hzero (by decide)
  · rw [hbase, htid, hticks] at hasleep
    exact ⟨h', hperforms, hasleep⟩

/-- Lengths that fit a word, but not once they are converted, or added to the tick counter. -/
theorem oversleep_halts :
    sample.Booted ∧ Run Kernel sample [] sample ∧
      sample.level = .on ∧ sample.inInterrupt = false ∧ ¬ sample.CallerIdle ∧
      184467440737095517 < Word.limit64 ∧
      Halts (Call.msleep 184467440737095517).perform sample .multiplyOverflow ∧
      Run Kernel sample tickedSample.1 tickedSample.2 ∧
      tickedSample.2.level = .on ∧ tickedSample.2.inInterrupt = false ∧
      ¬ tickedSample.2.CallerIdle ∧ 18446744073709551615 < Word.limit64 ∧
      Halts (Call.sleep 18446744073709551615).perform tickedSample.2 .addOverflow := by
  have hlevel : sample.level = .on := by decide +kernel
  have hlevel' : tickedSample.2.level = .on := by decide +kernel
  have hmul : Word.mul Word.limit64 184467440737095517 Config.tickHz = .error .multiplyOverflow :=
    if_neg (by decide)
  have hlong : Halts (msleep 184467440737095517) sample .multiplyOverflow :=
    (halts_liftM hmul).bind
  have hover : Word.limit64 ≤ tickedSample.2.scheduler.ticks + 18446744073709551615 := by
    decide +kernel
  have hlate : Halts (Scheduler.sleep 18446744073709551615) tickedSample.2 .addOverflow :=
    halts_sleep_of_add (by rw [hlevel']; decide) (by decide) hover
  exact ⟨booted_sample, .nil, hlevel, by decide +kernel, by decide +kernel, by decide,
    hlong.bind, Run.play _ _, hlevel', by decide +kernel, by decide +kernel, by decide,
    hlate.bind⟩

end RoundRobin.Host
