import RoundRobin.Proofs.Host.Running
import RoundRobin.Proofs.Scheduler.Sleeper

/-!
# Sleep is exact

When sleepers are woken by the tick handler alone, a thread that goes to sleep is asleep up to its
wake tick, whatever others do, and the tick that reaches it makes the thread ready.
-/

namespace RoundRobin.Host

open Scheduler

variable {h h' h₀ h₁ h₂ h₃ : Host} {before after es : List Event} {call : Call}
  {created : Option Nat} {b r n tid start wake : Nat} {a : Action}

/-- The calls of a kernel that leaves the waking of sleepers to the tick handler. -/
def Timely (h : Host) : Call → Prop
  | .wake _ => False
  | call => Kernel h call

instance decidableTimely (h : Host) : (call : Call) → Decidable (Timely h call)
  | .wake _ => isFalse id
  | .unblock b => inferInstanceAs (Decidable (Kernel h (.unblock b)))
  | .retire => inferInstanceAs (Decidable (Kernel h .retire))
  | .create .. | .yieldNow | .block | .idlePass | .sleep _ | .sleepUntil _ | .msleep _ | .usleep _
  | .nsleep _ | .tick | .timerInterrupt | .takeYield | .setPriority _ | .setLevel _
  | .setInInterrupt _ => isTrue trivial

theorem Timely.kernel (hallowed : Timely h call) : Kernel h call := by
  cases call with
  | wake => cases hallowed
  | _ => exact hallowed

/-- The call puts the running thread to sleep until the tick `wake`, when the counter is at
`start`. -/
inductive Call.SleepsUntil (start : Nat) : Call → Nat → Prop
  | absolute (wake : Nat) : SleepsUntil start (.sleepUntil wake) wake
  | relative {ticks : Nat} (pos : ticks ≠ 0) : SleepsUntil start (.sleep ticks) (start + ticks)

/-- The thread `tid` in `b` is asleep until the tick `wake`. -/
structure Asleep (h : Host) (b tid wake : Nat) : Prop where
  tid_eq : (h.scheduler.threads.get b).tid = tid
  status : (h.scheduler.threads.get b).status = .blocked
  queued : b ∈ h.scheduler.sleepers.queue.members
  tick : (h.scheduler.threads.get b).wakeTick = some wake

/-- The thread `tid` in `b` was woken. -/
structure Awake (h : Host) (b tid : Nat) : Prop where
  tid_eq : (h.scheduler.threads.get b).tid = tid
  status : (h.scheduler.threads.get b).status = .ready
  queued : b ∈ h.scheduler.ready.members
  off_sleep : b ∉ h.scheduler.sleepers.queue.members
  tick : (h.scheduler.threads.get b).wakeTick = none

theorem Asleep.owner (hasleep : h.Asleep b tid wake) (ho : h.Orderly r) :
    (h.scheduler.threads.get b).owner = .sleep :=
  (ho.settled.linked.sleep.mem_iff b).mp hasleep.queued

/-- A sleeper is not the idle thread. -/
theorem Asleep.not_idle (hasleep : h.Asleep b tid wake) (ho : h.Orderly r) :
    h.scheduler.idle ≠ some b :=
  (ho.settled.asleep_of_owner (hasleep.owner ho)).2.2

/-- An unblock that is aimed at a sleeper halts. -/
theorem Asleep.unblock (hasleep : h.Asleep b tid wake) (ho : h.Orderly r) :
    (Scheduler.unblock b : HostM Unit) h =
      .error (.claimedWhileOwned tid .ready .sleep) (h.withLevel .off) := by
  have howner := hasleep.owner ho
  have hqueued : (h.scheduler.threads.get b).owner ≠ .detached := howner.trans_ne (by decide)
  have hintact := (ho.settled.parked_of_owner hqueued).intact
  rw [unblock_of_queued hintact hasleep.status hqueued, hasleep.tid_eq, howner,
    ho.settled.linked.ready.kind_eq]

/-- A sleeper is left alone by every step that does not reach its wake tick. -/
theorem Asleep.step (hasleep : h.Asleep b tid wake) (ho : h.Orderly r) (ht : h.Takes r a h' n)
    (hwake : ∀ now, a ≠ .wake now) (hlater : a = .interrupt → h.scheduler.ticks + 1 < wake) :
    h'.Asleep b tid wake := by
  have howner := hasleep.owner ho
  have hlive := ho.settled.housed.owned b (by rw [howner]; decide)
  have hget : h'.scheduler.threads.get b = h.scheduler.threads.get b := by
    by_cases ha : a = .interrupt
    · subst ha
      exact Step.get_of_later ht hasleep.tick (hlater rfl)
    · exact ht.get_of_still ho.settled hlive (hasleep.not_idle ho) (Or.inl ⟨howner, ha, hwake⟩)
  constructor
  · rw [hget]
    exact hasleep.tid_eq
  · rw [hget]
    exact hasleep.status
  · apply ((ht.orderly ho).settled.linked.sleep.mem_iff b).mpr
    rw [hget]
    exact howner
  · rw [hget]
    exact hasleep.tick

/-- The tick that reaches the wake tick of a sleeper wakes it. -/
theorem Asleep.wakes (hasleep : h.Asleep b tid wake) (ho : h.Orderly r)
    (ht : h.Takes r .interrupt h' n) (hdue : wake ≤ h.scheduler.ticks + 1) : h'.Awake b tid := by
  have hget := Step.get_of_due ht ho.settled (hasleep.owner ho) hasleep.tick hdue
  have hlinked := (ht.orderly ho).settled.linked
  constructor
  · rw [hget]
    exact hasleep.tid_eq
  · rw [hget]
  · apply (hlinked.ready.mem_iff b).mpr
    rw [hget]
  · intro hmem
    have howner := (hlinked.sleep.mem_iff b).mp hmem
    rw [hget] at howner
    cases howner
  · rw [hget]

/-- A thread that goes to sleep is asleep. -/
theorem Takes.asleep (ht : h.Takes r (.sleep wake) h' n) (ho : h.Orderly r) :
    h'.Asleep r (h.scheduler.threads.get r).tid wake := by
  have hget := Step.falls_asleep ht ho.settled
  constructor
  · rw [hget]
  · rw [hget]
  · apply ((ht.orderly ho).settled.linked.sleep.mem_iff r).mpr
    rw [hget]
  · rw [hget]

/-- The tick handler leaves no sleeper behind whose wake tick is reached. -/
theorem Takes.later_of_asleep (ht : h.Takes r .interrupt h' n) (ho : h.Orderly r)
    (hasleep : h'.Asleep b tid wake) : h'.scheduler.ticks < wake := by
  obtain ⟨w, hw, hlater⟩ :=
    Step.later_of_asleep ht ho.settled (hasleep.owner (ht.orderly ho))
  rw [hasleep.tick] at hw
  cases hw
  exact hlater

theorem Call.Amounts.sleep_of_sleepsUntil (hcall : call.SleepsUntil start wake)
    (ha : call.Amounts start a) : a = .sleep wake := by
  cases hcall with
  | absolute => exact ha
  | relative hpos =>
      rcases ha with ⟨hzero, -⟩ | ⟨-, hsleep⟩
      · exact absurd hzero hpos
      · exact hsleep

theorem Call.Amounts.ne_wake {now : Nat} (hallowed : Timely h call) (ha : call.Amounts now a)
    (tick : Nat) : a ≠ .wake tick := by
  rintro rfl
  cases call <;> simp_all [Call.Amounts, Timely]

theorem Run.kernel (hrun : Run Timely h₀ es h) : Run Kernel h₀ es h :=
  hrun.mono fun _ _ => Timely.kernel

/-- A sleeper, from the tick `start` on, in a run that has not reached its wake tick. -/
theorem Run.asleep (ho : ∃ r, h₂.Orderly r) (hasleep : h₂.Asleep b tid wake)
    (hstart : start ≤ h₂.scheduler.ticks) (hrun : Run Timely h₂ after h) :
    start ≤ h.scheduler.ticks ∧
      (h.scheduler.ticks < max wake (start + 1) → h.Asleep b tid wake) := by
  induction hrun with
  | nil => exact ⟨hstart, fun _ => hasleep⟩
  | @snoc es h h' call created hrun hallowed hperforms ih =>
      obtain ⟨hle, hih⟩ := ih
      obtain ⟨r, ho⟩ := hrun.kernel.orderly ho
      obtain ⟨a, n, hamounts, ht, -⟩ := Call.takes ho hallowed.kernel hperforms
      have hticks := ht.ticks_eq
      constructor
      · rw [hticks]
        split <;> omega
      · intro hlater
        have hbefore : h.scheduler.ticks < max wake (start + 1) := by
          rw [hticks] at hlater
          split at hlater <;> omega
        apply (hih hbefore).step ho ht (hamounts.ne_wake hallowed)
        -- the counter is past `start` already, so a tick that is not due yet is before `wake`
        rintro rfl
        rw [hticks, if_pos rfl] at hlater
        omega

/-- What is known of the thread `tid` in `b` once it went to sleep until the tick `wake`, with
`due` the first tick at which it can be woken. -/
structure SleepsExactly (h : Host) (b tid wake due : Nat) : Prop where
  /-- It is asleep before that tick. -/
  asleep : h.scheduler.ticks < due → h.Asleep b tid wake
  /-- That tick wakes it. -/
  woken : h.scheduler.ticks + 1 = due → ∀ created h',
    Call.timerInterrupt.perform h = .ok created h' →
      h'.scheduler.ticks = due ∧ h'.Awake b tid
  /-- No sleeper can be unblocked. -/
  halts : ∀ c tid wake, h.Asleep c tid wake → (Scheduler.unblock c : HostM Unit) h =
    .error (.claimedWhileOwned tid .ready .sleep) (h.withLevel .off)
  /-- No tick leaves a sleeper behind that it should have woken. -/
  punctual : ∀ created h', Call.timerInterrupt.perform h = .ok created h' →
    ∀ c tid wake, h'.Asleep c tid wake → h'.scheduler.ticks < wake

theorem takes_of_timerInterrupt (ho : h.Orderly r)
    (hperforms : Call.timerInterrupt.perform h = .ok created h') :
    ∃ n, h.Takes r .interrupt h' n := by
  have hadmissible : Call.timerInterrupt.Admissible h := trivial
  obtain ⟨a, n, rfl, ht, -⟩ := Call.takes ho hadmissible hperforms
  exact ⟨n, ht⟩

/-- Let the running thread go to sleep until a tick in a run in which only the tick handler wakes
sleepers. In every later state it is asleep as long as that tick, or the next one if the tick is
past, is not reached, and the tick handler wakes it as it is. -/
theorem Run.sleeps_exactly (hbooted : h₀.Booted) (hbefore : Run Timely h₀ before h₁)
    (hb : Block.base h₁.sp = b) (hcall : call.SleepsUntil h₁.scheduler.ticks wake)
    (hsleeps : call.perform h₁ = .ok created h₂) (hafter : Run Timely h₂ after h₃) :
    h₃.SleepsExactly b (h₁.scheduler.threads.get b).tid wake
      (max wake (h₁.scheduler.ticks + 1)) := by
  obtain ⟨r, ho₁⟩ := hbefore.kernel.exists_orderly hbooted
  rw [base_of_containing ho₁.here] at hb
  subst hb
  have hadmissible : call.Admissible h₁ := by
    cases hcall <;> exact trivial
  obtain ⟨a, n, hamounts, ht, -⟩ := Call.takes ho₁ hadmissible hsleeps
  obtain rfl := hamounts.sleep_of_sleepsUntil hcall
  have ho₂ := ht.orderly ho₁
  have hticks : h₂.scheduler.ticks = h₁.scheduler.ticks := by
    rw [ht.ticks_eq, if_neg (by simp)]
  obtain ⟨hle, hasleep⟩ :=
    Run.asleep (b := r) ⟨n, ho₂⟩ (ht.asleep ho₁) (Nat.le_of_eq hticks.symm) hafter
  obtain ⟨c, ho₃⟩ := hafter.kernel.orderly ⟨n, ho₂⟩
  constructor
  · exact hasleep
  · intro hdue created h' hperforms
    obtain ⟨n', ht'⟩ := takes_of_timerInterrupt ho₃ hperforms
    refine ⟨?_, (hasleep (by omega)).wakes ho₃ ht' (by omega)⟩
    rw [ht'.ticks_eq, if_pos rfl]
    exact hdue
  · intro c tid wake hc
    exact hc.unblock ho₃
  · intro created h' hperforms c tid wake hc
    obtain ⟨n', ht'⟩ := takes_of_timerInterrupt ho₃ hperforms
    exact ht'.later_of_asleep ho₃ hc

/-- The boot thread has created another one and is about to sleep. -/
def drowsySample : List Event × Host :=
  play Timely sample [.create "a" 3 threadBody 7]

/-- It has gone to sleep for two ticks. -/
def asleepSample : List Event × Host :=
  play Timely drowsySample.2 [.sleep 2]

/-- One tick is over, and the other thread has gone to sleep too. -/
def lateSample : List Event × Host :=
  play Timely asleepSample.2 [.timerInterrupt, .sleep 1]

theorem sleeps_exactly_sample :
    sample.Booted ∧ drowsySample.1.length = 1 ∧ asleepSample.1.length = 1 ∧
      lateSample.1.length = 2 ∧ lateSample.2.scheduler.ticks = 1 ∧
      (play Timely lateSample.2 [.timerInterrupt]).1.length = 1 ∧
      lateSample.2.SleepsExactly (Block.base drowsySample.2.sp) 1 2 2 := by
  have hslept : asleepSample.1.length = 1 := by decide +kernel
  have hticks : drowsySample.2.scheduler.ticks = 0 := by decide +kernel
  have htid : (drowsySample.2.scheduler.threads.get (Block.base drowsySample.2.sp)).tid = 1 := by
    decide +kernel
  obtain ⟨created, hsleeps⟩ := Run.performs_of_play hslept
  have hexact := Run.sleeps_exactly booted_sample (Run.play sample [.create "a" 3 threadBody 7])
    rfl (.relative (by decide)) hsleeps (Run.play asleepSample.2 [.timerInterrupt, .sleep 1])
  refine ⟨booted_sample, by decide +kernel, hslept, by decide +kernel, by decide +kernel,
    by decide +kernel, ?_⟩
  rw [← htid]
  have hmax : max (drowsySample.2.scheduler.ticks + 2) (drowsySample.2.scheduler.ticks + 1) = 2 := by
    rw [hticks]
    rfl
  rw [← hmax]
  exact hexact

end RoundRobin.Host
