import RoundRobin.Proofs.Host.Step

/-!
# Runs of the kernel

The calls a kernel consists of, as data, and finite runs of them on the host in which nothing
halts. Between two calls one thread runs on its own stack and all others are parked.
-/

namespace RoundRobin.Host

open Scheduler

variable {h h' h₀ : Host} {u : Unit} {b r : Nat}

/-- A call of the kernel by the running thread, or a change of the processor on its behalf. -/
inductive Call where
  | create (name : String) (priority entry arg : Nat)
  | yieldNow
  | block
  /-- Unblock the thread in the block `b`. -/
  | unblock (b : Nat)
  | retire
  | idlePass
  | sleep (ticks : Nat)
  | sleepUntil (due : Nat)
  | msleep (ms : Nat)
  | usleep (us : Nat)
  | nsleep (ns : Nat)
  | tick
  | wake (now : Nat)
  | timerInterrupt
  | takeYield
  | setPriority (priority : Nat)
  | setLevel (level : Level)
  | setInInterrupt (on : Bool)
  deriving DecidableEq

namespace Call

/-- Do `act`, which creates no thread. -/
def silently {α : Type} (act : HostM α) : HostM (Option Nat) := do
  let _ ← act
  return none

/-- Carry out a call. Gives the identifier of the thread that was created, if one was. -/
def perform : Call → HostM (Option Nat)
  | create name priority entry arg => do
    return (← Scheduler.create name priority entry arg).toOption
  | yieldNow => silently Scheduler.yieldNow
  | block => silently Scheduler.block
  | unblock b => silently (Scheduler.unblock b)
  | retire => silently Scheduler.retire
  | idlePass => silently Scheduler.idlePass
  | sleep ticks => silently (Scheduler.sleep ticks)
  | sleepUntil due => silently (Scheduler.sleepUntil due)
  | msleep ms => silently (Scheduler.msleep ms)
  | usleep us => silently (Scheduler.usleep us)
  | nsleep ns => silently (Scheduler.nsleep ns)
  | tick => silently Scheduler.tick
  | wake now => silently (Scheduler.wake now)
  | timerInterrupt => silently Scheduler.timerInterrupt
  | takeYield => silently Host.takeYield
  | setPriority priority => silently (Scheduler.setPriority priority)
  | setLevel level => silently (Port.setLevel level)
  | setInInterrupt on => silently (modifyThe Host fun h => { h with inInterrupt := on })

/-- What a kernel may do: it unblocks live threads only, and its idle thread never exits. -/
def Admissible (h : Host) : Call → Prop
  | unblock b => h.scheduler.Live b
  | retire => ∀ r, Block.containing h.sp = .ok r → h.scheduler.idle ≠ some r
  | _ => True

instance decidableAdmissible (h : Host) : (call : Call) → Decidable (call.Admissible h)
  | unblock b => inferInstanceAs (Decidable (_ ∨ b ∈ h.scheduler.pool.blocksInUse))
  | retire =>
    match hsp : Block.containing h.sp with
    | .ok b => decidable_of_iff (h.scheduler.idle ≠ some b) (by simp [Admissible, hsp])
    | .error _ => isTrue (by simp [Admissible, hsp])
  | create .. | yieldNow | block | idlePass | sleep _ | sleepUntil _ | msleep _ | usleep _
  | nsleep _ | tick | wake _ | timerInterrupt | takeYield | setPriority _ | setLevel _
  | setInInterrupt _ => isTrue trivial

/-- The actions that a call at the tick `now` can amount to. -/
def Amounts (now : Nat) : Call → Action → Prop
  | create .., a => a = .count ∨ ∃ b, a = .create b
  | yieldNow, a => a = .yield
  | block, a => a = .block
  | unblock b, a => a = .unblock b
  | retire, a => a = .exit
  | idlePass, a => a = .block
  | sleep ticks, a => (ticks = 0 ∧ a = .count) ∨ (ticks ≠ 0 ∧ a = .sleep (now + ticks))
  | sleepUntil due, a => a = .sleep due
  | msleep _, a => a = .count ∨ ∃ due, a = .sleep due
  | usleep _, a => a = .count ∨ ∃ due, a = .sleep due
  | nsleep _, a => a = .count ∨ ∃ due, a = .sleep due
  | wake now, a => a = .wake now
  | timerInterrupt, a => a = .interrupt
  | tick, a => a = .count
  | takeYield, a => a = .count
  | setPriority _, a => a = .count
  | setLevel _, a => a = .count
  | setInInterrupt _, a => a = .count

theorem silently_eq_ok_iff {α : Type} {act : HostM α} {created : Option Nat} :
    silently act h = .ok created h' ↔ created = none ∧ ∃ a, act h = .ok a h' := by
  simp only [silently, bind_eq_ok_iff, pure_eq_ok_iff]
  constructor
  · rintro ⟨a, _, hact, rfl, rfl⟩
    exact ⟨rfl, a, hact⟩
  · rintro ⟨rfl, a, hact⟩
    exact ⟨a, _, hact, rfl, rfl⟩

theorem silently_of_ok {α : Type} {act : HostM α} {a : α} (hact : act h = .ok a h') :
    silently act h = .ok none h' :=
  silently_eq_ok_iff.mpr ⟨rfl, a, hact⟩

end Call

/-- The block of the thread that an action creates. -/
def createdBlock : Action → Option Nat
  | .create b => some b
  | _ => none

/-- The thread in `r` runs on its own stack, and all other threads are parked. -/
structure Orderly (h : Host) (r : Nat) : Prop where
  settled : h.scheduler.Settled Active r
  here : Block.containing h.sp = .ok r

theorem Takes.orderly {a : Action} {n : Nat} (ht : h.Takes r a h' n) (ho : h.Orderly r) :
    h'.Orderly n :=
  ⟨(ht.settled ho.settled ho.here).1, (ht.settled ho.settled ho.here).2⟩

namespace Call

variable {call : Call} {created : Option Nat}

/-- The call amounts to one step of the scheduling state, and tells the identifier of the thread
that the step created. -/
def Steps (h : Host) (r : Nat) (call : Call) (created : Option Nat) (h' : Host) : Prop :=
  ∃ a n, call.Amounts h.scheduler.ticks a ∧ h.Takes r a h' n ∧
    created = (createdBlock a).map fun b => (h'.scheduler.threads.get b).tid

/-- The calling thread gives up the processor. -/
def GivesUp : Call → Prop
  | yieldNow | block | retire | idlePass | sleepUntil _ => True
  | _ => False

/-- The calling thread asks for a sleep, which can be too short to give up the processor for. -/
def Naps : Call → Prop
  | sleep _ | msleep _ | usleep _ | nsleep _ => True
  | _ => False

theorem steps_of_create {name : String} {priority entry arg : Nat}
    (hplaced : h.scheduler.pool.Placed)
    (hrun : (create name priority entry arg).perform h = .ok created h') :
    (create name priority entry arg).Steps h r created h' := by
  simp only [perform, bind_eq_ok_iff, pure_eq_ok_iff] at hrun
  obtain ⟨res, _, hcreate, rfl, rfl⟩ := hrun
  rcases takes_create hplaced hcreate with ⟨rfl, rfl⟩ | ⟨b, ht, rfl⟩
  · exact ⟨.count, r, Or.inl rfl, takes_nothing _ r, rfl⟩
  · exact ⟨.create b, r, Or.inr ⟨b, rfl⟩, ht, rfl⟩

theorem steps_of_givesUp (hcall : call.GivesUp) (hs : h.scheduler.Reclaimable)
    (hsp : Block.containing h.sp = .ok r) (hadmissible : call.Admissible h)
    (hrun : call.perform h = .ok created h') : call.Steps h r created h' := by
  cases call with
  | yieldNow =>
      obtain ⟨rfl, u, hact⟩ := silently_eq_ok_iff.mp hrun
      obtain ⟨n, ht⟩ := takes_yieldNow hs hsp hact
      exact ⟨.yield, n, rfl, ht, rfl⟩
  | block =>
      obtain ⟨rfl, u, hact⟩ := silently_eq_ok_iff.mp hrun
      obtain ⟨n, ht⟩ := takes_block hsp hact
      exact ⟨.block, n, rfl, ht, rfl⟩
  | retire =>
      obtain ⟨rfl, u, hact⟩ := silently_eq_ok_iff.mp hrun
      obtain ⟨n, ht⟩ := takes_retire hs hsp (hadmissible r hsp) hact
      exact ⟨.exit, n, rfl, ht, rfl⟩
  | idlePass =>
      obtain ⟨rfl, u, hact⟩ := silently_eq_ok_iff.mp hrun
      obtain ⟨n, ht⟩ := takes_idlePass hsp hact
      exact ⟨.block, n, rfl, ht, rfl⟩
  | sleepUntil due =>
      obtain ⟨rfl, u, hact⟩ := silently_eq_ok_iff.mp hrun
      obtain ⟨n, ht⟩ := takes_sleepUntil hsp hact
      exact ⟨.sleep due, n, rfl, ht, rfl⟩
  | _ => cases hcall

theorem steps_of_naps (hcall : call.Naps) (hsp : Block.containing h.sp = .ok r)
    (hrun : call.perform h = .ok created h') : call.Steps h r created h' := by
  cases call with
  | sleep ticks =>
      obtain ⟨rfl, u, hact⟩ := silently_eq_ok_iff.mp hrun
      rcases takes_sleep hsp hact with ⟨hzero, rfl⟩ | ⟨hpos, n, ht⟩
      · exact ⟨.count, r, Or.inl ⟨hzero, rfl⟩, takes_nothing _ r, rfl⟩
      · exact ⟨_, n, Or.inr ⟨hpos, rfl⟩, ht, rfl⟩
  | msleep _ | usleep _ | nsleep _ =>
      obtain ⟨rfl, u, hact⟩ := silently_eq_ok_iff.mp hrun
      rcases takes_sleepFor hsp hact with rfl | ⟨due, n, ht⟩
      · exact ⟨.count, r, Or.inl rfl, takes_nothing _ r, rfl⟩
      · exact ⟨.sleep due, n, Or.inr ⟨due, rfl⟩, ht, rfl⟩
  | _ => cases hcall

/-- Every admissible call that returns amounts to a step. The calling thread runs on unless it gives
up the processor. -/
theorem takes_of_reclaimable (hs : h.scheduler.Reclaimable) (hsp : Block.containing h.sp = .ok r)
    (hadmissible : call.Admissible h) (hrun : call.perform h = .ok created h') :
    call.Steps h r created h' := by
  cases call with
  | create => exact steps_of_create hs.placed hrun
  | yieldNow | block | retire | idlePass | sleepUntil =>
      exact steps_of_givesUp trivial hs hsp hadmissible hrun
  | sleep | msleep | usleep | nsleep => exact steps_of_naps trivial hsp hrun
  | unblock b =>
      obtain ⟨rfl, u, hact⟩ := silently_eq_ok_iff.mp hrun
      exact ⟨.unblock b, r, rfl, takes_unblock hadmissible hact, rfl⟩
  | tick =>
      obtain ⟨rfl, u, hact⟩ := silently_eq_ok_iff.mp hrun
      exact ⟨.count, r, rfl, takes_tick hact, rfl⟩
  | wake now =>
      obtain ⟨rfl, u, hact⟩ := silently_eq_ok_iff.mp hrun
      exact ⟨.wake now, r, rfl, takes_wake hact, rfl⟩
  | timerInterrupt =>
      obtain ⟨rfl, u, hact⟩ := silently_eq_ok_iff.mp hrun
      exact ⟨.interrupt, r, rfl, takes_timerInterrupt hact, rfl⟩
  | setPriority priority =>
      obtain ⟨rfl, u, hact⟩ := silently_eq_ok_iff.mp hrun
      exact ⟨.count, r, rfl, takes_setPriority hsp hact, rfl⟩
  | setLevel level =>
      obtain ⟨rfl, old, hact⟩ := silently_eq_ok_iff.mp hrun
      obtain ⟨-, rfl⟩ := setLevel_eq_ok_iff.mp hact
      exact ⟨.count, r, rfl, takes_nothing _ r, rfl⟩
  | takeYield | setInInterrupt _ =>
      obtain ⟨rfl, _, hact⟩ := silently_eq_ok_iff.mp hrun
      cases hact
      exact ⟨.count, r, rfl, takes_nothing _ r, rfl⟩

theorem takes (ho : h.Orderly r) (hadmissible : call.Admissible h)
    (hrun : call.perform h = .ok created h') : call.Steps h r created h' := by
  have hhere : (h.scheduler.threads.get r).owner ≠ .destruction := by
    rw [ho.settled.here.owner]
    decide
  exact takes_of_reclaimable (ho.settled.reclaimable hhere) ho.here hadmissible hrun

end Call

/-- The life of a thread unmasks interrupts, is its body, and ends in an exit. -/
theorem Call.performs_of_runThread {body : HostM Unit}
    (hlife : (Scheduler.runThread body : HostM Unit) h = .ok u h') :
    ∃ h₁, (Call.setLevel .on).perform h = .ok none (h.withLevel .on) ∧
      body (h.withLevel .on) = .ok () h₁ ∧ Call.retire.perform h₁ = .ok none h' := by
  obtain ⟨h₁, hbody, hretire⟩ := runThread_eq_ok_iff.mp hlife
  exact ⟨h₁, silently_of_ok (setLevel_eq_ok_iff.mpr ⟨rfl, rfl⟩), hbody, silently_of_ok hretire⟩

/-- Identifier of the thread whose stack is in use. -/
def callerTid (h : Host) : Nat :=
  (h.scheduler.threads.get (Block.base h.sp)).tid

/-- A call in a run and what became of it. -/
structure Event where
  /-- Identifier of the thread that made the call. -/
  caller : Nat
  call : Call
  /-- Identifier of the thread that was created. -/
  created : Option Nat
  /-- Identifiers of the threads whose blocks went back to the pool. -/
  freed : List Nat

/-- Identifiers of the threads whose blocks are in use in `h` and free in `h'`. -/
def freedBetween (h h' : Host) : List Nat :=
  (h.scheduler.pool.blocksInUse.filter (· ∉ h'.scheduler.pool.blocksInUse)).map fun b =>
    (h.scheduler.threads.get b).tid

/-- The event of a call that led from `h` to `h'`. -/
def Event.between (h : Host) (call : Call) (created : Option Nat) (h' : Host) : Event :=
  { caller := h.callerTid, call, created, freed := freedBetween h h' }

/-- A finite run of calls that are allowed where they are made, none of which halts. -/
inductive Run (Allowed : Host → Call → Prop) (h₀ : Host) : List Event → Host → Prop
  | nil : Run Allowed h₀ [] h₀
  | snoc {es : List Event} {h h' : Host} {call : Call} {created : Option Nat}
      (run : Run Allowed h₀ es h) (allowed : Allowed h call)
      (performs : call.perform h = .ok created h') :
      Run Allowed h₀ (es ++ [.between h call created h']) h'

/-- The calls that a kernel makes. -/
def Kernel (h : Host) (call : Call) : Prop :=
  call.Admissible h

instance (h : Host) (call : Call) : Decidable (Kernel h call) :=
  Call.decidableAdmissible h call

/-- Make calls one after another, up to the first that is not allowed or halts. Gives the events
and the host they lead to. -/
def play (Allowed : Host → Call → Prop) [∀ h call, Decidable (Allowed h call)] (h : Host) :
    List Call → List Event × Host
  | [] => ([], h)
  | call :: rest =>
    if Allowed h call then
      match call.perform h with
      | .ok created h' =>
        let (es, last) := play Allowed h' rest
        (.between h call created h' :: es, last)
      | .error _ _ => ([], h)
    else
      ([], h)

namespace Run

variable {Allowed Permitted : Host → Call → Prop} {es es₁ es₂ : List Event}

theorem mono (hsub : ∀ h call, Allowed h call → Permitted h call) (hrun : Run Allowed h₀ es h) :
    Run Permitted h₀ es h := by
  induction hrun with
  | nil => exact .nil
  | snoc _ hallowed hperforms ih => exact .snoc ih (hsub _ _ hallowed) hperforms

theorem append (h₁ : Run Allowed h₀ es₁ h) (h₂ : Run Allowed h es₂ h') :
    Run Allowed h₀ (es₁ ++ es₂) h' := by
  induction h₂ with
  | nil => simpa using h₁
  | snoc _ hallowed hperforms ih =>
      rw [← List.append_assoc]
      exact .snoc ih hallowed hperforms

/-- A run of several calls passes through a state after each of them. -/
theorem split (hrun : Run Allowed h₀ (es₁ ++ es₂) h') :
    ∃ h, Run Allowed h₀ es₁ h ∧ Run Allowed h es₂ h' := by
  generalize hes : es₁ ++ es₂ = es at hrun
  induction hrun generalizing es₂ with
  | nil =>
      obtain ⟨rfl, rfl⟩ := List.append_eq_nil_iff.mp hes
      exact ⟨h₀, .nil, .nil⟩
  | @snoc es h h' call created hrun hallowed hperforms ih =>
      rcases List.eq_nil_or_concat' es₂ with rfl | ⟨front, last, rfl⟩
      · rw [List.append_nil] at hes
        rw [hes]
        exact ⟨h', .snoc hrun hallowed hperforms, .nil⟩
      · rw [← List.append_assoc] at hes
        obtain ⟨hfront, hlast⟩ := List.append_inj' hes rfl
        obtain ⟨h₁, hleft, hright⟩ := ih hfront
        cases hlast
        exact ⟨h₁, hleft, .snoc hright hallowed hperforms⟩

theorem eq_of_nil (hrun : Run Allowed h₀ [] h) : h = h₀ := by
  generalize hes : ([] : List Event) = es at hrun
  cases hrun with
  | nil => rfl
  | snoc => exact absurd hes.symm (List.append_ne_nil_of_right_ne_nil _ (List.cons_ne_nil _ _))

/-- A run of at least one call begins with one. -/
theorem uncons {e : Event} (hrun : Run Allowed h₀ (e :: es) h) :
    ∃ h₁ call created, Allowed h₀ call ∧ call.perform h₀ = .ok created h₁ ∧
      e = .between h₀ call created h₁ ∧ Run Allowed h₁ es h := by
  rw [← List.singleton_append] at hrun
  obtain ⟨h₁, hfirst, hrest⟩ := hrun.split
  generalize hfront : [e] = front at hfirst
  cases hfirst with
  | nil => cases hfront
  | @snoc before g _ call created hbefore hallowed hperforms =>
      rw [← List.nil_append [e]] at hfront
      obtain ⟨hempty, hlast⟩ := List.append_inj' hfront rfl
      cases hlast
      obtain rfl := eq_of_nil (hempty ▸ hbefore)
      exact ⟨h₁, call, created, hallowed, hperforms, rfl, hrest⟩

/-- Calls that are played make up a run. -/
theorem play [∀ h call, Decidable (Allowed h call)] (h : Host) (calls : List Call) :
    Run Allowed h (Host.play Allowed h calls).1 (Host.play Allowed h calls).2 := by
  induction calls generalizing h with
  | nil => exact .nil
  | cons call rest ih =>
      rw [Host.play]
      by_cases hallowed : Allowed h call
      · rw [if_pos hallowed]
        cases hperforms : call.perform h with
        | ok created h' => exact Run.append (.snoc .nil hallowed hperforms) (ih h')
        | error cause h' => exact .nil
      · rw [if_neg hallowed]
        exact .nil

theorem performs_of_play [∀ h call, Decidable (Allowed h call)] {call : Call}
    (hlength : (Host.play Allowed h [call]).1.length = 1) :
    ∃ created, call.perform h = .ok created (Host.play Allowed h [call]).2 := by
  rw [Host.play] at hlength ⊢
  by_cases hallowed : Allowed h call
  · rw [if_pos hallowed] at hlength ⊢
    cases hperforms : call.perform h with
    | ok created h' => exact ⟨created, rfl⟩
    | error cause h' =>
        rw [hperforms] at hlength
        cases hlength
  · rw [if_neg hallowed] at hlength
    cases hlength

/-- Between two calls of a kernel one thread runs and all others are parked. -/
theorem orderly (hstart : ∃ r, h₀.Orderly r) (hrun : Run Kernel h₀ es h) : ∃ r, h.Orderly r := by
  induction hrun with
  | nil => exact hstart
  | snoc _ hallowed hperforms ih =>
      obtain ⟨r, ho⟩ := ih
      obtain ⟨a, n, -, ht, -⟩ := Call.takes ho hallowed hperforms
      exact ⟨n, ht.orderly ho⟩

/-- The life of a thread whose body is a run of the kernel is a run of the kernel. -/
theorem runThread {body : HostM Unit} (hrun : Run Kernel h₀ es h)
    (hbody : ∀ h₁, body (h.withLevel .on) = .ok () h₁ →
      (∃ es', Run Kernel (h.withLevel .on) es' h₁) ∧ Kernel h₁ .retire)
    (hlife : (Scheduler.runThread body : HostM Unit) h = .ok u h') :
    ∃ es', Run Kernel h₀ (es ++ es') h' := by
  obtain ⟨h₁, henter, hrunBody, hretire⟩ := Call.performs_of_runThread hlife
  obtain ⟨⟨es', hmiddle⟩, hallowed⟩ := hbody h₁ hrunBody
  have hmasks : Kernel h (.setLevel .on) := trivial
  have hall := ((hrun.snoc hmasks henter).append hmiddle).snoc hallowed hretire
  rw [List.append_assoc, List.append_assoc] at hall
  exact ⟨_, hall⟩

/-- A timer interrupt, with a yield if the handler asked for one, is a run of the kernel. -/
theorem interruptAndPreempt (hrun : Run Kernel h₀ es h)
    (hinterrupt : Host.interruptAndPreempt h = .ok u h') :
    ∃ es', Run Kernel h₀ (es ++ es') h' := by
  obtain ⟨_, h₁, hhandler, hrest⟩ := bind_eq_ok_iff.mp hinterrupt
  obtain ⟨pending, h₂, htake, hyield⟩ := bind_eq_ok_iff.mp hrest
  obtain ⟨_, g₁, henter, hhandler⟩ := bind_eq_ok_iff.mp hhandler
  obtain ⟨_, g₂, htimer, hleave⟩ := bind_eq_ok_iff.mp hhandler
  have henter' : Call.perform (.setInInterrupt true) h = .ok none g₁ :=
    Call.silently_of_ok henter
  have htimer' : Call.perform .timerInterrupt g₁ = .ok none g₂ :=
    Call.silently_of_ok htimer
  have hleave' : Call.perform (.setInInterrupt false) g₂ = .ok none h₁ :=
    Call.silently_of_ok hleave
  have htake' : Call.perform .takeYield h₁ = .ok none h₂ :=
    Call.silently_of_ok htake
  have hallowed : ∀ (g : Host) (on : Bool), Kernel g (.setInInterrupt on) ∧
      Kernel g .timerInterrupt ∧ Kernel g .takeYield ∧ Kernel g .yieldNow :=
    fun _ _ => ⟨trivial, trivial, trivial, trivial⟩
  have hfour := (((hrun.snoc (hallowed h true).1 henter').snoc (hallowed g₁ true).2.1
    htimer').snoc (hallowed g₂ false).1 hleave').snoc (hallowed h₁ true).2.2.1 htake'
  simp only [List.append_assoc] at hfour
  cases pending with
  | false =>
      obtain ⟨-, rfl⟩ := pure_eq_ok_iff.mp hyield
      exact ⟨_, hfour⟩
  | true =>
      have hyield' : Call.perform .yieldNow h₂ = .ok none h' :=
        Call.silently_of_ok hyield
      have hfive := hfour.snoc (hallowed h₂ true).2.2.2 hyield'
      simp only [List.append_assoc] at hfive
      exact ⟨_, hfive⟩

end Run

end RoundRobin.Host
