import RoundRobin.Proofs.Host.Progress
import RoundRobin.Proofs.Host.Refinement

/-!
# Misuse

The rules that the callers of the kernel have to keep, and what happens to one who does not: the
call halts for the rule that is broken. A caller who keeps them never sees a halt, so the checks
that the kernel makes of its own state are never the ones that fail.
-/

namespace RoundRobin

/-- Whether the cause is that the scheduler found its own state broken, and not that a caller broke
a rule. -/
def Halt.isInternal : Halt → Bool
  | outsideBlocks _ | notFromPool _ | doubleFree _ | releasedUnowned .. | alreadyLinked
  | noWakeTick _ | corrupted _ | notRunning _ | unblockCorrupted _ | doScheduleUnmasked
  | reclaimingOwnBlock _ | nothingToRun | scheduleUnmasked | stillRunning _ | nextCorrupted _
  | switchUnmasked | divisionByZero => true
  | claimedWhileOwned _ queue owner => !(queue = .ready && owner = .sleep)
  | _ => false

namespace Host

open Scheduler

variable {h h' h₀ h₁ : Host} {α β : Type} {es : List Event} {call : Call} {cause : Halt} {b r : Nat}

/-- The running thread is the idle thread. -/
def CallerIdle (h : Host) : Prop :=
  h.scheduler.idle = some (Block.base h.sp)

instance (h : Host) : Decidable h.CallerIdle :=
  inferInstanceAs (Decidable (_ = _))

/-- The halt for the priority `priority`, if it is out of range. -/
def priorityMisuse (priority : Nat) : Option Halt :=
  if Config.priorityMax < priority then some (.priorityOutOfRange priority) else none

/-- The rule that a sleep for `ticks` ticks breaks on `h`. -/
def napMisuse (h : Host) (ticks : Nat) : Option Halt :=
  if h.level = .off then some .sleepMasked
  else if ticks = 0 then none
  else if Word.limit64 ≤ h.scheduler.ticks + ticks then some .addOverflow
  else if h.inInterrupt then some .sleepInInterrupt
  else if h.CallerIdle then some .idleSleep
  else none

/-- The rule that a sleep for `num / denom` seconds breaks on `h`. -/
def napForMisuse (h : Host) (num denom : Nat) : Option Halt :=
  if Word.limit64 ≤ num * Config.tickHz then some .multiplyOverflow
  else napMisuse h (wholeTicks num denom)

/-- The rule that a call made on `h` breaks, as the halt for it. -/
def Call.misuse (h : Host) : Call → Option Halt
  | yieldNow => if h.inInterrupt then some .yieldInInterrupt else none
  | block =>
    if h.inInterrupt then some .blockInInterrupt
    else if h.level = .on then some .blockUnmasked
    else none
  | unblock b =>
    let t := h.scheduler.threads.get b
    if t.status ≠ .blocked then some (.notBlocked t.tid)
    else if b ∈ h.scheduler.sleepers.queue.members then
      some (.claimedWhileOwned t.tid .ready .sleep)
    else none
  | sleepUntil _ =>
    if h.inInterrupt then some .sleepInInterrupt
    else if h.level = .on then some .sleepUntilUnmasked
    else if h.CallerIdle then some .idleSleep
    else none
  | sleep ticks => napMisuse h ticks
  | msleep ms => napForMisuse h ms 1000
  | usleep us => napForMisuse h us 1000000
  | nsleep ns => napForMisuse h ns 1000000000
  | retire => if h.inInterrupt then some .exitInInterrupt else none
  | idlePass => if h.inInterrupt then some .blockInInterrupt else none
  | create _ priority _ _ => priorityMisuse priority
  | setPriority priority => priorityMisuse priority
  | wake _ | tick | timerInterrupt | takeYield | setLevel _ | setInInterrupt _ => none

/-- A broken rule is the fault of the caller. -/
theorem Call.misuse_external (hmisuse : call.misuse h = some cause) :
    cause.isInternal = false := by
  have hnap : ∀ ticks, napMisuse h ticks = some cause → cause.isInternal = false := by
    intro ticks hnap
    unfold napMisuse at hnap
    split_ifs at hnap <;> cases hnap <;> rfl
  have hnapFor : ∀ num denom, napForMisuse h num denom = some cause →
      cause.isInternal = false := by
    intro num denom hnapFor
    unfold napForMisuse at hnapFor
    split_ifs at hnapFor
    · cases hnapFor
      rfl
    · exact hnap _ hnapFor
  have hpriority : ∀ priority, priorityMisuse priority = some cause →
      cause.isInternal = false := by
    intro priority hpriority
    unfold priorityMisuse at hpriority
    split_ifs at hpriority
    cases hpriority
    rfl
  cases call with
  | sleep => exact hnap _ hmisuse
  | msleep | usleep | nsleep => exact hnapFor _ _ hmisuse
  | create | setPriority => exact hpriority _ hmisuse
  | yieldNow | block | unblock | sleepUntil | retire | idlePass =>
      simp only [misuse] at hmisuse
      split_ifs at hmisuse <;> cases hmisuse <;> rfl
  | wake | tick | timerInterrupt | takeYield | setLevel | setInInterrupt => cases hmisuse

/-- `act` halts for `cause` when it is started on `h`. -/
def Halts (act : HostM α) (h : Host) (cause : Halt) : Prop :=
  ∃ h', act h = .error cause h'

theorem Halts.bind {x : HostM α} {f : α → HostM β} (hx : Halts x h cause) :
    Halts (x >>= f) h cause := by
  obtain ⟨h', hx⟩ := hx
  exact ⟨h', bind_of_error hx⟩

theorem halts_bind_of_ok {x : HostM α} {f : α → HostM β} {a : α} (hx : x h = .ok a h₁)
    (hrest : Halts (f a) h₁ cause) : Halts (x >>= f) h cause := by
  obtain ⟨h', hrest⟩ := hrest
  exact ⟨h', (bind_of_ok hx).trans hrest⟩

theorem halts_liftM {x : Except Halt α} (hx : x = .error cause) :
    Halts (liftM x : HostM α) h cause := by
  rw [hx]
  exact ⟨h, rfl⟩

theorem halts_require {p : Prop} [Decidable p] (hp : ¬ p) :
    Halts (liftM (require p cause) : HostM Unit) h cause :=
  halts_liftM (if_neg hp)

theorem require_eq_ok {p : Prop} [Decidable p] (hp : p) :
    (liftM (require p cause) : HostM Unit) h = .ok () h :=
  (liftM_eq_ok_iff (a := ())).mpr ⟨require_eq_ok_iff.mpr hp, rfl⟩

theorem require_eq_error {p : Prop} [Decidable p] (hp : ¬ p) :
    (liftM (require p cause) : HostM Unit) h = .error cause h := by
  rw [require, if_neg hp]
  rfl

theorem level_on (hlevel : h.level ≠ .off) : h.level = .on := by
  cases hon : h.level with
  | on => rfl
  | off => exact absurd hon hlevel

theorem level_off (hlevel : h.level ≠ .on) : h.level = .off := by
  cases hoff : h.level with
  | off => rfl
  | on => exact absurd hoff hlevel

/-- `act` halts on `h` for the cause if there is one, and otherwise returns. -/
def Ends (act : HostM α) (h : Host) : Option Halt → Prop
  | some cause => Halts act h cause
  | none => Returns act h

theorem Ends.ite {act : HostM α} {p : Prop} [Decidable p] {rest : Option Halt}
    (hbroken : p → Halts act h cause) (hkept : ¬ p → Ends act h rest) :
    Ends act h (if p then some cause else rest) := by
  split
  · next hp => exact hbroken hp
  · next hp => exact hkept hp

theorem Ends.then_pure {act : HostM α} {m : Option Halt} (hends : Ends act h m)
    (f : α → β) : Ends (do return f (← act)) h m := by
  cases m with
  | some cause => exact Halts.bind hends
  | none =>
      obtain ⟨a, h', hact⟩ := hends
      exact ⟨f a, h', (bind_of_ok hact).trans rfl⟩

theorem Ends.silently {act : HostM α} {m : Option Halt} (hends : Ends act h m) :
    Ends (Call.silently act) h m :=
  hends.then_pure fun _ => none

/-- A computation ends in one way only. -/
theorem Ends.iff {act : HostM α} {m : Option Halt} (hends : Ends act h m) :
    (∀ cause, Halts act h cause ↔ m = some cause) ∧ (Returns act h ↔ m = none) := by
  cases m with
  | some reason =>
      obtain ⟨g, hact⟩ := hends
      constructor
      · intro cause
        constructor
        · rintro ⟨g', hact'⟩
          cases hact.symm.trans hact'
          rfl
        · rintro ⟨⟩
          exact ⟨g, hact⟩
      · constructor
        · rintro ⟨a, g', hact'⟩
          cases hact.symm.trans hact'
        · rintro ⟨⟩
  | none =>
      obtain ⟨a, g, hact⟩ := hends
      constructor
      · intro cause
        constructor
        · rintro ⟨g', hact'⟩
          cases hact.symm.trans hact'
        · rintro ⟨⟩
      · exact iff_of_true ⟨a, g, hact⟩ rfl

theorem Orderly.callerIdle_iff (ho : h.Orderly r) : h.CallerIdle ↔ h.scheduler.idle = some r := by
  rw [CallerIdle, base_of_containing ho.here]

section

variable {rest : HostM α} {other : Halt}

theorem halts_of_inInterrupt (hirq : h.inInterrupt = true) :
    Halts (do require ((← Port.inInterrupt) = false) cause; rest) h cause := by
  refine halts_bind_of_ok (inInterrupt_eq_ok_iff.mpr ⟨rfl, rfl⟩) (halts_require ?_).bind
  simp [hirq]

theorem halts_past_inInterrupt (hirq : ¬ h.inInterrupt = true) (hrest : Halts rest h cause) :
    Halts (do require ((← Port.inInterrupt) = false) other; rest) h cause :=
  halts_bind_of_ok (inInterrupt_eq_ok_iff.mpr ⟨rfl, rfl⟩)
    (halts_bind_of_ok (require_eq_ok (by simpa using hirq)) hrest)

theorem halts_of_level {l : Level} (hlevel : h.level ≠ l) :
    Halts (do require ((← Port.level) = l) cause; rest) h cause :=
  halts_bind_of_ok (level_eq_ok_iff.mpr ⟨rfl, rfl⟩) (halts_require hlevel).bind

theorem halts_past_level {l : Level} (hlevel : h.level = l) (hrest : Halts rest h cause) :
    Halts (do require ((← Port.level) = l) other; rest) h cause :=
  halts_bind_of_ok (level_eq_ok_iff.mpr ⟨rfl, rfl⟩)
    (halts_bind_of_ok (require_eq_ok hlevel) hrest)

end

/-- A sleep of some ticks goes on to a sleep until a tick, with interrupts masked. -/
theorem halts_sleep_of_sleepUntil {ticks : Nat} (hlevel : h.level ≠ .off) (hpos : ticks ≠ 0)
    (hfits : h.scheduler.ticks + ticks < Word.limit64)
    (hsleeps : Halts (sleepUntil (h.scheduler.ticks + ticks)) (h.withLevel .off) cause) :
    Halts (sleep ticks) h cause := by
  refine halts_past_level (level_on hlevel) ?_
  rw [if_pos hpos]
  exact halts_bind_of_ok (readTicks_eq_ok_iff.mpr ⟨rfl, rfl⟩)
    (halts_bind_of_ok (disable_eq_ok_iff.mpr ⟨rfl, rfl⟩)
      (halts_bind_of_ok (liftM_eq_ok_iff.mpr ⟨Word.add_eq_ok_iff.mpr ⟨hfits, rfl⟩, rfl⟩)
        hsleeps.bind))

theorem halts_sleep_of_add {ticks : Nat} (hlevel : h.level ≠ .off) (hpos : ticks ≠ 0)
    (hlarge : Word.limit64 ≤ h.scheduler.ticks + ticks) : Halts (sleep ticks) h .addOverflow := by
  have hadd : Word.add Word.limit64 h.scheduler.ticks ticks = .error .addOverflow :=
    if_neg (Nat.not_lt.mpr hlarge)
  refine halts_past_level (level_on hlevel) ?_
  rw [if_pos hpos]
  exact halts_bind_of_ok (readTicks_eq_ok_iff.mpr ⟨rfl, rfl⟩)
    (halts_bind_of_ok (disable_eq_ok_iff.mpr ⟨rfl, rfl⟩) (halts_liftM hadd).bind)

/-- A sleep for a duration breaks the rule that the sleep for its whole ticks breaks. -/
theorem halts_sleepFor_of_sleep {num denom : Nat} (hfits : num * Config.tickHz < Word.limit64)
    (hdenom : denom ≠ 0) (hmisuse : napMisuse h (wholeTicks num denom) = some cause)
    (hsleep : Halts (sleep (wholeTicks num denom)) h cause) :
    Halts (sleepFor num denom) h cause := by
  refine halts_bind_of_ok (liftM_eq_ok_iff.mpr ⟨Word.mul_eq_ok_iff.mpr ⟨hfits, rfl⟩, rfl⟩)
    (halts_bind_of_ok (liftM_eq_ok_iff.mpr ⟨Word.div_eq_ok_iff.mpr ⟨hdenom, rfl⟩, rfl⟩) ?_)
  by_cases hlevel : h.level = .off
  · have hcause : cause = .sleepMasked := by
      simpa [napMisuse, hlevel, eq_comm] using hmisuse
    rw [hcause]
    exact halts_of_level (by simp [hlevel])
  · refine halts_past_level (level_on hlevel) ?_
    have hpos : wholeTicks num denom ≠ 0 := by
      intro hzero
      simp [napMisuse, hlevel, hzero] at hmisuse
    have hlong : num * Config.tickHz / denom > 0 := Nat.pos_of_ne_zero hpos
    rw [if_pos hlong]
    exact hsleep

section

variable (ho : h.Orderly r) (hidle : h.scheduler.idle ≠ none)

include ho hidle

theorem ends_yieldNow : Ends yieldNow h (Call.yieldNow.misuse h) :=
  .ite halts_of_inInterrupt fun hirq => returns_yieldNow ho hidle (by simpa using hirq)

theorem ends_block : Ends block h (Call.block.misuse h) := by
  refine .ite halts_of_inInterrupt fun hirq => .ite (fun hlevel => ?_) fun hlevel =>
    returns_block ho hidle (by simpa using hirq) (level_off hlevel)
  exact halts_past_inInterrupt hirq (halts_of_level (by simp [hlevel]))

theorem ends_idlePass (hwaits : h.waits + 1 < Word.limit64) :
    Ends idlePass h (Call.idlePass.misuse h) := by
  refine .ite (fun hirq => ?_) fun hirq => returns_idlePass ho hidle (by simpa using hirq) hwaits
  have hblock : Halts block (h.withLevel .off) .blockInInterrupt := halts_of_inInterrupt hirq
  exact halts_bind_of_ok (disable_eq_ok_iff.mpr ⟨rfl, rfl⟩) hblock.bind

theorem ends_retire (hself : h.scheduler.idle ≠ some r) : Ends retire h (Call.retire.misuse h) :=
  .ite halts_of_inInterrupt fun hirq => returns_retire ho hidle (by simpa using hirq) hself

omit hidle in
/-- The idle thread is found out once the rules for the processor are kept. -/
theorem halts_sleepUntil_of_idle {wake : Nat} (hirq : ¬ h.inInterrupt = true)
    (hlevel : h.level = .off) (hself : h.CallerIdle) : Halts (sleepUntil wake) h .idleSleep := by
  refine halts_past_inInterrupt hirq (halts_past_level hlevel ?_)
  refine halts_bind_of_ok (current_eq_ok_iff.mpr ⟨ho.isCurrent, rfl⟩)
    (halts_bind_of_ok (isIdle_eq_ok_iff.mpr ⟨rfl, rfl⟩) (halts_require ?_).bind)
  simp [ho.callerIdle_iff.mp hself]

theorem ends_sleepUntil (wake : Nat) : Ends (sleepUntil wake) h ((Call.sleepUntil wake).misuse h) :=
  .ite halts_of_inInterrupt fun hirq =>
    .ite (fun hlevel => halts_past_inInterrupt hirq (halts_of_level (by simp [hlevel])))
      fun hlevel => .ite (halts_sleepUntil_of_idle ho hirq (level_off hlevel)) fun hself =>
        returns_sleepUntil ho hidle (by simpa using hirq) (level_off hlevel)
          (mt ho.callerIdle_iff.mpr hself)

theorem ends_sleep (ticks : Nat) : Ends (sleep ticks) h (napMisuse h ticks) := by
  refine .ite (fun hlevel => halts_of_level (by simp [hlevel])) fun hlevel => ?_
  by_cases hzero : ticks = 0
  · rw [if_pos hzero]
    exact returns_sleep ho hidle (level_on hlevel) fun hpos => absurd hzero hpos
  rw [if_neg hzero]
  refine .ite (fun hlarge => ?_) fun hfits => .ite (fun hirq => ?_) fun hirq =>
    .ite (fun hself => ?_) fun hself => ?_
  · exact halts_sleep_of_add hlevel hzero hlarge
  · exact halts_sleep_of_sleepUntil hlevel hzero (by omega) (halts_of_inInterrupt hirq)
  · have hmasked : (h.withLevel .off).Orderly r := ⟨ho.settled, ho.here⟩
    exact halts_sleep_of_sleepUntil hlevel hzero (by omega)
      (halts_sleepUntil_of_idle hmasked hirq rfl hself)
  · exact returns_sleep ho hidle (level_on hlevel) fun _ =>
      ⟨by omega, by simpa using hirq, mt ho.callerIdle_iff.mpr hself⟩

theorem ends_sleepFor {num denom : Nat} (hloops : h.scheduler.loopsPerTick < Word.limit32)
    (hthousand : 1000 ≤ denom) (hbillion : denom ≤ 1000000000) :
    Ends (sleepFor num denom) h (napForMisuse h num denom) := by
  refine .ite (fun hlarge => ?_) fun hsmall => ?_
  · have hmul : Word.mul Word.limit64 num Config.tickHz = .error .multiplyOverflow :=
      if_neg (Nat.not_lt.mpr hlarge)
    exact (halts_liftM hmul).bind
  have hfits : num * Config.tickHz < Word.limit64 := Nat.lt_of_not_le hsmall
  have hsleep := ends_sleep ho hidle (wholeTicks num denom)
  cases hmisuse : napMisuse h (wholeTicks num denom) with
  | none =>
      rw [hmisuse] at hsleep
      exact returns_sleepFor hloops hthousand hbillion hfits hsleep
  | some cause =>
      rw [hmisuse] at hsleep
      exact halts_sleepFor_of_sleep hfits (by omega) hmisuse hsleep

end

theorem Orderly.intact (ho : h.Orderly r) (hlive : h.scheduler.Live b) :
    (h.scheduler.threads.get b).IsValid := by
  by_cases hb : b = r
  · rw [hb]
    exact ho.settled.intact
  · exact (ho.settled.others b hlive hb).intact

theorem ends_unblock (ho : h.Orderly r) (hlive : h.scheduler.Live b) :
    Ends (unblock b) h ((Call.unblock b).misuse h) := by
  refine .ite (fun hother => ?_) fun hsame => .ite (fun hasleep => ?_) fun hawake => ?_
  · exact halts_bind_of_ok (thread_eq_ok_iff.mpr ⟨rfl, rfl⟩)
      (halts_bind_of_ok (require_eq_ok (ho.intact hlive))
        (halts_bind_of_ok (disable_eq_ok_iff.mpr ⟨rfl, rfl⟩)
          (halts_bind_of_ok (thread_eq_ok_iff.mpr ⟨rfl, rfl⟩) (halts_require hother).bind)))
  · have hblocked : (h.scheduler.threads.get b).status = .blocked := not_not.mp hsame
    have howner := (ho.settled.linked.sleep.mem_iff b).mp hasleep
    have hqueued : (h.scheduler.threads.get b).owner ≠ .detached := howner.trans_ne (by decide)
    have hunblock := unblock_of_queued (ho.intact hlive) hblocked hqueued
    rw [ho.settled.linked.ready.kind_eq, howner] at hunblock
    exact ⟨_, hunblock⟩
  · have hblocked : (h.scheduler.threads.get b).status = .blocked := not_not.mp hsame
    have hne : b ≠ r := by
      rintro rfl
      rw [ho.settled.here.status] at hblocked
      cases hblocked
    have howner : (h.scheduler.threads.get b).owner ≠ .sleep :=
      mt (ho.settled.linked.sleep.mem_iff b).mpr hawake
    exact returns_unblock ho.settled hlive hne hblocked
      ((ho.settled.others b hlive hne).waits.detached_of_blocked hblocked howner)

theorem requirePriority_of_misuse {priority : Nat} (hmisuse : Config.priorityMax < priority) :
    Thread.requirePriority priority = .error (.priorityOutOfRange priority) :=
  if_neg fun hrange => Nat.not_le.mpr hmisuse hrange.2

theorem requirePriority_ok {priority : Nat} (hrange : ¬ Config.priorityMax < priority) :
    Thread.requirePriority priority = .ok () :=
  if_pos ⟨Nat.zero_le _, Nat.le_of_not_lt hrange⟩

theorem ends_create {name : String} {priority entry arg : Nat} (ho : h.Orderly r)
    (hroom : Roomy h.scheduler.pool) (htid : h.scheduler.nextTid + 1 < Word.limit32)
    (hcount : h.scheduler.pool.allocs + 1 < Word.limit64) :
    Ends (create name priority entry arg) h (priorityMisuse priority) :=
  .ite (fun hout => (halts_liftM (requirePriority_of_misuse hout)).bind.bind) fun hrange =>
    returns_create ho.settled hroom htid hcount (requirePriority_ok hrange)

/-- Where identifiers are left, another block can be counted. -/
theorem counted_of_identified (hcounted : h.scheduler.pool.allocs < h.scheduler.nextTid)
    (htid : h.scheduler.nextTid + 1 < Word.limit32) :
    h.scheduler.pool.allocs + 1 < Word.limit64 := by
  simp only [Word.limit32, Word.limit64] at *
  omega

theorem ends_setPriority {priority : Nat} (ho : h.Orderly r) :
    Ends (setPriority priority) h (priorityMisuse priority) :=
  .ite (fun hout => (halts_liftM (requirePriority_of_misuse hout)).bind) fun hrange =>
    returns_setPriority ho (requirePriority_ok hrange)

/-- The counters of the scheduler and of the processor are below their maxima. -/
structure Headroom (h : Host) : Prop where
  nextTid : h.scheduler.nextTid < Word.limit32 - 1
  ticks : h.scheduler.ticks < Word.limit64 - 1
  idle : h.scheduler.stats.idle < Word.limit64 - 1
  kernel : h.scheduler.stats.kernel < Word.limit64 - 1
  user : h.scheduler.stats.user < Word.limit64 - 1
  slice : h.scheduler.sliceTicks < Word.limit32 - 1
  waits : h.waits < Word.limit64 - 1

theorem Headroom.tally (hhead : Headroom h) (r : Nat) :
    h.scheduler.tally r + 1 < Word.limit64 := by
  have hidle := hhead.idle
  have hkernel := hhead.kernel
  have huser := hhead.user
  unfold Scheduler.tally
  simp only [Word.limit64] at *
  split_ifs <;> omega

/-- A call of a kernel halts for the rule that it breaks, and if it breaks none it returns. -/
theorem Call.ends (ho : h.Orderly r) (hidle : h.scheduler.idle ≠ none)
    (hroom : Roomy h.scheduler.pool) (hloops : h.scheduler.loopsPerTick < Word.limit32)
    (hcounted : h.scheduler.pool.allocs < h.scheduler.nextTid) (hhead : Headroom h)
    (hallowed : Kernel h call) : Ends call.perform h (call.misuse h) := by
  have hticks : h.scheduler.ticks + 1 < Word.limit64 := by
    have := hhead.ticks
    simp only [Word.limit64] at *
    omega
  have hslice : h.scheduler.sliceTicks + 1 < Word.limit32 := by
    have := hhead.slice
    simp only [Word.limit32] at *
    omega
  have htid : h.scheduler.nextTid + 1 < Word.limit32 := by
    have := hhead.nextTid
    simp only [Word.limit32] at *
    omega
  have hwaits : h.waits + 1 < Word.limit64 := by
    have := hhead.waits
    simp only [Word.limit64] at *
    omega
  cases call with
  | create => exact (ends_create ho hroom htid (counted_of_identified hcounted htid)).then_pure _
  | yieldNow => exact (ends_yieldNow ho hidle).silently
  | block => exact (ends_block ho hidle).silently
  | unblock b => exact (ends_unblock ho hallowed).silently
  | retire => exact (ends_retire ho hidle (hallowed r ho.here)).silently
  | idlePass => exact (ends_idlePass ho hidle hwaits).silently
  | sleep ticks => exact (ends_sleep ho hidle ticks).silently
  | sleepUntil wake => exact (ends_sleepUntil ho hidle wake).silently
  | msleep | usleep | nsleep =>
      exact (ends_sleepFor ho hidle hloops (by decide) (by decide)).silently
  | tick => exact Ends.silently (m := none) (returns_tick ho (hhead.tally r) hslice)
  | wake => exact Ends.silently (m := none) (returns_wake _ ho.settled)
  | timerInterrupt =>
      exact Ends.silently (m := none)
        (returns_timerInterrupt ho hticks (hhead.tally r) hslice)
  | setPriority => exact (ends_setPriority ho).silently
  | setLevel => exact ⟨none, _, silently_of_ok (setLevel_eq_ok_iff.mpr ⟨rfl, rfl⟩)⟩
  | takeYield | setInInterrupt => exact ⟨none, _, rfl⟩

/-- A run of the kernel moves neither the pool nor the calibration. -/
theorem Run.pool_place (ho : ∃ r, h₀.Orderly r) (hrun : Run Kernel h₀ es h) :
    h.scheduler.pool.base = h₀.scheduler.pool.base ∧
      h.scheduler.pool.capacity = h₀.scheduler.pool.capacity ∧
      h.scheduler.loopsPerTick = h₀.scheduler.loopsPerTick := by
  induction hrun with
  | nil => exact ⟨rfl, rfl, rfl⟩
  | snoc hrun hallowed hperforms ih =>
      obtain ⟨hbase, hcapacity, hloops⟩ := ih
      obtain ⟨r, ho⟩ := hrun.orderly ho
      obtain ⟨a, n, -, ht, -⟩ := Call.takes ho hallowed hperforms
      obtain ⟨hbase', hcapacity'⟩ := Step.pool_place ht ho.settled
      exact ⟨hbase'.trans hbase, hcapacity'.trans hcapacity, (Step.loopsPerTick_eq ht).trans hloops⟩

/-- Boot hands out one block and takes two identifiers. -/
theorem AfterBoot.allocs_lt_nextTid {main idle : Nat} (hafter : h.AfterBoot main idle) :
    h.scheduler.pool.allocs < h.scheduler.nextTid := by
  rw [← hafter.orderly.settled.housed.balanced.balance, ← Pool.length_blocksInUse, hafter.blocks,
    hafter.frees_eq, hafter.nextTid_eq]
  simp

theorem Run.allocs_lt_nextTid (ho : ∃ r, h₀.Orderly r)
    (hcounted : h₀.scheduler.pool.allocs < h₀.scheduler.nextTid) (hrun : Run Kernel h₀ es h) :
    h.scheduler.pool.allocs < h.scheduler.nextTid := by
  induction hrun with
  | nil => exact hcounted
  | snoc hrun hallowed hperforms ih =>
      obtain ⟨r, ho⟩ := hrun.orderly ho
      obtain ⟨a, n, -, ht, -⟩ := Call.takes ho hallowed hperforms
      exact Step.allocs_lt_nextTid ht ho.settled ih

/-- Let a pool end before the address space does. In every state that a kernel reaches after boot
with its counters below their maxima, a call halts for the rule that it breaks and for nothing
else, and returns if it breaks none. No check of the state of the scheduler itself ever fails. -/
theorem Run.halts_iff_misuse (hbooted : h₀.Booted) (hroom : Roomy h₀.scheduler.pool)
    (hrun : Run Kernel h₀ es h) (hhead : Headroom h) (hallowed : Kernel h call) :
    (∀ cause, Halts call.perform h cause ↔ call.misuse h = some cause) ∧
      (Returns call.perform h ↔ call.misuse h = none) ∧
      ∀ cause, Halts call.perform h cause → cause.isInternal = false := by
  obtain ⟨main, idle, hafter⟩ := hbooted.after
  obtain ⟨r, ho⟩ := hrun.orderly ⟨main, hafter.orderly⟩
  obtain ⟨hbase, hcapacity, hloops⟩ := hrun.pool_place ⟨main, hafter.orderly⟩
  have hidle : h.scheduler.idle ≠ none := by
    rw [(hrun.ledger hafter).idle_eq]
    exact Option.some_ne_none idle
  have hstays : Roomy h.scheduler.pool := by
    rw [Roomy, hbase, hcapacity]
    exact hroom
  have huncalibrated : h.scheduler.loopsPerTick < Word.limit32 := by
    rw [hloops, hbooted.at_rest.2.2]
    decide
  have hcounted := hrun.allocs_lt_nextTid ⟨main, hafter.orderly⟩ hafter.allocs_lt_nextTid
  obtain ⟨hhalts, hreturns⟩ :=
    (Call.ends ho hidle hstays huncalibrated hcounted hhead hallowed).iff
  exact ⟨hhalts, hreturns, fun cause hcause => Call.misuse_external ((hhalts cause).mp hcause)⟩

/-- An unblock aimed at the boot thread in its sleep breaks a rule. -/
theorem halts_iff_misuse_sample :
    sample.Booted ∧ Roomy sample.scheduler.pool ∧ Headroom listsSample.2 ∧
      Kernel listsSample.2 (.unblock 0x100000000) ∧
      (Call.unblock 0x100000000).misuse listsSample.2 =
        some (.claimedWhileOwned 1 .ready .sleep) ∧
      (∀ cause, Halts (Call.unblock 0x100000000).perform listsSample.2 cause ↔
        (Call.unblock 0x100000000).misuse listsSample.2 = some cause) ∧
      (Returns (Call.unblock 0x100000000).perform listsSample.2 ↔
        (Call.unblock 0x100000000).misuse listsSample.2 = none) ∧
      ∀ cause, Halts (Call.unblock 0x100000000).perform listsSample.2 cause →
        cause.isInternal = false := by
  have hroom : Roomy sample.scheduler.pool := by
    unfold Roomy
    decide +kernel
  have hhead : Headroom listsSample.2 := by
    constructor <;> decide +kernel
  have hallowed : Kernel listsSample.2 (.unblock 0x100000000) := by decide +kernel
  exact ⟨booted_sample, hroom, hhead, hallowed, by decide +kernel,
    Run.halts_iff_misuse booted_sample hroom (Run.play _ _) hhead hallowed⟩

end Host

end RoundRobin
