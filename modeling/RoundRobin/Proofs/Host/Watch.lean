import RoundRobin.Proofs.Host.Level

/-!
# Under the watch

A computation that runs under the watch is caught as soon as a thread changes its status with
interrupts on, or a switch is asked for with interrupts on. That a computation is never caught is
shown along its text, as an equation with its run without the watch: there is a rule for each way
to compose computations, and the level at which each part is started is carried along.
-/

namespace RoundRobin

/-- Memory that was never written is not recorded. -/
theorem Memory.get_of_notMem {β : Type} [Zeroed β] {mem : Memory β} {a : Nat}
    (h : a ∉ mem.cells.map Prod.fst) : mem.get a = Zeroed.zeroed := by
  have hnone : ∀ cells : List (Nat × β), a ∉ cells.map Prod.fst → Memory.find? a cells = none := by
    intro cells hcells
    induction cells with
    | nil => rfl
    | cons cell rest ih =>
        rw [List.map_cons, List.mem_cons, not_or] at hcells
        rw [Memory.find?, if_neg (Ne.symm hcells.1)]
        exact ih hcells.2
  rw [Memory.get, hnone mem.cells h]
  rfl

theorem Thread.tid_of_new {name : String} {priority : Nat} {t : Thread}
    (hnew : Thread.new name priority = .ok t) : t.tid = 0 := by
  simp only [Thread.new, Except.bind_eq_ok_iff, Except.pure_eq_ok_iff] at hnew
  obtain ⟨-, -, rfl⟩ := hnew
  rfl

namespace Scheduler

/-- The thread in `b` changes its status. A block that is being prepared for a new thread has no
identifier yet. -/
def Shifts (s s' : Scheduler) (b : Nat) : Prop :=
  (s.threads.get b).tid ≠ 0 ∧ (s'.threads.get b).tid = (s.threads.get b).tid ∧
    (s'.threads.get b).status ≠ (s.threads.get b).status

/-- Some thread changes its status. -/
def Restless (s s' : Scheduler) : Prop :=
  ∃ b, s.Shifts s' b

/-- Only blocks that were written hold threads. -/
theorem restless_iff {s s' : Scheduler} :
    s.Restless s' ↔ ∃ b ∈ s.threads.cells.map Prod.fst, s.Shifts s' b := by
  constructor
  · rintro ⟨b, hshifts⟩
    refine ⟨b, ?_, hshifts⟩
    by_contra hb
    exact hshifts.1 (by rw [Memory.get_of_notMem hb]; rfl)
  · rintro ⟨b, -, hshifts⟩
    exact ⟨b, hshifts⟩

instance (s s' : Scheduler) (b : Nat) : Decidable (s.Shifts s' b) :=
  inferInstanceAs (Decidable (_ ∧ _))

instance (s s' : Scheduler) : Decidable (s.Restless s') :=
  decidable_of_iff _ restless_iff.symm

/-- Nothing shifts if only one block is written and its thread keeps its status. -/
theorem not_restless_of_get {s s' : Scheduler} {b : Nat} {t : Thread}
    (hget : ∀ c, s'.threads.get c = if b = c then t else s.threads.get c)
    (ht : (s.threads.get b).tid ≠ 0 → t.tid = (s.threads.get b).tid →
      t.status = (s.threads.get b).status) : ¬ s.Restless s' := by
  rintro ⟨c, htid, hsame, hstatus⟩
  rw [hget] at hsame hstatus
  split at hsame
  · next heq =>
      subst heq
      rw [if_pos rfl] at hstatus
      exact hstatus (ht htid hsame)
  · next hne =>
      rw [if_neg hne] at hstatus
      exact hstatus rfl

/-- Nothing shifts if no control block is written. -/
theorem not_restless_of_threads {s s' : Scheduler} (hthreads : s'.threads = s.threads) :
    ¬ s.Restless s' := by
  rintro ⟨b, -, -, hstatus⟩
  exact hstatus (by rw [hthreads])

end Scheduler

namespace Host

open Scheduler

variable {α β : Type} {l k : Level} {h : Host}

/-- A computation under the watch. It returns, or halts, or is caught, which is `none`. -/
abbrev WatchM := EStateM (Option Halt) Host

/-- One step under the watch. -/
def watch (act : HostM α) : WatchM α := fun h =>
  match act h with
  | .ok a h' =>
    if h.level = .on ∧ h.scheduler.Restless h'.scheduler then .error none h else .ok a h'
  | .error cause h' => .error (some cause) h'

instance : MonadLift HostM WatchM where
  monadLift := watch

instance : MonadStateOf Scheduler WatchM where
  get := watch get
  set s := watch (set s)
  modifyGet f := watch (modifyGet f)

instance : Port WatchM where
  level := watch Port.level
  disable := watch Port.disable
  enable := watch Port.enable
  inInterrupt := watch Port.inInterrupt
  requestYield := watch Port.requestYield
  stackPointer := watch Port.stackPointer
  waitForInterrupt := watch Port.waitForInterrupt
  freshContext entry arg0 arg1 top := watch (Port.freshContext entry arg0 arg1 top)
  switchContext source target := fun h =>
    if h.level = .on then .error none h else watch (Port.switchContext source target) h
  log record := watch (Port.log record)

/-- Under the watch `x` ends as `y` does without it, when both are started on `h`. -/
def Uncaught (x : WatchM α) (y : HostM α) (h : Host) : Prop :=
  x h = match y h with
    | .ok a h' => .ok a h'
    | .error cause h' => .error (some cause) h'

section

variable {x : WatchM α} {y : HostM α} {f : α → WatchM β} {g : α → HostM β}

namespace Uncaught

theorem calm {act : HostM α}
    (hcalm : ∀ a h', act h = .ok a h' → ¬ h.scheduler.Restless h'.scheduler) :
    Uncaught (watch act) act h := by
  unfold Uncaught watch
  cases hact : act h with
  | ok a h' => exact if_neg fun hcaught => hcalm a h' hact hcaught.2
  | error cause h' => rfl

theorem bind (hx : Uncaught x y h)
    (hf : ∀ a h', y h = .ok a h' → Uncaught (f a) (g a) h') : Uncaught (x >>= f) (y >>= g) h := by
  unfold Uncaught at hx ⊢
  change EStateM.bind x f h = match EStateM.bind y g h with
    | .ok a h' => .ok a h'
    | .error cause h' => .error (some cause) h'
  unfold EStateM.bind
  rw [hx]
  cases hy : y h with
  | ok a h' => exact hf a h' hy
  | error cause h' => rfl

theorem change {f : Scheduler → Scheduler} (hf : ¬ h.scheduler.Restless (f h.scheduler)) :
    Uncaught (modify f : WatchM PUnit) (modify f) h := by
  change Uncaught (watch (modify f)) (modify f) h
  refine calm fun _ _ hact => ?_
  obtain rfl := modify_eq_ok_iff.mp hact
  exact hf

end Uncaught

/-- Under the watch `x` ends as `y` does without it, whenever they are started at the level `l`. -/
def Passes (l : Level) (x : WatchM α) (y : HostM α) : Prop :=
  ∀ h, h.level = l → Uncaught x y h

namespace Passes

theorem value (a : α) : Passes l (pure a : WatchM α) (pure a) :=
  fun _ _ => rfl

theorem calm {act : HostM α}
    (hcalm : ∀ h a h', act h = .ok a h' → ¬ h.scheduler.Restless h'.scheduler) :
    Passes l (watch act) act :=
  fun h _ => .calm (hcalm h)

/-- With interrupts masked every step passes. -/
theorem masked (act : HostM α) : Passes .off (watch act) act := by
  intro h hlevel
  unfold Uncaught watch
  cases act h with
  | ok a h' => exact if_neg fun hcaught => by rw [hlevel] at hcaught; cases hcaught.1
  | error cause h' => rfl

/-- A step that leaves the scheduler alone. -/
theorem aside {act : HostM α}
    (hsame : ∀ h a h', act h = .ok a h' → h'.scheduler = h.scheduler) :
    Passes l (watch act) act := by
  refine calm fun h a h' hact => ?_
  exact not_restless_of_threads (by rw [hsame h a h' hact])

/-- A first step that leaves the level `k` behind. -/
theorem bindTo (hx : Passes l x y)
    (hlevel : ∀ h a h', h.level = l → y h = .ok a h' → h'.level = k)
    (hf : ∀ a, Passes k (f a) (g a)) : Passes l (x >>= f) (y >>= g) :=
  fun h hl => (hx h hl).bind fun a h' hy => hf a h' (hlevel h a h' hl hy)

theorem bind (hx : Passes l x y) (hlevel : KeepsLevel y) (hf : ∀ a, Passes l (f a) (g a)) :
    Passes l (x >>= f) (y >>= g) :=
  hx.bindTo (fun _ _ _ hl hy => (hlevel hy).trans hl) hf

theorem ite {p : Prop} [Decidable p] {x x' : WatchM α} {y y' : HostM α} (hx : Passes l x y)
    (hy : Passes l x' y') : Passes l (if p then x else x') (if p then y else y') := by
  split
  · exact hx
  · exact hy

theorem lift (x : Except Halt α) : Passes l (liftM x : WatchM α) (liftM x) :=
  aside fun _ _ _ hact => by rw [(liftM_eq_ok_iff.mp hact).2]

theorem state : Passes l (get : WatchM Scheduler) (get : HostM Scheduler) :=
  aside fun _ _ _ hact => by rw [(get_eq_ok_iff.mp hact).2]

theorem change {f : Scheduler → Scheduler} (hf : ∀ s : Scheduler, ¬ s.Restless (f s)) :
    Passes l (modify f : WatchM PUnit) (modify f) :=
  fun h _ => .change (hf h.scheduler)

theorem changeMasked (f : Scheduler → Scheduler) :
    Passes .off (modify f : WatchM PUnit) (modify f) :=
  masked (modify f)

theorem putMasked (s : Scheduler) : Passes .off (set s : WatchM PUnit) (set s) :=
  masked _

theorem log (record : Record) :
    Passes l (Port.log record : WatchM Unit) (Port.log record) :=
  aside fun _ _ _ hact => by rw [log_eq_ok_iff.mp hact, scheduler_logged]

theorem disable : Passes l (Port.disable : WatchM Level) Port.disable :=
  aside fun _ _ _ hact => by rw [(disable_eq_ok_iff.mp hact).2, scheduler_withLevel]

theorem level : Passes l (Port.level : WatchM Level) Port.level :=
  aside fun _ _ _ hact => by rw [(level_eq_ok_iff.mp hact).2]

theorem inInterrupt : Passes l (Port.inInterrupt : WatchM Bool) Port.inInterrupt :=
  aside fun _ _ _ hact => by rw [(inInterrupt_eq_ok_iff.mp hact).2]

theorem enable : Passes l (Port.enable : WatchM Unit) Port.enable :=
  aside fun _ _ _ hact => by rw [enable_eq_ok_iff.mp hact, scheduler_withLevel]

theorem setLevel (k : Level) :
    Passes l (Port.setLevel k : WatchM Level) (Port.setLevel k) := by
  cases k with
  | off => exact disable
  | on =>
      refine level.bind ?_ fun old => enable.bindTo (k := .on) ?_ fun _ => value old
      · intro h old h' hact
        rw [(level_eq_ok_iff.mp hact).2]
      · intro h _ h' _ hact
        rw [enable_eq_ok_iff.mp hact, level_withLevel]

/-- The end of a section that was entered at the level `k`. -/
theorem restore (k : Level) :
    Passes l (do let _ ← Port.setLevel k : WatchM Unit) (do let _ ← Port.setLevel k) :=
  (setLevel k).bindTo (k := k)
    (fun _ _ _ _ hact => by rw [(setLevel_eq_ok_iff.mp hact).2, level_withLevel]) fun _ => value ()

/-- Behind the mask every level is masked. -/
theorem behindMask {f : Level → WatchM β} {g : Level → HostM β}
    (hf : ∀ old, Passes .off (f old) (g old)) :
    Passes l (Port.disable >>= f) (Port.disable >>= g) :=
  disable.bindTo
    (fun _ _ _ _ hact => by rw [(disable_eq_ok_iff.mp hact).2, level_withLevel]) hf

/-- A section with interrupts masked up to the restoration of the level. -/
theorem critical (hx : Passes .off x y) (hlevel : KeepsLevel y) :
    Passes l (Port.criticalSection x) (Port.criticalSection y) :=
  behindMask fun old => hx.bind hlevel fun a =>
    (setLevel old).bindTo (k := old)
      (fun _ _ _ _ hact => by rw [(setLevel_eq_ok_iff.mp hact).2, level_withLevel]) fun _ => value a

variable {cause : Halt} {p : Prop} [Decidable p]

/-- A step of arithmetic or a check. -/
theorem lifted (e : Except Halt α) {f : α → WatchM β} {g : α → HostM β}
    (hf : ∀ a, Passes l (f a) (g a)) : Passes l (liftM e >>= f) (liftM e >>= g) :=
  (lift e).bind (.lift e) hf

theorem require (hx : Passes l x y) :
    Passes l (do RoundRobin.require p cause; x) (do RoundRobin.require p cause; y) :=
  lifted _ fun _ => hx

theorem requireLevel (hx : Passes l x y) :
    Passes l (do RoundRobin.require ((← Port.level) = k) cause; x)
      (do RoundRobin.require ((← Port.level) = k) cause; y) :=
  level.bind (fun _ _ _ hact => by rw [(level_eq_ok_iff.mp hact).2]) fun _ => .require hx

theorem outsideHandler (hx : Passes l x y) :
    Passes l (do RoundRobin.require ((← Port.inInterrupt) = false) cause; x)
      (do RoundRobin.require ((← Port.inInterrupt) = false) cause; y) :=
  inInterrupt.bind (fun _ _ _ hact => by rw [(inInterrupt_eq_ok_iff.mp hact).2]) fun _ =>
    .require hx

/-- Behind a check for it interrupts are masked. -/
theorem requireMasked (hx : Passes .off x y) :
    Passes l (do RoundRobin.require ((← Port.level) = .off) cause; x)
      (do RoundRobin.require ((← Port.level) = .off) cause; y) := by
  intro h hl
  refine (level h hl).bind fun now h' hact => ?_
  obtain ⟨rfl, rfl⟩ := level_eq_ok_iff.mp hact
  refine (lift _ h' rfl).bind fun _ h' hchecked => ?_
  obtain ⟨hlevel, rfl⟩ := liftM_eq_ok_iff.mp hchecked
  exact hx h' (require_eq_ok_iff.mp hlevel)

end Passes

namespace Uncaught

theorem put {s : Scheduler} (hl : h.level = l) (hcalm : ¬ h.scheduler.Restless s)
    (hx : Passes l x y) : Uncaught (do set s; x) (do set s; y) h := by
  refine bind (.calm fun _ h' hset => ?_) fun _ h' hset => ?_
  · obtain rfl := set_eq_ok_iff.mp hset
    exact hcalm
  · obtain rfl := set_eq_ok_iff.mp hset
    exact hx _ hl

theorem lifted {γ : Type} {e : Except Halt γ} {f : γ → WatchM α} {g : γ → HostM α}
    (hf : ∀ c, e = .ok c → Uncaught (f c) (g c) h) :
    Uncaught (liftM e >>= f) (liftM e >>= g) h := by
  refine bind (Passes.lift e h rfl) fun c h' hlift => ?_
  obtain ⟨hc, rfl⟩ := liftM_eq_ok_iff.mp hlift
  exact hf c hc

/-- What is read is the state of the scheduler. -/
theorem state {f : Scheduler → WatchM α} {g : Scheduler → HostM α}
    (hf : Uncaught (f h.scheduler) (g h.scheduler) h) : Uncaught (get >>= f) (get >>= g) h := by
  refine bind (Passes.state h rfl) fun s h' hget => ?_
  obtain ⟨rfl, rfl⟩ := get_eq_ok_iff.mp hget
  exact hf

end Uncaught

end

end Host

end RoundRobin
