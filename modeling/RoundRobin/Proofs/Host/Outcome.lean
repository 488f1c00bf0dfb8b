import RoundRobin.Host
import RoundRobin.Proofs.Scheduler.Change

/-!
# Outcomes on the host

When a computation on the host returns, and in which state. The statements about the building
blocks are simplification rules: with them the outcome of an operation is read off its definition.
-/

namespace RoundRobin

namespace Host

variable {α β : Type} {h h' : Host}

/-- The host with the scheduler `s`. -/
def withScheduler (h : Host) (s : Scheduler) : Host :=
  { h with scheduler := s }

/-- The host at the interrupt level `l`. -/
def withLevel (h : Host) (l : Level) : Host :=
  { h with level := l }

/-- The host after a record was passed to the log. -/
def logged (h : Host) (record : Record) : Host :=
  { h with records := h.records.push record }

@[simp] theorem scheduler_withScheduler (h : Host) (s : Scheduler) :
    (h.withScheduler s).scheduler = s := rfl

@[simp] theorem sp_withScheduler (h : Host) (s : Scheduler) : (h.withScheduler s).sp = h.sp := rfl

@[simp] theorem level_withScheduler (h : Host) (s : Scheduler) :
    (h.withScheduler s).level = h.level := rfl

@[simp] theorem inInterrupt_withScheduler (h : Host) (s : Scheduler) :
    (h.withScheduler s).inInterrupt = h.inInterrupt := rfl

@[simp] theorem scheduler_withLevel (h : Host) (l : Level) :
    (h.withLevel l).scheduler = h.scheduler := rfl

@[simp] theorem sp_withLevel (h : Host) (l : Level) : (h.withLevel l).sp = h.sp := rfl

@[simp] theorem level_withLevel (h : Host) (l : Level) : (h.withLevel l).level = l := rfl

@[simp] theorem inInterrupt_withLevel (h : Host) (l : Level) :
    (h.withLevel l).inInterrupt = h.inInterrupt := rfl

@[simp] theorem scheduler_logged (h : Host) (record : Record) :
    (h.logged record).scheduler = h.scheduler := rfl

@[simp] theorem sp_logged (h : Host) (record : Record) : (h.logged record).sp = h.sp := rfl

@[simp] theorem level_logged (h : Host) (record : Record) :
    (h.logged record).level = h.level := rfl

@[simp] theorem inInterrupt_logged (h : Host) (record : Record) :
    (h.logged record).inInterrupt = h.inInterrupt := rfl

@[simp] theorem withScheduler_withScheduler (h : Host) (s t : Scheduler) :
    (h.withScheduler s).withScheduler t = h.withScheduler t := rfl

@[simp] theorem withLevel_withLevel (h : Host) (l k : Level) :
    (h.withLevel l).withLevel k = h.withLevel k := rfl

@[simp] theorem withLevel_self (h : Host) : h.withLevel h.level = h := rfl

@[simp] theorem bind_eq_ok_iff {x : HostM α} {f : α → HostM β} {b : β} :
    (x >>= f) h = .ok b h' ↔ ∃ a h₁, x h = .ok a h₁ ∧ f a h₁ = .ok b h' := by
  change EStateM.bind x f h = _ ↔ _
  unfold EStateM.bind
  cases x h with
  | ok a h₁ =>
      constructor
      · intro heq
        exact ⟨a, h₁, rfl, heq⟩
      · rintro ⟨_, _, heq, hrest⟩
        cases heq
        exact hrest
  | error cause h₁ => simp

theorem bind_of_ok {x : HostM α} {f : α → HostM β} {a : α} {h₁ : Host} (hx : x h = .ok a h₁) :
    (x >>= f) h = f a h₁ := by
  change EStateM.bind x f h = _
  rw [EStateM.bind, hx]

theorem bind_of_error {x : HostM α} {f : α → HostM β} {cause : Halt} {h₁ : Host}
    (hx : x h = .error cause h₁) : (x >>= f) h = .error cause h₁ := by
  change EStateM.bind x f h = _
  rw [EStateM.bind, hx]

theorem exists_unit {p : Unit → Prop} : (∃ u, p u) ↔ p () :=
  ⟨fun ⟨_, hp⟩ => hp, fun hp => ⟨(), hp⟩⟩

@[simp] theorem pure_eq_ok_iff {a b : α} :
    (pure a : HostM α) h = .ok b h' ↔ b = a ∧ h' = h := by
  change EStateM.Result.ok a h = _ ↔ _
  simp [eq_comm]

@[simp] theorem map_eq_ok_iff {x : HostM α} {f : α → β} {b : β} :
    (f <$> x) h = .ok b h' ↔ ∃ a, x h = .ok a h' ∧ b = f a := by
  change EStateM.map f x h = _ ↔ _
  unfold EStateM.map
  cases x h with
  | ok a h₁ =>
      constructor
      · intro heq
        cases heq
        exact ⟨a, rfl, rfl⟩
      · rintro ⟨_, heq, rfl⟩
        cases heq
        rfl
  | error cause h₁ => simp

@[simp] theorem liftM_eq_ok_iff {x : Except Halt α} {a : α} :
    (liftM x : HostM α) h = .ok a h' ↔ x = .ok a ∧ h' = h := by
  cases x with
  | ok b =>
      change EStateM.Result.ok b h = _ ↔ _
      simp [eq_comm]
  | error cause =>
      change EStateM.Result.error cause h = _ ↔ _
      simp

@[simp] theorem halt_ne_ok {cause : Halt} {a : α} : (halt cause : HostM α) h ≠ .ok a h' := by
  simp [halt]

@[simp] theorem ite_eq_ok_iff {p : Prop} [Decidable p] {x y : HostM α} {a : α} :
    (if p then x else y) h = .ok a h' ↔ (p ∧ x h = .ok a h') ∨ (¬p ∧ y h = .ok a h') := by
  by_cases hp : p <;> simp [hp]

@[simp] theorem get_eq_ok_iff {s : Scheduler} :
    (get : HostM Scheduler) h = .ok s h' ↔ s = h.scheduler ∧ h' = h := by
  change EStateM.Result.ok h.scheduler h = _ ↔ _
  simp [eq_comm]

@[simp] theorem set_eq_ok_iff {s : Scheduler} {u : PUnit} :
    (set s : HostM PUnit) h = .ok u h' ↔ h' = h.withScheduler s := by
  change EStateM.Result.ok () (h.withScheduler s) = _ ↔ _
  simp [eq_comm]

@[simp] theorem modify_eq_ok_iff {f : Scheduler → Scheduler} {u : PUnit} :
    (modify f : HostM PUnit) h = .ok u h' ↔ h' = h.withScheduler (f h.scheduler) := by
  change EStateM.Result.ok () (h.withScheduler (f h.scheduler)) = _ ↔ _
  simp [eq_comm]

@[simp] theorem level_eq_ok_iff {l : Level} :
    (Port.level : HostM Level) h = .ok l h' ↔ l = h.level ∧ h' = h := by
  change EStateM.Result.ok h.level h = _ ↔ _
  simp [eq_comm]

@[simp] theorem disable_eq_ok_iff {l : Level} :
    (Port.disable : HostM Level) h = .ok l h' ↔ l = h.level ∧ h' = h.withLevel .off := by
  change EStateM.Result.ok h.level (h.withLevel .off) = _ ↔ _
  simp [eq_comm]

@[simp] theorem enable_eq_ok_iff {u : Unit} :
    (Port.enable : HostM Unit) h = .ok u h' ↔ h' = h.withLevel .on := by
  change EStateM.Result.ok () (h.withLevel .on) = _ ↔ _
  simp [eq_comm]

@[simp] theorem setLevel_eq_ok_iff {l old : Level} :
    (Port.setLevel l : HostM Level) h = .ok old h' ↔ old = h.level ∧ h' = h.withLevel l := by
  cases l with
  | off => simp [Port.setLevel]
  | on =>
      simp only [Port.setLevel, bind_eq_ok_iff, level_eq_ok_iff, enable_eq_ok_iff, pure_eq_ok_iff]
      constructor
      · rintro ⟨_, _, ⟨rfl, rfl⟩, _, _, rfl, rfl, rfl⟩
        exact ⟨rfl, rfl⟩
      · rintro ⟨rfl, rfl⟩
        exact ⟨_, _, ⟨rfl, rfl⟩, (), _, rfl, rfl, rfl⟩

@[simp] theorem inInterrupt_eq_ok_iff {b : Bool} :
    (Port.inInterrupt : HostM Bool) h = .ok b h' ↔ b = h.inInterrupt ∧ h' = h := by
  change EStateM.Result.ok h.inInterrupt h = _ ↔ _
  simp [eq_comm]

@[simp] theorem stackPointer_eq_ok_iff {sp : Nat} :
    (Port.stackPointer : HostM Nat) h = .ok sp h' ↔ sp = h.sp ∧ h' = h := by
  change EStateM.Result.ok h.sp h = _ ↔ _
  simp [eq_comm]

/-- A wait is counted before interrupts are unmasked. -/
theorem waitForInterrupt_eq (h : Host) :
    (Port.waitForInterrupt : HostM Unit) h =
      if h.waits + 1 < Word.limit64 then .ok () { h with waits := h.waits + 1, level := .on }
      else .error .addOverflow h := by
  change (liftM (Word.add Word.limit64 h.waits 1) >>= fun waits =>
    modifyThe Host fun h => { h with waits, level := .on } : HostM Unit) h = _
  rw [Word.add]
  split <;> rfl

@[simp] theorem waitForInterrupt_eq_ok_iff {u : Unit} :
    (Port.waitForInterrupt : HostM Unit) h = .ok u h' ↔
      h.waits + 1 < Word.limit64 ∧ h' = { h with waits := h.waits + 1, level := .on } := by
  rw [waitForInterrupt_eq]
  split
  · next hroom => simp [hroom, eq_comm]
  · next hroom => simp [hroom]

@[simp] theorem log_eq_ok_iff {record : Record} {u : Unit} :
    (Port.log record : HostM Unit) h = .ok u h' ↔ h' = h.logged record := by
  change EStateM.Result.ok () (h.logged record) = _ ↔ _
  simp [eq_comm]

end Host

end RoundRobin
