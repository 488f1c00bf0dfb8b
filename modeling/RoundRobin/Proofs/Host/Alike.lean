import Mathlib.Data.List.Forall2
import Mathlib.Data.Option.Defs
import RoundRobin.Proofs.Host.Operation

/-!
# Computations that go alike

States are alike if they agree on all but the names, the priorities and the second arguments of
threads and the wording of log records. Two computations go alike if from alike states both return
or both halt, and leave alike states. That a computation goes alike with another is shown along its
text: there is a rule for each way to compose computations and a statement for each building block.
-/

namespace RoundRobin

/-- Registers that agree on all but the second argument. -/
inductive Context.Alike (c : Context) : Context → Prop
  | mk (arg : Nat) : c.Alike { c with general := c.general.set 1 arg (by decide) }

/-- Control blocks that agree on all but name, priority and second argument. -/
inductive Thread.Alike (t : Thread) : Thread → Prop
  | mk (nameBuffer : NameBuffer) (priority : Nat) {context : Context}
      (registers : t.context.Alike context) : t.Alike { t with nameBuffer, priority, context }

/-- Memories that hold alike control blocks at the same places. -/
def Memory.Alike (mem mem' : Memory Thread) : Prop :=
  ∀ b, (mem.get b).Alike (mem'.get b)

/-- Schedulers that agree on all but how their control blocks are alike. -/
inductive Scheduler.Alike (s : Scheduler) : Scheduler → Prop
  | mk {threads : Memory Thread} (blocks : s.threads.Alike threads) : s.Alike { s with threads }

/-- Log records that agree on all but the wording. -/
inductive Record.Alike (record : Record) : Record → Prop
  | mk (text : String) : record.Alike { record with text }

/-- Hosts that agree on all but how their schedulers and log records are alike. -/
inductive Host.Alike (h : Host) : Host → Prop
  | mk {scheduler : Scheduler} {records : Array Record} (state : h.scheduler.Alike scheduler)
      (log : List.Forall₂ Record.Alike h.records.toList records.toList) :
      h.Alike { h with scheduler, records }

theorem Context.Alike.refl (c : Context) : c.Alike c := by
  have halike := Context.Alike.mk (c := c) c.general[1]
  rwa [Vector.set_getElem_self] at halike

theorem Context.alike_entering (entry arg0 arg1 arg1' top : Nat) :
    (entering entry arg0 arg1 top).Alike (entering entry arg0 arg1' top) := by
  have halike := Context.Alike.mk (c := entering entry arg0 arg1 top) arg1'
  simp only [entering, Vector.set_set] at halike
  exact halike

theorem Thread.Alike.sp_eq {t t' : Thread} (ht : t.Alike t') :
    t'.context.sp = t.context.sp := by
  obtain ⟨_, _, ⟨_⟩⟩ := ht
  rfl

theorem Thread.Alike.tid_eq {t t' : Thread} (ht : t.Alike t') : t'.tid = t.tid := by
  obtain ⟨_, _, _⟩ := ht
  rfl

theorem Thread.Alike.wakeTick_eq {t t' : Thread} (ht : t.Alike t') :
    t'.wakeTick = t.wakeTick := by
  obtain ⟨_, _, _⟩ := ht
  rfl

theorem Thread.Alike.refl (t : Thread) : t.Alike t :=
  .mk t.nameBuffer t.priority (.refl t.context)

namespace Memory.Alike

variable {mem mem' : Memory Thread} {t t' : Thread}

theorem refl (mem : Memory Thread) : mem.Alike mem :=
  fun b => .refl (mem.get b)

theorem set (hmem : mem.Alike mem') (b : Nat) (ht : t.Alike t') :
    (mem.set b t).Alike (mem'.set b t') := by
  intro c
  rw [Memory.get_set, Memory.get_set]
  split
  · exact ht
  · exact hmem c

theorem modify {f g : Thread → Thread} (hmem : mem.Alike mem') (b : Nat)
    (hf : ∀ t t', t.Alike t' → (f t).Alike (g t')) : (mem.modify b f).Alike (mem'.modify b g) :=
  hmem.set b (hf _ _ (hmem b))

end Memory.Alike

theorem Host.Alike.refl (h : Host) : h.Alike h :=
  .mk (.mk (.refl h.scheduler.threads)) (List.forall₂_same.mpr fun record _ => .mk record.text)

section Results

variable {α β γ δ : Type} {R : α → β → Prop} {S : γ → δ → Prop}

/-- Two results with values that are related, or halts for the same cause. -/
inductive AlikeResults (R : α → β → Prop) : Except Halt α → Except Halt β → Prop
  | returned {a : α} {b : β} (values : R a b) : AlikeResults R (.ok a) (.ok b)
  | halted (cause : Halt) : AlikeResults R (.error cause) (.error cause)

namespace AlikeResults

theorem same (x : Except Halt α) : AlikeResults Eq x x := by
  cases x with
  | ok a => exact .returned rfl
  | error cause => exact .halted cause

theorem bind {x : Except Halt α} {y : Except Halt β} {f : α → Except Halt γ}
    {g : β → Except Halt δ} (hx : AlikeResults R x y)
    (hf : ∀ a b, R a b → AlikeResults S (f a) (g b)) : AlikeResults S (x >>= f) (y >>= g) := by
  cases hx with
  | returned hab => exact hf _ _ hab
  | halted cause => exact .halted cause

/-- A check on the way. -/
theorem check (x : Except Halt Unit) {y : Except Halt γ} {z : Except Halt δ}
    (hy : AlikeResults S y z) : AlikeResults S (x >>= fun _ => y) (x >>= fun _ => z) :=
  (same x).bind fun _ _ _ => hy

end AlikeResults

/-- What two computations on the host come to: values that are related and alike states, or halts
for the same cause in alike states. -/
inductive AlikeOutcomes (R : α → β → Prop) :
    EStateM.Result Halt Host α → EStateM.Result Halt Host β → Prop
  | returned {a : α} {b : β} {h k : Host} (values : R a b) (states : h.Alike k) :
      AlikeOutcomes R (.ok a h) (.ok b k)
  | halted (cause : Halt) {h k : Host} (states : h.Alike k) :
      AlikeOutcomes R (.error cause h) (.error cause k)

end Results

namespace Host

variable {α β γ δ : Type} {R : α → β → Prop} {S : γ → δ → Prop}

/-- `x` and `y` go alike, with values related by `R`. -/
def GoAlike (R : α → β → Prop) (x : HostM α) (y : HostM β) : Prop :=
  ∀ h k, h.Alike k → AlikeOutcomes R (x h) (y k)

namespace GoAlike

theorem value {a : α} {b : β} (hab : R a b) : GoAlike R (pure a : HostM α) (pure b) :=
  fun _ _ hstate => .returned hab hstate

theorem bind {x : HostM α} {y : HostM β} {f : α → HostM γ} {g : β → HostM δ}
    (hx : GoAlike R x y) (hf : ∀ a b, R a b → GoAlike S (f a) (g b)) :
    GoAlike S (x >>= f) (y >>= g) := by
  intro h k hstate
  have hfirst := hx h k hstate
  change AlikeOutcomes S (EStateM.bind x f h) (EStateM.bind y g k)
  unfold EStateM.bind
  generalize x h = outcome at hfirst
  generalize y k = outcome' at hfirst
  cases hfirst with
  | returned hab hstate' => exact hf _ _ hab _ _ hstate'
  | halted cause hstate' => exact .halted cause hstate'

/-- The rule for computations that give the same value. -/
theorem andThen {x y : HostM α} {f : α → HostM γ} {g : α → HostM δ} (hx : GoAlike Eq x y)
    (hf : ∀ a, GoAlike S (f a) (g a)) : GoAlike S (x >>= f) (y >>= g) := by
  refine hx.bind ?_
  rintro a _ rfl
  exact hf a

theorem cond {p : Prop} [Decidable p] {x x' : HostM α} {y y' : HostM β}
    (hthen : p → GoAlike R x y) (helse : ¬p → GoAlike R x' y') :
    GoAlike R (if p then x else x') (if p then y else y') := by
  by_cases hp : p
  · rw [if_pos hp, if_pos hp]
    exact hthen hp
  · rw [if_neg hp, if_neg hp]
    exact helse hp

theorem lift {x : Except Halt α} {y : Except Halt β} (hx : AlikeResults R x y) :
    GoAlike R (liftM x : HostM α) (liftM y) := by
  intro h k hstate
  cases hx with
  | returned hab => exact .returned hab hstate
  | halted cause => exact .halted cause hstate

/-- A computation that sees no state goes alike with itself. -/
theorem lifted (x : Except Halt α) : GoAlike Eq (liftM x : HostM α) (liftM x) :=
  lift (.same x)

/-- A check on the way. -/
theorem check (x : Except Halt Unit) {y : HostM γ} {z : HostM δ} (hy : GoAlike S y z) :
    GoAlike S (liftM x >>= fun _ => y : HostM γ) (liftM x >>= fun _ => z) :=
  (lifted x).andThen fun _ => hy

theorem halts (cause : Halt) : GoAlike R (halt cause : HostM α) (halt cause : HostM β) :=
  lift (.halted cause)

theorem state : GoAlike Scheduler.Alike (get : HostM Scheduler) get := by
  rintro h _ ⟨hs, hlog⟩
  exact .returned hs ⟨hs, hlog⟩

theorem put {s s' : Scheduler} (hs : s.Alike s') :
    GoAlike Eq (set s : HostM PUnit) (set s') := by
  rintro h _ ⟨-, hlog⟩
  exact .returned rfl (.mk (h := h.withScheduler s) hs hlog)

theorem change {f g : Scheduler → Scheduler} (hf : ∀ s s', s.Alike s' → (f s).Alike (g s')) :
    GoAlike Eq (modify f : HostM PUnit) (modify g) := by
  rintro h _ ⟨hs, hlog⟩
  exact .returned rfl (.mk (h := h.withScheduler (f h.scheduler)) (hf _ _ hs) hlog)

theorem level : GoAlike Eq (Port.level : HostM Level) Port.level := by
  rintro h _ ⟨hs, hlog⟩
  exact .returned rfl ⟨hs, hlog⟩

theorem disable : GoAlike Eq (Port.disable : HostM Level) Port.disable := by
  rintro h _ ⟨hs, hlog⟩
  exact .returned rfl (.mk (h := h.withLevel .off) hs hlog)

theorem enable : GoAlike Eq (Port.enable : HostM Unit) Port.enable := by
  rintro h _ ⟨hs, hlog⟩
  exact .returned rfl (.mk (h := h.withLevel .on) hs hlog)

theorem setLevel (l : Level) : GoAlike Eq (Port.setLevel l : HostM Level) (Port.setLevel l) := by
  cases l with
  | on => exact level.andThen fun _ => enable.andThen fun _ => .value rfl
  | off => exact disable

theorem criticalSection {x : HostM α} {y : HostM α} (hx : GoAlike Eq x y) :
    GoAlike Eq (Port.criticalSection x) (Port.criticalSection y) :=
  disable.andThen fun old => hx.andThen fun _ => (setLevel old).andThen fun _ => .value rfl

theorem inInterrupt : GoAlike Eq (Port.inInterrupt : HostM Bool) Port.inInterrupt := by
  rintro h _ ⟨hs, hlog⟩
  exact .returned rfl ⟨hs, hlog⟩

theorem setInInterrupt (on : Bool) :
    GoAlike Eq (modifyThe Host fun h => { h with inInterrupt := on } : HostM PUnit)
      (modifyThe Host fun h => { h with inInterrupt := on }) := by
  rintro h _ ⟨hs, hlog⟩
  exact .returned rfl (.mk (h := { h with inInterrupt := on }) hs hlog)

theorem requestYield : GoAlike Eq (Port.requestYield : HostM Unit) Port.requestYield := by
  rintro h _ ⟨hs, hlog⟩
  exact .returned rfl (.mk (h := { h with yieldPending := true }) hs hlog)

theorem takeYield : GoAlike Eq Host.takeYield Host.takeYield := by
  rintro h _ ⟨hs, hlog⟩
  exact .returned rfl (.mk (h := { h with yieldPending := false }) hs hlog)

theorem stackPointer : GoAlike Eq (Port.stackPointer : HostM Nat) Port.stackPointer := by
  rintro h _ ⟨hs, hlog⟩
  exact .returned rfl ⟨hs, hlog⟩

theorem waitForInterrupt :
    GoAlike Eq (Port.waitForInterrupt : HostM Unit) Port.waitForInterrupt := by
  rintro h _ ⟨hs, hlog⟩
  rw [waitForInterrupt_eq, waitForInterrupt_eq]
  by_cases hroom : h.waits + 1 < Word.limit64
  · rw [if_pos hroom, if_pos hroom]
    exact .returned rfl (.mk (h := { h with waits := h.waits + 1, level := .on }) hs hlog)
  · rw [if_neg hroom, if_neg hroom]
    exact .halted _ ⟨hs, hlog⟩

theorem freshContext (entry arg0 arg1 arg1' top : Nat) :
    GoAlike Context.Alike (Port.freshContext entry arg0 arg1 top : HostM Context)
      (Port.freshContext entry arg0 arg1' top) :=
  .value (Context.alike_entering entry arg0 arg1 arg1' top)

theorem log {record record' : Record} (hrecord : record.Alike record') :
    GoAlike Eq (Port.log record : HostM Unit) (Port.log record') := by
  rintro h _ ⟨hs, hlog⟩
  refine .returned rfl (.mk (h := h.logged record) hs ?_)
  simp only [logged, Array.toList_push]
  exact List.rel_append hlog (.cons hrecord .nil)

/-- The stack pointers that a switch stores and loads are the same. -/
theorem switchContext (source target : Nat) :
    GoAlike Eq (Port.switchContext source target : HostM Unit)
      (Port.switchContext source target) := by
  rintro h _ ⟨@⟨threads, hblocks⟩, hlog⟩
  have hsp := (hblocks target).sp_eq
  have hsaved := hblocks.modify source
    (f := fun t => { t with context.sp := h.sp }) (g := fun t => { t with context.sp := h.sp }) (by
      rintro t _ ⟨nameBuffer, priority, ⟨arg⟩⟩
      exact ⟨nameBuffer, priority, ⟨arg⟩⟩)
  by_cases hlevel : h.level = .off
  · rw [Scheduler.switchContext_eq, Scheduler.switchContext_eq, if_pos hlevel, if_pos hlevel]
    refine .returned rfl ?_
    simp only [switched, hsp]
    exact .mk (h := h.switched source target) (.mk hsaved) hlog
  · rw [Scheduler.switchContext_eq, Scheduler.switchContext_eq, if_neg hlevel, if_neg hlevel]
    exact .halted _ ⟨⟨hblocks⟩, hlog⟩

end GoAlike

end Host

end RoundRobin
