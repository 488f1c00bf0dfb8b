import RoundRobin.Proofs.Scheduler.Step

/-!
# Saved registers

A creation writes the registers of the new thread, a switch stores the stack pointer of the thread
that is left and loads that of the thread that takes over, and nothing else touches saved
registers. All of this holds in any state, whatever the threads are doing.
-/

namespace RoundRobin.Scheduler

variable {s s' s₁ : Scheduler} {b r n sp sp' now : Nat} {a : Action}

/-- All threads have the same saved registers, and new ones start at the same place. -/
structure SameRegisters (s s' : Scheduler) : Prop where
  context : ∀ b, (s'.threads.get b).context = (s.threads.get b).context
  trampoline : s'.trampoline = s.trampoline

namespace SameRegisters

theorem refl (s : Scheduler) : SameRegisters s s :=
  ⟨fun _ => rfl, rfl⟩

theorem trans (h : SameRegisters s s₁) (h' : SameRegisters s₁ s') : SameRegisters s s' :=
  ⟨fun b => (h'.context b).trans (h.context b), h'.trampoline.trans h.trampoline⟩

/-- One control block changes and keeps its registers. -/
theorem modify {f : Thread → Thread} (hthreads : s'.threads = s.threads.modify b f)
    (hf : ∀ t, (f t).context = t.context) (htrampoline : s'.trampoline = s.trampoline) :
    SameRegisters s s' := by
  refine ⟨fun c => ?_, htrampoline⟩
  rw [hthreads]
  exact Memory.apply_get_modify Thread.context (hf _) c

theorem alter (s : Scheduler) (b : Nat) {f : Thread → Thread}
    (hf : ∀ t, (f t).context = t.context) : SameRegisters s (s.alter b f) :=
  modify rfl hf rfl

theorem mark (s : Scheduler) (b : Nat) (status : Status) : SameRegisters s (s.mark b status) :=
  alter s b fun _ => rfl

theorem enqueue (s : Scheduler) (b : Nat) : SameRegisters s (s.enqueue b) :=
  modify (f := Thread.claimedBy s.ready.kind) rfl (fun _ => rfl) rfl

theorem makeReady (s : Scheduler) (b : Nat) : SameRegisters s (s.makeReady b) :=
  (enqueue s b).trans (mark _ b .ready)

theorem bury (s : Scheduler) (b : Nat) : SameRegisters s (s.bury b) :=
  modify (f := Thread.claimedBy s.destruction.kind) rfl (fun _ => rfl) rfl

theorem exhume (s : Scheduler) (b : Nat) : SameRegisters s (s.exhume b) :=
  modify (f := Thread.released) rfl (fun _ => rfl) rfl

theorem unshelve (s : Scheduler) (b : Nat) : SameRegisters s (s.unshelve b) :=
  modify (f := Thread.released) rfl (fun _ => rfl) rfl

theorem putToSleep (s : Scheduler) (b wake : Nat) : SameRegisters s (s.putToSleep b wake) :=
  (alter s b (f := fun t => { t with wakeTick := some wake }) fun _ => rfl).trans
    (modify (f := Thread.claimedBy s.sleepers.queue.kind) rfl (fun _ => rfl) rfl)

theorem rouse (s : Scheduler) (b : Nat) : SameRegisters s (s.rouse b) :=
  ((unshelve s b).trans (alter _ b (f := fun t => { t with wakeTick := none }) fun _ => rfl)).trans
    (makeReady _ b)

theorem dequeue (s : Scheduler) : SameRegisters s s.dequeue := by
  unfold Scheduler.dequeue
  split
  · exact refl s
  · exact modify (f := Thread.released) rfl (fun _ => rfl) rfl

theorem elect (s : Scheduler) (n : Nat) : SameRegisters s (s.elect n) :=
  have h := (dequeue s).trans (mark _ n .running)
  ⟨h.context, h.trampoline⟩

theorem park (s : Scheduler) (r : Nat) : SameRegisters s (s.park r) := by
  unfold Scheduler.park
  split
  · exact bury s r
  · exact refl s

end SameRegisters

theorem Woken.sameRegisters (h : Woken now s s') : SameRegisters s s' := by
  induction h with
  | done => exact .refl _
  | next _ _ _ _ ih => exact (SameRegisters.rouse _ _).trans ih

theorem Reclaimed.sameRegisters (h : Reclaimed s s') : SameRegisters s s' := by
  cases h with
  | none => exact .refl s
  | @one b =>
      have h := SameRegisters.exhume s b
      exact ⟨h.context, h.trampoline⟩

theorem Departs.sameRegisters (hd : Departs s r a s₁) : SameRegisters s s₁ := by
  cases hd with
  | idles _ hback => exact hback.sameRegisters.trans (.mark _ r .ready)
  | yields _ hback =>
      exact ((SameRegisters.enqueue s r).trans hback.sameRegisters).trans (.mark _ r .ready)
  | blocks => exact .mark s r .blocked
  | sleeps => exact (SameRegisters.putToSleep s r _).trans (.mark _ r .blocked)
  | exits _ hback => exact hback.sameRegisters.trans (.mark _ r .dying)

/-- The registers of the thread in `b` after `n` took over from `r`, which had the stack pointer
`sp`. -/
def handedOver (s : Scheduler) (sp r n b : Nat) : Context :=
  if b = r ∧ r ≠ n then { (s.threads.get b).context with sp } else (s.threads.get b).context

/-- The stack pointer once `n` took over from `r`, which had the stack pointer `sp`. -/
def resumedAt (s : Scheduler) (sp r n : Nat) : Nat :=
  if r = n then sp else (s.threads.get n).context.sp

theorem handedOver_self (s : Scheduler) (sp r b : Nat) :
    s.handedOver sp r r b = (s.threads.get b).context :=
  if_neg fun h => h.2 rfl

theorem resumedAt_self (s : Scheduler) (sp r : Nat) : s.resumedAt sp r r = sp :=
  if_pos rfl

theorem SameRegisters.handedOver_eq (h : SameRegisters s s') (sp r n b : Nat) :
    s'.handedOver sp r n b = s.handedOver sp r n b := by
  simp only [handedOver, h.context b]

theorem SameRegisters.resumedAt_eq (h : SameRegisters s s') (sp r n : Nat) :
    s'.resumedAt sp r n = s.resumedAt sp r n := by
  simp only [resumedAt, h.context n]

/-- A dispatch stores one stack pointer and loads another one if the running thread changes. -/
theorem Dispatched.registers (hd : Dispatched s sp r s' sp' n) :
    (∀ b, (s'.threads.get b).context = s.handedOver sp r n b) ∧ sp' = s.resumedAt sp r n := by
  cases hd with
  | stay =>
      refine ⟨fun b => ?_, (s.resumedAt_self sp r).symm⟩
      rw [handedOver_self]
      exact (SameRegisters.elect s r).context b
  | switch _ hne =>
      have hsame := (SameRegisters.elect s n).trans (.park _ r)
      constructor
      · intro b
        rw [get_saveStack]
        by_cases hbr : r = b
        · subst hbr
          rw [if_pos rfl, handedOver, if_pos ⟨rfl, hne⟩, ← hsame.context r]
        · rw [if_neg hbr, handedOver, if_neg fun h => hbr h.1.symm]
          exact hsame.context b
      · rw [resumedAt, if_neg hne, hsame.context n]

/-- No step but a creation does anything to saved registers but hand over the processor. -/
theorem Step.registers (hstep : Step s sp r a s' sp' n) (hold : ∀ b, a ≠ .create b) :
    (∀ b, (s'.threads.get b).context = s.handedOver sp r n b) ∧ sp' = s.resumedAt sp r n := by
  have hstays : ∀ {s' : Scheduler}, SameRegisters s s' →
      (∀ b, (s'.threads.get b).context = s.handedOver sp r r b) ∧ sp = s.resumedAt sp r r := by
    intro s' hsame
    refine ⟨fun b => ?_, (s.resumedAt_self sp r).symm⟩
    rw [handedOver_self]
    exact hsame.context b
  cases hstep with
  | counted => exact hstays ⟨fun _ => rfl, rfl⟩
  | prioritised => exact hstays (.alter s r fun _ => rfl)
  | unblocked => exact hstays (.makeReady s _)
  | created => exact absurd rfl (hold _)
  | departed hdeparts hdispatched =>
      have hsame := hdeparts.sameRegisters
      obtain ⟨hcontext, hsp⟩ := hdispatched.registers
      exact ⟨fun b => (hcontext b).trans (hsame.handedOver_eq sp r n b),
        hsp.trans (hsame.resumedAt_eq sp r n)⟩
  | woke hwoken => exact hstays hwoken.sameRegisters
  | interrupted _ _ hwoken =>
      have hsame := hwoken.sameRegisters
      exact hstays ⟨hsame.context, hsame.trampoline⟩

/-- A creation writes no registers but those of the new thread. -/
theorem Step.registers_of_create (hstep : Step s sp r (.create b) s' sp' n) :
    n = r ∧ sp' = sp ∧ ∀ c, c ≠ b → (s'.threads.get c).context = (s.threads.get c).context := by
  cases hstep with
  | created =>
      refine ⟨rfl, rfl, ?_⟩
      intro c hc
      rw [(SameRegisters.makeReady _ _).context, get_spawned, if_neg (Ne.symm hc)]
  | departed hdeparts => cases hdeparts

/-- New threads start at the same place all the time. -/
theorem Step.trampoline_eq (hstep : Step s sp r a s' sp' n) : s'.trampoline = s.trampoline := by
  cases hstep with
  | counted => rfl
  | prioritised => rfl
  | unblocked => rfl
  | created => rfl
  | departed hdeparts hdispatched =>
      refine Eq.trans ?_ hdeparts.sameRegisters.trampoline
      cases hdispatched with
      | stay => exact (SameRegisters.elect _ r).trampoline
      | switch => exact ((SameRegisters.elect _ n).trans (.park _ r)).trampoline
  | woke hwoken => exact hwoken.sameRegisters.trampoline
  | interrupted _ _ hwoken => exact hwoken.sameRegisters.trampoline

end RoundRobin.Scheduler
