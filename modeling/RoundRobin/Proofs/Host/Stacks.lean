import RoundRobin.Proofs.Host.Ledger
import RoundRobin.Proofs.Scheduler.Registers

/-!
# Every thread on its own stack

The running thread may move its stack pointer within its block as it likes. Wherever it is when it
gives up the processor, there it goes on when it is dispatched again; a thread that never ran
starts at the top of its stack, with the registers it was created with.
-/

namespace RoundRobin.Host

open Config Scheduler

variable {g g₁ h h' h₀ : Host} {es : List Event} {call : Call} {created : Option Nat}
  {b r n entry arg trampoline : Nat} {departures : List (Nat × Nat)}
  {made : List (Nat × Nat × Nat)}

/-- The thread that a call created, its entry point and its argument. -/
def Event.fabricated (e : Event) : Option (Nat × Nat × Nat) :=
  match e.call, e.created with
  | .create _ _ entry arg, some tid => some (tid, entry, arg)
  | _, _ => none

/-- The threads that were created, with their entry points and arguments: the idle thread at boot,
the others in the run. -/
def fabrications (entry : Nat) (es : List Event) : List (Nat × Nat × Nat) :=
  (idleTid, entry, 0) :: es.filterMap Event.fabricated

/-- The threads that gave way to another one, each with its stack pointer at that time, the latest
first, after a call that led from `h` to `h'`. -/
def departuresAfter (departures : List (Nat × Nat)) (h h' : Host) : List (Nat × Nat) :=
  if Block.base h'.sp = Block.base h.sp then departures
  else (h.callerTid, h.sp) :: departures

/-- A run of a kernel in which the running thread also moves its stack pointer within its block. It
is told who gave way where. -/
inductive Trail (h₀ : Host) : List Event → List (Nat × Nat) → Host → Prop
  | nil : Trail h₀ [] [] h₀
  | move {es : List Event} {departures : List (Nat × Nat)} {h : Host}
      (trail : Trail h₀ es departures h) (sp : Nat) (home : Block.base sp = Block.base h.sp) :
      Trail h₀ es departures { h with sp }
  | call {es : List Event} {departures : List (Nat × Nat)} {h h' : Host} {call : Call}
      {created : Option Nat} (trail : Trail h₀ es departures h) (allowed : Kernel h call)
      (performs : call.perform h = .ok created h') :
      Trail h₀ (es ++ [.between h call created h']) (departuresAfter departures h h') h'

/-- The thread `tid` with the block `b` goes on at `sp`: where it last gave way, or else at the top
of its stack. -/
def ResumesAt (departures : List (Nat × Nat)) (tid b sp : Nat) : Prop :=
  match departures.lookup tid with
  | some left => sp = left
  | none => Block.initialStackPointer b = .ok sp

theorem resumesAt_cons_self (departures : List (Nat × Nat)) (tid b sp : Nat) :
    ResumesAt ((tid, sp) :: departures) tid b sp := by
  simp [ResumesAt]

theorem resumesAt_cons_of_ne {tid other sp left : Nat} (hne : tid ≠ other) :
    ResumesAt ((other, left) :: departures) tid b sp ↔ ResumesAt departures tid b sp := by
  have hother : (tid == other) = false := beq_eq_false_iff_ne.mpr hne
  simp [ResumesAt, List.lookup_cons, hother]

/-- A thread that never gave way is not among those that did. -/
theorem resumesAt_of_new {tid sp : Nat} (hnew : ∀ d ∈ departures, d.1 ≠ tid)
    (htop : Block.initialStackPointer b = .ok sp) : ResumesAt departures tid b sp := by
  have hlookup : departures.lookup tid = none := by
    rw [List.lookup_eq_none_iff]
    exact fun d hd => bne_iff_ne.mpr (Ne.symm (hnew d hd))
  rw [ResumesAt, hlookup]
  exact htop

/-- A call that creates no thread and after which `n` runs. -/
structure HandsOver (h : Host) (r : Nat) (h' : Host) (n : Nat) : Prop where
  context : ∀ b, (h'.scheduler.threads.get b).context = h.scheduler.handedOver h.sp r n b
  sp : h'.sp = h.scheduler.resumedAt h.sp r n
  tid : ∀ b, (h'.scheduler.threads.get b).tid = (h.scheduler.threads.get b).tid
  nextTid : h'.scheduler.nextTid = h.scheduler.nextTid
  trampoline : h'.scheduler.trampoline = h.scheduler.trampoline
  initial : h'.scheduler.initial = h.scheduler.initial
  in_use : ∀ b ∈ h'.scheduler.pool.blocksInUse, b ∈ h.scheduler.pool.blocksInUse

/-- A call that creates a thread in `b`. -/
structure Fabricates (h : Host) (entry arg b : Nat) (h' : Host) : Prop where
  free : ¬ h.scheduler.Live b
  top : Block.initialStackPointer b = .ok (h'.scheduler.threads.get b).context.sp
  context : (h'.scheduler.threads.get b).context =
    .entering h.scheduler.trampoline entry arg (h'.scheduler.threads.get b).context.sp
  tid : (h'.scheduler.threads.get b).tid = h.scheduler.nextTid
  others : ∀ c, c ≠ b → (h'.scheduler.threads.get c).context =
    (h.scheduler.threads.get c).context ∧
      (h'.scheduler.threads.get c).tid = (h.scheduler.threads.get c).tid
  sp : h'.sp = h.sp
  nextTid : h'.scheduler.nextTid = h.scheduler.nextTid + 1
  trampoline : h'.scheduler.trampoline = h.scheduler.trampoline
  initial : h'.scheduler.initial = h.scheduler.initial
  in_use : ∀ c ∈ h'.scheduler.pool.blocksInUse, c = b ∨ c ∈ h.scheduler.pool.blocksInUse

theorem HandsOver.live (hh : HandsOver h r h' n) (hlive : h'.scheduler.Live b) :
    h.scheduler.Live b :=
  hlive.imp (hh.initial ▸ ·) (hh.in_use b)

theorem Fabricates.live (hf : Fabricates h entry arg b h') {c : Nat}
    (hlive : h'.scheduler.Live c) : c = b ∨ h.scheduler.Live c := by
  rcases hlive with hmain | hmem
  · exact Or.inr (Or.inl (hf.initial ▸ hmain))
  · exact (hf.in_use c hmem).imp_right Or.inr

theorem Fabricates.kept (hf : Fabricates h entry arg b h') {c : Nat}
    (hlive : h.scheduler.Live c) :
    (h'.scheduler.threads.get c).context = (h.scheduler.threads.get c).context ∧
      (h'.scheduler.threads.get c).tid = (h.scheduler.threads.get c).tid := by
  apply hf.others
  rintro rfl
  exact hf.free hlive

/-- The registers of a new thread. -/
theorem Spawns.registers {name : String} {priority : Nat}
    (hspawn : h.Spawns name priority entry arg b h') :
    h'.scheduler.trampoline = h.scheduler.trampoline ∧
      Block.initialStackPointer b = .ok (h'.scheduler.threads.get b).context.sp ∧
      (h'.scheduler.threads.get b).context =
        .entering h.scheduler.trampoline entry arg (h'.scheduler.threads.get b).context.sp := by
  obtain ⟨pool, threads, c, top, -, -, -, htop, rfl⟩ := hspawn
  have hcontext : (((h.scheduler.allot b pool threads).enlist b c
      (.entering h.scheduler.trampoline entry arg top)).threads.get b).context =
        .entering h.scheduler.trampoline entry arg top := by
    rw [get_enlist, if_pos rfl]
  have hsp := congrArg Context.sp hcontext
  exact ⟨rfl, htop.trans (congrArg Except.ok hsp.symm),
    hcontext.trans (congrArg (Context.entering _ entry arg) hsp.symm)⟩

/-- A step that creates no thread hands over the processor, to the same thread or to another. -/
theorem Takes.handsOver {a : Action} (ht : h.Takes r a h' n) (ho : h.Orderly r)
    (hold : ∀ b, a ≠ .create b) : HandsOver h r h' n := by
  obtain ⟨hcontext, hsp⟩ := Step.registers ht hold
  have htrampoline := Step.trampoline_eq ht
  have hbooks := ht.bookkeeping ho.settled
  generalize hs' : h'.scheduler = s' at hbooks
  cases hbooks with
  | kept _ hsame =>
      subst hs'
      exact ⟨hcontext, hsp, hsame.tid, hsame.nextTid, htrampoline, hsame.initial,
        fun b hb => hsame.pool ▸ hb⟩
  | created => exact absurd rfl (hold _)
  | returned _ hback _ hinitial hnext htid =>
      subst hs'
      refine ⟨hcontext, hsp, htid, hnext, htrampoline, hinitial, fun b hb => ?_⟩
      rw [hback.perm.1.mem_iff]
      exact List.mem_append_right _ hb

/-- What a call to create a thread does if it is not refused. -/
theorem fabricates_of_spawns {name : String} {priority : Nat} {h₁ : Host} (ho : h.Orderly r)
    (hspawn : h.Spawns name priority entry arg b h₁) :
    Fabricates h entry arg b (h₁.withScheduler (h₁.scheduler.makeReady b)) := by
  obtain ⟨htrampoline, htop, hcontext⟩ := hspawn.registers
  obtain ⟨k, t, context, hslot, rfl, -, -, -, hs₁, hsp₁⟩ :=
    hspawn.spawned ho.settled.housed.placed
  have hk := Pool.busy_of_freeSlot? hslot
  have hframe := ho.settled.spawned_frame hk t context
  have hget := h.scheduler.get_spawned k t context
  rw [← hs₁] at hframe hget
  have hregisters := SameRegisters.makeReady h₁.scheduler (h.scheduler.pool.slotAddress k)
  have hbooks := SameBooks.makeReady h₁.scheduler (h.scheduler.pool.slotAddress k)
  constructor
  · exact ho.settled.not_live_of_free hk
  · rw [scheduler_withScheduler, hregisters.context]
    exact htop
  · rw [scheduler_withScheduler, hregisters.context]
    exact hcontext
  · rw [scheduler_withScheduler, hbooks.tid, hget, if_pos rfl]
  · intro c hne
    rw [scheduler_withScheduler, hregisters.context, hbooks.tid, hget, if_neg (Ne.symm hne)]
    exact ⟨rfl, rfl⟩
  · exact hsp₁
  · rw [scheduler_withScheduler, hbooks.nextTid, hframe]
  · exact htrampoline
  · rw [scheduler_withScheduler, hbooks.initial, hframe]
  · intro c hc
    rw [scheduler_withScheduler, hbooks.pool, hframe] at hc
    exact (Pool.mem_blocksInUse_occupied (Pool.lt_capacity_of_busy hk)).mp hc

theorem Call.Amounts.creates {now : Nat} (ha : call.Amounts now (.create b)) :
    ∃ name priority entry arg, call = .create name priority entry arg := by
  cases call <;> simp_all [Call.Amounts]

/-- A call hands over the processor, or creates a thread. -/
theorem Call.hands_over_or_fabricates (ho : h.Orderly r) (hallowed : Kernel h call)
    (hperforms : call.perform h = .ok created h') :
    (∃ n, h'.Orderly n ∧ HandsOver h r h' n ∧
      (Event.between h call created h').fabricated = none) ∨
    ∃ entry arg b, h'.Orderly r ∧ Fabricates h entry arg b h' ∧
      (Event.between h call created h').fabricated = some (h.scheduler.nextTid, entry, arg) := by
  obtain ⟨a, n, hamounts, ht, hcreated⟩ := Call.takes ho hallowed hperforms
  by_cases hcreates : ∃ b, a = .create b
  · obtain ⟨b, rfl⟩ := hcreates
    obtain ⟨name, priority, entry, arg, rfl⟩ := hamounts.creates
    obtain ⟨rfl, -, -⟩ := Step.registers_of_create ht
    simp only [perform, bind_eq_ok_iff, pure_eq_ok_iff] at hperforms
    obtain ⟨res, _, hcreate, rfl, rfl⟩ := hperforms
    obtain ⟨-, ⟨-, rfl, rfl⟩ | ⟨c, h₁, hspawn, hunblock, rfl⟩⟩ := create_eq_ok_iff.mp hcreate
    · exact absurd hcreated (by simp [createdBlock, Except.toOption])
    · obtain ⟨-, -, -, rfl⟩ := unblock_eq_ok_iff.mp hunblock
      have hf := fabricates_of_spawns ho hspawn
      refine Or.inr ⟨entry, arg, c, ht.orderly ho, hf, ?_⟩
      simp only [Event.between, Event.fabricated, Except.toOption, hf.tid]
  · have hold : ∀ b, a ≠ .create b := fun b heq => hcreates ⟨b, heq⟩
    refine Or.inl ⟨n, ht.orderly ho, ht.handsOver ho hold, ?_⟩
    have hnone : created = none := by
      rw [hcreated]
      cases a with
      | create b => exact absurd rfl (hold b)
      | _ => rfl
    subst hnone
    cases call <;> rfl

/-- The invariant of a trail. The threads in `made` were created, and those in `departures` gave
way. -/
structure Chronicle (trampoline : Nat) (made : List (Nat × Nat × Nat))
    (departures : List (Nat × Nat)) (h : Host) (r : Nat) : Prop where
  orderly : h.Orderly r
  trampoline_eq : h.scheduler.trampoline = trampoline
  tid_lt : ∀ b, h.scheduler.Live b → (h.scheduler.threads.get b).tid < h.scheduler.nextTid
  tid_inj : ∀ b c, h.scheduler.Live b → h.scheduler.Live c →
    (h.scheduler.threads.get b).tid = (h.scheduler.threads.get c).tid → b = c
  departed_lt : ∀ d ∈ departures, d.1 < h.scheduler.nextTid
  saved : ∀ b, h.scheduler.Live b → b ≠ r →
    ResumesAt departures (h.scheduler.threads.get b).tid b (h.scheduler.threads.get b).context.sp
  made_lt : ∀ m ∈ made, m.1 < h.scheduler.nextTid
  made_nodup : (made.map (·.1)).Nodup
  made_of : ∀ b ∈ h.scheduler.pool.blocksInUse, ∃ entry arg,
    ((h.scheduler.threads.get b).tid, entry, arg) ∈ made ∧
      (h.scheduler.threads.get b).context =
        .entering trampoline entry arg (h.scheduler.threads.get b).context.sp

namespace Chronicle

theorem move (hc : Chronicle trampoline made departures h r) {sp : Nat}
    (hhome : Block.base sp = Block.base h.sp) :
    Chronicle trampoline made departures { h with sp } r := by
  have hhere : Block.containing sp = .ok r := by
    rw [Block.containing_eq_ok_iff_base, hhome]
    exact Block.containing_eq_ok_iff_base.mp hc.orderly.here
  exact ⟨⟨hc.orderly.settled, hhere⟩, hc.trampoline_eq, hc.tid_lt, hc.tid_inj, hc.departed_lt,
    hc.saved, hc.made_lt, hc.made_nodup, hc.made_of⟩

/-- Only the thread that gives way is told of. -/
theorem departuresAfter_eq (hc : Chronicle trampoline made departures h r) (ho' : h'.Orderly n) :
    departuresAfter departures h h' =
      if n = r then departures else ((h.scheduler.threads.get r).tid, h.sp) :: departures := by
  rw [departuresAfter, base_of_containing ho'.here, base_of_containing hc.orderly.here,
    callerTid_of_containing hc.orderly.here]

/-- The thread that gives way is saved where it is, and nobody else is touched. -/
theorem hands_over (hc : Chronicle trampoline made departures h r) (ho' : h'.Orderly n)
    (hh : HandsOver h r h' n) :
    Chronicle trampoline made (departuresAfter departures h h') h' n where
  orderly := ho'
  trampoline_eq := hh.trampoline.trans hc.trampoline_eq
  tid_lt b hb := by
    rw [hh.tid, hh.nextTid]
    exact hc.tid_lt b (hh.live hb)
  tid_inj b c hb hc' heq := by
    rw [hh.tid, hh.tid] at heq
    exact hc.tid_inj b c (hh.live hb) (hh.live hc') heq
  departed_lt := by
    rw [hc.departuresAfter_eq ho', hh.nextTid]
    split
    · exact hc.departed_lt
    · intro d hd
      rcases List.mem_cons.mp hd with rfl | hd
      · exact hc.tid_lt r hc.orderly.settled.live
      · exact hc.departed_lt d hd
  saved b hb hne := by
    have hlive := hh.live hb
    rw [hc.departuresAfter_eq ho', hh.tid, hh.context]
    by_cases hnr : n = r
    · subst hnr
      rw [if_pos rfl, handedOver_self]
      exact hc.saved b hlive hne
    · rw [if_neg hnr]
      by_cases hbr : b = r
      · subst hbr
        rw [handedOver, if_pos ⟨rfl, Ne.symm hnr⟩]
        exact resumesAt_cons_self departures _ b h.sp
      · have hother : (h.scheduler.threads.get b).tid ≠ (h.scheduler.threads.get r).tid :=
          fun heq => hbr (hc.tid_inj b r hlive hc.orderly.settled.live heq)
        rw [handedOver, if_neg fun hr => hbr hr.1, resumesAt_cons_of_ne hother]
        exact hc.saved b hlive hbr
  made_lt := by
    rw [hh.nextTid]
    exact hc.made_lt
  made_nodup := hc.made_nodup
  made_of b hb := by
    obtain ⟨entry, arg, hmade, hcontext⟩ := hc.made_of b (hh.in_use b hb)
    refine ⟨entry, arg, by rwa [hh.tid], ?_⟩
    rw [hh.context, handedOver]
    split
    · rw [hcontext]
      rfl
    · exact hcontext

section

variable (hc : Chronicle trampoline made departures h r) (hf : Fabricates h entry arg b h')

include hc hf

theorem tid_lt_of_fabricates (c : Nat) (hlive : h'.scheduler.Live c) :
    (h'.scheduler.threads.get c).tid < h'.scheduler.nextTid := by
  rw [hf.nextTid]
  rcases hf.live hlive with rfl | hlive
  · rw [hf.tid]
    exact Nat.lt_succ_self _
  · rw [(hf.kept hlive).2]
    exact Nat.lt_succ_of_lt (hc.tid_lt c hlive)

/-- The new thread has the next identifier, and all older ones have smaller identifiers. -/
theorem tid_inj_of_fabricates (c d : Nat) (hlive : h'.scheduler.Live c)
    (hlive' : h'.scheduler.Live d)
    (heq : (h'.scheduler.threads.get c).tid = (h'.scheduler.threads.get d).tid) : c = d := by
  have hnew : ∀ c, h.scheduler.Live c →
      (h'.scheduler.threads.get b).tid ≠ (h'.scheduler.threads.get c).tid := by
    intro c hlive heq
    rw [hf.tid, (hf.kept hlive).2] at heq
    exact Nat.lt_irrefl _ (heq ▸ hc.tid_lt c hlive)
  rcases hf.live hlive with rfl | hlive <;> rcases hf.live hlive' with rfl | hlive'
  · rfl
  · exact absurd heq (hnew d hlive')
  · exact absurd heq.symm (hnew c hlive)
  · rw [(hf.kept hlive).2, (hf.kept hlive').2] at heq
    exact hc.tid_inj c d hlive hlive' heq

/-- The new thread is not among those that gave way, so it has to be at the top of its stack. -/
theorem saved_of_fabricates (c : Nat) (hlive : h'.scheduler.Live c) (hne : c ≠ r) :
    ResumesAt departures (h'.scheduler.threads.get c).tid c
      (h'.scheduler.threads.get c).context.sp := by
  rcases hf.live hlive with rfl | hlive
  · rw [hf.tid]
    exact resumesAt_of_new (fun d hd => Nat.ne_of_lt (hc.departed_lt d hd)) hf.top
  · obtain ⟨hcontext, htid⟩ := hf.kept hlive
    rw [hcontext, htid]
    exact hc.saved c hlive hne

omit hf in
theorem made_nodup_of_fabricates :
    ((made ++ [(h.scheduler.nextTid, entry, arg)]).map (·.1)).Nodup := by
  rw [List.map_append, List.map_singleton, List.nodup_append']
  refine ⟨hc.made_nodup, List.nodup_singleton _, ?_⟩
  intro tid htid hlast
  obtain ⟨m, hm, rfl⟩ := List.mem_map.mp htid
  exact Nat.ne_of_lt (hc.made_lt m hm) (List.mem_singleton.mp hlast)

theorem made_of_fabricates (c : Nat) (hmem : c ∈ h'.scheduler.pool.blocksInUse) :
    ∃ entry' arg', ((h'.scheduler.threads.get c).tid, entry', arg') ∈
        made ++ [(h.scheduler.nextTid, entry, arg)] ∧
      (h'.scheduler.threads.get c).context =
        .entering trampoline entry' arg' (h'.scheduler.threads.get c).context.sp := by
  rcases hf.in_use c hmem with rfl | hmem
  · refine ⟨entry, arg, ?_, ?_⟩
    · rw [hf.tid]
      exact List.mem_append_right _ (List.mem_singleton_self _)
    · rw [← hc.trampoline_eq]
      exact hf.context
  · obtain ⟨hcontext, htid⟩ := hf.kept (Or.inr hmem)
    obtain ⟨entry', arg', hmade, hregisters⟩ := hc.made_of c hmem
    rw [hcontext, htid]
    exact ⟨entry', arg', List.mem_append_left _ hmade, hregisters⟩

/-- A new thread is told of with its entry point and its argument. -/
theorem fabricates (ho' : h'.Orderly r) :
    Chronicle trampoline (made ++ [(h.scheduler.nextTid, entry, arg)])
      (departuresAfter departures h h') h' r := by
  rw [hc.departuresAfter_eq ho', if_pos rfl]
  refine {
    orderly := ho'
    trampoline_eq := hf.trampoline.trans hc.trampoline_eq
    tid_lt := hc.tid_lt_of_fabricates hf
    tid_inj := hc.tid_inj_of_fabricates hf
    departed_lt := ?_
    saved := hc.saved_of_fabricates hf
    made_lt := ?_
    made_nodup := hc.made_nodup_of_fabricates
    made_of := hc.made_of_fabricates hf }
  · intro d hd
    rw [hf.nextTid]
    exact Nat.lt_succ_of_lt (hc.departed_lt d hd)
  · intro m hm
    rw [hf.nextTid]
    rcases List.mem_append.mp hm with hm | hm
    · exact Nat.lt_succ_of_lt (hc.made_lt m hm)
    · rw [List.mem_singleton.mp hm]
      exact Nat.lt_succ_self _

end

end Chronicle

/-- Boot leaves the idle thread with the registers of a new thread, and nobody has given way. -/
theorem chronicle_boot (hfresh : g.Fresh) (hinit : (init : HostM Unit) g = .ok () g₁)
    (hstart : (start entry : HostM (Except SpawnError Unit)) g₁ = .ok (.ok ()) h₀) :
    ∃ main, Chronicle h₀.scheduler.trampoline (fabrications entry []) [] h₀ main := by
  have hbooted : h₀.Booted := ⟨⟨g, g₁, entry, hfresh, hinit, hstart⟩⟩
  obtain ⟨main, idle, hafter⟩ := hbooted.after
  obtain ⟨-, hres, -⟩ | ⟨b, h₁, hspawn, -, rfl⟩ := start_eq_ok_iff.mp hstart
  · cases hres
  obtain rfl : b = idle := Option.some.inj hafter.idle_eq
  obtain ⟨htrampoline, htop, hcontext⟩ := hspawn.registers
  rw [← htrampoline] at hcontext
  have hlive : ∀ c, ((h₁.withScheduler (h₁.scheduler.appoint b)).withLevel .on).scheduler.Live c →
      c = main ∨ c = b := by
    rintro c (hmain | hmem)
    · exact Or.inl (Option.some.inj (hmain.symm.trans hafter.initial_eq))
    · rw [hafter.blocks] at hmem
      exact Or.inr (List.mem_singleton.mp hmem)
  refine ⟨main, hafter.orderly, rfl, ?_, ?_, ?_, ?_, ?_, ?_, ?_⟩
  · intro c hc
    rw [hafter.nextTid_eq]
    rcases hlive c hc with rfl | rfl
    · rw [hafter.tid_main]
      decide
    · rw [hafter.tid_idle]
      decide
  · intro c d hc hd heq
    rcases hlive c hc with rfl | rfl <;> rcases hlive d hd with rfl | rfl
    · rfl
    · rw [hafter.tid_main, hafter.tid_idle] at heq
      cases heq
    · rw [hafter.tid_main, hafter.tid_idle] at heq
      cases heq
    · rfl
  · intro d hd
    cases hd
  · intro c hc hne
    obtain rfl := (hlive c hc).resolve_left hne
    exact resumesAt_of_new (fun d hd => absurd hd List.not_mem_nil) htop
  · intro m hm
    rw [hafter.nextTid_eq, List.mem_singleton.mp hm]
    change idleTid < 3
    decide
  · exact List.nodup_singleton _
  · intro c hmem
    rw [hafter.blocks] at hmem
    obtain rfl := List.mem_singleton.mp hmem
    refine ⟨entry, 0, ?_, hcontext⟩
    rw [hafter.tid_idle]
    exact List.mem_singleton_self _

theorem fabrications_snoc (entry : Nat) (es : List Event) (e : Event) :
    fabrications entry (es ++ [e]) = fabrications entry es ++ e.fabricated.toList := by
  cases hfabricated : e.fabricated <;> simp [fabrications, hfabricated]

theorem Trail.chronicle {main : Nat}
    (hboot : Chronicle trampoline (fabrications entry []) [] h₀ main)
    (htrail : Trail h₀ es departures h) :
    ∃ r, Chronicle trampoline (fabrications entry es) departures h r := by
  induction htrail with
  | nil => exact ⟨main, hboot⟩
  | move _ sp hhome ih =>
      obtain ⟨r, hc⟩ := ih
      exact ⟨r, hc.move hhome⟩
  | call _ hallowed hperforms ih =>
      obtain ⟨r, hc⟩ := ih
      rw [fabrications_snoc]
      rcases Call.hands_over_or_fabricates hc.orderly hallowed hperforms with
        ⟨n, ho', hh, hnone⟩ | ⟨entry', arg, b, ho', hf, hsome⟩
      · rw [hnone, Option.toList_none, List.append_nil]
        exact ⟨n, hc.hands_over ho' hh⟩
      · rw [hsome, Option.toList_some]
        exact ⟨r, hc.fabricates hf ho'⟩

/-- What a call that leads from `h` to `h'` does with stacks and saved registers, after the threads
in `departures` gave way. -/
structure Resumes (departures : List (Nat × Nat)) (h h' : Host) : Prop where
  /-- A thread that takes over goes on where it last gave way, or starts at the top of its stack. -/
  resumed : Block.base h'.sp ≠ Block.base h.sp →
    ResumesAt departures h'.callerTid (Block.base h'.sp) h'.sp
  /-- If none takes over, the stack pointer stays. -/
  stays : Block.base h'.sp = Block.base h.sp → h'.sp = h.sp
  /-- Of the registers of threads that are there already, nothing changes but the stack pointer of
  the thread that gives way. -/
  registers : ∀ b, h.scheduler.Live b → (h'.scheduler.threads.get b).context =
    if b = Block.base h.sp ∧ Block.base h'.sp ≠ Block.base h.sp then
      { (h.scheduler.threads.get b).context with sp := h.sp }
    else (h.scheduler.threads.get b).context

/-- What holds wherever a trail has led, when the threads in `made` were created and those in
`departures` gave way. -/
structure OwnStacks (trampoline : Nat) (made : List (Nat × Nat × Nat))
    (departures : List (Nat × Nat)) (h : Host) : Prop where
  /-- The running thread is on its own stack. -/
  running : ∃ r, h.scheduler.Live r ∧ (h.scheduler.threads.get r).status = .running ∧
    r ≤ h.sp ∧ h.sp < r + blockSize
  /-- The stack pointers of all others are saved and lie in their own blocks. -/
  saved : ∀ b, h.scheduler.Live b → (h.scheduler.threads.get b).status ≠ .running →
    b ≤ (h.scheduler.threads.get b).context.sp ∧
      (h.scheduler.threads.get b).context.sp < b + blockSize
  /-- No thread was created twice. -/
  once : (made.map (·.1)).Nodup
  /-- Every thread in the pool has the registers it was created with, up to the stack pointer. -/
  created : ∀ b ∈ h.scheduler.pool.blocksInUse, ∃ entry arg,
    ((h.scheduler.threads.get b).tid, entry, arg) ∈ made ∧
      (h.scheduler.threads.get b).context =
        .entering trampoline entry arg (h.scheduler.threads.get b).context.sp
  next : ∀ call created h', Kernel h call → call.perform h = .ok created h' →
    Resumes departures h h'

theorem Chronicle.resumes (hc : Chronicle trampoline made departures h r)
    (hallowed : Kernel h call) (hperforms : call.perform h = .ok created h') :
    Resumes departures h h' := by
  have hbase := base_of_containing hc.orderly.here
  rcases Call.hands_over_or_fabricates hc.orderly hallowed hperforms with
    ⟨n, ho', hh, -⟩ | ⟨entry, arg, b, ho', hf, -⟩
  · have hbase' := base_of_containing ho'.here
    constructor
    · rw [hbase', hbase]
      intro hne
      rw [callerTid_of_containing ho'.here, hh.tid, hh.sp, resumedAt, if_neg (Ne.symm hne)]
      exact hc.saved n (hh.live ho'.settled.live) hne
    · rw [hbase', hbase]
      rintro rfl
      rw [hh.sp, resumedAt_self]
    · intro b hlive
      rw [hh.context, hbase', hbase, handedOver]
      simp only [ne_comm]
  · have hbase' := base_of_containing ho'.here
    constructor
    · rw [hbase', hbase]
      exact fun hne => absurd rfl hne
    · exact fun _ => hf.sp
    · intro c hlive
      have hne : c ≠ b := by
        rintro rfl
        exact hf.free hlive
      rw [hbase', hbase, (hf.others c hne).1, if_neg fun hr => hr.2 rfl]

theorem mem_block_of_containing {sp : Nat} (h : Block.containing sp = .ok b) :
    b ≤ sp ∧ sp < b + blockSize :=
  (Block.containing_eq_ok_iff.mp h).2

/-- From boot on every thread goes on where it gave way, on its own stack and with its own
registers, wherever in its block the boot thread was and wherever running threads move their stack
pointers. -/
theorem Trail.own_stacks (hfresh : g.Fresh) (hinit : (init : HostM Unit) g = .ok () g₁)
    (hstart : (start entry : HostM (Except SpawnError Unit)) g₁ = .ok (.ok ()) h₀)
    (htrail : Trail h₀ es departures h) :
    OwnStacks h₀.scheduler.trampoline (fabrications entry es) departures h := by
  obtain ⟨main, hboot⟩ := chronicle_boot hfresh hinit hstart
  obtain ⟨r, hc⟩ := htrail.chronicle hboot
  have hsettled := hc.orderly.settled
  constructor
  · obtain ⟨hlow, hhigh⟩ := mem_block_of_containing hc.orderly.here
    exact ⟨r, hsettled.live, hsettled.here.status, hlow, hhigh⟩
  · intro b hlive hstatus
    have hne : b ≠ r := by
      rintro rfl
      exact hstatus hsettled.here.status
    exact mem_block_of_containing (hsettled.others b hlive hne).stack
  · exact hc.made_nodup
  · exact hc.made_of
  · exact fun call created h' => hc.resumes

/-- The boot thread creates another one. -/
def createdSample : List Event × Host :=
  play Kernel sample [.create "a" 3 threadBody 7]

/-- It calls down its stack. -/
def movedSample : Host :=
  { createdSample.2 with sp := bootStack 3000 }

/-- It gives way there, and the new thread starts. -/
def leftSample : List Event × Host :=
  play Kernel movedSample [.yieldNow]

/-- When the new thread yields, the boot thread goes on where it gave way. -/
theorem own_stacks_sample :
    ∃ g g₁ entry es departures, g.Fresh ∧ (init : HostM Unit) g = .ok () g₁ ∧
      (start entry : HostM (Except SpawnError Unit)) g₁ = .ok (.ok ()) sample ∧
      Trail sample es departures leftSample.2 ∧
      departures.lookup mainTid = some (bootStack 3000) ∧
      OwnStacks sample.scheduler.trampoline (fabrications entry es) departures leftSample.2 ∧
      (play Kernel leftSample.2 [.yieldNow]).2.sp = bootStack 3000 := by
  obtain ⟨g, g₁, entry, hfresh, hinit, hstart⟩ := booted_sample.boot
  obtain ⟨_, hcreates⟩ : ∃ created, (Call.create "a" 3 threadBody 7).perform sample =
      .ok created createdSample.2 := Run.performs_of_play (by decide +kernel)
  obtain ⟨_, hyields⟩ : ∃ created, Call.yieldNow.perform movedSample =
      .ok created leftSample.2 := Run.performs_of_play (by decide +kernel)
  have hmayCreate : Kernel sample (.create "a" 3 threadBody 7) := trivial
  have hmayYield : Kernel movedSample .yieldNow := trivial
  have hcreated := (Trail.nil : Trail sample [] [] sample).call hmayCreate hcreates
  have hmoved : Trail sample _ _ movedSample :=
    hcreated.move (bootStack 3000) (by decide +kernel)
  have htrail := hmoved.call hmayYield hyields
  exact ⟨g, g₁, entry, _, _, hfresh, hinit, hstart, htrail, by decide +kernel,
    Trail.own_stacks hfresh hinit hstart htrail, by decide +kernel⟩

end RoundRobin.Host
