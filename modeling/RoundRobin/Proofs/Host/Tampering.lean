import RoundRobin.Proofs.Host.Refinement
import RoundRobin.Proofs.Host.Shunned

/-!
# A thread with a wrong tag never runs again

Between the calls of a kernel anything may overwrite the integrity tag of a thread. A run can go
on after that, as long as nobody needs the thread: it neither becomes ready nor runs, and if it was
running, it does not get past any operation that looks at who calls.
-/

namespace RoundRobin.Host

open Scheduler

variable {h h' h₀ h₁ : Host} {es es' : List Event} {call : Call} {created : Option Nat}
  {u : Unit} {b c r tag : Nat}

/-- The host after the integrity tag in `b` was overwritten with `tag`. -/
def tampered (h : Host) (b tag : Nat) : Host :=
  h.withScheduler (h.scheduler.alter b fun t => { t with magic := tag })

/-- A run of a kernel in which tags of live threads are overwritten with wrong ones between the
calls. -/
inductive RoughRun (h₀ : Host) : List Event → Host → Prop
  | nil : RoughRun h₀ [] h₀
  | call {es : List Event} {h h' : Host} {call : Call} {created : Option Nat}
      (run : RoughRun h₀ es h) (allowed : Kernel h call)
      (performs : call.perform h = .ok created h') :
      RoughRun h₀ (es ++ [.between h call created h']) h'
  | tamper {es : List Event} {h : Host} {b tag : Nat} (run : RoughRun h₀ es h)
      (live : h.scheduler.Live b) (wrong : tag ≠ Config.threadMagic) :
      RoughRun h₀ es (h.tampered b tag)

theorem RoughRun.append (hrun : RoughRun h₀ es h) (hrest : RoughRun h es' h') :
    RoughRun h₀ (es ++ es') h' := by
  induction hrest with
  | nil => simpa using hrun
  | call _ hallowed hperforms ih =>
      rw [← List.append_assoc]
      exact .call ih hallowed hperforms
  | tamper _ hlive hwrong ih => exact .tamper ih hlive hwrong

theorem Run.rough (hrun : Run Kernel h₀ es h) : RoughRun h₀ es h := by
  induction hrun with
  | nil => exact .nil
  | snoc _ hallowed hperforms ih => exact .call ih hallowed hperforms

/-- The life of a thread whose body is such a run is such a run. -/
theorem RoughRun.runThread {body : HostM Unit} (hrun : RoughRun h₀ es h)
    (hbody : ∀ h₁, body (h.withLevel .on) = .ok () h₁ →
      (∃ es', RoughRun (h.withLevel .on) es' h₁) ∧ Kernel h₁ .retire)
    (hlife : (Scheduler.runThread body : HostM Unit) h = .ok u h') :
    ∃ es', RoughRun h₀ (es ++ es') h' := by
  obtain ⟨h₁, henter, hrunBody, hretire⟩ := Call.performs_of_runThread hlife
  obtain ⟨⟨es', hmiddle⟩, hallowed⟩ := hbody h₁ hrunBody
  have hmasks : Kernel h (.setLevel .on) := trivial
  have hall := ((hrun.call hmasks henter).append hmiddle).call hallowed hretire
  rw [List.append_assoc, List.append_assoc] at hall
  exact ⟨_, hall⟩

/-- The call looks at the tag of the calling thread. -/
def Call.NeedsCaller : Call → Prop
  | yieldNow | block | retire | idlePass | sleepUntil _ | tick | timerInterrupt | setPriority _ =>
    True
  | sleep ticks => ticks ≠ 0
  | msleep ms => wholeTicks ms 1000 ≠ 0
  | usleep us => wholeTicks us 1000000 ≠ 0
  | nsleep ns => wholeTicks ns 1000000000 ≠ 0
  | create .. | unblock _ | wake _ | takeYield | setLevel _ | setInInterrupt _ => False

theorem Guarded.tainted (hg : h.Guarded r) (hwrong : ¬ (h.scheduler.threads.get b).IsValid) :
    h.Tainted r b := by
  refine ⟨hg.here, hwrong, ?_⟩
  intro n hne hn
  have hlive : h.scheduler.Live n := by
    rcases hn with hready | hidle
    · have howner := (hg.custody.linked.ready.mem_iff n).mp hready
      exact hg.custody.housed.owned n (howner.trans_ne (by decide))
    · exact Or.inr (hg.custody.housed.idle n hidle)
  exact base_of_containing (hg.custody.stack n hlive hne)

/-- What the call `call`, made on `h` by the thread in `r`, does with the thread in `b`: nothing. If
it looks at the tag of the calling thread, that is another one, and otherwise the same thread runs
on. -/
structure Call.LeavesAlone (b r : Nat) (h : Host) (call : Call) (h' : Host) : Prop where
  shuns : Shuns b h h'
  other : call.NeedsCaller → b ≠ r
  stays : ¬ call.NeedsCaller → h'.sp = h.sp

theorem Call.LeavesAlone.checked (hneeds : call.NeedsCaller) (hshuns : b ≠ r ∧ Shuns b h h') :
    call.LeavesAlone b r h h' :=
  ⟨hshuns.2, fun _ => hshuns.1, fun hnot => absurd hneeds hnot⟩

theorem Call.LeavesAlone.unchecked (hnot : ¬ call.NeedsCaller)
    (hshuns : Shuns b h h' ∧ h'.sp = h.sp) : call.LeavesAlone b r h h' :=
  ⟨hshuns.1, fun hneeds => absurd hneeds hnot, fun _ => hshuns.2⟩

theorem Tainted.leavesAlone_of_givesUp (ht : h.Tainted r b) (hcall : call.GivesUp)
    (hdead : call = .yieldNow ∨ call = .retire → b ∉ h.scheduler.destruction.members)
    (hrun : call.perform h = .ok created h') : call.LeavesAlone b r h h' := by
  cases call with
  | yieldNow =>
      obtain ⟨-, _, hact⟩ := Call.silently_eq_ok_iff.mp hrun
      exact .checked trivial (shuns_yieldNow ht (hdead (Or.inl rfl)) hact)
  | block =>
      obtain ⟨-, _, hact⟩ := Call.silently_eq_ok_iff.mp hrun
      exact .checked trivial (shuns_block ht hact)
  | retire =>
      obtain ⟨-, _, hact⟩ := Call.silently_eq_ok_iff.mp hrun
      exact .checked trivial (shuns_retire ht (hdead (Or.inr rfl)) hact)
  | idlePass =>
      obtain ⟨-, _, hact⟩ := Call.silently_eq_ok_iff.mp hrun
      exact .checked trivial (shuns_idlePass ht hact)
  | sleepUntil due =>
      obtain ⟨-, _, hact⟩ := Call.silently_eq_ok_iff.mp hrun
      exact .checked trivial (shuns_sleepUntil ht hact)
  | _ => cases hcall

/-- A sleep of no ticks does nothing, not even look at the tag. -/
theorem Tainted.leavesAlone_of_naps (ht : h.Tainted r b) (hcall : call.Naps)
    (hrun : call.perform h = .ok created h') : call.LeavesAlone b r h h' := by
  have hnap : ∀ {u ticks}, (call.NeedsCaller ↔ ticks ≠ 0) →
      (Scheduler.sleep ticks : HostM Unit) h = .ok u h' → call.LeavesAlone b r h h' := by
    intro u ticks hneeds hsleep
    rcases shuns_sleep ht hsleep with ⟨hpos, hshuns⟩ | ⟨hzero, rfl⟩
    · exact .checked (hneeds.mpr hpos) hshuns
    · exact .unchecked (fun hneed => hneeds.mp hneed hzero) ⟨.refl b h', rfl⟩
  cases call with
  | sleep ticks =>
      obtain ⟨-, _, hact⟩ := Call.silently_eq_ok_iff.mp hrun
      exact hnap Iff.rfl hact
  | msleep | usleep | nsleep =>
      obtain ⟨-, _, hact⟩ := Call.silently_eq_ok_iff.mp hrun
      exact hnap Iff.rfl (sleepFor_eq_ok_iff.mp hact).2.2.2
  | _ => cases hcall

/-- A call that returns leaves a thread with a wrong tag alone, if it does not take it back. -/
theorem Guarded.leavesAlone (hg : h.Guarded r) (hwrong : ¬ (h.scheduler.threads.get b).IsValid)
    (hlive : h.scheduler.Live b)
    (hdead : call = .yieldNow ∨ call = .retire → b ∉ h.scheduler.destruction.members)
    (hrun : call.perform h = .ok created h') : call.LeavesAlone b r h h' := by
  have ht := hg.tainted hwrong
  cases call with
  | create name priority entry arg =>
      obtain ⟨_, _, hcreate, hrest⟩ := bind_eq_ok_iff.mp hrun
      obtain ⟨-, rfl⟩ := pure_eq_ok_iff.mp hrest
      exact .unchecked id (shuns_create hg.custody hlive hcreate)
  | yieldNow | block | retire | idlePass | sleepUntil =>
      exact ht.leavesAlone_of_givesUp trivial hdead hrun
  | sleep | msleep | usleep | nsleep => exact ht.leavesAlone_of_naps trivial hrun
  | unblock c =>
      obtain ⟨-, _, hact⟩ := Call.silently_eq_ok_iff.mp hrun
      have hshuns := shuns_unblock hwrong hact
      obtain ⟨-, -, -, rfl⟩ := unblock_eq_ok_iff.mp hact
      exact .unchecked id ⟨hshuns, rfl⟩
  | wake now =>
      obtain ⟨-, _, hact⟩ := Call.silently_eq_ok_iff.mp hrun
      have hsp := (woken_of_wakeDue (Nat.le_refl _) (wake_eq_ok_iff.mp hact)).2
      exact .unchecked id ⟨shuns_wake hwrong hact, hsp⟩
  | tick =>
      obtain ⟨-, _, hact⟩ := Call.silently_eq_ok_iff.mp hrun
      exact .checked trivial (shuns_tick ht hact)
  | timerInterrupt =>
      obtain ⟨-, _, hact⟩ := Call.silently_eq_ok_iff.mp hrun
      exact .checked trivial (shuns_timerInterrupt ht hact)
  | setPriority priority =>
      obtain ⟨-, _, hact⟩ := Call.silently_eq_ok_iff.mp hrun
      exact .checked trivial (shuns_setPriority ht hact)
  | setLevel level =>
      obtain ⟨-, _, hact⟩ := Call.silently_eq_ok_iff.mp hrun
      obtain ⟨-, rfl⟩ := setLevel_eq_ok_iff.mp hact
      exact .unchecked id ⟨shuns_withLevel b h level, rfl⟩
  | takeYield | setInInterrupt =>
      obtain ⟨-, _, hact⟩ := Call.silently_eq_ok_iff.mp hrun
      cases hact
      exact .unchecked id ⟨.of_same rfl rfl rfl rfl, rfl⟩

/-- Between two steps of a rough run: the blocks are in custody, and the idle thread does not wait
to be taken back. -/
structure Rough (h : Host) : Prop where
  guarded : ∃ r, h.Guarded r
  spared : h.scheduler.IdleSpared

theorem Rough.perform (hr : h.Rough) (hallowed : Kernel h call)
    (hrun : call.perform h = .ok created h') : h'.Rough := by
  obtain ⟨⟨r, hg⟩, hspared⟩ := hr
  have hlawful : Lawful h call := by
    cases call with
    | unblock => exact hallowed
    | _ => trivial
  obtain ⟨hg', hsame⟩ := hg.perform hlawful (fun _ => hspared) hrun
  refine ⟨hg', ?_⟩
  intro idle hidle hdead
  rw [hsame.idle] at hidle
  rcases hsame.dead idle hdead with hold | ⟨rfl, rfl⟩
  · exact hspared idle hidle hold
  · exact hallowed idle hg.here hidle

theorem get_tampered (h : Host) (b tag c : Nat) :
    (h.tampered b tag).scheduler.threads.get c =
      if b = c then { h.scheduler.threads.get b with magic := tag }
      else h.scheduler.threads.get c :=
  get_alter h.scheduler b c _

theorem Rough.tamper (hr : h.Rough) (b tag : Nat) : (h.tampered b tag).Rough := by
  obtain ⟨⟨r, hg⟩, hspared⟩ := hr
  have hcustody : (h.tampered b tag).scheduler.Custody r :=
    hg.custody.alter b (fun _ => rfl) (fun _ => rfl) (fun _ => rfl) fun _ => rfl
  have hruns : (h.tampered b tag).scheduler.Runs r := by
    have hsame : ((h.tampered b tag).scheduler.threads.get r).status =
          (h.scheduler.threads.get r).status ∧
        ((h.tampered b tag).scheduler.threads.get r).owner =
          (h.scheduler.threads.get r).owner := by
      rw [get_tampered]
      split
      · next heq =>
          rw [heq]
          exact ⟨rfl, rfl⟩
      · exact ⟨rfl, rfl⟩
    exact hg.runs.congr rfl hsame.1 hsame.2
  exact ⟨⟨r, hcustody, hruns, hg.here⟩, hspared⟩

theorem RoughRun.rough (hstart : h₀.Rough) (hrun : RoughRun h₀ es h) : h.Rough := by
  induction hrun with
  | nil => exact hstart
  | call _ hallowed hperforms ih => exact ih.perform hallowed hperforms
  | tamper _ _ _ ih => exact ih.tamper _ _

theorem Booted.rough (hbooted : h₀.Booted) : h₀.Rough := by
  obtain ⟨main, idle, hafter⟩ := hbooted.after
  refine ⟨⟨main, hafter.orderly.guarded⟩, fun b _ => ?_⟩
  rw [hafter.none_dead]
  exact List.not_mem_nil

/-- A live thread stays live as long as its block does not go back to the pool, and then it was not
among those that a yield or an exit takes back. -/
theorem Rough.keeps (hr : h.Rough) (hallowed : Kernel h call)
    (hrun : call.perform h = .ok created h') (hlive : h.scheduler.Live b)
    (hkept : (h.scheduler.threads.get b).tid ∉ freedBetween h h') :
    h'.scheduler.Live b ∧
      (call = .yieldNow ∨ call = .retire → b ∉ h.scheduler.destruction.members) := by
  obtain ⟨⟨r, hg⟩, -⟩ := hr
  obtain ⟨a, n, hamounts, ht, -⟩ :=
    Call.takes_of_reclaimable hg.custody.reclaimable hg.here hallowed hrun
  have hlive' : h'.scheduler.Live b := by
    refine hlive.imp (fun hmain => (ht.initial_eq hg.custody).trans hmain) fun hb => ?_
    by_contra hfreed
    refine hkept (List.mem_map.mpr ⟨b, List.mem_filter.mpr ⟨hb, ?_⟩, rfl⟩)
    simpa using hfreed
  refine ⟨hlive', fun hcall hdead => ?_⟩
  have hmain : h.scheduler.initial ≠ some b := fun hinitial =>
    hg.custody.housed.notMem_initial hinitial (hg.custody.reclaimable.pooled b hdead)
  rw [← hamounts.yield_iff, ← hamounts.exit_iff] at hcall
  exact ht.not_live_of_dead hcall hmain hdead hlive'

/-- What is known of the thread in `b` after the calls `es`, if its tag was wrong in `h₁`. -/
structure FailStop (b : Nat) (h₁ : Host) (es : List Event) (h : Host) : Prop extends
    PassedOver b h₁ h where
  live : h.scheduler.Live b
  wrong : ¬ (h.scheduler.threads.get b).IsValid
  /-- Its control block is the same but for the tag. In particular nobody made it the running
  thread. -/
  thread : h.scheduler.threads.get b =
    { h₁.scheduler.threads.get b with magic := (h.scheduler.threads.get b).magic }
  /-- If it was running it still is, and no call that looks at the calling thread has returned. -/
  caught : Block.base h₁.sp = b → h.sp = h₁.sp ∧ ∀ e ∈ es, ¬ e.call.NeedsCaller

theorem FailStop.perform (hf : FailStop b h₁ es h) (hr : h.Rough) (hallowed : Kernel h call)
    (hrun : call.perform h = .ok created h')
    (hkept : (h.scheduler.threads.get b).tid ∉ freedBetween h h') :
    FailStop b h₁ (es ++ [.between h call created h']) h' := by
  obtain ⟨hlive, hdead⟩ := hr.keeps hallowed hrun hf.live hkept
  obtain ⟨r, hg⟩ := hr.guarded
  obtain ⟨hshuns, hother, hstays⟩ := hg.leavesAlone hf.wrong hf.live hdead hrun
  have hthread := hshuns.thread
  refine ⟨hf.toPassedOver.trans hshuns.toPassedOver, hlive, ?_, ?_, ?_⟩
  · rw [hthread]
    exact hf.wrong
  · rw [hthread]
    exact hf.thread
  · intro hself
    obtain ⟨hsp, hnone⟩ := hf.caught hself
    have hcaller : b = r := by
      rw [← hself, ← hsp, base_of_containing hg.here]
    have hneeds : ¬ call.NeedsCaller := fun hneeds => hother hneeds hcaller
    refine ⟨(hstays hneeds).trans hsp, ?_⟩
    intro e he
    rcases List.mem_append.mp he with hold | hnew
    · exact hnone e hold
    · rw [List.mem_singleton.mp hnew]
      exact hneeds

theorem FailStop.tamper (hf : FailStop b h₁ es h) (hwrong : tag ≠ Config.threadMagic) (c : Nat) :
    FailStop b h₁ es (h.tampered c tag) := by
  have hsame : PassedOver b h (h.tampered c tag) := .of_same rfl rfl rfl
  refine ⟨hf.toPassedOver.trans hsame, hf.live, ?_, ?_, hf.caught⟩
  · rw [get_tampered]
    split
    · exact hwrong
    · exact hf.wrong
  · rw [get_tampered]
    split
    · next heq =>
        rw [heq, hf.thread]
    · exact hf.thread

/-- In every state that a kernel reaches after boot, whatever tags were overwritten on the way, let
the tag of a live thread be overwritten. As long as its block does not go back to the pool, the
thread neither becomes ready nor runs again, whatever else happens. -/
theorem RoughRun.fail_stop (hbooted : h₀.Booted) (hbefore : RoughRun h₀ es h₁)
    (hlive : h₁.scheduler.Live b) (hwrong : tag ≠ Config.threadMagic)
    (hafter : RoughRun (h₁.tampered b tag) es' h)
    (hkept : (h₁.scheduler.threads.get b).tid ∉ freedTids es') :
    FailStop b (h₁.tampered b tag) es' h := by
  have hr : (h₁.tampered b tag).Rough := (hbefore.rough hbooted.rough).tamper b tag
  have hget : (h₁.tampered b tag).scheduler.threads.get b =
      { h₁.scheduler.threads.get b with magic := tag } := by
    rw [get_tampered, if_pos rfl]
  induction hafter with
  | nil =>
      refine ⟨.of_same rfl rfl rfl, hlive, ?_, ?_, fun _ => ⟨rfl, nofun⟩⟩
      · rw [hget]
        exact hwrong
      · rfl
  | @call es g g' call created hrun hallowed hperforms ih =>
      rw [freedTids_snoc, List.mem_append, not_or] at hkept
      have hf := ih hkept.1
      have htid : (g.scheduler.threads.get b).tid = (h₁.scheduler.threads.get b).tid := by
        rw [hf.thread, hget]
      exact hf.perform (hrun.rough hr) hallowed hperforms (htid ▸ hkept.2)
  | tamper _ _ hbad ih => exact (ih hkept).tamper hbad _

/-- The boot thread is asleep and another one runs. -/
def dozingSample : List Event × Host :=
  play Kernel sample [.create "a" 3 threadBody 7, .sleep 3]

/-- The tag of the boot thread was overwritten, and the others go on. -/
def toleratedSample : List Event × Host :=
  play Kernel (dozingSample.2.tampered 0x100000000 0)
    [.timerInterrupt, .yieldNow, .create "b" 5 threadBody 9, .yieldNow, .timerInterrupt]

/-- Only the tick that has to wake the boot thread halts. -/
theorem fail_stop_sample :
    sample.Booted ∧ RoughRun sample dozingSample.1 dozingSample.2 ∧
      dozingSample.2.scheduler.Live 0x100000000 ∧ 0 ≠ Config.threadMagic ∧
      RoughRun (dozingSample.2.tampered 0x100000000 0) toleratedSample.1 toleratedSample.2 ∧
      toleratedSample.1.length = 5 ∧
      (play Kernel toleratedSample.2 [.timerInterrupt]).1.length = 0 ∧
      FailStop 0x100000000 (dozingSample.2.tampered 0x100000000 0) toleratedSample.1
        toleratedSample.2 := by
  have hbefore : RoughRun sample dozingSample.1 dozingSample.2 := (Run.play _ _).rough
  have hlive : dozingSample.2.scheduler.Live 0x100000000 := by decide +kernel
  have hwrong : 0 ≠ Config.threadMagic := by decide
  have hafter : RoughRun (dozingSample.2.tampered 0x100000000 0) toleratedSample.1
      toleratedSample.2 := (Run.play _ _).rough
  have hkept : (dozingSample.2.scheduler.threads.get 0x100000000).tid ∉
      freedTids toleratedSample.1 := by decide +kernel
  exact ⟨booted_sample, hbefore, hlive, hwrong, hafter, by decide +kernel, by decide +kernel,
    RoughRun.fail_stop booted_sample hbefore hlive hwrong hafter hkept⟩

end RoundRobin.Host
