import RoundRobin.Proofs.Scheduler.Roster

/-!
# Rotation

A scheduling step takes the first thread off the ready list and begins a new slice. Everything else
leaves both the threads that are ready and the slice as they are, and new ones come last.
-/

namespace RoundRobin

open Scheduler

/-- The action gives up the processor, so it ends in a scheduling step. -/
def Scheduler.Action.schedules : Action → Bool
  | .yield | .block | .sleep _ | .exit => true
  | .count | .unblock _ | .create _ | .wake _ | .interrupt => false

namespace Roster

variable {m m₁ m' : Roster} {idle main now i x : Nat} {stepped : Bool}

/-- What becomes of the threads that are ready: others may join them at the end, and if there is a
scheduling step, the first of all runs, or the idle thread if there is none. -/
def Rotates (idle : Nat) (m : Roster) (stepped : Bool) (m' : Roster) : Prop :=
  ∃ l, m.ready <+: l ∧ m'.ready = (if stepped then l.tail else l) ∧
    (stepped → m'.running = l.head?.getD idle)

theorem Rotates.joined (h : m.ready <+: m'.ready) : m.Rotates idle false m' :=
  ⟨m'.ready, h, rfl, nofun⟩

theorem Rotates.trans (h : m.Rotates idle false m₁) (h' : m₁.Rotates idle stepped m') :
    m.Rotates idle stepped m' := by
  obtain ⟨l₁, hprefix, hready, -⟩ := h
  obtain ⟨l, hprefix', hrest⟩ := h'
  rw [hready] at hprefix'
  exact ⟨l, hprefix.trans hprefix', hrest⟩

theorem rotates_dispatch (h : m.ready <+: m₁.ready) : m.Rotates idle true (m₁.dispatch idle) := by
  refine ⟨m₁.ready, h, ?_⟩
  unfold dispatch
  split
  · next hnil =>
      rw [hnil]
      exact ⟨rfl, fun _ => rfl⟩
  · next hcons =>
      rw [hcons]
      exact ⟨rfl, fun _ => rfl⟩

/-- Every action keeps the order of the threads that are ready. -/
theorem rotates_obey (idle main now : Nat) (m : Roster) (a : Action) :
    m.Rotates idle a.schedules (m.obey idle main now a) := by
  cases a with
  | count => exact .joined List.prefix_rfl
  | unblock | create | wake | interrupt => exact .joined (List.prefix_append _ _)
  | yield =>
      simp only [obey, yield]
      split
      · exact rotates_dispatch List.prefix_rfl
      · exact rotates_dispatch (List.prefix_append _ _)
  | block => exact rotates_dispatch List.prefix_rfl
  | sleep => exact rotates_dispatch List.prefix_rfl
  | exit =>
      have hnext : m.Rotates idle true (m.drain.dispatch idle) :=
        rotates_dispatch List.prefix_rfl
      simp only [obey, exit]
      split
      · exact hnext
      · exact hnext

/-- A thread that is ready moves up by one place with a scheduling step, and the first one runs. -/
theorem Rotates.place (h : m.Rotates idle stepped m') (hx : m.ready[i]? = some x) :
    if stepped then (i = 0 → m'.running = x) ∧ (0 < i → m'.ready[i - 1]? = some x)
    else m'.ready[i]? = some x := by
  obtain ⟨l, hprefix, hready, hruns⟩ := h
  have hl : l[i]? = some x := by
    obtain ⟨rest, rfl⟩ := hprefix
    exact (List.getElem?_append_left (List.getElem?_eq_some_iff.mp hx).1).trans hx
  cases stepped with
  | false => exact (congrArg (fun l => l[i]?) hready).trans hl
  | true =>
      constructor
      · rintro rfl
        rw [hruns rfl, List.head?_eq_getElem?, hl]
        rfl
      · intro hpos
        have htail : m'.ready = l.tail := hready
        rw [htail, List.getElem?_tail, Nat.sub_add_cancel hpos]
        exact hl

end Roster

namespace Scheduler

variable {s s' : Scheduler} {a : Action} {r n sp sp' now : Nat}

theorem Woken.sliceTicks_eq (h : Woken now s s') : s'.sliceTicks = s.sliceTicks := by
  induction h with
  | done => rfl
  | next _ _ _ _ ih => exact ih

theorem Dispatched.sliceTicks_eq (hd : Dispatched s sp r s' sp' n) : s'.sliceTicks = 0 := by
  cases hd with
  | stay => rfl
  | switch =>
      change ((s.elect n).park r).sliceTicks = 0
      unfold park
      split <;> rfl

/-- A scheduling step begins a new slice, and only ticks use it up. -/
theorem Step.sliceTicks_eq (hstep : Step s sp r a s' sp' n) (hcount : a ≠ .count)
    (hinterrupt : a ≠ .interrupt) :
    s'.sliceTicks = if a.schedules then 0 else s.sliceTicks := by
  cases hstep with
  | counted => exact absurd rfl hcount
  | prioritised => exact absurd rfl hcount
  | unblocked => rfl
  | created => rfl
  | departed hdeparts hdispatched =>
      rw [hdispatched.sliceTicks_eq]
      cases hdeparts <;> rfl
  | woke hwoken => exact hwoken.sliceTicks_eq
  | interrupted => exact absurd rfl hinterrupt

end Scheduler

end RoundRobin
