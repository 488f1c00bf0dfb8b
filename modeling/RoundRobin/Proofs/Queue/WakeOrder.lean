import RoundRobin.Proofs.Queue.Ownership

/-!
# The order of sleepers

What the operations of the sleep queue do when they succeed, and that they keep the sleepers in
the order of their wake ticks.
-/

namespace RoundRobin

theorem SleepQueue.pairwise_insertBehind {α : Type} (f : α → Nat) (t : α) {members : List α}
    (h : members.Pairwise fun a b => f a ≤ f b) :
    (members.takeWhile (fun a => f a ≤ f t) ++ t :: members.dropWhile (fun a => f a ≤ f t)).Pairwise
      fun a b => f a ≤ f b := by
  induction members with
  | nil => simp
  | cons c rest ih =>
      obtain ⟨hc, hrest⟩ := List.pairwise_cons.mp h
      by_cases hct : f c ≤ f t
      · simp only [List.takeWhile_cons, List.dropWhile_cons, hct, decide_true, if_true,
          List.cons_append]
        refine List.pairwise_cons.mpr ⟨?_, ih hrest⟩
        intro b hb
        rcases List.mem_append.mp hb with htake | htail
        · exact hc b (List.takeWhile_sublist _ |>.mem htake)
        · rcases List.mem_cons.mp htail with rfl | hdrop
          · exact hct
          · exact hc b (List.dropWhile_sublist _ |>.mem hdrop)
      · simp only [List.takeWhile_cons, List.dropWhile_cons, hct, decide_false, Bool.false_eq_true,
          if_false, List.nil_append]
        refine List.pairwise_cons.mpr ⟨?_, h⟩
        intro b hb
        rcases List.mem_cons.mp hb with rfl | hb
        · omega
        · exact Nat.le_trans (by omega) (hc b hb)

theorem Thread.staysAhead_eq (w : Nat) (c : Thread) :
    SleepQueue.staysAhead w c = decide (c.wake ≤ w) := by
  cases h : c.wakeTick <;> simp [SleepQueue.staysAhead, Thread.wake, h]

namespace SleepQueue

variable {q q' : SleepQueue} {threads threads' : Memory Thread} {t now : Nat}

/-- The sleepers stand in the order of their wake ticks. -/
def Ascending (q : SleepQueue) (threads : Memory Thread) : Prop :=
  q.queue.members.Pairwise fun a b => (threads.get a).wake ≤ (threads.get b).wake

/-- The head is due at the tick `now`. -/
def Due (q : SleepQueue) (threads : Memory Thread) (now : Nat) : Prop :=
  ∃ w, q.nextWakeup threads = some w ∧ w ≤ now

theorem due_of_cons {rest : List Nat} {w : Nat} (hmembers : q.queue.members = t :: rest)
    (hwake : (threads.get t).wakeTick = some w) (hle : w ≤ now) : q.Due threads now :=
  ⟨w, by simp [nextWakeup, Queue.front, hmembers, hwake], hle⟩

theorem insert_eq_ok_iff :
    q.insert threads t = .ok (q', threads') ↔
      ∃ w, (threads.get t).wakeTick = some w ∧ (threads.get t).Free ∧
        q' = ⟨q.queue.insertBehind (fun m => (threads.get m).wake ≤ w) t⟩ ∧
        threads' = threads.modify t (Thread.claimedBy q.queue.kind) := by
  have hwake : ∀ m, ((threads.modify t (Thread.claimedBy q.queue.kind)).get m).wake =
      (threads.get m).wake := Memory.apply_get_modify Thread.wake rfl
  cases htick : (threads.get t).wakeTick with
  | none => simp [insert, htick]
  | some w =>
      simp only [insert, htick, Queue.insertAfter, Except.bind_eq_ok_iff, Queue.claim_eq_ok_iff,
        Except.pure_eq_ok_iff, Prod.mk.injEq, Thread.staysAhead_eq]
      constructor
      · rintro ⟨_, ⟨_, ⟨hfree, rfl⟩, rfl⟩, rfl, rfl⟩
        refine ⟨w, rfl, hfree, ?_, rfl⟩
        simp only [hwake, Queue.insertBehind]
      · rintro ⟨_, hw, hfree, rfl, rfl⟩
        cases hw
        refine ⟨_, ⟨_, ⟨hfree, rfl⟩, rfl⟩, ?_, rfl⟩
        simp only [hwake, Queue.insertBehind]

theorem popDue_eq_ok_iff {head : Option Nat} :
    q.popDue threads now = .ok (head, q', threads') ↔
      (¬ q.Due threads now ∧ head = none ∧ q' = q ∧ threads' = threads) ∨
      ∃ t rest w, q.queue.members = t :: rest ∧ (threads.get t).wakeTick = some w ∧ w ≤ now ∧
        head = some t ∧ (threads.get t).owner = q.queue.kind ∧ q' = ⟨q.queue.behead⟩ ∧
        threads' = threads.modify t Thread.released := by
  have hdue : (q.nextWakeup threads).any (· ≤ now) = true ↔ q.Due threads now := by
    cases h : q.nextWakeup threads <;> simp [Due, h]
  by_cases h : q.Due threads now
  · rw [popDue, if_pos (hdue.mpr h)]
    obtain ⟨w, hw, hle⟩ := h
    obtain ⟨t, ht, htick⟩ := Option.bind_eq_some_iff.mp hw
    obtain ⟨rest, hmembers⟩ := List.head?_eq_some_iff.mp ht
    simp only [Except.bind_eq_ok_iff, Except.pure_eq_ok_iff, Prod.mk.injEq, Prod.exists,
      Queue.pop_eq_ok_iff, hmembers]
    constructor
    · rintro ⟨_, _, _, ⟨hnil, -⟩ | ⟨_, _, hcons, rfl, howner, rfl, rfl⟩, rfl, rfl, rfl⟩
      · cases hnil
      · cases hcons
        exact Or.inr ⟨t, rest, w, rfl, htick, hle, rfl, howner, rfl, rfl⟩
    · rintro (⟨hnot, -⟩ | ⟨_, _, _, hcons, -, -, rfl, howner, rfl, rfl⟩)
      · exact absurd ⟨w, hw, hle⟩ hnot
      · cases hcons
        exact ⟨_, _, _, Or.inr ⟨t, rest, rfl, rfl, howner, rfl, rfl⟩, rfl, rfl, rfl⟩
  · rw [popDue, if_neg (fun hany => h (hdue.mp hany)), Except.pure_eq_ok_iff]
    simp only [Prod.mk.injEq, h, not_false_eq_true, true_and]
    constructor
    · exact Or.inl
    · rintro (hsame | ⟨t, rest, w, hmembers, htick, hle, -⟩)
      · exact hsame
      · exact absurd (due_of_cons hmembers htick hle) h

theorem Ascending.congr (h : q.Ascending threads)
    (hsame : ∀ m ∈ q.queue.members, (threads'.get m).wake = (threads.get m).wake) :
    q.Ascending threads' :=
  List.Pairwise.imp_of_mem (fun ha hb hle => by rwa [hsame _ ha, hsame _ hb]) h

theorem Ascending.modify (h : q.Ascending threads) {f : Thread → Thread}
    (hf : (f (threads.get t)).wake = (threads.get t).wake) : q.Ascending (threads.modify t f) :=
  h.congr fun m _ => Memory.apply_get_modify Thread.wake hf m

theorem Ascending.behead (h : q.Ascending threads) :
    Ascending ⟨q.queue.behead⟩ threads :=
  h.sublist (List.tail_sublist _)

theorem Ascending.insertBehind (h : q.Ascending threads) :
    Ascending ⟨q.queue.insertBehind (fun m => (threads.get m).wake ≤ (threads.get t).wake) t⟩
      threads :=
  pairwise_insertBehind (fun m => (threads.get m).wake) t h

end SleepQueue

end RoundRobin
