import RoundRobin.Proofs.Queue.WakeOrder
import RoundRobin.Queue.Session

/-!
# Membership of queues

Any number of queues over one set of threads. All of them use the one link that a thread has, and
the tag next to the link is what keeps them apart: a thread is on one queue at most, its tag names
the kind of that queue, and a queue refuses a thread exactly if some queue holds it.
-/

namespace RoundRobin.Queue

/-- A queue without members. The kind of a plain queue can be any but that of a free link. -/
def Discipline.IsNew (d : Discipline) : Prop :=
  (∃ kind, kind ≠ .detached ∧ d = .plain (.new kind)) ∨ d = .sleep {}

/-- A thread came to a queue or left it. Queues are named by position. -/
inductive Movement where
  | enters (i t : Nat)
  | leaves (i t : Nat)

/-- The threads that came to the queue at `i`, in order. -/
def entered (i : Nat) (ms : List Movement) : List Nat :=
  ms.filterMap fun
    | .enters j t => if j = i then some t else none
    | .leaves .. => none

/-- The threads that left the queue at `i`, in order. -/
def departed (i : Nat) (ms : List Movement) : List Nat :=
  ms.filterMap fun
    | .enters .. => none
    | .leaves j t => if j = i then some t else none

/-- Queues in use over the threads in `T`, none of which was on a queue at the start. Nothing has
halted. The threads may change in between, their links and tags apart. -/
inductive Uses (T : Nat → Prop) : List Movement → List Discipline → Memory Thread → Prop
  | start {queues : List Discipline} {threads : Memory Thread}
      (hnew : ∀ d ∈ queues, d.IsNew) (hfree : ∀ t, T t → (threads.get t).Free) :
      Uses T [] queues threads
  | push {ms : List Movement} {queues : List Discipline} {threads threads' : Memory Thread}
      {i t : Nat} {q q' : Queue} (h : Uses T ms queues threads)
      (hi : queues[i]? = some (.plain q)) (ht : T t)
      (hpush : q.push threads t = .ok (q', threads')) :
      Uses T (ms ++ [.enters i t]) (queues.set i (.plain q')) threads'
  | insert {ms : List Movement} {queues : List Discipline} {threads threads' : Memory Thread}
      {i t : Nat} {q q' : SleepQueue} (h : Uses T ms queues threads)
      (hi : queues[i]? = some (.sleep q)) (ht : T t)
      (hinsert : q.insert threads t = .ok (q', threads')) :
      Uses T (ms ++ [.enters i t]) (queues.set i (.sleep q')) threads'
  | pop {ms : List Movement} {queues : List Discipline} {threads threads' : Memory Thread}
      {i : Nat} {q q' : Queue} {head : Option Nat} (h : Uses T ms queues threads)
      (hi : queues[i]? = some (.plain q)) (hpop : q.pop threads = .ok (head, q', threads')) :
      Uses T (ms ++ (head.map (.leaves i)).toList) (queues.set i (.plain q')) threads'
  | popDue {ms : List Movement} {queues : List Discipline} {threads threads' : Memory Thread}
      {i : Nat} {q q' : SleepQueue} {head : Option Nat} (h : Uses T ms queues threads)
      (hi : queues[i]? = some (.sleep q)) (now : Nat)
      (hpop : q.popDue threads now = .ok (head, q', threads')) :
      Uses T (ms ++ (head.map (.leaves i)).toList) (queues.set i (.sleep q')) threads'
  | elsewhere {ms : List Movement} {queues : List Discipline} {threads threads' : Memory Thread}
      (h : Uses T ms queues threads)
      (hsame : ∀ t, T t → (threads'.get t).owner = (threads.get t).owner ∧
        (threads'.get t).linked = (threads.get t).linked) : Uses T ms queues threads'

variable {T : Nat → Prop} {ms : List Movement} {queues : List Discipline}
  {threads threads' : Memory Thread} {d d' : Discipline} {i j t : Nat} {q : Queue}

@[simp] theorem entered_append (ms ms' : List Movement) :
    entered i (ms ++ ms') = entered i ms ++ entered i ms' :=
  List.filterMap_append

@[simp] theorem entered_enters : entered i [.enters j t] = if j = i then [t] else [] := by
  by_cases h : j = i <;> simp [entered, h]

@[simp] theorem entered_leaves : entered i [.leaves j t] = [] :=
  rfl

@[simp] theorem entered_head (head : Option Nat) :
    entered i (head.map (.leaves j)).toList = [] := by
  cases head <;> rfl

@[simp] theorem departed_append (ms ms' : List Movement) :
    departed i (ms ++ ms') = departed i ms ++ departed i ms' :=
  List.filterMap_append

@[simp] theorem departed_enters : departed i [.enters j t] = [] :=
  rfl

@[simp] theorem departed_leaves : departed i [.leaves j t] = if j = i then [t] else [] := by
  by_cases h : j = i <;> simp [departed, h]

@[simp] theorem departed_head (head : Option Nat) :
    departed i (head.map (.leaves j)).toList = if j = i then head.toList else [] := by
  cases head with
  | none => simp [departed]
  | some t => exact departed_leaves

/-- What a queue holds came to it and did not leave. A plain queue holds it in the order of
arrival. -/
def Recorded (i : Nat) (ms : List Movement) : Discipline → Prop
  | .plain q => entered i ms = departed i ms ++ q.members
  | .sleep q => (entered i ms).Perm (departed i ms ++ q.queue.members)

theorem getElem?_set_cases (hj : (queues.set i d')[j]? = some d) :
    (i = j ∧ d = d') ∨ (i ≠ j ∧ queues[j]? = some d) := by
  rw [List.getElem?_set] at hj
  split at hj
  · next heq =>
      split at hj
      · exact Or.inl ⟨heq, (Option.some.inj hj).symm⟩
      · cases hj
  · next hne => exact Or.inr ⟨hne, hj⟩

/-- What happens at one queue is not recorded for another one. -/
theorem Recorded.other {ms' : List Movement} (h : Recorded i ms d) (hentered : entered i ms' = [])
    (hdeparted : departed i ms' = []) : Recorded i (ms ++ ms') d := by
  cases d <;> simpa [Recorded, hentered, hdeparted] using h

theorem Uses.recorded (h : Uses T ms queues threads) (hj : queues[j]? = some d) :
    Recorded j ms d := by
  induction h generalizing d with
  | start hnew hfree =>
      obtain ⟨kind, -, rfl⟩ | rfl := hnew d (List.mem_of_getElem? hj)
      · rfl
      · exact .refl _
  | @push _ _ _ _ i t _ _ _ hi _ hpush ih =>
      obtain ⟨-, rfl, -⟩ := push_eq_ok_iff.mp hpush
      obtain ⟨rfl, rfl⟩ | ⟨hne, hj⟩ := getElem?_set_cases hj
      · have hold : entered i _ = departed i _ ++ _ := ih hi
        simp [Recorded, append, hold]
      · exact (ih hj).other (by simp [hne]) (by simp)
  | @insert _ _ _ _ i t q _ _ hi _ hinsert ih =>
      obtain ⟨w, -, -, rfl, -⟩ := SleepQueue.insert_eq_ok_iff.mp hinsert
      obtain ⟨rfl, rfl⟩ | ⟨hne, hj⟩ := getElem?_set_cases hj
      · have hold : (entered i _).Perm (departed i _ ++ q.queue.members) := ih hi
        simp only [Recorded, entered_append, entered_enters, if_true, departed_append,
          departed_enters, List.append_nil]
        refine (List.perm_append_singleton t _).trans ((hold.cons t).trans ?_)
        exact List.perm_middle.symm.trans ((q.queue.perm_insertBehind _ t).symm.append_left _)
      · exact (ih hj).other (by simp [hne]) (by simp)
  | @pop _ _ _ _ i _ _ _ _ hi hpop ih =>
      obtain ⟨rfl, rfl⟩ | ⟨hne, hj⟩ := getElem?_set_cases hj
      · have hold : entered i _ = departed i _ ++ _ := ih hi
        obtain ⟨-, rfl, rfl, -⟩ | ⟨t, rest, hmembers, rfl, -, rfl, -⟩ := pop_eq_ok_iff.mp hpop
        · simpa [Recorded] using hold
        · simp [Recorded, behead, hold, hmembers]
      · exact (ih hj).other (by simp) (by simp [hne])
  | @popDue _ _ _ _ i q _ _ _ hi now hpop ih =>
      obtain ⟨rfl, rfl⟩ | ⟨hne, hj⟩ := getElem?_set_cases hj
      · have hold : (entered i _).Perm (departed i _ ++ q.queue.members) := ih hi
        obtain ⟨-, rfl, rfl, -⟩ | ⟨t, rest, w, hmembers, -, -, rfl, -, rfl, -⟩ :=
          SleepQueue.popDue_eq_ok_iff.mp hpop
        · simpa [Recorded] using hold
        · simpa [Recorded, behead, hmembers] using hold
      · exact (ih hj).other (by simp) (by simp [hne])
  | elsewhere _ _ ih => exact ih hj

/-- The members of all queues. -/
def queued (queues : List Discipline) : List Nat :=
  queues.flatMap fun d => d.queue.members

theorem mem_queued : t ∈ queued queues ↔ ∃ d ∈ queues, t ∈ d.queue.members :=
  List.mem_flatMap

/-- Replacing a queue exchanges its members. -/
theorem queued_set_perm (d' : Discipline) (hi : queues[i]? = some d) :
    (queued (queues.set i d') ++ d.queue.members).Perm (queued queues ++ d'.queue.members) := by
  induction queues generalizing i with
  | nil => cases hi
  | cons e rest ih =>
      cases i with
      | zero =>
          cases hi
          simp only [queued, List.set_cons_zero, List.flatMap_cons, List.append_assoc]
          calc
            List.Perm (d'.queue.members ++ (queued rest ++ d.queue.members))
                (d'.queue.members ++ (d.queue.members ++ queued rest)) :=
              List.perm_append_comm.append_left _
            List.Perm _ (d.queue.members ++ (d'.queue.members ++ queued rest)) :=
              List.perm_append_comm_assoc _ _ _
            List.Perm _ (d.queue.members ++ (queued rest ++ d'.queue.members)) :=
              List.perm_append_comm.append_left _
      | succ i =>
          simp only [queued, List.set_cons_succ, List.flatMap_cons, List.append_assoc]
          exact (ih hi).append_left _

theorem forall_mem_set {p : Discipline → Prop} (h : ∀ e ∈ queues, p e) (hd' : p d') :
    ∀ e ∈ queues.set i d', p e := by
  intro e he
  rcases List.mem_or_eq_of_mem_set he with he | rfl
  · exact h e he
  · exact hd'

/-- What holds of queues in use. -/
structure Sound (T : Nat → Prop) (queues : List Discipline) (threads : Memory Thread) : Prop where
  kind_ne : ∀ d ∈ queues, d.queue.kind ≠ .detached
  size_eq : ∀ d ∈ queues, d.queue.size = d.queue.members.length
  owner_eq : ∀ d ∈ queues, ∀ t ∈ d.queue.members, (threads.get t).owner = d.queue.kind
  /-- No thread is on a queue twice or on two queues. -/
  nodup : (queued queues).Nodup
  mem_iff : ∀ t, t ∈ queued queues ↔ T t ∧ (threads.get t).owner ≠ .detached
  tidy : ∀ t, T t → (threads.get t).Tidy

namespace Sound

theorem congr (h : Sound T queues threads)
    (hsame : ∀ t, T t → (threads'.get t).owner = (threads.get t).owner ∧
      (threads'.get t).linked = (threads.get t).linked) : Sound T queues threads' where
  kind_ne := h.kind_ne
  size_eq := h.size_eq
  owner_eq d hd t ht :=
    (hsame t ((h.mem_iff t).mp (mem_queued.mpr ⟨d, hd, ht⟩)).1).1.trans (h.owner_eq d hd t ht)
  nodup := h.nodup
  mem_iff t := by
    rw [h.mem_iff]
    exact and_congr_right fun ht => by rw [(hsame t ht).1]
  tidy t ht := by
    rw [Thread.Tidy, (hsame t ht).1, (hsame t ht).2]
    exact h.tidy t ht

/-- A thread that no queue holds comes to the queue at `i`. -/
theorem enter (h : Sound T queues threads) (hi : queues[i]? = some d) (ht : T t)
    (hfree : (threads.get t).Free) (hkind : d'.queue.kind = d.queue.kind)
    (hsize : d'.queue.size = d.queue.size + 1)
    (hmembers : d'.queue.members.Perm (t :: d.queue.members)) :
    Sound T (queues.set i d') (threads.modify t (Thread.claimedBy d.queue.kind)) := by
  have hd : d ∈ queues := List.mem_of_getElem? hi
  have hqueued : (queued (queues.set i d')).Perm (t :: queued queues) := by
    have hperm := (queued_set_perm d' hi).trans (hmembers.append_left _)
    exact (List.perm_append_right_iff _).mp (hperm.trans List.perm_middle)
  have hnew : t ∉ queued queues := fun hmem => ((h.mem_iff t).mp hmem).2 hfree.1
  refine ⟨forall_mem_set h.kind_ne (hkind ▸ h.kind_ne d hd), forall_mem_set h.size_eq ?_,
    forall_mem_set ?_ ?_, ?_, ?_, ?_⟩
  · rw [hsize, h.size_eq d hd, hmembers.length_eq, List.length_cons]
  · intro e he b hb
    rw [Memory.get_modify, if_neg fun heq : t = b => hnew (heq ▸ mem_queued.mpr ⟨e, he, hb⟩)]
    exact h.owner_eq e he b hb
  · intro b hb
    rw [Memory.get_modify, hkind]
    split
    · rfl
    · next hne =>
        have hb := (List.mem_cons.mp (hmembers.mem_iff.mp hb)).resolve_left (Ne.symm hne)
        exact h.owner_eq d hd b hb
  · exact hqueued.nodup_iff.mpr (List.nodup_cons.mpr ⟨hnew, h.nodup⟩)
  · intro b
    rw [hqueued.mem_iff, List.mem_cons, h.mem_iff, Memory.get_modify]
    by_cases hb : t = b
    · subst hb
      simp [ht, Thread.claimedBy, h.kind_ne d hd]
    · simp [hb, Ne.symm hb]
  · intro b hb
    rw [Memory.get_modify]
    split
    · exact Thread.tidy_claimedBy (h.kind_ne d hd) _
    · exact h.tidy b hb

/-- The head of the queue at `i` leaves it. -/
theorem leave (h : Sound T queues threads) (hi : queues[i]? = some d)
    (hkind : d'.queue.kind = d.queue.kind) (hsize : d'.queue.size = d.queue.size - 1)
    (hmembers : d.queue.members = t :: d'.queue.members) :
    Sound T (queues.set i d') (threads.modify t Thread.released) := by
  have hd : d ∈ queues := List.mem_of_getElem? hi
  have hqueued : (queued queues).Perm (t :: queued (queues.set i d')) := by
    have hperm := queued_set_perm d' hi
    rw [hmembers] at hperm
    exact ((List.perm_append_right_iff _).mp (List.perm_middle.symm.trans hperm)).symm
  have hnodup := List.nodup_cons.mp (hqueued.nodup_iff.mp h.nodup)
  have howner : ∀ e ∈ queues.set i d', ∀ b ∈ e.queue.members,
      (threads.get b).owner = e.queue.kind :=
    forall_mem_set h.owner_eq fun b hb =>
      (h.owner_eq d hd b (hmembers ▸ List.mem_cons_of_mem t hb)).trans hkind.symm
  refine ⟨forall_mem_set h.kind_ne (hkind ▸ h.kind_ne d hd), forall_mem_set h.size_eq ?_,
    ?_, hnodup.2, ?_, ?_⟩
  · rw [hsize, h.size_eq d hd, hmembers, List.length_cons, Nat.add_sub_cancel]
  · intro e he b hb
    rw [Memory.get_modify,
      if_neg fun heq : t = b => hnodup.1 (heq ▸ mem_queued.mpr ⟨e, he, hb⟩)]
    exact howner e he b hb
  · intro b
    have hmem := h.mem_iff b
    rw [hqueued.mem_iff, List.mem_cons] at hmem
    rw [Memory.get_modify]
    by_cases hb : t = b
    · subst hb
      simp [hnodup.1, Thread.released]
    · simpa [hb, Ne.symm hb] using hmem
  · intro b hb
    rw [Memory.get_modify]
    split
    · exact Thread.tidy_released _
    · exact h.tidy b hb

theorem start (hnew : ∀ d ∈ queues, d.IsNew) (hfree : ∀ t, T t → (threads.get t).Free) :
    Sound T queues threads := by
  have hempty : ∀ d ∈ queues, d.queue.members = [] ∧ d.queue.size = 0 ∧
      d.queue.kind ≠ .detached := by
    intro d hd
    obtain ⟨kind, hkind, rfl⟩ | rfl := hnew d hd
    · exact ⟨rfl, rfl, hkind⟩
    · exact ⟨rfl, rfl, by decide⟩
  have hnone : queued queues = [] :=
    List.flatMap_eq_nil_iff.mpr fun d hd => (hempty d hd).1
  refine ⟨fun d hd => (hempty d hd).2.2, ?_, ?_, ?_, ?_, ?_⟩
  · intro d hd
    rw [(hempty d hd).1, (hempty d hd).2.1, List.length_nil]
  · intro d hd t ht
    rw [(hempty d hd).1] at ht
    cases ht
  · rw [hnone]
    exact List.nodup_nil
  · intro t
    rw [hnone]
    exact ⟨nofun, fun ht => absurd (hfree t ht.1).1 ht.2⟩
  · intro t ht
    rw [Thread.Tidy, (hfree t ht).1, (hfree t ht).2]
    decide

end Sound

theorem set_getElem? (hi : queues[i]? = some d) : queues.set i d = queues := by
  obtain ⟨hlt, rfl⟩ := List.getElem?_eq_some_iff.mp hi
  exact List.set_getElem_self hlt

theorem Uses.sound (h : Uses T ms queues threads) : Sound T queues threads := by
  induction h with
  | start hnew hfree => exact .start hnew hfree
  | push _ hi ht hpush ih =>
      obtain ⟨hfree, rfl, rfl⟩ := push_eq_ok_iff.mp hpush
      exact ih.enter hi ht hfree rfl rfl (perm_append _ _)
  | insert _ hi ht hinsert ih =>
      obtain ⟨w, -, hfree, rfl, rfl⟩ := SleepQueue.insert_eq_ok_iff.mp hinsert
      exact ih.enter hi ht hfree rfl rfl (perm_insertBehind _ _ _)
  | pop _ hi hpop ih =>
      obtain ⟨-, -, rfl, rfl⟩ | ⟨t, rest, hmembers, -, -, rfl, rfl⟩ := pop_eq_ok_iff.mp hpop
      · rwa [set_getElem? hi]
      · exact ih.leave hi rfl rfl (by simp [Discipline.queue, behead, hmembers])
  | popDue _ hi now hpop ih =>
      obtain ⟨-, -, rfl, rfl⟩ | ⟨t, rest, w, hmembers, -, -, -, -, rfl, rfl⟩ :=
        SleepQueue.popDue_eq_ok_iff.mp hpop
      · rwa [set_getElem? hi]
      · exact ih.leave hi rfl rfl (by simp [Discipline.queue, behead, hmembers])
  | elsewhere _ hsame ih => exact ih.congr hsame

/-- How queues share threads. -/
structure IsExclusive (T : Nat → Prop) (ms : List Movement) (queues : List Discipline)
    (threads : Memory Thread) : Prop where
  /-- No thread is on a queue twice. -/
  nodup : ∀ d ∈ queues, d.queue.members.Nodup
  /-- No thread is on two queues. -/
  apart : ∀ (i j : Nat) (d e : Discipline), queues[i]? = some d → queues[j]? = some e → i ≠ j →
    d.queue.members.Disjoint e.queue.members
  /-- Only threads that were put on a queue are on one. -/
  mem_of_queued : ∀ d ∈ queues, ∀ t ∈ d.queue.members, T t
  /-- The tag of a thread is the kind of the queue that holds it. -/
  owner_eq : ∀ d ∈ queues, ∀ t ∈ d.queue.members, (threads.get t).owner = d.queue.kind
  owner_eq_detached_iff : ∀ t, T t →
    ((threads.get t).owner = .detached ↔ ¬ ∃ d ∈ queues, t ∈ d.queue.members)
  size_eq : ∀ d ∈ queues, d.queue.size = d.queue.members.length
  isEmpty_iff : ∀ d ∈ queues, d.queue.isEmpty = true ↔ d.queue.size = 0
  /-- A queue holds what came and did not leave, and a plain one gives it out as it came. -/
  recorded : ∀ (i : Nat) (d : Discipline), queues[i]? = some d → Recorded i ms d
  /-- A thread is refused exactly if a queue holds it. -/
  push_halts_iff : ∀ q, .plain q ∈ queues → ∀ t, T t →
    ((∃ cause, q.push threads t = .error cause) ↔ ∃ d ∈ queues, t ∈ d.queue.members)
  /-- A thread is refused exactly if a queue holds it or it has no wake tick. -/
  insert_halts_iff : ∀ q, .sleep q ∈ queues → ∀ t, T t →
    ((∃ cause, q.insert threads t = .error cause) ↔
      (∃ d ∈ queues, t ∈ d.queue.members) ∨ (threads.get t).wakeTick = none)
  /-- Popping returns, and what goes is the thread at the front. -/
  pop_ok : ∀ q, .plain q ∈ queues →
    ∃ q' threads', q.pop threads = .ok (q.front, q', threads')
  /-- Popping what is due returns, too. The thread at the front goes if it is due, and otherwise
  nothing changes. -/
  popDue_ok : ∀ q, .sleep q ∈ queues → ∀ now,
    (q.Due threads now →
      ∃ q' threads', q.popDue threads now = .ok (q.queue.front, q', threads')) ∧
    (¬ q.Due threads now → q.popDue threads now = .ok (none, q, threads))

theorem exists_error_iff {α : Type} {x : Except Halt α} :
    (∃ cause, x = .error cause) ↔ ¬ ∃ a, x = .ok a := by
  cases x <;> simp

namespace Sound

theorem mem_of_queued (h : Sound T queues threads) (hd : d ∈ queues) (ht : t ∈ d.queue.members) :
    T t :=
  ((h.mem_iff t).mp (mem_queued.mpr ⟨d, hd, ht⟩)).1

theorem apart (h : Sound T queues threads) {e : Discipline} (hi : queues[i]? = some d)
    (hj : queues[j]? = some e) (hne : i ≠ j) : d.queue.members.Disjoint e.queue.members := by
  obtain ⟨hilt, rfl⟩ := List.getElem?_eq_some_iff.mp hi
  obtain ⟨hjlt, rfl⟩ := List.getElem?_eq_some_iff.mp hj
  have hpair := List.pairwise_iff_getElem.mp (List.nodup_flatMap.mp h.nodup).2
  rcases Nat.lt_or_gt_of_ne hne with hlt | hgt
  · exact hpair i j hilt hjlt hlt
  · exact fun t ht ht' => hpair j i hjlt hilt hgt ht' ht

theorem owner_eq_detached_iff (h : Sound T queues threads) (ht : T t) :
    (threads.get t).owner = .detached ↔ ¬ ∃ d ∈ queues, t ∈ d.queue.members := by
  rw [← mem_queued, h.mem_iff, not_and_not_right]
  exact ⟨fun howner _ => howner, fun howner => howner ht⟩

theorem free_iff (h : Sound T queues threads) (ht : T t) :
    (threads.get t).Free ↔ ¬ ∃ d ∈ queues, t ∈ d.queue.members :=
  Iff.trans ⟨And.left, (h.tidy t ht).free⟩ (h.owner_eq_detached_iff ht)

theorem push_halts_iff (h : Sound T queues threads) (ht : T t) :
    (∃ cause, q.push threads t = .error cause) ↔ ∃ d ∈ queues, t ∈ d.queue.members := by
  rw [exists_error_iff, ← not_iff_not, not_not, ← h.free_iff ht]
  constructor
  · rintro ⟨⟨q', threads'⟩, hpush⟩
    exact (push_eq_ok_iff.mp hpush).1
  · intro hfree
    exact ⟨_, push_eq_ok_iff.mpr ⟨hfree, rfl, rfl⟩⟩

theorem insert_halts_iff {q : SleepQueue} (h : Sound T queues threads) (ht : T t) :
    (∃ cause, q.insert threads t = .error cause) ↔
      (∃ d ∈ queues, t ∈ d.queue.members) ∨ (threads.get t).wakeTick = none := by
  rw [exists_error_iff, ← not_iff_not, not_not, not_or, ← h.free_iff ht]
  constructor
  · rintro ⟨⟨q', threads'⟩, hinsert⟩
    obtain ⟨w, htick, hfree, -⟩ := SleepQueue.insert_eq_ok_iff.mp hinsert
    exact ⟨hfree, by simp [htick]⟩
  · rintro ⟨hfree, htick⟩
    obtain ⟨w, hw⟩ := Option.ne_none_iff_exists'.mp htick
    exact ⟨_, SleepQueue.insert_eq_ok_iff.mpr ⟨w, hw, hfree, rfl, rfl⟩⟩

theorem pop_ok (h : Sound T queues threads) (hq : .plain q ∈ queues) :
    ∃ q' threads', q.pop threads = .ok (q.front, q', threads') := by
  cases hmembers : q.members with
  | nil =>
      exact ⟨_, _, pop_eq_ok_iff.mpr (Or.inl ⟨hmembers, by simp [front, hmembers], rfl, rfl⟩)⟩
  | cons t rest =>
      have howner := h.owner_eq _ hq t (hmembers ▸ List.mem_cons_self)
      exact ⟨_, _, pop_eq_ok_iff.mpr
        (Or.inr ⟨t, rest, hmembers, by simp [front, hmembers], howner, rfl, rfl⟩)⟩

theorem popDue_ok {q : SleepQueue} (h : Sound T queues threads) (hq : .sleep q ∈ queues)
    (now : Nat) :
    (q.Due threads now →
      ∃ q' threads', q.popDue threads now = .ok (q.queue.front, q', threads')) ∧
    (¬ q.Due threads now → q.popDue threads now = .ok (none, q, threads)) := by
  constructor
  · rintro ⟨w, hw, hle⟩
    obtain ⟨t, ht, htick⟩ := Option.bind_eq_some_iff.mp hw
    obtain ⟨rest, hmembers⟩ := List.head?_eq_some_iff.mp ht
    have howner := h.owner_eq _ hq t (hmembers ▸ List.mem_cons_self)
    exact ⟨_, _, SleepQueue.popDue_eq_ok_iff.mpr
      (Or.inr ⟨t, rest, w, hmembers, htick, hle, ht, howner, rfl, rfl⟩)⟩
  · intro hearly
    exact SleepQueue.popDue_eq_ok_iff.mpr (Or.inl ⟨hearly, rfl, rfl, rfl⟩)

end Sound

/-- However queues were used, membership is exclusive and the tags name it. -/
theorem Uses.exclusive (h : Uses T ms queues threads) : IsExclusive T ms queues threads where
  nodup := (List.nodup_flatMap.mp h.sound.nodup).1
  apart i j d e hi hj hne := h.sound.apart hi hj hne
  mem_of_queued d hd t ht := h.sound.mem_of_queued hd ht
  owner_eq := h.sound.owner_eq
  owner_eq_detached_iff t ht := h.sound.owner_eq_detached_iff ht
  size_eq := h.sound.size_eq
  isEmpty_iff d hd := by
    rw [Queue.isEmpty, List.isEmpty_iff, h.sound.size_eq d hd, List.length_eq_zero_iff]
  recorded i d := h.recorded
  push_halts_iff q hq t ht := h.sound.push_halts_iff ht
  insert_halts_iff q hq t ht := h.sound.insert_halts_iff ht
  pop_ok q hq := h.sound.pop_ok hq
  popDue_ok q hq now := h.sound.popDue_ok hq now

/-- Two ready queues and a sleep queue. A thread goes through both ready queues, the second of which
holds another thread already. A third one sleeps: it is left where it is a tick before its own, and
goes at its own. -/
theorem exclusive_sample :
    ∃ queues threads,
      Uses (· ∈ [1, 2, 3])
        [.enters 0 1, .enters 1 2, .enters 2 3, .leaves 0 1, .enters 1 1, .leaves 2 3] queues
        threads ∧
      IsExclusive (· ∈ [1, 2, 3])
        [.enters 0 1, .enters 1 2, .enters 2 3, .leaves 0 1, .enters 1 1, .leaves 2 3] queues
        threads ∧
      (queues.map fun d => d.queue.members) = [[], [2, 1], []] := by
  have hstart : Uses (· ∈ [1, 2, 3]) [] [.plain (.new .ready), .plain (.new .ready), .sleep {}]
      ⟨[(3, { (Zeroed.zeroed : Thread) with wakeTick := some 9 })]⟩ := by
    have hready : (Discipline.plain (.new .ready)).IsNew := Or.inl ⟨.ready, by decide, rfl⟩
    refine .start ?_ ?_
    · simp only [List.mem_cons, List.not_mem_nil, or_false]
      rintro d (rfl | rfl | rfl)
      exacts [hready, hready, Or.inr rfl]
    · simp only [List.mem_cons, List.not_mem_nil, or_false]
      rintro t (rfl | rfl | rfl) <;> exact ⟨rfl, rfl⟩
  have hfirst := hstart.push (i := 0) (t := 1) rfl (by decide)
    (push_eq_ok_iff.mpr ⟨⟨rfl, rfl⟩, rfl, rfl⟩)
  have hsecond := hfirst.push (i := 1) (t := 2) rfl (by decide)
    (push_eq_ok_iff.mpr ⟨⟨rfl, rfl⟩, rfl, rfl⟩)
  have hasleep := hsecond.insert (i := 2) (t := 3) rfl (by decide)
    (SleepQueue.insert_eq_ok_iff.mpr ⟨9, rfl, ⟨rfl, rfl⟩, rfl, rfl⟩)
  have hpopped := hasleep.pop (i := 0) rfl
    (pop_eq_ok_iff.mpr (Or.inr ⟨1, [], rfl, rfl, rfl, rfl, rfl⟩))
  have hagain := hpopped.push (i := 1) (t := 1) rfl (by decide)
    (push_eq_ok_iff.mpr ⟨⟨rfl, rfl⟩, rfl, rfl⟩)
  have hearly := hagain.popDue (i := 2) rfl 8
    (SleepQueue.popDue_eq_ok_iff.mpr (Or.inl
      ⟨fun ⟨_, hwake, hle⟩ => absurd (Option.some.inj hwake ▸ hle) (by decide), rfl, rfl, rfl⟩))
  have hwoken := hearly.popDue (i := 2) rfl 9
    (SleepQueue.popDue_eq_ok_iff.mpr
      (Or.inr ⟨3, [], 9, rfl, rfl, Nat.le_refl 9, rfl, rfl, rfl, rfl⟩))
  exact ⟨_, _, hwoken, Uses.exclusive hwoken, rfl⟩

end RoundRobin.Queue
