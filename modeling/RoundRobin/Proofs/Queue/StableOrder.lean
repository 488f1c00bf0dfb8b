import RoundRobin.Proofs.Queue.WakeOrder

/-!
# Stable order of sleepers

A sleep queue in use holds its threads in the order of a stable sort: by wake tick, and by insertion
where the ticks are equal. Threads that leave, and threads that join later at an equal tick, keep it
so. Popping at one tick until nothing more is due therefore returns the due threads in that order.
-/

namespace RoundRobin.SleepQueue

section SortedByKey

variable {α : Type} {f : α → Nat} {l l' w : List α} {t : α}

/-- A list sorted by a key is settled by the entries of each key, so a stable sort is the one sorted
list that has the entries of each key in the given order. -/
theorem eq_of_filter_eq (h : l.Pairwise fun a b => f a ≤ f b)
    (h' : l'.Pairwise fun a b => f a ≤ f b)
    (heq : ∀ k, l.filter (f · = k) = l'.filter (f · = k)) : l = l' := by
  induction l generalizing l' with
  | nil =>
      cases l' with
      | nil => rfl
      | cons b rest' => simpa using heq (f b)
  | cons a rest ih =>
      obtain ⟨ha, hrest⟩ := List.pairwise_cons.mp h
      cases l' with
      | nil => simpa using heq (f a)
      | cons b rest' =>
          obtain ⟨hb, hrest'⟩ := List.pairwise_cons.mp h'
          have ha_mem : a ∈ b :: rest' := by
            have : a ∈ (b :: rest').filter (f · = f a) := by
              rw [← heq]
              simp
            exact (List.mem_filter.mp this).1
          have hb_mem : b ∈ a :: rest := by
            have : b ∈ (a :: rest).filter (f · = f b) := by
              rw [heq]
              simp
            exact (List.mem_filter.mp this).1
          have hkey : f a = f b := by
            apply Nat.le_antisymm
            · rcases List.mem_cons.mp hb_mem with rfl | hb_mem
              · exact Nat.le_refl _
              · exact ha b hb_mem
            · rcases List.mem_cons.mp ha_mem with rfl | ha_mem
              · exact Nat.le_refl _
              · exact hb a ha_mem
          have hhead := heq (f a)
          simp only [List.filter_cons, hkey, decide_true, if_true, List.cons.injEq] at hhead
          obtain rfl := hhead.1
          rw [ih hrest hrest']
          intro k
          have hk := heq k
          simp only [List.filter_cons] at hk
          split at hk
          · exact (List.cons.inj hk).2
          · exact hk

theorem key_le_trans (f : α → Nat) (a b c : α) (hab : decide (f a ≤ f b) = true)
    (hbc : decide (f b ≤ f c) = true) : decide (f a ≤ f c) = true := by
  simp only [decide_eq_true_eq] at *
  omega

theorem key_le_total (f : α → Nat) (a b : α) :
    (decide (f a ≤ f b) || decide (f b ≤ f a)) = true := by
  simp only [Bool.or_eq_true, decide_eq_true_eq]
  omega

theorem pairwise_mergeSort_key :
    (w.mergeSort fun a b => f a ≤ f b).Pairwise fun a b => f a ≤ f b := by
  have h := List.pairwise_mergeSort (key_le_trans f) (key_le_total f) w
  simpa only [decide_eq_true_eq] using h

theorem filter_key_mergeSort (k : Nat) :
    (w.mergeSort fun a b => f a ≤ f b).filter (f · = k) = w.filter (f · = k) := by
  have hsame : (w.filter (f · = k)).Pairwise fun a b => decide (f a ≤ f b) = true := by
    apply List.pairwise_of_forall_mem_list
    intro a ha b hb
    simp only [List.mem_filter, decide_eq_true_eq] at ha hb ⊢
    omega
  have hsub : (w.filter (f · = k)).Sublist (w.mergeSort fun a b => f a ≤ f b) :=
    List.sublist_mergeSort (key_le_trans f) (key_le_total f) hsame List.filter_sublist
  have hsub' := hsub.filter (f · = k)
  rw [List.filter_filter] at hsub'
  simp only [Bool.and_self] at hsub'
  exact (hsub'.eq_of_length
    ((List.mergeSort_perm w _).filter _).length_eq.symm).symm

/-- The stable sort of a list is the one sorted list with the same entries of each key. -/
theorem eq_mergeSort_iff :
    l = (w.mergeSort fun a b => f a ≤ f b) ↔
      (l.Pairwise fun a b => f a ≤ f b) ∧ ∀ k, l.filter (f · = k) = w.filter (f · = k) := by
  constructor
  · rintro rfl
    exact ⟨pairwise_mergeSort_key, filter_key_mergeSort⟩
  · rintro ⟨hsorted, hfilter⟩
    apply eq_of_filter_eq hsorted pairwise_mergeSort_key
    intro k
    rw [hfilter, filter_key_mergeSort]

theorem filter_mergeSort (p : α → Bool) :
    (w.mergeSort fun a b => f a ≤ f b).filter p =
      (w.filter p).mergeSort fun a b => f a ≤ f b := by
  rw [eq_mergeSort_iff]
  refine ⟨pairwise_mergeSort_key.filter p, fun k => ?_⟩
  rw [List.filter_comm, filter_key_mergeSort, List.filter_comm]

theorem filter_key_insertBehind (h : l.Pairwise fun a b => f a ≤ f b) (k : Nat) :
    (l.takeWhile (fun a => f a ≤ f t) ++ t :: l.dropWhile (fun a => f a ≤ f t)).filter (f · = k) =
      (l ++ [t]).filter (f · = k) := by
  induction l with
  | nil => rfl
  | cons c rest ih =>
      obtain ⟨hc, hrest⟩ := List.pairwise_cons.mp h
      by_cases hct : f c ≤ f t
      · simp only [List.takeWhile_cons, List.dropWhile_cons, hct, decide_true, if_true,
          List.cons_append, List.filter_cons (x := c), ih hrest]
      · -- Nobody from `c` on has the key of `t`, so it does not matter where `t` stands.
        simp only [List.takeWhile_cons, List.dropWhile_cons, hct, decide_false, Bool.false_eq_true,
          if_false, List.nil_append]
        rw [List.filter_append, List.filter_cons (x := t), List.filter_singleton]
        by_cases hk : f t = k
        · have hnone : (c :: rest).filter (f · = k) = [] := by
            rw [List.filter_eq_nil_iff]
            intro b hb
            rcases List.mem_cons.mp hb with rfl | hb
            · simp only [decide_eq_true_eq]
              omega
            · have := hc b hb
              simp only [decide_eq_true_eq]
              omega
          simp [hk, hnone]
        · simp [hk]

/-- An entry put behind all that stay ahead of it comes last among those of its key. -/
theorem insertBehind_mergeSort :
    ((w.mergeSort fun a b => f a ≤ f b).takeWhile (fun a => f a ≤ f t) ++
        t :: (w.mergeSort fun a b => f a ≤ f b).dropWhile (fun a => f a ≤ f t)) =
      (w ++ [t]).mergeSort fun a b => f a ≤ f b := by
  rw [eq_mergeSort_iff]
  refine ⟨pairwise_insertBehind f t pairwise_mergeSort_key, fun k => ?_⟩
  rw [filter_key_insertBehind pairwise_mergeSort_key, List.filter_append, filter_key_mergeSort,
    List.filter_append]

end SortedByKey

/-- The threads by wake tick, those of one tick as they are listed. -/
def byWake (threads : Memory Thread) (waiting : List Nat) : List Nat :=
  waiting.mergeSort fun a b => (threads.get a).wake ≤ (threads.get b).wake

/-- A sleep queue in use. The threads in `waiting` were inserted and are not popped yet, and they
are listed in the order of insertion. Any thread that does not wait may change in between. -/
inductive Serves : List Nat → SleepQueue → Memory Thread → Prop
  /-- A new queue. -/
  | new (threads : Memory Thread) : Serves [] {} threads
  /-- A thread was inserted. -/
  | insert {waiting : List Nat} {q q' : SleepQueue} {threads threads' : Memory Thread}
      (h : Serves waiting q threads) (t : Nat)
      (hinsert : q.insert threads t = .ok (q', threads')) : Serves (waiting ++ [t]) q' threads'
  /-- A thread was due and is popped. -/
  | pop {waiting : List Nat} {q q' : SleepQueue} {threads threads' : Memory Thread} {t : Nat}
      (h : Serves waiting q threads) (now : Nat)
      (hpop : q.popDue threads now = .ok (some t, q', threads')) :
      Serves (waiting.erase t) q' threads'
  /-- Nobody was due. -/
  | rest {waiting : List Nat} {q q' : SleepQueue} {threads threads' : Memory Thread}
      (h : Serves waiting q threads) (now : Nat)
      (hpop : q.popDue threads now = .ok (none, q', threads')) : Serves waiting q' threads'
  /-- Threads changed, but neither the tag nor the wake tick of one that waits. -/
  | elsewhere {waiting : List Nat} {q : SleepQueue} {threads threads' : Memory Thread}
      (h : Serves waiting q threads)
      (hsame : ∀ t ∈ waiting, (threads'.get t).owner = (threads.get t).owner ∧
        (threads'.get t).wakeTick = (threads.get t).wakeTick) : Serves waiting q threads'

/-- Popping at the tick `now` until nothing is returned returns the threads `ts` in turn. -/
inductive Drains (now : Nat) :
    SleepQueue → Memory Thread → List Nat → SleepQueue → Memory Thread → Prop
  | stop {q q' : SleepQueue} {threads threads' : Memory Thread}
      (hpop : q.popDue threads now = .ok (none, q', threads')) :
      Drains now q threads [] q' threads'
  | next {q q' q'' : SleepQueue} {threads threads' threads'' : Memory Thread} {t : Nat}
      {ts : List Nat} (hpop : q.popDue threads now = .ok (some t, q', threads'))
      (h : Drains now q' threads' ts q'' threads'') : Drains now q threads (t :: ts) q'' threads''

variable {q q' q'' : SleepQueue} {threads threads' threads'' : Memory Thread} {t now : Nat}
  {waiting ts : List Nat}

@[simp] theorem byWake_nil : byWake threads [] = [] :=
  List.mergeSort_nil

theorem byWake_perm : (byWake threads waiting).Perm waiting :=
  List.mergeSort_perm _ _

@[simp] theorem mem_byWake : t ∈ byWake threads waiting ↔ t ∈ waiting :=
  byWake_perm.mem_iff

theorem pairwise_byWake :
    (byWake threads waiting).Pairwise fun a b => (threads.get a).wake ≤ (threads.get b).wake :=
  pairwise_mergeSort_key

theorem filter_byWake (p : Nat → Bool) :
    (byWake threads waiting).filter p = byWake threads (waiting.filter p) :=
  filter_mergeSort p

theorem byWake_congr
    (hsame : ∀ t ∈ waiting, (threads'.get t).wake = (threads.get t).wake) :
    byWake threads' waiting = byWake threads waiting := by
  refine eq_mergeSort_iff.mpr ⟨pairwise_byWake.imp_of_mem ?_, fun k => ?_⟩
  · intro a b ha hb hle
    rwa [hsame a (mem_byWake.mp ha), hsame b (mem_byWake.mp hb)] at hle
  · have hkey : ∀ l : List Nat, (∀ t ∈ l, t ∈ waiting) →
        l.filter (fun t => (threads.get t).wake = k) =
          l.filter fun t => (threads'.get t).wake = k :=
      fun l hl => List.filter_congr fun t ht => by rw [hsame t (hl t ht)]
    rw [hkey _ fun t => mem_byWake.mp, hkey waiting fun _ => id]
    exact filter_key_mergeSort k

/-- What holds of a queue in use: it lists the waiting threads by wake tick, each once, and all of
them have its tag and a tick. -/
structure Holds (q : SleepQueue) (waiting : List Nat) (threads : Memory Thread) : Prop where
  kind_eq : q.queue.kind = .sleep
  members_eq : q.queue.members = byWake threads waiting
  nodup : waiting.Nodup
  owner_eq : ∀ t ∈ waiting, (threads.get t).owner = .sleep
  wakeTick_eq : ∀ t ∈ waiting, (threads.get t).wakeTick = some (threads.get t).wake

theorem wake_eq_of_wakeTick_eq {c c' : Thread} (h : c'.wakeTick = c.wakeTick) :
    c'.wake = c.wake := by
  rw [Thread.wake, Thread.wake, h]

namespace Holds

theorem new (threads : Memory Thread) : Holds {} [] threads where
  kind_eq := rfl
  members_eq := byWake_nil.symm
  nodup := List.nodup_nil
  owner_eq := nofun
  wakeTick_eq := nofun

theorem congr (h : q.Holds waiting threads)
    (hsame : ∀ t ∈ waiting, (threads'.get t).owner = (threads.get t).owner ∧
      (threads'.get t).wakeTick = (threads.get t).wakeTick) : q.Holds waiting threads' := by
  have hwake : ∀ t ∈ waiting, (threads'.get t).wake = (threads.get t).wake :=
    fun t ht => wake_eq_of_wakeTick_eq (hsame t ht).2
  exact {
    kind_eq := h.kind_eq
    members_eq := h.members_eq.trans (byWake_congr hwake).symm
    nodup := h.nodup
    owner_eq := fun t ht => (hsame t ht).1.trans (h.owner_eq t ht)
    wakeTick_eq := fun t ht => by rw [(hsame t ht).2, hwake t ht, h.wakeTick_eq t ht] }

theorem insert (h : q.Holds waiting threads) (hinsert : q.insert threads t = .ok (q', threads')) :
    q'.Holds (waiting ++ [t]) threads' := by
  obtain ⟨w, htick, hfree, rfl, rfl⟩ := insert_eq_ok_iff.mp hinsert
  have hw : (threads.get t).wake = w := by rw [Thread.wake, htick]; rfl
  have hnew : t ∉ waiting := by
    intro hmem
    have howner := h.owner_eq t hmem
    rw [hfree.1] at howner
    cases howner
  have htick' : ∀ b, ((threads.modify t (Thread.claimedBy q.queue.kind)).get b).wakeTick =
      (threads.get b).wakeTick := Memory.apply_get_modify Thread.wakeTick rfl
  have hwake : ∀ b, ((threads.modify t (Thread.claimedBy q.queue.kind)).get b).wake =
      (threads.get b).wake := fun b => wake_eq_of_wakeTick_eq (htick' b)
  refine ⟨h.kind_eq, ?_, ?_, ?_, ?_⟩
  · rw [byWake_congr fun b _ => hwake b]
    simp only [Queue.insertBehind, h.members_eq, ← hw]
    exact insertBehind_mergeSort
  · exact List.nodup_append.mpr ⟨h.nodup, List.nodup_singleton t, fun b hb c hc heq =>
      hnew (List.mem_singleton.mp hc ▸ heq ▸ hb)⟩
  · intro b hb
    rw [Memory.get_modify]
    split
    · exact h.kind_eq
    · next hne =>
        exact h.owner_eq b (by simpa [Ne.symm hne] using hb)
  · intro b hb
    rw [htick', hwake]
    by_cases hne : b = t
    · rw [hne, htick, hw]
    · exact h.wakeTick_eq b (by simpa [hne] using hb)

/-- The head is the first thread of the order. It goes if it is due. -/
theorem popDue_of_due {rest : List Nat} (h : q.Holds waiting threads)
    (horder : byWake threads waiting = t :: rest) (hdue : (threads.get t).wake ≤ now) :
    q.popDue threads now = .ok (some t, ⟨q.queue.behead⟩, threads.modify t Thread.released) := by
  have hmem : t ∈ waiting := mem_byWake.mp (horder ▸ List.mem_cons_self)
  exact popDue_eq_ok_iff.mpr (Or.inr ⟨t, rest, _, h.members_eq.trans horder, h.wakeTick_eq t hmem,
    hdue, rfl, (h.owner_eq t hmem).trans h.kind_eq.symm, rfl, rfl⟩)

/-- If nobody waits or the first thread of the order is not due, nothing happens. -/
theorem popDue_of_later (h : q.Holds waiting threads)
    (hlater : ∀ t ∈ (byWake threads waiting).head?, now < (threads.get t).wake) :
    q.popDue threads now = .ok (none, q, threads) := by
  refine popDue_eq_ok_iff.mpr (Or.inl ⟨?_, rfl, rfl, rfl⟩)
  rintro ⟨w, hw, hle⟩
  obtain ⟨t, ht, htick⟩ := Option.bind_eq_some_iff.mp hw
  rw [Queue.front, h.members_eq] at ht
  have := hlater t ht
  rw [Thread.wake, htick, Option.getD_some] at this
  omega

theorem pop (h : q.Holds waiting threads)
    (hpop : q.popDue threads now = .ok (some t, q', threads')) :
    q'.Holds (waiting.erase t) threads' := by
  obtain ⟨-, hnone, -⟩ | ⟨_, rest, w, hmembers, -, -, hsome, -, rfl, rfl⟩ :=
    popDue_eq_ok_iff.mp hpop
  · cases hnone
  cases hsome
  have hnodup := h.nodup
  have hrest : ∀ b ∈ waiting.erase t,
      (threads.modify t Thread.released).get b = threads.get b := by
    intro b hb
    rw [Memory.get_modify, if_neg (Ne.symm (hnodup.mem_erase_iff.mp hb).1)]
  have horder : byWake threads waiting = t :: rest := h.members_eq.symm.trans hmembers
  have hfirst : t ∉ rest :=
    (List.nodup_cons.mp (horder ▸ byWake_perm.nodup_iff.mpr hnodup)).1
  suffices hkept : SleepQueue.Holds ⟨q.queue.behead⟩ (waiting.erase t) threads by
    refine hkept.congr fun b hb => ?_
    rw [hrest b hb]
    exact ⟨rfl, rfl⟩
  refine ⟨h.kind_eq, ?_, hnodup.erase t, fun b hb => h.owner_eq b (List.mem_of_mem_erase hb),
    fun b hb => h.wakeTick_eq b (List.mem_of_mem_erase hb)⟩
  rw [hnodup.erase_eq_filter, ← filter_byWake, horder]
  simp only [Queue.behead, hmembers, List.tail_cons]
  rw [List.filter_cons_of_neg (by simp)]
  exact (List.filter_eq_self.mpr fun b hb => by
    simpa using fun heq : b = t => hfirst (heq ▸ hb)).symm

end Holds

theorem Serves.holds (h : Serves waiting q threads) : q.Holds waiting threads := by
  induction h with
  | new threads => exact .new threads
  | insert _ t hinsert ih => exact ih.insert hinsert
  | pop _ now hpop ih => exact ih.pop hpop
  | rest _ now hpop ih =>
      obtain ⟨-, -, rfl, rfl⟩ | ⟨_, _, _, -, -, -, hsome, -⟩ := popDue_eq_ok_iff.mp hpop
      · exact ih
      · cases hsome
  | elsewhere _ hsame ih => exact ih.congr hsame

theorem Drains.unique {q₁ q₂ : SleepQueue} {threads₁ threads₂ : Memory Thread} {ts₁ ts₂ : List Nat}
    (h₁ : Drains now q threads ts₁ q₁ threads₁) (h₂ : Drains now q threads ts₂ q₂ threads₂) :
    ts₁ = ts₂ ∧ q₁ = q₂ ∧ threads₁ = threads₂ := by
  induction h₁ generalizing ts₂ with
  | stop hpop₁ =>
      cases h₂ with
      | stop hpop₂ =>
          cases hpop₁.symm.trans hpop₂
          exact ⟨rfl, rfl, rfl⟩
      | next hpop₂ _ => cases hpop₁.symm.trans hpop₂
  | next hpop₁ _ ih =>
      cases h₂ with
      | stop hpop₂ => cases hpop₁.symm.trans hpop₂
      | next hpop₂ hrest =>
          cases hpop₁.symm.trans hpop₂
          obtain ⟨rfl, rfl, rfl⟩ := ih hrest
          exact ⟨rfl, rfl, rfl⟩

/-- Draining at the tick `now` takes the threads that are due by then, in order, and leaves the
others waiting. -/
theorem Serves.drains (h : Serves waiting q threads) (now : Nat) :
    ∃ q' threads',
      Drains now q threads (byWake threads (waiting.filter fun t => (threads.get t).wake ≤ now))
        q' threads' ∧
      Serves (waiting.filter fun t => now < (threads.get t).wake) q' threads' ∧
      ∀ b, (threads'.get b).wakeTick = (threads.get b).wakeTick := by
  -- By induction on the threads from head to tail; a round takes the first one.
  generalize horder : byWake threads waiting = order
  induction order generalizing waiting q threads with
  | nil =>
      have hnil : waiting = [] := by
        have hperm : (byWake threads waiting).Perm waiting := byWake_perm
        rw [horder] at hperm
        exact hperm.nil_eq.symm
      have hstop : q.popDue threads now = .ok (none, q, threads) :=
        h.holds.popDue_of_later (by simp [horder])
      subst hnil
      refine ⟨q, threads, ?_, h, fun _ => rfl⟩
      rw [List.filter_nil, horder]
      exact .stop hstop
  | cons t rest ih =>
      by_cases hdue : (threads.get t).wake ≤ now
      · have hpop := h.holds.popDue_of_due horder hdue
        have htick : ∀ b, ((threads.modify t Thread.released).get b).wakeTick =
            (threads.get b).wakeTick := Memory.apply_get_modify Thread.wakeTick rfl
        have hwake : ∀ b, ((threads.modify t Thread.released).get b).wake = (threads.get b).wake :=
          fun b => wake_eq_of_wakeTick_eq (htick b)
        have hrest : byWake (threads.modify t Thread.released) (waiting.erase t) = rest := by
          rw [← (h.pop now hpop).holds.members_eq, Queue.behead, h.holds.members_eq, horder,
            List.tail_cons]
        obtain ⟨q', threads', hdrains, hserves, htick'⟩ := ih (h.pop now hpop) hrest
        rw [← filter_byWake, hrest] at hdrains
        simp only [hwake] at hdrains hserves
        refine ⟨q', threads', ?_, ?_, fun b => (htick' b).trans (htick b)⟩
        · rw [← filter_byWake, horder, List.filter_cons_of_pos (by simpa using hdue)]
          exact .next hpop hdrains
        · rwa [← List.erase_filter, List.erase_of_not_mem (by simp [hdue])] at hserves
      · -- The first thread is not due, and no other one is due before it.
        have hlater : ∀ b ∈ waiting, now < (threads.get b).wake := by
          intro b hb
          have hsorted : (t :: rest).Pairwise fun a b =>
            (threads.get a).wake ≤ (threads.get b).wake := horder ▸ pairwise_byWake
          rcases List.mem_cons.mp (horder ▸ mem_byWake.mpr hb) with rfl | hb
          · omega
          · have := (List.pairwise_cons.mp hsorted).1 b hb
            omega
        have hstop : q.popDue threads now = .ok (none, q, threads) :=
          h.holds.popDue_of_later (by simpa [horder] using hdue)
        refine ⟨q, threads, ?_, ?_, fun _ => rfl⟩
        · rw [List.filter_eq_nil_iff.mpr fun b hb => by simpa using hlater b hb, byWake_nil]
          exact .stop hstop
        · rwa [List.filter_eq_self.mpr fun b hb => by simpa using hlater b hb]

/-- A queue in use is a stable priority queue of the threads that wait. -/
structure IsStable (waiting : List Nat) (q : SleepQueue) (threads : Memory Thread) : Prop where
  /-- From head to tail the queue is the stable sort of the threads that wait. -/
  members_eq : q.queue.members = byWake threads waiting
  /-- Each thread waits once. -/
  nodup : waiting.Nodup
  wakeTick_eq : ∀ t ∈ waiting, (threads.get t).wakeTick = some (threads.get t).wake
  /-- The next tick is the least one. -/
  nextWakeup_eq : q.nextWakeup threads = (waiting.map fun t => (threads.get t).wake).min?
  nextWakeup_eq_none : q.nextWakeup threads = none ↔ q.queue.members = []
  /-- A thread on no queue that has a wake tick is accepted. -/
  insert_ok : ∀ t, (threads.get t).Free → (threads.get t).wakeTick ≠ none →
    ∃ q' threads', q.insert threads t = .ok (q', threads')
  /-- The first thread of the order goes if it is due, and the rest stays as it is. -/
  popDue_of_due : ∀ t rest now, byWake threads waiting = t :: rest → (threads.get t).wake ≤ now →
    q.popDue threads now = .ok (some t, ⟨q.queue.behead⟩, threads.modify t Thread.released) ∧
      q.queue.behead.members = rest
  /-- If nobody waits or the first thread is not due, nobody goes and nothing changes. -/
  popDue_of_later : ∀ now, (∀ t ∈ (byWake threads waiting).head?, now < (threads.get t).wake) →
    q.popDue threads now = .ok (none, q, threads)
  /-- Draining returns the due threads in order and stops at the first one that is not due. -/
  drains : ∀ now, ∃ q' threads',
    (∀ ts q'' threads'', Drains now q threads ts q'' threads'' ↔
      ts = byWake threads (waiting.filter fun t => (threads.get t).wake ≤ now) ∧
        q'' = q' ∧ threads'' = threads') ∧
    Serves (waiting.filter fun t => now < (threads.get t).wake) q' threads' ∧
    q'.queue.members = byWake threads (waiting.filter fun t => now < (threads.get t).wake)

/-- The earliest thread has the least wake tick. -/
theorem Holds.nextWakeup_eq (h : q.Holds waiting threads) :
    q.nextWakeup threads = (waiting.map fun t => (threads.get t).wake).min? := by
  have hperm : (byWake threads waiting).Perm waiting := byWake_perm
  have hsorted : (byWake threads waiting).Pairwise fun a b =>
    (threads.get a).wake ≤ (threads.get b).wake := pairwise_byWake
  rw [nextWakeup, Queue.front, h.members_eq]
  cases horder : byWake threads waiting with
  | nil =>
      rw [horder] at hperm
      rw [← hperm.nil_eq]
      rfl
  | cons t rest =>
      rw [horder] at hperm hsorted
      have hmem : t ∈ waiting := hperm.mem_iff.mp List.mem_cons_self
      rw [List.head?_cons, Option.bind_some, h.wakeTick_eq t hmem, eq_comm,
        List.min?_eq_some_iff]
      refine ⟨List.mem_map_of_mem hmem, ?_⟩
      intro k hk
      obtain ⟨b, hb, rfl⟩ := List.mem_map.mp hk
      rcases List.mem_cons.mp (hperm.mem_iff.mpr hb) with rfl | hb
      · exact Nat.le_refl _
      · exact (List.pairwise_cons.mp hsorted).1 b hb

/-- However a sleep queue was used, it is the stable sort by wake tick of the threads that were
inserted and are not popped yet. -/
theorem Serves.stable_order (h : Serves waiting q threads) : IsStable waiting q threads := by
  have hholds := h.holds
  refine {
    members_eq := hholds.members_eq
    nodup := hholds.nodup
    wakeTick_eq := hholds.wakeTick_eq
    nextWakeup_eq := hholds.nextWakeup_eq
    nextWakeup_eq_none := ?_
    insert_ok := ?_
    popDue_of_due := ?_
    popDue_of_later := fun now => hholds.popDue_of_later
    drains := ?_ }
  · rw [hholds.nextWakeup_eq, List.min?_eq_none_iff, List.map_eq_nil_iff, hholds.members_eq,
      ← List.length_eq_zero_iff, ← List.length_eq_zero_iff, byWake_perm.length_eq]
  · intro t hfree htick
    obtain ⟨w, hw⟩ := Option.ne_none_iff_exists'.mp htick
    exact ⟨_, _, insert_eq_ok_iff.mpr ⟨w, hw, hfree, rfl, rfl⟩⟩
  · intro t rest now horder hdue
    refine ⟨hholds.popDue_of_due horder hdue, ?_⟩
    rw [Queue.behead, hholds.members_eq, horder, List.tail_cons]
  · intro now
    obtain ⟨q', threads', hdrains, hserves, htick⟩ := h.drains now
    refine ⟨q', threads', fun ts q'' threads'' => ⟨fun hother => hother.unique hdrains, ?_⟩,
      hserves, ?_⟩
    · rintro ⟨rfl, rfl, rfl⟩
      exact hdrains
    · rw [hserves.holds.members_eq, byWake_congr fun b _ => wake_eq_of_wakeTick_eq (htick b)]

/-- Threads that sleep to the ticks 7, 3 and 7 are inserted and the second one is popped. Then come
one that sleeps to the tick 5 and one more that sleeps to the tick 7. -/
theorem stable_order_sample :
    ∃ q threads, Serves [1, 3, 4, 5] q threads ∧ IsStable [1, 3, 4, 5] q threads ∧
      q.queue.members = [4, 1, 3, 5] ∧ q.nextWakeup threads = some 5 := by
  let asleep (wake : Nat) : Thread := { (Zeroed.zeroed : Thread) with wakeTick := some wake }
  have hnew := Serves.new ⟨[(1, asleep 7), (2, asleep 3), (3, asleep 7), (4, asleep 5),
    (5, asleep 7)]⟩
  have h₁ := hnew.insert 1 (insert_eq_ok_iff.mpr ⟨7, rfl, ⟨rfl, rfl⟩, rfl, rfl⟩)
  have h₂ := h₁.insert 2 (insert_eq_ok_iff.mpr ⟨3, rfl, ⟨rfl, rfl⟩, rfl, rfl⟩)
  have h₃ := h₂.insert 3 (insert_eq_ok_iff.mpr ⟨7, rfl, ⟨rfl, rfl⟩, rfl, rfl⟩)
  have hpopped := h₃.pop 4 (popDue_eq_ok_iff.mpr
    (Or.inr ⟨2, [1, 3], 3, by decide, by decide, by decide, rfl, by decide, rfl, rfl⟩))
  have h₄ := hpopped.insert 4
    (insert_eq_ok_iff.mpr ⟨5, by decide, ⟨by decide, by decide⟩, rfl, rfl⟩)
  have h₅ := h₄.insert 5
    (insert_eq_ok_iff.mpr ⟨7, by decide, ⟨by decide, by decide⟩, rfl, rfl⟩)
  exact ⟨_, _, h₅, Serves.stable_order h₅, by decide, by decide⟩

end RoundRobin.SleepQueue
