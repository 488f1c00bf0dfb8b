import RoundRobin.Proofs.Tick.Inquiry

/-!
# Calibration with any probe

A probe may be noisy: its answers need not even be monotone. Calibration ends all the same, after
31 questions at most, and the count it finds agrees with every answer it was given.
-/

namespace RoundRobin.Tick

variable {σ : Type} {k r : Nat} {added asked : List Question} {outcome : Except Halt Nat}
  {q : Question}

/-- What the count `r` with the highest bit `2 ^ k` has to do with the questions that led to it. -/
structure Pinned (k r : Nat) (asked : List Question) : Prop where
  ten_le : 10 ≤ k
  le_31 : k ≤ 31
  pow_le : 2 ^ k ≤ r
  lt_pow : r < 2 ^ (k + 1)
  dvd : 2 ^ (k - 9) ∣ r
  length_eq : asked.length = k
  found : r = 1024 ∨ ⟨r, false⟩ ∈ asked
  le_of_fits : ∀ c, ⟨c, false⟩ ∈ asked → c ≤ r
  lt_of_tooMany : ∀ c, ⟨c, true⟩ ∈ asked → r < c ∨ (c = 0 ∧ k = 31)
  /-- Zero is asked about only as the double of the last power of two. -/
  zero_asked_iff : (∃ tooMany, ⟨0, tooMany⟩ ∈ asked) ↔ k = 31

/-- The questions of a search that finds a count with the highest bit `2 ^ k`. -/
abbrev searched (k : Nat) (added : List Question) : List Question :=
  doublings 10 k ++ ⟨double (2 ^ k), true⟩ :: added

theorem mem_searched :
    q ∈ searched k added ↔
      (∃ i, 10 < i ∧ i ≤ k ∧ q = ⟨2 ^ i, false⟩) ∨ q = ⟨double (2 ^ k), true⟩ ∨ q ∈ added := by
  rw [List.mem_append, mem_doublings, List.mem_cons]

theorem double_two_pow_eq_zero_iff (hk : k ≤ 31) : double (2 ^ k) = 0 ↔ k = 31 := by
  constructor
  · intro hzero
    by_contra hne
    rw [double_two_pow (Nat.lt_of_le_of_ne hk hne)] at hzero
    exact Nat.ne_of_gt (Nat.two_pow_pos _) hzero
  · rintro rfl
    exact double_two_pow_31

/-- The count that the last bits lead to agrees with the doublings as well. -/
theorem Settles.pinned (hten : 10 ≤ k) (hk : k ≤ 31)
    (h : Settles (k - 10) 9 (2 ^ k) r added) : Pinned k r (searched k added) where
  ten_le := hten
  le_31 := hk
  pow_le := h.le
  lt_pow := by
    have hlt := h.lt
    have hsum : k - 10 + 9 + 1 = k := by omega
    rw [hsum] at hlt
    rw [Nat.pow_succ]
    omega
  dvd := by
    have hdvd := h.dvd
    have hsum : k - 10 + 1 = k - 9 := by omega
    rwa [hsum] at hdvd
  length_eq := by
    rw [List.length_append, List.length_cons, length_doublings, h.length_eq]
    omega
  found := by
    rcases h.found with rfl | hmem
    · rcases Nat.eq_or_lt_of_le hten with rfl | hlt
      · exact Or.inl rfl
      · exact Or.inr (mem_searched.mpr (Or.inl ⟨k, hlt, Nat.le_refl _, rfl⟩))
    · exact Or.inr (mem_searched.mpr (Or.inr (Or.inr hmem)))
  le_of_fits c hc := by
    rcases mem_searched.mp hc with ⟨i, -, hik, heq⟩ | heq | hmem
    · cases heq
      exact Nat.le_trans (Nat.pow_le_pow_right (by decide) hik) h.le
    · cases heq
    · exact h.le_of_fits c hmem
  lt_of_tooMany c hc := by
    rcases mem_searched.mp hc with ⟨i, -, -, heq⟩ | heq | hmem
    · cases heq
    · cases heq
      rcases Nat.lt_or_eq_of_le hk with hlt | rfl
      · have hbelow := h.lt
        have hsum : k - 10 + 9 + 1 = k := by omega
        rw [hsum] at hbelow
        rw [double_two_pow hlt, Nat.pow_succ]
        exact Or.inl (by omega)
      · exact Or.inr ⟨double_two_pow_31, rfl⟩
    · exact Or.inl (h.lt_of_tooMany c hmem)
  zero_asked_iff := by
    rw [← double_two_pow_eq_zero_iff hk]
    constructor
    · rintro ⟨tooMany, hmem⟩
      rcases mem_searched.mp hmem with ⟨i, -, -, heq⟩ | heq | hmem
      · exact absurd (congrArg Question.loops heq).symm (Nat.ne_of_gt (Nat.two_pow_pos i))
      · exact (congrArg Question.loops heq).symm
      · exact absurd (h.lt_asked _ hmem) (Nat.not_lt_zero _)
    · intro hzero
      exact ⟨true, mem_searched.mpr (Or.inr (Or.inl (by rw [hzero])))⟩

namespace Course

theorem pinned (h : Course (.ok r) asked) : ∃ k, Pinned k r asked := by
  cases h with
  | settled hten hk hsettles => exact ⟨_, hsettles.pinned hten hk⟩

theorem length_le (h : Course outcome asked) : asked.length ≤ 31 := by
  cases h with
  | overflow => decide
  | settled hten hk hsettles =>
      rw [(hsettles.pinned hten hk).length_eq]
      exact hk

theorem cause_eq {cause : Halt} (h : Course (.error cause) asked) :
    cause = .calibrationOverflow := by
  cases h
  rfl

/-- There is no answer exactly if all of the first 22 counts fit. -/
theorem overflow_iff (h : Course outcome asked) :
    outcome = .error .calibrationOverflow ↔
      (asked.take 22).map (·.tooMany) = List.replicate 22 false := by
  cases h with
  | overflow => exact iff_of_true rfl (by decide)
  | @settled k r added hten hk hsettles =>
      refine iff_of_false nofun fun hfits => ?_
      -- the double of the highest bit is among the first 22 counts, and it did not fit
      have hfirst : (searched k added)[k - 10]? = some ⟨double (2 ^ k), true⟩ := by
        rw [List.getElem?_append_right (Nat.le_of_eq (length_doublings 10 k)), length_doublings,
          Nat.sub_self]
        rfl
      have hsame : (((searched k added).take 22).map (·.tooMany))[k - 10]? =
          (List.replicate 22 false)[k - 10]? := by
        rw [hfits]
      have hbelow : k - 10 < 22 := by omega
      rw [List.getElem?_map, List.getElem?_take, if_pos hbelow, hfirst, List.getElem?_replicate,
        if_pos hbelow] at hsame
      cases hsame

end Course

/-- Whatever a probe answers, calibration ends after 31 questions at most. It fails exactly if the
first 22 counts all fit, and there is no other way to fail. Otherwise it finds a count that is
pinned down by the questions. -/
theorem calibrate_consistent {probe : Nat → EStateM Halt σ Bool} (hprobe : Answers probe) (s : σ) :
    calibrate probe s = (inquire probe s).result ∧
      (inquire probe s).asked.length ≤ 31 ∧
      ((inquire probe s).outcome = .error .calibrationOverflow ↔
        ((inquire probe s).asked.take 22).map (·.tooMany) = List.replicate 22 false) ∧
      (∀ cause, (inquire probe s).outcome = .error cause → cause = .calibrationOverflow) ∧
      ∀ r, (inquire probe s).outcome = .ok r → ∃ k, Pinned k r (inquire probe s).asked := by
  have hcourse := inquire_course hprobe s
  refine ⟨calibrate_eq probe s, hcourse.length_le, hcourse.overflow_iff, ?_, ?_⟩
  · intro cause hcause
    rw [hcause] at hcourse
    exact hcourse.cause_eq
  · intro r hr
    rw [hr] at hcourse
    exact hcourse.pinned

/-- A probe that finds every third count too large, whichever it is. -/
def everyThird (_ : Nat) : EStateM Halt Nat Bool := fun n =>
  .ok (n % 3 == 2) (n + 1)

/-- It makes calibration double to 4096 and then set six of the nine bits below. -/
theorem calibrate_consistent_sample :
    Answers everyThird ∧
      (inquire everyThird 0).outcome = .ok 7600 ∧
      calibrate everyThird 0 = (inquire everyThird 0).result ∧
      (inquire everyThird 0).asked.length ≤ 31 ∧
      ((inquire everyThird 0).outcome = .error .calibrationOverflow ↔
        ((inquire everyThird 0).asked.take 22).map (·.tooMany) = List.replicate 22 false) ∧
      ∃ k, Pinned k 7600 (inquire everyThird 0).asked := by
  have hprobe : Answers everyThird := fun _ _ => ⟨_, _, rfl⟩
  have hfound : (inquire everyThird 0).outcome = .ok 7600 := by decide +kernel
  obtain ⟨hresult, hlength, hoverflow, -, hpinned⟩ := calibrate_consistent hprobe 0
  exact ⟨hprobe, hfound, hresult, hlength, hoverflow, hpinned 7600 hfound⟩

end RoundRobin.Tick
