import RoundRobin.Proofs.Tick.Consistency
import RoundRobin.Tick.Trial

/-!
# Calibration against a loop of constant speed

A loop that runs the same number of iterations in every tick. Calibration finds that number to ten
significant bits, or 1024 if it is below that, and gives up from `2 ^ 31` on.
-/

namespace RoundRobin.Tick

variable {answer : Nat → Nat → Bool} {perTick k r : Nat} {added asked : List Question}

/-- The probe of a trial. -/
def trialProbe (answer : Nat → Nat → Bool) (loops : Nat) : EStateM Halt (Array Nat) Bool := do
  let asked ← get
  set (asked.push loops)
  return answer asked.size loops

theorem trial_of_ok {loops : Nat} {counts : Array Nat}
    (hrun : calibrate (trialProbe answer) #[] = .ok loops counts) :
    trial answer = (.ok loops, counts.toList) := by
  dsimp only [trial]
  split
  · next hfound =>
      cases hrun.symm.trans hfound
      rfl
  · next hhalted => cases hrun.symm.trans hhalted

theorem trial_of_error {cause : Halt} {counts : Array Nat}
    (hrun : calibrate (trialProbe answer) #[] = .error cause counts) :
    trial answer = (.error cause, counts.toList) := by
  dsimp only [trial]
  split
  · next hfound => cases hrun.symm.trans hfound
  · next hhalted =>
      cases hrun.symm.trans hhalted
      rfl

/-- The questions `asked` are about the counts `counts`, and were answered as the trial says. -/
structure Notes (answer : Nat → Nat → Bool) (counts : Array Nat) (asked : List Question) :
    Prop where
  counts_eq : counts.toList = asked.map (·.loops)
  answers : ∀ n q, asked[n]? = some q → q.tooMany = answer n q.loops

theorem Notes.push {counts : Array Nat} (h : Notes answer counts asked) (loops : Nat) :
    Notes answer (counts.push loops) (asked ++ [⟨loops, answer counts.size loops⟩]) where
  counts_eq := by simp [h.counts_eq]
  answers n q hq := by
    have hsize : counts.size = asked.length := by
      rw [← Array.length_toList, h.counts_eq, List.length_map]
    rcases Nat.lt_or_ge n asked.length with hlt | hge
    · rw [List.getElem?_append_left hlt] at hq
      exact h.answers n q hq
    · rw [List.getElem?_append_right hge] at hq
      obtain ⟨hzero, rfl⟩ : n - asked.length = 0 ∧ q = ⟨loops, answer counts.size loops⟩ := by
        cases hn : n - asked.length <;> simp_all
      have hn : n = counts.size := by omega
      rw [hn]

/-- A trial is an inquiry with the answers that it fixes. -/
theorem trial_asks (answer : Nat → Nat → Bool) :
    ∃ asked, Course (trial answer).1 asked ∧ Notes answer (trial answer).2.toArray asked := by
  have hprobe : Answers (trialProbe answer) := fun loops counts =>
    ⟨answer counts.size loops, counts.push loops, rfl⟩
  have hrelated : ∀ loops, Related (fun counts t => counts = t.1 ∧ Notes answer counts t.2)
      (trialProbe answer loops) (recorded (trialProbe answer) loops) := by
    rintro loops counts ⟨_, asked⟩ ⟨rfl, hnotes⟩
    exact ⟨rfl, rfl, hnotes.push loops⟩
  have hcourse := inquire_course hprobe #[]
  have hstart : Notes answer #[] [] := ⟨rfl, by simp⟩
  unfold inquire at hcourse
  obtain ⟨loops, counts, ⟨_, asked⟩, hplain, hnoted, rfl, hnotes⟩ |
      ⟨cause, counts, ⟨_, asked⟩, hplain, hnoted, rfl, hnotes⟩ :=
    (Related.calibrate hrelated).ends (s := #[]) (t := (#[], [])) ⟨rfl, hstart⟩
  · rw [hnoted] at hcourse
    rw [trial_of_ok hplain]
    exact ⟨asked, hcourse, hnotes⟩
  · rw [hnoted] at hcourse
    rw [trial_of_error hplain]
    exact ⟨asked, hcourse, hnotes⟩

/-- The answers are those of a loop that runs `perTick` iterations in every tick. -/
def Steady (perTick : Nat) (asked : List Question) : Prop :=
  ∀ q ∈ asked, q.tooMany = decide (perTick < q.loops)

theorem Notes.steady {counts : Array Nat} (h : Notes (constantSpeed perTick) counts asked) :
    Steady perTick asked := by
  intro q hq
  obtain ⟨n, hn⟩ := List.mem_iff_getElem?.mp hq
  exact h.answers n q hn

section

variable {c : Nat} {outcome : Except Halt Nat} (hsteady : Steady perTick asked)

include hsteady

theorem Steady.le (hmem : ⟨c, false⟩ ∈ asked) : c ≤ perTick := by
  have hanswer := hsteady _ hmem
  simpa using hanswer.symm

theorem Steady.lt (hmem : ⟨c, true⟩ ∈ asked) : perTick < c := by
  have hanswer := hsteady _ hmem
  simpa using hanswer.symm

/-- A fast loop fits with every power of two, and with the zero that the last of them doubles
to. -/
theorem Steady.course_of_large (hcourse : Course outcome asked) (hlarge : 2 ^ 31 ≤ perTick) :
    outcome = .error .calibrationOverflow ∧ asked = doublings 10 31 ++ [⟨0, false⟩] := by
  cases hcourse with
  | overflow => exact ⟨rfl, rfl⟩
  | @settled k r added hten hk hsettles =>
      have hlt := hsteady.lt (mem_searched.mpr (Or.inr (Or.inl rfl)))
      rcases Nat.lt_or_eq_of_le hk with hless | rfl
      · rw [double_two_pow hless] at hlt
        have hpow : 2 ^ (k + 1) ≤ 2 ^ 31 := Nat.pow_le_pow_right (by decide) hless
        omega
      · rw [double_two_pow_31] at hlt
        exact absurd hlt (Nat.not_lt_zero _)

/-- For any other loop the doubling finds the highest bit of `perTick`, or the bit 10 if that is
higher. -/
theorem Steady.course_of_small (hcourse : Course outcome asked) (hsmall : perTick < 2 ^ 31) :
    ∃ k r added, 10 ≤ k ∧ k ≤ 31 ∧ Settles (k - 10) 9 (2 ^ k) r added ∧ outcome = .ok r ∧
      asked = searched k added ∧ perTick < 2 ^ (k + 1) ∧ (k = 10 ∨ 2 ^ k ≤ perTick) := by
  cases hcourse with
  | overflow =>
      have hmem : ⟨2 ^ 31, false⟩ ∈ doublings 10 31 ++ [⟨0, false⟩] :=
        List.mem_append_left _ (mem_doublings.mpr ⟨31, by decide, Nat.le_refl _, rfl⟩)
      exact absurd (hsteady.le hmem) (Nat.not_le.mpr hsmall)
  | @settled k r added hten hk hsettles =>
      refine ⟨k, r, added, hten, hk, hsettles, rfl, rfl, ?_, ?_⟩
      · rcases Nat.lt_or_eq_of_le hk with hless | rfl
        · have hlt := hsteady.lt (mem_searched.mpr (Or.inr (Or.inl rfl)))
          rwa [double_two_pow hless] at hlt
        · exact Nat.lt_trans hsmall (by decide)
      · rcases Nat.eq_or_lt_of_le hten with heq | hlt
        · exact Or.inl heq.symm
        · exact Or.inr (hsteady.le (mem_searched.mpr (Or.inl ⟨k, hlt, Nat.le_refl _, rfl⟩)))

/-- The count that is found fits, and the next one of its precision does not. -/
theorem Steady.bounds (hten : 10 ≤ k) (hsettles : Settles (k - 10) 9 (2 ^ k) r added)
    (hasked : asked = searched k added) (hlow : 2 ^ k ≤ perTick) (hhigh : perTick < 2 ^ (k + 1)) :
    r ≤ perTick ∧ perTick < r + 2 ^ (k - 9) := by
  subst hasked
  have hlow' : k - 10 + 1 = k - 9 := by omega
  have hsum : k - 10 + 9 + 1 = k := by omega
  have hadded : ∀ q ∈ added, q ∈ searched k added :=
    fun q hq => mem_searched.mpr (Or.inr (Or.inr hq))
  constructor
  · rcases hsettles.found with rfl | hmem
    · exact hlow
    · exact hsteady.le (hadded _ hmem)
  · have hnext := hsettles.next
    rw [hlow', hsum] at hnext
    rcases hnext with heq | hmem
    · rw [heq, ← Nat.mul_two, ← Nat.pow_succ]
      exact hhigh
    · exact hsteady.lt (hadded _ hmem)

end

/-- The number `n` with its bits below the bit `i` cleared. -/
def cleared (i n : Nat) : Nat :=
  n / 2 ^ i * 2 ^ i

theorem testBit_cleared (i n j : Nat) :
    (cleared i n).testBit j = (decide (i ≤ j) && n.testBit j) := by
  rw [cleared, ← Nat.shiftRight_eq_div_pow, ← Nat.shiftLeft_eq, Nat.testBit_shiftLeft,
    Nat.testBit_shiftRight]
  by_cases hij : i ≤ j
  · rw [Nat.add_sub_cancel' hij]
  · simp [hij]

theorem eq_cleared_of_bounds {i n : Nat} (hdvd : 2 ^ i ∣ r) (hle : r ≤ n) (hlt : n < r + 2 ^ i) :
    r = cleared i n := by
  obtain ⟨a, rfl⟩ := hdvd
  have hquotient : n / 2 ^ i = a := by
    apply Nat.div_eq_of_lt_le
    · rwa [Nat.mul_comm]
    · rwa [Nat.add_mul, Nat.one_mul, Nat.mul_comm]
  rw [cleared, hquotient, Nat.mul_comm]

/-- Calibrate against a loop that runs `perTick` iterations in every tick. If that number has its
highest bit at `k`, from 10 up to 30, calibration clears its bits below `k - 9` and asks `k`
questions. It finds 1024, with 10 questions, if the number is smaller. If it is larger, calibration
fails after 22 questions, the last of them about zero. -/
theorem trial_constantSpeed (perTick : Nat) :
    (1024 ≤ perTick → perTick < 2 ^ 31 → ∀ k, 2 ^ k ≤ perTick → perTick < 2 ^ (k + 1) →
      (trial (constantSpeed perTick)).1 = .ok (cleared (k - 9) perTick) ∧
        (trial (constantSpeed perTick)).2.length = k ∧
        (∀ i, (cleared (k - 9) perTick).testBit i = (decide (k - 9 ≤ i) && perTick.testBit i)) ∧
        cleared (k - 9) perTick ≤ perTick ∧ perTick < cleared (k - 9) perTick + 2 ^ (k - 9) ∧
        perTick < 2 * cleared (k - 9) perTick) ∧
      (perTick < 1024 → (trial (constantSpeed perTick)).1 = .ok 1024 ∧
        (trial (constantSpeed perTick)).2.length = 10) ∧
      (2 ^ 31 ≤ perTick → (trial (constantSpeed perTick)).1 = .error .calibrationOverflow ∧
        (trial (constantSpeed perTick)).2.length = 22 ∧
        (trial (constantSpeed perTick)).2.getLast? = some 0) := by
  obtain ⟨asked, hcourse, hnotes⟩ := trial_asks (constantSpeed perTick)
  have hsteady := hnotes.steady
  have hcounts : (trial (constantSpeed perTick)).2 = asked.map (·.loops) := hnotes.counts_eq
  rw [hcounts, List.length_map]
  refine ⟨?_, ?_, ?_⟩
  · intro hlarge hsmall k hlow hhigh
    obtain ⟨j, r, added, hten, hj, hsettles, hfound, hasked, hlt, htop⟩ :=
      hsteady.course_of_small hcourse hsmall
    have hjlow : 2 ^ j ≤ perTick := by
      rcases htop with rfl | hle
      · exact hlarge
      · exact hle
    obtain rfl : j = k := by
      have hjk := (Nat.pow_lt_pow_iff_right (by decide : 1 < 2)).mp (Nat.lt_of_le_of_lt hjlow hhigh)
      have hkj := (Nat.pow_lt_pow_iff_right (by decide : 1 < 2)).mp (Nat.lt_of_le_of_lt hlow hlt)
      omega
    have hpinned := hsettles.pinned hten hj
    obtain ⟨hle, hnext⟩ := hsteady.bounds hten hsettles hasked hlow hhigh
    obtain rfl := eq_cleared_of_bounds hpinned.dvd hle hnext
    refine ⟨hfound, ?_, testBit_cleared _ _, hle, hnext, ?_⟩
    · rw [hasked]
      exact hpinned.length_eq
    · have hpow : 2 ^ (j + 1) = 2 ^ j * 2 := Nat.pow_succ ..
      have hge := hpinned.pow_le
      omega
  · intro hsmall
    obtain ⟨k, r, added, hten, hk, hsettles, hfound, hasked, -, htop⟩ :=
      hsteady.course_of_small hcourse (Nat.lt_trans hsmall (by decide))
    obtain rfl : k = 10 := by
      refine htop.resolve_right fun hle => Nat.not_le.mpr hsmall (Nat.le_trans ?_ hle)
      exact Nat.pow_le_pow_right Nat.two_pos hten
    have hpinned := hsettles.pinned hten hk
    rw [← hasked] at hpinned
    obtain rfl : r = 1024 := by
      refine hpinned.found.resolve_right fun hmem => ?_
      exact Nat.not_le.mpr hsmall (Nat.le_trans hpinned.pow_le (hsteady.le hmem))
    exact ⟨hfound, hpinned.length_eq⟩
  · intro hlarge
    obtain ⟨houtcome, rfl⟩ := hsteady.course_of_large hcourse hlarge
    exact ⟨houtcome, by decide, by decide⟩

/-- A loop of 5001 iterations a tick, one of 1000, and one of `2 ^ 31`. -/
theorem trial_constantSpeed_sample :
    (trial (constantSpeed 5001)).1 = .ok 5000 ∧ (trial (constantSpeed 5001)).2.length = 12 ∧
      (trial (constantSpeed 1000)).1 = .ok 1024 ∧ (trial (constantSpeed 1000)).2.length = 10 ∧
      (trial (constantSpeed (2 ^ 31))).1 = .error .calibrationOverflow ∧
      (trial (constantSpeed (2 ^ 31))).2.getLast? = some 0 := by
  obtain ⟨hfound, hlength, -⟩ :=
    (trial_constantSpeed 5001).1 (by decide) (by decide) 12 (by decide) (by decide)
  obtain ⟨hsmall, hten⟩ := (trial_constantSpeed 1000).2.1 (by decide)
  obtain ⟨hlarge, -, hlast⟩ := (trial_constantSpeed (2 ^ 31)).2.2 (Nat.le_refl _)
  exact ⟨hfound, hlength, hsmall, hten, hlarge, hlast⟩

end RoundRobin.Tick
