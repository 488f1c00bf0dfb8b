import Mathlib.Algebra.Order.Round
import Mathlib.Data.Rat.Floor
import Mathlib.Tactic.Linarith
import RoundRobin.Config
import RoundRobin.Tick.Divisor

/-!
# Rounding of the timer divisor

Half of the rate is added before the division, and half of an odd rate is itself rounded down. The
quotient is the nearest one all the same, whatever the rate. `round_div_eq_iff` says in whole
numbers what the nearest one is, and `divisor_nearest` that no word is outgrown on the way to it.
-/

namespace RoundRobin.Tick

variable {clock hz d : Nat}

theorem divisor_eq_ok_iff :
    divisor clock hz = .ok d ↔
      clock + hz / 2 < Word.limit64 ∧ hz ≠ 0 ∧ d = (clock + hz / 2) / hz % Word.limit32 := by
  simp only [divisor, Except.bind_eq_ok_iff, Word.add_eq_ok_iff, Word.div_eq_ok_iff,
    Except.pure_eq_ok_iff, and_assoc, exists_and_left, exists_eq_left']

theorem divisor_zero (hclock : clock < Word.limit64) :
    divisor clock 0 = .error .divisionByZero := by
  have hsum : Word.add Word.limit64 clock (0 / 2) = .ok clock :=
    Word.add_eq_ok_iff.mpr ⟨hclock, rfl⟩
  rw [divisor, hsum]
  rfl

/-- Half of a rate leaves room for a clock. -/
theorem add_half_lt (hclock : clock < Word.limit32) (hhz : hz < Word.limit64) :
    clock + hz / 2 < Word.limit64 := by
  simp only [Word.limit32, Word.limit64] at *
  omega

theorem quotient_lt (hclock : clock < Word.limit32) (hpos : 0 < hz) :
    (clock + hz / 2) / hz < Word.limit32 := by
  apply Nat.div_lt_of_lt_mul
  simp only [Word.limit32] at *
  omega

/-- The number nearest to the ratio of a clock and a rate is the one whose multiple of the rate
misses the clock by half of the rate at most, and by less than that from below. -/
theorem round_div_eq_iff (hpos : 0 < hz) {d : ℤ} :
    round ((clock : ℚ) / hz) = d ↔ 2 * (d * hz - clock) ≤ hz ∧ 2 * (clock - d * hz) < hz := by
  have hrate : (0 : ℚ) < hz := Nat.cast_pos.mpr hpos
  have hlow : (d - 1 / 2 : ℚ) * hz ≤ clock ↔ 2 * ((d : ℚ) * hz - clock) ≤ hz := by
    constructor <;> intro h <;> linarith
  have hhigh : (clock : ℚ) < (d + 1 / 2) * hz ↔ 2 * ((clock : ℚ) - d * hz) < hz := by
    constructor <;> intro h <;> linarith
  rw [round_eq_iff, Set.mem_Ico, le_div_iff₀ hrate, div_lt_iff₀ hrate, hlow, hhigh]
  norm_cast

/-- Rounding down once half of the rate was added is rounding to nearest. Half of an odd rate is
rounded down as well, but no whole number of cycles lies in the gap that this leaves. -/
theorem round_div_eq_quotient (clock : Nat) (hpos : 0 < hz) :
    round ((clock : ℚ) / hz) = ((clock + hz / 2) / hz : ℕ) := by
  rw [round_div_eq_iff hpos]
  have hlow := Nat.div_mul_le_self (clock + hz / 2) hz
  have hhigh := Nat.lt_div_mul_add (a := clock + hz / 2) hpos
  rw [← Nat.cast_mul]
  omega

/-- For every clock and every rate other than zero the divisor is the nearest one, the larger of two
that are as near. Neither the sum outgrows its word nor the quotient the shorter one that it is cut
to. At the rate zero the division fails. -/
theorem divisor_nearest (hclock : clock < Word.limit32) (hhz : hz < Word.limit64) :
    (1 ≤ hz → clock + hz / 2 < Word.limit64 ∧ (clock + hz / 2) / hz < Word.limit32 ∧
      ∃ d, divisor clock hz = .ok d ∧ d = (clock + hz / 2) / hz ∧
        2 * ((d : ℤ) * hz - clock) ≤ hz ∧ 2 * ((clock : ℤ) - d * hz) < hz ∧
        d = round ((clock : ℚ) / hz)) ∧
      (hz = 0 → divisor clock hz = .error .divisionByZero) := by
  constructor
  · intro hpos
    have hsum := add_half_lt hclock hhz
    have hword := quotient_lt hclock hpos
    have hround := round_div_eq_quotient clock hpos
    have hdivisor : divisor clock hz = .ok ((clock + hz / 2) / hz) :=
      divisor_eq_ok_iff.mpr ⟨hsum, Nat.ne_of_gt hpos, (Nat.mod_eq_of_lt hword).symm⟩
    obtain ⟨habove, hbelow⟩ := (round_div_eq_iff hpos).mp hround
    exact ⟨hsum, hword, _, hdivisor, rfl, habove, hbelow, hround.symm⟩
  · rintro rfl
    exact divisor_zero (Nat.lt_trans hclock (by decide))

/-- A tie, which goes upward; the highest clock and the highest rate, which is odd; and no rate. -/
theorem divisor_nearest_sample :
    1001 < Word.limit32 ∧ 2 < Word.limit64 ∧ divisor 1001 2 = .ok 501 ∧
      (501 : ℤ) = round ((1001 : ℕ) / (2 : ℕ) : ℚ) ∧
      4294967295 < Word.limit32 ∧ 18446744073709551615 < Word.limit64 ∧
      divisor 4294967295 18446744073709551615 = .ok 0 ∧
      2 * ((4294967295 : ℤ) - 0 * 18446744073709551615) < 18446744073709551615 ∧
      divisor 1001 0 = .error .divisionByZero := by
  have hclock : 1001 < Word.limit32 := by decide
  have htwo : 2 < Word.limit64 := by decide
  have hzero : 0 < Word.limit64 := by decide
  have hhighest : 4294967295 < Word.limit32 := by decide
  have hodd : 18446744073709551615 < Word.limit64 := by decide
  obtain ⟨-, -, tie, htie, rfl, -, -, hround⟩ := (divisor_nearest hclock htwo).1 (by decide)
  obtain ⟨-, -, least, hleast, rfl, -, hbelow, -⟩ := (divisor_nearest hhighest hodd).1 (by decide)
  exact ⟨hclock, htwo, htie, hround, hhighest, hodd, hleast, hbelow,
    (divisor_nearest hclock hzero).2 rfl⟩

/-- The board's timer. -/
example : divisor Config.clockHz Config.tickHz = .ok 160000 := by decide

end RoundRobin.Tick
