import Mathlib.Algebra.Order.Field.Basic
import Mathlib.Data.Rat.Cast.Order
import Mathlib.Tactic.NormNum
import RoundRobin.Proofs.Host.SleepUnits

/-!
# The length of a busy wait

A sleep for less than a tick is spent in a busy wait, whose length is the exact number of iterations
rounded down twice: once before it is multiplied by the tick rate, so that nothing can outgrow a
word, and once at the end. The first of the two costs up to a hundred iterations, the second one.
-/

namespace RoundRobin

open Scheduler

variable {loops num denom count : Nat}

namespace Scheduler

theorem spinCount_eq_ok_iff :
    spinCount loops num denom = .ok count ↔
      loops * num < Word.limit64 ∧ loops * num / 1000 * Config.tickHz < Word.limit64 ∧
        denom / 1000 ≠ 0 ∧ loops * num / 1000 * Config.tickHz / (denom / 1000) = count := by
  simp only [spinCount, Except.bind_eq_ok_iff, Word.mul_eq_ok_iff, Word.div_eq_ok_iff, and_assoc,
    exists_and_left, exists_eq_left']

/-- Both divisions round down. -/
theorem spinCount_mul_le (hspin : spinCount loops num denom = .ok count) (hdvd : 1000 ∣ denom) :
    count * denom ≤ loops * num * Config.tickHz := by
  obtain ⟨-, -, -, rfl⟩ := spinCount_eq_ok_iff.mp hspin
  obtain ⟨k, rfl⟩ := hdvd
  rw [Nat.mul_div_cancel_left k (by decide)]
  have hlast := Nat.div_mul_le_self (loops * num / 1000 * Config.tickHz) k
  have hfirst := Nat.div_mul_le_self (loops * num) 1000
  calc loops * num / 1000 * Config.tickHz / k * (1000 * k)
      = loops * num / 1000 * Config.tickHz / k * k * 1000 := by ac_rfl
    _ ≤ loops * num / 1000 * Config.tickHz * 1000 := Nat.mul_le_mul_right 1000 hlast
    _ = loops * num / 1000 * 1000 * Config.tickHz := by ac_rfl
    _ ≤ loops * num * Config.tickHz := Nat.mul_le_mul_right Config.tickHz hfirst

/-- The division at the end loses less than one iteration. What the other one loses is multiplied by
the tick rate, which makes less than a hundred. -/
theorem lt_spinCount_mul (hspin : spinCount loops num denom = .ok count) (hdvd : 1000 ∣ denom) :
    loops * num * Config.tickHz < (count + 101) * denom := by
  obtain ⟨-, -, hunit, rfl⟩ := spinCount_eq_ok_iff.mp hspin
  obtain ⟨k, rfl⟩ := hdvd
  rw [Nat.mul_div_cancel_left k (by decide)] at hunit ⊢
  have hk : 0 < k := Nat.pos_of_ne_zero hunit
  have hlast := Nat.lt_div_mul_add (a := loops * num / 1000 * Config.tickHz) hk
  have hfirst : loops * num < loops * num / 1000 * 1000 + 1000 := Nat.lt_div_mul_add (by decide)
  simp only [Config.tickHz] at hlast ⊢
  have hexpand : (loops * num / 1000 * 100 / k + 101) * (1000 * k) =
      loops * num / 1000 * 100 / k * k * 1000 + 101000 * k := by
    rw [Nat.add_mul]
    ac_rfl
  omega

/-- The number of iterations in `num / denom` seconds if there are `loops` of them in a tick. -/
def exactSpins (loops num denom : Nat) : ℚ :=
  loops * num * Config.tickHz / denom

theorem le_exactSpins (hspin : spinCount loops num denom = .ok count) (hdvd : 1000 ∣ denom)
    (hpos : 0 < denom) : (count : ℚ) ≤ exactSpins loops num denom := by
  rw [exactSpins, le_div_iff₀ (Nat.cast_pos.mpr hpos)]
  exact_mod_cast spinCount_mul_le hspin hdvd

theorem exactSpins_sub_lt (hspin : spinCount loops num denom = .ok count) (hdvd : 1000 ∣ denom)
    (hpos : 0 < denom) : exactSpins loops num denom - 101 < count := by
  rw [sub_lt_iff_lt_add, exactSpins, div_lt_iff₀ (Nat.cast_pos.mpr hpos)]
  exact_mod_cast lt_spinCount_mul hspin hdvd

/-- Less than a tick has fewer iterations than a tick. -/
theorem spinCount_lt (hspin : spinCount loops num denom = .ok count) (hdvd : 1000 ∣ denom)
    (hshort : num * Config.tickHz < denom) (hloops : 0 < loops) : count < loops := by
  have hexact := spinCount_mul_le hspin hdvd
  rw [Nat.mul_assoc] at hexact
  have hless : loops * (num * Config.tickHz) < loops * denom :=
    Nat.mul_lt_mul_of_pos_left hshort hloops
  exact Nat.lt_of_mul_lt_mul_right (hexact.trans_lt hless)

theorem spinCount_of_zero (hspin : spinCount 0 num denom = .ok count) : count = 0 := by
  obtain ⟨-, -, -, rfl⟩ := spinCount_eq_ok_iff.mp hspin
  simp

end Scheduler

namespace Host

/-- Let the busy-wait loop be calibrated to any word of 32 bits, and let a sleep be for less than a
tick, in any of the three units. Nothing outgrows a word on the way to the length of the busy wait,
which is less than a tick and falls short of the exact one by less than 101 iterations. The caller
then goes on, with nothing changed. -/
theorem spins_precisely (hloops : loops < Word.limit32)
    (hunit : denom ∈ [1000, 1000000, 1000000000]) (hshort : num * Config.tickHz < denom) :
    loops * num < Word.limit64 ∧ loops * num / 1000 * Config.tickHz < Word.limit64 ∧
      ∃ count, spinCount loops num denom = .ok count ∧
        count ≤ loops ∧ (loops ≠ 0 → count < loops) ∧
        exactSpins loops num denom - 101 < count ∧ (count : ℚ) ≤ exactSpins loops num denom ∧
        ∀ h : Host, h.level = .on → h.scheduler.loopsPerTick = loops →
          (sleepFor num denom : HostM Unit) h = .ok () h := by
  obtain ⟨hdvd, hthousand, hbillion⟩ : 1000 ∣ denom ∧ 1000 ≤ denom ∧ denom ≤ 1000000000 := by
    simp only [List.mem_cons, List.not_mem_nil, or_false] at hunit
    omega
  have hpos : 0 < denom := by omega
  have hzero : num * Config.tickHz / denom = 0 := Nat.div_eq_of_lt hshort
  obtain ⟨count, hspin⟩ := spinCount_ok hloops hzero hthousand hbillion
  obtain ⟨hfirst, hsecond, -, -⟩ := spinCount_eq_ok_iff.mp hspin
  have hless : loops ≠ 0 → count < loops :=
    fun hloops => spinCount_lt hspin hdvd hshort (Nat.pos_of_ne_zero hloops)
  refine ⟨hfirst, hsecond, count, hspin, ?_, hless, exactSpins_sub_lt hspin hdvd hpos,
    le_exactSpins hspin hdvd hpos, ?_⟩
  · rcases Nat.eq_zero_or_pos loops with rfl | hloops
    · exact Nat.le_of_eq (spinCount_of_zero hspin)
    · exact Nat.le_of_lt (hless (Nat.ne_of_gt hloops))
  · rintro h hlevel rfl
    refine sleepFor_eq_ok_iff.mpr ⟨?_, Nat.ne_of_gt hpos, fun _ => ⟨count, hspin⟩, ?_⟩
    · simp only [Word.limit64]
      omega
    · rw [hzero]
      exact sleep_eq_ok_iff.mpr ⟨hlevel, Or.inl ⟨rfl, rfl⟩⟩

/-- A loop that is almost as fast as a calibration can tell: ninety-nine iterations are lost, and
nine tenths of one. -/
theorem spins_precisely_sample :
    4294967111 < Word.limit32 ∧ 1000 ∈ [1000, 1000000, 1000000000] ∧ 9 * Config.tickHz < 1000 ∧
      spinCount 4294967111 9 1000 = .ok 3865470300 ∧
      exactSpins 4294967111 9 1000 = 3865470399.9 ∧
      exactSpins 4294967111 9 1000 - 101 < (3865470300 : ℕ) ∧
      ((3865470300 : ℕ) : ℚ) ≤ exactSpins 4294967111 9 1000 := by
  have hspin : spinCount 4294967111 9 1000 = .ok 3865470300 := by decide
  have hloops : 4294967111 < Word.limit32 := by decide
  have hunit : 1000 ∈ [1000, 1000000, 1000000000] := by decide
  have hshort : 9 * Config.tickHz < 1000 := by decide
  obtain ⟨-, -, count, hcount, -, -, hlow, hhigh, -⟩ := spins_precisely hloops hunit hshort
  cases hspin.symm.trans hcount
  exact ⟨hloops, hunit, hshort, hspin, by norm_num [exactSpins], hlow, hhigh⟩

end Host

end RoundRobin
