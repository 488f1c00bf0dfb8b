import RoundRobin.Halt

/-!
# Checked arithmetic on words

Counters and addresses are natural numbers below the limit of a word. An operation whose exact
result leaves that range stops the system.
-/

namespace RoundRobin.Word

/-- Words of 32 bits are below this. -/
abbrev limit32 : Nat := 4294967296

/-- Words of 64 bits are below this. -/
abbrev limit64 : Nat := 18446744073709551616

/-- Sum of two words below `limit`. -/
def add (limit a b : Nat) : Except Halt Nat :=
  if a + b < limit then .ok (a + b) else .error .addOverflow

/-- Difference of two words. -/
def sub (a b : Nat) : Except Halt Nat :=
  if b ≤ a then .ok (a - b) else .error .subtractOverflow

/-- Product of two words below `limit`. -/
def mul (limit a b : Nat) : Except Halt Nat :=
  if a * b < limit then .ok (a * b) else .error .multiplyOverflow

/-- Quotient, rounded down. -/
def div (a b : Nat) : Except Halt Nat :=
  if b = 0 then .error .divisionByZero else .ok (a / b)

theorem add_eq_ok_iff {limit a b c : Nat} :
    add limit a b = .ok c ↔ a + b < limit ∧ a + b = c := by
  by_cases h : a + b < limit <;> simp [add, h]

theorem sub_eq_ok_iff {a b c : Nat} : sub a b = .ok c ↔ b ≤ a ∧ a - b = c := by
  by_cases h : b ≤ a <;> simp [sub, h]

theorem mul_eq_ok_iff {limit a b c : Nat} :
    mul limit a b = .ok c ↔ a * b < limit ∧ a * b = c := by
  by_cases h : a * b < limit <;> simp [mul, h]

theorem div_eq_ok_iff {a b c : Nat} : div a b = .ok c ↔ b ≠ 0 ∧ a / b = c := by
  by_cases h : b = 0 <;> simp [div, h]

end RoundRobin.Word
