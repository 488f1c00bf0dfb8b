import RoundRobin.Word

/-!
# Calibration of the busy-wait loop

How many iterations of a busy-wait loop fit into one tick. The search asks a probe whether a count
takes longer than a tick. `coarse` doubles from 1024 until it does, which fixes the highest bit;
`fine` then settles the nine bits below it. Only the probe touches hardware.

The search ends whatever the probe answers. A double ends in more zero bits than the count did,
until it wraps to zero (`gcd_lt_gcd_double`), and halving the highest bit passes through the bit
that `fine` stops at (`leadsTo_half`).
-/

namespace RoundRobin.Tick

variable {m : Type → Type} [Monad m] [MonadLiftT (Except Halt) m]

/-- The double of `loops` as a word of 32 bits. -/
def double (loops : Nat) : Nat :=
  2 * loops % Word.limit32

/-- A double that is not zero shares a larger power of two with the limit of a word. -/
theorem gcd_lt_gcd_double {loops : Nat} (hdouble : double loops ≠ 0) :
    Nat.gcd Word.limit32 loops < Nat.gcd Word.limit32 (double loops) := by
  have hpos : 0 < Nat.gcd Word.limit32 loops := Nat.gcd_pos_of_pos_left _ (by decide)
  have hloops : Nat.gcd Word.limit32 loops ∣ loops := Nat.gcd_dvd_right _ _
  obtain ⟨rest, hrest⟩ := Nat.gcd_dvd_left Word.limit32 loops
  generalize Nat.gcd Word.limit32 loops = g at *
  have heven : rest % 2 = 0 := by
    -- an odd divisor of a power of two is one, and then the limit divides `loops`
    refine Decidable.byContradiction fun hodd => hdouble ?_
    have htwo : Nat.Coprime rest 2 := by
      rw [Nat.Coprime, Nat.gcd_comm, Nat.gcd_rec, Nat.mod_two_ne_zero.mp hodd]
      exact Nat.gcd_one_left 2
    have hone : rest = 1 :=
      (htwo.pow_right 32).eq_one_of_dvd ⟨g, hrest.trans (Nat.mul_comm _ _)⟩
    rw [hone, Nat.mul_one] at hrest
    exact Nat.mod_eq_zero_of_dvd (Nat.dvd_mul_left_of_dvd (hrest ▸ hloops) 2)
  have hlimit : 2 * g ∣ Word.limit32 := by
    obtain ⟨c, rfl⟩ := Nat.dvd_of_mod_eq_zero heven
    exact ⟨c, hrest.trans (by rw [Nat.mul_left_comm, Nat.mul_assoc])⟩
  have hmore : 2 * g ∣ double loops :=
    (Nat.dvd_mod_iff hlimit).mpr (Nat.mul_dvd_mul_left 2 hloops)
  have hle := Nat.le_of_dvd (Nat.gcd_pos_of_pos_left _ (by decide)) (Nat.dvd_gcd hlimit hmore)
  omega

/-- Double `loops` while the double fits. If a double that wraps to zero fits, there is no
answer. -/
def coarse (tooMany : Nat → m Bool) (loops : Nat) : m Nat := do
  if ← tooMany (double loops) then
    return loops
  else if _hzero : double loops = 0 then
    halt .calibrationOverflow
  else
    coarse tooMany (double loops)
termination_by Word.limit32 - Nat.gcd Word.limit32 loops
decreasing_by
  have hmore := gcd_lt_gcd_double _hzero
  have hle := Nat.gcd_le_left (double loops) (m := Word.limit32) (by decide)
  omega

/-- Halving `bit` some number of times gives `last`. -/
def LeadsTo (bit last : Nat) : Prop :=
  ∃ n, bit >>> n = last

theorem LeadsTo.half {bit last : Nat} (h : LeadsTo bit last) (hne : bit ≠ last) :
    LeadsTo (bit >>> 1) last := by
  obtain ⟨_ | n, hn⟩ := h
  · exact absurd hn hne
  · exact ⟨n, by rw [← Nat.shiftRight_add, Nat.add_comm, hn]⟩

theorem LeadsTo.pos {bit last : Nat} (h : LeadsTo bit last) (hne : bit ≠ last) : 0 < bit := by
  obtain ⟨n, hn⟩ := h
  refine Nat.pos_of_ne_zero fun hzero => hne ?_
  rw [← hn, hzero, Nat.zero_shiftRight]

theorem leadsTo_half (high : Nat) : LeadsTo (high >>> 1) (high >>> 10) :=
  ⟨9, (Nat.shiftRight_add high 1 9).symm⟩

/-- Settle the bits of `loops` from `bit` downwards, up to but not including `last`: a bit is set
if the count with it still fits. -/
def fine (tooMany : Nat → m Bool) (last bit loops : Nat) (h : LeadsTo bit last) : m Nat := do
  if hlast : bit = last then
    return loops
  else if ← tooMany (loops ||| bit) then
    fine tooMany last (bit >>> 1) loops (h.half hlast)
  else
    fine tooMany last (bit >>> 1) (loops ||| bit) (h.half hlast)
termination_by bit
decreasing_by all_goals exact Nat.div_lt_self (h.pos hlast) (by decide)

/-- The largest count, to ten significant bits, that fits into one tick. -/
def calibrate (tooMany : Nat → m Bool) : m Nat := do
  let high ← coarse tooMany 1024
  fine tooMany (high >>> 10) (high >>> 1) high (leadsTo_half high)

/-- Whether a busy wait crosses a tick: line up with the start of a tick, then compare the counter
before and after the wait. `ticks` reads the counter and `waitPast` reads it until it differs. -/
def crossesTick (ticks : m Nat) (waitPast : Nat → m Unit) : m Bool := do
  let first ← ticks
  waitPast first
  let start ← ticks
  let stop ← ticks
  return start != stop

end RoundRobin.Tick
