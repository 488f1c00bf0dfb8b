import Mathlib.Algebra.Group.Nat.Defs
import Mathlib.Data.Set.Lattice
import Mathlib.Data.Set.Pairwise.Basic
import Mathlib.Order.CompletePartialOrder
import RoundRobin.Block

/-!
# Stack addresses and blocks determine each other

A running thread is known by its stack pointer alone, so every stack address has to lead to one
block, and the address that a new thread starts from to the thread's own. `containing_eq_ok_iff`
says which addresses lead to which block, and `found_from_stack` that the blocks divide up all
addresses from the first block on.

Addresses are rounded by clearing low bits of a word (`base_toNat`, `initialStackPointer_toNat`).
-/

namespace RoundRobin.Block

open Config

variable {a b sp top : Nat} {cause : Halt}

/-- `b` is the address of a block: a multiple of the block size, and not zero. -/
def IsBlock (b : Nat) : Prop :=
  0 < b ∧ b % blockSize = 0

instance : DecidablePred IsBlock :=
  fun b => inferInstanceAs (Decidable (0 < b ∧ b % blockSize = 0))

/-- The addresses that are rounded down to an aligned one are those of its block. -/
theorem base_eq_iff (hb : b % blockSize = 0) : base a = b ↔ b ≤ a ∧ a < b + blockSize := by
  simp only [base, blockSize] at *
  omega

theorem base_eq_zero_iff : base a = 0 ↔ a < blockSize := by
  simp only [base, blockSize]
  omega

/-- Clearing the `k` lowest bits of a word rounds it down to a multiple of `2 ^ k`. -/
theorem toNat_and_not_mask (k : Nat) (x : BitVec 64) :
    (x &&& ~~~ BitVec.ofNat 64 (2 ^ k - 1)).toNat = x.toNat / 2 ^ k * 2 ^ k := by
  apply Nat.eq_of_testBit_eq
  intro i
  rw [Nat.testBit_mul_two_pow, Nat.testBit_div_two_pow, BitVec.testBit_toNat, BitVec.getLsbD_and,
    BitVec.getLsbD_not, BitVec.getLsbD_ofNat, Nat.testBit_two_pow_sub_one]
  by_cases hk : k ≤ i
  · rw [Nat.sub_add_cancel hk, BitVec.testBit_toNat]
    by_cases hi : i < 64
    · simp [hk, hi]
    · simp [hi, x.getLsbD_of_ge i (Nat.not_lt.mp hi)]
  · simp only [hk, Nat.not_le.mp hk, decide_true, decide_false, Bool.and_true, Bool.false_and]
    by_cases hi : i < 64 <;> simp [hi]

theorem base_toNat (x : BitVec 64) : base x.toNat = (x &&& ~~~ 4095#64).toNat :=
  (toNat_and_not_mask 12 x).symm

theorem containing_eq_ok_iff_base : containing sp = .ok b ↔ b ≠ 0 ∧ base sp = b := by
  rw [containing]
  split
  · next hzero =>
      rw [hzero]
      exact ⟨nofun, fun h => absurd h.2.symm h.1⟩
  · next hne =>
      rw [Except.ok.injEq]
      exact ⟨fun heq => ⟨heq ▸ hne, heq⟩, fun h => h.2⟩

/-- An address leads to the block that it lies in. -/
theorem containing_eq_ok_iff :
    containing sp = .ok b ↔ IsBlock b ∧ b ≤ sp ∧ sp < b + blockSize := by
  rw [containing_eq_ok_iff_base]
  constructor
  · rintro ⟨hne, rfl⟩
    exact ⟨⟨Nat.pos_of_ne_zero hne, base_mod sp⟩, base_le sp, lt_base_add sp⟩
  · rintro ⟨⟨hpos, hmod⟩, hin⟩
    exact ⟨Nat.ne_of_gt hpos, (base_eq_iff hmod).mpr hin⟩

/-- An address leads nowhere if it is below the first block, and in no other case. -/
theorem containing_eq_error_iff :
    containing sp = .error cause ↔ sp < blockSize ∧ cause = .outsideBlocks sp := by
  rw [containing, ← base_eq_zero_iff]
  split
  · next hzero => simp only [Except.error.injEq, hzero, true_and, eq_comm]
  · next hne => exact ⟨nofun, fun h => absurd h.1 hne⟩

theorem exists_containing (hsp : blockSize ≤ sp) : ∃ b, containing sp = .ok b := by
  have hne : base sp ≠ 0 := fun hzero => Nat.not_lt.mpr hsp (base_eq_zero_iff.mp hzero)
  exact ⟨base sp, containing_eq_ok_iff_base.mpr ⟨hne, rfl⟩⟩

theorem initialStackPointer_eq_ok_iff :
    initialStackPointer b = .ok top ↔
      b + blockSize < Word.limit64 ∧ top = (b + blockSize - 8) / 8 * 8 := by
  simp only [initialStackPointer, Except.bind_eq_ok_iff, Word.add_eq_ok_iff, Except.pure_eq_ok_iff,
    and_assoc, exists_and_left, exists_eq_left']

/-- In words: the low bits of the address eight below the end of the block are cleared. -/
theorem initialStackPointer_toNat (x : BitVec 64) (hroom : x.toNat + blockSize < Word.limit64) :
    initialStackPointer x.toNat = .ok ((x + 4096#64 - 8#64) &&& ~~~ 7#64).toNat := by
  have hword : (x + 4096#64 - 8#64).toNat = x.toNat + blockSize - 8 := by
    simp only [blockSize, Word.limit64] at *
    bv_omega
  rw [initialStackPointer_eq_ok_iff, ← hword]
  exact ⟨hroom, toNat_and_not_mask 3 _⟩

namespace IsBlock

/-- The end of a block is aligned, so rounding changes nothing. -/
theorem initialStackPointer_eq_ok (hb : IsBlock b) (hroom : b + blockSize < Word.limit64) :
    initialStackPointer b = .ok (b + blockSize - 8) := by
  have hmod := hb.2
  refine initialStackPointer_eq_ok_iff.mpr ⟨hroom, ?_⟩
  simp only [blockSize] at *
  omega

theorem initialStackPointer_eq (hb : IsBlock b) (htop : initialStackPointer b = .ok top) :
    top = b + blockSize - 8 := by
  have hroom := (initialStackPointer_eq_ok_iff.mp htop).1
  exact Except.ok.inj (htop.symm.trans (hb.initialStackPointer_eq_ok hroom))

/-- A new thread is found from the address that it starts from. -/
theorem containing_initialStackPointer (hb : IsBlock b) (htop : initialStackPointer b = .ok top) :
    containing top = .ok b := by
  obtain rfl := hb.initialStackPointer_eq htop
  have hin : b ≤ b + blockSize - 8 ∧ b + blockSize - 8 < b + blockSize := by
    simp only [blockSize]
    omega
  exact containing_eq_ok_iff.mpr ⟨hb, hin⟩

/-- A block that begins in the address space ends in it. -/
theorem within (hb : IsBlock b) (hlt : b < Word.limit64) :
    blockSize ≤ b ∧ b + blockSize ≤ Word.limit64 := by
  simp only [IsBlock, blockSize, Word.limit64] at *
  omega

end IsBlock

/-- The stack addresses that lead to the block at `b`. -/
def territory (b : Nat) : Set Nat :=
  {sp | containing sp = .ok b}

theorem pairwiseDisjoint_territory : {b | IsBlock b}.PairwiseDisjoint territory := by
  intro b _ c _ hne
  refine Set.disjoint_left.mpr fun sp hb hc => hne ?_
  have hsame : Except.ok b = Except.ok c := (Eq.symm hb).trans hc
  exact Except.ok.inj hsame

theorem iUnion_territory :
    ⋃ b ∈ {b | IsBlock b ∧ b < Word.limit64}, territory b = Set.Ico blockSize Word.limit64 := by
  ext sp
  simp only [Set.mem_iUnion, Set.mem_ofPred_eq, territory, Set.mem_Ico, exists_prop]
  constructor
  · rintro ⟨b, ⟨hb, hlt⟩, hsp⟩
    obtain ⟨-, hle, hlast⟩ := containing_eq_ok_iff.mp hsp
    obtain ⟨hfirst, hend⟩ := hb.within hlt
    exact ⟨Nat.le_trans hfirst hle, Nat.lt_of_lt_of_le hlast hend⟩
  · rintro ⟨hlow, hhigh⟩
    obtain ⟨b, hsp⟩ := exists_containing hlow
    obtain ⟨hb, hle, -⟩ := containing_eq_ok_iff.mp hsp
    exact ⟨b, ⟨hb, Nat.lt_of_le_of_lt hle hhigh⟩, hsp⟩

/-- An address below the first block leads nowhere. Any other leads to the one block that it lies
in. The address that a thread starts from is aligned and leads to the thread's own block. So no
address belongs to two blocks, and together they have all addresses from the first block on. -/
theorem found_from_stack :
    (∀ sp cause, containing sp = .error cause ↔ sp < blockSize ∧ cause = .outsideBlocks sp) ∧
      (∀ sp, blockSize ≤ sp → ∃ b, containing sp = .ok b ∧
        (IsBlock b ∧ b ≤ sp ∧ sp < b + blockSize) ∧
        ∀ c, IsBlock c → c ≤ sp → sp < c + blockSize → c = b) ∧
      (∀ b, IsBlock b → b + blockSize < Word.limit64 → ∃ top, initialStackPointer b = .ok top ∧
        top % 8 = 0 ∧ b < top ∧ top ≤ b + 4088 ∧ containing top = .ok b) ∧
      {b | IsBlock b}.PairwiseDisjoint territory ∧
      ⋃ b ∈ {b | IsBlock b ∧ b < Word.limit64}, territory b = Set.Ico blockSize Word.limit64 := by
  refine ⟨fun _ _ => containing_eq_error_iff, ?_, ?_, pairwiseDisjoint_territory, iUnion_territory⟩
  · intro sp hsp
    obtain ⟨b, hb⟩ := exists_containing hsp
    refine ⟨b, hb, containing_eq_ok_iff.mp hb, fun c hc hle hlt => ?_⟩
    have hsame : containing sp = .ok c := containing_eq_ok_iff.mpr ⟨hc, hle, hlt⟩
    exact Except.ok.inj (hsame.symm.trans hb)
  · intro b hb hroom
    have htop := hb.initialStackPointer_eq_ok hroom
    have hhome := hb.containing_initialStackPointer htop
    have hvalue : b + blockSize - 8 = b + 4088 := by
      simp only [blockSize]
      omega
    have hmod : (b + 4088) % 8 = 0 := by
      have haligned := hb.2
      simp only [blockSize] at haligned
      omega
    rw [hvalue] at htop hhome
    exact ⟨_, htop, hmod, Nat.lt_add_of_pos_right (by decide), Nat.le_refl _, hhome⟩

/-- The last address of all, which lies in the last block, the last one below the first block, and
two neighbours. -/
theorem found_from_stack_sample :
    blockSize ≤ 0xffffffffffffffff ∧ containing 0xffffffffffffffff = .ok 0xfffffffffffff000 ∧
      containing 0xfff = .error (.outsideBlocks 0xfff) ∧
      IsBlock 0x40001000 ∧ IsBlock 0x40002000 ∧ 0x40001000 + blockSize < Word.limit64 ∧
      initialStackPointer 0x40001000 = .ok 0x40001ff8 ∧
      containing 0x40001ff8 = .ok 0x40001000 ∧
      Disjoint (territory 0x40001000) (territory 0x40002000) := by
  obtain ⟨hnowhere, hfound, hstart, hapart, -⟩ := found_from_stack
  have hhigh : blockSize ≤ 0xffffffffffffffff := by decide
  have hlast : IsBlock 0xfffffffffffff000 := by decide
  have hb : IsBlock 0x40001000 := by decide
  have hc : IsBlock 0x40002000 := by decide
  have hroom : 0x40001000 + blockSize < Word.limit64 := by decide
  obtain ⟨b, hsp, -, hunique⟩ := hfound 0xffffffffffffffff hhigh
  obtain rfl := hunique 0xfffffffffffff000 hlast (by decide) (by decide)
  obtain ⟨top, htop, -, -, -, hcontaining⟩ := hstart 0x40001000 hb hroom
  have hvalue : initialStackPointer 0x40001000 = .ok 0x40001ff8 := by decide
  cases hvalue.symm.trans htop
  exact ⟨hhigh, hsp, (hnowhere _ _).mpr ⟨by decide, rfl⟩, hb, hc, hroom, htop, hcontaining,
    hapart hb hc (by decide)⟩

/-- The last block has no end that a word could hold. -/
example : initialStackPointer 0xfffffffffffff000 = .error .addOverflow := by decide

end RoundRobin.Block
