import RoundRobin.Board.Frame

/-!
# Preemption frames unwind onto the interrupted frame

Whatever the alignment of the stack and of the interrupted frame, the return from the exception
that ends at a planted frame pops that frame, with the word left free above it if there is one, and
finds the interrupted frame.
-/

namespace RoundRobin

namespace Context

/-- Positions of the status bits that only an exception return restores. -/
def inFlightBits : List Nat :=
  [10, 11, 12, 13, 14, 15, 25, 26]

theorem testBit_inFlight (i : Nat) : inFlight.testBit i = true ↔ i ∈ inFlightBits := by
  have hlow : ∀ i < 27, inFlight.testBit i = true ↔ i ∈ inFlightBits := by decide
  have hbits : ∀ i ∈ inFlightBits, i < 27 := by decide
  by_cases hi : i < 27
  · exact hlow i hi
  · have hzero : inFlight.testBit i = false := by
      apply Nat.testBit_lt_two_pow
      calc inFlight < 2 ^ 27 := by decide
        _ ≤ 2 ^ i := Nat.pow_le_pow_right (by decide) (by omega)
    rw [hzero]
    exact ⟨nofun, fun hmem => absurd (hbits i hmem) hi⟩

theorem and_eq_zero_iff {x mask : Nat} :
    x &&& mask = 0 ↔ ∀ i, mask.testBit i = true → x.testBit i = false := by
  constructor
  · intro hzero i hmask
    have hbit := congrArg (·.testBit i) hzero
    simpa [Nat.testBit_and, hmask] using hbit
  · intro hbits
    apply Nat.eq_of_testBit_eq
    intro i
    rw [Nat.testBit_and, Nat.zero_testBit]
    cases hmask : mask.testBit i with
    | false => exact Bool.and_false _
    | true => rw [hbits i hmask, Bool.false_and]

theorem resumable_iff (xpsr : Nat) :
    resumable xpsr = true ↔ ∀ i ∈ inFlightBits, xpsr.testBit i = false := by
  rw [resumable, beq_iff_eq, and_eq_zero_iff]
  simp only [testBit_inFlight]

end Context

namespace Frame

open Context

variable {mem mem₁ mem' : Memory Nat} {entry psp base p : Nat}

/-- Bytes left free above a frame. -/
def padding (f : Frame) : Nat :=
  if f.xpsr.testBit 9 then 4 else 0

/-- The stack pointer after a return from an exception with the frame at `p`. -/
def unwound (mem : Memory Nat) (p : Nat) : Nat :=
  p + size + (load mem p).padding

theorem padding_cases (f : Frame) :
    (f.xpsr.testBit 9 = false ∧ f.padding = 0) ∨ (f.xpsr.testBit 9 = true ∧ f.padding = 4) := by
  rw [padding]
  cases f.xpsr.testBit 9 with
  | false => exact Or.inl ⟨rfl, rfl⟩
  | true => exact Or.inr ⟨rfl, rfl⟩

theorem and_padded (xpsr : Nat) : xpsr &&& padded = 0 ↔ xpsr.testBit 9 = false := by
  have hpow : padded = 2 ^ 9 := by decide
  rw [and_eq_zero_iff, hpow]
  constructor
  · exact fun h => h 9 (Nat.testBit_two_pow_self)
  · intro h i hi
    rw [Nat.testBit_two_pow, decide_eq_true_iff] at hi
    rw [← hi]
    exact h

/-- Only the words of the frame at `p` are different. -/
def WritesAt (p : Nat) (mem mem' : Memory Nat) : Prop :=
  ∀ a, a < p ∨ p + size ≤ a → mem'.get a = mem.get a

theorem writesAt_store (mem : Memory Nat) (p : Nat) (f : Frame) :
    WritesAt p mem (store mem p f) :=
  fun _ ha => get_store f ha

/-- The interrupted frame ends up at the stack pointer of the interrupted code. -/
theorem slide_spec (mem : Memory Nat) (hhigh : psp + 4 < Word.limit32) :
    ∃ mem₁, slide psp mem = .ok (psp + (load mem psp).padding, mem₁) ∧
      load mem₁ (psp + (load mem psp).padding) = load mem psp ∧
      WritesAt (psp + (load mem psp).padding) mem mem₁ := by
  rcases padding_cases (load mem psp) with ⟨hbit, hpadding⟩ | ⟨hbit, hpadding⟩
  · rw [hpadding, Nat.add_zero, slide, if_pos ((and_padded _).mpr hbit)]
    exact ⟨mem, rfl, rfl, fun _ _ => rfl⟩
  · have hset : ¬ (load mem psp).xpsr &&& padded = 0 := by
      rw [and_padded, hbit]
      exact nofun
    have hadd : Word.add Word.limit32 psp 4 = .ok (psp + 4) :=
      Word.add_eq_ok_iff.mpr ⟨hhigh, rfl⟩
    rw [hpadding, slide, if_neg hset, hadd]
    exact ⟨_, rfl, load_store mem (psp + 4) _, writesAt_store mem (psp + 4) _⟩

/-- A planted frame. -/
structure Planted (entry p : Nat) (mem : Memory Nat) : Prop where
  aligned : p % 8 = 0
  thumb : (load mem p).xpsr.testBit 24 = true
  clear : ∀ i ∈ inFlightBits, (load mem p).xpsr.testBit i = false
  resumable : Context.resumable (load mem p).xpsr = true
  even : (load mem p).pc % 2 = 0
  returns : (load mem p).pc + entry % 2 = entry

theorem planted_store {xpsr : Nat} (hxpsr : xpsr ∈ [thumb, thumb ||| padded])
    (haligned : p % 8 = 0) : Planted entry p (store mem p { pc := entry / 2 * 2, xpsr }) := by
  have hbits : xpsr.testBit 24 = true ∧ Context.resumable xpsr = true := by
    simp only [List.mem_cons, List.not_mem_nil, or_false] at hxpsr
    rcases hxpsr with rfl | rfl <;> decide
  constructor
  · exact haligned
  all_goals rw [load_store]
  · exact hbits.1
  · exact (resumable_iff xpsr).mp hbits.2
  · exact hbits.2
  · change entry / 2 * 2 % 2 = 0
    omega
  · change entry / 2 * 2 + entry % 2 = entry
    omega

theorem unwound_store (mem : Memory Nat) (p : Nat) (f : Frame) :
    unwound (store mem p f) p = p + size + f.padding := by
  rw [unwound, load_store]

theorem padding_thumb (pc : Nat) : ({ pc, xpsr := thumb } : Frame).padding = 0 := by
  have hbit : thumb.testBit 9 = false := by decide
  rw [padding, hbit]
  rfl

theorem padding_padded (pc : Nat) : ({ pc, xpsr := thumb ||| padded } : Frame).padding = 4 := by
  have hbit : (thumb ||| padded).testBit 9 = true := by decide
  rw [padding, hbit]
  rfl

/-- A frame is planted so that it unwinds to `base`. -/
theorem plant_spec (entry : Nat) (mem : Memory Nat) (haligned : base % 4 = 0) (hlow : 36 ≤ base) :
    ∃ p mem₁, plant entry base mem = .ok (p, mem₁) ∧ Planted entry p mem₁ ∧
      unwound mem₁ p = base ∧ WritesAt p mem mem₁ := by
  have hbelow : Word.sub base size = .ok (base - size) :=
    Word.sub_eq_ok_iff.mpr ⟨by simp only [size]; omega, rfl⟩
  by_cases height : base % 8 = 0
  · have hxpsr : thumb ∈ [thumb, thumb ||| padded] := by decide
    refine ⟨base - size, _, ?_, planted_store hxpsr ?_, ?_, writesAt_store mem _ _⟩
    · rw [plant, hbelow]
      exact if_pos height
    · simp only [size]
      omega
    · rw [unwound_store, padding_thumb]
      simp only [size]
      omega
  · have hplanted : Word.sub (base - size) 4 = .ok (base - size - 4) :=
      Word.sub_eq_ok_iff.mpr ⟨by simp only [size]; omega, rfl⟩
    have hxpsr : thumb ||| padded ∈ [thumb, thumb ||| padded] := by decide
    refine ⟨base - size - 4, _, ?_, planted_store hxpsr ?_, ?_, writesAt_store mem _ _⟩
    · rw [plant, hbelow]
      refine (if_neg height).trans ?_
      rw [hplanted]
      rfl
    · simp only [size]
      omega
    · rw [unwound_store, padding_padded]
      simp only [size]
      omega

/-- The code interrupted with its frame at `psp` has been redirected to `entry`, by a frame planted
at `p`. -/
structure Redirected (entry psp : Nat) (mem : Memory Nat) (p : Nat) (mem' : Memory Nat) : Prop
    extends Planted entry p mem' where
  /-- The planted frame unwinds to the place of the interrupted one. -/
  lands : unwound mem' p = psp + (load mem psp).padding
  /-- There the registers of the interrupted code are found. -/
  interrupted : load mem' (psp + (load mem psp).padding) = load mem psp
  /-- Popping them leaves the stack pointer of the interrupted code. -/
  leaves : psp + (load mem psp).padding + size = unwound mem psp
  /-- An interrupted frame that is aligned to eight bytes has the planted one right below it. -/
  adjacent : psp % 8 = 0 →
    p = psp - 32 ∧ (load mem' p).xpsr.testBit 9 = (load mem psp).xpsr.testBit 9
  /-- No other word of the stack is written. -/
  untouched : ∀ a, (a < p ∨ p + size ≤ a) →
    (a < psp + (load mem psp).padding ∨ psp + (load mem psp).padding + size ≤ a) →
      mem'.get a = mem.get a

/-- A frame that unwinds to the place of an aligned one lies right below it. -/
theorem adjacent_of_unwound {f : Frame} (hp : p % 8 = 0) (hpsp : psp % 8 = 0)
    (hlands : unwound mem p = psp + f.padding) :
    p = psp - 32 ∧ (load mem p).xpsr.testBit 9 = f.xpsr.testBit 9 := by
  simp only [unwound, size] at hlands
  rcases padding_cases (load mem p) with ⟨hbit, hpad⟩ | ⟨hbit, hpad⟩ <;>
    rcases padding_cases f with ⟨hbit', hpad'⟩ | ⟨hbit', hpad'⟩ <;>
    rw [hpad, hpad'] at hlands
  · exact ⟨by omega, hbit.trans hbit'.symm⟩
  · omega
  · omega
  · exact ⟨by omega, hbit.trans hbit'.symm⟩

theorem inject_of_resumable (haligned : psp % 4 = 0) (hlow : 64 ≤ psp)
    (hhigh : psp + 4 < Word.limit32) (hresumable : Context.resumable (load mem psp).xpsr = true) :
    ∃ p mem', inject entry psp mem = .ok (p, mem') ∧ Redirected entry psp mem p mem' := by
  obtain ⟨mem₁, hslide, hmoved, hwrites₁⟩ := slide_spec mem hhigh
  have hbase : (psp + (load mem psp).padding) % 4 = 0 ∧ 36 ≤ psp + (load mem psp).padding := by
    obtain ⟨-, hpad⟩ | ⟨-, hpad⟩ := padding_cases (load mem psp) <;> omega
  obtain ⟨p, mem', hplant, hplanted, hlands, hwrites⟩ :=
    plant_spec entry mem₁ hbase.1 hbase.2
  refine ⟨p, mem', ?_, {
    toPlanted := hplanted
    lands := hlands
    interrupted := ?_
    leaves := ?_
    adjacent := fun hpsp => adjacent_of_unwound hplanted.aligned hpsp hlands
    untouched := fun a hp hpsp => (hwrites a hp).trans (hwrites₁ a hpsp) }⟩
  · rw [inject, if_pos hresumable, hslide]
    exact hplant
  · refine (load_congr fun b hb _ => hwrites b (Or.inr ?_)).trans hmoved
    rw [← hlands, unwound] at hb
    omega
  · rw [unwound]
    omega

/-- On a yield request, code in the middle of a conditional block or of a multi-register transfer
is left alone. Any other code is redirected, wherever its stack pointer is and whether or not its
frame is padded. -/
theorem inject_unwinds (entry : Nat) (mem : Memory Nat) (haligned : psp % 4 = 0) (hlow : 64 ≤ psp)
    (hhigh : psp + 4 < Word.limit32) :
    ((∃ i ∈ inFlightBits, (load mem psp).xpsr.testBit i = true) →
      inject entry psp mem = .ok (psp, mem)) ∧
    ((∀ i ∈ inFlightBits, (load mem psp).xpsr.testBit i = false) →
      ∃ p mem', inject entry psp mem = .ok (p, mem') ∧ Redirected entry psp mem p mem') := by
  constructor
  · rintro ⟨i, hi, hbit⟩
    have hnot : ¬ Context.resumable (load mem psp).xpsr = true := by
      rw [resumable_iff]
      intro hclear
      rw [hclear i hi] at hbit
      cases hbit
    rw [inject, if_neg hnot]
    rfl
  · intro hclear
    exact inject_of_resumable haligned hlow hhigh ((resumable_iff _).mpr hclear)

/-- A stack with a padded frame at its lower end. -/
def stackSample (xpsr : Nat) : Memory Nat :=
  store {} 0x20001000 { r0 := 5, r12 := 12, lr := 0x08000401, pc := 0x08000404, xpsr }

theorem inject_unwinds_sample :
    0x20001000 % 4 = 0 ∧ 64 ≤ 0x20001000 ∧ 0x20001000 + 4 < Word.limit32 ∧
      inject landing 0x20001000 (stackSample 0x01000e00) =
        .ok (0x20001000, stackSample 0x01000e00) ∧
      ∃ p mem', inject landing 0x20001000 (stackSample 0x61000200) = .ok (p, mem') ∧
        p = 0x20000fe0 ∧ load mem' p = { pc := 0x08000700, xpsr := 0x01000200 } ∧
        load mem' 0x20001004 = load (stackSample 0x61000200) 0x20001000 ∧
        Redirected landing 0x20001000 (stackSample 0x61000200) p mem' := by
  have haligned : 0x20001000 % 4 = 0 := by decide
  have hlow : 64 ≤ 0x20001000 := by decide
  have hhigh : 0x20001000 + 4 < Word.limit32 := by decide
  have hspec := fun mem => inject_unwinds landing mem haligned hlow hhigh
  obtain ⟨p, mem', hinject, hredirected⟩ := (hspec (stackSample 0x61000200)).2 (by decide)
  have hdone : ∃ mem', inject landing 0x20001000 (stackSample 0x61000200) =
      .ok (0x20000fe0, mem') ∧ load mem' 0x20000fe0 = { pc := 0x08000700, xpsr := 0x01000200 } :=
    ⟨_, rfl, by decide⟩
  obtain ⟨_, hevaluated, hplanted⟩ := hdone
  cases hevaluated.symm.trans hinject
  exact ⟨haligned, hlow, hhigh, (hspec _).1 ⟨10, by decide, by decide⟩, _, _, hinject, rfl,
    hplanted, hredirected.interrupted, hredirected⟩

end Frame

end RoundRobin
