import Mathlib.Data.List.Nodup
import RoundRobin.Pool
import RoundRobin.Proofs.Thread.StackAddress

/-!
# Slots of the block pool

What `Pool.alloc` and `Pool.free` do to the set of blocks in use, for a pool whose blocks are
aligned and lie in the address space. Blocks are counted in words: handing out stops the system
where the count would overflow, and taking back never comes that far while the books balance.
-/

namespace RoundRobin.Pool

open Config

variable {p q : Pool} {a k : Nat}

/-- The blocks are aligned, none is block zero, and none reaches over the address space. -/
structure Placed (p : Pool) : Prop where
  base_pos : 0 < p.base
  aligned : p.base % blockSize = 0
  fits : p.base + p.capacity * blockSize ≤ Word.limit64

theorem mem_blocksInUse :
    a ∈ p.blocksInUse ↔ ∃ k, p.busy[k]? = some true ∧ p.slotAddress k = a := by
  simp only [blocksInUse, List.mem_map, List.mem_filter]
  constructor
  · rintro ⟨⟨busy, k⟩, ⟨hk, hbusy⟩, rfl⟩
    subst hbusy
    exact ⟨k, List.mem_zipIdx_iff_getElem?.mp hk, rfl⟩
  · rintro ⟨k, hk, rfl⟩
    exact ⟨(true, k), ⟨List.mem_zipIdx_iff_getElem?.mpr hk, rfl⟩, rfl⟩

theorem slotAddress_injective (p : Pool) : Function.Injective p.slotAddress := by
  intro j k h
  simp only [slotAddress, blockSize] at h
  omega

theorem nodup_blocksInUse (p : Pool) : p.blocksInUse.Nodup := by
  have hslots : (p.busy.zipIdx.filter (·.1)).Pairwise fun x y => x.2 ≠ y.2 := by
    apply List.Pairwise.filter
    rw [← List.pairwise_map, List.zipIdx_map_snd]
    exact List.nodup_range'
  rw [blocksInUse, List.Nodup, List.pairwise_map]
  exact hslots.imp fun h heq => h (p.slotAddress_injective heq)

theorem length_blocksInUse (p : Pool) : p.blocksInUse.length = p.inUse := by
  have hcount : ∀ (busy : List Bool) (n : Nat),
      ((busy.zipIdx n).filter (·.1)).length = busy.count true := by
    intro busy
    induction busy with
    | nil => simp
    | cons first rest ih =>
        intro n
        cases first <;> simp [List.zipIdx_cons, ih]
  simp [blocksInUse, inUse, hcount]

/-- The pool with slot `k` handed out. -/
def occupied (p : Pool) (k : Nat) : Pool :=
  { p with busy := p.busy.set k true, allocs := p.allocs + 1 }

/-- The pool with slot `k` taken back. -/
def vacated (p : Pool) (k : Nat) : Pool :=
  { p with busy := p.busy.set k false, frees := p.frees + 1 }

section

variable {β : Type} [Zeroed β] {mem mem' : Memory β}

theorem alloc_of_full (h : p.freeSlot? = none) : p.alloc mem = .ok none := by
  rw [alloc, h]
  rfl

/-- A free slot is handed out unless its block cannot be counted any more. -/
theorem alloc_of_free (h : p.freeSlot? = some k) :
    p.alloc mem =
      if p.allocs + 1 < Word.limit64 then
        .ok (some (p.slotAddress k, p.occupied k, mem.set (p.slotAddress k) Zeroed.zeroed))
      else .error .addOverflow := by
  rw [alloc, h, Word.add]
  by_cases hroom : p.allocs + 1 < Word.limit64
  · simp only [if_pos hroom]
    rfl
  · simp only [if_neg hroom]
    rfl

theorem alloc_eq_some_iff :
    p.alloc mem = .ok (some (a, q, mem')) ↔
      ∃ k, p.freeSlot? = some k ∧ p.allocs + 1 < Word.limit64 ∧ p.slotAddress k = a ∧
        p.occupied k = q ∧ mem.set a Zeroed.zeroed = mem' := by
  cases hslot : p.freeSlot? with
  | none => simp [alloc_of_full hslot]
  | some j =>
      rw [alloc_of_free hslot]
      by_cases hroom : p.allocs + 1 < Word.limit64
      · simp only [if_pos hroom, Except.ok.injEq, Option.some.injEq, Prod.mk.injEq]
        constructor
        · rintro ⟨rfl, rfl, rfl⟩
          exact ⟨j, rfl, hroom, rfl, rfl, rfl⟩
        · rintro ⟨_, rfl, -, rfl, rfl, rfl⟩
          exact ⟨rfl, rfl, rfl⟩
      · simp [hroom]

end

theorem busy_of_freeSlot? (h : p.freeSlot? = some k) : p.busy[k]? = some false := by
  obtain ⟨hk, hfree, -⟩ := List.findIdx?_eq_some_iff_getElem.mp h
  rw [List.getElem?_eq_getElem hk]
  simpa using hfree

theorem lt_capacity_of_busy {b : Bool} (h : p.busy[k]? = some b) : k < p.capacity :=
  (List.getElem?_eq_some_iff.mp h).1

theorem freeSlot?_eq_none_iff : p.freeSlot? = none ↔ p.inUse = p.capacity := by
  rw [freeSlot?, inUse, capacity, List.findIdx?_eq_none_iff, List.count_eq_length]
  simp

/-- The slot that is handed out next is the lowest one that is not in use. -/
theorem freeSlot?_eq_some_iff :
    p.freeSlot? = some k ↔ p.busy[k]? = some false ∧ ∀ j < k, p.busy[j]? = some true := by
  rw [freeSlot?, List.findIdx?_eq_some_iff_getElem]
  constructor
  · rintro ⟨hk, hfree, hbelow⟩
    refine ⟨?_, fun j hj => ?_⟩
    · rw [List.getElem?_eq_getElem hk]
      simpa using hfree
    · rw [List.getElem?_eq_getElem (Nat.lt_trans hj hk)]
      simpa using hbelow j hj
  · rintro ⟨hfree, hbelow⟩
    obtain ⟨hk, hvalue⟩ := List.getElem?_eq_some_iff.mp hfree
    refine ⟨hk, by simpa using hvalue, fun j hj => ?_⟩
    obtain ⟨hj', hused⟩ := List.getElem?_eq_some_iff.mp (hbelow j hj)
    simpa using hused

theorem alloc_eq_none_iff {β : Type} [Zeroed β] {mem : Memory β} :
    p.alloc mem = .ok none ↔ p.inUse = p.capacity := by
  rw [← freeSlot?_eq_none_iff]
  cases hslot : p.freeSlot? with
  | none => simp [alloc_of_full hslot]
  | some k =>
      rw [alloc_of_free hslot]
      split <;> simp

/-- The count of blocks handed out is the one thing that can stop the system here. -/
theorem alloc_eq_error_iff {β : Type} [Zeroed β] {mem : Memory β} {cause : Halt} :
    p.alloc mem = .error cause ↔
      p.inUse ≠ p.capacity ∧ Word.limit64 ≤ p.allocs + 1 ∧ cause = .addOverflow := by
  rw [← Nat.not_lt, ne_eq, ← freeSlot?_eq_none_iff]
  cases hslot : p.freeSlot? with
  | none => simp [alloc_of_full hslot]
  | some k =>
      rw [alloc_of_free hslot]
      split
      · next hroom => simp [hroom]
      · next hroom => simp [hroom, eq_comm]

theorem notMem_blocksInUse_of_free (h : p.busy[k]? = some false) :
    p.slotAddress k ∉ p.blocksInUse := by
  rw [mem_blocksInUse]
  rintro ⟨j, hj, heq⟩
  cases p.slotAddress_injective heq
  simp [h] at hj

theorem mem_blocksInUse_occupied (hk : k < p.capacity) :
    a ∈ (p.occupied k).blocksInUse ↔ a = p.slotAddress k ∨ a ∈ p.blocksInUse := by
  change k < p.busy.length at hk
  simp only [mem_blocksInUse, occupied, List.getElem?_set]
  constructor
  · rintro ⟨j, hj, rfl⟩
    by_cases hkj : k = j
    · exact Or.inl (by rw [hkj]; rfl)
    · exact Or.inr ⟨j, by simpa [hkj] using hj, rfl⟩
  · rintro (rfl | ⟨j, hj, rfl⟩)
    · exact ⟨k, by simp [hk], rfl⟩
    · refine ⟨j, ?_, rfl⟩
      by_cases hkj : k = j
      · subst hkj
        simp [hk]
      · simpa [hkj] using hj

theorem mem_blocksInUse_vacated (p : Pool) (k a : Nat) :
    a ∈ (p.vacated k).blocksInUse ↔ a ∈ p.blocksInUse ∧ a ≠ p.slotAddress k := by
  simp only [mem_blocksInUse, vacated, List.getElem?_set]
  constructor
  · rintro ⟨j, hj, rfl⟩
    by_cases hkj : k = j
    · simp [hkj] at hj
    · exact ⟨⟨j, by simpa [hkj] using hj, rfl⟩,
        fun heq => hkj (p.slotAddress_injective heq).symm⟩
  · rintro ⟨⟨j, hj, rfl⟩, hne⟩
    have hkj : k ≠ j := fun heq => hne (by rw [heq])
    exact ⟨j, by simpa [hkj] using hj, rfl⟩

theorem perm_blocksInUse_occupied (h : p.busy[k]? = some false) :
    (p.occupied k).blocksInUse.Perm (p.slotAddress k :: p.blocksInUse) := by
  have hnodup : (p.slotAddress k :: p.blocksInUse).Nodup :=
    List.nodup_cons.mpr ⟨notMem_blocksInUse_of_free h, p.nodup_blocksInUse⟩
  rw [List.perm_ext_iff_of_nodup (nodup_blocksInUse _) hnodup]
  intro a
  rw [mem_blocksInUse_occupied (lt_capacity_of_busy h), List.mem_cons]

theorem perm_blocksInUse_vacated (h : p.busy[k]? = some true) :
    p.blocksInUse.Perm (p.slotAddress k :: (p.vacated k).blocksInUse) := by
  have hnodup : (p.slotAddress k :: (p.vacated k).blocksInUse).Nodup :=
    List.nodup_cons.mpr ⟨fun hmem => ((mem_blocksInUse_vacated _ _ _).mp hmem).2 rfl,
      nodup_blocksInUse _⟩
  rw [List.perm_ext_iff_of_nodup p.nodup_blocksInUse hnodup]
  intro a
  rw [List.mem_cons, mem_blocksInUse_vacated]
  constructor
  · intro ha
    by_cases heq : a = p.slotAddress k
    · exact Or.inl heq
    · exact Or.inr ⟨ha, heq⟩
  · rintro (rfl | ⟨ha, -⟩)
    · exact mem_blocksInUse.mpr ⟨k, h, rfl⟩
    · exact ha

theorem inUse_occupied (h : p.busy[k]? = some false) :
    (p.occupied k).inUse = p.inUse + 1 := by
  obtain ⟨hk, hfree⟩ := List.getElem?_eq_some_iff.mp h
  simp [inUse, occupied, List.count_set hk, hfree]

theorem inUse_vacated (h : p.busy[k]? = some true) :
    (p.vacated k).inUse + 1 = p.inUse := by
  obtain ⟨hk, hused⟩ := List.getElem?_eq_some_iff.mp h
  have hpos : 0 < p.busy.count true :=
    List.count_pos_iff.mpr (hused ▸ List.getElem_mem hk)
  simp only [inUse, vacated, List.count_set hk, hused]
  simp only [beq_self_eq_true, if_true, Bool.false_eq_true, if_false, beq_iff_eq]
  omega

/-- The blocks in use are those that were handed out and not taken back, and their number is a
word. -/
structure Balanced (p : Pool) : Prop where
  balance : p.inUse + p.frees = p.allocs
  allocs_lt : p.allocs < Word.limit64

theorem balanced_new (base n : Nat) : (new base n).Balanced :=
  ⟨by simp [inUse, new, List.count_replicate], by simp [new]⟩

theorem Balanced.occupied (h : p.Balanced) (hk : p.busy[k]? = some false)
    (hroom : p.allocs + 1 < Word.limit64) : (p.occupied k).Balanced := by
  refine ⟨?_, hroom⟩
  have hbalance := h.balance
  have huse := inUse_occupied hk
  change (p.occupied k).inUse + p.frees = p.allocs + 1
  omega

theorem Balanced.vacated (h : p.Balanced) (hk : p.busy[k]? = some true) :
    (p.vacated k).Balanced := by
  refine ⟨?_, h.allocs_lt⟩
  have hbalance := h.balance
  have huse := inUse_vacated hk
  change (p.vacated k).inUse + (p.frees + 1) = p.allocs
  omega

/-- A block that is in use has been handed out and not taken back, so there is room to count it. -/
theorem Balanced.frees_lt (h : p.Balanced) (hk : p.busy[k]? = some true) :
    p.frees + 1 < Word.limit64 := by
  have hbalance := h.balance
  have hallocs := h.allocs_lt
  have huse := inUse_vacated hk
  omega

theorem Placed.occupied (h : p.Placed) (k : Nat) : (p.occupied k).Placed :=
  ⟨h.base_pos, h.aligned, by simpa [Pool.occupied, capacity] using h.fits⟩

theorem Placed.vacated (h : p.Placed) (k : Nat) : (p.vacated k).Placed :=
  ⟨h.base_pos, h.aligned, by simpa [Pool.vacated, capacity] using h.fits⟩

theorem Placed.isBlock (h : p.Placed) (k : Nat) : Block.IsBlock (p.slotAddress k) := by
  have hpos := h.base_pos
  have hmod := h.aligned
  simp only [Block.IsBlock, slotAddress, blockSize] at *
  omega

theorem slotOf_of (h : p.offset a < p.capacity * blockSize ∧ p.offset a % blockSize = 0) :
    p.slotOf a = .ok (p.offset a / blockSize) := by
  rw [slotOf, require, if_pos h]
  simp only [bind, Except.bind, pure, Except.pure]

theorem slotOf_of_not (h : ¬ (p.offset a < p.capacity * blockSize ∧ p.offset a % blockSize = 0)) :
    p.slotOf a = .error (.notFromPool a) := by
  rw [slotOf, require, if_neg h]
  simp only [bind, Except.bind]

theorem free_of_slotOf (hslot : p.slotOf a = .ok k) (hk : p.busy[k]? = some true) :
    p.free a = if p.frees + 1 < Word.limit64 then .ok (p.vacated k) else .error .addOverflow := by
  rw [free, hslot, Word.add]
  simp only [bind, Except.bind, require, hk, if_true]
  by_cases hroom : p.frees + 1 < Word.limit64
  · simp only [if_pos hroom]
    rfl
  · simp only [if_neg hroom]

namespace Placed

theorem offset_slotAddress (h : p.Placed) (hk : k < p.capacity) :
    p.offset (p.slotAddress k) = k * blockSize := by
  have hsize : k * blockSize < Word.limit64 := by
    have hfits := h.fits
    have hpos := h.base_pos
    simp only [blockSize] at *
    omega
  calc
    p.offset (p.slotAddress k) = (k * blockSize + Word.limit64) % Word.limit64 := by
      rw [offset, slotAddress, Nat.add_assoc, Nat.add_sub_cancel_left]
    _ = k * blockSize := by rw [Nat.add_mod_right, Nat.mod_eq_of_lt hsize]

theorem slotOf_slotAddress (h : p.Placed) (hk : k < p.capacity) :
    p.slotOf (p.slotAddress k) = .ok k := by
  have hoffset := h.offset_slotAddress hk
  rw [slotOf_of, hoffset]
  · exact congrArg _ (Nat.mul_div_cancel k (by decide))
  · rw [hoffset]
    exact ⟨(Nat.mul_lt_mul_right (by decide)).mpr hk, Nat.mul_mod_left k blockSize⟩

/-- Distances wrap around the end of the address space, but no address below the pool comes so
close to it from above. -/
theorem exists_slot (h : p.Placed) (ha : a < Word.limit64)
    (hoffset : p.offset a < p.capacity * blockSize ∧ p.offset a % blockSize = 0) :
    ∃ k < p.capacity, p.slotAddress k = a := by
  have hfits := h.fits
  simp only [offset, blockSize, Word.limit64] at *
  by_cases hbelow : a < p.base
  · rw [Nat.mod_eq_of_lt (by omega)] at hoffset
    omega
  · have hdistance : (a + 18446744073709551616 - p.base) % 18446744073709551616 = a - p.base := by
      omega
    rw [hdistance] at hoffset
    refine ⟨(a - p.base) / 4096, by omega, ?_⟩
    simp only [slotAddress, blockSize]
    omega

/-- A block in use is taken back, and nothing else happens. -/
theorem free_slotAddress (h : p.Placed) (hk : p.busy[k]? = some true)
    (hroom : p.frees + 1 < Word.limit64) : p.free (p.slotAddress k) = .ok (p.vacated k) := by
  rw [free_of_slotOf (h.slotOf_slotAddress (lt_capacity_of_busy hk)) hk, if_pos hroom]

/-- Who sees a block taken back knows that it could be counted. -/
theorem vacated_of_free (h : p.Placed) (hk : p.busy[k]? = some true)
    (hfree : p.free (p.slotAddress k) = .ok q) :
    p.frees + 1 < Word.limit64 ∧ p.vacated k = q := by
  rw [free_of_slotOf (h.slotOf_slotAddress (lt_capacity_of_busy hk)) hk] at hfree
  split at hfree
  · next hroom => exact ⟨hroom, Except.ok.inj hfree⟩
  · cases hfree

/-- A block that is not in use cannot be taken back. -/
theorem free_of_free (h : p.Placed) (hk : p.busy[k]? = some false) :
    p.free (p.slotAddress k) = .error (.doubleFree (p.slotAddress k)) := by
  rw [free, h.slotOf_slotAddress (lt_capacity_of_busy hk)]
  simp [require, hk, bind, Except.bind]

/-- Nothing but the address of a block can be taken back. -/
theorem free_of_stranger (h : p.Placed) (ha : a < Word.limit64)
    (hstranger : ∀ k < p.capacity, p.slotAddress k ≠ a) :
    p.free a = .error (.notFromPool a) := by
  rw [free, slotOf_of_not]
  · rfl
  · intro hoffset
    obtain ⟨k, hk, hslot⟩ := h.exists_slot ha hoffset
    exact hstranger k hk hslot

theorem free_eq_ok_iff (h : p.Placed) (ha : a < Word.limit64) :
    p.free a = .ok q ↔ ∃ k, p.busy[k]? = some true ∧ p.slotAddress k = a ∧
      p.frees + 1 < Word.limit64 ∧ p.vacated k = q := by
  constructor
  · intro hfree
    by_cases hstranger : ∀ k < p.capacity, p.slotAddress k ≠ a
    · rw [h.free_of_stranger ha hstranger] at hfree
      cases hfree
    · push Not at hstranger
      obtain ⟨k, hk, rfl⟩ := hstranger
      cases hbusy : p.busy[k]? with
      | none => exact absurd (List.getElem?_eq_none_iff.mp hbusy) (Nat.not_le.mpr hk)
      | some used =>
          cases used with
          | false =>
              rw [h.free_of_free hbusy] at hfree
              cases hfree
          | true => exact ⟨k, hbusy, rfl, h.vacated_of_free hbusy hfree⟩
  · rintro ⟨k, hk, rfl, hroom, rfl⟩
    exact h.free_slotAddress hk hroom

end Placed

end RoundRobin.Pool
