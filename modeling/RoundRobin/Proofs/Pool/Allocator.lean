import RoundRobin.Pool.Session
import RoundRobin.Proofs.Pool.Slots

/-!
# The pool as an allocator

The pool with its memory taken byte by byte, used in any order by owners who may write anywhere.
Whatever they do, a block has one owner at a time, is handed out zeroed and without harm to others,
and is taken back only from its owner.
-/

namespace RoundRobin

open Config

namespace Page

theorem peek_zeroed (offset : Fin blockSize) : (Zeroed.zeroed : Page).peek offset = 0 := by
  change (Vector.replicate blockSize (0 : UInt8))[offset] = 0
  exact Vector.getElem_replicate offset.isLt

theorem peek_poke (p : Page) (i j : Fin blockSize) (byte : UInt8) :
    (p.poke i byte).peek j = if i = j then byte else p.peek j := by
  change (p.bytes.set i byte)[j.val] = if i = j then byte else p.bytes[j.val]
  rw [Vector.getElem_set]
  simp only [Fin.ext_iff]

end Page

namespace Block

theorem eq_of_base_eq {x y : Nat} (hbase : base x = base y)
    (hoffset : x % blockSize = y % blockSize) : x = y := by
  simp only [base, blockSize] at *
  omega

end Block

namespace Pool

/-- A pool and the memory that its blocks are part of. -/
structure Arena where
  pool : Pool
  memory : Memory Page

namespace Arena

variable {s s' s₀ : Arena} {a b k n base x y : Nat}

/-- The byte at the address `x`. -/
def byteAt (s : Arena) (x : Nat) : UInt8 :=
  (s.memory.get (Block.base x)).peek ⟨x % blockSize, Nat.mod_lt x (by decide)⟩

/-- Ask for a block. -/
def alloc (s : Arena) : Except Halt (Option Nat × Arena) := do
  match ← s.pool.alloc s.memory with
  | none => return (none, s)
  | some (block, pool, memory) => return (some block, { pool, memory })

/-- Give the block at `a` back. -/
def free (s : Arena) (a : Nat) : Except Halt Arena := do
  return { s with pool := ← s.pool.free a }

/-- Write a byte to the address `x`. -/
def write (s : Arena) (x : Nat) (byte : UInt8) : Arena :=
  { s with
    memory := s.memory.modify (Block.base x)
      (·.poke ⟨x % blockSize, Nat.mod_lt x (by decide)⟩ byte) }

/-- Something done with an arena, and what came of it. -/
inductive Deed where
  /-- The block `b` was handed out. -/
  | got (b : Nat)
  /-- A block was asked for, and there was none. -/
  | refused
  /-- The block at `a` was taken back. -/
  | freed (a : Nat)
  /-- A byte was written to the address `x`. -/
  | wrote (x : Nat) (byte : UInt8)

/-- What was done with the arena `s₀`, the latest first, and what has become of it. Nothing
halted. -/
inductive History (s₀ : Arena) : List Deed → Arena → Prop
  | start : History s₀ [] s₀
  | alloc {ds : List Deed} {s s' : Arena} {b : Nat} (before : History s₀ ds s)
      (got : s.alloc = .ok (some b, s')) : History s₀ (.got b :: ds) s'
  | refuse {ds : List Deed} {s s' : Arena} (before : History s₀ ds s)
      (refused : s.alloc = .ok (none, s')) : History s₀ (.refused :: ds) s'
  | free {ds : List Deed} {s s' : Arena} {a : Nat} (before : History s₀ ds s)
      (address : a < Word.limit64) (freed : s.free a = .ok s') : History s₀ (.freed a :: ds) s'
  | write {ds : List Deed} {s : Arena} (before : History s₀ ds s) (x : Nat) (byte : UInt8) :
      History s₀ (.wrote x byte :: ds) (s.write x byte)

/-- The blocks that were handed out and not taken back since. -/
def owned : List Deed → List Nat
  | [] => []
  | .got b :: ds => b :: owned ds
  | .freed a :: ds => (owned ds).erase a
  | .refused :: ds => owned ds
  | .wrote _ _ :: ds => owned ds

/-- The blocks that were handed out, as often as they were. -/
def handedOut : List Deed → List Nat
  | [] => []
  | .got b :: ds => b :: handedOut ds
  | _ :: ds => handedOut ds

/-- The blocks that were taken back, as often as they were. -/
def takenBack : List Deed → List Nat
  | [] => []
  | .freed a :: ds => a :: takenBack ds
  | _ :: ds => takenBack ds

/-- A write is seen at its own address and nowhere else. -/
theorem byteAt_write (s : Arena) (x y : Nat) (byte : UInt8) :
    (s.write x byte).byteAt y = if x = y then byte else s.byteAt y := by
  rw [byteAt, write, Memory.get_modify]
  by_cases hbase : Block.base x = Block.base y
  · rw [if_pos hbase, Page.peek_poke, byteAt, ← hbase]
    simp only [Fin.mk.injEq]
    by_cases hoffset : x % blockSize = y % blockSize
    · rw [if_pos hoffset, if_pos (Block.eq_of_base_eq hbase hoffset)]
    · rw [if_neg hoffset, if_neg fun heq => hoffset (by rw [heq])]
  · rw [if_neg hbase, if_neg fun heq => hbase (by rw [heq])]
    rfl

theorem byteAt_zeroed (hs : s'.memory = s.memory.set b Zeroed.zeroed) (hb : b % blockSize = 0)
    (x : Nat) : s'.byteAt x = if b ≤ x ∧ x < b + blockSize then 0 else s.byteAt x := by
  rw [byteAt, hs, Memory.get_set]
  by_cases hbase : b = Block.base x
  · rw [if_pos hbase, if_pos ((Block.base_eq_iff hb).mp hbase.symm), Page.peek_zeroed]
  · rw [if_neg hbase, if_neg fun hin => hbase ((Block.base_eq_iff hb).mpr hin).symm]
    rfl

theorem alloc_eq_some_iff :
    s.alloc = .ok (some b, s') ↔ ∃ k, s.pool.freeSlot? = some k ∧
      s.pool.allocs + 1 < Word.limit64 ∧ s.pool.slotAddress k = b ∧
      s' = ⟨s.pool.occupied k, s.memory.set b Zeroed.zeroed⟩ := by
  simp only [alloc, Except.bind_eq_ok_iff]
  constructor
  · rintro ⟨_ | ⟨block, pool, memory⟩, halloc, hgot⟩
    · cases hgot
    · cases hgot
      obtain ⟨k, hk, hroom, rfl, rfl, rfl⟩ := Pool.alloc_eq_some_iff.mp halloc
      exact ⟨k, hk, hroom, rfl, rfl⟩
  · rintro ⟨k, hk, hroom, rfl, rfl⟩
    exact ⟨_, Pool.alloc_eq_some_iff.mpr ⟨k, hk, hroom, rfl, rfl, rfl⟩, rfl⟩

theorem alloc_eq_none_iff :
    s.alloc = .ok (none, s') ↔ s.pool.inUse = s.pool.capacity ∧ s' = s := by
  simp only [alloc, Except.bind_eq_ok_iff]
  constructor
  · rintro ⟨_ | ⟨block, pool, memory⟩, halloc, hrefused⟩
    · cases hrefused
      exact ⟨Pool.alloc_eq_none_iff.mp halloc, rfl⟩
    · cases hrefused
  · rintro ⟨hfull, rfl⟩
    exact ⟨_, Pool.alloc_eq_none_iff.mpr hfull, rfl⟩

theorem alloc_eq_error {cause : Halt} (h : s.pool.alloc s.memory = .error cause) :
    s.alloc = .error cause := by
  rw [alloc, h]
  rfl

theorem free_eq_ok_iff (hplaced : s.pool.Placed) (hbalanced : s.pool.Balanced)
    (ha : a < Word.limit64) :
    s.free a = .ok s' ↔ ∃ k, s.pool.busy[k]? = some true ∧ s.pool.slotAddress k = a ∧
      s' = { s with pool := s.pool.vacated k } := by
  have hpool : s.free a = .ok s' ↔ ∃ q, s.pool.free a = .ok q ∧ s' = { s with pool := q } := by
    rw [free]
    cases s.pool.free a <;> simp [bind, Except.bind, pure, Except.pure, eq_comm]
  simp only [hpool, hplaced.free_eq_ok_iff ha]
  constructor
  · rintro ⟨_, ⟨k, hk, rfl, -, rfl⟩, rfl⟩
    exact ⟨k, hk, rfl, rfl⟩
  · rintro ⟨k, hk, rfl, rfl⟩
    exact ⟨_, ⟨k, hk, rfl, hbalanced.frees_lt hk, rfl⟩, rfl⟩

theorem free_eq_error {cause : Halt} (h : s.pool.free a = .error cause) :
    s.free a = .error cause := by
  rw [free, h]
  rfl

/-- The arena after the deeds `ds`: where its pool is, who owns its blocks, and what it counted. -/
structure Accounted (base n : Nat) (ds : List Deed) (s : Arena) : Prop where
  placed : s.pool.Placed
  base_eq : s.pool.base = base
  capacity_eq : s.pool.capacity = n
  owned_perm : (owned ds).Perm s.pool.blocksInUse
  balanced : s.pool.Balanced
  allocs_eq : s.pool.allocs = (handedOut ds).length
  frees_eq : s.pool.frees = (takenBack ds).length

namespace Accounted

variable {ds : List Deed}

theorem new (hpos : 0 < base) (haligned : base % blockSize = 0)
    (hfits : base + n * blockSize ≤ Word.limit64) (memory : Memory Page) :
    Accounted base n [] ⟨.new base n, memory⟩ where
  placed := ⟨hpos, haligned, by simpa [Pool.new, capacity] using hfits⟩
  base_eq := rfl
  capacity_eq := by simp [Pool.new, capacity]
  owned_perm := by
    have hempty : (Pool.new base n).blocksInUse = [] := by
      apply List.eq_nil_of_length_eq_zero
      rw [length_blocksInUse]
      simp [inUse, Pool.new, List.count_replicate]
    rw [hempty]
    exact List.Perm.nil
  balanced := balanced_new base n
  allocs_eq := rfl
  frees_eq := rfl

theorem alloc (h : Accounted base n ds s) (hgot : s.alloc = .ok (some b, s')) :
    Accounted base n (.got b :: ds) s' := by
  obtain ⟨k, hslot, hroom, rfl, rfl⟩ := alloc_eq_some_iff.mp hgot
  have hk := busy_of_freeSlot? hslot
  exact {
    placed := h.placed.occupied k
    base_eq := h.base_eq
    capacity_eq := by
      rw [← h.capacity_eq]
      exact List.length_set
    owned_perm := (h.owned_perm.cons _).trans (perm_blocksInUse_occupied hk).symm
    balanced := h.balanced.occupied hk hroom
    allocs_eq := congrArg (· + 1) h.allocs_eq
    frees_eq := h.frees_eq }

theorem free (h : Accounted base n ds s) (ha : a < Word.limit64) (hfreed : s.free a = .ok s') :
    Accounted base n (.freed a :: ds) s' := by
  obtain ⟨k, hk, rfl, rfl⟩ := (free_eq_ok_iff h.placed h.balanced ha).mp hfreed
  exact {
    placed := h.placed.vacated k
    base_eq := h.base_eq
    capacity_eq := by
      rw [← h.capacity_eq]
      exact List.length_set
    owned_perm := by
      have hperm := h.owned_perm.trans (perm_blocksInUse_vacated hk)
      have herase := hperm.erase (s.pool.slotAddress k)
      rw [List.erase_cons_head] at herase
      exact herase
    balanced := h.balanced.vacated hk
    allocs_eq := h.allocs_eq
    frees_eq := congrArg (· + 1) h.frees_eq }

/-- Whatever is done, the books are right after it. -/
theorem of_history (hpos : 0 < base) (haligned : base % blockSize = 0)
    (hfits : base + n * blockSize ≤ Word.limit64) {memory : Memory Page}
    (hhistory : History ⟨.new base n, memory⟩ ds s) : Accounted base n ds s := by
  induction hhistory with
  | start => exact new hpos haligned hfits memory
  | alloc _ hgot ih => exact ih.alloc hgot
  | refuse _ hrefused ih =>
      obtain ⟨-, rfl⟩ := alloc_eq_none_iff.mp hrefused
      exact ⟨ih.placed, ih.base_eq, ih.capacity_eq, ih.owned_perm, ih.balanced, ih.allocs_eq,
        ih.frees_eq⟩
  | free _ ha hfreed ih => exact ih.free ha hfreed
  | write _ x byte ih =>
      exact ⟨ih.placed, ih.base_eq, ih.capacity_eq, ih.owned_perm, ih.balanced, ih.allocs_eq,
        ih.frees_eq⟩

theorem slotAddress_eq (h : Accounted base n ds s) (k : Nat) :
    s.pool.slotAddress k = base + k * blockSize := by
  rw [slotAddress, h.base_eq]

theorem lt_of_busy (h : Accounted base n ds s) {used : Bool} (hk : s.pool.busy[k]? = some used) :
    k < n :=
  h.capacity_eq ▸ lt_capacity_of_busy hk

end Accounted

/-- The block `b` is handed out while the blocks in `held` have owners: it is the lowest block that
is free, it is zeroed, and nothing else happens. -/
structure HandsOut (base n : Nat) (held : List Nat) (s : Arena) (b : Nat) (s' : Arena) : Prop where
  lowest : ∃ k < n, b = base + k * blockSize ∧ s.pool.busy[k]? = some false ∧
    (∀ j < k, s.pool.busy[j]? = some true) ∧ s'.pool = s.pool.occupied k
  unowned : b ∉ held
  zeroed : ∀ x, b ≤ x → x < b + blockSize → s'.byteAt x = 0
  others : ∀ x, ¬ (b ≤ x ∧ x < b + blockSize) → s'.byteAt x = s.byteAt x

/-- What can be relied on after the deeds `ds` with a pool of `n` blocks from `base` on. -/
structure Reliable (base n : Nat) (ds : List Deed) (s : Arena) : Prop where
  balance : s.pool.inUse + s.pool.frees = s.pool.allocs
  inUse_le : s.pool.inUse ≤ n
  counted : s.pool.allocs = (handedOut ds).length ∧ s.pool.frees = (takenBack ds).length
  /-- The blocks in use are those that have an owner, and each has one. -/
  owners : (owned ds).Nodup ∧ (owned ds).Perm s.pool.blocksInUse
  /-- A block is refused exactly if all are in use, and then nothing changes. -/
  refuses : ∀ s', s.alloc = .ok (none, s') ↔ s.pool.inUse = n ∧ s' = s
  /-- Otherwise one is handed out, as long as the number of those handed out is a word. -/
  hands_out : s.pool.inUse ≠ n → (handedOut ds).length + 1 < Word.limit64 →
    ∃ b s', s.alloc = .ok (some b, s') ∧ HandsOut base n (owned ds) s b s'
  overflows : s.pool.inUse ≠ n → Word.limit64 ≤ (handedOut ds).length + 1 →
    s.alloc = .error .addOverflow
  /-- A block in use is taken back, and nothing changes but its flag and a counter. -/
  takes_back : ∀ a < Word.limit64, ∀ s', s.free a = .ok s' ↔
    ∃ k < n, a = base + k * blockSize ∧ s.pool.busy[k]? = some true ∧
      s' = { s with pool := s.pool.vacated k }
  /-- Every other address halts. -/
  double_free : ∀ k < n, s.pool.busy[k]? ≠ some true →
    s.free (base + k * blockSize) = .error (.doubleFree (base + k * blockSize))
  stranger : ∀ a < Word.limit64, (∀ k < n, a ≠ base + k * blockSize) →
    s.free a = .error (.notFromPool a)

theorem Accounted.hands_out {ds : List Deed} (h : Accounted base n ds s)
    (hgot : s.alloc = .ok (some b, s')) : HandsOut base n (owned ds) s b s' := by
  obtain ⟨k, hslot, -, rfl, rfl⟩ := alloc_eq_some_iff.mp hgot
  obtain ⟨hfree, hbelow⟩ := freeSlot?_eq_some_iff.mp hslot
  have hmod := (h.placed.isBlock k).2
  constructor
  · exact ⟨k, h.lt_of_busy hfree, h.slotAddress_eq k, hfree, hbelow, rfl⟩
  · rw [h.owned_perm.mem_iff]
    exact notMem_blocksInUse_of_free hfree
  · intro x hlow hhigh
    rw [byteAt_zeroed rfl hmod, if_pos ⟨hlow, hhigh⟩]
  · intro x hout
    rw [byteAt_zeroed rfl hmod, if_neg hout]

theorem Accounted.alloc_of_room {ds : List Deed} (h : Accounted base n ds s)
    (hfree : s.pool.inUse ≠ n) (hroom : (handedOut ds).length + 1 < Word.limit64) :
    ∃ b s', s.alloc = .ok (some b, s') := by
  rw [← h.capacity_eq, ne_eq, ← freeSlot?_eq_none_iff] at hfree
  obtain ⟨k, hslot⟩ := Option.ne_none_iff_exists'.mp hfree
  exact ⟨_, _, alloc_eq_some_iff.mpr ⟨k, hslot, h.allocs_eq ▸ hroom, rfl, rfl⟩⟩

/-- A pool that was new once can be relied on, whatever was done with it since. -/
theorem History.reliable (hpos : 0 < base) (haligned : base % blockSize = 0)
    (hfits : base + n * blockSize ≤ Word.limit64) {memory : Memory Page} {ds : List Deed}
    (hhistory : History ⟨.new base n, memory⟩ ds s) : Reliable base n ds s := by
  have h := Accounted.of_history hpos haligned hfits hhistory
  constructor
  · exact h.balanced.balance
  · rw [← h.capacity_eq]
    exact List.count_le_length
  · exact ⟨h.allocs_eq, h.frees_eq⟩
  · exact ⟨h.owned_perm.nodup_iff.mpr (nodup_blocksInUse _), h.owned_perm⟩
  · intro s'
    rw [alloc_eq_none_iff, h.capacity_eq]
  · intro hfree hroom
    obtain ⟨b, s', hgot⟩ := h.alloc_of_room hfree hroom
    exact ⟨b, s', hgot, h.hands_out hgot⟩
  · intro hfree hfull
    rw [← h.allocs_eq] at hfull
    rw [← h.capacity_eq] at hfree
    exact alloc_eq_error (alloc_eq_error_iff.mpr ⟨hfree, hfull, rfl⟩)
  · intro a ha s'
    rw [free_eq_ok_iff h.placed h.balanced ha]
    constructor
    · rintro ⟨k, hk, rfl, rfl⟩
      exact ⟨k, h.lt_of_busy hk, h.slotAddress_eq k, hk, rfl⟩
    · rintro ⟨k, -, rfl, hk, rfl⟩
      exact ⟨k, hk, h.slotAddress_eq k, rfl⟩
  · intro k hk hunused
    rw [← h.capacity_eq] at hk
    have hfree : s.pool.busy[k]? = some false := by
      cases hbusy : s.pool.busy[k]? with
      | none => exact absurd (List.getElem?_eq_none_iff.mp hbusy) (Nat.not_le.mpr hk)
      | some used =>
          cases used with
          | false => rfl
          | true => exact absurd hbusy hunused
    rw [← h.slotAddress_eq k]
    exact free_eq_error (h.placed.free_of_free hfree)
  · intro a ha hstranger
    apply free_eq_error
    apply h.placed.free_of_stranger ha
    intro k hk heq
    rw [h.capacity_eq] at hk
    exact hstranger k hk (heq.symm.trans (h.slotAddress_eq k))

/-- Two blocks were handed out, the first one was written to and taken back, and it was handed out
again. -/
theorem reliable_reused :
    ∃ s, History ⟨.new blockSize 2, {}⟩
        [.got 4096, .freed 4096, .wrote 4100 7, .got 8192, .got 4096] s ∧
      Reliable blockSize 2 [.got 4096, .freed 4096, .wrote 4100 7, .got 8192, .got 4096] s ∧
      s.pool.counters = (2, 3, 1) ∧ s.byteAt 4100 = 0 := by
  have hplaced : (Pool.new blockSize 2).Placed := ⟨by decide, by decide, by decide⟩
  have hbalanced : (Pool.new blockSize 2).Balanced := balanced_new blockSize 2
  have hstart : History ⟨.new blockSize 2, {}⟩ [] ⟨.new blockSize 2, {}⟩ := .start
  have hfirst := hstart.alloc (alloc_eq_some_iff.mpr ⟨0, by decide, by decide, rfl, rfl⟩)
  have hsecond := hfirst.alloc (alloc_eq_some_iff.mpr ⟨1, by decide, by decide, rfl, rfl⟩)
  have hwritten := hsecond.write 4100 7
  have hfreed := hwritten.free (by decide) ((free_eq_ok_iff ((hplaced.occupied 0).occupied 1)
    ((hbalanced.occupied (by decide) (by decide)).occupied (by decide) (by decide))
    (by decide)).mpr ⟨0, by decide, rfl, rfl⟩)
  have hagain := hfreed.alloc (alloc_eq_some_iff.mpr ⟨0, by decide, by decide, rfl, rfl⟩)
  refine ⟨_, hagain, History.reliable (by decide) (by decide) (by decide) hagain, by decide, ?_⟩
  rw [byteAt_zeroed rfl (by decide), if_pos (by decide)]

end Arena

end Pool

end RoundRobin
