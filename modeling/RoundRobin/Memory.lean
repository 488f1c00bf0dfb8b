import RoundRobin.Thread

/-!
# Memory by block

Block contents, keyed by block address. Memory that was never written reads as zeros.
The main statement is `Memory.get_set`: a write is seen at its own address and nowhere else.
-/

namespace RoundRobin

/-- The contents of the blocks written so far. -/
structure Memory (β : Type) where
  /-- Written blocks, each address once. -/
  cells : List (Nat × β) := []

namespace Memory

variable {β : Type}

/-- The first contents recorded for `a`. -/
def find? (a : Nat) : List (Nat × β) → Option β
  | [] => none
  | (b, v) :: rest => if b = a then some v else find? a rest

/-- Record `v` for `a`, in place if `a` has contents already. -/
def put (a : Nat) (v : β) : List (Nat × β) → List (Nat × β)
  | [] => [(a, v)]
  | (b, w) :: rest => if b = a then (a, v) :: rest else (b, w) :: put a v rest

/-- What the block at `a` holds. -/
def get [Zeroed β] (mem : Memory β) (a : Nat) : β :=
  (find? a mem.cells).getD Zeroed.zeroed

/-- Write the block at `a`. -/
def set (mem : Memory β) (a : Nat) (v : β) : Memory β :=
  ⟨put a v mem.cells⟩

/-- Change the block at `a`. -/
def modify [Zeroed β] (mem : Memory β) (a : Nat) (f : β → β) : Memory β :=
  mem.set a (f (mem.get a))

theorem find?_put (a b : Nat) (v : β) (cells : List (Nat × β)) :
    find? b (put a v cells) = if a = b then some v else find? b cells := by
  induction cells with
  | nil => simp [put, find?]
  | cons cell rest ih =>
    obtain ⟨c, w⟩ := cell
    by_cases hca : c = a
    · subst hca
      by_cases hcb : c = b <;> simp [put, find?, hcb]
    · by_cases hcb : c = b
      · subst hcb
        simp [put, find?, hca, Ne.symm hca]
      · simp [put, find?, hca, hcb, ih]

@[simp] theorem get_set [Zeroed β] (mem : Memory β) (a b : Nat) (v : β) :
    (mem.set a v).get b = if a = b then v else mem.get b := by
  simp only [get, set, find?_put]
  split <;> rfl

@[simp] theorem get_modify [Zeroed β] (mem : Memory β) (a b : Nat) (f : β → β) :
    (mem.modify a f).get b = if a = b then f (mem.get a) else mem.get b := by
  simp [modify]

/-- What `f` does not change at `a` is the same everywhere. -/
theorem apply_get_modify [Zeroed β] {γ : Type} (g : β → γ) {mem : Memory β} {a : Nat} {f : β → β}
    (hf : g (f (mem.get a)) = g (mem.get a)) (b : Nat) :
    g ((mem.modify a f).get b) = g (mem.get b) := by
  rw [get_modify]
  split
  · next heq => rw [hf, heq]
  · rfl

end Memory

end RoundRobin
