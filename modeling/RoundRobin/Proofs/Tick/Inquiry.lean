import Mathlib.Algebra.Group.Nat.Defs
import Mathlib.Tactic.Common
import RoundRobin.Tick.Calibration

/-!
# What calibration asks

The questions that the search puts to its probe, with the answers, for a probe that may answer as
it likes. The doubling asks about one power of two after the other until one is too many; each
question after that settles one bit. So the count that is found lies between the counts that
fitted and those that did not.
-/

namespace RoundRobin.Tick

variable {σ τ α β : Type}

/-- From related states both computations end alike, in related states. -/
def Related (R : σ → τ → Prop) (x : EStateM Halt σ α) (y : EStateM Halt τ α) : Prop :=
  ∀ s t, R s t → match x s, y t with
    | .ok a s', .ok b t' => a = b ∧ R s' t'
    | .error cause s', .error reason t' => cause = reason ∧ R s' t'
    | _, _ => False

namespace Related

variable {R : σ → τ → Prop}

theorem value (a : α) : Related R (pure a) (pure a) :=
  fun _ _ hst => ⟨rfl, hst⟩

theorem halts (cause : Halt) :
    Related R (halt cause : EStateM Halt σ α) (halt cause : EStateM Halt τ α) :=
  fun _ _ hst => ⟨rfl, hst⟩

theorem ends {x : EStateM Halt σ α} {y : EStateM Halt τ α} (hxy : Related R x y) {s : σ} {t : τ}
    (hst : R s t) :
    (∃ a s' t', x s = .ok a s' ∧ y t = .ok a t' ∧ R s' t') ∨
      ∃ cause s' t', x s = .error cause s' ∧ y t = .error cause t' ∧ R s' t' := by
  have hends := hxy s t hst
  cases hx : x s <;> cases hy : y t <;> rw [hx, hy] at hends
  · obtain ⟨rfl, hst'⟩ := hends
    exact Or.inl ⟨_, _, _, rfl, rfl, hst'⟩
  · exact hends.elim
  · exact hends.elim
  · obtain ⟨rfl, hst'⟩ := hends
    exact Or.inr ⟨_, _, _, rfl, rfl, hst'⟩

theorem bind {x : EStateM Halt σ α} {y : EStateM Halt τ α} {f : α → EStateM Halt σ β}
    {g : α → EStateM Halt τ β} (hxy : Related R x y) (hfg : ∀ a, Related R (f a) (g a)) :
    Related R (x >>= f) (y >>= g) := by
  intro s t hst
  change match EStateM.bind x f s, EStateM.bind y g t with
    | .ok a s', .ok b t' => a = b ∧ R s' t'
    | .error cause s', .error reason t' => cause = reason ∧ R s' t'
    | _, _ => False
  unfold EStateM.bind
  obtain ⟨a, s', t', hx, hy, hst'⟩ | ⟨cause, s', t', hx, hy, hst'⟩ := hxy.ends hst
  · rw [hx, hy]
    exact hfg a s' t' hst'
  · rw [hx, hy]
    exact ⟨rfl, hst'⟩

theorem ite {p : Prop} [Decidable p] {x x' : EStateM Halt σ α} {y y' : EStateM Halt τ α}
    (hx : Related R x y) (hx' : Related R x' y') :
    Related R (if p then x else x') (if p then y else y') := by
  split
  · exact hx
  · exact hx'

section

variable {p : Nat → EStateM Halt σ Bool} {q : Nat → EStateM Halt τ Bool}
  (hprobe : ∀ loops, Related R (p loops) (q loops))

include hprobe

theorem coarse (loops : Nat) : Related R (coarse p loops) (coarse q loops) := by
  induction loops using coarse.induct with
  | case1 loops ih =>
      unfold Tick.coarse
      refine (hprobe _).bind fun tooMany => ?_
      apply Related.ite (.value loops)
      split
      · exact .halts _
      · next hzero => exact ih hzero

theorem fine {last bit loops : Nat} (h : LeadsTo bit last) :
    Related R (fine p last bit loops h) (fine q last bit loops h) := by
  induction bit, loops, h using fine.induct with
  | case1 loops h =>
      unfold Tick.fine
      rw [dif_pos rfl, dif_pos rfl]
      exact .value loops
  | case2 bit loops h hlast ihMany ihFits =>
      unfold Tick.fine
      rw [dif_neg hlast, dif_neg hlast]
      exact (hprobe _).bind fun _ => .ite ihMany ihFits

/-- Calibration depends on the answers of the probe alone. -/
theorem calibrate : Related R (calibrate p) (calibrate q) :=
  (Related.coarse hprobe _).bind fun _ => Related.fine hprobe _

end

end Related

/-- A question to the probe and its answer. -/
structure Question where
  /-- The count asked about. -/
  loops : Nat
  /-- Whether it took longer than a tick. -/
  tooMany : Bool
  deriving DecidableEq

/-- The probe, with the questions put to it written down in order. -/
def recorded (probe : Nat → EStateM Halt σ Bool) (loops : Nat) :
    EStateM Halt (σ × List Question) Bool := fun (s, asked) =>
  match probe loops s with
  | .ok tooMany s' => .ok tooMany (s', asked ++ [⟨loops, tooMany⟩])
  | .error cause s' => .error cause (s', asked)

/-- The probe gives an answer to every question, in every state. -/
def Answers (probe : Nat → EStateM Halt σ Bool) : Prop :=
  ∀ loops s, ∃ tooMany s', probe loops s = .ok tooMany s'

/-- Writing the questions down changes nothing for the probe. -/
theorem related_recorded (probe : Nat → EStateM Halt σ Bool) (loops : Nat) :
    Related (fun s t => s = t.1) (probe loops) (recorded probe loops) := by
  rintro s ⟨t, asked⟩ rfl
  simp only [recorded]
  cases hprobe : probe loops s <;> exact ⟨rfl, rfl⟩

/-- How calibration ended: the outcome, the state of the probe, and the questions put to it. -/
structure Inquiry (σ : Type) where
  outcome : Except Halt Nat
  state : σ
  asked : List Question

/-- The end of the computation that an inquiry describes. -/
def Inquiry.result (i : Inquiry σ) : EStateM.Result Halt σ Nat :=
  match i.outcome with
  | .ok loops => .ok loops i.state
  | .error cause => .error cause i.state

/-- Calibrate with a probe that is in the state `s`. -/
def inquire (probe : Nat → EStateM Halt σ Bool) (s : σ) : Inquiry σ :=
  match calibrate (recorded probe) (s, []) with
  | .ok loops (s', asked) => ⟨.ok loops, s', asked⟩
  | .error cause (s', asked) => ⟨.error cause, s', asked⟩

/-- An inquiry is what calibration does. -/
theorem calibrate_eq (probe : Nat → EStateM Halt σ Bool) (s : σ) :
    calibrate probe s = (inquire probe s).result := by
  have hrelated := Related.calibrate (related_recorded probe)
  unfold inquire
  obtain ⟨loops, s', ⟨_, asked⟩, hplain, hnoted, rfl⟩ |
      ⟨cause, s', ⟨_, asked⟩, hplain, hnoted, rfl⟩ := hrelated.ends (t := (s, [])) rfl
  · rw [hplain, hnoted]
    rfl
  · rw [hplain, hnoted]
    rfl

/-- The questions about the powers of two above `2 ^ j`, up to `2 ^ k`, all of which fitted. -/
def doublings (j k : Nat) : List Question :=
  (List.range' (j + 1) (k - j)).map fun i => ⟨2 ^ i, false⟩

theorem mem_doublings {j k : Nat} {q : Question} :
    q ∈ doublings j k ↔ ∃ i, j < i ∧ i ≤ k ∧ q = ⟨2 ^ i, false⟩ := by
  simp only [doublings, List.mem_map, List.mem_range'_1]
  constructor
  · rintro ⟨i, hi, rfl⟩
    exact ⟨i, by omega, by omega, rfl⟩
  · rintro ⟨i, hlow, hhigh, rfl⟩
    exact ⟨i, by omega, rfl⟩

theorem length_doublings (j k : Nat) : (doublings j k).length = k - j := by
  simp [doublings]

theorem doublings_self (j : Nat) : doublings j j = [] := by
  simp [doublings]

theorem doublings_cons {j k : Nat} (hjk : j < k) :
    doublings j k = ⟨2 ^ (j + 1), false⟩ :: doublings (j + 1) k := by
  obtain ⟨n, rfl⟩ := Nat.exists_eq_add_of_lt hjk
  have hcount : j + n + 1 - j = n + 1 := by omega
  have hrest : j + n + 1 - (j + 1) = n := by omega
  rw [doublings, doublings, hcount, hrest, List.range'_succ, List.map_cons]

theorem double_two_pow {j : Nat} (hj : j < 31) : double (2 ^ j) = 2 ^ (j + 1) := by
  have hlt : 2 ^ (j + 1) < 2 ^ 32 := Nat.pow_lt_pow_right (by decide) (by omega)
  rw [double, ← Nat.pow_succ']
  exact Nat.mod_eq_of_lt hlt

theorem double_two_pow_31 : double (2 ^ 31) = 0 := by
  decide

section

variable {probe : Nat → EStateM Halt σ Bool} {loops : Nat} {s s' : σ}

theorem recorded_bind {tooMany : Bool} {f : Bool → EStateM Halt (σ × List Question) α}
    (hanswer : probe loops s = .ok tooMany s') (asked : List Question) :
    (recorded probe loops >>= f) (s, asked) = f tooMany (s', asked ++ [⟨loops, tooMany⟩]) := by
  change EStateM.bind _ _ _ = _
  simp only [EStateM.bind, recorded, hanswer]

theorem coarse_of_tooMany (hanswer : probe (double loops) s = .ok true s')
    (asked : List Question) : coarse (recorded probe) loops (s, asked) =
      .ok loops (s', asked ++ [⟨double loops, true⟩]) := by
  rw [coarse, recorded_bind hanswer, if_pos rfl]
  rfl

theorem coarse_of_fits (hanswer : probe (double loops) s = .ok false s')
    (hdouble : double loops ≠ 0) (asked : List Question) :
    coarse (recorded probe) loops (s, asked) =
      coarse (recorded probe) (double loops) (s', asked ++ [⟨double loops, false⟩]) := by
  rw [coarse, recorded_bind hanswer, if_neg Bool.false_ne_true, dif_neg hdouble]

theorem coarse_of_wrap (hanswer : probe (double loops) s = .ok false s')
    (hdouble : double loops = 0) (asked : List Question) :
    coarse (recorded probe) loops (s, asked) =
      .error .calibrationOverflow (s', asked ++ [⟨double loops, false⟩]) := by
  rw [coarse, recorded_bind hanswer, if_neg Bool.false_ne_true, dif_pos hdouble]
  rfl

end

/-- Doubling from `2 ^ j` finds the first power of two whose double is too many. If the double of
the last one wraps and fits, there is none. -/
theorem coarse_asks {probe : Nat → EStateM Halt σ Bool} (hprobe : Answers probe) {j : Nat}
    (hj : j ≤ 31) (s : σ) (asked : List Question) :
    ∃ s', (∃ k, j ≤ k ∧ k ≤ 31 ∧ coarse (recorded probe) (2 ^ j) (s, asked) =
          .ok (2 ^ k) (s', asked ++ doublings j k ++ [⟨double (2 ^ k), true⟩])) ∨
      coarse (recorded probe) (2 ^ j) (s, asked) =
        .error .calibrationOverflow (s', asked ++ doublings j 31 ++ [⟨0, false⟩]) := by
  induction hrest : 31 - j generalizing j s asked with
  | zero =>
      obtain rfl : j = 31 := by omega
      obtain ⟨tooMany, s', hanswer⟩ := hprobe (double (2 ^ 31)) s
      refine ⟨s', ?_⟩
      rw [doublings_self, List.append_nil]
      cases tooMany with
      | true =>
          refine Or.inl ⟨31, Nat.le_refl _, Nat.le_refl _, ?_⟩
          rw [coarse_of_tooMany hanswer, doublings_self, List.append_nil]
      | false =>
          refine Or.inr ?_
          rw [coarse_of_wrap hanswer double_two_pow_31, double_two_pow_31]
  | succ n ih =>
      have hlt : j < 31 := by omega
      obtain ⟨tooMany, s₁, hanswer⟩ := hprobe (double (2 ^ j)) s
      cases tooMany with
      | true =>
          refine ⟨s₁, Or.inl ⟨j, Nat.le_refl _, hj, ?_⟩⟩
          rw [coarse_of_tooMany hanswer, doublings_self, List.append_nil]
      | false =>
          have hdouble := double_two_pow hlt
          have hpos : double (2 ^ j) ≠ 0 := by
            rw [hdouble]
            exact Nat.ne_of_gt (Nat.two_pow_pos _)
          rw [coarse_of_fits hanswer hpos, hdouble]
          obtain ⟨s', ⟨k, hjk, hk, hrun⟩ | hrun⟩ :=
            ih (j := j + 1) hlt s₁ (asked ++ [⟨2 ^ (j + 1), false⟩]) (by omega)
          · refine ⟨s', Or.inl ⟨k, Nat.le_of_succ_le hjk, hk, ?_⟩⟩
            rw [hrun, doublings_cons hjk]
            simp
          · refine ⟨s', Or.inr ?_⟩
            rw [hrun, doublings_cons hlt]
            simp

theorem or_two_pow {i loops : Nat} (hdvd : 2 ^ (i + 1) ∣ loops) :
    loops ||| 2 ^ i = loops + 2 ^ i := by
  obtain ⟨a, rfl⟩ := hdvd
  have hlt : 2 ^ i < 2 ^ (i + 1) := Nat.pow_lt_pow_right (by decide) (Nat.lt_succ_self i)
  exact (Nat.two_pow_add_eq_or_of_lt hlt a).symm

theorem two_pow_shiftRight (i n : Nat) : 2 ^ (i + n) >>> n = 2 ^ i := by
  rw [Nat.shiftRight_eq_div_pow, Nat.pow_add, Nat.mul_div_cancel _ (Nat.two_pow_pos n)]

/-- The questions `added` settle `n` bits of `loops`, those above the bit `low`, and lead to the
count `r`. -/
structure Settles (low n loops r : Nat) (added : List Question) : Prop where
  length_eq : added.length = n
  le : loops ≤ r
  lt : r < loops + 2 ^ (low + n + 1)
  dvd : 2 ^ (low + 1) ∣ r
  lt_asked : ∀ q ∈ added, loops < q.loops
  found : r = loops ∨ ⟨r, false⟩ ∈ added
  le_of_fits : ∀ c, ⟨c, false⟩ ∈ added → c ≤ r
  lt_of_tooMany : ∀ c, ⟨c, true⟩ ∈ added → r < c
  /-- The next count of that precision is too many, unless it is beyond the bits that were
  settled. -/
  next : r + 2 ^ (low + 1) = loops + 2 ^ (low + n + 1) ∨ ⟨r + 2 ^ (low + 1), true⟩ ∈ added

namespace Settles

variable {low n loops r : Nat} {added : List Question}

theorem nil (hdvd : 2 ^ (low + 1) ∣ loops) : Settles low 0 loops loops [] where
  length_eq := rfl
  le := Nat.le_refl _
  lt := Nat.lt_add_of_pos_right (Nat.two_pow_pos _)
  dvd := hdvd
  lt_asked := by simp
  found := Or.inl rfl
  le_of_fits := by simp
  lt_of_tooMany := by simp
  next := Or.inl rfl

/-- The highest of the bits is not set. -/
theorem tooMany (h : Settles low n loops r added) :
    Settles low (n + 1) loops r (⟨loops + 2 ^ (low + n + 1), true⟩ :: added) where
  length_eq := by rw [List.length_cons, h.length_eq]
  le := h.le
  lt := by
    have hlt := h.lt
    have hpow : 2 ^ (low + (n + 1) + 1) = 2 ^ (low + n + 1) * 2 := Nat.pow_succ ..
    omega
  dvd := h.dvd
  lt_asked q hq := by
    rcases List.mem_cons.mp hq with rfl | hq
    · exact Nat.lt_add_of_pos_right (Nat.two_pow_pos _)
    · exact h.lt_asked q hq
  found := h.found.imp_right (List.mem_cons_of_mem _)
  le_of_fits c hc := by
    rcases List.mem_cons.mp hc with heq | hc
    · cases heq
    · exact h.le_of_fits c hc
  lt_of_tooMany c hc := by
    rcases List.mem_cons.mp hc with heq | hc
    · cases heq
      exact h.lt
    · exact h.lt_of_tooMany c hc
  next := by
    refine Or.inr (List.mem_cons.mpr ?_)
    rcases h.next with heq | hmem
    · exact Or.inl (by rw [heq])
    · exact Or.inr hmem

/-- The highest of the bits is set. -/
theorem fits (h : Settles low n (loops + 2 ^ (low + n + 1)) r added) :
    Settles low (n + 1) loops r (⟨loops + 2 ^ (low + n + 1), false⟩ :: added) where
  length_eq := by rw [List.length_cons, h.length_eq]
  le := Nat.le_of_add_right_le h.le
  lt := by
    have hlt := h.lt
    have hpow : 2 ^ (low + (n + 1) + 1) = 2 ^ (low + n + 1) * 2 := Nat.pow_succ ..
    omega
  dvd := h.dvd
  lt_asked q hq := by
    rcases List.mem_cons.mp hq with rfl | hq
    · exact Nat.lt_add_of_pos_right (Nat.two_pow_pos _)
    · exact Nat.lt_of_le_of_lt (Nat.le_add_right _ _) (h.lt_asked q hq)
  found := by
    refine Or.inr (List.mem_cons.mpr ?_)
    rcases h.found with heq | hmem
    · exact Or.inl (by rw [heq])
    · exact Or.inr hmem
  le_of_fits c hc := by
    rcases List.mem_cons.mp hc with heq | hc
    · cases heq
      exact h.le
    · exact h.le_of_fits c hc
  lt_of_tooMany c hc := by
    rcases List.mem_cons.mp hc with heq | hc
    · cases heq
    · exact h.lt_of_tooMany c hc
  next := by
    have hpow : 2 ^ (low + (n + 1) + 1) = 2 ^ (low + n + 1) * 2 := Nat.pow_succ ..
    rcases h.next with heq | hmem
    · exact Or.inl (by omega)
    · exact Or.inr (List.mem_cons_of_mem _ hmem)

end Settles

section

variable {probe : Nat → EStateM Halt σ Bool} {last bit loops : Nat} {s s' : σ}
  {h : LeadsTo bit last}

theorem fine_of_tooMany (hlast : bit ≠ last) (hanswer : probe (loops ||| bit) s = .ok true s')
    (asked : List Question) : fine (recorded probe) last bit loops h (s, asked) =
      fine (recorded probe) last (bit >>> 1) loops (h.half hlast)
        (s', asked ++ [⟨loops ||| bit, true⟩]) := by
  rw [fine, dif_neg hlast, recorded_bind hanswer, if_pos rfl]

theorem fine_of_fits (hlast : bit ≠ last) (hanswer : probe (loops ||| bit) s = .ok false s')
    (asked : List Question) : fine (recorded probe) last bit loops h (s, asked) =
      fine (recorded probe) last (bit >>> 1) (loops ||| bit) (h.half hlast)
        (s', asked ++ [⟨loops ||| bit, false⟩]) := by
  rw [fine, dif_neg hlast, recorded_bind hanswer, if_neg Bool.false_ne_true]

end

/-- Each question settles one bit. -/
theorem fine_asks {probe : Nat → EStateM Halt σ Bool} (hprobe : Answers probe)
    {low n last bit loops : Nat} (hlow : last = 2 ^ low) (hbit : bit = 2 ^ (low + n))
    (hdvd : 2 ^ (low + n + 1) ∣ loops) (h : LeadsTo bit last) (s : σ) (asked : List Question) :
    ∃ s' r added, Settles low n loops r added ∧
      fine (recorded probe) last bit loops h (s, asked) = .ok r (s', asked ++ added) := by
  induction n generalizing bit loops s asked with
  | zero =>
      have hlast : bit = last := hbit.trans hlow.symm
      refine ⟨s, loops, [], .nil hdvd, ?_⟩
      rw [fine, dif_pos hlast, List.append_nil]
      rfl
  | succ n ih =>
      have hlast : bit ≠ last := by
        rw [hbit, hlow]
        exact Nat.ne_of_gt (Nat.pow_lt_pow_right (by decide) (by omega))
      have hhalf : bit >>> 1 = 2 ^ (low + n) := by
        rw [hbit, ← Nat.add_assoc]
        exact two_pow_shiftRight (low + n) 1
      have hor : loops ||| bit = loops + 2 ^ (low + n + 1) := by
        rw [hbit]
        exact or_two_pow hdvd
      have hcoarser : 2 ^ (low + n + 1) ∣ loops :=
        Nat.dvd_trans (Nat.pow_dvd_pow 2 (by omega)) hdvd
      obtain ⟨tooMany, s₁, hanswer⟩ := hprobe (loops ||| bit) s
      cases tooMany with
      | true =>
          obtain ⟨s', r, added, hsettles, hrun⟩ := ih hhalf hcoarser (h.half hlast) s₁
            (asked ++ [⟨loops ||| bit, true⟩])
          refine ⟨s', r, _, hsettles.tooMany, ?_⟩
          rw [fine_of_tooMany hlast hanswer, hrun, hor]
          simp
      | false =>
          have hset : 2 ^ (low + n + 1) ∣ loops ||| bit := by
            rw [hor]
            exact Nat.dvd_add hcoarser (Nat.dvd_refl _)
          obtain ⟨s', r, added, hsettles, hrun⟩ := ih hhalf hset (h.half hlast) s₁
            (asked ++ [⟨loops ||| bit, false⟩])
          rw [hor] at hsettles
          refine ⟨s', r, _, hsettles.fits, ?_⟩
          rw [fine_of_fits hlast hanswer, hrun, hor]
          simp

/-- The two ways in which calibration can go. -/
inductive Course : Except Halt Nat → List Question → Prop
  /-- All powers of two fit, and so does the double of the last one, which is zero. -/
  | overflow : Course (.error .calibrationOverflow) (doublings 10 31 ++ [⟨0, false⟩])
  /-- The double of `2 ^ k` is too many; then nine bits below the bit `k` are settled. -/
  | settled {k r : Nat} {added : List Question} (ten_le : 10 ≤ k) (le_31 : k ≤ 31)
      (settles : Settles (k - 10) 9 (2 ^ k) r added) :
      Course (.ok r) (doublings 10 k ++ ⟨double (2 ^ k), true⟩ :: added)

section

variable {probe : Nat → EStateM Halt τ Bool} {t t₁ : τ}

theorem calibrate_of_coarse {high : Nat} (hcoarse : coarse probe (2 ^ 10) t = .ok high t₁) :
    calibrate probe t = fine probe (high >>> 10) (high >>> 1) high (leadsTo_half high) t₁ := by
  change EStateM.bind (coarse probe (2 ^ 10)) _ t = _
  rw [EStateM.bind, hcoarse]

theorem calibrate_of_halt {cause : Halt} (hcoarse : coarse probe (2 ^ 10) t = .error cause t₁) :
    calibrate probe t = .error cause t₁ := by
  change EStateM.bind (coarse probe (2 ^ 10)) _ t = _
  rw [EStateM.bind, hcoarse]

end

/-- Whatever the probe answers, calibration goes in one of the two ways. -/
theorem inquire_course {probe : Nat → EStateM Halt σ Bool} (hprobe : Answers probe) (s : σ) :
    Course (inquire probe s).outcome (inquire probe s).asked := by
  unfold inquire
  obtain ⟨s₁, ⟨k, hten, hk, hcoarse⟩ | hcoarse⟩ := coarse_asks hprobe (by decide : 10 ≤ 31) s []
  · obtain ⟨low, rfl⟩ := Nat.exists_eq_add_of_le' hten
    have hlast : 2 ^ (low + 10) >>> 10 = 2 ^ low := two_pow_shiftRight low 10
    have hbit : 2 ^ (low + 10) >>> 1 = 2 ^ (low + 9) := two_pow_shiftRight (low + 9) 1
    obtain ⟨s', r, added, hsettles, hfine⟩ :=
      fine_asks hprobe hlast hbit (Nat.dvd_refl _) (leadsTo_half _) s₁
        ([] ++ doublings 10 (low + 10) ++ [⟨double (2 ^ (low + 10)), true⟩])
    rw [calibrate_of_coarse hcoarse, hfine]
    have hcourse := Course.settled hten hk hsettles
    simpa using hcourse
  · rw [calibrate_of_halt hcoarse]
    exact .overflow

end RoundRobin.Tick
