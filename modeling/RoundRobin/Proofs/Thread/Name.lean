import RoundRobin.Proofs.Host.Operation

/-!
# Names survive as the longest prefix that fits

A stored name consists of whole characters, as many of the first ones as fit, and reads back as
they were up to the first zero character. The search for the place to cut a name at always ends,
and what is read back is always a text.
-/

namespace RoundRobin

namespace NameBuffer

variable {text kept front : List Char} {bytes : List UInt8} {i j room : Nat}

/-- Only the first byte of a character does not go on with one. -/
theorem utf8EncodeChar_eq_cons (c : Char) :
    ∃ b rest, String.utf8EncodeChar c = b :: rest ∧ isContinuation b = false ∧
      ∀ x ∈ rest, isContinuation x = true := by
  unfold String.utf8EncodeChar
  generalize c.val.toNat = v
  simp only [isContinuation]
  split
  · exact ⟨_, _, rfl, by simp; omega, by simp⟩
  · split
    · exact ⟨_, _, rfl, by simp; omega, by simp; omega⟩
    · split
      · exact ⟨_, _, rfl, by simp; omega, by simp; omega⟩
      · exact ⟨_, _, rfl, by simp; omega, by simp; omega⟩

/-- Only the zero character has a zero byte. -/
theorem zero_mem_utf8EncodeChar {c : Char} : 0 ∈ String.utf8EncodeChar c ↔ c = '\x00' := by
  constructor
  · intro hmem
    have hval : c.val.toNat = 0 := by
      unfold String.utf8EncodeChar at hmem
      generalize c.val.toNat = v at hmem ⊢
      dsimp only at hmem
      split_ifs at hmem <;>
        simp only [List.mem_cons, List.not_mem_nil, or_false, ← UInt8.toNat_inj,
          UInt8.toNat_ofNat', UInt8.toNat_zero] at hmem <;> omega
    exact Char.ext (UInt32.toNat_inj.mp hval)
  · rintro rfl
    decide

theorem utf8_append (text front : List Char) : utf8 (text ++ front) = utf8 text ++ utf8 front :=
  List.flatMap_append

theorem utf8_cons (c : Char) (text : List Char) :
    utf8 (c :: text) = String.utf8EncodeChar c ++ utf8 text :=
  List.flatMap_cons

theorem length_utf8_cons (c : Char) (text : List Char) :
    (utf8 (c :: text)).length = c.utf8Size + (utf8 text).length := by
  rw [utf8_cons, List.length_append, String.length_utf8EncodeChar]

/-- A text begins with a boundary, also behind another one. -/
theorem isBoundary_length (text front : List Char) :
    isBoundary (utf8 front ++ utf8 text) (utf8 front).length = true := by
  cases text with
  | nil => simp [isBoundary, utf8]
  | cons c rest =>
      obtain ⟨b, bytes, hbytes, hfirst, -⟩ := utf8EncodeChar_eq_cons c
      simp [isBoundary, utf8_cons, hbytes, hfirst]

/-- There is no boundary within a character. -/
theorem isBoundary_within {c : Char} (hpos : 0 < i) (hlt : i < c.utf8Size) :
    isBoundary (utf8 (c :: text)) i = false := by
  obtain ⟨b, rest, hbytes, -, hrest⟩ := utf8EncodeChar_eq_cons c
  have hlength := length_utf8_cons c text
  have hsize : rest.length + 1 = c.utf8Size := by
    rw [← String.length_utf8EncodeChar, hbytes, List.length_cons]
  obtain ⟨i, rfl⟩ := Nat.exists_eq_succ_of_ne_zero (Nat.ne_of_gt hpos)
  have hi : i < rest.length := by omega
  have hbyte : (utf8 (c :: text))[i + 1]? = some rest[i] := by
    rw [utf8_cons, hbytes, List.cons_append, List.getElem?_cons_succ,
      List.getElem?_append_left hi, List.getElem?_eq_getElem hi]
  have hmore : isContinuation rest[i] = true := hrest _ (List.getElem_mem hi)
  have hend : (i + 1 == (utf8 (c :: text)).length) = false := beq_eq_false_iff_ne.mpr (by omega)
  rw [isBoundary, hend, hbyte, Option.any_some, hmore]
  rfl

theorem isBoundary_append (c : Char) (text : List Char) (hpos : 0 < i) :
    isBoundary (utf8 (c :: text)) (c.utf8Size + i) = isBoundary (utf8 text) i := by
  have hbyte : (utf8 (c :: text))[c.utf8Size + i]? = (utf8 text)[i]? := by
    rw [utf8_cons, ← String.length_utf8EncodeChar c,
      List.getElem?_append_right (Nat.le_add_right _ _), Nat.add_sub_cancel_left]
  have hstart : (c.utf8Size + i == 0) = (i == 0) := by
    rw [beq_eq_false_iff_ne.mpr (by omega), beq_eq_false_iff_ne.mpr (Nat.ne_of_gt hpos)]
  have hend : (c.utf8Size + i == (utf8 (c :: text)).length) = (i == (utf8 text).length) := by
    rw [length_utf8_cons, Bool.eq_iff_iff, beq_iff_eq, beq_iff_eq, Nat.add_left_cancel_iff]
  rw [isBoundary, isBoundary, hstart, hend, hbyte]

theorem isBoundary_of_isPrefix (h : front <+: text) :
    isBoundary (utf8 text) (utf8 front).length = true := by
  obtain ⟨more, rfl⟩ := h
  rw [utf8_append]
  exact isBoundary_length more front

/-- The boundaries are where the first few characters end. -/
theorem exists_of_isBoundary (h : isBoundary (utf8 text) i = true) :
    ∃ front, front <+: text ∧ (utf8 front).length = i := by
  induction text generalizing i with
  | nil =>
      have hzero : i = 0 := by simpa [isBoundary, utf8] using h
      exact ⟨[], List.nil_prefix, hzero.symm⟩
  | cons c rest ih =>
      rcases Nat.eq_zero_or_pos i with rfl | hpos
      · exact ⟨[], List.nil_prefix, rfl⟩
      rcases Nat.lt_trichotomy i c.utf8Size with hlt | rfl | hgt
      · rw [isBoundary_within hpos hlt] at h
        cases h
      · exact ⟨[c], List.prefix_append [c] rest, length_utf8_cons c []⟩
      · obtain ⟨j, rfl⟩ := Nat.exists_eq_add_of_lt hgt
        rw [Nat.add_assoc, isBoundary_append c rest (Nat.succ_pos j)] at h
        obtain ⟨front, hfront, hlength⟩ := ih h
        refine ⟨c :: front, (List.prefix_cons_inj c).mpr hfront, ?_⟩
        rw [length_utf8_cons, hlength, Nat.add_assoc]

/-- The search gives the last boundary not after `i`. -/
theorem boundary?_eq_some (h : boundary? bytes i = some j) :
    isBoundary bytes j = true ∧ j ≤ i ∧ ∀ k, k ≤ i → isBoundary bytes k = true → k ≤ j := by
  induction i with
  | zero =>
      rw [boundary?] at h
      split at h
      · next hfirst =>
          cases h
          exact ⟨hfirst, Nat.le_refl 0, fun k hk _ => hk⟩
      · cases h
  | succ i ih =>
      rw [boundary?] at h
      split at h
      · next hhere =>
          cases h
          exact ⟨hhere, Nat.le_refl _, fun k hk _ => hk⟩
      · next hnot =>
          obtain ⟨hj, hle, hlast⟩ := ih h
          refine ⟨hj, Nat.le_succ_of_le hle, fun k hk hboundary => hlast k ?_ hboundary⟩
          have hne : k ≠ i + 1 := by
            rintro rfl
            exact hnot hboundary
          omega

/-- `kept` are the first characters of `text`, as many as fit into `room` bytes. -/
structure Fits (room : Nat) (text kept : List Char) : Prop where
  front : kept <+: text
  fits : (String.ofList kept).utf8ByteSize ≤ room
  most : ∀ front, front <+: text → (String.ofList front).utf8ByteSize ≤ room → front <+: kept

theorem utf8ByteSize_ofList (text : List Char) :
    (String.ofList text).utf8ByteSize = (utf8 text).length := by
  rw [← String.size_toByteArray, String.toByteArray_ofList, List.utf8Encode, List.size_toByteArray]
  rfl

theorem length_utf8_le (h : front <+: text) : (utf8 front).length ≤ (utf8 text).length := by
  obtain ⟨more, rfl⟩ := h
  rw [utf8_append, List.length_append]
  exact Nat.le_add_right _ _

/-- Of two texts with the same beginning the one with fewer bytes is the shorter one. -/
theorem isPrefix_of_length_le (hfront : front <+: text) (hkept : kept <+: text)
    (hle : (utf8 front).length ≤ (utf8 kept).length) : front <+: kept := by
  rcases List.prefix_or_prefix_of_prefix hfront hkept with h | ⟨more, rfl⟩
  · exact h
  · cases more with
    | nil => exact ⟨[], by rw [List.append_nil, List.append_nil]⟩
    | cons c rest =>
        rw [utf8_append, List.length_append, length_utf8_cons] at hle
        have hpos := c.utf8Size_pos
        omega

/-- A name is cut between two characters, behind the last one that fits. -/
theorem fits_of_boundary? (h : boundary? (utf8 text) (min (utf8 text).length room) = some j) :
    ∃ kept, Fits room text kept ∧ (utf8 kept).length = j ∧ (utf8 text).take j = utf8 kept := by
  obtain ⟨hboundary, hle, hlast⟩ := boundary?_eq_some h
  obtain ⟨kept, hkept, rfl⟩ := exists_of_isBoundary hboundary
  refine ⟨kept, ⟨hkept, ?_, ?_⟩, rfl, ?_⟩
  · rw [utf8ByteSize_ofList]
    omega
  · intro front hfront hfits
    rw [utf8ByteSize_ofList] at hfits
    have hlength := length_utf8_le hfront
    exact isPrefix_of_length_le hfront hkept
      (hlast _ (by omega) (isBoundary_of_isPrefix hfront))
  · obtain ⟨more, rfl⟩ := hkept
    rw [utf8_append, List.take_left]

/-- The bytes before the first zero byte are those of the characters before the first zero
character. -/
theorem takeWhile_utf8 (text : List Char) {n : Nat} (hpos : 0 < n) :
    (utf8 text ++ List.replicate n 0).takeWhile (· ≠ 0) = utf8 (text.takeWhile (· ≠ '\x00')) := by
  induction text with
  | nil =>
      obtain ⟨n, rfl⟩ := Nat.exists_eq_succ_of_ne_zero (Nat.ne_of_gt hpos)
      simp [utf8, List.replicate_succ]
  | cons c rest ih =>
      rw [utf8_cons, List.append_assoc]
      by_cases hzero : c = '\x00'
      · subst hzero
        rfl
      · have hbytes : ∀ b ∈ String.utf8EncodeChar c, decide (b ≠ 0) = true := by
          intro b hb
          rw [decide_eq_true_iff]
          rintro rfl
          exact hzero (zero_mem_utf8EncodeChar.mp hb)
        rw [List.takeWhile_append_of_pos hbytes, ih, List.takeWhile_cons_of_pos (by simpa),
          utf8_cons]

theorem fromUTF8?_utf8 (text : List Char) :
    String.fromUTF8? ⟨(utf8 text).toArray⟩ = some (String.ofList text) := by
  have hbytes : (⟨(utf8 text).toArray⟩ : ByteArray) = text.utf8Encode := by
    rw [List.utf8Encode]
    exact ByteArray.ext List.data_toByteArray.symm
  rw [hbytes, String.fromUTF8?, dif_pos ByteArray.isValidUTF8_utf8Encode]
  apply congrArg some
  rw [← String.toByteArray_inj, String.toByteArray_ofList]
  rfl

/-- The buffer `b` keeps the characters `kept` of `name`. -/
structure Keeps (name : String) (b : NameBuffer) (kept : List Char) : Prop where
  /-- They are the first ones, as many as leave room for a zero byte. -/
  longest : Fits (Config.nameLength - 1) name.toList kept
  /-- The search for the place of the cut finds their end. -/
  found : boundary? (utf8 name.toList) (min (utf8 name.toList).length (Config.nameLength - 1)) =
    some (utf8 kept).length
  bytes_eq : b.bytes =
    utf8 kept ++ List.replicate (Config.nameLength - (utf8 kept).length) 0
  terminated : b.bytes.getLast? = some 0
  /-- They read back up to the first zero character. -/
  text?_eq : b.text? = some (String.ofList (kept.takeWhile (· ≠ '\x00')))

theorem encode_keeps (name : String) : ∃ kept, Keeps name (encode name) kept := by
  have hfound : boundary? (utf8 name.toList)
      (min (utf8 name.toList).length (Config.nameLength - 1)) = some (cut (utf8 name.toList)) :=
    (Option.some_get _).symm
  obtain ⟨kept, hkept, hlength, htake⟩ := fits_of_boundary? hfound
  have hroom : (utf8 kept).length < Config.nameLength := by
    have hfits := hkept.fits
    rw [utf8ByteSize_ofList] at hfits
    simp only [Config.nameLength] at *
    omega
  have hbytes : (encode name).bytes =
      utf8 kept ++ List.replicate (Config.nameLength - (utf8 kept).length) 0 := by
    change pad Config.nameLength ((utf8 name.toList).take (cut (utf8 name.toList))) = _
    rw [htake, pad, List.take_of_length_le (Nat.le_of_lt hroom)]
  have hpos : 0 < Config.nameLength - (utf8 kept).length := by omega
  refine ⟨kept, hkept, hfound.trans (congrArg some hlength.symm), hbytes, ?_, ?_⟩
  · rw [hbytes, List.getLast?_append, List.getLast?_replicate, if_neg (Nat.ne_of_gt hpos)]
    rfl
  · rw [text?, hbytes, takeWhile_utf8 kept hpos, fromUTF8?_utf8]

end NameBuffer

namespace Host

open Scheduler

/-- Whatever its name and its valid priority, a new thread keeps the longest prefix of the name
made of whole characters that fits, and tells it up to the first zero character. -/
theorem keeps_name (h : Host) (b : Nat) (name : String) {priority : Nat}
    (hpriority : Config.priorityMin ≤ priority ∧ priority ≤ Config.priorityMax) :
    ∃ h' kept, (initThread b name priority : HostM Unit) h = .ok () h' ∧
      (h'.scheduler.threads.get b).nameBuffer.Keeps name kept ∧
      (h'.scheduler.threads.get b).name = String.ofList (kept.takeWhile (· ≠ '\x00')) := by
  obtain ⟨kept, hkeeps⟩ := NameBuffer.encode_keeps name
  have hvalid : Thread.requirePriority priority = .ok () := require_eq_ok_iff.mpr hpriority
  have hnew : ∃ t, Thread.new name priority = .ok t ∧ t.nameBuffer = .encode name := by
    rw [Thread.new, hvalid]
    exact ⟨_, rfl, rfl⟩
  obtain ⟨t, hnew, hbuffer⟩ := hnew
  have hrun : (initThread b name priority : HostM Unit) h =
      .ok () (h.withScheduler (h.scheduler.alter b fun _ => t)) :=
    initThread_eq_ok_iff.mpr ⟨t, hnew, rfl⟩
  have hget : (h.scheduler.alter b fun _ => t).threads.get b = t := by
    rw [get_alter, if_pos rfl]
  refine ⟨_, kept, hrun, ?_⟩
  rw [scheduler_withScheduler, hget, Thread.name, hbuffer]
  exact ⟨hkeeps, by rw [NameBuffer.decode, hkeeps.text?_eq]; rfl⟩

/-- A name whose fifteenth byte is the first half of a character, so that fourteen are kept. The
fourth is zero. -/
def nameSample : String :=
  "aé\x00ééééééé"

theorem keeps_name_sample :
    Config.priorityMin ≤ 63 ∧ 63 ≤ Config.priorityMax ∧
      ∃ h' kept, (initThread 0x40001000 nameSample 63 : HostM Unit) (new 2 (bootStack 2048)) =
          .ok () h' ∧
        (h'.scheduler.threads.get 0x40001000).nameBuffer.Keeps nameSample kept ∧
        (NameBuffer.utf8 kept).length = 14 ∧
        (h'.scheduler.threads.get 0x40001000).name = String.ofList (kept.takeWhile (· ≠ '\x00')) ∧
        (h'.scheduler.threads.get 0x40001000).name = "aé" := by
  have hpriority : Config.priorityMin ≤ 63 ∧ 63 ≤ Config.priorityMax := by decide
  obtain ⟨h', kept, hrun, hkeeps, hname⟩ :=
    keeps_name (new 2 (bootStack 2048)) 0x40001000 nameSample hpriority
  have hread : ∃ g, (initThread 0x40001000 nameSample 63 : HostM Unit) (new 2 (bootStack 2048)) =
      .ok () g ∧ (g.scheduler.threads.get 0x40001000).name = "aé" := ⟨_, rfl, by decide +kernel⟩
  obtain ⟨g, hsame, hread⟩ := hread
  cases hsame.symm.trans hrun
  have hfound : NameBuffer.boundary? (NameBuffer.utf8 nameSample.toList)
      (min (NameBuffer.utf8 nameSample.toList).length (Config.nameLength - 1)) = some 14 := by
    decide +kernel
  exact ⟨hpriority.1, hpriority.2, _, kept, hrun, hkeeps,
    (Option.some.inj (hfound.symm.trans hkeeps.found)).symm, hname, hread⟩

end Host

end RoundRobin
