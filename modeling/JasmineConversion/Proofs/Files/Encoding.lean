import Mathlib.Data.List.Forall2
import JasmineConversion.Files.Encoding
import JasmineConversion.Proofs.Outcome

/-! # Bytes and the text they hold

Bytes are read as the one text that is written as these bytes. What is read from a file is this text
with its line ends unified, so it is the text itself only if there is no carriage return in it.
-/

namespace JasmineConversion.Encoding

open Text

/-! ## Bytes -/

/-- A byte is in a range. -/
def InRange (byte : UInt8) (range : Nat × Nat) : Prop :=
  range.1 ≤ byte.toNat ∧ byte.toNat ≤ range.2

/-- The number of a character whose bits are given up to some bytes. -/
def completed (bits : Nat) (tail : List UInt8) : Nat :=
  tail.foldl (fun bits byte => bits * 0x40 + byte.toNat % 0x40) bits

/-- Bytes begin each character that is completed by bytes in the ranges. -/
def Begins (bytes : List UInt8) (bits : Nat) (ranges : List (Nat × Nat)) : Prop :=
  ∀ tail, List.Forall₂ InRange tail ranges →
    String.utf8EncodeChar (Char.ofNat (completed bits tail)) = bytes ++ tail

theorem encode_append (text rest : Text) : encode (text ++ rest) = encode text ++ encode rest :=
  List.flatMap_append

theorem encode_cons (c : Char) (rest : Text) :
    encode (c :: rest) = String.utf8EncodeChar c ++ encode rest :=
  List.flatMap_cons

/-- The bytes of a code point, by its size. -/
theorem utf8EncodeChar_ofNat {n : Nat} (valid : n.isValidChar) :
    String.utf8EncodeChar (Char.ofNat n) =
      if n ≤ 0x7F then [UInt8.ofNat n]
      else if n ≤ 0x7FF then [UInt8.ofNat (n / 0x40 % 0x20 + 0xC0), UInt8.ofNat (n % 0x40 + 0x80)]
      else if n ≤ 0xFFFF then
        [UInt8.ofNat (n / 0x1000 % 0x10 + 0xE0), UInt8.ofNat (n / 0x40 % 0x40 + 0x80),
          UInt8.ofNat (n % 0x40 + 0x80)]
      else
        [UInt8.ofNat (n / 0x40000 % 8 + 0xF0), UInt8.ofNat (n / 0x1000 % 0x40 + 0x80),
          UInt8.ofNat (n / 0x40 % 0x40 + 0x80), UInt8.ofNat (n % 0x40 + 0x80)] := by
  have same : (Char.ofNat n).val.toNat = n := by
    rw [Char.ofNat, dif_pos valid]
    rfl
  simp only [String.utf8EncodeChar, same]

theorem ofNat_eq {n : Nat} {byte : UInt8} (same : n = byte.toNat) : UInt8.ofNat n = byte := by
  rw [same, UInt8.ofNat_toNat]

/-- A byte of one character stands for itself. -/
theorem begins_one {byte : UInt8} (ascii : byte.toNat < 0x80) : Begins [byte] byte.toNat [] := by
  intro tail fits
  cases fits
  rw [completed, List.foldl_nil, utf8EncodeChar_ofNat (.inl (by omega)), if_pos (by omega),
    UInt8.ofNat_toNat]
  rfl

/-- A lead of two bytes wants one more. -/
theorem begins_two {byte : UInt8} (least : 0xC2 ≤ byte.toNat) (greatest : byte.toNat < 0xE0) :
    Begins [byte] (byte.toNat % 0x20) [(0x80, 0xBF)] := by
  rintro _ (_ | ⟨⟨low, high⟩, _ | _⟩)
  next second =>
  dsimp only at low high
  simp only [completed, List.foldl_cons, List.foldl_nil]
  rw [utf8EncodeChar_ofNat (.inl (by omega)), if_neg (by omega), if_pos (by omega)]
  exact congrArg₂ _ (ofNat_eq (by omega)) (congrArg₂ _ (ofNat_eq (by omega)) rfl)

/-- A lead of three bytes wants two more, the first of them in a range that leaves out short forms and
halves of surrogate pairs. -/
theorem begins_three {byte : UInt8} {range : Nat × Nat} (lead : byte.toNat / 0x10 = 0xE)
    (within : 0x80 ≤ range.1 ∧ range.2 ≤ 0xBF) (short : byte.toNat = 0xE0 → 0xA0 ≤ range.1)
    (surrogate : byte.toNat = 0xED → range.2 ≤ 0x9F) :
    Begins [byte] (byte.toNat % 0x10) [range, (0x80, 0xBF)] := by
  rintro _ (_ | ⟨⟨low, high⟩, _ | ⟨⟨low', high'⟩, _ | _⟩⟩)
  next second third =>
  dsimp only at low' high'
  simp only [completed, List.foldl_cons, List.foldl_nil]
  have valid : ((byte.toNat % 0x10 * 0x40 + second.toNat % 0x40) * 0x40 +
      third.toNat % 0x40).isValidChar := by
    unfold Nat.isValidChar
    omega
  rw [utf8EncodeChar_ofNat valid, if_neg (by omega), if_neg (by omega), if_pos (by omega)]
  exact congrArg₂ _ (ofNat_eq (by omega)) (congrArg₂ _ (ofNat_eq (by omega))
    (congrArg₂ _ (ofNat_eq (by omega)) rfl))

/-- A lead of four bytes wants three more, the first of them in a range that leaves out short forms and
what is beyond the last character. -/
theorem begins_four {byte : UInt8} {range : Nat × Nat} (least : 0xF0 ≤ byte.toNat)
    (greatest : byte.toNat ≤ 0xF4) (within : 0x80 ≤ range.1 ∧ range.2 ≤ 0xBF)
    (short : byte.toNat = 0xF0 → 0x90 ≤ range.1) (beyond : byte.toNat = 0xF4 → range.2 ≤ 0x8F) :
    Begins [byte] (byte.toNat % 8) [range, (0x80, 0xBF), (0x80, 0xBF)] := by
  rintro _ (_ | ⟨⟨low, high⟩, _ | ⟨⟨low', high'⟩, _ | ⟨⟨low'', high''⟩, _ | _⟩⟩⟩)
  next second third fourth =>
  dsimp only at low' high' low'' high''
  simp only [completed, List.foldl_cons, List.foldl_nil]
  have valid : (((byte.toNat % 8 * 0x40 + second.toNat % 0x40) * 0x40 + third.toNat % 0x40) * 0x40 +
      fourth.toNat % 0x40).isValidChar := by
    unfold Nat.isValidChar
    omega
  rw [utf8EncodeChar_ofNat valid, if_neg (by omega), if_neg (by omega), if_neg (by omega)]
  exact congrArg₂ _ (ofNat_eq (by omega)) (congrArg₂ _ (ofNat_eq (by omega))
    (congrArg₂ _ (ofNat_eq (by omega)) (congrArg₂ _ (ofNat_eq (by omega)) rfl)))

/-- The first byte of a character begins it. -/
theorem begins_of_lead {byte : UInt8} {bits : Nat} {ranges : List (Nat × Nat)}
    (leads : lead? byte = some (bits, ranges)) : Begins [byte] bits ranges := by
  have few : byte.toNat < 256 := byte.toNat_lt
  unfold lead? at leads
  dsimp only at leads
  split at leads
  · cases leads
    exact begins_one ‹_›
  split at leads
  · cases leads
  split at leads
  · cases leads
    exact begins_two (by omega) ‹_›
  split at leads
  · next same =>
    cases leads
    have begins : Begins [byte] (byte.toNat % 0x10) [(0xA0, 0xBF), (0x80, 0xBF)] :=
      begins_three (by omega) (by omega) (by omega) (by omega)
    rwa [same] at begins
  split at leads
  · cases leads
    exact begins_three (by omega) (by omega) (by omega) (by omega)
  split at leads
  · cases leads
    exact begins_three (by omega) (by omega) (by omega) (by omega)
  split at leads
  · next same =>
    cases leads
    have begins : Begins [byte] (byte.toNat % 8) [(0x90, 0xBF), (0x80, 0xBF), (0x80, 0xBF)] :=
      begins_four (by omega) (by omega) (by omega) (by omega) (by omega)
    rwa [same] at begins
  split at leads
  · cases leads
    exact begins_four (by omega) (by omega) (by omega) (by omega) (by omega)
  split at leads
  · next same =>
    cases leads
    have begins : Begins [byte] (byte.toNat % 8) [(0x80, 0x8F), (0x80, 0xBF), (0x80, 0xBF)] :=
      begins_four (by omega) (by omega) (by omega) (by omega) (by omega)
    rwa [same] at begins
  · cases leads

/-- A byte in the range takes the beginning of a character one byte further. -/
theorem Begins.step {bytes : List UInt8} {bits : Nat} {range : Nat × Nat} {ranges : List (Nat × Nat)}
    (begins : Begins bytes bits (range :: ranges)) {byte : UInt8} (fits : InRange byte range) :
    Begins (bytes ++ [byte]) (bits * 0x40 + byte.toNat % 0x40) ranges := by
  intro tail within
  rw [List.append_assoc]
  exact begins (byte :: tail) (.cons fits within)

/-- A character that was begun is encoded with the bytes that it has so far. -/
def Pending.Sound (pending : Pending) : Prop :=
  Begins pending.bytes pending.bits pending.ranges

/-- The bytes of a character that was begun, if any was. -/
def begun (pending : Option Pending) : List UInt8 :=
  (pending.map Pending.bytes).getD []

/-- The text that is read is written with the bytes that it was read from. -/
theorem encode_of_decodeFrom {pending : Option Pending} {position : Nat} {bytes : List UInt8}
    {text : Text} (sound : ∀ first ∈ pending, first.Sound)
    (ran : decodeFrom pending position bytes = .ok (text, none)) :
    encode text = begun pending ++ bytes := by
  have noneSound : ∀ first ∈ (none : Option Pending), first.Sound := by simp
  fun_induction decodeFrom pending position bytes generalizing text with
  | case1 =>
    cases ran
    rfl
  | case2 => cases ran
  | case3 position byte rest bits leads ih =>
    obtain ⟨⟨further, left⟩, next, same⟩ := exceptBind_eq_ok_iff.mp ran
    cases same
    have whole : String.utf8EncodeChar (Char.ofNat bits) = [byte] := begins_of_lead leads [] .nil
    rw [encode_cons, ih noneSound next, whole]
    rfl
  | case4 position byte rest bits ranges _ leads ih =>
    rw [ih (by rintro _ ⟨⟩; exact begins_of_lead leads) ran]
    rfl
  | case5 => cases ran
  | case6 pending position byte rest least greatest ranges isRanges within bits isLast =>
    rename_i ih
    obtain ⟨⟨further, left⟩, next, same⟩ := exceptBind_eq_ok_iff.mp ran
    cases same
    obtain rfl := List.isEmpty_iff.mp isLast
    have begins : Begins pending.bytes pending.bits [(least, greatest)] := isRanges ▸ sound pending rfl
    have fits : InRange byte (least, greatest) := by simpa [InRange] using within
    have whole := begins.step fits [] .nil
    rw [List.append_nil] at whole
    rw [encode_cons, ih noneSound next]
    exact (congrArg (· ++ rest) whole).trans (by simp [begun])
  | case7 pending position byte rest least greatest ranges isRanges within bits _ =>
    rename_i ih
    have begins : Begins pending.bytes pending.bits ((least, greatest) :: ranges) :=
      isRanges ▸ sound pending rfl
    have fits : InRange byte (least, greatest) := by simpa [InRange] using within
    rw [ih (by rintro _ ⟨⟩; exact begins.step fits) ran]
    simp [begun]
  | case8 => cases ran
  | case9 => cases ran

/-- Bytes that are decoded are the encoding of the text. -/
theorem encode_of_decode {bytes : List UInt8} {text : Text} (ran : decode bytes = .ok text) :
    encode text = bytes := by
  obtain ⟨⟨found, pending⟩, ran, finished⟩ := exceptBind_eq_ok_iff.mp ran
  obtain ⟨_, isNone, same⟩ := exceptBind_eq_ok_iff.mp finished
  cases same
  cases pending with
  | some pending => cases isNone
  | none => exact encode_of_decodeFrom (by simp) ran

/-! ## Line ends -/

/-- Bytes are read as the text that they encode, with its line ends unified. -/
theorem read_eq_ok_iff {bytes : List UInt8} {unified : Text} :
    read bytes = .ok unified ↔ ∃ text, decode bytes = .ok text ∧ unifyLineEnds text = unified := by
  unfold read
  cases decode bytes <;> simp [Except.map]

/-- A character that ends no line is kept. -/
theorem unifyLineEnds_cons {c : Char} (plain : c ≠ '\r') (rest : Text) :
    unifyLineEnds (c :: rest) = c :: unifyLineEnds rest := by
  rw [unifyLineEnds]
  · intro _ same
    exact absurd same plain
  · exact plain

/-- A front without carriage returns is kept. -/
theorem unifyLineEnds_append {front : Text} (absent : '\r' ∉ front) (rest : Text) :
    unifyLineEnds (front ++ rest) = front ++ unifyLineEnds rest := by
  induction front with
  | nil => rfl
  | cons c front ih =>
    rw [List.mem_cons, not_or] at absent
    rw [List.cons_append, unifyLineEnds_cons (Ne.symm absent.1), ih absent.2]
    rfl

theorem unifyLineEnds_of_not_mem {text : Text} (absent : '\r' ∉ text) : unifyLineEnds text = text := by
  have whole := unifyLineEnds_append absent []
  simpa [unifyLineEnds] using whole

/-- The first carriage return of a text gives way to a line feed. -/
theorem exists_first_return {text : Text} (member : '\r' ∈ text) :
    ∃ front rest rest', text = front ++ '\r' :: rest ∧ unifyLineEnds text = front ++ '\n' :: rest' := by
  obtain ⟨front, rest, rfl, absent⟩ := List.eq_append_cons_of_mem member
  have unified : ∃ rest', unifyLineEnds ('\r' :: rest) = '\n' :: rest' := by
    cases rest with
    | nil => exact ⟨_, rfl⟩
    | cons c rest =>
      by_cases isFeed : c = '\n'
      · subst isFeed
        exact ⟨_, rfl⟩
      · refine ⟨_, unifyLineEnds.eq_2 (c :: rest) ?_⟩
        simp [isFeed]
  obtain ⟨rest', unified⟩ := unified
  exact ⟨front, rest, rest', rfl, by rw [unifyLineEnds_append absent, unified]⟩

/-- The front of a text with unified line ends is that of a front of the text. -/
theorem exists_front_of_unify {text front rest : Text} (split : unifyLineEnds text = front ++ rest) :
    ∃ front' rest', text = front' ++ rest' ∧ unifyLineEnds front' = front := by
  fun_induction unifyLineEnds text generalizing front with
  | case1 text ih =>
    rcases List.cons_eq_append_iff.mp split with ⟨rfl, -⟩ | ⟨front, rfl, further⟩
    · exact ⟨[], _, rfl, rfl⟩
    · obtain ⟨front', rest', rfl, rfl⟩ := ih further
      exact ⟨'\r' :: '\n' :: front', rest', rfl, rfl⟩
  | case2 text alone ih =>
    rcases List.cons_eq_append_iff.mp split with ⟨rfl, -⟩ | ⟨front, rfl, further⟩
    · exact ⟨[], _, rfl, rfl⟩
    · obtain ⟨front', rest', rfl, rfl⟩ := ih further
      refine ⟨'\r' :: front', rest', rfl, ?_⟩
      rw [unifyLineEnds]
      rintro more rfl
      exact alone _ rfl
  | case3 c text _ plain ih =>
    rcases List.cons_eq_append_iff.mp split with ⟨rfl, -⟩ | ⟨front, rfl, further⟩
    · exact ⟨[], _, rfl, rfl⟩
    · obtain ⟨front', rest', rfl, rfl⟩ := ih further
      exact ⟨c :: front', rest', rfl, unifyLineEnds_cons plain _⟩
  | case4 =>
    obtain ⟨rfl, -⟩ := List.append_eq_nil_iff.mp split.symm
    exact ⟨[], [], rfl, rfl⟩

/-- With its line ends unified, a front stands in bytes as it did before only if there is no carriage
return in it. -/
theorem encode_isPrefix_iff (front rest : Text) :
    encode front <+: encode (unifyLineEnds front ++ rest) ↔ '\r' ∉ front := by
  constructor
  · intro isFront member
    obtain ⟨before, behind, behind', split, unified⟩ := exists_first_return member
    rw [unified, split, List.append_assoc, encode_append, encode_append,
      List.prefix_append_right_inj, List.cons_append, encode_cons, encode_cons] at isFront
    rw [show String.utf8EncodeChar '\r' = [13] from rfl,
      show String.utf8EncodeChar '\n' = [10] from rfl] at isFront
    simp at isFront
  · intro absent
    rw [unifyLineEnds_of_not_mem absent, encode_append]
    exact List.prefix_append _ _

end JasmineConversion.Encoding
