import JasmineConversion.Files.FileName
import JasmineConversion.Proofs.Text.Codes
import JasmineConversion.Proofs.Files.Path

/-! # Bytes of names and their codes

The codes that stand for the bytes of a name are turned into these bytes again, and so is every stretch
of them. So names are told by their codes, although other strings may stand for the same bytes.
-/

namespace JasmineConversion

open Text

namespace FileName

/-! ## One unit of a name -/

/-- Bytes begin with a character exactly if they begin with its encoding. -/
theorem char?_eq_some_iff {bytes : List UInt8} {c : Char} :
    char? bytes = some c ↔ ∃ rest, bytes = String.utf8EncodeChar c ++ rest := by
  constructor
  · intro found
    have front := String.toByteArray_utf8EncodeChar_of_utf8DecodeChar?_eq_some found
    have taken : String.utf8EncodeChar c = bytes.take c.utf8Size := by
      have same := congrArg (fun found : ByteArray => found.data.toList) front
      rwa [List.data_toByteArray, ByteArray.data_extract, List.data_toByteArray, List.extract_toArray,
        List.extract_eq_take_drop, List.drop_zero, Nat.sub_zero] at same
    refine ⟨bytes.drop c.utf8Size, ?_⟩
    rw [taken, List.take_append_drop]
  · rintro ⟨rest, rfl⟩
    rw [char?, List.toByteArray_append, ← List.utf8Encode_singleton]
    exact List.utf8DecodeChar?_utf8Encode_singleton_append

/-- A byte of no character is one of none either if less comes behind it. -/
theorem char?_eq_none_of_append {bytes rest : List UInt8} (noChar : char? (bytes ++ rest) = none) :
    char? bytes = none := by
  rw [Option.eq_none_iff_forall_ne_some] at noChar ⊢
  intro c found
  obtain ⟨more, rfl⟩ := char?_eq_some_iff.mp found
  exact noChar c (char?_eq_some_iff.mpr ⟨more ++ rest, List.append_assoc _ _ _⟩)

/-- The code of a character stands for the encoding of this character. -/
theorem encodeCode_toNat (c : Char) : encodeCode c.toNat = String.utf8EncodeChar c := by
  rw [encodeCode, Content.charOf?_toNat]

/-- The first 128 codes stand for the bytes with their numbers. -/
theorem encodeCode_of_lt {code : Nat} (small : code < 128) : encodeCode code = [UInt8.ofNat code] := by
  have valid : code.isValidChar := by
    unfold Nat.isValidChar
    omega
  have isCode : (Char.ofNat code).toNat = code := toNat_ofNat valid
  have single : (Char.ofNat code).utf8Size = 1 := by
    rw [Char.utf8Size_eq_one_iff, UInt32.le_iff_toNat_le]
    exact Nat.le_trans (Nat.le_of_eq isCode) (Nat.le_of_lt_succ small)
  have byte : (Char.ofNat code).val.toUInt8 = UInt8.ofNat code := by
    rw [← UInt8.toNat_inj, UInt32.toNat_toUInt8, show (Char.ofNat code).val.toNat = code from isCode,
      UInt8.toNat_ofNat']
  rw [← isCode, encodeCode_toNat, String.utf8EncodeChar_eq_singleton single, byte, isCode]

/-- The code of a character stands for bytes. -/
theorem isBare_toNat (c : Char) : isBare c.toNat = false := by
  rw [isBare, isHalf, Content.charOf?_toNat]
  rfl

/-- A byte of no character is none of the first 128. -/
theorem le_of_char?_eq_none {byte : UInt8} {rest : List UInt8} (noChar : char? (byte :: rest) = none) :
    128 ≤ byte.toNat := by
  refine Nat.le_of_not_lt fun small => ?_
  have valid : byte.toNat.isValidChar := by
    unfold Nat.isValidChar
    omega
  have encoded : encodeCode (Char.ofNat byte.toNat).toNat = [byte] := by
    rw [toNat_ofNat valid, encodeCode_of_lt small, UInt8.ofNat_toNat]
  rw [encodeCode_toNat] at encoded
  have found : char? (byte :: rest) = some (Char.ofNat byte.toNat) :=
    char?_eq_some_iff.mpr ⟨rest, by rw [encoded]; rfl⟩
  cases noChar.symm.trans found

/-- The code for a byte of no character is that of none. -/
theorem charOf?_escape {byte : UInt8} (high : 128 ≤ byte.toNat) :
    Content.charOf? (escape byte) = none := by
  have bound := byte.toNat_lt
  rw [Content.charOf?, if_neg]
  unfold escape Nat.isValidChar
  omega

/-- The code for a byte of no character stands for a byte. -/
theorem isBare_escape {byte : UInt8} (high : 128 ≤ byte.toNat) : isBare (escape byte) = false := by
  have bound := byte.toNat_lt
  have paired : 0xDC80 ≤ escape byte ∧ escape byte ≤ 0xDCFF := by
    unfold escape
    omega
  simp [isBare, paired]

/-- The code for a byte of no character stands for this byte. -/
theorem encodeCode_escape {byte : UInt8} (high : 128 ≤ byte.toNat) :
    encodeCode (escape byte) = [byte] := by
  rw [encodeCode, charOf?_escape high, isBare_escape high]
  simp [escape]

/-! ## Names and their codes -/

/-- Bytes that are passed over do not count. -/
theorem decodeFrom_eq (skip : Nat) (bytes : List UInt8) :
    decodeFrom skip bytes = decode (bytes.drop skip) := by
  induction bytes generalizing skip with
  | nil => simp [decode, decodeFrom]
  | cons byte bytes ih =>
    cases skip with
    | zero => rfl
    | succ skip => exact ih skip

/-- A character in front is read first. -/
theorem decode_char (c : Char) (rest : List UInt8) :
    decode (String.utf8EncodeChar c ++ rest) = c.toNat :: decode rest := by
  have found : char? (String.utf8EncodeChar c ++ rest) = some c := char?_eq_some_iff.mpr ⟨rest, rfl⟩
  have size := String.length_utf8EncodeChar c
  cases encoded : String.utf8EncodeChar c with
  | nil =>
    rw [encoded] at size
    exact absurd size (Nat.ne_of_lt c.utf8Size_pos)
  | cons byte more =>
    rw [encoded] at found size
    rw [List.cons_append] at found ⊢
    rw [decode, decodeFrom, found]
    dsimp only
    rw [decodeFrom_eq, ← size, List.length_cons, Nat.add_sub_cancel, List.drop_left]

/-- A byte of no character in front is escaped. -/
theorem decode_byte {byte : UInt8} {rest : List UInt8} (noChar : char? (byte :: rest) = none) :
    decode (byte :: rest) = escape byte :: decode rest := by
  rw [decode, decodeFrom, noChar]
  rfl

/-- The first code of a name stands for the bytes in front, and for bytes at all. It would do so with
fewer bytes behind it, too. -/
theorem exists_of_decode_eq_cons {bytes : List UInt8} {code : Nat} {codes : Codes}
    (read : decode bytes = code :: codes) :
    ∃ rest, bytes = encodeCode code ++ rest ∧ decode rest = codes ∧ isBare code = false ∧
      ∀ front back, rest = front ++ back → decode (encodeCode code ++ front) = code :: decode front := by
  cases bytes with
  | nil => cases read
  | cons byte rest =>
    cases found : char? (byte :: rest) with
    | none =>
      rw [decode_byte found] at read
      obtain ⟨rfl, rfl⟩ := List.cons.inj read
      have high := le_of_char?_eq_none found
      rw [encodeCode_escape high]
      refine ⟨rest, rfl, rfl, isBare_escape high, ?_⟩
      rintro front back rfl
      exact decode_byte (char?_eq_none_of_append found)
    | some c =>
      obtain ⟨rest', split⟩ := char?_eq_some_iff.mp found
      rw [split, decode_char] at read
      obtain ⟨rfl, rfl⟩ := List.cons.inj read
      rw [encodeCode_toNat]
      exact ⟨rest', split, rfl, isBare_toNat c, fun front _ _ => decode_char c front⟩

/-- Strings in a row stand for their bytes in a row. -/
@[simp] theorem encode_append (codes more : Codes) : encode (codes ++ more) = encode codes ++ encode more :=
  List.flatMap_append

/-- A string stands for the bytes of its first code and those of the others. -/
@[simp] theorem encode_cons (code : Nat) (codes : Codes) :
    encode (code :: codes) = encodeCode code ++ encode codes :=
  List.flatMap_cons

/-- The codes of a name stand for its bytes again. -/
@[simp] theorem encode_decode (name : FileName) : encode (decode name) = name := by
  generalize read : decode name = codes
  induction codes generalizing name with
  | nil =>
    cases name with
    | nil => rfl
    | cons byte rest =>
      rw [decode, decodeFrom] at read
      split at read <;> cases read
  | cons code codes ih =>
    obtain ⟨rest, rfl, further, -⟩ := exists_of_decode_eq_cons read
    rw [encode_cons, ih rest further]

/-- The name that a program sees for a file that it made under a name. -/
def listed (codes : Codes) : Codes :=
  decode (encode codes)

/-- A text is seen as it is. -/
@[simp] theorem listed_ofText (text : Text) : listed (.ofText text) = .ofText text := by
  unfold listed
  induction text with
  | nil => rfl
  | cons c text ih =>
    rw [Codes.ofText, List.map_cons, encode_cons, encodeCode_toNat, decode_char]
    exact congrArg (c.toNat :: ·) ih

/-- A name that a program sees is seen again. -/
@[simp] theorem listed_decode (name : FileName) : listed (decode name) = decode name := by
  rw [listed, encode_decode]

/-- Names of places are told by the strings that a program sees. -/
theorem map_encode_decode (place : List FileName) : (place.map decode).map encode = place := by
  rw [List.map_map]
  exact (List.map_congr_left fun name _ => encode_decode name).trans (List.map_id place)

/-- Different names have different codes. -/
theorem decode_inj {name other : FileName} : decode name = decode other ↔ name = other :=
  ⟨fun same => by rw [← encode_decode name, same, encode_decode], congrArg decode⟩

/-- A name whose codes are split is split there as well. -/
theorem exists_of_decode_eq_append {name : FileName} {front back : Codes}
    (read : decode name = front ++ back) :
    ∃ first second, name = first ++ second ∧ decode first = front ∧ decode second = back := by
  induction front generalizing name with
  | nil => exact ⟨[], name, rfl, rfl, read⟩
  | cons code front ih =>
    obtain ⟨rest, rfl, further, -, steady⟩ := exists_of_decode_eq_cons read
    obtain ⟨first, second, rfl, rfl, rfl⟩ := ih further
    exact ⟨encodeCode code ++ first, second, (List.append_assoc _ _ _).symm, steady first second rfl, rfl⟩

/-- Every stretch of the codes of a name is made of the codes of bytes. -/
theorem exists_of_infix {name : FileName} {codes : Codes} (part : codes <:+: decode name) :
    ∃ bytes, codes = decode bytes := by
  obtain ⟨front, back, split⟩ := part
  obtain ⟨first, -, -, here, -⟩ := exists_of_decode_eq_append split.symm
  obtain ⟨-, second, -, -, here⟩ := exists_of_decode_eq_append here
  exact ⟨second, here.symm⟩

/-- What comes behind does not complete a character if it begins with a byte that begins one itself. -/
theorem char?_append_eq_none {byte first : UInt8} {bytes rest : List UInt8}
    (begins : first.IsUTF8FirstByte) (noChar : char? (byte :: bytes) = none) :
    char? (byte :: bytes ++ first :: rest) = none := by
  rw [Option.eq_none_iff_forall_ne_some] at noChar ⊢
  intro c found
  obtain ⟨behind, split⟩ := char?_eq_some_iff.mp found
  rcases List.append_eq_append_iff.mp split with ⟨more, encoded, here⟩ | ⟨more, whole, -⟩
  · cases more with
    | nil => exact noChar c (char?_eq_some_iff.mpr ⟨[], by simp [encoded]⟩)
    | cons other more =>
      obtain rfl : first = other := (List.cons.inj here).1
      have inside : bytes.length + 1 < [c].utf8Encode.size := by
        rw [List.utf8Encode_singleton, List.size_toByteArray, encoded]
        simp
      have there : [c].utf8Encode[bytes.length + 1] = first := by
        simp [List.utf8Encode_singleton, encoded]
      exact absurd (List.isUTF8FirstByte_getElem_utf8Encode_singleton.mp (there ▸ begins))
        (Nat.succ_ne_zero _)
  · exact noChar c (char?_eq_some_iff.mpr ⟨more, whole⟩)

/-- A name is read in two parts where a byte begins a character. -/
theorem decode_append {first : UInt8} (begins : first.IsUTF8FirstByte) (bytes rest : List UInt8) :
    decode (bytes ++ first :: rest) = decode bytes ++ decode (first :: rest) := by
  generalize read : decode bytes = codes
  induction codes generalizing bytes with
  | nil =>
    rw [← encode_decode bytes, read]
    rfl
  | cons code codes ih =>
    cases bytes with
    | nil => cases read
    | cons byte bytes =>
      cases found : char? (byte :: bytes) with
      | none =>
        rw [decode_byte found] at read
        obtain ⟨rfl, further⟩ := List.cons.inj read
        have still : char? (byte :: (bytes ++ first :: rest)) = none := char?_append_eq_none begins found
        rw [List.cons_append, decode_byte still, ih bytes further]
        rfl
      | some c =>
        obtain ⟨behind, split⟩ := char?_eq_some_iff.mp found
        rw [split, decode_char] at read
        obtain ⟨rfl, further⟩ := List.cons.inj read
        rw [split, List.append_assoc, decode_char, ih behind further]
        rfl

/-- One of the first 128 codes is among those of a name only if its byte is in the name. -/
theorem mem_of_mem_decode {name : FileName} {code : Nat} (small : code < 128)
    (member : code ∈ decode name) : UInt8.ofNat code ∈ name := by
  rw [← encode_decode name, encode, List.mem_flatMap]
  exact ⟨code, member, by rw [encodeCode_of_lt small]; exact List.mem_singleton_self _⟩

/-- All codes of a name stand for bytes. -/
theorem isBare_of_mem_decode {name : FileName} {code : Nat} (member : code ∈ decode name) :
    isBare code = false := by
  obtain ⟨front, back, split⟩ := List.append_of_mem member
  obtain ⟨-, bytes, -, -, here⟩ := exists_of_decode_eq_append split
  obtain ⟨-, -, -, stands, -⟩ := exists_of_decode_eq_cons here
  exact stands

/-! ## Strings that can be handed to the system -/

/-- A string can be handed to the system exactly if each code stands for bytes and none is a NUL. -/
theorem hazard?_eq_none_iff {codes : Codes} :
    hazard? codes = none ↔ (∀ code ∈ codes, isBare code = false) ∧ 0 ∉ codes := by
  unfold hazard?
  cases found : codes.findIdx? isBare with
  | none => simpa [List.contains_iff_mem] using fun _ => List.findIdx?_eq_none_iff.mp found
  | some position =>
    refine iff_of_false nofun fun clean => ?_
    obtain ⟨here, isFirst, -⟩ := List.findIdx?_eq_some_iff_getElem.mp found
    exact Bool.false_ne_true ((clean.1 _ (List.getElem_mem here)).symm.trans isFirst)

/-- A name without a NUL can be handed to the system. -/
theorem hazard?_decode {name : FileName} (noNul : (0 : UInt8) ∉ name) : hazard? (decode name) = none :=
  hazard?_eq_none_iff.mpr ⟨fun _ => isBare_of_mem_decode, fun member =>
    noNul (mem_of_mem_decode (by decide) member)⟩

/-- What can be handed to the system can be so in part. -/
theorem hazard?_of_subset {codes more : Codes} (part : codes ⊆ more) (clean : hazard? more = none) :
    hazard? codes = none := by
  rw [hazard?_eq_none_iff] at clean ⊢
  exact ⟨fun code member => clean.1 code (part member), fun member => clean.2 (part member)⟩

/-- Strings in a row can be handed to the system if each can. -/
theorem hazard?_append {codes more : Codes} :
    hazard? (codes ++ more) = none ↔ hazard? codes = none ∧ hazard? more = none := by
  simp only [hazard?_eq_none_iff, List.mem_append, or_imp, forall_and, not_or]
  exact and_and_and_comm

end FileName

namespace Path

open FileName

/-- A path can be handed to the system exactly if each of its parts can. -/
theorem hazard?_eq_none_iff {path : Path} :
    path.hazard? = none ↔ ∀ part ∈ path.parts, FileName.hazard? part = none := by
  unfold hazard?
  simp only [FileName.hazard?_eq_none_iff]
  constructor
  · rintro ⟨stand, noNul⟩ part isPart
    exact ⟨fun code member => stand code (mem_codes_of_mem isPart member),
      fun member => noNul (mem_codes_of_mem isPart member)⟩
  · intro clean
    have usual : ∀ code ∈ path.codes, isBare code = false ∧ code ≠ 0 := by
      intro code member
      rcases mem_codes member with rfl | isDot | ⟨part, isPart, member⟩
      · decide
      · obtain rfl := List.mem_singleton.mp isDot
        decide
      · exact ⟨(clean part isPart).1 code member, fun isNul => (clean part isPart).2 (isNul ▸ member)⟩
    exact ⟨fun code member => (usual code member).1, fun isNul => (usual 0 isNul).2 rfl⟩

/-- A path that is read from a string that can be handed to the system can be handed to it. -/
theorem hazard?_parse {codes : Codes} (clean : FileName.hazard? codes = none) :
    (parse codes).hazard? = none := by
  rw [FileName.hazard?_eq_none_iff] at clean
  refine hazard?_eq_none_iff.mpr fun part isPart => FileName.hazard?_eq_none_iff.mpr ⟨?_, ?_⟩
  · exact fun code member => clean.1 code (mem_of_mem_parse isPart member)
  · exact fun member => clean.2 (mem_of_mem_parse isPart member)

/-- A path taken from another one can be handed to the system if both can. -/
theorem hazard?_append {base path : Path} (clean : base.hazard? = none) (clean' : path.hazard? = none) :
    (base.append path).hazard? = none := by
  unfold append
  split
  · rw [hazard?_eq_none_iff] at clean clean' ⊢
    exact fun part member => (List.mem_append.mp member).elim (clean part) (clean' part)
  · exact clean'

/-- What can be handed to the system can be so without its last name. -/
theorem hazard?_parent {path : Path} (clean : path.hazard? = none) : path.parent.hazard? = none := by
  rw [hazard?_eq_none_iff] at clean ⊢
  exact fun part member => clean part (List.dropLast_subset _ member)

end Path

end JasmineConversion
