import JasmineConversion.Text.Codes

/-! # Characters and their codes -/

namespace JasmineConversion

open Text

/-- A number of a character is its code. -/
theorem Text.toNat_ofNat {code : Nat} (valid : code.isValidChar) : (Char.ofNat code).toNat = code := by
  rw [Char.ofNat, dif_pos valid]
  rfl

/-- The code of a character is that of this character alone. -/
@[simp] theorem Text.Content.charOf?_toNat (c : Char) : Content.charOf? c.toNat = some c := by
  rw [charOf?, if_pos (show c.toNat.isValidChar from c.valid), Char.ofNat_toNat]

/-- A code of a character is its number. -/
theorem Text.Content.charOf?_eq_some_iff {code : Nat} {c : Char} :
    Content.charOf? code = some c ↔ code = c.toNat := by
  constructor
  · intro found
    unfold charOf? at found
    split at found
    · next valid =>
      cases found
      exact (Text.toNat_ofNat valid).symm
    · cases found
  · rintro rfl
    exact charOf?_toNat c

/-- Codes are those of a text exactly if each of them is that of its character. -/
theorem Text.Content.mapM_charOf?_eq_some_iff {values : Codes} {value : Text} :
    values.mapM Content.charOf? = some value ↔ values = Codes.ofText value := by
  induction values generalizing value with
  | nil =>
    cases value with
    | nil => exact iff_of_true rfl rfl
    | cons c value => exact iff_of_false nofun nofun
  | cons code values ih =>
    simp only [List.mapM_cons, Option.bind_eq_bind, Option.bind_eq_some_iff,
      charOf?_eq_some_iff, ih, Option.pure_def, Option.some.injEq]
    constructor
    · rintro ⟨c, rfl, rest, rfl, rfl⟩
      rfl
    · cases value with
      | nil => exact nofun
      | cons c value =>
        intro same
        obtain ⟨rfl, rfl⟩ := List.cons.inj same
        exact ⟨c, rfl, value, rfl, rfl⟩

namespace Codes

/-- Different texts have different codes. -/
theorem ofText_inj {text other : Text} : ofText text = ofText other ↔ text = other :=
  List.map_inj_right fun _ _ => Char.toNat_inj.mp

end Codes

end JasmineConversion
