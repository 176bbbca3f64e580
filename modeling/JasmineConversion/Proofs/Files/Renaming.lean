import JasmineConversion.Proofs.Files.Mask

/-! # Renaming forth and back

A mask with an asterisk and no other wildcard selects exactly the names that begin and end as it does, with any text
between the two ends. The other mask puts its own ends around this text, and takes them off again when the masks
change places.
-/

namespace JasmineConversion.Mask

open Text

variable {mask input output : Codes}

/-- A mask with one asterisk and no other wildcard. -/
structure Simple (mask : Codes) : Prop where
  single : mask.count '*'.toNat = 1
  noMark : '?'.toNat ∉ mask
  noBracket : '['.toNat ∉ mask

instance (mask : Codes) : Decidable (Simple mask) :=
  decidable_of_iff (mask.count '*'.toNat = 1 ∧ '?'.toNat ∉ mask ∧ '['.toNat ∉ mask)
    ⟨fun ⟨single, noMark, noBracket⟩ => ⟨single, noMark, noBracket⟩,
      fun simple => ⟨simple.single, simple.noMark, simple.noBracket⟩⟩

namespace Simple

theorem star_mem (simple : Simple mask) : '*'.toNat ∈ mask :=
  List.count_pos_iff.mp (simple.single ▸ Nat.one_pos)

/-- The ends of a simple mask stand for themselves, and may not overlap in a name. -/
theorem isMatch_iff (simple : Simple mask) {name : Codes} :
    isMatch mask name = true ↔ ∃ stem, name = lead mask ++ stem ++ tail mask := by
  rw [isMatch_of_plain simple.noBracket, map_ofChar_of_star simple.star_mem,
    Wildcard.map_ofChar_of_literal (lead_star_tail simple.star_mem).1 (not_mem_lead simple.noMark),
    Wildcard.map_ofChar_of_literal (star_not_mem_tail simple.single) (not_mem_tail simple.noMark),
    Wildcard.matchAll_append_iff]
  simp only [Wildcard.matchAll_anyText_iff, Wildcard.matchAll_char_iff]
  constructor
  · rintro ⟨-, -, rfl, rfl, stem, -, rfl, rfl⟩
    exact ⟨stem, (List.append_assoc _ _ _).symm⟩
  · rintro ⟨stem, rfl⟩
    exact ⟨_, _, List.append_assoc _ _ _, rfl, stem, _, rfl, rfl⟩

/-- A name that is made of a simple mask and a stem is renamed by filling the output mask with the stem.
-/
theorem rename?_eq (simple : Simple input) (output stem : Codes) :
    rename? input output (lead input ++ stem ++ tail input) = some (fill output stem) := by
  have selected := simple.isMatch_iff.mpr ⟨stem, rfl⟩
  have fits : (lead input).length + (tail input).length ≤ (lead input ++ stem ++ tail input).length := by
    simp only [List.length_append]
    omega
  simp only [rename?, selected, between_append, Bool.true_and, decide_eq_true fits, if_true]

/-- A new name is given to exactly the names that are selected. -/
theorem isSome_rename? (simple : Simple input) (output name : Codes) :
    (rename? input output name).isSome = isMatch input name := by
  rw [Bool.eq_iff_iff]
  constructor
  · intro named
    simp only [rename?] at named
    split at named
    · next fits => exact (Bool.and_eq_true_iff.mp fits).1
    · cases named
  · intro selected
    obtain ⟨stem, rfl⟩ := simple.isMatch_iff.mp selected
    rw [simple.rename?_eq]
    rfl

end Simple

/-- Between two simple masks, a name is new exactly if it is selected, and so if it begins and ends as the input mask
does, the ends apart. What stands between them stands between the ends of the output mask then, whatever it is, and the
output mask selects the new name and gives the old one back. -/
theorem renaming_undone (simple : Simple input) (simple' : Simple output) (name : Codes) :
    ((rename? input output name).isSome = true ↔ isMatch input name = true) ∧
      (isMatch input name = true ↔ ∃ stem, name = lead input ++ stem ++ tail input) ∧
      (∀ stem, name = lead input ++ stem ++ tail input →
        rename? input output name = some (lead output ++ stem ++ tail output)) ∧
      ∀ renamed, rename? input output name = some renamed → rename? output input renamed = some name := by
  have renames (stem : Codes) : rename? input output (lead input ++ stem ++ tail input) =
      some (lead output ++ stem ++ tail output) := by
    rw [simple.rename?_eq, fill_eq simple'.star_mem]
  refine ⟨by rw [simple.isSome_rename?], simple.isMatch_iff, ?_, ?_⟩
  · rintro stem rfl
    exact renames stem
  · intro renamed named
    have selected : isMatch input name = true := by
      rw [← simple.isSome_rename? output, named]
      rfl
    obtain ⟨stem, rfl⟩ := simple.isMatch_iff.mp selected
    obtain rfl := Option.some.inj ((renames stem).symm.trans named)
    rw [simple'.rename?_eq, fill_eq simple.star_mem]

/-- The text between the ends may hold an asterisk and the ends themselves. -/
theorem renaming_undone_of_starredName :
    rename? (.ofString "a*Test.js") (.ofString "*Test.jsa") (.ofString "aa*Test.jsTest.js") =
        some (.ofString "a*Test.jsTest.jsa") ∧
      rename? (.ofString "*Test.jsa") (.ofString "a*Test.js") (.ofString "a*Test.jsTest.jsa") =
        some (.ofString "aa*Test.jsTest.js") := by
  obtain ⟨-, -, renames, undone⟩ := @renaming_undone (.ofString "a*Test.js") (.ofString "*Test.jsa")
    (by decide) (by decide) (.ofString "aa*Test.jsTest.js")
  have named := renames (.ofString "a*Test.js") (by decide)
  exact ⟨named, undone _ named⟩

/-- The two ends of a mask do not share characters of a name. -/
example : rename? (.ofString "ab*b") (.ofString "*x") (.ofString "ab") = none := by
  decide +kernel

end JasmineConversion.Mask
