import Mathlib.Data.List.Basic
import Mathlib.Data.List.Count
import JasmineConversion.Files.Mask
import JasmineConversion.Proofs.Files.Path
import JasmineConversion.Settings.Validation

/-! # Masks and the names they select

A mask with one asterisk and without brackets selects the names that it splits: what its ends stand
for is as long as they are, and the asterisk stands for the text between. This text alone is what a
new name takes over from the old one.
-/

namespace JasmineConversion

open Text

namespace Wildcard

variable {piece : Wildcard} {pieces more : List Wildcard} {mask name codes : Codes}

theorem mem_ends_iff : codes ∈ ends name ↔ codes <:+ name := by
  induction name with
  | nil => rw [ends, List.mem_singleton, List.suffix_nil]
  | cons c rest ih => rw [ends, List.mem_cons, ih, List.suffix_cons_iff]

/-- An asterisk stands for any front of a name. -/
theorem matchAll_anyText_iff :
    matchAll (anyText :: pieces) name = true ↔
      ∃ front back, name = front ++ back ∧ matchAll pieces back = true := by
  rw [matchAll, List.any_eq_true]
  constructor
  · rintro ⟨back, isEnd, matched⟩
    obtain ⟨front, rfl⟩ := mem_ends_iff.mp isEnd
    exact ⟨front, back, rfl, matched⟩
  · rintro ⟨front, back, rfl, matched⟩
    exact ⟨back, mem_ends_iff.mpr (List.suffix_append front back), matched⟩

/-- A piece other than an asterisk stands for one character. -/
theorem matchAll_cons_iff (other : piece ≠ anyText) :
    matchAll (piece :: pieces) name = true ↔
      ∃ c rest, name = c :: rest ∧ piece.accepts c = true ∧ matchAll pieces rest = true := by
  cases name <;> cases piece <;> simp_all [matchAll]

/-- A mask in two parts selects what is put together from names that these select. -/
theorem matchAll_append_iff :
    matchAll (pieces ++ more) name = true ↔
      ∃ front back, name = front ++ back ∧ matchAll pieces front = true ∧
        matchAll more back = true := by
  induction pieces generalizing name with
  | nil => simp [matchAll]
  | cons piece pieces ih =>
    rw [List.cons_append]
    by_cases isText : piece = anyText
    · subst isText
      simp only [matchAll_anyText_iff, ih]
      constructor
      · rintro ⟨first, -, rfl, front, back, rfl, matched, matched'⟩
        exact ⟨first ++ front, back, by simp, ⟨first, front, rfl, matched⟩, matched'⟩
      · rintro ⟨-, back, rfl, ⟨first, front, rfl, matched⟩, matched'⟩
        exact ⟨first, front ++ back, by simp, front, back, rfl, matched, matched'⟩
    · simp only [matchAll_cons_iff isText, ih]
      constructor
      · rintro ⟨c, -, rfl, accepted, front, back, rfl, matched, matched'⟩
        exact ⟨c :: front, back, rfl, ⟨c, front, rfl, accepted, matched⟩, matched'⟩
      · rintro ⟨-, back, rfl, ⟨c, front, rfl, accepted, matched⟩, matched'⟩
        exact ⟨c, front ++ back, rfl, accepted, front, back, rfl, matched, matched'⟩

/-- Without an asterisk, each piece stands for one character. -/
theorem length_eq_of_matchAll (single : ∀ piece ∈ pieces, piece ≠ anyText)
    (matched : matchAll pieces name = true) : name.length = pieces.length := by
  induction pieces generalizing name with
  | nil => simpa [matchAll] using matched
  | cons piece pieces ih =>
    obtain ⟨here, further⟩ := List.forall_mem_cons.mp single
    obtain ⟨c, rest, rfl, -, matched⟩ := (matchAll_cons_iff here).mp matched
    rw [List.length_cons, List.length_cons, ih further matched]

/-- A mask of plain characters selects itself only. -/
theorem matchAll_char_iff : matchAll (codes.map char) name = true ↔ name = codes := by
  induction codes generalizing name with
  | nil => simp [matchAll]
  | cons expected codes ih =>
    rw [List.map_cons, matchAll_cons_iff (by simp)]
    simp only [ih, accepts, beq_iff_eq]
    constructor
    · rintro ⟨c, rest, rfl, rfl, rfl⟩
      rfl
    · rintro rfl
      exact ⟨expected, codes, rfl, rfl, rfl⟩

/-- What a character of a mask stands for, unless it opens brackets. -/
def ofChar (c : Nat) : Wildcard :=
  if c = '*'.toNat then anyText else if c = '?'.toNat then anyChar else char c

theorem ofChar_ne_anyText {c : Nat} (other : c ≠ '*'.toNat) : ofChar c ≠ anyText := by
  unfold ofChar
  rw [if_neg other]
  split <;> simp

/-- A mask without sets is parsed character by character, given enough steps. -/
theorem parseFrom_of_plain {bound : Nat} (plain : '['.toNat ∉ mask) (enough : mask.length ≤ bound) :
    parseFrom bound mask = mask.map ofChar := by
  induction mask generalizing bound with
  | nil => cases bound <;> rfl
  | cons c rest ih =>
    obtain ⟨bound, rfl⟩ := Nat.exists_eq_succ_of_ne_zero (Nat.ne_zero_of_lt enough)
    rw [List.mem_cons, not_or] at plain
    rw [parseFrom, ih plain.2 (Nat.le_of_succ_le_succ enough), if_neg (Ne.symm plain.1), List.map_cons,
      ofChar]
    split
    · rfl
    · split <;> rfl

theorem parse_of_plain (plain : '['.toNat ∉ mask) : parse mask = mask.map ofChar :=
  parseFrom_of_plain plain (Nat.le_refl _)

/-- A part of a mask without wildcards stands for its own characters. -/
theorem map_ofChar_of_literal (noStar : '*'.toNat ∉ mask) (noMark : '?'.toNat ∉ mask) : mask.map ofChar = mask.map char := by
  refine List.map_congr_left fun c member => ?_
  rw [ofChar, if_neg, if_neg]
  · rintro rfl
    exact noMark member
  · rintro rfl
    exact noStar member

end Wildcard

namespace Mask

variable {mask input output name stem : Codes}

/-- A mask that settings accept. -/
def Accepted (mask : Codes) : Prop :=
  SettingValue.maskFault? mask = none

/-- The asterisk of a mask stands for a text in a name: the text lies between what the two ends of the
mask stand for. -/
def Splits (mask name stem : Codes) : Prop :=
  ∃ front back, name = front ++ stem ++ back ∧ isMatch (lead mask) front = true ∧
    isMatch (tail mask) back = true

/-- A mask is accepted if it has exactly one asterisk and no slash or backslash. -/
theorem accepted_iff :
    Accepted mask ↔ mask.count '*'.toNat = 1 ∧ '/'.toNat ∉ mask ∧ '\\'.toNat ∉ mask := by
  unfold Accepted SettingValue.maskFault?
  by_cases single : mask.count '*'.toNat = 1
  · rw [if_neg (not_not_intro single), ite_eq_right_iff, and_iff_right single, Bool.or_eq_true,
      List.contains_iff_mem, List.contains_iff_mem, ← not_or]
    exact imp_congr_right fun _ => iff_of_false nofun id
  · rw [if_pos single]
    exact iff_of_false nofun fun rules => single rules.1

instance (mask : Codes) : Decidable (Accepted mask) :=
  decidable_of_iff _ accepted_iff.symm

theorem Accepted.star_mem (accepted : Accepted mask) : '*'.toNat ∈ mask :=
  List.count_pos_iff.mp (by rw [(accepted_iff.mp accepted).1]; exact Nat.one_pos)

/-- A mask is put together from its two ends and the first asterisk, which is not in the first end. -/
theorem lead_star_tail (star : '*'.toNat ∈ mask) :
    '*'.toNat ∉ lead mask ∧ mask = lead mask ++ '*'.toNat :: tail mask := by
  obtain ⟨before, behind, split, absent⟩ := List.eq_append_cons_of_mem star
  have other : ∀ c ∈ before, (c != '*'.toNat) = true := fun c member =>
    bne_iff_ne.mpr fun same => absent (same ▸ member)
  have isLead : lead mask = before := by
    rw [lead, split, List.takeWhile_append_of_pos other, List.takeWhile_cons_of_neg (by simp),
      List.append_nil]
  have isTail : tail mask = behind := by
    rw [tail, split, List.dropWhile_append_of_pos other, List.dropWhile_cons_of_neg (by simp)]
    rfl
  rw [isLead, isTail]
  exact ⟨absent, split⟩

theorem star_not_mem_tail (single : mask.count '*'.toNat = 1) : '*'.toNat ∉ tail mask := by
  obtain ⟨absent, split⟩ := lead_star_tail (List.count_pos_iff.mp (single ▸ Nat.one_pos))
  rw [split, List.count_append, List.count_cons_self, List.count_eq_zero.mpr absent] at single
  exact List.count_eq_zero.mp (by omega)

theorem Accepted.star_not_mem_tail (accepted : Accepted mask) : '*'.toNat ∉ tail mask :=
  Mask.star_not_mem_tail (accepted_iff.mp accepted).1

/-! ## Masks without brackets -/

theorem isMatch_of_plain (plain : '['.toNat ∉ mask) :
    isMatch mask name = Wildcard.matchAll (mask.map Wildcard.ofChar) name := by
  rw [isMatch_eq, Wildcard.parse_of_plain plain]

/-- A mask without sets and asterisks selects names of its own length. -/
theorem length_eq_of_isMatch (plain : '['.toNat ∉ mask) (noStar : '*'.toNat ∉ mask)
    (matched : isMatch mask name = true) : name.length = mask.length := by
  rw [isMatch_of_plain plain] at matched
  rw [Wildcard.length_eq_of_matchAll _ matched, List.length_map]
  intro piece member
  obtain ⟨c, isChar, rfl⟩ := List.mem_map.mp member
  exact Wildcard.ofChar_ne_anyText fun same => noStar (same ▸ isChar)

/-- Without any wildcards, a mask stands for itself. -/
theorem eq_of_isMatch (plain : '['.toNat ∉ mask) (noStar : '*'.toNat ∉ mask) (noMark : '?'.toNat ∉ mask)
    (matched : isMatch mask name = true) : name = mask := by
  rw [isMatch_of_plain plain, Wildcard.map_ofChar_of_literal noStar noMark] at matched
  exact Wildcard.matchAll_char_iff.mp matched

theorem not_mem_lead {c : Nat} (absent : c ∉ mask) : c ∉ lead mask :=
  fun member => absent ((List.takeWhile_sublist _).subset member)

theorem not_mem_tail {c : Nat} (absent : c ∉ mask) : c ∉ tail mask :=
  fun member => absent ((List.dropWhile_sublist _).subset ((List.drop_sublist _ _).subset member))

/-- A mask is its lead, the asterisk and its tail. -/
theorem map_ofChar_of_star (star : '*'.toNat ∈ mask) : mask.map Wildcard.ofChar =
    (lead mask).map Wildcard.ofChar ++ Wildcard.anyText :: (tail mask).map Wildcard.ofChar := by
  conv_lhs => rw [(lead_star_tail star).2, List.map_append, List.map_cons]
  rfl

/-- A mask without sets selects exactly the names that split into a lead, a stem and a tail. -/
theorem isMatch_iff_splits (accepted : Accepted mask) (plain : '['.toNat ∉ mask) :
    isMatch mask name = true ↔ ∃ stem, Splits mask name stem := by
  rw [isMatch_of_plain plain, map_ofChar_of_star accepted.star_mem, Wildcard.matchAll_append_iff]
  simp only [Splits, isMatch_of_plain (not_mem_lead plain), isMatch_of_plain (not_mem_tail plain),
    Wildcard.matchAll_anyText_iff]
  constructor
  · rintro ⟨front, -, rfl, matched, stem, back, rfl, matched'⟩
    exact ⟨stem, front, back, by simp, matched, matched'⟩
  · rintro ⟨stem, front, back, rfl, matched, matched'⟩
    exact ⟨front, stem ++ back, by simp, matched, stem, back, rfl, matched'⟩

/-- The part of a name between two others is what is left without as many characters as these have. -/
theorem between_append (front stem back : Codes) :
    between front.length back.length (front ++ stem ++ back) = stem := by
  have kept : (front ++ stem ++ back).length - back.length = (front ++ stem).length := by
    rw [List.length_append, Nat.add_sub_cancel]
  rw [between, kept, List.take_left, List.drop_left]

/-- A part of a name is a stretch of it. -/
theorem between_isInfix (front back : Nat) (name : Codes) : between front back name <:+: name :=
  (List.drop_suffix _ _).isInfix.trans (List.take_prefix _ _).isInfix

/-- The string of the asterisk is what is left of a name without as many characters as the two ends of
the mask have. -/
theorem Splits.between_eq (split : Splits mask name stem) (accepted : Accepted mask)
    (plain : '['.toNat ∉ mask) :
    (lead mask).length + (tail mask).length ≤ name.length ∧
      between (lead mask).length (tail mask).length name = stem := by
  obtain ⟨front, back, rfl, matched, matched'⟩ := split
  rw [← length_eq_of_isMatch (not_mem_lead plain) (lead_star_tail accepted.star_mem).1 matched,
    ← length_eq_of_isMatch (not_mem_tail plain) accepted.star_not_mem_tail matched']
  refine ⟨?_, between_append front stem back⟩
  simp only [List.length_append]
  omega

/-- The asterisk stands for one string only. -/
theorem Splits.unique {stem' : Codes} (split : Splits mask name stem) (split' : Splits mask name stem')
    (accepted : Accepted mask) (plain : '['.toNat ∉ mask) : stem = stem' :=
  (split.between_eq accepted plain).2.symm.trans (split'.between_eq accepted plain).2

/-- A name is new with the text of the asterisk in place of the other one. -/
theorem rename?_eq_some_iff (accepted : Accepted input) (plain : '['.toNat ∉ input) {renamed : Codes} :
    rename? input output name = some renamed ↔
      ∃ stem, Splits input name stem ∧ renamed = fill output stem := by
  unfold rename?
  dsimp only
  constructor
  · intro found
    split at found
    · next fits =>
      rw [Bool.and_eq_true] at fits
      obtain ⟨stem, split⟩ := (isMatch_iff_splits accepted plain).mp fits.1
      rw [(split.between_eq accepted plain).2] at found
      exact ⟨stem, split, (Option.some.inj found).symm⟩
    · cases found
  · rintro ⟨stem, split, rfl⟩
    obtain ⟨fits, isStem⟩ := split.between_eq accepted plain
    rw [(isMatch_iff_splits accepted plain).mpr ⟨stem, split⟩, isStem]
    simp [fits]

/-- Without question marks and brackets, a name is the mask with the text of the asterisk. -/
theorem Splits.eq_of_plain (split : Splits mask name stem) (accepted : Accepted mask)
    (plain : '['.toNat ∉ mask) (noMark : '?'.toNat ∉ mask) : name = lead mask ++ stem ++ tail mask := by
  obtain ⟨front, back, rfl, matched, matched'⟩ := split
  rw [eq_of_isMatch (not_mem_lead plain) (lead_star_tail accepted.star_mem).1
      (not_mem_lead noMark) matched,
    eq_of_isMatch (not_mem_tail plain) accepted.star_not_mem_tail (not_mem_tail noMark) matched']

theorem fill_eq (star : '*'.toNat ∈ mask) (stem : Codes) : fill mask stem = lead mask ++ stem ++ tail mask :=
  if_pos (List.contains_iff_mem.mpr star)

theorem fill_injective (star : '*'.toNat ∈ mask) : Function.Injective (fill mask) := by
  intro stem stem' same
  rw [fill_eq star, fill_eq star] at same
  exact List.append_cancel_left (List.append_cancel_right same)

/-- A filled mask has only characters of the mask and the stem. -/
theorem not_mem_fill {c : Nat} (absent : c ∉ mask) (absent' : c ∉ stem) : c ∉ fill mask stem := by
  unfold fill
  split
  · simp only [List.mem_append, not_or]
    exact ⟨⟨not_mem_lead absent, absent'⟩, not_mem_tail absent⟩
  · exact absent

end Mask

end JasmineConversion
