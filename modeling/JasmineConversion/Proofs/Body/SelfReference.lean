import JasmineConversion.Body.SelfReference
import JasmineConversion.Proofs.Settings.Validation
import JasmineConversion.Proofs.Suite.Pattern
import JasmineConversion.Proofs.Text.Dedent

/-! # Member accesses on the test case

A text that is put together holds a member access on `this` only if a part of it does, or if one reaches
from a part into what follows. Where the references to the test case are replaced none is left, and moving
lines to the left brings none back.
-/

namespace JasmineConversion

open Text

namespace Body

/-- A member access on `this` stands at the front of a text, behind a given character. -/
def SelfAt (previous : Option Char) (text : Text) : Prop :=
  startsFresh previous = true ∧ ∃ c rest, text = selfAccess ++ c :: rest ∧ isIdentifierStart c = true

/-- A text holds a member access on `this`. -/
def HoldsSelf (text : Text) : Prop :=
  ∃ front back, text = front ++ back ∧ SelfAt front.getLast? back

/-- A member access on `this` reaches from the end of a text into the next one. -/
def Straddles (before after : Text) : Prop :=
  ∃ front first, before = front ++ first ∧ first ≠ [] ∧ first.length ≤ selfAccess.length ∧
    SelfAt front.getLast? (first ++ after)

variable {previous : Option Char} {text before after piece : Text}

/-! ## Texts that are put together -/

/-- A word may start behind a text if it may start behind its last character, or in front of the text if
it is empty. -/
theorem startsFresh_or {last : Option Char} (fresh : startsFresh previous = true)
    (other : startsFresh last = true) : startsFresh (last.or previous) = true := by
  cases last with
  | none => exact fresh
  | some c => exact other

/-- If a word may start behind a text, it may start behind its last character. -/
theorem startsFresh_of_or {last : Option Char} (fresh : startsFresh (last.or previous) = true) :
    startsFresh last = true := by
  cases last with
  | none => rfl
  | some c => exact fresh

/-- A word may start behind a text of no identifier. -/
theorem startsFresh_getLast? (fresh : ∀ c ∈ text, isIdentifierPart c = false) :
    startsFresh text.getLast? = true := by
  cases last : text.getLast? with
  | none => rfl
  | some c => simp [startsFresh, fresh c (List.mem_of_getLast? last)]

/-- A text ends with no character of a member access on `this`. -/
def EndsApart (text : Text) : Prop :=
  ∀ c ∈ text.getLast?, c ∉ selfAccess

/-- A text starts with neither a dot nor an identifier. -/
def StartsApart (text : Text) : Prop :=
  ∀ c ∈ text.head?, isIdentifierStart c = false ∧ c ≠ '.'

instance (text : Text) : Decidable (EndsApart text) :=
  decidable_of_iff (text.getLast?.all fun c => decide (c ∉ selfAccess)) (by
    simp [EndsApart, Option.all_eq_true])

instance (text : Text) : Decidable (StartsApart text) :=
  decidable_of_iff (text.head?.all fun c => !isIdentifierStart c && c != '.') (by
    simp [StartsApart, Option.all_eq_true])

/-- A text that ends apart does so behind another one. -/
theorem EndsApart.append_left (apart : EndsApart after) (nonempty : after ≠ []) (before : Text) :
    EndsApart (before ++ after) := by
  unfold EndsApart at *
  rw [List.getLast?_append]
  rwa [List.getLast?_eq_some_getLast nonempty] at apart ⊢

/-- Two texts that end apart do so together. -/
theorem EndsApart.append (first : EndsApart before) (second : EndsApart after) :
    EndsApart (before ++ after) := by
  by_cases empty : after = []
  · rwa [empty, List.append_nil]
  · exact second.append_left empty before

/-- A text that starts apart does so in front of another one. -/
theorem StartsApart.append_right (apart : StartsApart before) (nonempty : before ≠ []) (after : Text) :
    StartsApart (before ++ after) := by
  obtain ⟨c, rest, rfl⟩ := List.exists_cons_of_ne_nil nonempty
  exact apart

@[simp] theorem startsApart_cons {c : Char} :
    StartsApart (c :: text) ↔ isIdentifierStart c = false ∧ c ≠ '.' := by
  simp [StartsApart]

/-- An access of which the first part ends a text goes on in the next one. -/
theorem SelfAt.exists_second {first : Text} (here : SelfAt previous (first ++ after))
    (short : first.length ≤ selfAccess.length) :
    ∃ second c rest, selfAccess = first ++ second ∧ after = second ++ c :: rest ∧
      isIdentifierStart c = true := by
  obtain ⟨-, c, rest, same, starts⟩ := here
  obtain ⟨second, split⟩ := List.prefix_of_prefix_length_le (List.prefix_append first after)
    (same ▸ List.prefix_append selfAccess (c :: rest)) short
  rw [← split, List.append_assoc] at same
  exact ⟨second, c, rest, split.symm, List.append_cancel_left same, starts⟩

theorem HoldsSelf.append_right (holds : HoldsSelf before) (after : Text) : HoldsSelf (before ++ after) := by
  obtain ⟨front, back, rfl, fresh, c, rest, rfl, starts⟩ := holds
  exact ⟨front, selfAccess ++ c :: (rest ++ after), by simp, fresh, c, rest ++ after, rfl, starts⟩

theorem HoldsSelf.of_front (begins : piece <+: text) (holds : HoldsSelf piece) : HoldsSelf text := by
  obtain ⟨rest, rfl⟩ := begins
  exact holds.append_right rest

/-- What a text holds stays there behind another one that does not run into it. -/
theorem HoldsSelf.append_left (fresh : startsFresh before.getLast? = true) (holds : HoldsSelf after) :
    HoldsSelf (before ++ after) := by
  obtain ⟨front, back, rfl, apart, access⟩ := holds
  refine ⟨before ++ front, back, (List.append_assoc before front back).symm, ?_, access⟩
  rw [List.getLast?_append]
  exact startsFresh_or fresh apart

/-- An access in two texts lies in one of them or reaches from the first into the second. -/
theorem HoldsSelf.of_append (holds : HoldsSelf (before ++ after)) :
    HoldsSelf before ∨ HoldsSelf after ∨ Straddles before after := by
  obtain ⟨front, back, split, here⟩ := holds
  rcases List.append_eq_append_iff.mp split with ⟨rest, rfl, rfl⟩ | ⟨first, rfl, rfl⟩
  · rw [List.getLast?_append] at here
    exact .inr (.inl ⟨rest, back, rfl, startsFresh_of_or here.1, here.2⟩)
  · by_cases empty : first = []
    · subst empty
      exact .inr (.inl ⟨[], after, rfl, rfl, here.2⟩)
    · by_cases short : first.length ≤ selfAccess.length
      · exact .inr (.inr ⟨front, first, rfl, empty, short, here⟩)
      · obtain ⟨fresh, c, rest, same, starts⟩ := here
        have begins : selfAccess ++ [c] <+: first :=
          List.prefix_of_prefix_length_le ⟨rest, by simp [same]⟩ (List.prefix_append first after)
            (Nat.lt_of_not_le short)
        obtain ⟨more, rfl⟩ := begins
        exact .inl ⟨front, _, rfl, fresh, c, more, by simp, starts⟩

/-- No access reaches out of a text that ends with another character than those of an access. -/
theorem not_straddles_of_last (last : EndsApart before) : ¬ Straddles before after := by
  rintro ⟨front, first, rfl, nonempty, short, here⟩
  obtain ⟨second, -, -, split, -⟩ := here.exists_second short
  have ends : first.getLast nonempty ∈ (front ++ first).getLast? := by
    rw [List.getLast?_append, List.getLast?_eq_some_getLast nonempty]
    rfl
  exact last _ ends (split ▸ List.mem_append_left second (List.getLast_mem nonempty))

/-- No access reaches into a text that starts with neither a dot nor an identifier. -/
theorem not_straddles_of_head (head : StartsApart after) :
    ¬ Straddles before after := by
  rintro ⟨front, first, rfl, nonempty, short, here⟩
  obtain ⟨second, c, rest, split, rfl, starts⟩ := here.exists_second short
  cases second with
  | nil => exact Bool.noConfusion (starts.symm.trans (head c rfl).1)
  | cons d second =>
    have known : ∀ d ∈ selfAccess, isIdentifierStart d = true ∨ d = '.' := by decide
    rcases known d (split ▸ List.mem_append_right first List.mem_cons_self) with part | dot
    · exact Bool.noConfusion (part.symm.trans (head d rfl).1)
    · exact (head d rfl).2 dot

/-- An access that reaches out of two texts reaches out of the second, if none reaches out of the first. -/
theorem Straddles.of_append {behind : Text} (last : EndsApart before)
    (reaches : Straddles (before ++ after) behind) : Straddles after behind := by
  obtain ⟨front, first, split, nonempty, short, here⟩ := reaches
  rcases List.append_eq_append_iff.mp split with ⟨rest, rfl, rfl⟩ | ⟨rest, rfl, rfl⟩
  · rw [List.getLast?_append] at here
    exact ⟨rest, first, rfl, nonempty, short, startsFresh_of_or here.1, here.2⟩
  · by_cases empty : rest = []
    · subst empty
      exact ⟨[], after, rfl, nonempty, short, rfl, here.2⟩
    · rw [List.append_assoc] at here
      refine absurd ⟨front, rest, rfl, empty, ?_, here⟩ (not_straddles_of_last last)
      rw [List.length_append] at short
      omega

/-- A self reference of two texts is in one of them if the first ends apart. -/
theorem HoldsSelf.of_append_of_last (last : EndsApart before)
    (holds : HoldsSelf (before ++ after)) : HoldsSelf before ∨ HoldsSelf after := by
  rcases holds.of_append with front | back | reaches
  · exact .inl front
  · exact .inr back
  · exact absurd reaches (not_straddles_of_last last)

/-- A self reference of two texts is in one of them if the second starts apart. -/
theorem HoldsSelf.of_append_of_head (head : StartsApart after)
    (holds : HoldsSelf (before ++ after)) : HoldsSelf before ∨ HoldsSelf after := by
  rcases holds.of_append with front | back | reaches
  · exact .inl front
  · exact .inr back
  · exact absurd reaches (not_straddles_of_head head)

/-- A piece that stands apart from what is around it. -/
theorem HoldsSelf.of_between {behind : Text} (last : EndsApart before)
    (head : StartsApart behind)
    (holds : HoldsSelf (before ++ piece ++ behind)) :
    HoldsSelf before ∨ HoldsSelf piece ∨ HoldsSelf behind := by
  rcases holds.of_append_of_head head with front | back
  · exact (front.of_append_of_last last).imp_right .inl
  · exact .inr (.inr back)

/-- A text without its front holds no more, if the front does not run into the rest. -/
theorem HoldsSelf.of_dropWhile {p : Char → Bool} (apart : ∀ c, p c = true → isIdentifierPart c = false)
    (holds : HoldsSelf (text.dropWhile p)) : HoldsSelf text := by
  rw [← List.takeWhile_append_dropWhile (p := p) (l := text)]
  exact holds.append_left (startsFresh_getLast? fun c member =>
    apart c (List.all_eq_true.mp List.all_takeWhile c member))

/-- A self reference of a text that was cut off at its end is one of the text. -/
theorem HoldsSelf.of_dropEndWhile {p : Char → Bool} (holds : HoldsSelf (dropEndWhile p text)) :
    HoldsSelf text :=
  holds.of_front (List.reverse_suffix.mp (by
    rw [dropEndWhile, List.reverse_reverse]
    exact List.dropWhile_suffix p))

/-- A self reference behind a lead that ends apart is one of the whole text. -/
theorem HoldsSelf.of_after? {lead : Text} (apart : startsFresh lead.getLast? = true)
    (found : after? lead text = some piece) (holds : HoldsSelf piece) : HoldsSelf text := by
  obtain rfl := after?_eq_some_iff.mp found
  exact holds.append_left apart

theorem HoldsSelf.of_trim (holds : HoldsSelf (trim text)) : HoldsSelf text :=
  HoldsSelf.of_dropWhile (fun _ => Pattern.isIdentifierPart_of_isBlank) holds.of_dropEndWhile

/-! ## Looking through a text -/

/-- Whether a self reference starts somewhere can be computed. -/
theorem selfAt_iff : SelfAt previous text ↔
    (startsFresh previous && (after? selfAccess text).any (·.head?.any isIdentifierStart)) = true := by
  rw [Bool.and_eq_true]
  refine and_congr_right fun _ => ?_
  constructor
  · rintro ⟨c, rest, rfl, starts⟩
    rw [after?_eq_some_iff.mpr rfl]
    exact starts
  · intro starts
    obtain ⟨rest, found, starts⟩ := Option.any_eq_true _ _ |>.mp starts
    obtain ⟨c, first, starts⟩ := Option.any_eq_true _ _ |>.mp starts
    obtain ⟨rest, rfl⟩ := List.head?_eq_some_iff.mp first
    exact ⟨c, rest, after?_eq_some_iff.mp found, starts⟩

instance (previous : Option Char) (text : Text) : Decidable (SelfAt previous text) :=
  decidable_of_iff _ selfAt_iff.symm

/-- A text holds a member access on `this` where it follows a given character. -/
def HoldsSelfBehind (previous : Option Char) (text : Text) : Prop :=
  ∃ front back, text = front ++ back ∧ SelfAt (front.getLast?.or previous) back

theorem holdsSelfBehind_none : HoldsSelfBehind none text ↔ HoldsSelf text := by
  simp only [HoldsSelfBehind, HoldsSelf, Option.or_none]

theorem not_holdsSelfBehind_nil (previous : Option Char) : ¬ HoldsSelfBehind previous [] := by
  rintro ⟨front, back, split, -, c, rest, rfl, -⟩
  simp [selfAccess] at split

/-- A text holds a self reference at its first character or behind it. -/
theorem holdsSelfBehind_cons {c : Char} :
    HoldsSelfBehind previous (c :: text) ↔ SelfAt previous (c :: text) ∨ HoldsSelfBehind (some c) text := by
  constructor
  · rintro ⟨front, back, split, here⟩
    rcases List.cons_eq_append_iff.mp split with ⟨rfl, rfl⟩ | ⟨front, rfl, rfl⟩
    · exact .inl here
    · rw [getLast?_cons_or] at here
      exact .inr ⟨front, back, rfl, here⟩
  · rintro (here | ⟨front, back, rfl, here⟩)
    · exact ⟨[], c :: text, rfl, here⟩
    · rw [← getLast?_cons_or c front previous] at here
      exact ⟨c :: front, back, rfl, here⟩

instance decidableHoldsSelfBehind :
    (previous : Option Char) → (text : Text) → Decidable (HoldsSelfBehind previous text)
  | previous, [] => .isFalse (not_holdsSelfBehind_nil previous)
  | _, c :: text =>
    have := decidableHoldsSelfBehind (some c) text
    decidable_of_iff _ holdsSelfBehind_cons.symm

instance (text : Text) : Decidable (HoldsSelf text) :=
  decidable_of_iff _ holdsSelfBehind_none

/-! ## Lines -/

/-- A self reference of some lines is in one of them. -/
theorem HoldsSelf.of_unlines {texts : List Text} (holds : HoldsSelf (unlines texts)) :
    ∃ line ∈ texts, HoldsSelf line := by
  induction texts with
  | nil => exact absurd holds (by decide)
  | cons line texts ih =>
    by_cases last : texts = []
    · subst last
      exact ⟨line, List.mem_cons_self, holds⟩
    · rw [unlines_cons last] at holds
      have feed : StartsApart ('\n' :: unlines texts) := startsApart_cons.mpr (by decide)
      rcases holds.of_append_of_head feed with here | further
      · exact ⟨line, List.mem_cons_self, here⟩
      · have parts : HoldsSelf (['\n'] ++ unlines texts) := further
        rcases parts.of_append_of_last (by decide) with feed | further
        · exact absurd feed (by decide)
        · obtain ⟨other, member, holds⟩ := ih further
          exact ⟨other, List.mem_cons_of_mem line member, holds⟩

/-- What one of several texts holds stays there when they are joined. -/
theorem HoldsSelf.join {separator line : Text} {texts : List Text} (nonempty : separator ≠ [])
    (apart : startsFresh separator.getLast? = true) (member : line ∈ texts) (holds : HoldsSelf line) :
    HoldsSelf (Text.join separator texts) := by
  induction texts with
  | nil => cases member
  | cons first rest ih =>
    by_cases only : rest = []
    · subst only
      exact List.mem_singleton.mp member ▸ holds
    · rw [join_cons only]
      rcases List.mem_cons.mp member with rfl | member
      · exact (holds.append_right separator).append_right _
      · refine (ih member).append_left ?_
        rw [List.getLast?_append, List.getLast?_eq_some_getLast nonempty] at *
        exact apart

/-- A text holds a self reference exactly if one of its lines does. -/
theorem holdsSelf_iff_lines {text : Text} : HoldsSelf text ↔ ∃ line ∈ lines text, HoldsSelf line := by
  constructor
  · intro holds
    rw [← unlines_lines text] at holds
    exact holds.of_unlines
  · rintro ⟨line, member, holds⟩
    rw [← unlines_lines text]
    exact holds.join (by simp) (by decide) member

/-! ## Indents -/

theorem isIdentifierPart_of_isIndent {c : Char} (indents : isIndent c = true) :
    isIdentifierPart c = false :=
  Pattern.isIdentifierPart_of_isBlank (isBlank_of_isIndent indents)

/-- A self reference of a line that was moved to the left is one of the line. -/
theorem HoldsSelf.of_movesLeft {indent line moved : Text} (indents : ∀ c ∈ indent, isIndent c = true)
    (moves : MovesLeft indent line moved) (holds : HoldsSelf moved) : HoldsSelf line := by
  cases moves with
  | blank => exact absurd holds (by decide)
  | indented =>
    exact holds.append_left (startsFresh_getLast? fun c member => isIdentifierPart_of_isIndent (indents c member))
  | other => exact holds

/-- A self reference of a line that was moved one indent is one of the line. -/
theorem HoldsSelf.of_dropOneIndent {line : Text} (holds : HoldsSelf (dropOneIndent line)) :
    HoldsSelf line := by
  unfold dropOneIndent at holds
  split at holds
  · next rest tab => exact HoldsSelf.of_after? (by decide) tab holds
  · cases spaces : after? "    ".toList line with
    | none => rwa [spaces] at holds
    | some rest =>
      rw [spaces] at holds
      exact HoldsSelf.of_after? (by decide) spaces holds

/-- A self reference of a code that was moved one indent is one of the code. -/
theorem HoldsSelf.of_removeOneIndent {code : Text} (holds : HoldsSelf (removeOneIndent code)) :
    HoldsSelf code := by
  obtain ⟨_, member, holds⟩ := holds.of_unlines
  obtain ⟨line, inside, rfl⟩ := List.mem_map.mp member
  exact holdsSelf_iff_lines.mpr ⟨line, inside, holds.of_dropOneIndent⟩

/-- Code that is moved to the left holds no more than it did. -/
theorem HoldsSelf.of_dedent {code : Text} (holds : HoldsSelf (dedent code)) : HoldsSelf code := by
  cases blank : isBlankText code with
  | true =>
    rw [dedent_of_blank blank] at holds
    exact absurd holds (by decide)
  | false =>
    obtain ⟨front, first, rest, back, inner, dedents⟩ := exists_dedents blank
    obtain ⟨own, member, holds⟩ := holdsSelf_iff_lines.mp holds
    obtain ⟨number, here⟩ := List.mem_iff_getElem?.mp member
    obtain ⟨line, whole, among, moves, same⟩ := dedents.exists_moves here
    have moved : HoldsSelf whole := by
      rcases same with rfl | rfl
      · exact holds
      · exact holds.of_dropEndWhile
    have indents : ∀ c ∈ first.takeWhile isIndent, isIndent c = true := List.all_eq_true.mp List.all_takeWhile
    exact holdsSelf_iff_lines.mpr
      ⟨line, inner.mem_lines (List.mem_of_getElem? among), moved.of_movesLeft indents moves⟩

/-! ## Replacing the references -/

variable {fixture : Text}

/-- The references to the test case with the fixture variable in their place, as they are found. -/
abbrev toFixture (fixture : Text) : Finder :=
  selfReference [.text (fixture ++ ['.'])]

/-- A self reference is replaced by the fixture exactly where one starts. -/
theorem toFixture_eq_some {found : Nat × Text} :
    toFixture fixture previous text = some found ↔
      SelfAt previous text ∧ found = (selfAccess.length, fixture ++ ['.']) := by
  rw [selfAt_iff, toFixture, selfReference]
  cases after? selfAccess text with
  | none => simp
  | some rest =>
    simp only [Template.fill_text, Option.any_some, Option.ite_none_right_eq_some, Option.some.injEq]
    exact and_congr_right fun _ => eq_comm

/-- Nothing is replaced exactly where no self reference starts. -/
theorem toFixture_eq_none : toFixture fixture previous text = none ↔ ¬ SelfAt previous text := by
  constructor
  · intro absent here
    cases absent.symm.trans (toFixture_eq_some.mpr ⟨here, rfl⟩)
  · intro elsewhere
    cases found : toFixture fixture previous text with
    | none => rfl
    | some found' => exact absurd (toFixture_eq_some.mp found).1 elsewhere

theorem selfAccess_eq : selfAccess = ['t', 'h', 'i', 's', '.'] := by
  decide

/-- Behind a character that an identifier goes on from, the next character stays. -/
theorem replaceFrom_kept {c : Char} {out : Text} (runs : startsFresh previous = false)
    (replaced : replaceFrom (toFixture fixture) 0 previous text = c :: out) :
    ∃ rest, text = c :: rest ∧ replaceFrom (toFixture fixture) 0 (some c) rest = out := by
  cases text with
  | nil => cases replaced
  | cons d rest =>
    have absent : toFixture fixture previous (d :: rest) = none :=
      toFixture_eq_none.mpr fun here => Bool.noConfusion (runs.symm.trans here.1)
    rw [replaceFrom, absent] at replaced
    obtain ⟨rfl, rfl⟩ := List.cons.inj replaced
    exact ⟨rest, rfl, rfl⟩

/-- A rewritten text starts as an identifier only if the text did. -/
theorem exists_head_of_replaceFrom {c : Char} {out : Text} (starts : isIdentifierStart c = true)
    (replaced : replaceFrom (toFixture fixture) 0 previous text = c :: out) :
    ∃ d rest, text = d :: rest ∧ isIdentifierStart d = true := by
  cases text with
  | nil => cases replaced
  | cons d rest =>
    refine ⟨d, rest, rfl, ?_⟩
    rw [replaceFrom] at replaced
    cases found : toFixture fixture previous (d :: rest) with
    | none =>
      rw [found] at replaced
      rwa [(List.cons.inj replaced).1]
    | some access =>
      obtain ⟨⟨-, e, more, same, -⟩, -⟩ := toFixture_eq_some.mp found
      obtain ⟨rfl, -⟩ := List.cons.inj same
      decide

/-- Where no access stands, none stands when those behind it are replaced: an access that is replaced starts
with an identifier, as what is put in its place does. -/
theorem not_selfAt_replaceFrom (fixture : Text) (elsewhere : ¬ SelfAt previous text) :
    ¬ SelfAt previous (replaceFrom (toFixture fixture) 0 previous text) := by
  rintro ⟨fresh, c, out, replaced, starts⟩
  rw [selfAccess_eq] at replaced
  cases text with
  | nil => cases replaced
  | cons d text =>
    rw [replaceFrom, toFixture_eq_none.mpr elsewhere] at replaced
    obtain ⟨rfl, replaced⟩ := List.cons.inj replaced
    obtain ⟨text, rfl, afterT⟩ := replaceFrom_kept (by decide) replaced
    obtain ⟨text, rfl, afterH⟩ := replaceFrom_kept (by decide) afterT
    obtain ⟨text, rfl, afterI⟩ := replaceFrom_kept (by decide) afterH
    obtain ⟨text, rfl, afterS⟩ := replaceFrom_kept (by decide) afterI
    obtain ⟨e, rest, rfl, begins⟩ := exists_head_of_replaceFrom starts afterS
    exact elsewhere ⟨fresh, e, rest, rfl, begins⟩

/-- A self reference behind a run of an identifier and a point starts behind the point. -/
theorem HoldsSelfBehind.of_run {run rest : Text} (parts : ∀ c ∈ run, isIdentifierPart c = true)
    (runs : startsFresh previous = false) (holds : HoldsSelfBehind previous (run ++ '.' :: rest)) :
    HoldsSelfBehind (some '.') rest := by
  induction run generalizing previous with
  | nil =>
    rcases holdsSelfBehind_cons.mp holds with here | behind
    · exact Bool.noConfusion (runs.symm.trans here.1)
    · exact behind
  | cons c run ih =>
    obtain ⟨part, parts⟩ := List.forall_mem_cons.mp parts
    rcases holdsSelfBehind_cons.mp holds with here | behind
    · exact Bool.noConfusion (runs.symm.trans here.1)
    · exact ih parts (by simp [startsFresh, part]) behind

/-- An access on another variable is none on `this`. -/
theorem HoldsSelfBehind.of_fixture {rest : Text} (named : Pattern.Identifier fixture)
    (other : fixture ≠ "this".toList) (holds : HoldsSelfBehind previous (fixture ++ '.' :: rest)) :
    HoldsSelfBehind (some '.') rest := by
  obtain ⟨begins, parts⟩ := named
  cases fixture with
  | nil => cases begins
  | cons c more =>
    rcases holdsSelfBehind_cons.mp holds with ⟨-, d, behind, same, -⟩ | behind
    · have whole : (c :: more) ++ '.' :: rest = "this".toList ++ '.' :: d :: behind := same
      have stops : Stops isIdentifierPart ('.' :: rest) ∧ Stops isIdentifierPart ('.' :: d :: behind) := by
        rw [stops_cons, stops_cons]
        decide
      exact absurd (run_unique parts stops.1 (by decide) stops.2 whole).1 other
    · obtain ⟨part, parts⟩ := List.forall_mem_cons.mp parts
      exact behind.of_run parts (by simp [startsFresh, part])

/-- No access is left behind the characters that are skipped. -/
theorem not_holdsSelfBehind_replaceFrom (named : Pattern.Identifier fixture)
    (other : fixture ≠ "this".toList) (skipped : Nat) (previous : Option Char) (text : Text) :
    ¬ HoldsSelfBehind ((text.take skipped).getLast?.or previous)
      (replaceFrom (toFixture fixture) skipped previous text) := by
  induction text generalizing skipped previous with
  | nil =>
    rw [replaceFrom]
    exact not_holdsSelfBehind_nil _
  | cons c text ih =>
    cases skipped with
    | succ skipped =>
      rw [replaceFrom, List.take_succ_cons, getLast?_cons_or]
      exact ih skipped (some c)
    | zero =>
      change ¬ HoldsSelfBehind previous _
      cases found : toFixture fixture previous (c :: text) with
      | none =>
        have elsewhere := not_selfAt_replaceFrom fixture (toFixture_eq_none.mp found)
        rw [replaceFrom, found] at elsewhere ⊢
        intro holds
        exact (holdsSelfBehind_cons.mp holds).elim elsewhere (ih 0 (some c))
      | some access =>
        obtain ⟨⟨-, d, rest, same, -⟩, rfl⟩ := toFixture_eq_some.mp found
        rw [selfAccess_eq] at same
        obtain ⟨rfl, rfl⟩ := List.cons.inj same
        rw [replaceFrom, found]
        intro holds
        have behind : HoldsSelfBehind previous (fixture ++ '.' :: replaceFrom (toFixture fixture) 4 (some 't')
            (['h', 'i', 's', '.'] ++ d :: rest)) := by
          simpa [selfAccess_eq] using holds
        exact ih 4 (some 't') (behind.of_fixture named other)

/-- Where the references to the test case are replaced by those to a fixture variable, none is left. -/
theorem not_holdsSelf_of_replaceSelf {code : Text} (named : Pattern.Identifier fixture)
    (other : fixture ≠ "this".toList) (replaced : replaceSelf fixture code = .ok text) : ¬ HoldsSelf text := by
  have plain : '\\' ∉ fixture ++ ['.'] := by
    intro member
    rcases List.mem_append.mp member with inside | dot
    · exact Bool.noConfusion ((named.2 _ inside).symm.trans (by decide : isIdentifierPart '\\' = false))
    · cases List.mem_singleton.mp dot
  rw [replaceSelf, Template.parse_of_no_backslash plain] at replaced
  cases replaced
  rw [← holdsSelfBehind_none]
  exact not_holdsSelfBehind_replaceFrom named other 0 none code

end Body

end JasmineConversion
