import JasmineConversion.Proofs.Text.Front
import JasmineConversion.Proofs.Text.Lines
import JasmineConversion.Suite.Pattern
import JasmineConversion.Text.Replace

/-! # Replacing pieces of dotted names

A pattern that finds nothing leaves a text as it is. A pattern for pieces of dotted names sees nothing beyond
a character that no dotted name holds, so that the texts on both sides of such a character are searched each
on its own. What its replacements take away is counted by a character that they hold less of.
-/

namespace JasmineConversion.Text

open Pattern

variable {find : Finder} {previous : Option Char} {text front rest : Text} {skipped : Nat} {c : Char}

/-! ## Patterns that find nothing -/

/-- A pattern finds nothing in a text, which follows a given character. -/
def FindsNothing (find : Finder) : (previous : Option Char) → Text → Prop
  | _, [] => True
  | previous, c :: rest => find previous (c :: rest) = none ∧ FindsNothing find (some c) rest

/-- Nothing is found if it is found at no character. -/
theorem findsNothing_iff : FindsNothing find previous text ↔
    ∀ front c rest, text = front ++ c :: rest → find (front.getLast?.or previous) (c :: rest) = none := by
  induction text generalizing previous with
  | nil => simp [FindsNothing]
  | cons d text ih =>
    rw [FindsNothing, ih]
    constructor
    · rintro ⟨here, further⟩ front c rest split
      rcases List.cons_eq_append_iff.mp split with ⟨rfl, same⟩ | ⟨more, rfl, same⟩
      · exact same ▸ here
      · rw [getLast?_cons_or]
        exact further more c rest same
    · intro nothing
      refine ⟨nothing [] d text rfl, ?_⟩
      rintro front c rest rfl
      rw [← getLast?_cons_or d front previous]
      exact nothing (d :: front) c rest rfl

/-- A text in which nothing is found is left as it is. -/
theorem replaceFrom_of_findsNothing (nothing : FindsNothing find previous text) :
    replaceFrom find 0 previous text = text := by
  induction text generalizing previous with
  | nil => rfl
  | cons c text ih =>
    rw [replaceFrom, nothing.1]
    exact congrArg (c :: ·) (ih nothing.2)

/-! ## Pieces of dotted names -/

/-- A pattern for pieces of dotted names, with such pieces in their place. -/
structure Finder.Dotted (find : Finder) : Prop where
  fits : ∀ {previous text width replacement}, find previous text = some (width, replacement) →
    ∃ piece rest, text = piece ++ rest ∧ piece.length = width ∧ piece ≠ [] ∧ replacement ≠ [] ∧
      (∀ c ∈ piece, isDotted c = true) ∧ ∀ c ∈ replacement, isDotted c = true
  behind : ∀ {c}, isDotted c = false → find (some c) = find none
  before : ∀ {c}, isDotted c = false → ∀ previous text rest, find previous (text ++ c :: rest) = find previous text

namespace Finder.Dotted

variable (dotted : find.Dotted)
include dotted

/-- Nothing is found at a character of no dotted name. -/
theorem find_cons_of_not_isDotted (apart : isDotted c = false) : find previous (c :: rest) = none := by
  cases found : find previous (c :: rest) with
  | none => rfl
  | some result =>
    obtain ⟨piece, more, same, -, nonempty, -, inside, -⟩ := dotted.fits found
    obtain ⟨d, piece, rfl⟩ := List.exists_cons_of_ne_nil nonempty
    obtain ⟨rfl, -⟩ := List.cons.inj same
    have isPart := inside c List.mem_cons_self
    rw [apart] at isPart
    cases isPart

/-- A text is replaced on its own in front of a character that no dotted name holds. The characters that are
skipped have to be there. -/
theorem replaceFrom_append_cons (apart : isDotted c = false) (short : skipped ≤ front.length) :
    replaceFrom find skipped previous (front ++ c :: rest) =
      replaceFrom find skipped previous front ++ c :: replaceFrom find 0 none rest := by
  induction front generalizing skipped previous with
  | nil =>
    obtain rfl := Nat.le_zero.mp short
    have further : replaceFrom find 0 (some c) rest = replaceFrom find 0 none rest := by
      cases rest with
      | nil => rfl
      | cons d rest => rw [replaceFrom, replaceFrom, dotted.behind apart]
    have absent : find previous (c :: rest) = none := dotted.find_cons_of_not_isDotted apart
    change replaceFrom find 0 previous (c :: rest) = c :: _
    rw [replaceFrom, absent]
    exact congrArg (c :: ·) further
  | cons d front ih =>
    cases skipped with
    | succ skipped => exact ih (Nat.le_of_succ_le_succ short)
    | zero =>
      rw [List.cons_append, replaceFrom, replaceFrom, ← List.cons_append, dotted.before apart]
      cases found : find previous (d :: front) with
      | none => exact congrArg (d :: ·) (ih (Nat.zero_le _))
      | some result =>
        obtain ⟨width, replacement⟩ := result
        obtain ⟨piece, more, same, rfl, -⟩ := dotted.fits found
        have fits : piece.length - 1 ≤ front.length := by
          have whole := congrArg List.length same
          simp only [List.length_cons, List.length_append] at whole
          omega
        dsimp only
        rw [ih fits, List.append_assoc]

theorem replaceAll_append_cons (apart : isDotted c = false) :
    replaceAll find (front ++ c :: rest) = replaceAll find front ++ c :: replaceAll find rest :=
  dotted.replaceFrom_append_cons apart (Nat.zero_le _)

theorem replaceAll_cons (apart : isDotted c = false) :
    replaceAll find (c :: rest) = c :: replaceAll find rest :=
  @replaceAll_append_cons find [] rest c dotted apart

/-- A rewritten text has only its own characters and those of dotted names. -/
theorem mem_of_mem_replaceFrom (member : c ∈ replaceFrom find skipped previous text) :
    c ∈ text ∨ isDotted c = true := by
  induction text generalizing skipped previous with
  | nil => cases member
  | cons d text ih =>
    cases skipped with
    | succ skipped => exact (ih member).imp_left (List.mem_cons_of_mem d)
    | zero =>
      rw [replaceFrom] at member
      split at member
      · next found =>
        obtain ⟨-, -, -, -, -, -, -, inside⟩ := dotted.fits found
        rcases List.mem_append.mp member with here | further
        · exact .inr (inside c here)
        · exact (ih further).imp_left (List.mem_cons_of_mem d)
      · rcases List.mem_cons.mp member with rfl | further
        · exact .inl List.mem_cons_self
        · exact (ih further).imp_left (List.mem_cons_of_mem d)

/-- The lines of a text are replaced each on its own. -/
theorem lines_replaceAll (text : Text) : lines (replaceAll find text) = (lines text).map (replaceAll find) := by
  have apart : isDotted '\n' = false := by decide
  have single {line : Text} (free : '\n' ∉ line) : '\n' ∉ replaceAll find line := by
    intro feed
    rcases dotted.mem_of_mem_replaceFrom feed with member | part
    · exact free member
    · exact Bool.noConfusion (apart.symm.trans part)
  induction text using induction_on_lines with
  | single line free => rw [lines_of_not_mem free, lines_of_not_mem (single free), List.map_singleton]
  | more line text free ih =>
    rw [dotted.replaceAll_append_cons apart, lines_append_newline free, lines_append_newline (single free),
      List.map_cons, ih]

/-- Nothing is found at the end of a text. -/
theorem find_nil : find previous [] = none := by
  cases found : find previous [] with
  | none => rfl
  | some result =>
    obtain ⟨piece, rest, same, -, nonempty, -⟩ := dotted.fits found
    exact absurd (List.append_eq_nil_iff.mp same.symm).1 nonempty

/-- Nothing is found if it is found in front of no rest. -/
theorem findsNothing_iff :
    FindsNothing find none text ↔ ∀ front back, text = front ++ back → find front.getLast? back = none := by
  rw [Text.findsNothing_iff]
  constructor
  · intro nothing front back split
    cases back with
    | nil => exact dotted.find_nil
    | cons c rest => simpa using nothing front c rest split
  · intro nothing front c rest split
    simpa using nothing front (c :: rest) split

/-! ## Counting -/

/-- What is found and what is behind it make up the text. -/
theorem count_take_drop {d : Char} {width : Nat} {replacement : Text} (c : Char)
    (found : find previous (d :: text) = some (width, replacement)) :
    ((d :: text).take width).count c + (text.drop (width - 1)).count c = (d :: text).count c := by
  obtain ⟨piece, rest, -, rfl, nonempty, -⟩ := dotted.fits found
  obtain ⟨e, piece, rfl⟩ := List.exists_cons_of_ne_nil nonempty
  rw [← List.count_append]
  exact congrArg (List.count c) (List.take_append_drop (piece.length + 1) (d :: text))

/-- Where no replacement holds more of a character than its piece, the text holds no more of it. -/
theorem count_replaceFrom_le
    (bounds : ∀ {previous text width replacement}, find previous text = some (width, replacement) →
      replacement.count c ≤ (text.take width).count c) :
    (replaceFrom find skipped previous text).count c ≤ (text.drop skipped).count c := by
  induction text generalizing skipped previous with
  | nil => simp [replaceFrom]
  | cons d text ih =>
    cases skipped with
    | succ skipped => exact ih
    | zero =>
      rw [replaceFrom, List.drop_zero]
      split
      · next width replacement found =>
        have whole := dotted.count_take_drop c found
        have here := bounds found
        have further := @ih (some d) (width - 1)
        rw [List.count_append]
        omega
      · have further := @ih (some d) 0
        rw [List.drop_zero] at further
        rw [List.count_cons, List.count_cons]
        omega

/-- Where each replacement holds less of a character than its piece, and as much is left of it, nothing was
found. -/
theorem findsNothing_of_count
    (lowers : ∀ {previous text width replacement}, find previous text = some (width, replacement) →
      replacement.count c < (text.take width).count c)
    (same : (replaceFrom find 0 previous text).count c = text.count c) :
    FindsNothing find previous text := by
  induction text generalizing previous with
  | nil => trivial
  | cons d text ih =>
    rw [replaceFrom] at same
    split at same
    · next width replacement found =>
      have whole := dotted.count_take_drop c found
      have here := lowers found
      have further := @count_replaceFrom_le find (some d) text (width - 1) c dotted
        fun found => Nat.le_of_lt (lowers found)
      rw [List.count_append] at same
      omega
    · next absent =>
      rw [List.count_cons, List.count_cons] at same
      exact ⟨absent, ih (by omega)⟩

end Finder.Dotted

end JasmineConversion.Text
