import JasmineConversion.Proofs.Outcome
import JasmineConversion.Proofs.Source.Enclosure

/-! # Splitting at commas

A text is split at the commas that stand outside brackets and literals. A text without such a comma
that closes all it opens stays in one piece, whatever follows it.
-/

namespace JasmineConversion.Source

open Text JasmineConversion.Bracket

variable {first rest : Text} {more : List Text}

/-- A character that is no top-level comma belongs to the first piece. -/
theorem segmentsFrom_cons {nesting : Nesting} {offset : Nat} {c : Char}
    (inside : (atTopLevel nesting && c = ',') = false)
    (others : segmentsFrom (nesting.next offset c) (offset + 1) rest = .ok (first :: more)) :
    segmentsFrom nesting offset (c :: rest) = .ok ((c :: first) :: more) := by
  simp only [segmentsFrom, others, inside, Bool.false_eq_true, if_false]
  rfl

/-- Splitting fails with the flaw that the text ends in. -/
theorem exists_flaw_of_segmentsFrom {nesting : Nesting} {offset : Nat} {text : Text} {flaw : Flaw}
    (failed : segmentsFrom nesting offset text = .error flaw) :
    ∃ ending : Nesting, ending.mode = text.foldl Mode.next nesting.mode ∧ ending.flaw? = some flaw := by
  induction text generalizing nesting offset with
  | nil =>
    rw [segmentsFrom] at failed
    split at failed
    · next found flawed =>
      cases failed
      exact ⟨nesting, rfl, flawed⟩
    · cases failed
  | cons c text ih =>
    rcases exceptBind_eq_error_iff.mp failed with further | ⟨pieces, -, failed⟩
    · obtain ⟨ending, mode, flawed⟩ := ih further
      exact ⟨ending, by rw [mode, Nesting.mode_next, List.foldl_cons], flawed⟩
    · split at failed
      · cases failed
      · split at failed <;> cases failed

/-- Pieces are put together again with commas. -/
theorem join_of_segmentsFrom {nesting : Nesting} {offset : Nat} {text : Text} {pieces : List Text}
    (split : segmentsFrom nesting offset text = .ok pieces) :
    pieces ≠ [] ∧ join [','] pieces = text := by
  induction text generalizing nesting offset pieces with
  | nil =>
    rw [segmentsFrom] at split
    split at split
    · cases split
    · cases split
      exact ⟨List.cons_ne_nil _ _, rfl⟩
  | cons c rest ih =>
    rw [segmentsFrom, exceptBind_eq_ok_iff] at split
    obtain ⟨others, further, split⟩ := split
    obtain ⟨nonempty, joined⟩ := ih further
    obtain ⟨first, more, rfl⟩ := List.exists_cons_of_ne_nil nonempty
    split at split
    · next comma =>
      obtain rfl : c = ',' := of_decide_eq_true (Bool.and_eq_true_iff.mp comma).2
      cases split
      exact ⟨List.cons_ne_nil _ _, congrArg (List.cons ',') joined⟩
    · cases split
      refine ⟨List.cons_ne_nil _ _, ?_⟩
      rw [← joined]
      cases more <;> rfl

/-- The rest of a literal belongs to the first piece. -/
theorem segmentsFrom_of_returns {mode : Mode} {passage : Text} {group : Option Group}
    (away : mode ≠ .code) (returns : mode.Returns passage)
    (others : ∀ opened offset, segmentsFrom ⟨.code, opened, group⟩ offset rest = .ok (first :: more))
    (opened offset : Nat) :
    segmentsFrom ⟨mode, opened, group⟩ offset (passage ++ rest) = .ok ((passage ++ first) :: more) := by
  induction passage generalizing mode opened offset with
  | nil => exact returns.elim
  | cons c passage ih =>
    have inside : (atTopLevel ⟨mode, opened, group⟩ && c = ',') = false := by
      simp [atTopLevel, away]
    have next : Nesting.next ⟨mode, opened, group⟩ offset c = ⟨mode.next c, opened, group⟩ := by
      cases mode <;> first | exact absurd rfl away | rfl
    apply segmentsFrom_cons inside
    rw [next]
    by_cases back : mode.next c = .code
    · simp only [Mode.Returns, back, if_true] at returns
      subst returns
      rw [back]
      exact others opened (offset + 1)
    · rw [Mode.returns_cons_of_ne back] at returns
      exact ih back returns opened (offset + 1)

/-- What stands inside a bracket belongs to the first piece. -/
theorem segmentsFrom_of_scan {bracket : Bracket} {mode mode' : Mode} {inner inner' start : Nat}
    {text : Text} (read : bracket.scan (mode, inner) text = some (mode', inner'))
    (others : ∀ opened offset, segmentsFrom ⟨mode', opened, some ⟨bracket, inner', start⟩⟩ offset rest =
      .ok (first :: more)) (opened offset : Nat) :
    segmentsFrom ⟨mode, opened, some ⟨bracket, inner, start⟩⟩ offset (text ++ rest) =
      .ok ((text ++ first) :: more) := by
  induction text generalizing mode inner opened offset with
  | nil =>
    obtain ⟨rfl, rfl⟩ := Prod.mk.inj (Option.some.inj read)
    exact others opened offset
  | cons c text ih =>
    rw [scan_cons, Option.bind_eq_some_iff] at read
    obtain ⟨⟨mode'', inner''⟩, step, read⟩ := read
    apply segmentsFrom_cons (by simp [atTopLevel])
    rw [Nesting.next_eq, step, ← mode_of_step step]
    exact ih read _ _

/-- A text that stays in one piece, together with the first piece of what follows. -/
def Unsplit (piece : Text) : Prop :=
  ∀ ⦃rest first : Text⦄ ⦃more : List Text⦄,
    (∀ opened offset, segmentsFrom ⟨.code, opened, none⟩ offset rest = .ok (first :: more)) →
    ∀ opened offset,
      segmentsFrom ⟨.code, opened, none⟩ offset (piece ++ rest) = .ok ((piece ++ first) :: more)

namespace Unsplit

variable {piece : Text}

theorem nil : Unsplit [] :=
  fun _ _ _ others => others

/-- Two texts that are not split are not split together. -/
theorem append {other : Text} (front : Unsplit piece) (back : Unsplit other) :
    Unsplit (piece ++ other) := by
  intro rest first more others opened offset
  rw [List.append_assoc, List.append_assoc]
  exact front (back others) opened offset

/-- A character that delimits nothing, opens nothing and is no comma is not split. -/
theorem single {c : Char} (plain : Mode.isDelimiter c = false) (noOpener : ofOpener? c = none)
    (noComma : c ≠ ',') : Unsplit [c] := by
  intro rest first more others opened offset
  apply segmentsFrom_cons (by simp [noComma])
  have next : Nesting.next ⟨.code, opened, none⟩ offset c = ⟨.code, offset, none⟩ := by
    simp [Nesting.next, Nesting.nextGroup, Mode.code_next_of_not_isDelimiter plain, noOpener]
  rw [next]
  exact others offset (offset + 1)

/-- A text of such characters is not split. -/
theorem plain (all : ∀ c ∈ piece, Mode.isDelimiter c = false ∧ ofOpener? c = none ∧ c ≠ ',') :
    Unsplit piece := by
  induction piece with
  | nil => exact nil
  | cons c piece ih =>
    rw [List.forall_mem_cons] at all
    exact (single all.1.1 all.1.2.1 all.1.2.2).append (ih all.2)

/-- A literal or a comment stays in one piece. -/
theorem passage {c : Char} (away : Mode.code.next c ≠ .code) (noOpener : ofOpener? c = none) (noComma : c ≠ ',')
    (returns : (Mode.code.next c).Returns piece) : Unsplit (c :: piece) := by
  intro rest first more others opened offset
  have next : Nesting.next ⟨.code, opened, none⟩ offset c = ⟨Mode.code.next c, offset, none⟩ := by
    simp [Nesting.next, Nesting.nextGroup, noOpener]
  apply segmentsFrom_cons (by simp [noComma])
  rw [next]
  exact segmentsFrom_of_returns away returns others offset (offset + 1)

/-- A string between quotes is not split. -/
theorem quoted {quote : Char} (isQuote : Mode.isQuote quote = true) (holds : LiteralContent quote piece) :
    Unsplit (quote :: piece ++ [quote]) := by
  have noBracket : ofOpener? quote = none ∧ quote ≠ ',' := by
    rcases Mode.isQuote_iff.mp isQuote with rfl | rfl <;> decide
  have enters := Mode.code_next_of_isQuote isQuote
  refine passage (by simp [enters]) noBracket.1 noBracket.2 ?_
  rw [enters]
  exact (Mode.literal_returns_iff (Mode.ne_backslash_of_isDelimiter
    (Mode.isDelimiter_of_isQuote isQuote))).mpr ⟨piece, rfl, holds⟩

/-- A text between brackets is not split. -/
theorem enclosed {bracket : Bracket} (encloses : bracket.Encloses piece) :
    Unsplit (bracket.opener :: piece ++ [bracket.closer]) := by
  intro rest first more others opened offset
  have noComma : bracket.opener ≠ ',' := by cases bracket <;> decide
  have next : Nesting.next ⟨.code, opened, none⟩ offset bracket.opener =
      ⟨.code, offset, some ⟨bracket, 0, offset⟩⟩ := by
    simp [Nesting.next, Nesting.nextGroup, code_next_opener]
  have closes : ∀ opened offset', segmentsFrom ⟨.code, opened, some ⟨bracket, 0, offset⟩⟩ offset'
      (bracket.closer :: rest) = .ok ((bracket.closer :: first) :: more) := by
    intro opened offset'
    apply segmentsFrom_cons (by simp [atTopLevel])
    rw [Nesting.next_eq, step_closer_zero, code_next_closer]
    exact others _ _
  simp only [List.cons_append, List.append_assoc, List.nil_append]
  apply segmentsFrom_cons (by simp [noComma])
  rw [next]
  exact segmentsFrom_of_scan encloses closes offset (offset + 1)

end Unsplit

/-- White space is not split. -/
theorem unsplit_of_isBlankText {blank : Text} (white : isBlankText blank = true) : Unsplit blank := by
  apply Unsplit.plain
  intro c member
  have here := isBlankText_iff.mp white c member
  exact ⟨Mode.isDelimiter_of_isBlank here, ofOpener?_of_plain fun _ => plain_of_isBlank here,
    ne_of_isBlank here (by decide)⟩

/-- The end of a text and a comma behind a piece. -/
theorem Unsplit.last {piece : Text} (unsplit : Unsplit piece) (opened offset : Nat) :
    segmentsFrom ⟨.code, opened, none⟩ offset piece = .ok [piece] := by
  have ended := @unsplit [] [] [] (fun _ _ => rfl) opened offset
  simpa using ended

/-- A comma behind a text that is not split ends a segment. -/
theorem Unsplit.comma {piece : Text} (unsplit : Unsplit piece)
    (others : ∀ opened offset, segmentsFrom ⟨.code, opened, none⟩ offset rest = .ok more)
    (opened offset : Nat) :
    segmentsFrom ⟨.code, opened, none⟩ offset (piece ++ ',' :: rest) = .ok (piece :: more) := by
  have behind : ∀ opened offset, segmentsFrom ⟨.code, opened, none⟩ offset (',' :: rest) =
      .ok ([] :: more) := by
    intro opened offset
    have next : Nesting.next ⟨.code, opened, none⟩ offset ',' = ⟨.code, offset, none⟩ := rfl
    simp only [segmentsFrom, next, others]
    rfl
  simpa using unsplit behind opened offset

end JasmineConversion.Source
