import JasmineConversion.Proofs.Source.Listing

/-! # Where brackets, literals, comments and layout end

A literal ends with the first delimiter that no backslash takes with it, and layout in front of the first character
that neither is blank nor starts a comment. Where a bracket, a literal or a block comment ends is decided by its own
characters: it ends at the same one wherever these stand.
-/

namespace JasmineConversion.Source

open Text

variable {text piece : Text} {index close : Nat} {delimiter : Char}

/-! ## Literals and layout -/

/-- The literal that a delimiter opens at an index is closed by a delimiter behind it. -/
def ClosesLiteral (text : Text) (index : Nat) (delimiter : Char) (close : Nat) : Prop :=
  index < close ∧ text[close]? = some delimiter ∧ LiteralContent delimiter (slice text (index + 1) close)

/-- The layout at an index ends in front of a solid text. -/
def EndsLayout (text : Text) (index next : Nat) : Prop :=
  ∃ layout, Spans text index layout next ∧ Layout layout (text.drop next) ∧ Solid (text.drop next)

/-- A literal is closed where its content ends and the delimiter stands. -/
theorem closesLiteral_iff (opens : text[index]? = some delimiter) :
    ClosesLiteral text index delimiter close ↔
      ∃ content, Spans text index (delimiter :: content ++ [delimiter]) (close + 1) ∧
        LiteralContent delimiter content := by
  constructor
  · rintro ⟨behind, closes, holds⟩
    have inside : close < text.length := (List.getElem?_eq_some_iff.mp closes).1
    have content : Spans text (index + 1) (slice text (index + 1) close) close :=
      .of_le behind (Nat.le_of_lt inside)
    exact ⟨_, ((Spans.single opens).append content).append (.single closes), holds⟩
  · rintro ⟨content, spans, holds⟩
    obtain ⟨-, inner, last⟩ := spans.inside
    refine ⟨inner.start_le, ?_, spans.slice_inside ▸ holds⟩
    rw [← List.head?_drop, last, List.head?_cons]

/-- A literal matches exactly where it is closed. -/
theorem matchLiteral_eq_ok_iff_closesLiteral (opens : text[index]? = some delimiter)
    (delimits : Mode.isDelimiter delimiter = true) :
    matchLiteral text index = .ok close ↔ ClosesLiteral text index delimiter close := by
  rw [closesLiteral_iff opens]
  exact matchLiteral_eq_ok_iff delimits (List.head?_drop.trans opens)

/-- A literal that is matched nowhere is reported as open. -/
theorem matchLiteral_eq_error_iff (opens : text[index]? = some delimiter)
    (delimits : Mode.isDelimiter delimiter = true) :
    matchLiteral text index = .error (.ofIndex (.unterminatedLiteral delimiter) text index) ↔
      ∀ close, matchLiteral text index ≠ .ok close := by
  obtain ⟨rest, here⟩ := List.head?_eq_some_iff.mp (List.head?_drop.trans opens)
  simp only [matchLiteral, here, delimits, ↓reduceIte]
  cases (Mode.literal delimiter).untilCode rest with
  | none => simp
  | some offset => simp

/-- A literal is closed by the delimiter behind its content and by no other, and is reported as open if there is
none. Skipping ends where the layout does, which is at one index only, and nothing is skipped from there. -/
theorem literals_and_layout_end (text : Text) (index : Nat) :
    (∀ delimiter, text[index]? = some delimiter → Mode.isDelimiter delimiter = true →
      (∀ close, matchLiteral text index = .ok close ↔ ClosesLiteral text index delimiter close) ∧
      (matchLiteral text index = .error (.ofIndex (.unterminatedLiteral delimiter) text index) ↔
        ∀ close, ¬ ClosesLiteral text index delimiter close)) ∧
    (∀ next, skip text index = .ok next ↔ EndsLayout text index next) ∧
    (∀ next other, EndsLayout text index next → EndsLayout text index other → other = next) ∧
    ∀ next, skip text index = .ok next → skip text next = .ok next := by
  refine ⟨fun delimiter opens delimits => ?_, fun next => skip_eq_ok_iff, fun next other ends ends' => ?_,
    fun next => skip_eq_ok_self⟩
  · have closes (close : Nat) := @matchLiteral_eq_ok_iff_closesLiteral text index close delimiter opens delimits
    refine ⟨closes, ?_⟩
    rw [matchLiteral_eq_error_iff opens delimits]
    exact forall_congr' fun close => not_congr (closes close)
  · have skipped := (skip_eq_ok_iff.mpr ends).symm.trans (skip_eq_ok_iff.mpr ends')
    exact (Except.ok.inj skipped).symm

/-- A string with two escapes, white space, and a comment of each kind up to the end of the text. -/
def escapedText : Text :=
  "'\\\\\\'' /*/ */ // end".toList

/-- An escaped quote closes nothing, and layout with two comments ends behind the second. -/
theorem escapedText_ends :
    matchLiteral escapedText 0 = .ok 5 ∧ ClosesLiteral escapedText 0 '\'' 5 ∧
    (∀ close, ¬ ClosesLiteral (escapedText.take 4) 0 '\'' close) ∧
    skip escapedText 6 = .ok 20 ∧ EndsLayout escapedText 6 20 ∧ skip escapedText 20 = .ok 20 := by
  obtain ⟨closed, -⟩ := (literals_and_layout_end escapedText 0).1 '\'' rfl rfl
  obtain ⟨-, never⟩ := (literals_and_layout_end (escapedText.take 4) 0).1 '\'' rfl rfl
  obtain ⟨-, ends, -, again⟩ := literals_and_layout_end escapedText 6
  have matched : matchLiteral escapedText 0 = .ok 5 := rfl
  have skipped : skip escapedText 6 = .ok 20 := by decide +kernel
  exact ⟨matched, (closed 5).mp matched, never.mp rfl, skipped, (ends 20).mp skipped, again 20 skipped⟩

/-! ## Extents anywhere -/

/-- A search that ends with a piece wherever the piece stands, ends there when the piece is put between other texts.
It returns an index that the piece goes beyond by a fixed width. -/
theorem found_amid {search : Text → Nat → Except SourceError Nat} {beyond : Nat}
    (spans : Spans text index piece (close + beyond)) (longer : beyond < piece.length)
    (again : ∀ text index close, Spans text index piece (close + beyond) → search text index = .ok close)
    (before behind : Text) :
    index < close ∧ search (before ++ slice text index (close + beyond) ++ behind) before.length =
      .ok (before.length + (close - index)) := by
  have width := spans.width
  refine ⟨by omega, again _ _ _ ?_⟩
  have stop : before.length + (close - index) + beyond = before.length + piece.length := by omega
  rw [spans.slice_eq, stop]
  exact .amid before piece behind

/-- A match depends on no character before its start and on none behind its end: the same characters between other
texts are matched in the same way. -/
theorem matching_is_local (text : Text) (index close : Nat) (before behind : Text) :
    (matchBracket text index = .ok close →
      index < close ∧ matchBracket (before ++ slice text index (close + 1) ++ behind) before.length =
        .ok (before.length + (close - index))) ∧
    (matchLiteral text index = .ok close →
      index < close ∧ matchLiteral (before ++ slice text index (close + 1) ++ behind) before.length =
        .ok (before.length + (close - index))) ∧
    (startsWith ['/', '*'] (text.drop index) = true → matchComment text index = .ok close →
      index < close ∧ matchComment (before ++ slice text index close ++ behind) before.length =
        .ok (before.length + (close - index))) := by
  refine ⟨fun matched => ?_, fun matched => ?_, fun opens matched => ?_⟩
  · obtain ⟨bracket, raw, spans, encloses⟩ := exists_encloses_of_matchBracket matched
    refine found_amid spans (by simp) (fun text index close spans => ?_) before behind
    have starts : (text.drop index).head? = some bracket.opener := by rw [spans.here]; rfl
    exact (matchBracket_eq_ok_iff starts).mpr ⟨raw, spans, encloses⟩
  · obtain ⟨delimiter, delimits, content, spans, holds⟩ := exists_content_of_matchLiteral matched
    refine found_amid spans (by simp) (fun text index close spans => ?_) before behind
    have starts : (text.drop index).head? = some delimiter := by rw [spans.here]; rfl
    exact (matchLiteral_eq_ok_iff delimits starts).mpr ⟨content, spans, holds⟩
  · obtain ⟨inner, spans, unended⟩ := (matchComment_eq_ok_iff opens).mp matched
    refine @found_amid _ _ _ _ matchComment 0 spans (by simp) (fun text index close spans => ?_) before behind
    have starts : startsWith ['/', '*'] (text.drop index) = true := by rw [spans.here]; rfl
    exact (matchComment_eq_ok_iff starts).mpr ⟨inner, spans, unended⟩

/-- A call whose arguments hold closing parentheses in a string and in a comment. -/
def decoyedCall : Text :=
  "f(')', /* ) */ a)".toList

/-- An open string before what is matched, and the ends of all that could be open behind it. -/
theorem decoyedCall_matched_anywhere :
    (matchBracket decoyedCall 1 = .ok 16 ∧
      matchBracket ("'\\".toList ++ slice decoyedCall 1 17 ++ ")'*/".toList) 2 = .ok 17) ∧
    (matchLiteral decoyedCall 2 = .ok 4 ∧
      matchLiteral ("'\\".toList ++ slice decoyedCall 2 5 ++ ")'*/".toList) 2 = .ok 4) ∧
    matchComment decoyedCall 7 = .ok 14 ∧
      matchComment ("'\\".toList ++ slice decoyedCall 7 14 ++ ")'*/".toList) 2 = .ok 9 := by
  have bracket : matchBracket decoyedCall 1 = .ok 16 := rfl
  have literal : matchLiteral decoyedCall 2 = .ok 4 := rfl
  have comment : matchComment decoyedCall 7 = .ok 14 := rfl
  have anywhere (index close : Nat) := matching_is_local decoyedCall index close "'\\".toList ")'*/".toList
  exact ⟨⟨bracket, ((anywhere 1 16).1 bracket).2⟩, ⟨literal, ((anywhere 2 4).2.1 literal).2⟩, comment,
    ((anywhere 7 14).2.2 rfl comment).2⟩

end JasmineConversion.Source
