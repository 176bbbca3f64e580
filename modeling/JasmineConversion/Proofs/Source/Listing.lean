import Mathlib.Data.List.Forall2
import JasmineConversion.Proofs.Source.Arguments
import JasmineConversion.Proofs.Source.Lexemes
import JasmineConversion.Proofs.Source.Segments

/-! # Lists between commas

A list is written with commas between its members, blank characters around them, and perhaps a comma behind the
last one. Its members are given back when the list is split, as long as each of them stays in one piece. Conversely,
each piece that a text is split into is read as it was in the text, so that it is not split any further.
-/

namespace JasmineConversion

open Text Source

section

variable {α : Type} (written : Text → α → Prop)

/-- What is written with blank characters around it. -/
inductive Padded : Text → α → Prop
  | intro {lead text trail : Text} {value : α} (leads : isBlankText lead = true) (here : written text value)
      (trails : isBlankText trail = true) : Padded (lead ++ text ++ trail) value

/-- The members of a list, with a comma behind each that another follows. The last one may have a comma too. -/
inductive Listed : Text → List α → Prop
  | nil {blank : Text} (isBlank : isBlankText blank = true) : Listed blank []
  | last {text : Text} {member : α} (here : written text member) : Listed text [member]
  | cons {text rest : Text} {member : α} {more : List α} (here : written text member)
      (others : Listed rest more) : Listed (text ++ ',' :: rest) (member :: more)

end

/-- A text with nothing open at its end and without commas outside brackets, literals and comments. What brackets,
literals and comments there are is told by how they are matched. -/
inductive Argument : Text → Prop
  | nil : Argument []
  | plain {c : Char} {rest : Text} (noDelimiter : Mode.isDelimiter c = false) (noOpener : Bracket.ofOpener? c = none)
      (noComma : c ≠ ',') (others : Argument rest) : Argument (c :: rest)
  | bracket {text : Text} {close : Nat} (matched : matchBracket text 0 = .ok close)
      (others : Argument (text.drop (close + 1))) : Argument text
  | literal {text : Text} {close : Nat} (noComment : startsComment text = false)
      (matched : matchLiteral text 0 = .ok close) (others : Argument (text.drop (close + 1))) : Argument text
  | lineComment {text : Text} {stop : Nat} (starts : startsWith ['/', '/'] text = true)
      (matched : matchComment text 0 = .ok stop) (feeds : stop < text.length)
      (others : Argument (text.drop (stop + 1))) : Argument text
  | blockComment {text : Text} {stop : Nat} (starts : startsWith ['/', '*'] text = true)
      (matched : matchComment text 0 = .ok stop) (others : Argument (text.drop stop)) : Argument text

variable {α : Type} {written : Text → α → Prop} {members : List α} {text rest piece blank first : Text}
  {more pieces arguments : List Text} {nesting : Nesting}

/-! ## Arguments stay in one piece -/

/-- A delimiter that starts no comment returns to code as a literal does. -/
theorem Mode.returns_of_startsComment {delimiter : Char} (delimits : isDelimiter delimiter = true)
    (noComment : startsComment (delimiter :: text) = false) :
    (code.next delimiter).Returns text ↔ (Mode.literal delimiter).Returns text := by
  cases text with
  | nil => rfl
  | cons c text => rw [Returns, Returns, next_of_startsComment delimits noComment]

namespace Source

/-- What is matched is a literal with its content. -/
theorem exists_content_of_matchLiteral {index close : Nat} (matched : matchLiteral text index = .ok close) :
    ∃ delimiter, Mode.isDelimiter delimiter = true ∧ ∃ content,
      Spans text index (delimiter :: content ++ [delimiter]) (close + 1) ∧ LiteralContent delimiter content := by
  have here := matched
  unfold matchLiteral at here
  split at here
  · cases here
  · next c rest split =>
    split at here
    · next delimits => exact ⟨c, delimits, (matchLiteral_eq_ok_iff delimits (by rw [split]; rfl)).mp matched⟩
    · cases here

/-- A line comment that ends inside the text ends at the first line feed. -/
theorem exists_line_of_matchComment {stop : Nat} (starts : startsWith ['/', '/'] text = true)
    (matched : matchComment text 0 = .ok stop) (feeds : stop < text.length) :
    ∃ inner, '\n' ∉ inner ∧ text = '/' :: '/' :: inner ++ ['\n'] ++ text.drop (stop + 1) := by
  obtain ⟨rest, rfl⟩ := startsWith_iff.mp starts
  simp only [matchComment, List.drop_zero, List.cons_append, List.nil_append] at matched
  split at matched
  · next offset found =>
    cases matched
    obtain ⟨passage, behind, rfl, returns, width⟩ := Mode.exists_returns_of_untilCode found
    obtain ⟨inner, rfl, oneLine⟩ := Mode.lineComment_returns_iff.mp returns
    refine ⟨inner, oneLine, ?_⟩
    have past : ('/' :: '/' :: (inner ++ ['\n'] ++ behind)).drop (0 + 2 + offset + 1) = behind := by
      rw [show 0 + 2 + offset + 1 = ('/' :: '/' :: (inner ++ ['\n'])).length by simp at width ⊢; omega]
      exact List.drop_left
    exact congrArg (('/' :: '/' :: (inner ++ ['\n'])) ++ ·) past.symm
  · cases matched
    exact absurd feeds (Nat.lt_irrefl _)

/-- A block comment that matches ends with what ends it for the first time. -/
theorem exists_block_of_matchComment {stop : Nat} (starts : startsWith ['/', '*'] text = true)
    (matched : matchComment text 0 = .ok stop) :
    ∃ inner, occursIn ['*', '/'] inner = false ∧ text = '/' :: '*' :: inner ++ ['*', '/'] ++ text.drop stop := by
  obtain ⟨inner, spans, unended⟩ := (matchComment_eq_ok_iff (by rwa [List.drop_zero])).mp matched
  exact ⟨inner, unended, spans.here⟩

namespace Unsplit

/-- A literal is not split. -/
theorem literal {delimiter : Char} (delimits : Mode.isDelimiter delimiter = true)
    (holds : LiteralContent delimiter piece)
    (noComment : startsComment (delimiter :: piece ++ [delimiter]) = false) :
    Unsplit (delimiter :: piece ++ [delimiter]) := by
  have noBracket : Bracket.ofOpener? delimiter = none ∧ delimiter ≠ ',' := by
    rcases Mode.isDelimiter_iff.mp delimits with rfl | rfl | rfl <;> decide
  have returns := (Mode.literal_returns_iff (Mode.ne_backslash_of_isDelimiter delimits)).mpr ⟨piece, rfl, holds⟩
  exact passage (Mode.code_next_ne_code delimits) noBracket.1 noBracket.2
    ((Mode.returns_of_startsComment delimits noComment).mpr returns)

/-- A comment is not split. -/
theorem comment {mark : Char} (marks : mark = '/' ∨ mark = '*')
    (returns : (Mode.slash.next mark).Returns piece) : Unsplit ('/' :: mark :: piece) := by
  refine passage Mode.noConfusion (by decide) (by decide) ((Mode.returns_cons_of_ne ?_ _).mpr returns)
  rcases marks with rfl | rfl <;> exact Mode.noConfusion

end Unsplit

end Source

/-- An argument is not split. -/
theorem Argument.unsplit (argument : Argument text) : Unsplit text := by
  induction argument with
  | nil => exact .nil
  | plain noDelimiter noOpener noComma _ ih => exact (Unsplit.single noDelimiter noOpener noComma).append ih
  | bracket matched _ ih =>
    obtain ⟨bracket, raw, spans, encloses⟩ := exists_encloses_of_matchBracket matched
    have whole := (Unsplit.enclosed encloses).append ih
    rwa [← spans.here] at whole
  | literal noComment matched _ ih =>
    obtain ⟨delimiter, delimits, content, spans, holds⟩ := exists_content_of_matchLiteral matched
    have alone : startsComment (delimiter :: content ++ [delimiter]) = false := by
      rw [← startsComment_append, ← spans.here]
      exact noComment
    have whole := (Unsplit.literal delimits holds alone).append ih
    rwa [← spans.here] at whole
  | lineComment starts matched feeds _ ih =>
    obtain ⟨inner, oneLine, split⟩ := exists_line_of_matchComment starts matched feeds
    have returns := Mode.lineComment_returns_iff.mpr ⟨inner, rfl, oneLine⟩
    exact split ▸ (Unsplit.comment (.inl rfl) returns).append ih
  | blockComment starts matched _ ih =>
    obtain ⟨inner, unended, split⟩ := exists_block_of_matchComment starts matched
    have returns := Mode.blockComment_returns_iff.mpr ⟨inner, rfl, unended⟩
    exact split ▸ (Unsplit.comment (.inr rfl) returns).append ih

/-! ## Lists are split -/

/-- White space may be added around a piece. -/
theorem Padded.of_trim {value : α} (padded : Padded written (trim text) value) : Padded written text value := by
  obtain ⟨lead, trail, leads, trails, split⟩ := exists_trim text
  generalize trim text = inner at padded split
  obtain @⟨lead', inner, trail', value, leads', here, trails'⟩ := padded
  have wider : Padded written (lead ++ lead' ++ inner ++ (trail' ++ trail)) value :=
    .intro (by simp [leads, leads']) here (by simp [trails, trails'])
  rw [split]
  simpa using wider

/-- The pieces of a list may be taken for others that they are too. -/
theorem Listed.imp {written' : Text → α → Prop} (listed : Listed written text members)
    (implies : ∀ piece, piece.length ≤ text.length → ∀ member ∈ members,
      written piece member → written' piece member) :
    Listed written' text members := by
  induction listed with
  | nil isBlank => exact .nil isBlank
  | last here => exact .last (implies _ (Nat.le_refl _) _ List.mem_cons_self here)
  | @cons text rest _ _ here _ ih =>
    have width : (text ++ ',' :: rest).length = text.length + rest.length + 1 := by simp [Nat.add_assoc]
    refine .cons (implies _ (by omega) _ List.mem_cons_self here) (ih fun piece short member inside => ?_)
    exact implies piece (by omega) member (List.mem_cons_of_mem _ inside)

/-- A list leaves the nesting as it was if its pieces do. -/
theorem Listed.passes {bracket : Bracket} (listed : Listed written text members)
    (inside : ∀ piece member, written piece member → bracket.Passes piece) : bracket.Passes text := by
  induction listed with
  | nil isBlank => exact Bracket.passes_blank isBlank
  | last here => exact inside _ _ here
  | cons here _ ih => exact (inside _ _ here).append (.cons (by cases bracket <;> decide) ih)

/-- A list whose members stay in one piece is split into what is written for each of them. -/
theorem Listed.exists_segments (listed : Listed written text members)
    (fits : ∀ piece member, written piece member → Unsplit piece ∧ trim piece ≠ []) :
    ∃ first more texts, (∀ opened offset, segmentsFrom ⟨.code, opened, none⟩ offset text = .ok (first :: more)) ∧
      dropEmptyLast ((first :: more).map trim) = texts.map trim ∧ List.Forall₂ written texts members := by
  induction listed with
  | @nil blank isBlank =>
    have dropped : dropEmptyLast ([blank].map trim) = [] := by
      simp [trim_of_isBlankText isBlank, dropEmptyLast]
    exact ⟨blank, [], [], (unsplit_of_isBlankText isBlank).last, dropped, .nil⟩
  | @last text member here =>
    obtain ⟨unsplit, nonempty⟩ := fits _ _ here
    have kept : dropEmptyLast ([text].map trim) = [text].map trim := by
      simp [dropEmptyLast, nonempty]
    exact ⟨text, [], [text], unsplit.last, kept, .cons here .nil⟩
  | @cons text rest member more here _ ih =>
    obtain ⟨first, others, texts, split, dropped, members⟩ := ih
    exact ⟨text, first :: others, text :: texts, (fits _ _ here).1.comma split, congrArg (trim text :: ·) dropped,
      .cons here members⟩

/-- A list is split into its pieces, trimmed. -/
theorem Listed.splitArguments (listed : Listed written text members)
    (fits : ∀ piece member, written piece member → Unsplit piece ∧ trim piece ≠ []) :
    ∃ texts, Source.splitArguments text = .ok (texts.map trim) ∧ List.Forall₂ written texts members := by
  obtain ⟨first, more, texts, split, dropped, members⟩ := listed.exists_segments fits
  have pieces : segmentsFrom {} 0 text = .ok (first :: more) := split 0 0
  exact ⟨texts, by rw [Source.splitArguments, pieces]; exact congrArg Except.ok dropped, members⟩

/-! ## Pieces stand alone -/

namespace Nesting

variable {other : Nesting}

/-- Two readings stand alike, wherever they began. -/
def Alike (nesting other : Nesting) : Prop :=
  nesting.mode = other.mode ∧ nesting.group.map (fun group => (group.bracket, group.inner)) =
    other.group.map fun group => (group.bracket, group.inner)

theorem flaw?_eq_none_iff : nesting.flaw? = none ↔ nesting.mode.flaw? = none ∧ nesting.group = none := by
  unfold flaw?
  cases nesting.mode.flaw? <;> simp

/-- Nestings that are alike stay so. -/
theorem Alike.next (alike : nesting.Alike other) (offset offset' : Nat) (c : Char) :
    (nesting.next offset c).Alike (other.next offset' c) := by
  obtain ⟨mode, opened, group⟩ := nesting
  obtain ⟨mode', opened', group'⟩ := other
  obtain ⟨rfl, groups⟩ : mode = mode' ∧ group.map (fun group => (group.bracket, group.inner)) =
    group'.map fun group => (group.bracket, group.inner) := alike
  rcases group with - | ⟨bracket, inner, start⟩ <;> rcases group' with - | ⟨bracket', inner', start'⟩
  · cases mode with
    | code => exact ⟨rfl, by simp only [Nesting.next, nextGroup, Option.map_map]; rfl⟩
    | _ => exact ⟨rfl, rfl⟩
  · cases groups
  · cases groups
  · obtain ⟨rfl, rfl⟩ : bracket = bracket' ∧ inner = inner' := by simpa using groups
    rw [next_eq, next_eq]
    exact ⟨rfl, by rw [Option.map_map, Option.map_map]; rfl⟩

/-- Nestings that are alike have flaws alike. -/
theorem Alike.flaw?_eq_none (alike : nesting.Alike other) (unflawed : nesting.flaw? = none) : other.flaw? = none := by
  obtain ⟨mode, group⟩ := Nesting.flaw?_eq_none_iff.mp unflawed
  have groups := alike.2
  rw [group, Option.map_none, eq_comm, Option.map_eq_none_iff] at groups
  exact Nesting.flaw?_eq_none_iff.mpr ⟨alike.1 ▸ mode, groups⟩

theorem Alike.atTopLevel_eq (alike : nesting.Alike other) : atTopLevel nesting = atTopLevel other := by
  have groups := congrArg Option.isNone alike.2
  rw [Option.isNone_map, Option.isNone_map] at groups
  rw [atTopLevel, atTopLevel, alike.1, groups]

/-- White space in front of an end at which nothing is open changes nothing. -/
theorem flaw?_of_blank {c : Char} {offset : Nat} (proper : nesting.mode.Proper) (white : isBlank c = true)
    (unflawed : (nesting.next offset c).flaw? = none) : nesting.flaw? = none := by
  obtain ⟨closed, noGroup⟩ := Nesting.flaw?_eq_none_iff.mp unflawed
  rw [mode_next] at closed
  refine Nesting.flaw?_eq_none_iff.mpr ⟨proper.flaw?_of_blank white closed, ?_⟩
  obtain ⟨mode, opened, group⟩ := nesting
  cases group with
  | none => rfl
  | some group =>
    rw [next_eq, Option.map_eq_none_iff, Bracket.step_eq_none_iff] at noGroup
    exact absurd noGroup.2.2 (ne_of_isBlank white group.bracket.isBlank_closer)

end Nesting

namespace Source

variable {other : Nesting} {offset : Nat}

/-- The end of a text is one empty segment, if the nesting has no flaw. -/
theorem segmentsFrom_nil_iff :
    segmentsFrom nesting offset [] = .ok pieces ↔ nesting.flaw? = none ∧ pieces = [[]] := by
  unfold segmentsFrom
  cases nesting.flaw? with
  | none => simp [eq_comm]
  | some flaw => simp

/-- Segments do not depend on the offset and on where brackets were opened. -/
theorem segmentsFrom_of_alike (alike : nesting.Alike other) (read : segmentsFrom nesting offset text = .ok pieces)
    (offset' : Nat) : segmentsFrom other offset' text = .ok pieces := by
  induction text generalizing nesting other offset offset' pieces with
  | nil =>
    obtain ⟨unflawed, rfl⟩ := segmentsFrom_nil_iff.mp read
    exact segmentsFrom_nil_iff.mpr ⟨alike.flaw?_eq_none unflawed, rfl⟩
  | cons c text ih =>
    obtain ⟨others, further, read⟩ := exceptBind_eq_ok_iff.mp read
    rw [alike.atTopLevel_eq] at read
    exact exceptBind_eq_ok_iff.mpr ⟨others, ih (alike.next offset offset' c) further (offset' + 1), read⟩

/-- A text stays in one piece character by character. -/
theorem segmentsFrom_cons_alone_iff {c : Char} : segmentsFrom nesting offset (c :: text) = .ok [c :: text] ↔
    (atTopLevel nesting && c = ',') = false ∧
      segmentsFrom (nesting.next offset c) (offset + 1) text = .ok [text] := by
  constructor
  · intro read
    obtain ⟨others, further, read⟩ := exceptBind_eq_ok_iff.mp read
    split at read
    · cases read
    · next inside =>
      cases others with
      | nil => exact absurd further segmentsFrom_ne_nil
      | cons first more =>
        cases read
        exact ⟨Bool.not_eq_true _ ▸ inside, further⟩
  · rintro ⟨inside, further⟩
    exact segmentsFrom_cons inside further

/-- Each piece of a text stays in one piece where it began. -/
theorem alone_of_segmentsFrom (read : segmentsFrom nesting offset text = .ok (first :: more)) :
    segmentsFrom nesting offset first = .ok [first] ∧ ∀ piece ∈ more, segmentsFrom {} 0 piece = .ok [piece] := by
  induction text generalizing nesting offset first more with
  | nil =>
    obtain ⟨unflawed, same⟩ := segmentsFrom_nil_iff.mp read
    cases same
    exact ⟨segmentsFrom_nil_iff.mpr ⟨unflawed, rfl⟩, by simp⟩
  | cons c text ih =>
    obtain ⟨others, further, read⟩ := exceptBind_eq_ok_iff.mp read
    cases others with
    | nil => exact absurd further segmentsFrom_ne_nil
    | cons piece others =>
      obtain ⟨here, behind⟩ := ih further
      split at read
      · next comma =>
        cases read
        obtain ⟨topLevel, isComma⟩ := Bool.and_eq_true_iff.mp comma
        obtain ⟨inCode, noGroup⟩ : nesting.mode = .code ∧ nesting.group = none := by
          simpa [atTopLevel] using topLevel
        obtain rfl : c = ',' := of_decide_eq_true isComma
        have top : nesting.Alike {} := ⟨inCode, by rw [noGroup]⟩
        refine ⟨segmentsFrom_nil_iff.mpr ⟨Nesting.flaw?_eq_none_iff.mpr ⟨by rw [inCode]; rfl, noGroup⟩, rfl⟩, ?_⟩
        exact List.forall_mem_cons.mpr ⟨segmentsFrom_of_alike (top.next offset 0 ',') here 0, behind⟩
      · next inside =>
        cases read
        exact ⟨segmentsFrom_cons (Bool.not_eq_true _ ▸ inside) here, behind⟩

/-- A piece that is not split is not split without the white space in front of it. -/
theorem alone_of_blank_append (white : isBlankText blank = true)
    (alone : segmentsFrom {} 0 (blank ++ text) = .ok [blank ++ text]) : segmentsFrom {} 0 text = .ok [text] := by
  induction blank with
  | nil => exact alone
  | cons c blank ih =>
    rw [isBlankText_cons, Bool.and_eq_true] at white
    have plain (bracket : Bracket) : bracket.Plain c := Bracket.plain_of_isBlank white.1
    have stays : (Nesting.next {} 0 c).Alike {} := by
      simp [Nesting.Alike, Nesting.next, Nesting.nextGroup, Mode.code_next_of_not_isDelimiter (plain .brace).1,
        Bracket.ofOpener?_of_plain plain]
    obtain ⟨-, further⟩ := segmentsFrom_cons_alone_iff.mp alone
    exact ih white.2 (segmentsFrom_of_alike stays further 0)

/-- A piece that is not split is not split without the white space behind it. -/
theorem alone_of_append_blank (proper : nesting.mode.Proper) (white : isBlankText blank = true)
    (alone : segmentsFrom nesting offset (text ++ blank) = .ok [text ++ blank]) :
    segmentsFrom nesting offset text = .ok [text] := by
  induction text generalizing nesting offset with
  | nil =>
    refine segmentsFrom_nil_iff.mpr ⟨?_, rfl⟩
    induction blank generalizing nesting offset with
    | nil => exact (segmentsFrom_nil_iff.mp alone).1
    | cons c blank ih =>
      rw [isBlankText_cons, Bool.and_eq_true] at white
      obtain ⟨-, further⟩ := segmentsFrom_cons_alone_iff.mp alone
      have proper' : (nesting.next offset c).mode.Proper := by
        rw [Nesting.mode_next]
        exact proper.next c
      exact Nesting.flaw?_of_blank proper white.1 (ih white.2 proper' further)
  | cons c text ih =>
    obtain ⟨inside, further⟩ := segmentsFrom_cons_alone_iff.mp alone
    have proper' : (nesting.next offset c).mode.Proper := by
      rw [Nesting.mode_next]
      exact proper.next c
    exact segmentsFrom_cons_alone_iff.mpr ⟨inside, ih proper' further⟩

/-- A piece that is not split is not split when it is trimmed. -/
theorem alone_trim (alone : segmentsFrom {} 0 piece = .ok [piece]) :
    segmentsFrom {} 0 (trim piece) = .ok [trim piece] := by
  obtain ⟨lead, trail, leads, trails, split⟩ := exists_trim piece
  rw [split, List.append_assoc] at alone
  exact alone_of_append_blank Mode.proper_code trails (alone_of_blank_append leads alone)

/-- A last piece is dropped if it is empty. -/
theorem dropEmptyLast_concat (pieces : List Text) (last : Text) :
    dropEmptyLast (pieces ++ [last]) = pieces ++ if last.isEmpty then [] else [last] := by
  induction pieces with
  | nil => rfl
  | cons piece pieces ih =>
    rw [List.cons_append, dropEmptyLast.eq_def]
    cases pieces with
    | nil => exact congrArg (piece :: ·) ih
    | cons other pieces => exact congrArg (piece :: ·) ih

/-- Each argument of a text is an argument on its own. -/
theorem splitArguments_argument {argument : Text} (split : splitArguments text = .ok arguments)
    (member : argument ∈ arguments) (nonempty : argument ≠ []) : splitArguments argument = .ok [argument] := by
  unfold splitArguments at split
  split at split
  · next pieces read =>
    cases split
    obtain ⟨piece, inside, rfl⟩ := List.mem_map.mp (mem_of_mem_dropEmptyLast member)
    cases pieces with
    | nil => cases inside
    | cons first more =>
      obtain ⟨here, behind⟩ := alone_of_segmentsFrom read
      have each : ∀ piece ∈ first :: more, segmentsFrom {} 0 piece = .ok [piece] :=
        List.forall_mem_cons.mpr ⟨here, behind⟩
      rw [splitArguments, alone_trim (each piece inside)]
      simp [trim_trim, dropEmptyLast, nonempty]
  · cases split

/-- The pieces that a text is split into are the text again when they are joined. -/
theorem join_of_splitArguments (split : splitArguments text = .ok arguments) :
    ∃ segments last, text = join [','] (segments ++ [last]) ∧
      arguments = segments.map trim ++ if isBlankText last then [] else [trim last] := by
  unfold splitArguments at split
  split at split
  · next pieces read =>
    cases split
    obtain ⟨nonempty, joined⟩ := join_of_segmentsFrom read
    obtain ⟨segments, last, rfl⟩ : ∃ segments last, pieces = segments ++ [last] :=
      ⟨_, _, (List.dropLast_append_getLast nonempty).symm⟩
    refine ⟨segments, last, joined.symm, ?_⟩
    rw [List.map_append, List.map_singleton, dropEmptyLast_concat]
    simp [trim_eq_nil_iff]
  · cases split

/-- What a text is split into is listed in it. -/
theorem listed_of_splitArguments (split : splitArguments text = .ok arguments)
    (each : List.Forall₂ written arguments members)
    (pads : ∀ piece member, written (trim piece) member → written piece member) : Listed written text members := by
  obtain ⟨segments, last, rfl, rfl⟩ := join_of_splitArguments split
  clear split
  induction segments generalizing members with
  | nil =>
    by_cases empty : isBlankText last = true
    · rw [if_pos empty] at each
      cases each
      exact .nil empty
    · rw [if_neg empty] at each
      cases each with
      | cons here none =>
        cases none
        exact .last (pads _ _ here)
  | cons segment segments ih =>
    have joined : join [','] (segment :: (segments ++ [last])) = segment ++ ',' :: join [','] (segments ++ [last]) := by
      cases segments <;> simp [join]
    cases each with
    | cons here others =>
      rw [List.cons_append, joined]
      exact .cons (pads _ _ here) (ih others)

/-! ## Splitting and joining -/

/-- Splitting a text into arguments and writing them down in a list undo each other. Arguments that are written
with blank characters around them, and perhaps with a comma behind the last one, are given back. What is given back
is what stands between the commas of the text, without an empty last piece, and each argument is one on its own. -/
theorem splitArguments_inverse (text : Text) (arguments : List Text) :
    ((∀ argument ∈ arguments, argument ≠ [] ∧ trim argument = argument ∧ Argument argument) →
      Listed (Padded Eq) text arguments → splitArguments text = .ok arguments) ∧
    (splitArguments text = .ok arguments →
      (∃ segments last, text = join [','] (segments ++ [last]) ∧
        arguments = segments.map trim ++ if isBlankText last then [] else [trim last]) ∧
      ∀ argument ∈ arguments, argument ≠ [] → splitArguments argument = .ok [argument]) := by
  constructor
  · intro wellFormed listed
    have here (piece : Text) (_ : piece.length ≤ text.length) (argument : Text) (member : argument ∈ arguments)
        (padded : Padded Eq piece argument) : Unsplit piece ∧ trim piece = argument ∧ trim piece ≠ [] := by
      obtain ⟨nonempty, trimmed, well⟩ := wellFormed argument member
      obtain ⟨leads, rfl, trails⟩ := padded
      rw [trim_padded leads trails, trimmed]
      have whole := ((unsplit_of_isBlankText leads).append well.unsplit).append (unsplit_of_isBlankText trails)
      exact ⟨whole, rfl, nonempty⟩
    obtain ⟨texts, split, same⟩ := (listed.imp here).splitArguments fun _ _ fits => ⟨fits.1, fits.2.2⟩
    have given : List.Forall₂ Eq (texts.map trim) arguments :=
      List.forall₂_map_left_iff.mpr (same.imp fun _ _ fits => fits.2.1)
    rw [List.forall₂_eq_eq_eq] at given
    rw [split, given]
  · intro split
    exact ⟨join_of_splitArguments split, fun argument => splitArguments_argument split⟩

/-- A call with a comma in its brackets. -/
def guardedCall : Text := ['f', '(', '[', 'a', ',', '\x7d', ']', ')']

/-- A string, a block comment and a line comment with commas in them. -/
def guardedString : Text := ['\'', ',', '\'', '/', '*', ',', '*', '/', '/', '/', ',', '\n', 'b']

/-- Two arguments with commas in a call and a string are split at the commas between them. -/
theorem guardedArguments_split :
    splitArguments ([' '] ++ guardedCall ++ ['\n'] ++ ',' :: (['\n'] ++ guardedString ++ [' '] ++ ',' :: [' '])) =
      .ok [guardedCall, guardedString] := by
  refine (splitArguments_inverse _ _).1 ?_ ?_
  · simp only [List.forall_mem_cons, List.not_mem_nil, false_implies, implies_true, and_true]
    refine ⟨⟨by decide, by decide, ?_⟩, by decide, by decide, ?_⟩
    · exact .plain (by decide) (by decide) (by decide) (@Argument.bracket _ 6 rfl .nil)
    · refine @Argument.literal _ 2 (by decide) rfl (@Argument.blockComment _ 5 (by decide) rfl ?_)
      exact @Argument.lineComment _ 3 (by decide) rfl (by decide)
        (.plain (by decide) (by decide) (by decide) .nil)
  · have space : isBlankText [' '] = true := by decide
    have feed : isBlankText ['\n'] = true := by decide
    exact .cons (.intro space rfl feed) (.cons (.intro feed rfl space) (.nil space))

end Source

end JasmineConversion
