import JasmineConversion.Proofs.Source.Reports
import JasmineConversion.Proofs.Source.Stripping
import JasmineConversion.Literal.Reader

/-! # What failing readings of literals report

Whatever is read inside a literal is a piece of it, so that the lines an error points at are lines of
the literal. What opens with a brace is read as an object or not at all.
-/

namespace JasmineConversion

open Text Source

/-! ## Pieces of a literal -/

/-- A text that starts with a character that is not blank still does when it is trimmed. -/
theorem Text.exists_trim_cons {c : Char} (solid : isBlank c = false) (rest : Text) :
    ∃ more, trim (c :: rest) = c :: more := by
  have start : trimStart (c :: rest) = c :: rest := List.dropWhile_cons_of_neg (by simp [solid])
  rw [trim, start, trimEnd, dropEndWhile, List.reverse_cons, List.dropWhile_append]
  split
  · rw [List.dropWhile_cons_of_neg (by simp [solid])]
    exact ⟨[], rfl⟩
  · exact ⟨_, List.reverse_concat⟩

namespace Source

/-- The segments of a text have only characters of it. -/
theorem sublist_of_segmentsFrom {nesting : Nesting} {offset : Nat} {text : Text} {pieces : List Text}
    (split : segmentsFrom nesting offset text = .ok pieces) : ∀ piece ∈ pieces, piece.Sublist text := by
  induction text generalizing nesting offset pieces with
  | nil =>
    rw [segmentsFrom] at split
    split at split
    · cases split
    · cases split
      intro piece member
      obtain rfl := List.mem_singleton.mp member
      exact List.Sublist.refl _
  | cons c rest ih =>
    rw [segmentsFrom, exceptBind_eq_ok_iff] at split
    obtain ⟨others, further, split⟩ := split
    have inside := ih further
    split at split
    · cases split
      exact List.forall_mem_cons.mpr
        ⟨List.nil_sublist _, fun piece member => (inside piece member).cons c⟩
    · cases others with
      | nil =>
        cases split
        exact List.forall_mem_cons.mpr
          ⟨(List.nil_sublist rest).cons_cons c, fun piece none => (List.not_mem_nil none).elim⟩
      | cons first more =>
        cases split
        obtain ⟨here, behind⟩ := List.forall_mem_cons.mp inside
        exact List.forall_mem_cons.mpr
          ⟨here.cons_cons c, fun piece member => (behind piece member).cons c⟩

/-- What is left when an empty last piece is dropped was there before. -/
theorem mem_of_mem_dropEmptyLast {pieces : List Text} {piece : Text}
    (member : piece ∈ dropEmptyLast pieces) :
    piece ∈ pieces := by
  fun_induction dropEmptyLast pieces with
  | case1 => exact member
  | case2 last empty => cases member
  | case3 last nonempty => exact member
  | case4 first rest more ih =>
    rcases List.mem_cons.mp member with rfl | member
    · exact List.mem_cons_self
    · exact List.mem_cons_of_mem first (ih member)

/-- The items of a list have only characters of it. -/
theorem sublist_of_splitArguments {text : Text} {items : List Text}
    (split : splitArguments text = .ok items) :
    ∀ item ∈ items, item.Sublist text := by
  unfold splitArguments at split
  split at split
  · next pieces segmented =>
    cases split
    intro item member
    obtain ⟨piece, inside, rfl⟩ := List.mem_map.mp (mem_of_mem_dropEmptyLast member)
    exact (trim_sublist piece).trans (sublist_of_segmentsFrom segmented piece inside)
  · cases split

end Source

/-! ## Literals -/

namespace Literal

variable {lines : Nat} {whole : Text}

/-- Splitting off a key fails inside of the literal. -/
theorem splitKey_reports (inWhole : lineCount whole ≤ lines) {entry : Text}
    (inside : lineCount entry ≤ lines)
    (offset : Nat) : Reports (SourceError.Inside lines) (splitKey whole entry offset) := by
  have faulty {α : Type} (fault : LiteralFault) :
      Reports (SourceError.Inside lines)
        (.error (.ofIndex (.literal fault) whole offset) : Except SourceError α) :=
    (Reports.ofIndex (.literal fault) whole offset).within inWhole
  unfold splitKey
  cases entry with
  | nil => exact faulty _
  | cons c rest =>
    dsimp only
    split
    · next quoted =>
      have matched : Reports _ (matchLiteral (c :: rest) 0) :=
        matchLiteral_reports (Mode.isDelimiter_of_isQuote quoted) rfl
      refine (matched.within inside).bind fun close _ => Reports.bind (.ok _) fun _ _ => ?_
      split
      · exact .ok _
      · exact faulty _
    · split
      · refine Reports.bind (.ok _) fun _ _ => ?_
        split
        · exact .ok _
        · exact faulty _
      · exact faulty _

/-- The value in an entry is a piece of it. -/
theorem sublist_of_splitKey {entry key value : Text} {offset : Nat}
    (split : splitKey whole entry offset = .ok (key, value)) : value.Sublist entry := by
  have behindColon {rest : Text} (trimmed : trimStart rest = ':' :: value) : value.Sublist rest := by
    have trims : (trimStart rest).Sublist rest := List.dropWhile_sublist isBlank
    rw [trimmed] at trims
    exact (List.sublist_cons_self ':' value).trans trims
  unfold splitKey at split
  cases entry with
  | nil => cases split
  | cons c more =>
    dsimp only at split
    split at split
    · obtain ⟨close, -, split⟩ := exceptBind_eq_ok_iff.mp split
      obtain ⟨_, found, split⟩ := exceptBind_eq_ok_iff.mp split
      cases found
      split at split
      · next colon =>
        cases split
        exact (behindColon colon).trans (List.drop_sublist _ _)
      · cases split
    · split at split
      · obtain ⟨_, found, split⟩ := exceptBind_eq_ok_iff.mp split
        cases found
        split at split
        · next colon =>
          cases split
          exact (behindColon colon).trans (List.dropWhile_sublist _)
        · cases split
      · cases split

/-- Reading a value fails inside of the literal. -/
theorem readFrom_reports (inWhole : lineCount whole ≤ lines) (depth : Nat) {source : Text}
    (inside : lineCount source ≤ lines) (offset : Nat) :
    Reports (SourceError.Inside lines) (readFrom whole depth source offset) := by
  -- Faults are placed in the whole literal, whatever piece of it is read.
  have faulty {α : Type} (fault : LiteralFault) (offset : Nat) :
      Reports (SourceError.Inside lines)
        (.error (.ofIndex (.literal fault) whole offset) : Except SourceError α) :=
    (Reports.ofIndex (.literal fault) whole offset).within inWhole
  induction depth generalizing source offset with
  | zero => exact faulty _ offset
  | succ depth ih =>
    rw [readFrom]
    dsimp only
    have trimmed : lineCount (trim source) ≤ lines :=
      Nat.le_trans (lineCount_le_of_sublist (trim_sublist source)) inside
    generalize trim source = text at trimmed
    cases text with
    | nil => exact faulty _ _
    | cons first rest =>
      dsimp only
      split
      · next bracketed =>
        obtain ⟨bracket, rfl⟩ : ∃ bracket : Bracket, first = bracket.opener := by
          rcases Bool.or_eq_true_iff.mp bracketed with brace | square
          · exact ⟨.brace, eq_of_beq brace⟩
          · exact ⟨.square, eq_of_beq square⟩
        have matched : Reports _ (matchBracket (bracket.opener :: rest) 0) :=
          matchBracket_reports bracket rfl
        refine (matched.within trimmed).bind fun close _ => ?_
        split
        · exact faulty _ _
        · have within : lineCount (slice (bracket.opener :: rest) 1 close) ≤ lines :=
            Nat.le_trans (lineCount_le_of_sublist (slice_sublist _ 1 close)) trimmed
          refine ((splitArguments_reports _).within within).bind fun items split => ?_
          have pieces : ∀ item ∈ items, lineCount item ≤ lines := fun item member =>
            Nat.le_trans (lineCount_le_of_sublist (sublist_of_splitArguments split item member)) within
          split
          · refine (Reports.mapM fun item member => ?_).bind fun _ _ => .ok _
            exact ih (pieces item member) _
          · refine (Reports.foldlM ?_ []).bind fun _ _ => .ok _
            intro entries item member
            refine (splitKey_reports inWhole (pieces item member) _).bind ?_
            rintro ⟨key, value⟩ keyed
            have short := lineCount_le_of_sublist (sublist_of_splitKey keyed)
            exact (ih (Nat.le_trans short (pieces item member)) _).bind fun _ _ => .ok _
      · split
        · next quoted =>
          have matched : Reports _ (matchLiteral (first :: rest) 0) :=
            matchLiteral_reports (Mode.isDelimiter_of_isQuote quoted) rfl
          refine (matched.within trimmed).bind fun close _ => ?_
          split
          · exact faulty _ _
          · exact .ok _
        · split
          · exact .ok _
          · exact faulty _ _

/-- What stands inside brackets is shorter than what they hold together. -/
theorem length_slice_cons_lt (first : Char) (rest : Text) (close : Nat) :
    (slice (first :: rest) 1 close).length < (first :: rest).length := by
  rw [slice, List.length_drop, List.length_take, List.length_cons]
  omega

/-- More depth than there are characters changes nothing. -/
theorem readFrom_succ {depth : Nat} {source : Text} (enough : source.length < depth) (offset : Nat) :
    readFrom whole (depth + 1) source offset = readFrom whole depth source offset := by
  induction depth generalizing source offset with
  | zero => cases enough
  | succ depth ih =>
    rw [readFrom, readFrom.eq_def whole (depth + 1)]
    dsimp only
    have shorter := (trim_sublist source).length_le
    generalize trim source = text at shorter
    cases text with
    | nil => rfl
    | cons first rest =>
      dsimp only
      split
      · refine exceptBind_congr fun close _ => ?_
        split
        · rfl
        · have within : (slice (first :: rest) 1 close).length < depth := by
            have less := length_slice_cons_lt first rest close
            omega
          refine exceptBind_congr fun items split => ?_
          have pieces : ∀ item ∈ items, item.length < depth := fun item member =>
            Nat.lt_of_le_of_lt (sublist_of_splitArguments split item member).length_le within
          split
          · rw [exceptMapM_congr fun item member => ih (pieces item member) _]
          · rw [exceptFoldlM_congr fun entries item member => ?_]
            refine exceptBind_congr ?_
            rintro ⟨key, value⟩ keyed
            have short := (sublist_of_splitKey keyed).length_le
            rw [ih (Nat.lt_of_le_of_lt short (pieces item member))]
      · rfl

/-- A value is read in the same way with any depth beyond its length. -/
theorem readFrom_of_depth {depth : Nat} {source : Text} (enough : source.length < depth) (offset : Nat) :
    readFrom whole depth source offset = readFrom whole (source.length + 1) source offset := by
  induction enough with
  | refl => rfl
  | step less ih => rw [readFrom_succ less, ih]

/-- Reading a literal fails inside of it. -/
theorem read_reports (text : Text) : Reports (SourceError.Inside (lineCount text)) (read text) := by
  refine (stripComments_reports text).bind fun plain stripped => ?_
  have shorter : lineCount plain ≤ lineCount text := by
    rw [← (stripComments_eq_ok_iff.mp stripped).2]
    exact Nat.succ_le_succ (Nat.le_of_eq (count_keptFrom .code text))
  exact readFrom_reports shorter _ shorter 0

/-- What opens with a brace is read as an object. -/
theorem exists_object_of_read {text : Text} {literal : Literal}
    (ran : read ('{' :: text) = .ok literal) :
    ∃ entries, literal = object entries := by
  unfold read at ran
  obtain ⟨plain, stripped, ran⟩ := exceptBind_eq_ok_iff.mp ran
  obtain rfl : '{' :: keptFrom .code text = plain := (stripComments_eq_ok_iff.mp stripped).2
  obtain ⟨more, trimmed⟩ := exists_trim_cons (by decide : isBlank '{' = false) (keptFrom .code text)
  rw [readFrom, trimmed] at ran
  dsimp only at ran
  obtain ⟨close, -, ran⟩ := exceptBind_eq_ok_iff.mp ran
  split at ran
  · cases ran
  · obtain ⟨items, -, ran⟩ := exceptBind_eq_ok_iff.mp ran
    obtain ⟨entries, -, ran⟩ := exceptBind_eq_ok_iff.mp ran
    exact ⟨entries, (exceptPure_eq_ok_iff.mp ran).symm⟩

end Literal

end JasmineConversion
