import JasmineConversion.Proofs.Body.Wrappers

/-! # Characters that a run over a body carries

A character of the code that a run over a body leaves was in the code before, and each is told by the text in front of
it. In front of a wrapper this text stays. Inside, it loses what opens the wrapper, one indent of each line, and line
ends at the front. Behind the wrapper, it loses all of it but its code.
-/

namespace JasmineConversion

open Text Source JasmineConversion.Bracket

/-! ## Indents -/

namespace Text

variable {line code front rest : Text} {c : Char}

/-- An indent is dropped from a line, and from any text up to a place behind it. -/
theorem exists_indent (line : Text) :
    ∃ indent, line = indent ++ dropOneIndent line ∧
      ∀ part, part <+: dropOneIndent line → dropOneIndent (indent ++ part) = part := by
  cases tab : after? ['\t'] line with
  | some rest =>
    obtain rfl := after?_eq_some_iff.mp tab
    have dropped : ∀ part, dropOneIndent (['\t'] ++ part) = part := fun part => by
      rw [dropOneIndent, after?_append]
    exact ⟨['\t'], by rw [dropped], fun part _ => dropped part⟩
  | none =>
    cases spaces : after? "    ".toList line with
    | some rest =>
      obtain rfl := after?_eq_some_iff.mp spaces
      have dropped : ∀ part, dropOneIndent ("    ".toList ++ part) = part := fun part => by
        have noTab : after? ['\t'] ("    ".toList ++ part) = none := rfl
        rw [dropOneIndent, noTab]
        dsimp only
        rw [after?_append, Option.getD_some]
      exact ⟨_, by rw [dropped], fun part _ => dropped part⟩
    | none =>
      have absent {lead part : Text} (missing : after? lead line = none) (begins : part <+: line) :
          after? lead part = none := by
        obtain ⟨rest, rfl⟩ := begins
        cases found : after? lead part with
        | none => rfl
        | some behind =>
          rw [after?_eq_some_iff.mp found, List.append_assoc, after?_append] at missing
          cases missing
      have dropped : ∀ part, part <+: line → dropOneIndent part = part := fun part begins => by
        rw [dropOneIndent, absent tab begins]
        dsimp only
        rw [absent spaces begins, Option.getD_none]
      have whole := dropped line (List.prefix_refl line)
      exact ⟨[], whole.symm, fun part begins => dropped part (whole ▸ begins)⟩

theorem removeOneIndent_of_single (single : '\n' ∉ line) : removeOneIndent line = dropOneIndent line := by
  rw [removeOneIndent, lines_of_not_mem single]
  rfl

/-- A first line is moved by itself, and the lines behind it by themselves. -/
theorem removeOneIndent_append_newline (single : '\n' ∉ line) (rest : Text) :
    removeOneIndent (line ++ '\n' :: rest) = dropOneIndent line ++ '\n' :: removeOneIndent rest := by
  rw [removeOneIndent, lines_append_newline single, List.map_cons, unlines_cons (by simp [lines_ne_nil])]
  rfl

/-- A character that is left when an indent is removed was in the code, behind the text that the text in front of it
comes from. -/
theorem exists_of_removeOneIndent (split : removeOneIndent code = front ++ c :: rest) :
    ∃ inner more, code = inner ++ c :: more ∧ removeOneIndent inner = front := by
  have inLine {line front rest : Text} (single : '\n' ∉ line) (split : dropOneIndent line = front ++ c :: rest) :
      ∃ inner, line = inner ++ c :: rest ∧ removeOneIndent inner = front := by
    obtain ⟨indent, whole, dropped⟩ := exists_indent line
    rw [split, ← List.append_assoc] at whole
    refine ⟨indent ++ front, whole, ?_⟩
    rw [removeOneIndent_of_single fun member => single (whole ▸ List.mem_append_left _ member)]
    exact dropped front ⟨c :: rest, split.symm⟩
  induction code using induction_on_lines generalizing front with
  | single line single =>
    rw [removeOneIndent_of_single single] at split
    obtain ⟨inner, whole, same⟩ := inLine single split
    exact ⟨inner, rest, whole, same⟩
  | more line code single ih =>
    rw [removeOneIndent_append_newline single] at split
    rcases append_eq_append_cons_iff.mp split with ⟨behind, before, rfl⟩ | ⟨front', rfl, same⟩
    · obtain ⟨inner, whole, same⟩ := inLine single before
      exact ⟨inner, behind ++ '\n' :: code, by simp [whole], same⟩
    · rcases List.cons_eq_append_iff.mp same with ⟨rfl, feed⟩ | ⟨front', rfl, further⟩
      · obtain ⟨rfl, rfl⟩ := List.cons.inj feed
        exact ⟨line, code, rfl, by rw [removeOneIndent_of_single single, List.append_nil]⟩
      · obtain ⟨inner, more, rfl, rfl⟩ := ih further
        exact ⟨line ++ '\n' :: inner, more, by simp, removeOneIndent_append_newline single inner⟩

end Text

namespace Body

variable {marker : Content} {code result front front' rest rest' raw : Text} {index bound : Nat} {c : Char}
  {next : UnwrapStep}

/-! ## Steps -/

/-- A character of the code before a step is one of the code after it, where each is told by the text in front. -/
inductive StepCarries (marker : Content) (code : Text) (index : Nat) (c : Char) : (front front' : Text) → Prop
  | passed {front before indent head raw : Text} (first : FirstTry code index before indent head)
      (kept : KeptIn marker code before indent head raw) : StepCarries marker code index c front front
  | ahead {front more indent head raw clause : Text} (first : FirstTry code index (front ++ c :: more) indent head)
      (wrapper : WrapperIn marker code (front ++ c :: more) indent head raw clause) :
      StepCarries marker code index c front front
  | inside {before indent head inner more more' clause : Text} (first : FirstTry code index before indent head)
      (wrapper : WrapperIn marker code before indent head (inner ++ c :: more) clause)
      (stays : unwrapped (inner ++ c :: more) = (removeOneIndent inner).dropWhile isLineEnd ++ c :: more') :
      StepCarries marker code index c (before ++ head ++ '{' :: inner)
        (before ++ (removeOneIndent inner).dropWhile isLineEnd)
  | behind {before indent head raw clause handler more rest : Text} (first : FirstTry code index before indent head)
      (wrapper : WrapperIn marker code before indent head raw clause) (handles : brace.Encloses handler)
      (whole : code =
        before ++ head ++ '{' :: raw ++ '}' :: clause ++ '{' :: handler ++ '}' :: (more ++ c :: rest)) :
      StepCarries marker code index c (before ++ head ++ '{' :: raw ++ '}' :: clause ++ '{' :: handler ++ '}' :: more)
        (before ++ unwrapped raw ++ more)

/-- A character of the code of a wrapper was between its braces. -/
theorem exists_of_unwrapped (split : unwrapped raw = front ++ c :: rest) :
    ∃ inner more, raw = inner ++ c :: more ∧ front = (removeOneIndent inner).dropWhile isLineEnd := by
  obtain ⟨trail, -, ends⟩ := exists_dropEndWhile isLineEnd ((removeOneIndent raw).dropWhile isLineEnd)
  change _ = unwrapped raw ++ trail at ends
  rw [split, List.append_assoc, List.cons_append] at ends
  have whole : removeOneIndent raw =
      ((removeOneIndent raw).takeWhile isLineEnd ++ front) ++ c :: (rest ++ trail) := by
    rw [List.append_assoc, ← ends, List.takeWhile_append_dropWhile]
  obtain ⟨inner, more, split, same⟩ := exists_of_removeOneIndent whole
  refine ⟨inner, more, split, ?_⟩
  have stops : Stops isLineEnd front := by
    have behind := stops_dropWhile isLineEnd (removeOneIndent raw)
    rw [ends] at behind
    exact behind.of_append
  rw [same, dropWhile_append_of_stops (List.all_eq_true.mp List.all_takeWhile) stops]

/-- What a step leaves in front of a character was in front of it before the step, in one of a few ways.
-/
theorem StepAt.exists_carries (stepAt : StepAt marker code index next) (carried : front' ++ [c] <+: next.code) :
    ∃ front, front ++ [c] <+: code ∧ StepCarries marker code index c front front' ∧
      (next.removed = none → front = front') := by
  cases stepAt with
  | kept first kept => exact ⟨front', carried, .passed first kept, fun _ => rfl⟩
  | @removed before indent head raw clause handler rest first wrapper handles whole =>
    obtain ⟨rest', split⟩ := carried
    dsimp only at split
    rw [List.append_assoc, List.append_assoc] at split
    rcases append_eq_append_cons_iff.mp split.symm with ⟨more, rfl, -⟩ | ⟨later, rfl, behind⟩
    · refine ⟨front', List.IsPrefix.trans ?_ first.tryIn.prefix, .ahead first wrapper, by simp⟩
      exact ⟨more, by simp⟩
    · rcases append_eq_append_cons_iff.mp behind with ⟨more, within, -⟩ | ⟨more, rfl, rfl⟩
      · obtain ⟨inner, more', rfl, rfl⟩ := exists_of_unwrapped within
        refine ⟨_, ?_, .inside first wrapper within, by simp⟩
        exact ⟨more' ++ '}' :: clause ++ '{' :: handler ++ '}' :: rest, by simp [whole]⟩
      · rw [← List.append_assoc]
        refine ⟨_, ?_, .behind first wrapper handles whole, by simp⟩
        exact ⟨rest', by simp [whole]⟩

/-! ## Runs -/

/-- A character of code, from an index on, is one of the code that a run leaves, where each is told by the text in
front. -/
inductive Carried (marker : Content) (c : Char) :
    (code : Text) → (index : Nat) → (front result front' : Text) → Prop
  | done {code front : Text} {index : Nat} (ends : findTry code index = none) :
      Carried marker c code index front code front
  | step {code front between result front' : Text} {index : Nat} {next : UnwrapStep}
      (ran : unwrapStep marker code index = .ok (some next)) (carries : StepCarries marker code index c front between)
      (further : Carried marker c next.code next.resume between result front') :
      Carried marker c code index front result front'

/-- Each character of the result was in the code. Where nothing was removed, it was in the same place. -/
theorem exists_carried (enough : code.length - index < bound)
    (ran : (unwrapFrom marker bound code index).2 = .ok result) (carried : front' ++ [c] <+: result) :
    ∃ front, front ++ [c] <+: code ∧ Carried marker c code index front result front' ∧
      (result = code → front = front') := by
  induction bound generalizing code index with
  | zero => cases enough
  | succ bound ih =>
    rcases unwrapFrom_eq_ok_iff.mp ran with ⟨ends, rfl⟩ | ⟨next, stepped, goesOn⟩
    · exact ⟨front', carried, .done (unwrapStep_eq_none_iff.mp ends), fun _ => rfl⟩
    · have less := Nat.lt_of_lt_of_le (lt_of_unwrapStep stepped) (Nat.le_of_lt_succ enough)
      obtain ⟨between, here, further, stays⟩ := ih less goesOn
      have stepAt := unwrapStep_eq_some_iff.mp stepped
      obtain ⟨front, before, carries, keeps⟩ := stepAt.exists_carries here
      refine ⟨front, before, .step stepped carries further, ?_⟩
      rintro rfl
      by_cases removes : next.removed = none
      · exact (keeps removes).trans (stays (stepAt.code_eq removes).symm)
      · exact absurd (length_le_of_unwrapFrom goesOn) (Nat.not_le_of_lt (stepAt.length_lt removes))

end Body

end JasmineConversion
