import JasmineConversion.Proofs.Assertion.Calls

/-! # The sites of assertion calls

Replacing assertion calls takes code apart into gaps and calls. Each call gives way to its expectation, and
the gaps and what stands behind the last call stay as they are.
-/

namespace JasmineConversion.AssertionCall

open Text Source

/-- What a call takes up of the text behind its parenthesis: spaces and tabs with a semicolon behind them, or
nothing where no semicolon follows. -/
inductive Ends : (ending behind : Text) → Prop
  | semicolon {indents behind : Text} (blank : ∀ c ∈ indents, isIndent c = true) :
      Ends (indents ++ [';']) behind
  | bare {behind : Text} (none : (behind.dropWhile isIndent).head? ≠ some ';') : Ends [] behind

/-- The first assertion call of a text that follows a given character: the gap in front of it and its parts. -/
structure FirstCall (previous : Option Char) (gap head space function inside behind : Text) : Prop where
  headed : CallHead head space function
  apart : Apart (gap.getLast?.or previous)
  first : ∀ front back, gap = front ++ back → back ≠ [] →
    ¬ CallAt (front.getLast?.or previous) (back ++ (head ++ '(' :: (inside ++ ')' :: behind)))
  encloses : Bracket.round.Encloses inside

/-- An assertion call in its place: the gap in front of it, its parts, and its expectation. -/
structure Site where
  gap : Text
  head : Text
  space : Text
  function : Text
  inside : Text
  ending : Text
  expectation : Text

namespace Site

/-- The text of a call. -/
def call (site : Site) : Text :=
  site.head ++ '(' :: site.inside ++ ')' :: site.ending

theorem call_append (site : Site) (behind : Text) :
    site.call ++ behind = site.head ++ '(' :: (site.inside ++ ')' :: site.ending ++ behind) := by
  simp [call]

/-- A site is read in a text: its call is the first one behind a given character, in front of the rest of
the text, and has its expectation. -/
structure Reads (previous : Option Char) (site : Site) (behind : Text) : Prop where
  headed : CallHead site.head site.space site.function
  apart : Apart (site.gap.getLast?.or previous)
  first : ∀ front back, site.gap = front ++ back → back ≠ [] →
    ¬ CallAt (front.getLast?.or previous) (back ++ (site.call ++ behind))
  encloses : Bracket.round.Encloses site.inside
  ends : Ends site.ending behind
  translated : ∃ arguments, splitArguments site.inside = .ok arguments ∧
    expectationFor site.space site.function arguments = .ok site.expectation

end Site

/-- Code as it is put together from its sites and the text behind the last one. -/
def source : (sites : List Site) → (last : Text) → Text
  | [], last => last
  | site :: sites, last => site.gap ++ (site.call ++ source sites last)

/-- The code with the expectations in place of the calls. -/
def written : (sites : List Site) → (last : Text) → Text
  | [], last => last
  | site :: sites, last => site.gap ++ (site.expectation ++ written sites last)

/-- All sites of a text that follows a given character, and the text behind the last one. A call that is looked
for behind another one follows the expectation in its place. -/
inductive Replaces : (previous : Option Char) → (sites : List Site) → (last : Text) → Prop
  | last {previous : Option Char} {last : Text} (free : CallFree previous last) : Replaces previous [] last
  | site {previous : Option Char} {site : Site} {sites : List Site} {last : Text}
      (reads : site.Reads previous (source sites last))
      (others : Replaces (site.expectation.getLast?.or (site.gap.getLast?.or previous)) sites last) :
      Replaces previous (site :: sites) last

variable {previous : Option Char} {site : Site} {sites : List Site} {last text behind : Text}

/-- What stands behind the last site can be made longer. -/
theorem source_last_append (sites : List Site) (last more : Text) :
    source sites (last ++ more) = source sites last ++ more := by
  induction sites with
  | nil => rfl
  | cons site sites ih => simp only [source, ih, List.append_assoc]

/-! ## Steps -/

/-- A call ends in spaces, tabs and semicolons. -/
theorem Ends.isIndent_or_eq {ending : Text} (ends : Ends ending behind) :
    ∀ c ∈ ending, isIndent c = true ∨ c = ';' := by
  cases ends with
  | bare => exact fun c none => (List.not_mem_nil none).elim
  | semicolon blank =>
    intro c member
    exact (List.mem_append.mp member).imp (blank c) List.mem_singleton.mp

/-- A call ends in a parenthesis or a semicolon. -/
theorem Site.Reads.getLast?_call (reads : site.Reads previous behind) :
    site.call.getLast? = some ')' ∨ site.call.getLast? = some ';' := by
  have ends := reads.ends
  unfold Site.call
  generalize site.ending = ending at ends
  cases ends with
  | bare => exact .inl List.getLast?_concat
  | semicolon =>
    rw [← List.cons_append, ← List.append_assoc]
    exact .inr List.getLast?_concat

/-- Every text starts with what ends a call, if it is only the empty text. -/
theorem exists_ending (text : Text) :
    ∃ ending, text = ending ++ dropSemicolon text ∧ Ends ending (dropSemicolon text) := by
  unfold dropSemicolon
  cases found : after? [';'] (text.dropWhile isIndent) with
  | none =>
    refine ⟨[], rfl, .bare fun first => ?_⟩
    obtain ⟨rest, behind⟩ := List.head?_eq_some_iff.mp first
    rw [Option.getD_none] at behind
    simp [behind] at found
  | some rest =>
    refine ⟨text.takeWhile isIndent ++ [';'], ?_, .semicolon (List.all_eq_true.mp List.all_takeWhile)⟩
    have split := after?_eq_some_iff.mp found
    conv => lhs; rw [← @List.takeWhile_append_dropWhile _ isIndent text, split]
    simp

/-- A call that is found and closed stands in what follows the text that is done with. -/
theorem exists_firstCall_of_find {before rest : Text} {call : AssertionCall} {close : Nat}
    (found : find (before ++ rest) before.length = some call)
    (matched : matchBracket (before ++ rest) call.opened = .ok close) :
    ∃ gap head inside behind, rest = gap ++ (head ++ '(' :: (inside ++ ')' :: behind)) ∧
      FirstCall before.getLast? gap head call.space call.function inside behind ∧
      call.start = (before ++ gap).length ∧ slice (before ++ rest) (call.opened + 1) close = inside ∧
      (before ++ rest).drop (close + 1) = behind := by
  rw [find_append] at found
  obtain ⟨gap, text, rfl, here, first⟩ := exists_gap_of_findFrom found
  obtain ⟨apart, head, body, headed, rfl, start, opened⟩ := at?_eq_some_iff.mp here
  have lead : before ++ (gap ++ (head ++ '(' :: body)) = (before ++ gap ++ head) ++ '(' :: body := by
    simp
  have behindLead : (before ++ (gap ++ (head ++ '(' :: body))).drop call.opened = '(' :: body := by
    rw [lead, opened, ← List.length_append, ← List.length_append, List.drop_left]
  obtain ⟨inside, spans, encloses⟩ :=
    (@matchBracket_eq_ok_iff _ .round _ _ (by rw [behindLead]; rfl)).mp matched
  have whole := spans.here
  rw [behindLead] at whole
  have inner : slice (before ++ (gap ++ (head ++ '(' :: body))) (call.opened + 1) close = inside :=
    spans.slice_inside
  obtain ⟨behind, tail⟩ : ∃ behind, (before ++ (gap ++ (head ++ '(' :: body))).drop (close + 1) = behind := ⟨_, rfl⟩
  rw [tail] at whole
  obtain rfl : body = inside ++ ')' :: behind := by
    simpa [Bracket.opener, Bracket.closer] using whole
  refine ⟨gap, head, inside, behind, rfl, ⟨headed, apart, first, encloses⟩, ?_, inner, tail⟩
  rw [start, List.length_append]

/-- A step reads the first site behind the text that is done with. -/
theorem exists_site_of_step {before rest : Text} {next : Step}
    (ran : step (before ++ rest) before.length = .ok (some next)) :
    ∃ (site : Site) (behind : Text), rest = site.gap ++ (site.call ++ behind) ∧ site.Reads before.getLast? behind ∧
      next = ⟨before ++ site.gap ++ site.expectation ++ behind,
        (before ++ site.gap ++ site.expectation).length⟩ := by
  unfold step at ran
  cases found : find (before ++ rest) before.length with
  | none => simp [found, pure, Except.pure] at ran
  | some call =>
    simp only [found, exceptBind_eq_ok_iff, exceptPure_eq_ok_iff, Option.some.injEq, mapError_eq_ok_iff]
      at ran
    obtain ⟨close, matched, arguments, split, expectation, translated, ran⟩ := ran
    obtain ⟨gap, head, inside, behind, rfl, isFirst, start, inner, tail⟩ := exists_firstCall_of_find found matched
    obtain ⟨ending, rest, ends⟩ := exists_ending behind
    have front : (before ++ (gap ++ (head ++ '(' :: (inside ++ ')' :: behind)))).take call.start = before ++ gap := by
      rw [start, ← List.append_assoc, List.take_left]
    have whole : head ++ '(' :: (inside ++ ')' :: behind) =
        (head ++ '(' :: inside ++ ')' :: ending) ++ dropSemicolon behind := by
      conv => lhs; rw [rest]
      simp
    rw [inner] at split
    rw [front, tail, start] at ran
    refine ⟨⟨gap, head, call.space, call.function, inside, ending, expectation⟩, dropSemicolon behind,
      congrArg (gap ++ ·) whole,
      ⟨isFirst.headed, isFirst.apart, ?_, isFirst.encloses, ends, arguments, split, translated⟩, ?_⟩
    · intro front back same nonempty
      have free := isFirst.first front back same nonempty
      rwa [whole] at free
    · rw [← ran, ← List.length_append]

/-- A step that finds nothing has searched without finding a call. -/
theorem find_eq_none_of_step {code : Text} {index : Nat} (ran : step code index = .ok none) :
    find code index = none := by
  unfold step at ran
  cases found : find code index with
  | none => rfl
  | some call =>
    rw [found] at ran
    obtain ⟨close, -, ran⟩ := exceptBind_eq_ok_iff.mp ran
    obtain ⟨arguments, -, ran⟩ := exceptBind_eq_ok_iff.mp ran
    obtain ⟨expectation, -, ran⟩ := exceptBind_eq_ok_iff.mp ran
    cases ran

/-- Replacing the calls behind a text that is done with replaces the sites of what follows. -/
theorem exists_sites_of_replaceFrom {bound : Nat} {before rest result : Text} (enough : rest.length < bound)
    (ran : replaceFrom bound (before ++ rest) before.length = .ok result) :
    ∃ sites last, Replaces before.getLast? sites last ∧ rest = source sites last ∧
      result = before ++ written sites last := by
  induction bound generalizing before rest with
  | zero => cases enough
  | succ bound ih =>
    rw [replaceFrom] at ran
    obtain ⟨outcome, stepped, ran⟩ := exceptBind_eq_ok_iff.mp ran
    cases outcome with
    | none =>
      cases ran
      refine ⟨[], rest, .last ?_, rfl, rfl⟩
      rw [← @findFrom_eq_none_iff _ _ before.length, ← find_append]
      exact find_eq_none_of_step stepped
    | some next =>
      have less := lt_of_step stepped
      obtain ⟨site, behind, rfl, reads, rfl⟩ := exists_site_of_step stepped
      have shorter : behind.length < bound := by
        simp only [List.length_append] at less enough
        omega
      obtain ⟨sites, last, others, rfl, rfl⟩ := ih shorter ran
      rw [List.getLast?_append, List.getLast?_append] at others
      exact ⟨site :: sites, last, .site reads others, rfl, by simp [written]⟩

/-- Replacing the calls of code replaces its sites. -/
theorem exists_sites_of_replaceAll {code result : Text} (ran : replaceAll code = .ok result) :
    ∃ sites last, Replaces none sites last ∧ code = source sites last ∧ result = written sites last :=
  @exists_sites_of_replaceFrom _ [] _ _ (Nat.lt_succ_self _) ran

end JasmineConversion.AssertionCall
