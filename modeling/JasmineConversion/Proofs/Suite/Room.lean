import JasmineConversion.Proofs.Suite.ContainerReading
import JasmineConversion.Proofs.Suite.Enclosure

/-! # The room between the brackets of a list

The end of a list of items is found by counting square brackets, and the end of each item by
counting braces. That no item reaches over the end of its list follows from the braces around the
list: what is left of the list always encloses all braces that are opened in it.
-/

namespace JasmineConversion

open Text Source Pattern JasmineConversion.Bracket

/-- A skip stops before a character that no gap goes on with, if the text before the character
ends in code. -/
theorem Source.gapFrom_le {mode : Mode} {inner rest : Text} {c : Char} {opened offset width : Nat}
    (skipped : gapFrom mode opened offset (inner ++ c :: rest) = .ok width)
    (inCode : inner.foldl Mode.next mode = .code) (solid : goesOn c = false) :
    width ≤ offset + inner.length := by
  -- A comment opens with two characters at once, so the induction is on the length.
  induction size : inner.length using Nat.strongRecOn generalizing mode inner opened offset with
  | ind size ih =>
    subst size
    cases inner with
    | nil =>
      obtain rfl : mode = .code := inCode
      rw [goesOn_eq_false_iff] at solid
      simp [gapFrom_code_cons, solid] at skipped
      omega
    | cons d inner =>
      by_cases away : mode = .code
      · subst away
        rw [List.cons_append, gapFrom_code_cons] at skipped
        split at skipped
        · next white =>
          have stays : Mode.code.next d = .code :=
            Mode.code_next_of_not_isDelimiter (Mode.isDelimiter_of_isBlank white)
          rw [List.foldl_cons, stays] at inCode
          have bound := ih inner.length (by simp) skipped inCode rfl
          simp only [List.length_cons]
          omega
        · split at skipped
          · next slash =>
            subst slash
            cases inner with
            | nil => simp [Mode.next] at inCode
            | cons e inner =>
              rw [List.cons_append] at skipped
              split at skipped
              · next same =>
                obtain ⟨rfl, rfl⟩ := List.cons.inj same
                have bound := ih inner.length (by simp only [List.length_cons]; omega) skipped inCode rfl
                simp only [List.length_cons]
                omega
              · next same =>
                obtain ⟨rfl, rfl⟩ := List.cons.inj same
                have bound := ih inner.length (by simp only [List.length_cons]; omega) skipped inCode rfl
                simp only [List.length_cons]
                omega
              · have stays := Except.ok.inj skipped
                omega
          · have stays := Except.ok.inj skipped
            omega
      · rw [List.cons_append, gapFrom_cons_of_ne away] at skipped
        have bound := ih inner.length (by simp) skipped inCode rfl
        simp only [List.length_cons]
        omega

/-- From an index up to the bracket that closes a list, all braces are closed again. -/
structure Room (source : Text) (index close : Nat) : Prop where
  bracket : ∃ rest, source.drop close = ']' :: rest
  encloses : ∃ inner, Spans source index inner close ∧ brace.Encloses inner

namespace Room

variable {source piece : Text} {index next close : Nat}

theorem le (room : Room source index close) : index ≤ close := by
  obtain ⟨inner, spans, -⟩ := room.encloses
  exact spans.start_le

theorem more (room : Room source index close) : source.drop index ≠ [] := by
  obtain ⟨rest, here⟩ := room.bracket
  exact SuiteReader.ne_nil_of_le room.le (by simp [here])

/-- The room becomes smaller by a piece that is read without effect. -/
theorem advance (room : Room source index close) (spans : Spans source index piece next)
    (before : next ≤ close) (passes : brace.Passes piece) : Room source next close := by
  refine ⟨room.bracket, ?_⟩
  obtain ⟨inner, whole, encloses⟩ := room.encloses
  obtain ⟨rest, rfl, restSpans⟩ := spans.exists_rest whole before
  rw [Encloses, scan_append, passes, Option.bind_some] at encloses
  exact ⟨rest, restSpans, encloses⟩

/-- A piece without the closing bracket does not reach over it. -/
theorem le_of_not_mem (room : Room source index close) (spans : Spans source index piece next)
    (inside : ']' ∉ piece) : next ≤ close := by
  obtain ⟨rest, here⟩ := room.bracket
  obtain ⟨inner, whole, -⟩ := room.encloses
  refine Nat.le_of_not_lt fun beyond => inside ?_
  obtain ⟨surplus, rfl, surplusSpans⟩ := whole.exists_rest spans (Nat.le_of_lt beyond)
  cases surplus with
  | nil =>
    have width := surplusSpans.width
    simp only [List.length_nil] at width
    omega
  | cons c surplus =>
    have same := surplusSpans.here.symm.trans here
    obtain ⟨rfl, -⟩ := List.cons.inj same
    simp

/-- Skipping stays in the room. -/
theorem skip (room : Room source index close) (skipped : Source.skip source index = .ok next) :
    Room source next close := by
  obtain ⟨rest, here⟩ := room.bracket
  obtain ⟨inner, whole, encloses⟩ := room.encloses
  obtain ⟨gap, spans, closed⟩ := exists_gap_of_skip skipped
  have before : next ≤ close := by
    rw [Source.skip] at skipped
    split at skipped
    · next width found =>
      rw [whole.here, here] at found
      have bound := gapFrom_le found (mode_of_scan encloses).symm (by decide)
      have stop := Except.ok.inj skipped
      rw [whole.width]
      omega
    · cases skipped
  have nonempty : source.drop next ≠ [] := SuiteReader.ne_nil_of_le before (by simp [here])
  exact room.advance spans before (passes_gap (closed nonempty))

theorem gap (room : Room source index close) (spans : Spans source index piece next)
    (isGap : Gap piece) (stops : Stops goesOn (source.drop next)) : Room source next close :=
  room.skip (skip_eq_ok_of_gap spans isGap stops)

/-- A comma stays in the room. -/
theorem comma (room : Room source index close) :
    Room source (SuiteReader.behindComma source index) close := by
  rw [SuiteReader.behindComma]
  split
  · next comma =>
    obtain ⟨rest, here⟩ := startsWith_singleton_iff.mp comma
    have single : Spans source index [','] (index + 1) := .of_drop here rfl
    exact room.advance single (room.le_of_not_mem single (by decide)) (passes_singleton (by decide))
  · exact room

/-- The call of a constructor holds no square bracket. -/
theorem not_mem_opening {before : Text} {constructor : Option Text}
    (opening : Opening constructor before) : ']' ∉ before := by
  cases opening with
  | none => simp
  | some isCall =>
    obtain ⟨apart, before, behind, apartBlank, -, beforeBlank, behindBlank, -, dotted, rfl⟩ := isCall
    have noBlank : ∀ {text}, isBlankText text = true → ']' ∉ text := by
      intro text blank member
      exact absurd (isBlankText_iff.mp blank _ member) (by decide)
    have noName : ']' ∉ _ := fun member => absurd (dotted _ member) (by decide)
    simp [noBlank apartBlank, noBlank beforeBlank, noBlank behindBlank, noName]

/-- A pair of braces that is opened in the room is closed in it. -/
theorem braces {opened : Nat} {before inner : Text} {constructor : Option Text}
    (room : Room source index close) (opening : Opening constructor before)
    (lead : Spans source index before opened)
    (spans : Spans source opened ('{' :: inner ++ ['}']) next) (encloses : brace.Encloses inner) :
    Room source next close := by
  have roomOpened := room.advance lead (room.le_of_not_mem lead (not_mem_opening opening))
    (opening.passes (by decide))
  refine roomOpened.advance spans ?_ (passes_enclosed encloses)
  obtain ⟨front, last⟩ := spans.split
  have single : Spans source opened ['{'] (opened + 1) :=
    (show Spans source opened (['{'] ++ inner) _ from front).split.1
  have inside := roomOpened.le_of_not_mem single (by decide)
  obtain ⟨left, whole, leftEncloses⟩ := roomOpened.encloses
  obtain ⟨rest, rfl, restSpans⟩ := single.exists_rest whole inside
  rw [last.width]
  -- If the list ended inside the braces, it would leave the first one open.
  refine Nat.lt_of_not_le fun ended => ?_
  obtain ⟨tail, rfl, -⟩ := restSpans.exists_rest front.uncons ended
  rw [Encloses, scan_append, Option.bind_eq_some_iff] at encloses
  obtain ⟨⟨mode, depth⟩, run, -⟩ := encloses
  have opensOne : brace.scan (.code, 0) (['{'] ++ rest) = brace.scan (.code, 0 + 1) rest := rfl
  rw [Encloses, opensOne, scan_add run, Option.some.injEq, Prod.mk.injEq] at leftEncloses
  exact absurd leftEncloses.2 (Nat.succ_ne_zero depth)

/-- There is room behind the end of a constructor's call. -/
theorem closing {behind : Text} {constructor : Option Text} (room : Room source index close)
    (closing : Closing constructor behind) (spans : Spans source index behind next) :
    Room source next close := by
  cases closing with
  | none =>
    obtain rfl : next = index := by simpa using spans.width
    exact room
  | some isGap =>
    obtain ⟨gapSpans, single⟩ := spans.split
    have roomBetween := room.gap gapSpans isGap (by
      rw [single.here]
      exact (stops_cons _ _ _).mpr (by decide))
    have inside := roomBetween.le_of_not_mem single (by decide)
    exact roomBetween.advance single inside (passes_singleton (by decide))

end Room

end JasmineConversion
