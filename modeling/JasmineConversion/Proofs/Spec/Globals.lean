import JasmineConversion.Proofs.Text.Front
import JasmineConversion.Spec.Globals

/-! # Where the list of global names is found

A list of global names does not reach over the end of a line, except to its own end. So a text
that starts on a new line, goes on with code and holds no list of its own is kept as it is by the
change of the list, wherever the list is.
-/

namespace JasmineConversion

open Text

/-- A lead is taken off in front of a character that it does not hold. -/
theorem Text.after?_append_cons {lead : Text} {c : Char} (absent : c ∉ lead) (front rest : Text) :
    after? lead (front ++ c :: rest) = (after? lead front).map (· ++ c :: rest) := by
  induction lead generalizing front with
  | nil => simp [after?]
  | cons d lead ih =>
    rw [List.mem_cons, not_or] at absent
    cases front with
    | nil => simp [after?, Ne.symm absent.1]
    | cons e front =>
      simp only [List.cons_append, after?]
      split
      · exact ih absent.2 front
      · rfl

namespace Globals

/-- Behind its white space, a text goes on with something other than the end of a comment. -/
def Resumes (text : Text) : Prop :=
  after? "*/".toList (trimStart text) = none

/-- A list is closed in front of a line feed as it is by itself. -/
theorem close_append_newline {rest : Text} (resumes : Resumes rest) (front : Text) :
    after? "*/".toList (trimStart (front ++ '\n' :: rest)) =
      (after? "*/".toList (trimStart front)).map (· ++ '\n' :: rest) := by
  induction front with
  | nil => exact resumes
  | cons c front ih =>
    cases white : isBlank c with
    | true =>
      rw [List.cons_append, show trimStart (c :: (front ++ '\n' :: rest)) = trimStart (front ++ '\n' :: rest) from
        List.dropWhile_cons_of_pos white, show trimStart (c :: front) = trimStart front from
        List.dropWhile_cons_of_pos white]
      exact ih
    | false =>
      have stops : ∀ text, trimStart (c :: text) = c :: text :=
        fun text => trimStart_of_stops ((stops_cons _ _ _).mpr white)
      rw [List.cons_append, stops, stops]
      exact after?_append_cons (by decide) (c :: front) rest

/-- A list in front of a line feed is found as it is by itself. -/
theorem listed?_append_newline {rest : Text} (resumes : Resumes rest) (front : Text) :
    listed? (front ++ '\n' :: rest) =
      (listed? front).map fun found => (found.1, found.2 ++ '\n' :: rest) := by
  induction front with
  | nil =>
    have close : after? "*/".toList (trimStart ('\n' :: rest)) = none := close_append_newline resumes []
    simp only [List.nil_append, listed?, close, if_true, Option.map_none]
  | cons c front ih =>
    have close := close_append_newline resumes (c :: front)
    rw [List.cons_append] at close ⊢
    simp only [listed?, close]
    cases after? "*/".toList (trimStart (c :: front)) with
    | some tail => rfl
    | none =>
      simp only [Option.map_none, ih]
      split
      · rfl
      · simp [Function.comp_def]

/-- A list is found in front of a line, or behind its start. -/
theorem find?_append_newline {rest : Text} (resumes : Resumes rest) (front : Text) :
    find? (front ++ '\n' :: rest) =
      match find? front with
      | some (lead, names, tail) => some (lead, names, tail ++ '\n' :: rest)
      | none => (find? rest).map fun found => (front ++ '\n' :: found.1, found.2) := by
  induction front with
  | nil =>
    have other : after? "/*global ".toList ('\n' :: rest) = none := rfl
    simp only [List.nil_append, find?, other, Option.bind_none]
  | cons c front ih =>
    have opens := after?_append_cons (show '\n' ∉ "/*global ".toList by decide) (c :: front) rest
    have here : (after? "/*global ".toList (c :: front ++ '\n' :: rest)).bind listed? =
        ((after? "/*global ".toList (c :: front)).bind listed?).map
          fun found => (found.1, found.2 ++ '\n' :: rest) := by
      rw [opens]
      cases after? "/*global ".toList (c :: front) with
      | none => rfl
      | some names => exact listed?_append_newline resumes names
    rw [List.cons_append] at here ⊢
    rw [find?, find?, here, ih]
    cases (after? "/*global ".toList (c :: front)).bind listed? with
    | some found => rfl
    | none =>
      cases find? front with
      | some found => rfl
      | none => cases find? rest <;> rfl

/-- A text without a slash holds no header. -/
theorem find?_append_of_not_mem {front : Text} (absent : '/' ∉ front) (rest : Text) :
    find? (front ++ rest) = (find? rest).map fun found => (front ++ found.1, found.2) := by
  induction front with
  | nil => simp
  | cons c front ih =>
    rw [List.mem_cons, not_or] at absent
    have other : after? "/*global ".toList (c :: (front ++ rest)) = none := by
      simp [after?, absent.1]
    rw [List.cons_append, find?, other, ih absent.2]
    cases find? rest <;> rfl

/-- A text on lines of its own that holds no list of global names, and goes on with code at its start
and at the start of its last line. -/
structure KeepsApart (region last : Text) : Prop where
  ends : ∃ front, region = front ++ '\n' :: last
  opens : ∀ post, Resumes (region ++ post)
  closes : ∀ post, Resumes (last ++ post)
  bare : '/' ∉ last
  absent : find? region = none

/-- A header is found behind a region that keeps apart. -/
theorem KeepsApart.find?_append {region last : Text} (apart : KeepsApart region last) (post : Text) :
    find? (region ++ post) = (find? post).map fun found => (region ++ found.1, found.2) := by
  obtain ⟨front, rfl⟩ := apart.ends
  have none : find? front = none := by
    have whole := find?_append_newline (by simpa using apart.closes []) front
    rw [apart.absent] at whole
    cases found : find? front with
    | none => rfl
    | some found => simp [found] at whole
  rw [List.append_assoc, List.cons_append, find?_append_newline (apart.closes post), none]
  simp only [find?_append_of_not_mem apart.bare, Option.map_map]
  cases find? post <;> simp

/-- Such a text is kept wherever the list of global names is. -/
theorem KeepsApart.exists_convert {region last : Text} (apart : KeepsApart region last) {pre : Text}
    (fresh : pre = [] ∨ endsWith ['\n'] pre = true) (post : Text) :
    ∃ lead tail, convert (pre ++ region ++ post) = lead ++ region ++ tail := by
  have behind := apart.find?_append post
  rcases fresh with rfl | ends
  · rw [List.nil_append, convert, behind]
    cases find? post with
    | none => exact ⟨comment added ++ ['\n'], post, by simp⟩
    | some found => exact ⟨[], found.1 ++ comment (update (split found.2.1)) ++ found.2.2, by simp⟩
  · obtain ⟨front, rfl⟩ := endsWith_iff.mp ends
    have whole := find?_append_newline (apart.opens post) front
    rw [behind] at whole
    rw [List.append_assoc, List.append_assoc, List.singleton_append, convert, whole]
    cases find? front with
    | some found =>
      exact ⟨found.1 ++ comment (update (split found.2.1)) ++ found.2.2 ++ ['\n'], post, by simp⟩
    | none =>
      cases find? post with
      | none => exact ⟨comment added ++ ['\n'] ++ front ++ ['\n'], post, by simp⟩
      | some found =>
        exact ⟨front ++ ['\n'], found.1 ++ comment (update (split found.2.1)) ++ found.2.2, by simp⟩

end Globals

end JasmineConversion
