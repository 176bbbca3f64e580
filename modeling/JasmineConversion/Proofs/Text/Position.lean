import JasmineConversion.Proofs.Text.Front
import JasmineConversion.Text.Position

/-! # Pieces of a text between two indexes

A piece stands between two indexes when the text from the first one on is the piece and the text
from the second one on. Pieces are put together and taken apart at the indexes between them; the
line of an index and the slice between two indexes follow from the pieces.
-/

namespace JasmineConversion.Text

/-- A piece of a text stands between two indexes. -/
structure Spans (source : Text) (start : Nat) (piece : Text) (stop : Nat) : Prop where
  here : source.drop start = piece ++ source.drop stop
  width : stop = start + piece.length

namespace Spans

variable {source piece first second rest : Text} {start between stop : Nat}

/-- A piece that a text goes on with from an index spans its length. -/
theorem of_drop (here : source.drop start = piece ++ rest) (width : stop = start + piece.length) :
    Spans source start piece stop := by
  refine ⟨?_, width⟩
  rw [width, ← List.drop_drop, here, List.drop_left]

theorem drop_stop (spans : Spans source start piece stop) (here : source.drop start = piece ++ rest) :
    source.drop stop = rest :=
  List.append_cancel_left (spans.here.symm.trans here)

/-- The text up to the end of a piece is the text in front of it and the piece. -/
theorem take_stop (spans : Spans source start piece stop) : source.take stop = source.take start ++ piece := by
  rw [spans.width, List.take_add, spans.here, List.take_left]

theorem refl (source : Text) (start : Nat) : Spans source start [] start :=
  ⟨rfl, rfl⟩

/-- A piece that is put between two texts stands there. -/
theorem amid (before piece behind : Text) :
    Spans (before ++ piece ++ behind) before.length piece (before.length + piece.length) :=
  of_drop (by rw [List.append_assoc, List.drop_left]) rfl

/-- A character of a text is a piece of it. -/
theorem single {c : Char} (here : source[start]? = some c) : Spans source start [c] (start + 1) := by
  rw [← List.head?_drop] at here
  obtain ⟨rest, here⟩ := List.head?_eq_some_iff.mp here
  exact of_drop here rfl

/-- Between two indexes of a text stands the slice between them. -/
theorem of_le (ordered : start ≤ stop) (inside : stop ≤ source.length) :
    Spans source start (slice source start stop) stop := by
  refine ⟨?_, ?_⟩
  · have front : start - (source.take stop).length = 0 := by
      rw [List.length_take]
      omega
    calc
      source.drop start = (source.take stop ++ source.drop stop).drop start := by rw [List.take_append_drop]
      _ = slice source start stop ++ source.drop stop := by rw [List.drop_append, front, List.drop_zero, slice]
  · rw [slice, List.length_drop, List.length_take]
    omega

/-- Two pieces in a row span together. -/
theorem append (front : Spans source start first between) (back : Spans source between second stop) :
    Spans source start (first ++ second) stop := by
  refine ⟨?_, ?_⟩
  · rw [front.here, back.here, List.append_assoc]
  · rw [back.width, front.width, List.length_append, Nat.add_assoc]

/-- A piece is taken apart at the index behind its first part. -/
theorem split (spans : Spans source start (first ++ second) stop) :
    Spans source start first (start + first.length) ∧
      Spans source (start + first.length) second stop := by
  have here := spans.here
  rw [List.append_assoc] at here
  have front := of_drop here rfl
  refine ⟨front, front.drop_stop here, ?_⟩
  rw [spans.width, List.length_append, Nat.add_assoc]

theorem uncons {c : Char} (spans : Spans source start (c :: piece) stop) :
    Spans source (start + 1) piece stop :=
  split (show Spans source start ([c] ++ piece) stop from spans) |>.2

/-- The piece between two indexes is determined by them. -/
theorem slice_eq (spans : Spans source start piece stop) : slice source start stop = piece := by
  rw [slice, List.drop_take, spans.here, spans.width, Nat.add_sub_cancel_left, List.take_left]

theorem unique {other : Text} (spans : Spans source start piece stop)
    (spans' : Spans source start other stop) : piece = other :=
  spans.slice_eq.symm.trans spans'.slice_eq

theorem start_le (spans : Spans source start piece stop) : start ≤ stop := by
  rw [spans.width]
  exact Nat.le_add_right _ _

/-- A piece that is not empty stands inside the text. -/
theorem inside_of_ne_nil (spans : Spans source start piece stop) (nonempty : piece ≠ []) :
    start < stop ∧ stop ≤ source.length := by
  have positive := List.length_pos_iff.mpr nonempty
  have lengths := congrArg List.length spans.here
  rw [List.length_drop, List.length_append, List.length_drop] at lengths
  have width := spans.width
  omega

/-- A piece that starts inside the text ends inside it. -/
theorem stop_le_length (spans : Spans source start piece stop) (inside : start ≤ source.length) :
    stop ≤ source.length := by
  by_cases nonempty : piece = []
  · have width := spans.width
    rw [nonempty, List.length_nil] at width
    omega
  · exact (spans.inside_of_ne_nil nonempty).2

/-- A piece that ends before another one is its first part. -/
theorem exists_rest {whole : Text} {last : Nat} (spans : Spans source start piece stop)
    (spans' : Spans source start whole last) (before : stop ≤ last) :
    ∃ rest, whole = piece ++ rest ∧ Spans source stop rest last := by
  rcases List.append_eq_append_iff.mp (spans.here.symm.trans spans'.here) with
    ⟨rest, rfl, -⟩ | ⟨rest, rfl, -⟩
  · exact ⟨rest, rfl, spans.width ▸ spans'.split.2⟩
  · have widths := spans.width
    rw [spans'.width, List.length_append] at *
    obtain rfl : rest = [] := List.length_eq_zero_iff.mp (by omega)
    exact ⟨[], by simp, by simpa [widths, spans'.width] using refl source stop⟩

/-- A piece moves the line down by its line feeds. -/
theorem lineAt_eq (spans : Spans source start piece stop) :
    lineAt source stop = lineAt source start + piece.count '\n' := by
  rw [lineAt, lineAt, spans.take_stop, List.count_append]
  omega

/-- A piece between two characters that enclose it. -/
theorem inside {opener closer : Char}
    (spans : Spans source start (opener :: piece ++ [closer]) (stop + 1)) :
    Spans source start [opener] (start + 1) ∧ Spans source (start + 1) piece stop ∧
      source.drop stop = closer :: source.drop (stop + 1) := by
  obtain ⟨front, last⟩ := spans.split
  have same : stop = start + (opener :: piece).length := Nat.succ.inj last.width
  rw [← same] at front last
  exact ⟨(show Spans source start ([opener] ++ piece) stop from front).split.1, front.uncons,
    last.here⟩

/-- The slice between two characters is what stands between them. -/
theorem slice_inside {opener closer : Char}
    (spans : Spans source start (opener :: piece ++ [closer]) (stop + 1)) :
    slice source (start + 1) stop = piece :=
  spans.inside.2.1.slice_eq

end Spans

end JasmineConversion.Text
