import Mathlib.Data.List.Induction
import QueryLabel.Text.Position

/-!
Positions and the bytes that they stand for.  The position after some bytes denotes their number
(`denotes_after`), and so does every position further back on the same line, down to the
beginning of the line (`Denotes.back`).
-/

namespace QueryLabel.Position

/-- A line feed. -/
def lineFeed : UInt8 := 0x0A

/-- Lines that are complete, each with its line feed. -/
def WholeLines (s : List UInt8) : Prop :=
  s = [] ∨ s.getLast? = some lineFeed

/-- A position in a document and its offset: there are as many whole lines in front of it as its
line says, and as many bytes of the line itself as its column says. -/
inductive Denotes (position : Position) (document : List UInt8) : Nat → Prop
  | mk {lines begun rest : List UInt8} (hdocument : document = lines ++ begun ++ rest)
      (hlines : WholeLines lines) (hline : position.line = lines.count lineFeed + 1)
      (hbegun : lineFeed ∉ begun) (hcolumn : position.column = begun.length) :
      Denotes position document (lines.length + position.column)

theorem Denotes.le_length {position : Position} {document : List UInt8} {offset : Nat}
    (h : position.Denotes document offset) : offset ≤ document.length := by
  obtain ⟨rfl, -, -, -, hcolumn⟩ := h
  simp only [List.length_append]
  omega

/-- The bytes that were read are whole lines and the beginning of one more. -/
theorem after_eq (p : List UInt8) :
    ∃ lines begun, p = lines ++ begun ∧ WholeLines lines ∧ lineFeed ∉ begun ∧
      after p = ⟨lines.count lineFeed + 1, begun.length⟩ := by
  induction p using List.reverseRecOn with
  | nil => exact ⟨[], [], rfl, Or.inl rfl, List.not_mem_nil, rfl⟩
  | append_singleton p b ih =>
      obtain ⟨lines, begun, rfl, hlines, hbegun, hafter⟩ := ih
      rw [after_append_singleton, hafter]
      by_cases hb : b = lineFeed
      · subst hb
        refine ⟨lines ++ begun ++ [lineFeed], [], (List.append_nil _).symm,
          Or.inr List.getLast?_concat, List.not_mem_nil, ?_⟩
        rw [advance, if_pos (show lineFeed = 0x0A from rfl)]
        simp [List.count_eq_zero.mpr hbegun]
      · refine ⟨lines, begun ++ [b], List.append_assoc _ _ _, hlines, ?_, ?_⟩
        · simpa [hbegun] using fun h => hb h.symm
        · rw [advance, if_neg (show ¬ b = 0x0A from hb)]
          simp

/-- The position after some bytes denotes their number. -/
theorem denotes_after (p rest : List UInt8) : (after p).Denotes (p ++ rest) p.length := by
  obtain ⟨lines, begun, hp, hlines, hbegun, hafter⟩ := after_eq p
  have hdenotes : (after p).Denotes (p ++ rest) (lines.length + (after p).column) :=
    .mk (by rw [hp]) hlines (by rw [hafter]) hbegun (by rw [hafter])
  have hlength : lines.length + (after p).column = p.length := by
    rw [hafter, hp, List.length_append]
  rwa [hlength] at hdenotes

/-- Some columns back on the same line there is a place in the document, too. -/
theorem Denotes.back {position : Position} {document : List UInt8} {offset : Nat}
    (h : position.Denotes document offset) (columns : Nat) :
    ∃ offset, Denotes ⟨position.line, position.column - columns⟩ document offset := by
  obtain @⟨lines, begun, rest, hdocument, hlines, hline, hbegun, hcolumn⟩ := h
  have hshorter : document = lines ++ begun.take (position.column - columns) ++
      (begun.drop (position.column - columns) ++ rest) := by
    rw [hdocument, List.append_assoc, List.append_assoc, ← List.append_assoc (begun.take _),
      List.take_append_drop]
  refine ⟨_, .mk hshorter hlines hline ?_ ?_⟩
  · exact fun hfeed => hbegun (List.mem_of_mem_take hfeed)
  · rw [List.length_take_of_le (by omega)]

end QueryLabel.Position
