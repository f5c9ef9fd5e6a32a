import QueryLabel.Text.Basic
import QueryLabel.Text.Ranges

/-!
White space: the 25 characters with the Unicode property White_Space, and texts without their
leading and trailing white space.
-/

namespace QueryLabel.Text

/-- The characters with the property White_Space. -/
def blankRanges : Ranges :=
  [(0x09, 0x0D), (0x20, 0x20), (0x85, 0x85), (0xA0, 0xA0), (0x1680, 0x1680), (0x2000, 0x200A),
    (0x2028, 0x2029), (0x202F, 0x202F), (0x205F, 0x205F), (0x3000, 0x3000)]

/-- Whether a character is white space. -/
def isBlank (c : Char) : Bool :=
  blankRanges.contains c

/-- Drop the white space in front of a text. -/
def trimLeft (text : Text) : Text :=
  text.dropWhile isBlank

/-- Drop the white space behind a text. -/
def trimRight (text : Text) : Text :=
  (text.reverse.dropWhile isBlank).reverse

/-- Drop the white space around a text. -/
def trim (text : Text) : Text :=
  trimRight (trimLeft text)

/-- A text is blank when it holds nothing but white space. -/
def allBlank (text : Text) : Bool :=
  text.all isBlank

theorem blankRanges_ascending : blankRanges.Ascending = true := by decide

theorem dropWhile_isBlank_eq_nil (text : Text) :
    text.dropWhile isBlank = [] ↔ allBlank text = true := by
  induction text with
  | nil => simp [allBlank]
  | cons c rest ih =>
      by_cases hc : isBlank c = true
      · rw [List.dropWhile_cons_of_pos hc, ih]
        simp [hc, allBlank]
      · simp [hc, allBlank]

/-- Trimming leaves nothing exactly when there was nothing but white space. -/
theorem trim_eq_nil_iff (text : Text) : trim text = [] ↔ allBlank text = true := by
  rw [← dropWhile_isBlank_eq_nil, trim, trimRight, List.reverse_eq_nil_iff,
    dropWhile_isBlank_eq_nil]
  constructor
  · intro h
    cases hd : trimLeft text with
    | nil => exact hd
    | cons c rest =>
        exfalso
        have hc : isBlank c = false := by
          have := List.head?_dropWhile_not isBlank text
          rw [trimLeft] at hd
          rw [hd] at this
          simpa using this
        rw [hd] at h
        simp only [allBlank, List.all_reverse, List.all_cons, hc, Bool.false_and] at h
        exact Bool.false_ne_true h
  · intro h
    rw [trimLeft, h]
    rfl

example : trim [' ', 'a', ' ', 'b', '\u3000'] = ['a', ' ', 'b'] := by decide

end QueryLabel.Text
