import QueryLabel.Text.Blank

/-!
The options of a pattern.  They hold from the place where they are switched to the end of the
group around it.
-/

namespace QueryLabel.Pattern

/-- The options that decide which patterns are accepted: letters stand for both of their cases
(`i`), a pattern is about characters and not about bytes (`u`), and blanks and comments in it do
not count (`x`). -/
structure Options where
  anyCase : Bool := false
  unicode : Bool := true
  spaced : Bool := false
deriving Repr, DecidableEq

/-- The letters of all options. -/
def optionLetters : Text := "imsUuRx".toList

/-- Whether letters may stand in a row that switches options: each of them once, and behind one
hyphen, which does not end the row, those that are switched off. -/
def isSwitchRow (letters : Text) : Bool :=
  letters.all (fun c => c = '-' || optionLetters.contains c) && decide letters.Nodup &&
    letters.getLast? ≠ some '-'

/-- Drop blanks and comments.  A comment goes from a number sign to the end of its line. -/
def dropBlanks : Bool → Text → Text
  | _, [] => []
  | true, c :: rest => dropBlanks (c ≠ '\n') rest
  | false, c :: rest =>
      if Text.isBlank c then dropBlanks false rest
      else if c = '#' then dropBlanks true rest
      else c :: rest

namespace Options

/-- Give one option a value.  The other options change nothing about the form of a pattern. -/
def set (options : Options) (letter : Char) (value : Bool) : Options :=
  match letter with
  | 'i' => { options with anyCase := value }
  | 'u' => { options with unicode := value }
  | 'x' => { options with spaced := value }
  | _ => options

/-- Switch options by a row of letters. -/
def switch : Bool → Text → Options → Options
  | _, [], options => options
  | value, letter :: rest, options =>
      if letter = '-' then switch false rest options
      else switch value rest (options.set letter value)

/-- Drop what does not count in front of the next item. -/
def skip (options : Options) (text : Text) : Text :=
  if options.spaced then dropBlanks false text else text

/-- The character behind a hyphen, which decides whether the hyphen makes a range.  Of a comment in
between only the number sign and the blanks behind it are passed over. -/
def peek? (options : Options) (text : Text) : Option Char :=
  if options.spaced then
    match text.dropWhile Text.isBlank with
    | '#' :: rest => (rest.dropWhile Text.isBlank).head?
    | rest => rest.head?
  else text.head?

end Options

example : isSwitchRow "i-ux".toList = true := by decide
example : isSwitchRow "i-i".toList = false := by decide
example : Options.switch true "i-u".toList {} = ⟨true, false, false⟩ := by decide

end QueryLabel.Pattern
