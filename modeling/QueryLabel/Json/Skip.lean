import QueryLabel.Json.Reader

/-!
Skipping a value that nobody wants.  Only the outline of the value is checked: brackets pair up,
keys are strings, and words, numbers and escapes are spelled right.  Depth is not limited, and
whether strings spell a text is not asked.
-/

namespace QueryLabel.Json

open Text (ascii)

/-- The containers that a skipped value can open. -/
inductive Bracket
  | list
  | record
deriving Repr, DecidableEq

/-- What the innermost container of a skipped value expects between two tokens. -/
inductive SkipSlot
  | value
  | opened
  | key
  | colon
  | closed
deriving Repr, DecidableEq

/-- Where in a skipped string the reader is; an escape of a `\u` still wants some digits. -/
inductive SkipString
  | plain
  | escape
  | digits (read : List UInt8)
deriving Repr, DecidableEq

/-- Whether the skipper is between tokens, or inside a word, a number or a string; a string may be
a key. -/
inductive SkipMode
  | between (slot : SkipSlot)
  | word (left : List UInt8)
  | number (scan : NumberScan)
  | string (isKey : Bool) (stage : SkipString)
deriving Repr, DecidableEq

/-- The state of the skipper: the mode, and the open containers, innermost first. -/
structure SkipState where
  mode : SkipMode
  frames : List Bracket
deriving Repr, DecidableEq

/-- The skipper before the first byte of a value. -/
def SkipState.initial : SkipState := ⟨.between .value, []⟩

/-- What one byte leads to: another state, or the end of the value, which may or may not have
taken the byte. -/
inductive SkipProgress
  | going (state : SkipState)
  | finished (tookByte : Bool)
deriving Repr, DecidableEq

/-- A value is complete inside these containers. -/
def skipComplete (tookByte : Bool) (frames : List Bracket) : SkipProgress :=
  if frames = [] then .finished tookByte else .going ⟨.between .closed, frames⟩

/-- The part that is unfinished inside a container. -/
def Bracket.part : Bracket → Part
  | list => .list
  | record => .object

/-- The complaint about a byte behind a value in a container. -/
def Bracket.expectedEnd : Bracket → Cause
  | list => .expectedItemEnd
  | record => .expectedMemberEnd

/-- The byte that closes a container. -/
def Bracket.closing : Bracket → UInt8
  | list => ascii ']'
  | record => ascii '}'

/-- What a container expects behind a comma. -/
def Bracket.next : Bracket → SkipSlot
  | list => .value
  | record => .key

/-- The first byte of a skipped value. -/
def skipValue (frames : List Bracket) (b : UInt8) : Except Fault SkipProgress :=
  let go (mode : SkipMode) (frames : List Bracket) : Except Fault SkipProgress :=
    .ok (.going ⟨mode, frames⟩)
  if b = ascii '"' then go (.string false .plain) frames
  else if b = ascii '[' then go (.between .opened) (.list :: frames)
  else if b = ascii '{' then go (.between .opened) (.record :: frames)
  else if b = ascii 'n' then go (.word [ascii 'u', ascii 'l', ascii 'l']) frames
  else if b = ascii 't' then go (.word [ascii 'r', ascii 'u', ascii 'e']) frames
  else if b = ascii 'f' then go (.word [ascii 'a', ascii 'l', ascii 's', ascii 'e']) frames
  else
    match NumberScan.start? b with
    | some scan => go (.number scan) frames
    | none => refuse .expectedValue

/-- A byte, not white space, where a key has to begin. -/
def skipKey (frames : List Bracket) (b : UInt8) : Except Fault SkipProgress :=
  if b = ascii '"' then .ok (.going ⟨.string true .plain, frames⟩) else refuse .expectedKey

/-- A byte, not white space, between tokens. -/
def skipToken (slot : SkipSlot) (frames : List Bracket) (b : UInt8) :
    Except Fault SkipProgress :=
  match slot, frames with
  | .value, frames => skipValue frames b
  | .key, frames => skipKey frames b
  | .colon, frames =>
      if b = ascii ':' then .ok (.going ⟨.between .value, frames⟩) else refuse .expectedColon
  | .opened, frame :: outer =>
      if b = frame.closing then .ok (skipComplete true outer)
      else
        match frame with
        | .list => skipValue (frame :: outer) b
        | .record => skipKey (frame :: outer) b
  | .closed, frame :: outer =>
      if b = ascii ',' then .ok (.going ⟨.between frame.next, frame :: outer⟩)
      else if b = frame.closing then .ok (skipComplete true outer)
      else refuse frame.expectedEnd
  | .opened, [] | .closed, [] => .ok (.finished false)

/-- A byte between tokens: white space changes nothing. -/
def skipBetween (slot : SkipSlot) (frames : List Bracket) (b : UInt8) :
    Except Fault SkipProgress :=
  if isSpace b then .ok (.going ⟨.between slot, frames⟩) else skipToken slot frames b

/-- A byte inside a skipped string. -/
def skipString (isKey : Bool) (stage : SkipString) (frames : List Bracket) (b : UInt8) :
    Except Fault SkipProgress :=
  let go (stage : SkipString) : Except Fault SkipProgress :=
    .ok (.going ⟨.string isKey stage, frames⟩)
  match stage with
  | .plain =>
      if b = ascii '"' then
        if isKey then .ok (.going ⟨.between .colon, frames⟩) else .ok (skipComplete true frames)
      else if b = ascii '\\' then go .escape
      else if b < 0x20 then .error ⟨.controlCharacter, .beforeByte⟩
      else go .plain
  | .escape =>
      if b = ascii 'u' then go (.digits [])
      else if (escapeChar? b).isSome then go .plain
      else refuse .invalidEscape
  | .digits read =>
      let read := read ++ [b]
      if read.length < 4 then go (.digits read)
      else if (hexUnit? read).isSome then go .plain
      else refuse .invalidEscape

/-- A byte inside a skipped word. -/
def skipWord (left : List UInt8) (frames : List Bracket) (b : UInt8) :
    Except Fault SkipProgress :=
  match left with
  | [] => refuse .expectedWord
  | [last] => if b = last then .ok (skipComplete true frames) else refuse .expectedWord
  | next :: left =>
      if b = next then .ok (.going ⟨.word left, frames⟩) else refuse .expectedWord

/-- A byte in or behind a skipped number. -/
def skipNumber (scan : NumberScan) (frames : List Bracket) (b : UInt8) :
    Except Fault SkipProgress :=
  match scan.step b with
  | .more scan => .ok (.going ⟨.number scan, frames⟩)
  | .ended => if frames = [] then .ok (.finished false) else skipBetween .closed frames b
  | .refused | .refusedTaken => refuse .invalidNumber

/-- Skip one byte. -/
def SkipState.step (state : SkipState) (b : UInt8) : Except Fault SkipProgress :=
  match state.mode with
  | .between slot => skipBetween slot state.frames b
  | .word left => skipWord left state.frames b
  | .number scan => skipNumber scan state.frames b
  | .string isKey stage => skipString isKey stage state.frames b

/-- What the end of the document means between tokens. -/
def SkipSlot.finish (slot : SkipSlot) (frames : List Bracket) : Except Fault Unit :=
  match slot, frames with
  | .value, _ => refuse (.unfinished .value)
  | .key, _ | .colon, _ => refuse (.unfinished .object)
  | .opened, frame :: _ | .closed, frame :: _ => refuse (.unfinished frame.part)
  | .opened, [] | .closed, [] => .ok ()

/-- The document ends here.  A number that may not end yet is an invalid one. -/
def SkipState.finish (state : SkipState) : Except Fault Unit :=
  match state.mode with
  | .between slot => slot.finish state.frames
  | .word _ => refuse (.unfinished .value)
  | .number scan =>
      if scan.mayEnd then SkipSlot.closed.finish state.frames else refuse .invalidNumber
  | .string _ _ => refuse (.unfinished .string)

/-- Skip one value from a state on, and return the position behind it and the bytes that
follow. -/
def SkipState.skip (state : SkipState) (here : Position) :
    List UInt8 → Except SyntaxError (Position × List UInt8)
  | [] =>
      match state.finish with
      | .ok () => .ok (here, [])
      | .error fault => .error ⟨fault.cause, fault.place.resolve here none⟩
  | b :: rest =>
      match state.step b with
      | .ok (.going next) => next.skip (here.advance b) rest
      | .ok (.finished true) => .ok (here.advance b, rest)
      | .ok (.finished false) => .ok (here, b :: rest)
      | .error fault => .error ⟨fault.cause, fault.place.resolve here (some b)⟩

end QueryLabel.Json
