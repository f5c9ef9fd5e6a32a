import QueryLabel.Engine

/-!
Running the engine between two streams.  All of the input is read before anything is decoded, and
nothing is written before the whole response is known.
-/

namespace QueryLabel

/-- What a reader delivers: pieces of the input one after the other, and then its end, or a
failure. -/
structure Source where
  chunks : List (List UInt8)
  failure : Option String

/-- A reader that delivers some bytes at once. -/
def Source.ofBytes (bytes : List UInt8) : Source :=
  ⟨[bytes], none⟩

/-- A reader that fails. -/
def Source.broken (message : String) : Source :=
  ⟨[], some message⟩

/-- Read pieces until the input ends or fails.  A piece without bytes is an end, too. -/
def readChunks (failure : Option String) : List (List UInt8) → Except String (List UInt8)
  | [] =>
      match failure with
      | none => .ok []
      | some message => .error message
  | [] :: _ => .ok []
  | chunk :: rest => do
      .ok (chunk ++ (← readChunks failure rest))

/-- Read until the input ends or fails. -/
def Source.readAll (source : Source) : Except String (List UInt8) :=
  readChunks source.failure source.chunks

@[simp] theorem Source.readAll_ofBytes (bytes : List UInt8) :
    (Source.ofBytes bytes).readAll = .ok bytes := by
  cases bytes with
  | nil => rfl
  | cons b rest => simp [readAll, ofBytes, readChunks, bind, Except.bind]

/-- If no piece is empty, the whole input is read, or the reader fails. -/
theorem Source.readAll_eq (source : Source) (h : ∀ chunk ∈ source.chunks, chunk ≠ []) :
    source.readAll =
      match source.failure with
      | none => .ok source.chunks.flatten
      | some message => .error message := by
  obtain ⟨chunks, failure⟩ := source
  simp only [readAll]
  induction chunks with
  | nil => cases failure <;> rfl
  | cons chunk rest ih =>
      cases chunk with
      | nil => exact absurd rfl (h [] (List.mem_cons_self ..))
      | cons b bytes =>
          rw [readChunks, ih fun c hc => h c (List.mem_cons_of_mem _ hc)]
          · cases failure <;> simp [bind, Except.bind]
          · simp

/-- What a writer does once it has no room left: it fails, or it takes no bytes. -/
inductive WhenFull
  | failing (message : String)
  | stuck
deriving Repr, DecidableEq

/-- The failure of writing more than a writer has room for. -/
def WhenFull.message : WhenFull → String
  | failing message => message
  | stuck => "failed to write whole buffer"

/-- A writer: the bytes it has taken, the bytes it still has room for, the most it takes at each of
its next writes, and how often it was flushed. -/
structure Sink where
  written : List UInt8 := []
  room : Option Nat := none
  portions : List Nat := []
  whenFull : WhenFull := .stuck
  flushFailure : Option String := none
  flushes : Nat := 0
deriving Repr, DecidableEq

namespace Sink

/-- How many of some bytes a writer has room for. -/
def fitting (sink : Sink) (count : Nat) : Nat :=
  min (sink.room.getD count) count

/-- How many of some bytes a writer takes at once. -/
def capacity (sink : Sink) (count : Nat) : Nat :=
  min (sink.portions.headD count) (sink.fitting count)

/-- Take the first bytes of some. -/
def take (sink : Sink) (count : Nat) (bytes : List UInt8) : Sink :=
  { sink with
    written := sink.written ++ bytes.take count
    room := sink.room.map (· - count)
    portions := sink.portions.tail }

/-- Offer bytes until all of them are taken.  A writer that takes none of them cannot be used any
further. -/
def writeAll (sink : Sink) : List UInt8 → Except String Unit × Sink
  | [] => (.ok (), sink)
  | b :: rest =>
      match sink.capacity (b :: rest).length with
      | 0 => (.error sink.whenFull.message, sink)
      | count + 1 => (sink.take (count + 1) (b :: rest)).writeAll (rest.drop count)
termination_by bytes => bytes.length
decreasing_by
  simp only [List.length_drop, List.length_cons]
  omega

/-- Flush what was written. -/
def flush (sink : Sink) : Except String Unit × Sink :=
  let sink := { sink with flushes := sink.flushes + 1 }
  match sink.flushFailure with
  | none => (.ok (), sink)
  | some message => (.error message, sink)

/-- Write all of some bytes, and flush if that succeeds. -/
def deliver (sink : Sink) (bytes : List UInt8) : Except String Unit × Sink :=
  match sink.writeAll bytes with
  | (.ok (), sink) => sink.flush
  | (.error message, sink) => (.error message, sink)

end Sink

namespace Engine

/-- What was being done when the reader failed. -/
def readingInput : String := "reading input"

/-- What was being done when the writer failed. -/
def writingOutput : String := "writing output"

/-- The result of running the engine between two streams: the sizes of what was read and written,
or an error, and the writer afterwards. -/
structure Transfer where
  result : Except PredictError (Nat × Nat)
  sink : Sink

/-- Read a request document, and write the response. -/
def transfer (engine : Engine) (source : Source) (sink : Sink) : Transfer :=
  match source.readAll with
  | .error message => ⟨.error (.io readingInput message), sink⟩
  | .ok input =>
      match engine.run input with
      | .error e => ⟨.error e, sink⟩
      | .ok text =>
          let output := Utf8.encode text
          match sink.deliver output with
          | (.ok (), sink) => ⟨.ok (input.length, output.length), sink⟩
          | (.error message, sink) => ⟨.error (.io writingOutput message), sink⟩

end Engine

end QueryLabel
