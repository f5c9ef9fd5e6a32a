import QueryLabel.Proofs.Json.Refusal
import QueryLabel.Proofs.Request

/-!
The place of a refused document (`decode_refusal`).  Line and column are those of a place in the
document; a document that ends early is refused at its end; and up to a few faults the bytes in
front of the place explain the refusal, whatever follows them.
-/

namespace QueryLabel.Json

/-- The first character of some words is that of their first part. -/
theorem head?_of_append {s t : String} {c : Char} (h : s.toList.head? = some c) :
    (s ++ t).toList.head? = some c := by
  rw [String.toList_append, List.head?_append, h]
  rfl

/-- Of all causes, only the words for an unfinished document begin with a capital. -/
theorem Cause.head?_description (cause : Cause) :
    (∃ part, cause = .unfinished part) ∨
      ∃ c, cause.description.toList.head? = some c ∧ c ≠ 'E' := by
  cases cause with
  | unfinished part => exact Or.inl ⟨part, rfl⟩
  | invalidType found wanted =>
      have h : "invalid type: ".toList.head? = some 'i' := rfl
      exact Or.inr ⟨'i', head?_of_append (head?_of_append (head?_of_append h)), by decide⟩
  | invalidLength length wanted =>
      have h : "invalid length ".toList.head? = some 'i' := rfl
      exact Or.inr ⟨'i', head?_of_append (head?_of_append (head?_of_append h)), by decide⟩
  | missingField name =>
      have h : "missing field `".toList.head? = some 'm' := rfl
      exact Or.inr ⟨'m', head?_of_append (head?_of_append h), by decide⟩
  | duplicateField name =>
      have h : "duplicate field `".toList.head? = some 'd' := rfl
      exact Or.inr ⟨'d', head?_of_append (head?_of_append h), by decide⟩
  | _ => exact Or.inr ⟨_, rfl, by decide⟩

end QueryLabel.Json

namespace QueryLabel.Request

open Json (NoNumeralKey SyntaxError)
open Text (ascii)

/-- A message that tells of a document that ends early. -/
def TellsEnd (message : String) : Prop :=
  ∃ rest, message = "EOF while parsing " ++ rest

/-- A message that tells of a string that is no text. -/
def TellsNoText (message : String) : Prop :=
  ∃ rest, message = "invalid unicode code point" ++ rest

theorem message_eq (e : SyntaxError) :
    ∃ place, e.message = e.cause.description ++ place := by
  refine ⟨" at line " ++ toString e.position.line ++ " column " ++ toString e.position.column, ?_⟩
  simp only [SyntaxError.message, toString, String.append_assoc]

theorem tellsEnd_of_unfinished {e : SyntaxError} {part : Json.Part}
    (h : e.cause = .unfinished part) : TellsEnd e.message := by
  obtain ⟨place, hmessage⟩ := message_eq e
  refine ⟨part.description ++ place, ?_⟩
  rw [hmessage, h]
  exact String.append_assoc

theorem tellsNoText_of_invalidCodePoint {e : SyntaxError} (h : e.cause = .invalidCodePoint) :
    TellsNoText e.message := by
  obtain ⟨place, hmessage⟩ := message_eq e
  refine ⟨place, ?_⟩
  rw [hmessage, h]
  rfl

/-- Only the messages of unfinished documents begin with a capital. -/
theorem unfinished_of_tellsEnd {e : SyntaxError} (h : TellsEnd e.message) :
    ∃ part, e.cause = .unfinished part := by
  obtain ⟨rest, hrest⟩ := h
  obtain ⟨place, hmessage⟩ := message_eq e
  rcases e.cause.head?_description with hpart | ⟨c, hc, hne⟩
  · exact hpart
  · have hcapital : e.message.toList.head? = some 'E' := by
      rw [hrest]
      exact Json.head?_of_append rfl
    rw [hmessage, Json.head?_of_append hc] at hcapital
    exact absurd (Option.some.inj hcapital) hne

/-- A document that is refused for its syntax is not read. -/
theorem parse_of_decode_error {document : List UInt8} {message : String} {position : Position}
    (h : decode document = .error (.parse message position)) :
    ∃ e, Json.parse document = .error e ∧ message = e.message ∧ position = e.position := by
  cases hparse : Json.parse document with
  | ok value =>
      rw [decode_of_parse hparse] at h
      exact absurd h (ofJson_ne_parse value message position)
  | error e =>
      rw [decode_of_parse_error hparse] at h
      cases h
      exact ⟨e, rfl, rfl, rfl⟩

/-- Without the numeral key, the place of a refusal is a place in the document.  It is the end of a
document that ends early; and unless a string is no text, all documents with the same bytes up
to that place are refused alike. -/
theorem decode_refusal (document : List UInt8) (message : String) (position : Position)
    (hfree : NoNumeralKey document)
    (h : decode document = .error (.parse message position)) :
    ∃ offset, offset ≤ document.length ∧ position.Denotes document offset ∧
      (TellsEnd message → offset = document.length) ∧
      (¬ TellsEnd message → ¬ TellsNoText message →
        ∀ other, other.take offset = document.take offset →
          decode other = .error (.parse message position)) := by
  obtain ⟨e, hparse, rfl, rfl⟩ := parse_of_decode_error h
  cases Json.refusal_of_parse hfree hparse with
  | early hcause hplace =>
      have hdenotes := Position.denotes_after document []
      rw [List.append_nil, ← hplace] at hdenotes
      refine ⟨_, hdenotes.le_length, hdenotes, fun _ => rfl, ?_⟩
      exact fun hend => absurd (tellsEnd_of_unfinished hcause) hend
  | @fixed p rest hdocument hcause hplace hsame =>
      have hdenotes := Position.denotes_after p rest
      rw [← hdocument, ← hplace] at hdenotes
      refine ⟨_, hdenotes.le_length, hdenotes, ?_, ?_⟩
      · intro hend
        obtain ⟨part, hpart⟩ := unfinished_of_tellsEnd hend
        exact absurd hpart (hcause part)
      · intro _ _ other hother
        have hp : other.take p.length = p := by
          rw [hother, hdocument, List.take_left]
        have hsplit : other = p ++ other.drop p.length := by
          conv_lhs => rw [← List.take_append_drop p.length other, hp]
        rw [hsplit]
        exact decode_of_parse_error (hsame _)
  | @noText p rest columns hdocument hcause hplace =>
      obtain ⟨offset, hdenotes⟩ := (Position.denotes_after p rest).back columns
      rw [← hdocument, ← hplace] at hdenotes
      refine ⟨offset, hdenotes.le_length, hdenotes, ?_, ?_⟩
      · intro hend
        obtain ⟨part, hpart⟩ := unfinished_of_tellsEnd hend
        rw [hcause] at hpart
        cases hpart
      · exact fun _ htext => absurd (tellsNoText_of_invalidCodePoint hcause) htext

/-- A leading zero on the second line is refused, whatever comes after the digit behind it. -/
theorem decode_refusal_leadingZero :
    let document := "\x7b\"queries\":\n[\x7b\"id\": 01\x7d]\x7d".toList.map ascii
    let message := "invalid number at line 2 column 10"
    let position : Position := ⟨2, 10⟩
    NoNumeralKey document ∧ decode document = .error (.parse message position) ∧
      ∃ offset, offset ≤ document.length ∧ position.Denotes document offset ∧
        (TellsEnd message → offset = document.length) ∧
        (¬ TellsEnd message → ¬ TellsNoText message →
          ∀ other, other.take offset = document.take offset →
            decode other = .error (.parse message position)) := by
  intro document message position
  have hfree : NoNumeralKey document := Json.noNumeralKey_of_undollared (by decide)
  have hdecode : decode document = .error (.parse message position) := rfl
  exact ⟨hfree, hdecode, decode_refusal document message position hfree hdecode⟩

end QueryLabel.Request
