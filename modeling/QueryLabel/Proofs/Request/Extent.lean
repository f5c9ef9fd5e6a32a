import QueryLabel.Proofs.Json.Extent
import QueryLabel.Proofs.Request

/-!
Requests are self-delimiting (`decode_extent`).  The closing brace of the document decides: what
stops short of it is refused as unfinished, white space behind it changes nothing, and anything
else behind it is refused.
-/

namespace QueryLabel.Request

open Json (Closes Spaces Spells SyntaxError isSpace)
open Text (ascii)

theorem closes_of_decode {document : List UInt8} {request : Request}
    (h : decode document = .ok request) :
    ∃ before after members, document = before ++ ascii '}' :: after ∧ Spaces after ∧
      Closes before members ∧ ofJson (.object members) = .ok request := by
  obtain ⟨members, hparse, hrequest⟩ := parse_of_decode h
  obtain ⟨before, after, hdocument, hafter, hcloses⟩ := Json.closes_of_parse hparse
  exact ⟨before, after, members, hdocument, hafter, hcloses, hrequest⟩

section Closes

variable {before rest : List UInt8} {members : Json.Members} {request : Request}

/-- White space behind the closing brace changes nothing. -/
theorem decode_closed (h : Closes before members)
    (hrequest : ofJson (.object members) = .ok request) (hrest : Spaces rest) :
    decode (before ++ ascii '}' :: rest) = .ok request := by
  have hparse := Json.parse_closed h rest
  rw [Json.checkTrailing_eq_ok_iff.mpr hrest] at hparse
  rw [decode_of_parse hparse, hrequest]

/-- Anything but white space behind the closing brace is refused, at its first byte. -/
theorem decode_trailing (h : Closes before members) {space : List UInt8} {b : UInt8}
    (hspace : Spaces space) (hb : isSpace b = false) (rest : List UInt8) :
    let place := Position.after (before ++ ascii '}' :: space ++ [b])
    decode (before ++ ascii '}' :: (space ++ b :: rest)) =
      .error (.parse s!"trailing characters at line {place.line} column {place.column}" place) := by
  intro place
  have hparse := Json.parse_closed h (space ++ b :: rest)
  rw [Json.checkTrailing_of_not_space hspace hb] at hparse
  have hplace : (Position.after (before ++ [ascii '}'])).past (space ++ [b]) = place := by
    simp [place, Position.after, Position.past]
  rw [decode_of_parse_error hparse, hplace, SyntaxError.message_trailingCharacters]

/-- A beginning that stops short of the closing brace is refused as unfinished. -/
theorem decode_short (h : Closes before members) {p : List UInt8} (hp : p <+: before) :
    ∃ part : Json.Part, let place := Position.after p
      decode p = .error (.parse
        s!"EOF while parsing {part.description} at line {place.line} column {place.column}"
        place) := by
  obtain ⟨part, hparse⟩ := Json.parse_short h hp
  refine ⟨part, ?_⟩
  rw [decode_of_parse_error hparse, SyntaxError.message_unfinished]

end Closes

/-- A document that is decoded ends with the closing brace of its object, up to white space.  Every
beginning that stops short of the brace is refused as unfinished, at its end; every one that
holds the brace is the same request; and so is the document with white space behind it, while
anything else behind it is refused just after the first byte that is no white space. -/
theorem decode_extent (document : List UInt8) (request : Request)
    (h : decode document = .ok request) :
    ∃ before after, document = before ++ ascii '}' :: after ∧ Spaces after ∧
      (∃ space inner members, before = space ++ ascii '{' :: inner ∧ Spaces space ∧
        Spells (ascii '{' :: inner ++ [ascii '}']) (.object members)) ∧
      (∀ p, p <+: before → ∃ part : Json.Part, let place := Position.after p
        decode p = .error (.parse
          s!"EOF while parsing {part.description} at line {place.line} column {place.column}"
          place)) ∧
      (∀ p, p <+: document → before.length < p.length → decode p = .ok request) ∧
      ∀ s, (Spaces s → decode (document ++ s) = .ok request) ∧
        (¬ Spaces s → ∃ space b rest, s = space ++ b :: rest ∧ Spaces space ∧
          isSpace b = false ∧
          let place := Position.after (document ++ space ++ [b])
          decode (document ++ s) = .error (.parse
            s!"trailing characters at line {place.line} column {place.column}" place)) := by
  obtain ⟨before, after, members, rfl, hafter, hcloses, hrequest⟩ := closes_of_decode h
  refine ⟨before, after, rfl, hafter, hcloses.derivation, ?_, ?_, ?_⟩
  · intro p hp
    exact decode_short hcloses hp
  · intro p hp hlength
    have hbrace : before ++ [ascii '}'] <+: p := by
      apply List.prefix_of_prefix_length_le _ hp
      · rw [List.length_append]
        exact hlength
      · exact ⟨after, by simp⟩
    obtain ⟨rest, rfl⟩ := hbrace
    obtain ⟨cut, hcut⟩ := hp
    have hrest : rest ++ cut = after := by simpa using hcut
    have hspaces : Spaces rest := fun b hb =>
      hafter b (hrest ▸ List.mem_append_left cut hb)
    rw [List.append_assoc]
    exact decode_closed hcloses hrequest hspaces
  · intro s
    constructor
    · intro hs
      rw [List.append_assoc, List.cons_append]
      exact decode_closed hcloses hrequest (Json.spaces_append hafter hs)
    · intro hs
      rcases Json.spaces_or_not s with hspaces | ⟨space, b, rest, rfl, hspace, hb⟩
      · exact absurd hspaces hs
      · refine ⟨space, b, rest, rfl, hspace, hb, ?_⟩
        have htrailing := decode_trailing hcloses (Json.spaces_append hafter hspace) hb rest
        simpa using htrailing

/-- A document with an escape and a number in it, and white space behind it. -/
theorem decode_extent_one :
    let document := "\x7b\"queries\": [\x7b\"id\": [\"\\n\", 1E5]\x7d]\x7d ".toList.map ascii
    let request : Request := ⟨[.withId (.array [.string ['\n'], .number "1e+5".toList])]⟩
    decode document = .ok request ∧
      ∃ before after, document = before ++ ascii '}' :: after ∧ Spaces after ∧
        (∃ space inner members, before = space ++ ascii '{' :: inner ∧ Spaces space ∧
          Spells (ascii '{' :: inner ++ [ascii '}']) (.object members)) ∧
        (∀ p, p <+: before → ∃ part : Json.Part, let place := Position.after p
          decode p = .error (.parse
            s!"EOF while parsing {part.description} at line {place.line} column {place.column}"
            place)) ∧
        (∀ p, p <+: document → before.length < p.length → decode p = .ok request) ∧
        ∀ s, (Spaces s → decode (document ++ s) = .ok request) ∧
          (¬ Spaces s → ∃ space b rest, s = space ++ b :: rest ∧ Spaces space ∧
            isSpace b = false ∧
            let place := Position.after (document ++ space ++ [b])
            decode (document ++ s) = .error (.parse
              s!"trailing characters at line {place.line} column {place.column}" place)) := by
  intro document request
  have hdecode : decode document = .ok request := rfl
  exact ⟨hdecode, decode_extent document request hdecode⟩

end QueryLabel.Request
