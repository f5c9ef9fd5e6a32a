import QueryLabel.Proofs.Engine
import QueryLabel.Proofs.Json.Canonical

/-!
Identifiers are echoed.  Whatever value an identifier has and however it is spelled, the constant
predictor answers with the canonical spelling of that value, exactly if no object in it has the
numeral key first (`run_echo`).  One that has it is read as a number, or not at all
(`run_echo_numeral`).
-/

namespace QueryLabel.Engine

open Json (Canonical DistinctKeys Document EveryNumber Members NormalLiteral NumeralFree Spaces
  Spells SpellsText)
open Text (ascii)

/-- A request for one query, of which the identifier is all that is known. -/
def inquiry (id : List UInt8) : List UInt8 :=
  "\x7b\"queries\":[\x7b\"id\":".toList.map ascii ++ id ++ "\x7d]\x7d".toList.map ascii

/-- The compact answer of the constant predictor to such a request. -/
def echo (id : Text) : Text :=
  "\x7b\"predictions\":[\x7b\"id\":".toList ++ id ++
    ",\"type\":\"any\",\"score\":0.0\x7d]\x7d".toList

theorem echo_injective {id id' : Text} (h : echo id = echo id') : id = id' :=
  List.append_cancel_left (List.append_cancel_right h)

/-! ### The request and its tree -/

/-- The tree of an inquiry. -/
def inquiryTree (id : Json) : Json :=
  .object [(Request.queriesKey, .array [.object [(Query.idKey, id)]])]

theorem depth_inquiryTree (id : Json) : (inquiryTree id).depth = id.depth + 3 := by
  simp [inquiryTree, Json.depth, Json.depthMembers, Json.depthMember, Json.depthItems]

/-- An inquiry stands for the inquiry for what its identifier stands for. -/
theorem value?_inquiryTree (id : Json) :
    Json.value? (inquiryTree id) = (Json.value? id).map inquiryTree := by
  have hqueries : ∀ value, Members.firstKey? [(Request.queriesKey, value)] ≠
      some Json.numeralKey := fun _ h => Request.queriesKey_ne_numeralKey (Option.some.inj h)
  have hid : ∀ value, Members.firstKey? [(Query.idKey, value)] ≠ some Json.numeralKey :=
    fun _ h => Response.idKey_ne_numeralKey (Option.some.inj h)
  cases hvalue : Json.value? id with
  | none =>
      simp [inquiryTree, Json.value?, Json.valueItems?, Json.valueMembers?, Json.valueMember?,
        hqueries, hid, hvalue]
  | some value =>
      simp [inquiryTree, Json.value?, Json.valueItems?, Json.valueMembers?, Json.valueMember?,
        hqueries, hid, hvalue, Members.collect, Members.put]

theorem ofJson_inquiryTree (id : Json) :
    Request.ofJson (inquiryTree id) = .ok ⟨[.withId id]⟩ :=
  rfl

section Inquiry

variable {before spelling after : List UInt8} {id : Json}

theorem inquiry_head : "\x7b\"queries\":[\x7b\"id\":".toList.map ascii =
    ascii '{' :: ascii '"' :: (Utf8.encode Request.queriesKey ++ ascii '"' :: ascii ':' ::
      ascii '[' :: ascii '{' :: ascii '"' :: (Utf8.encode Query.idKey ++
        [ascii '"', ascii ':'])) := by
  decide

theorem inquiry_tail : "\x7d]\x7d".toList.map ascii = [ascii '}', ascii ']', ascii '}'] := by
  decide

theorem document_inquiry (hbefore : Spaces before) (h : Spells spelling id)
    (hafter : Spaces after) (hdepth : id.depth ≤ 124) :
    Document (inquiry (before ++ spelling ++ after)) (inquiryTree id) := by
  have hidKey : SpellsText (Utf8.encode Query.idKey) Query.idKey :=
    Json.spellsText_escape .compact Query.idKey
  have hqueriesKey : SpellsText (Utf8.encode Request.queriesKey) Request.queriesKey :=
    Json.spellsText_escape .compact Request.queriesKey
  have hquery := Spells.object (.one (.mk Json.spaces_nil hidKey Json.spaces_nil hbefore h hafter))
  have hqueries := Spells.array (.one Json.spaces_nil hquery Json.spaces_nil)
  have htree : Spells _ (inquiryTree id) := .object (.one (.mk Json.spaces_nil hqueriesKey
    Json.spaces_nil Json.spaces_nil hqueries Json.spaces_nil))
  have hlimit : (inquiryTree id).depth ≤ Json.depthLimit := by
    rw [depth_inquiryTree]
    exact Nat.add_le_add_right hdepth 3
  have hdocument := Document.mk Json.spaces_nil htree Json.spaces_nil hlimit
  unfold inquiry
  simpa only [inquiry_head, inquiry_tail, List.append_assoc, List.cons_append, List.nil_append,
    List.append_nil] using hdocument

/-! ### The answer -/

theorem render_echo (id : Json) :
    Response.render .compact ⟨[.placeholder id]⟩ = echo (Json.render .compact id) := by
  have hscore : Response.renderScore .compact Prediction.placeholderScore = "0.0".toList := by
    decide +kernel
  have hlabel : Json.renderString .compact Prediction.placeholderLabel = "\"any\"".toList := by
    decide
  unfold echo
  simp only [Response.render, Response.renderPredictions, Response.renderPrediction,
    Response.renderField, Prediction.placeholder, hscore, hlabel, List.append_assoc,
    List.cons_append, List.nil_append]
  rfl

/-- An inquiry is decoded to what its identifier stands for, if it stands for anything. -/
theorem decode_inquiry (hbefore : Spaces before) (h : Spells spelling id) (hafter : Spaces after)
    (hdepth : id.depth ≤ 124) (request : Request) :
    Request.decode (inquiry (before ++ spelling ++ after)) = .ok request ↔
      ∃ value, Json.value? id = some value ∧ request = ⟨[.withId value]⟩ := by
  have hdocument := document_inquiry hbefore h hafter hdepth
  constructor
  · intro hdecode
    cases hparse : Json.parse (inquiry (before ++ spelling ++ after)) with
    | error e =>
        rw [Request.decode_of_parse_error hparse] at hdecode
        cases hdecode
    | ok tree =>
        have htree := (Json.parse_document hdocument).mp hparse
        rw [value?_inquiryTree] at htree
        obtain ⟨value, hvalue, rfl⟩ := Option.map_eq_some_iff.mp htree
        rw [Request.decode_of_parse hparse, ofJson_inquiryTree] at hdecode
        cases hdecode
        exact ⟨value, hvalue, rfl⟩
  · rintro ⟨value, hvalue, rfl⟩
    have htree : Json.value? (inquiryTree id) = some (inquiryTree value) := by
      rw [value?_inquiryTree, hvalue]
      rfl
    rw [Request.decode_of_parse ((Json.parse_document hdocument).mpr htree), ofJson_inquiryTree]

/-- An inquiry is answered with what its identifier stands for. -/
theorem run_inquiry (model : Model) (style : Style) (hbefore : Spaces before)
    (h : Spells spelling id) (hafter : Spaces after) (hdepth : id.depth ≤ 124) (out : Text) :
    run ⟨.constant, model, style⟩ (inquiry (before ++ spelling ++ after)) = .ok out ↔
      ∃ value, Json.value? id = some value ∧
        out = Response.render style ⟨[.placeholder value]⟩ := by
  have hencode : ∀ value, Json.value? id = some value →
      Response.encode style ⟨Request.placeholders ⟨[.withId value]⟩⟩ =
        .ok (Response.render style ⟨[.placeholder value]⟩) := by
    intro value hvalue
    have hplain := Json.plain_of_value? (Json.normalNumbers_of_spells h) hvalue
    exact Response.encode_eq_render (List.forall_mem_singleton.mpr hplain)
  rw [run_constant_eq_ok_iff]
  constructor
  · rintro ⟨request, hdecode, hout⟩
    obtain ⟨value, hvalue, rfl⟩ := (decode_inquiry hbefore h hafter hdepth request).mp hdecode
    rw [hencode value hvalue] at hout
    cases hout
    exact ⟨value, hvalue, rfl⟩
  · rintro ⟨value, hvalue, rfl⟩
    exact ⟨_, (decode_inquiry hbefore h hafter hdepth _).mpr ⟨value, hvalue, rfl⟩,
      hencode value hvalue⟩

end Inquiry

/-- An identifier without repeated keys has one canonical spelling.  However the identifier is
spelled, if no object in it has the numeral key first, then the request is answered in either
style, in the compact one with the canonical spelling; and only then is that the answer. -/
theorem run_echo (model : Model) (id : Json) (before spelling after : List UInt8)
    (hspelling : Spells spelling id) (hbefore : Spaces before) (hafter : Spaces after)
    (hkeys : DistinctKeys id) (hdepth : id.depth ≤ 124) :
    let input := inquiry (before ++ spelling ++ after)
    ∃ text, (∀ other, Canonical other id ↔ other = text) ∧
      (NumeralFree id → ∀ style, ∃ out, run ⟨.constant, model, style⟩ input = .ok out) ∧
      (run ⟨.constant, model, .compact⟩ input = .ok (echo text) ↔ NumeralFree id) := by
  intro input
  have hrun := fun style => run_inquiry model style hbefore hspelling hafter hdepth
  have hnormal := Json.normalNumbers_of_spells hspelling
  refine ⟨Json.render .compact id, fun other => Json.canonical_iff, ?_, ?_⟩
  · intro hfree style
    have hself := (hkeys.plain hnormal hfree).value?_self
    exact ⟨_, (hrun style _).mpr ⟨id, hself, rfl⟩⟩
  · rw [hrun .compact]
    constructor
    · rintro ⟨value, hvalue, hout⟩
      rw [render_echo] at hout
      have hplain := Json.plain_of_value? hnormal hvalue
      have hsame := Json.render_injective hnormal
        (hplain.everyNumber fun literal hliteral => hliteral) (echo_injective hout)
      rw [hsame]
      exact hplain.numeralFree
    · intro hfree
      have hself := (hkeys.plain hnormal hfree).value?_self
      exact ⟨id, hself, (render_echo id).symm⟩

/-- An object that is spelled with white space and a large exponent mark. -/
theorem run_echo_object :
    let id : Json := .object [(['a'], .number "1e+5".toList)]
    let spelling := "\x7b\"a\": 1E5\x7d".toList.map ascii
    Spells spelling id ∧ Spaces [] ∧ DistinctKeys id ∧ id.depth ≤ 124 ∧ NumeralFree id ∧
      ∃ text, (∀ other, Canonical other id ↔ other = text) ∧
        (NumeralFree id → ∀ style, ∃ out,
          run ⟨.constant, ⟨none⟩, style⟩ (inquiry ([] ++ spelling ++ [])) = .ok out) ∧
        (run ⟨.constant, ⟨none⟩, .compact⟩ (inquiry ([] ++ spelling ++ [])) = .ok (echo text) ↔
          NumeralFree id) := by
  intro id spelling
  have hkey : SpellsText [ascii 'a'] ['a'] := Json.spellsText_escape .compact ['a']
  have hblank : Spaces [ascii ' '] := Json.spaces_singleton rfl
  have hfive : Json.Digits [ascii '5'] :=
    ⟨List.cons_ne_nil _ _, List.forall_mem_singleton.mpr rfl⟩
  have hnumber : Spells ("1E5".toList.map ascii) (.number "1e+5".toList) :=
    .number (.mk (Or.inl rfl) (.digits rfl (by decide) (List.forall_mem_nil _)) .none
      (.unsigned (Or.inr rfl) hfive))
  have hspelling : Spells spelling id :=
    .object (.one (.mk Json.spaces_nil hkey Json.spaces_nil hblank hnumber Json.spaces_nil))
  have hkeys : DistinctKeys id :=
    .object (List.pairwise_singleton _ _) (List.forall_mem_singleton.mpr .number)
  have hfree : NumeralFree id :=
    .object (by decide) (List.forall_mem_singleton.mpr .number)
  exact ⟨hspelling, Json.spaces_nil, hkeys, by decide, hfree,
    run_echo ⟨none⟩ id [] spelling [] hspelling Json.spaces_nil Json.spaces_nil hkeys (by decide)⟩

/-- An object with the numeral key is answered with a number, which is not its canonical
spelling. -/
theorem run_echo_numeral :
    let id : Json := .object [(Json.numeralKey, .string ['1'])]
    let text := Json.render .compact id
    Spells (Utf8.encode text) id ∧ DistinctKeys id ∧ id.depth ≤ 124 ∧ Canonical text id ∧
      run ⟨.constant, ⟨none⟩, .compact⟩ (inquiry (Utf8.encode text)) = .ok (echo ['1']) ∧
      echo ['1'] ≠ echo text := by
  intro id text
  have hnormal : EveryNumber NormalLiteral id :=
    .object (List.forall_mem_singleton.mpr .string)
  have hspelling := Json.spells_render
    (hnormal.imp fun literal hliteral => Json.writable_compact hliteral)
  rw [Json.respell_compact] at hspelling
  have hrun : run ⟨.constant, ⟨none⟩, .compact⟩ (inquiry (Utf8.encode text)) =
      .ok (echo ['1']) :=
    eq_ok_of_toOption (by decide +kernel)
  have hother : ['1'] ≠ Json.render .compact (.object [(Json.numeralKey, .string ['1'])]) := by
    decide
  have hkeys : DistinctKeys id :=
    .object (List.pairwise_singleton _ _) (List.forall_mem_singleton.mpr .string)
  exact ⟨hspelling, hkeys, by decide, Json.canonical_render id, hrun,
    fun h => hother (echo_injective h)⟩

end QueryLabel.Engine
