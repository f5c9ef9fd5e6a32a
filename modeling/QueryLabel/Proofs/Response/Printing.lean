import QueryLabel.Proofs.Json.Printing
import QueryLabel.Response.Decode
import QueryLabel.Response.Encode

/-!
What the text of a response spells.  In either style it is an object with one member, the list of
the predictions, and every prediction is an object with its three fields in their order.
-/

namespace QueryLabel

open Text (ascii)
open Json (Spells SpellsItems SpellsMembers Spaces Plain respell Spaceable)

/-- A prediction that a style can write and a reader of values can read. -/
structure Prediction.Writable (style : Style) (prediction : Prediction) : Prop where
  plain : Plain prediction.id
  spaceable : Spaceable style prediction.id
  shallow : prediction.id.depth ≤ Response.idDepthLimit
  finite : prediction.score.isFinite = true

/-- What a prediction says in a style: numbers in the identifier are spelled anew, and the score
is the literal that is written for it. -/
def Prediction.tree (style : Style) (prediction : Prediction) : Json :=
  .object [("id".toList, respell style prediction.id), ("type".toList, .string prediction.label),
    ("score".toList, .number (style.layout.write prediction.score))]

namespace Response

/-- What a list of predictions says under a key. -/
def treeUnder (style : Style) (key : Text) (predictions : List Prediction) : Json :=
  .object [(key, .array (predictions.map (Prediction.tree style)))]

/-- The text of predictions under a key. -/
def renderUnder (style : Style) (key : Text) (predictions : List Prediction) : Text :=
  '{' :: Json.renderString style key ++ style.keySeparator ++
    '[' :: renderPredictions style predictions ++ [']', '}']

theorem render_eq (style : Style) (response : Response) :
    response.render style = renderUnder style predictionsKey response.predictions := rfl

variable {style : Style} {prediction : Prediction}

theorem spells_score (h : prediction.Writable style) :
    Spells (Utf8.encode (renderScore style prediction.score))
      (.number (style.layout.write prediction.score)) := by
  unfold renderScore
  rw [if_pos h.finite]
  exact .number (Json.normalLiteral_write _ h.finite)

theorem spells_prediction (h : prediction.Writable style) :
    Spells (Utf8.encode (renderPrediction style prediction)) (prediction.tree style) := by
  have hid := Json.spellsMember_render style "id".toList
    (Json.spells_render (h.plain.writable h.spaceable)) Json.spaces_nil
  have hlabel : Spells (Utf8.encode (Json.renderString style prediction.label))
      (.string prediction.label) := by
    rw [Json.encode_renderString]
    exact .string (Json.spellsText_escape style prediction.label)
  have htype := Json.spellsMember_render style "type".toList hlabel (Json.spaces_gap style)
  have hscore := Json.spellsMember_render style "score".toList (spells_score h)
    (Json.spaces_gap style)
  have hobject := Spells.object (.cons hid (.cons htype (.one hscore)))
  have htext : renderPrediction style prediction =
      '{' :: (renderField style "id" (Json.render style prediction.id) ++ style.itemSeparator ++
        renderField style "type" (Json.renderString style prediction.label) ++
        style.itemSeparator ++ renderField style "score" (renderScore style prediction.score)) ++
        ['}'] := by
    simp [renderPrediction]
  rw [htext, Json.encode_between (by decide) (by decide)]
  unfold renderField Prediction.tree
  simpa [Utf8.encode_append, Json.encode_itemSeparator] using hobject

/-- Predictions are spelled with white space in front. -/
theorem spellsItems_predictions {rest : List Prediction}
    (h : ∀ other ∈ prediction :: rest, other.Writable style) {w : List UInt8} (hw : Spaces w) :
    SpellsItems (w ++ Utf8.encode (renderPredictions style (prediction :: rest)))
      ((prediction :: rest).map (Prediction.tree style)) := by
  induction rest generalizing prediction w with
  | nil => exact Json.spellsItems_single hw (spells_prediction (h prediction List.mem_cons_self))
  | cons next rest ih =>
      obtain ⟨hprediction, hrest⟩ := List.forall_mem_cons.mp h
      have htail := ih hrest (Json.spaces_gap style)
      have hitems := SpellsItems.cons hw (spells_prediction hprediction) Json.spaces_nil htail
      simpa [renderPredictions, Utf8.encode_append, Json.encode_itemSeparator] using hitems

theorem spells_predictions {predictions : List Prediction}
    (h : ∀ prediction ∈ predictions, prediction.Writable style) :
    Spells (Utf8.encode ('[' :: renderPredictions style predictions ++ [']']))
      (.array (predictions.map (Prediction.tree style))) := by
  rw [Json.encode_between (by decide) (by decide)]
  cases predictions with
  | nil => exact .emptyArray Json.spaces_nil
  | cons prediction rest => exact .array (spellsItems_predictions h Json.spaces_nil)

/-- The text of predictions under a key spells what it says. -/
theorem spells_renderUnder {predictions : List Prediction} (key : Text)
    (h : ∀ prediction ∈ predictions, prediction.Writable style) :
    Spells (Utf8.encode (renderUnder style key predictions))
      (treeUnder style key predictions) := by
  have hmember := Json.spellsMember_render style key (spells_predictions h) Json.spaces_nil
  have hobject := Spells.object (.one hmember)
  have htext : renderUnder style key predictions = '{' :: (Json.renderString style key ++
      style.keySeparator ++ ('[' :: renderPredictions style predictions ++ [']'])) ++ ['}'] := by
    simp [renderUnder]
  rw [htext, Json.encode_between (by decide) (by decide)]
  exact hobject

/-! ### Reading it again -/

theorem idKey_ne_numeralKey : "id".toList ≠ Json.numeralKey := by
  decide

theorem predictionsKey_ne_numeralKey : predictionsKey ≠ Json.numeralKey := by
  decide

/-- What a prediction says is plain. -/
theorem plain_tree (h : prediction.Writable style) : Plain (prediction.tree style) := by
  have hid := h.plain.respell (h.plain.writable h.spaceable)
  have hscore : Plain (.number (style.layout.write prediction.score)) :=
    .number (Json.normalLiteral_write _ h.finite)
  have hkeys : ["id".toList, "type".toList, "score".toList].Nodup := by decide
  refine .object ?_ hkeys ?_
  · exact fun hfirst => idKey_ne_numeralKey (Option.some.inj hfirst)
  · simp only [List.forall_mem_cons]
    exact ⟨hid, .string, hscore, List.forall_mem_nil _⟩

theorem plain_treeUnder {predictions : List Prediction} {key : Text}
    (hkey : key ≠ Json.numeralKey) (h : ∀ prediction ∈ predictions, prediction.Writable style) :
    Plain (treeUnder style key predictions) := by
  have hitems : Plain (.array (predictions.map (Prediction.tree style))) := by
    apply Plain.array
    intro item hitem
    obtain ⟨prediction, hprediction, rfl⟩ := List.mem_map.mp hitem
    exact plain_tree (h prediction hprediction)
  refine .object ?_ (List.nodup_cons.mpr ⟨List.not_mem_nil, List.nodup_nil⟩) ?_
  · exact fun hfirst => hkey (Option.some.inj hfirst)
  · rw [List.forall_mem_cons]
    exact ⟨hitems, List.forall_mem_nil _⟩

theorem depth_tree_le (h : prediction.Writable style) :
    (prediction.tree style).depth ≤ idDepthLimit + 1 := by
  have hid := h.shallow
  unfold Prediction.tree
  simp only [Json.depth, Json.depthMembers, Json.depthMember, Json.depth_respell]
  omega

theorem depth_treeUnder_le {predictions : List Prediction} (key : Text)
    (h : ∀ prediction ∈ predictions, prediction.Writable style) :
    (treeUnder style key predictions).depth ≤ Json.depthLimit := by
  have hitems : Json.depthItems (predictions.map (Prediction.tree style)) ≤ idDepthLimit + 1 := by
    apply Json.depthItems_le
    intro item hitem
    obtain ⟨prediction, hprediction, rfl⟩ := List.mem_map.mp hitem
    exact depth_tree_le (h prediction hprediction)
  have hlimit : idDepthLimit + 1 + 2 = Json.depthLimit := rfl
  unfold treeUnder
  simp only [Json.depth, Json.depthMembers, Json.depthMember]
  omega

/-- The text of predictions under a key is read as what it says. -/
theorem parse_renderUnder {predictions : List Prediction} {key : Text}
    (hkey : key ≠ Json.numeralKey) (h : ∀ prediction ∈ predictions, prediction.Writable style) :
    Json.parse (Utf8.encode (renderUnder style key predictions)) =
      .ok (treeUnder style key predictions) := by
  apply Json.parse_eq_ok_iff.mpr
  refine ⟨treeUnder style key predictions, ?_, (plain_treeUnder hkey h).value?_self⟩
  have hdocument := Json.Document.mk Json.spaces_nil (spells_renderUnder key h) Json.spaces_nil
    (depth_treeUnder_le key h)
  simpa using hdocument

/-- A response is encoded if the numbers of its identifiers are numbers of the grammar. -/
theorem encode_of_numbers {response : Response}
    (h : ∀ prediction ∈ response.predictions,
      Json.EveryNumber Json.NumberLiteral prediction.id) :
    response.encode style = .ok (response.render style) := by
  unfold encode
  rw [if_pos]
  unfold spellable
  rw [List.all_eq_true]
  intro prediction hprediction
  exact (h prediction hprediction).spellable

/-- A response of plain identifiers is encoded. -/
theorem encode_eq_render {response : Response}
    (h : ∀ prediction ∈ response.predictions, Plain prediction.id) :
    response.encode style = .ok (response.render style) :=
  encode_of_numbers fun prediction hprediction =>
    (h prediction hprediction).everyNumber fun _ hnormal => hnormal.numberLiteral

/-- The spaced style changes how numbers are spelled and nothing else: what it writes for a
response is read as the predictions with their identifiers, labels and scores, in their order. -/
theorem parse_encode_spaced (response : Response)
    (hparsed : ∀ prediction ∈ response.predictions,
      ∃ document, Json.parse document = .ok prediction.id)
    (hdepth : ∀ prediction ∈ response.predictions, prediction.id.depth ≤ 124)
    (hnumbers : ∀ prediction ∈ response.predictions,
      Json.EveryNumber Json.FiniteLiteral prediction.id)
    (hscore : ∀ prediction ∈ response.predictions, prediction.score.isFinite = true) :
    ∃ text, response.encode .spaced = .ok text ∧
      Json.parse (Utf8.encode text) = .ok (.object [("predictions".toList,
        .array (response.predictions.map fun prediction => .object
          [("id".toList, Json.respell .spaced prediction.id),
            ("type".toList, .string prediction.label),
            ("score".toList, .number (Style.spacedLayout.write prediction.score))]))]) := by
  have hplain : ∀ prediction ∈ response.predictions, Plain prediction.id := by
    intro prediction hprediction
    obtain ⟨document, hdocument⟩ := hparsed prediction hprediction
    exact (Json.plain_of_parse hdocument).1
  have hwritable : ∀ prediction ∈ response.predictions, prediction.Writable .spaced := by
    intro prediction hprediction
    exact ⟨hplain prediction hprediction, fun _ => hnumbers prediction hprediction,
      hdepth prediction hprediction, hscore prediction hprediction⟩
  refine ⟨response.render .spaced, encode_eq_render hplain, ?_⟩
  rw [render_eq]
  exact parse_renderUnder predictionsKey_ne_numeralKey hwritable

/-- One prediction with a nested identifier, a label beyond ASCII and a score of one half. -/
theorem parse_encode_spaced_one :
    let half : Binary64 := .ofBits 0x3FE0000000000000
    let response : Response := ⟨[⟨.array [.number ['1', '.', '5', '0']], ['é', '😀'], half⟩]⟩
    (∀ prediction ∈ response.predictions, ∃ document, Json.parse document = .ok prediction.id) ∧
      ∃ text, response.encode .spaced = .ok text ∧
        Json.parse (Utf8.encode text) = .ok (.object [("predictions".toList,
          .array (response.predictions.map fun prediction => .object
            [("id".toList, Json.respell .spaced prediction.id),
              ("type".toList, .string prediction.label),
              ("score".toList, .number (Style.spacedLayout.write prediction.score))]))]) := by
  intro half response
  have hparsed : ∀ prediction ∈ response.predictions,
      ∃ document, Json.parse document = .ok prediction.id :=
    List.forall_mem_cons.mpr ⟨⟨"[1.50]".toList.map ascii, rfl⟩, List.forall_mem_nil _⟩
  have hvalue : Binary64.readLiteral? ['1', '.', '5', '0'] =
      some (.ofBits 0x3FF8000000000000) := by decide +kernel
  have hliteral := Json.finiteLiteral_of_readLiteral? hvalue (by decide +kernel)
  refine ⟨hparsed, parse_encode_spaced response hparsed ?_ ?_ ?_⟩
  · exact List.forall_mem_cons.mpr ⟨by decide, List.forall_mem_nil _⟩
  · exact List.forall_mem_cons.mpr ⟨.array (List.forall_mem_cons.mpr
      ⟨.number hliteral, List.forall_mem_nil _⟩), List.forall_mem_nil _⟩
  · exact List.forall_mem_cons.mpr ⟨by decide +kernel, List.forall_mem_nil _⟩

end Response

end QueryLabel
