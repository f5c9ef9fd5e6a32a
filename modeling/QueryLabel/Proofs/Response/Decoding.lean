import QueryLabel.Proofs.Response.Printing

/-!
Reading responses.  A reader of a document whose shape is known takes what the grammar spells and
stops behind it (`Takes`).  So the text of a response is read as its predictions, whatever the
style, with the scores that their literals stand for (`decode_render`).
-/

namespace QueryLabel

namespace Json

open Text (ascii)

/-- In front of bytes that cannot go on with a number a reader takes exactly these bytes. -/
def Takes {α : Type} (read : Cursor → Except SyntaxError (α × Cursor)) (s : List UInt8)
    (a : α) : Prop :=
  ∀ (here : Position) (rest : List UInt8), Delimited rest →
    ∃ here', read ⟨here, s ++ rest⟩ = .ok (a, ⟨here', rest⟩)

/-- Whatever follows, the bytes begin with one that cannot go on with a number. -/
def Delimits (s : List UInt8) : Prop :=
  ∀ rest, Delimited (s ++ rest)

theorem delimits_cons {b : UInt8} (h : NumberScan.EndsNumber b) (s : List UInt8) :
    Delimits (b :: s) :=
  fun rest => delimited_cons h (s ++ rest)

theorem endsNumber_colon : NumberScan.EndsNumber (ascii ':') :=
  ⟨by decide, by decide, by decide, by decide⟩

section Cursor

variable {here : Position} {w s rest : List UInt8} {b : UInt8} {text : Text}

theorem token_spaces (hw : Spaces w) (hb : isSpace b = false) :
    Cursor.token ⟨here, w ++ b :: rest⟩ = ⟨here.past w, b :: rest⟩ := by
  have hspace := isSpace_of_spaces hw
  clear hw
  unfold Cursor.token
  simp only
  induction w generalizing here with
  | nil => simp [Cursor.skipSpace, hb]
  | cons c w ih =>
      simp only [List.forall_mem_cons] at hspace
      simp only [List.cons_append, Cursor.skipSpace, hspace.1, ↓reduceIte]
      exact ih hspace.2

theorem token_cons (hb : isSpace b = false) :
    Cursor.token ⟨here, b :: rest⟩ = ⟨here, b :: rest⟩ :=
  token_spaces spaces_nil hb

theorem colon_spaces (hw : Spaces w) :
    Cursor.colon ⟨here, w ++ ascii ':' :: rest⟩ =
      .ok ⟨(here.past w).advance (ascii ':'), rest⟩ := by
  unfold Cursor.colon
  rw [token_spaces hw rfl]
  rfl

/-- A value is taken with the white space in front of it. -/
theorem takes_value (limit : Nat) {tree value : Json} (hw : Spaces w) (hs : Spells s tree)
    (hvalue : value? tree = some value) (hdepth : tree.depth ≤ limit) :
    Takes (Cursor.value limit) (w ++ s) value := by
  intro here rest hrest
  refine ⟨here.past (w ++ s), ?_⟩
  unfold Cursor.value
  simp only [read_initial hw hs hvalue hdepth hrest]
  rfl

theorem takes_string (hw : Spaces w) (hs : SpellsText s text) :
    Takes Cursor.string (w ++ (ascii '"' :: s ++ [ascii '"'])) text := by
  intro here rest hrest
  obtain ⟨here', hvalue⟩ := takes_value 0 spaces_nil (.string hs) rfl (Nat.le_refl 0)
    (here.past w) rest hrest
  refine ⟨here', ?_⟩
  have hbytes : w ++ (ascii '"' :: s ++ [ascii '"']) ++ rest =
      w ++ ascii '"' :: (s ++ ascii '"' :: rest) := by simp
  have hbytes' : [] ++ (ascii '"' :: s ++ [ascii '"']) ++ rest =
      ascii '"' :: (s ++ ascii '"' :: rest) := by simp
  rw [hbytes'] at hvalue
  unfold Cursor.string
  rw [hbytes, token_spaces hw rfl]
  simp [Cursor.peek?, hvalue, bind, Except.bind]

theorem takes_score {literal : Text} {x : Binary64} (hw : Spaces w) (hs : SpellsNumber s literal)
    (hx : scoreOfLiteral literal = .ok x) : Takes Cursor.score (w ++ s) x := by
  intro here rest hrest
  obtain ⟨here', hvalue⟩ := takes_value 0 spaces_nil (.number hs) rfl (Nat.le_refl 0)
    (here.past w) rest hrest
  refine ⟨here', ?_⟩
  obtain ⟨scan, hscan, -, -⟩ := NumberScan.scan?_of_spells hs
  cases s with
  | nil => cases hscan
  | cons b s =>
      obtain ⟨first, hstart, -⟩ := Option.bind_eq_some_iff.mp hscan
      rw [List.nil_append, List.cons_append] at hvalue
      unfold Cursor.score
      rw [List.append_assoc, List.cons_append, token_spaces hw (isSpace_of_start? hstart)]
      simp [Cursor.peek?, hstart, hvalue, hx, bind, Except.bind]

/-- The first key of a record. -/
theorem takes_firstKey (hw : Spaces w) (hs : SpellsText s text) :
    Takes (Cursor.nextKey true) (w ++ (ascii '"' :: s ++ [ascii '"'])) (some text) := by
  intro here rest hrest
  obtain ⟨here', hstring⟩ := takes_string spaces_nil hs (here.past w) rest hrest
  refine ⟨here', ?_⟩
  have hbytes : w ++ (ascii '"' :: s ++ [ascii '"']) ++ rest =
      w ++ ascii '"' :: (s ++ ascii '"' :: rest) := by simp
  have hbytes' : [] ++ (ascii '"' :: s ++ [ascii '"']) ++ rest =
      ascii '"' :: (s ++ ascii '"' :: rest) := by simp
  rw [hbytes'] at hstring
  unfold Cursor.nextKey
  rw [hbytes, token_spaces hw rfl]
  simp [Cursor.peek?, hstring, bind, Except.bind, show ascii '"' ≠ ascii '}' by decide]

/-- A key behind a comma. -/
theorem takes_nextKey {a : List UInt8} (hw : Spaces w) (ha : Spaces a) (hs : SpellsText s text) :
    Takes (Cursor.nextKey false) (w ++ ascii ',' :: (a ++ (ascii '"' :: s ++ [ascii '"'])))
      (some text) := by
  intro here rest hrest
  obtain ⟨here', hstring⟩ := takes_string spaces_nil hs
    (((here.past w).advance (ascii ',')).past a) rest hrest
  refine ⟨here', ?_⟩
  have hbytes : w ++ ascii ',' :: (a ++ (ascii '"' :: s ++ [ascii '"'])) ++ rest =
      w ++ ascii ',' :: (a ++ ascii '"' :: (s ++ ascii '"' :: rest)) := by simp
  have hbytes' : [] ++ (ascii '"' :: s ++ [ascii '"']) ++ rest =
      ascii '"' :: (s ++ ascii '"' :: rest) := by simp
  rw [hbytes'] at hstring
  unfold Cursor.nextKey
  rw [hbytes, token_spaces hw rfl]
  simp [Cursor.peek?, Cursor.next, token_spaces ha (show isSpace (ascii '"') = false from rfl),
    hstring, bind, Except.bind, show ascii ',' ≠ ascii '}' by decide]

/-- The end of a record. -/
theorem nextKey_end (hw : Spaces w) (first : Bool) :
    Cursor.nextKey first ⟨here, w ++ ascii '}' :: rest⟩ =
      .ok (none, ⟨here.past w, ascii '}' :: rest⟩) := by
  unfold Cursor.nextKey
  rw [token_spaces hw rfl]
  rfl

/-- The end of a list. -/
theorem hasItem_end (hw : Spaces w) (first : Bool) :
    Cursor.hasItem first ⟨here, w ++ ascii ']' :: rest⟩ =
      .ok (false, ⟨here.past w, ascii ']' :: rest⟩) := by
  unfold Cursor.hasItem
  rw [token_spaces hw rfl]
  rfl

theorem hasItem_first (hw : Spaces w) (hb : isSpace b = false) (hclose : b ≠ ascii ']') :
    Cursor.hasItem true ⟨here, w ++ b :: rest⟩ = .ok (true, ⟨here.past w, b :: rest⟩) := by
  unfold Cursor.hasItem
  rw [token_spaces hw hb]
  simp [Cursor.peek?, hclose]

theorem hasItem_next {a : List UInt8} (hw : Spaces w) (ha : Spaces a) (hb : isSpace b = false)
    (hclose : b ≠ ascii ']') :
    Cursor.hasItem false ⟨here, w ++ ascii ',' :: (a ++ b :: rest)⟩ =
      .ok (true, ⟨((here.past w).advance (ascii ',')).past a, b :: rest⟩) := by
  unfold Cursor.hasItem
  rw [token_spaces hw rfl]
  simp [Cursor.peek?, Cursor.next, token_spaces ha hb, hclose,
    show ascii ',' ≠ ascii ']' by decide]

end Cursor

end Json

namespace Response

open Text (ascii)
open Json (Cursor Takes Delimits Spaces Spells SpellsText SpellsNumber)

variable {w s r k : List UInt8} {fields fields' : Fields} {key label : Text} {id value : Json}
  {x : Binary64} {prediction : Prediction}

/-! ### Fields of a prediction -/

theorem takes_id (hw : Spaces w) (hfields : fields.id = none)
    (h : Takes (Cursor.value idDepthLimit) s id) :
    Takes (readField fields "id".toList) (w ++ ascii ':' :: s) { fields with id := some id } := by
  intro here rest hrest
  obtain ⟨here', hvalue⟩ := h ((here.past w).advance (ascii ':')) rest hrest
  refine ⟨here', ?_⟩
  rw [List.append_assoc, List.cons_append]
  unfold readField
  simp [checkNew, hfields, Json.colon_spaces hw, hvalue, bind, Except.bind]

theorem takes_label (hw : Spaces w) (hfields : fields.label = none)
    (h : Takes Cursor.string s label) :
    Takes (readField fields "type".toList) (w ++ ascii ':' :: s)
      { fields with label := some label } := by
  intro here rest hrest
  obtain ⟨here', hstring⟩ := h ((here.past w).advance (ascii ':')) rest hrest
  refine ⟨here', ?_⟩
  rw [List.append_assoc, List.cons_append]
  unfold readField
  simp [checkNew, hfields, Json.colon_spaces hw, hstring, bind, Except.bind]

theorem takes_scoreField (hw : Spaces w) (hfields : fields.score = none)
    (h : Takes Cursor.score s x) :
    Takes (readField fields "score".toList) (w ++ ascii ':' :: s)
      { fields with score := some x } := by
  intro here rest hrest
  obtain ⟨here', hscore⟩ := h ((here.past w).advance (ascii ':')) rest hrest
  refine ⟨here', ?_⟩
  rw [List.append_assoc, List.cons_append]
  unfold readField
  simp [checkNew, hfields, Json.colon_spaces hw, hscore, bind, Except.bind]

/-- All fields are there at the end of a prediction. -/
theorem takes_end (hw : Spaces w) (first : Bool) (budget : Nat) :
    Takes (fun cursor => readFields first ⟨some id, some label, some x⟩ cursor (budget + 1))
      (w ++ [ascii '}']) ⟨id, label, x⟩ := by
  intro here rest hrest
  refine ⟨(here.past w).advance (ascii '}'), ?_⟩
  simp only [List.append_assoc, List.singleton_append, readFields, Json.nextKey_end hw, bind,
    Except.bind, Fields.finish]
  rfl

/-- One more field, and then the others. -/
theorem takes_field {first : Bool} {budget : Nat} (hkey : Takes (Cursor.nextKey first) k (some key))
    (hs : Takes (readField fields key) s fields') (hdelimits : Delimits s)
    (hr : Takes (fun cursor => readFields false fields' cursor budget) r prediction)
    (hdelimits' : Delimits r) :
    Takes (fun cursor => readFields first fields cursor (budget + 1)) (k ++ (s ++ r))
      prediction := by
  intro here rest hrest
  obtain ⟨there, hkey⟩ := hkey here (s ++ (r ++ rest)) (hdelimits _)
  obtain ⟨behind, hs⟩ := hs there (r ++ rest) (hdelimits' _)
  obtain ⟨last, hr⟩ := hr behind rest hrest
  refine ⟨last, ?_⟩
  simp only at hr
  simp only [List.append_assoc, readFields, hkey, hs, hr, bind, Except.bind]

/-! ### Predictions -/

variable {style : Style}

/-- The bytes of a string with its quotes. -/
def quoted (style : Style) (text : Text) : List UInt8 :=
  ascii '"' :: Utf8.encode (text.flatMap (Json.escapeChar style)) ++ [ascii '"']

/-- The bytes of a key that is not the first one. -/
def furtherKey (style : Style) (key : Text) : List UInt8 :=
  ascii ',' :: (Json.gap style ++ quoted style key)

/-- The bytes of a value behind its key. -/
def fieldValue (style : Style) (value : List UInt8) : List UInt8 :=
  ascii ':' :: (Json.gap style ++ value)

theorem takes_quoted (style : Style) (key : Text) :
    Takes (Cursor.nextKey true) (quoted style key) (some key) :=
  Json.takes_firstKey Json.spaces_nil (Json.spellsText_escape style key)

theorem takes_furtherKey (key : Text) :
    Takes (Cursor.nextKey false) (furtherKey style key) (some key) :=
  Json.takes_nextKey Json.spaces_nil (Json.spaces_gap style) (Json.spellsText_escape style key)

theorem encode_renderField (key : String) (value : Text) :
    Utf8.encode (renderField style key value) =
      quoted style key.toList ++ fieldValue style (Utf8.encode value) := by
  simp [renderField, quoted, fieldValue, Utf8.encode_append, Json.encode_renderString,
    Json.encode_keySeparator]

theorem encode_renderPrediction (prediction : Prediction) :
    Utf8.encode (renderPrediction style prediction) =
      ascii '{' :: (quoted style "id".toList ++
        (fieldValue style (Utf8.encode (Json.render style prediction.id)) ++
        (furtherKey style "type".toList ++
        (fieldValue style (quoted style prediction.label) ++
        (furtherKey style "score".toList ++
        (fieldValue style (Utf8.encode (renderScore style prediction.score)) ++
          [ascii '}'])))))) := by
  have htext : renderPrediction style prediction =
      '{' :: (renderField style "id" (Json.render style prediction.id) ++ style.itemSeparator ++
        renderField style "type" (Json.renderString style prediction.label) ++
        style.itemSeparator ++ renderField style "score" (renderScore style prediction.score)) ++
        ['}'] := by
    simp [renderPrediction]
  rw [htext, Json.encode_between (by decide) (by decide)]
  simp only [Utf8.encode_append, encode_renderField, Json.encode_itemSeparator,
    Json.encode_renderString]
  simp [furtherKey, quoted]

theorem delimits_colon (s : List UInt8) : Delimits (ascii ':' :: s) :=
  Json.delimits_cons Json.endsNumber_colon s

theorem delimits_comma (s : List UInt8) : Delimits (ascii ',' :: s) :=
  Json.delimits_cons Json.endsNumber_comma s

/-- A prediction that is an object, with its fields and at most this many members. -/
theorem takes_prediction
    (hs : ∀ budget, Takes (fun cursor => readFields true {} cursor (budget + 4)) s prediction)
    (hlength : 3 ≤ s.length) : Takes readPrediction (ascii '{' :: s) prediction := by
  intro here rest hrest
  have hbudget : (ascii '{' :: (s ++ rest)).length + 1 = (s ++ rest).length - 2 + 4 := by
    simp only [List.length_cons, List.length_append]
    omega
  obtain ⟨here', hfields⟩ := hs ((s ++ rest).length - 2) (here.advance (ascii '{')) rest hrest
  refine ⟨here', ?_⟩
  simp only [← hbudget] at hfields
  unfold readPrediction
  rw [List.cons_append, Json.token_cons rfl]
  exact hfields

/-- What is read for a prediction when its score is read as `score` says. -/
def readBack (style : Style) (score : Prediction → Binary64) (prediction : Prediction) :
    Prediction :=
  ⟨Json.respell style prediction.id, prediction.label, score prediction⟩

/-- The literals of the scores stand for these numbers. -/
def Scores (style : Style) (score : Prediction → Binary64) (predictions : List Prediction) :
    Prop :=
  ∀ prediction ∈ predictions, prediction.Writable style ∧
    Json.scoreOfLiteral (style.layout.write prediction.score) = .ok (score prediction)

variable {score : Prediction → Binary64}

/-- What is written for a prediction is taken, with the score that its literal stands for. -/
theorem takes_renderPrediction (h : prediction.Writable style)
    (hx : Json.scoreOfLiteral (style.layout.write prediction.score) = .ok (score prediction)) :
    Takes readPrediction (Utf8.encode (renderPrediction style prediction))
      (readBack style score prediction) := by
  have hgap := Json.spaces_gap style
  have hplain := h.plain.respell (h.plain.writable h.spaceable)
  have hid : Takes (Cursor.value idDepthLimit)
      (Json.gap style ++ Utf8.encode (Json.render style prediction.id))
      (Json.respell style prediction.id) := by
    apply Json.takes_value idDepthLimit hgap
      (Json.spells_render (h.plain.writable h.spaceable)) hplain.value?_self
    rw [Json.depth_respell]
    exact h.shallow
  have hlabel : Takes Cursor.string (Json.gap style ++ quoted style prediction.label)
      prediction.label := Json.takes_string hgap (Json.spellsText_escape style prediction.label)
  have hscore : Takes Cursor.score
      (Json.gap style ++ Utf8.encode (renderScore style prediction.score)) (score prediction) := by
    have htakes := Json.takes_score hgap (Json.normalLiteral_write style.layout h.finite) hx
    rwa [renderScore, if_pos h.finite]
  rw [encode_renderPrediction]
  apply takes_prediction
  · intro budget
    apply takes_field (takes_quoted style _) (takes_id Json.spaces_nil rfl hid) (delimits_colon _) _
      (delimits_comma _)
    apply takes_field (takes_furtherKey _) (takes_label Json.spaces_nil rfl hlabel)
      (delimits_colon _) _ (delimits_comma _)
    apply takes_field (takes_furtherKey _) (takes_scoreField Json.spaces_nil rfl hscore)
      (delimits_colon _) _ (Json.delimits_cons Json.endsNumber_brace [])
    exact takes_end Json.spaces_nil false budget
  · simp [fieldValue, furtherKey]
    omega

/-! ### The whole response -/

theorem takes_predictions_end (hw : Spaces w) (first : Bool) (budget : Nat) :
    Takes (fun cursor => readItems first cursor (budget + 1)) (w ++ [ascii ']']) [] := by
  intro here rest hrest
  refine ⟨(here.past w).advance (ascii ']'), ?_⟩
  simp only [List.append_assoc, List.singleton_append, readItems, Json.hasItem_end hw, bind,
    Except.bind]
  rfl

/-- The bytes of the predictions behind the first one. -/
def furtherPredictions (style : Style) (predictions : List Prediction) : List UInt8 :=
  predictions.flatMap fun prediction =>
    ascii ',' :: (Json.gap style ++ Utf8.encode (renderPrediction style prediction))

theorem encode_renderPredictions (prediction : Prediction) (rest : List Prediction) :
    Utf8.encode (renderPredictions style (prediction :: rest)) =
      Utf8.encode (renderPrediction style prediction) ++ furtherPredictions style rest := by
  induction rest generalizing prediction with
  | nil => simp [renderPredictions, furtherPredictions]
  | cons next rest ih =>
      simp only [renderPredictions, Utf8.encode_append, ih, Json.encode_itemSeparator]
      simp [furtherPredictions]

theorem delimits_further (predictions : List Prediction) :
    Delimits (furtherPredictions style predictions ++ [ascii ']']) := by
  cases predictions with
  | nil => exact Json.delimits_cons Json.endsNumber_bracket []
  | cons prediction rest => exact Json.delimits_cons Json.endsNumber_comma _

/-- One more prediction, and then the others. -/
theorem takes_item {first : Bool} {budget : Nat} {predictions : List Prediction}
    (hk : ∀ here rest, ∃ here', Cursor.hasItem first ⟨here, k ++ (s ++ rest)⟩ =
      .ok (true, ⟨here', s ++ rest⟩))
    (hs : Takes readPrediction s prediction)
    (hr : Takes (fun cursor => readItems false cursor budget) r predictions)
    (hdelimits : Delimits r) :
    Takes (fun cursor => readItems first cursor (budget + 1)) (k ++ (s ++ r))
      (prediction :: predictions) := by
  intro here rest hrest
  obtain ⟨there, hk⟩ := hk here (r ++ rest)
  obtain ⟨behind, hs⟩ := hs there (r ++ rest) (hdelimits rest)
  obtain ⟨last, hr⟩ := hr behind rest hrest
  refine ⟨last, ?_⟩
  simp only at hr
  simp only [List.append_assoc, readItems, hk, hs, hr, bind, Except.bind]

theorem hasItem_further (prediction : Prediction) (here : Position) (rest : List UInt8) :
    ∃ here', Cursor.hasItem false ⟨here, (ascii ',' :: Json.gap style) ++
        (Utf8.encode (renderPrediction style prediction) ++ rest)⟩ =
      .ok (true, ⟨here', Utf8.encode (renderPrediction style prediction) ++ rest⟩) := by
  rw [encode_renderPrediction]
  exact ⟨_, Json.hasItem_next Json.spaces_nil (Json.spaces_gap style) rfl (by decide)⟩

theorem hasItem_firstPrediction (hw : Spaces w) (prediction : Prediction) (here : Position)
    (rest : List UInt8) :
    ∃ here', Cursor.hasItem true ⟨here, w ++
        (Utf8.encode (renderPrediction style prediction) ++ rest)⟩ =
      .ok (true, ⟨here', Utf8.encode (renderPrediction style prediction) ++ rest⟩) := by
  rw [encode_renderPrediction]
  exact ⟨_, Json.hasItem_first hw rfl (by decide)⟩

theorem takes_further {predictions : List Prediction} (h : Scores style score predictions)
    (budget : Nat) :
    Takes (fun cursor => readItems false cursor (budget + predictions.length + 1))
      (furtherPredictions style predictions ++ [ascii ']'])
      (predictions.map (readBack style score)) := by
  induction predictions with
  | nil => exact takes_predictions_end Json.spaces_nil false budget
  | cons prediction predictions ih =>
      obtain ⟨⟨hwritable, hscore⟩, hrest⟩ := List.forall_mem_cons.mp h
      have hitem := takes_item (hasItem_further prediction)
        (takes_renderPrediction hwritable hscore) (ih hrest)
        (delimits_further predictions)
      simpa [furtherPredictions, Nat.add_assoc] using hitem

/-- What is written for a list of predictions is taken up to the end of the list. -/
theorem takes_items {predictions : List Prediction} (hw : Spaces w)
    (h : Scores style score predictions) (budget : Nat) :
    Takes (fun cursor => readItems true cursor (budget + predictions.length + 1))
      (w ++ (Utf8.encode (renderPredictions style predictions) ++ [ascii ']']))
      (predictions.map (readBack style score)) := by
  cases predictions with
  | nil => exact takes_predictions_end hw true budget
  | cons prediction predictions =>
      obtain ⟨⟨hwritable, hscore⟩, hrest⟩ := List.forall_mem_cons.mp h
      have hitem := takes_item (hasItem_firstPrediction hw prediction)
        (takes_renderPrediction hwritable hscore) (takes_further hrest budget)
        (delimits_further predictions)
      simpa [encode_renderPredictions, Nat.add_assoc] using hitem

theorem length_le_renderPredictions (style : Style) (predictions : List Prediction) :
    predictions.length ≤ (Utf8.encode (renderPredictions style predictions)).length := by
  have hfurther : ∀ rest : List Prediction,
      rest.length ≤ (furtherPredictions style rest).length := by
    intro rest
    induction rest with
    | nil => exact Nat.le_refl 0
    | cons prediction rest ih =>
        simp only [furtherPredictions, List.flatMap_cons, List.length_append,
          List.length_cons] at ih ⊢
        omega
  cases predictions with
  | nil => exact Nat.zero_le _
  | cons prediction rest =>
      have hle := hfurther rest
      rw [encode_renderPredictions, encode_renderPrediction]
      simp only [List.length_append, List.length_cons]
      omega

theorem takes_list {predictions : List Prediction} (hw : Spaces w)
    (h : Scores style score predictions) :
    Takes readPredictions
      (w ++ ascii '[' :: (Utf8.encode (renderPredictions style predictions) ++ [ascii ']']))
      (predictions.map (readBack style score)) := by
  intro here rest hrest
  have hlength := length_le_renderPredictions style predictions
  obtain ⟨here', hitems⟩ := takes_items Json.spaces_nil h
    ((Utf8.encode (renderPredictions style predictions) ++ [ascii ']'] ++ rest).length + 1 -
      predictions.length) ((here.past w).advance (ascii '[')) rest hrest
  refine ⟨here', ?_⟩
  have hbudget : (Utf8.encode (renderPredictions style predictions) ++ [ascii ']'] ++ rest).length +
      1 - predictions.length + predictions.length + 1 = (ascii '[' ::
        (Utf8.encode (renderPredictions style predictions) ++ [ascii ']'] ++ rest)).length + 1 := by
    simp only [List.length_append, List.length_cons]
    omega
  simp only [hbudget] at hitems
  unfold readPredictions
  rw [List.append_assoc, List.cons_append, Json.token_spaces hw rfl]
  exact hitems

/-- The bytes of a list of predictions. -/
def listBytes (style : Style) (predictions : List Prediction) : List UInt8 :=
  ascii '[' :: (Utf8.encode (renderPredictions style predictions) ++ [ascii ']'])

theorem readMembers_end {predictions : List Prediction} (here : Position) (rest : List UInt8)
    (budget : Nat) :
    readMembers false (some predictions) ⟨here, ascii '}' :: rest⟩ (budget + 1) =
      .ok (⟨predictions⟩, ⟨here.advance (ascii '}'), rest⟩) := by
  have hend : Cursor.nextKey false ⟨here, [] ++ ascii '}' :: rest⟩ =
      .ok (none, ⟨here, ascii '}' :: rest⟩) := Json.nextKey_end Json.spaces_nil false
  rw [List.nil_append] at hend
  simp only [readMembers, hend, bind, Except.bind]
  rfl

/-- The only member of a response, up to the end of the response. -/
theorem takes_members {predictions : List Prediction} (h : Scores style score predictions)
    (budget : Nat) :
    Takes (fun cursor => readMembers true none cursor (budget + 2))
      (quoted style predictionsKey ++
        (fieldValue style (listBytes style predictions) ++ [ascii '}']))
      ⟨predictions.map (readBack style score)⟩ := by
  intro here rest hrest
  have hdelimits : Delimits (fieldValue style (listBytes style predictions)) := delimits_colon _
  obtain ⟨there, hkey⟩ := takes_quoted style predictionsKey here _
    (hdelimits (ascii '}' :: rest))
  obtain ⟨behind, hlist⟩ := takes_list (Json.spaces_gap style) h (there.advance (ascii ':'))
    (ascii '}' :: rest) (Json.delimits_cons Json.endsNumber_brace [] rest)
  have hcolon : Cursor.colon ⟨there, fieldValue style (listBytes style predictions) ++
      ascii '}' :: rest⟩ = .ok ⟨there.advance (ascii ':'),
        Json.gap style ++ listBytes style predictions ++ ascii '}' :: rest⟩ :=
    Json.colon_spaces Json.spaces_nil
  have hlist' : readPredictions ⟨there.advance (ascii ':'), Json.gap style ++
      listBytes style predictions ++ ascii '}' :: rest⟩ =
        .ok (predictions.map (readBack style score), ⟨behind, ascii '}' :: rest⟩) := hlist
  refine ⟨behind.advance (ascii '}'), ?_⟩
  simp only [List.append_assoc, List.singleton_append]
  simp only [readMembers, hkey, bind, Except.bind, checkNew, hcolon, hlist']
  exact readMembers_end behind rest budget

theorem encode_render (predictions : List Prediction) :
    Utf8.encode (render style ⟨predictions⟩) =
      ascii '{' :: (quoted style predictionsKey ++
        (fieldValue style (listBytes style predictions) ++ [ascii '}'])) := by
  have htext : render style ⟨predictions⟩ = '{' :: (Json.renderString style predictionsKey ++
      style.keySeparator ++ ('[' :: renderPredictions style predictions ++ [']'])) ++ ['}'] := by
    simp [render]
  rw [htext, Json.encode_between (by decide) (by decide), Utf8.encode_append, Utf8.encode_append,
    Json.encode_between (by decide) (by decide), Json.encode_renderString,
    Json.encode_keySeparator]
  simp [quoted, fieldValue, listBytes]

/-- The text of a response is read as its predictions: numbers in identifiers are spelled as the
style writes them, and scores are the numbers that their literals stand for. -/
theorem decode_render {predictions : List Prediction} (h : Scores style score predictions) :
    decode (Utf8.encode (render style ⟨predictions⟩)) =
      .ok ⟨predictions.map (readBack style score)⟩ := by
  have hnil : Json.Delimited [] := Json.delimited_of_spaces Json.spaces_nil
  obtain ⟨here', hmembers⟩ := takes_members h ((quoted style predictionsKey ++
    (fieldValue style (listBytes style predictions) ++ [ascii '}'])).length)
    (Position.start.advance (ascii '{')) [] hnil
  rw [List.append_nil] at hmembers
  have hread : read ⟨.start, ascii '{' :: (quoted style predictionsKey ++
      (fieldValue style (listBytes style predictions) ++ [ascii '}']))⟩ =
        .ok (⟨predictions.map (readBack style score)⟩, ⟨here', []⟩) := by
    unfold read
    rw [Json.token_cons rfl]
    exact hmembers
  rw [encode_render]
  unfold decode Cursor.start
  rw [hread]
  rfl

end Response

end QueryLabel
