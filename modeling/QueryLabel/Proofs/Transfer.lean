import QueryLabel.Proofs.Engine
import QueryLabel.Transfer

/-!
Transfers between two streams.  Whatever the pieces that the reader delivers and the portions that
the writer takes, a transfer writes nothing, or a beginning of the response, or all of it
(`transfer_allOrPrefix`).  The write loop keeps `Sink.Took`: what the writer has taken is a
beginning of what it was offered.
-/

namespace QueryLabel

namespace Sink

/-- A writer that has taken some bytes since, and nothing else has happened to it. -/
structure Took (sink : Sink) (taken : List UInt8) (later : Sink) : Prop where
  written : later.written = sink.written ++ taken
  room : later.room = sink.room.map (· - taken.length)
  whenFull : later.whenFull = sink.whenFull
  flushFailure : later.flushFailure = sink.flushFailure
  flushes : later.flushes = sink.flushes
  portions : ∀ portion ∈ later.portions, portion ∈ sink.portions

theorem Took.refl (sink : Sink) : sink.Took [] sink where
  written := (List.append_nil _).symm
  room := by cases sink.room <;> rfl
  whenFull := rfl
  flushFailure := rfl
  flushes := rfl
  portions := fun _ h => h

theorem Took.trans {first next last : Sink} {s r : List UInt8} (h : first.Took s next)
    (h' : next.Took r last) : first.Took (s ++ r) last where
  written := by rw [h'.written, h.written, List.append_assoc]
  room := by
    rw [h'.room, h.room]
    cases first.room with
    | none => rfl
    | some room => simp [Nat.sub_sub]
  whenFull := h'.whenFull.trans h.whenFull
  flushFailure := h'.flushFailure.trans h.flushFailure
  flushes := h'.flushes.trans h.flushes
  portions := fun portion hportion => h.portions portion (h'.portions portion hportion)

theorem fitting_le (sink : Sink) (count : Nat) : sink.fitting count ≤ count :=
  Nat.min_le_right _ _

theorem capacity_le (sink : Sink) (count : Nat) : sink.capacity count ≤ sink.fitting count :=
  Nat.min_le_right _ _

/-- One write takes a beginning of the bytes that it is offered. -/
theorem took_take {sink : Sink} {count : Nat} {bytes : List UInt8} (h : count ≤ bytes.length) :
    sink.Took (bytes.take count) (sink.take count bytes) where
  written := rfl
  room := by rw [List.length_take_of_le h]; rfl
  whenFull := rfl
  flushFailure := rfl
  flushes := rfl
  portions := fun _ hportion => List.mem_of_mem_tail hportion

/-- A writer that takes something at every write takes nothing only if it is full. -/
theorem fitting_eq_zero {sink : Sink} {count : Nat}
    (hportions : ∀ portion ∈ sink.portions, 0 < portion) (hcount : 0 < count)
    (h : sink.capacity count = 0) : sink.fitting count = 0 := by
  have hhead : 0 < sink.portions.headD count := by
    cases hlist : sink.portions with
    | nil => exact hcount
    | cons portion rest => exact hportions portion (hlist ▸ List.mem_cons_self)
  unfold capacity at h
  omega

/-- What fits behind the bytes of one write. -/
theorem fitting_take {sink : Sink} {count : Nat} {bytes : List UInt8}
    (h : count ≤ sink.fitting bytes.length) :
    count + (sink.take count bytes).fitting (bytes.length - count) =
      sink.fitting bytes.length := by
  unfold fitting at h ⊢
  cases hroom : sink.room with
  | none =>
      simp only [take, hroom, Option.map_none, Option.getD_none] at h ⊢
      omega
  | some room =>
      simp only [take, hroom, Option.map_some, Option.getD_some] at h ⊢
      omega

/-- A writer has room for all of some bytes. -/
def Holds (sink : Sink) (bytes : List UInt8) : Prop :=
  sink.fitting bytes.length = bytes.length

instance (sink : Sink) (bytes : List UInt8) : Decidable (sink.Holds bytes) :=
  inferInstanceAs (Decidable (_ = _))

/-- Writing takes the bytes that fit, and succeeds if these are all. -/
theorem writeAll_eq {sink : Sink} (hportions : ∀ portion ∈ sink.portions, 0 < portion)
    (bytes : List UInt8) :
    ∃ later, sink.Took (bytes.take (sink.fitting bytes.length)) later ∧
      sink.writeAll bytes =
        (if sink.Holds bytes then .ok () else .error sink.whenFull.message, later) := by
  fun_induction writeAll sink bytes with
  | case1 sink =>
      refine ⟨sink, ?_, by simp [Holds, fitting]⟩
      rw [List.take_nil]
      exact .refl sink
  | case2 sink b rest hcapacity =>
      have hfull : sink.fitting (b :: rest).length = 0 :=
        fitting_eq_zero hportions (Nat.succ_pos rest.length) hcapacity
      have hnot : ¬ sink.Holds (b :: rest) := by
        intro hholds
        rw [Holds, hfull] at hholds
        cases hholds
      refine ⟨sink, ?_, by rw [if_neg hnot]⟩
      rw [hfull]
      exact .refl sink
  | case3 sink b rest count hcapacity ih =>
      have hcount : count + 1 ≤ sink.fitting (b :: rest).length :=
        Nat.le_trans (Nat.le_of_eq hcapacity.symm) (sink.capacity_le _)
      have hle := sink.fitting_le (b :: rest).length
      have htake : sink.Took _ (sink.take (count + 1) (b :: rest)) :=
        took_take (Nat.le_trans hcount hle)
      obtain ⟨later, htook, hwrite⟩ := ih fun portion hportion =>
        hportions portion (htake.portions portion hportion)
      have hfitting := fitting_take hcount
      have hlength : (rest.drop count).length = (b :: rest).length - (count + 1) := by simp
      have hall : (sink.take (count + 1) (b :: rest)).Holds (rest.drop count) ↔
          sink.Holds (b :: rest) := by
        unfold Holds
        rw [hlength]
        omega
      rw [hlength] at htook
      refine ⟨later, ?_, ?_⟩
      · rw [← hfitting, List.take_add]
        exact htake.trans htook
      · rw [hwrite, htake.whenFull]
        simp only [hall]

/-- How the delivery of some bytes ends: the writer has to hold them, and to be flushed. -/
def verdict (sink : Sink) (bytes : List UInt8) : Except String Unit :=
  if sink.Holds bytes then
    match sink.flushFailure with
    | none => .ok ()
    | some message => .error message
  else .error sink.whenFull.message

theorem flush_eq (sink : Sink) :
    sink.flush = (match sink.flushFailure with
      | none => .ok ()
      | some message => .error message, { sink with flushes := sink.flushes + 1 }) := by
  unfold flush
  cases sink.flushFailure <;> rfl

/-- A delivery writes the bytes that fit, and flushes once if these are all. -/
theorem deliver_eq {sink : Sink} (hportions : ∀ portion ∈ sink.portions, 0 < portion)
    (bytes : List UInt8) :
    (sink.deliver bytes).1 = sink.verdict bytes ∧
      (sink.deliver bytes).2.written =
        sink.written ++ bytes.take (sink.fitting bytes.length) ∧
      (sink.deliver bytes).2.flushes = sink.flushes + if sink.Holds bytes then 1 else 0 := by
  obtain ⟨later, htook, hwrite⟩ := writeAll_eq hportions bytes
  unfold deliver verdict
  by_cases hholds : sink.Holds bytes
  · have hall : sink.writeAll bytes = (.ok (), later) := by rw [hwrite, if_pos hholds]
    rw [hall, if_pos hholds, if_pos hholds]
    simp only [flush_eq, htook.flushFailure, htook.written, htook.flushes, and_self]
  · have hsome : sink.writeAll bytes = (.error sink.whenFull.message, later) := by
      rw [hwrite, if_neg hholds]
    rw [hsome, if_neg hholds, if_neg hholds]
    exact ⟨rfl, htook.written, htook.flushes⟩

end Sink

namespace Engine

/-- What an output leaves behind when it goes to a writer: the first bytes of it, as many as the
writer has room for; one flush, if that is all of it, and none otherwise; and success exactly if
it was all written and the flush succeeded. -/
structure Delivered (sink : Sink) (output : List UInt8) (t : Transfer) : Prop where
  written : t.sink.written =
    sink.written ++ output.take (min (sink.room.getD output.length) output.length)
  flushes : t.sink.flushes = sink.flushes + if sink.Holds output then 1 else 0
  ok_iff : (∃ sizes, t.result = .ok sizes) ↔ sink.Holds output ∧ sink.flushFailure = none
  failed : ∀ e, t.result = .error e → ∃ message, e = .io writingOutput message

/-- A transfer is all or a beginning: a failure of the reader comes first, then an error of the
run on what was read, and both leave the writer as it was. -/
structure AllOrPrefix (engine : Engine) (source : Source) (sink : Sink) (t : Transfer) : Prop where
  broken : ∀ message, source.failure = some message →
    t.result = .error (.io readingInput message) ∧ t.sink = sink
  refused : source.failure = none → ∀ e, engine.run source.chunks.flatten = .error e →
    t.result = .error e ∧ t.sink = sink
  answered : source.failure = none → ∀ text, engine.run source.chunks.flatten = .ok text →
    Delivered sink (Utf8.encode text) t

section Transfer

variable {engine : Engine} {source : Source} {sink : Sink} {message : String} {text : Text}

theorem transfer_of_failure (hchunks : ∀ chunk ∈ source.chunks, chunk ≠ [])
    (hfailure : source.failure = some message) :
    engine.transfer source sink = ⟨.error (.io readingInput message), sink⟩ := by
  simp only [transfer, source.readAll_eq hchunks, hfailure]

theorem transfer_of_error (hchunks : ∀ chunk ∈ source.chunks, chunk ≠ [])
    (hfailure : source.failure = none) {e : PredictError}
    (hrun : engine.run source.chunks.flatten = .error e) :
    engine.transfer source sink = ⟨.error e, sink⟩ := by
  simp only [transfer, source.readAll_eq hchunks, hfailure, hrun]

/-- The result of a transfer whose response is known is the verdict of the writer. -/
theorem transfer_of_ok (hchunks : ∀ chunk ∈ source.chunks, chunk ≠ [])
    (hportions : ∀ portion ∈ sink.portions, 0 < portion) (hfailure : source.failure = none)
    (hrun : engine.run source.chunks.flatten = .ok text) :
    let output := Utf8.encode text
    let t := engine.transfer source sink
    t.result = (match sink.verdict output with
      | .ok () => .ok (source.chunks.flatten.length, output.length)
      | .error message => .error (.io writingOutput message)) ∧
    t.sink.written = sink.written ++ output.take (sink.fitting output.length) ∧
    t.sink.flushes = sink.flushes + if sink.Holds output then 1 else 0 := by
  intro output t
  obtain ⟨hverdict, hwritten, hflushes⟩ := Sink.deliver_eq hportions output
  cases hdeliver : sink.deliver output with
  | mk result later =>
      rw [hdeliver] at hverdict hwritten hflushes
      rw [← hverdict]
      simp only [t, transfer, source.readAll_eq hchunks, hfailure, hrun]
      change sink.deliver (Utf8.encode text) = _ at hdeliver
      rw [hdeliver]
      cases result <;> exact ⟨rfl, hwritten, hflushes⟩

/-- An output that is known is delivered. -/
theorem delivered_of_ok (hchunks : ∀ chunk ∈ source.chunks, chunk ≠ [])
    (hportions : ∀ portion ∈ sink.portions, 0 < portion) (hfailure : source.failure = none)
    (hrun : engine.run source.chunks.flatten = .ok text) :
    Delivered sink (Utf8.encode text) (engine.transfer source sink) := by
  obtain ⟨hresult, hwritten, hflushes⟩ := transfer_of_ok hchunks hportions hfailure hrun
  unfold Sink.verdict at hresult
  refine ⟨hwritten, hflushes, ?_, ?_⟩
  · rw [hresult]
    by_cases hholds : sink.Holds (Utf8.encode text) <;> cases hflush : sink.flushFailure <;>
      simp [hholds]
  · intro e he
    rw [hresult] at he
    split at he
    · cases he
    · cases he
      exact ⟨_, rfl⟩

/-- Neither the pieces of the input nor the portions of the output make a difference. -/
theorem transfer_congr {chunks : List (List UInt8)} {portions : List Nat}
    (hchunks : ∀ chunk ∈ source.chunks, chunk ≠ [])
    (hportions : ∀ portion ∈ sink.portions, 0 < portion)
    (hchunks' : ∀ chunk ∈ chunks, chunk ≠ []) (hportions' : ∀ portion ∈ portions, 0 < portion)
    (hflatten : chunks.flatten = source.chunks.flatten) :
    let t := engine.transfer source sink
    let other := engine.transfer { source with chunks } { sink with portions }
    other.result = t.result ∧ other.sink.written = t.sink.written ∧
      other.sink.flushes = t.sink.flushes := by
  intro t other
  cases hfailure : source.failure with
  | some message =>
      have ht : t = _ := transfer_of_failure hchunks hfailure
      have hother : other = _ := transfer_of_failure hchunks' hfailure
      rw [ht, hother]
      exact ⟨rfl, rfl, rfl⟩
  | none =>
      cases hrun : engine.run source.chunks.flatten with
      | error e =>
          have ht : t = _ := transfer_of_error hchunks hfailure hrun
          have hother : other = _ := @transfer_of_error engine { source with chunks } _ hchunks'
            hfailure e (hflatten.symm ▸ hrun)
          rw [ht, hother]
          exact ⟨rfl, rfl, rfl⟩
      | ok text =>
          obtain ⟨hresult, hwritten, hflushes⟩ :=
            transfer_of_ok hchunks hportions hfailure hrun
          obtain ⟨hresult', hwritten', hflushes'⟩ :=
            @transfer_of_ok engine { source with chunks } { sink with portions } text hchunks'
              hportions' hfailure (hflatten.symm ▸ hrun)
          refine ⟨?_, hwritten'.trans hwritten.symm, hflushes'.trans hflushes.symm⟩
          rw [hresult, hresult', hflatten]
          rfl

end Transfer

/-- Whatever the pieces that the reader delivers and the portions that the writer takes, a
transfer is all or a beginning, and neither the pieces nor the portions make a difference to its
result, to what is written and to the number of flushes. -/
theorem transfer_allOrPrefix (engine : Engine) (source : Source) (sink : Sink)
    (hchunks : ∀ chunk ∈ source.chunks, chunk ≠ [])
    (hportions : ∀ portion ∈ sink.portions, 0 < portion) :
    AllOrPrefix engine source sink (engine.transfer source sink) ∧
      ∀ (chunks : List (List UInt8)) (portions : List Nat), (∀ chunk ∈ chunks, chunk ≠ []) →
        (∀ portion ∈ portions, 0 < portion) → chunks.flatten = source.chunks.flatten →
          let t := engine.transfer source sink
          let other := engine.transfer { source with chunks } { sink with portions }
          other.result = t.result ∧ other.sink.written = t.sink.written ∧
            other.sink.flushes = t.sink.flushes := by
  refine ⟨⟨?_, ?_, ?_⟩, ?_⟩
  · intro message hfailure
    rw [transfer_of_failure hchunks hfailure]
    exact ⟨rfl, rfl⟩
  · intro hfailure e hrun
    rw [transfer_of_error hchunks hfailure hrun]
    exact ⟨rfl, rfl⟩
  · intro hfailure text hrun
    exact delivered_of_ok hchunks hportions hfailure hrun
  · intro chunks portions hchunks' hportions' hflatten
    exact transfer_congr hchunks hportions hchunks' hportions' hflatten

/-- An empty request in two pieces, and a writer with room for the first bytes of the answer, the
first two of them at once. -/
theorem transfer_allOrPrefix_short :
    let engine : Engine := ⟨.constant, ⟨none⟩, .compact⟩
    let source : Source := ⟨[[Text.ascii '{'], [Text.ascii '}']], none⟩
    let sink : Sink := { room := some 5, portions := [2] }
    (∀ chunk ∈ source.chunks, chunk ≠ []) ∧ (∀ portion ∈ sink.portions, 0 < portion) ∧
      AllOrPrefix engine source sink (engine.transfer source sink) ∧
      ∀ (chunks : List (List UInt8)) (portions : List Nat), (∀ chunk ∈ chunks, chunk ≠ []) →
        (∀ portion ∈ portions, 0 < portion) → chunks.flatten = source.chunks.flatten →
          let t := engine.transfer source sink
          let other := engine.transfer { source with chunks } { sink with portions }
          other.result = t.result ∧ other.sink.written = t.sink.written ∧
            other.sink.flushes = t.sink.flushes := by
  intro engine source sink
  have hchunks : ∀ chunk ∈ source.chunks, chunk ≠ [] := by simp [source]
  have hportions : ∀ portion ∈ sink.portions, 0 < portion := by simp [sink]
  exact ⟨hchunks, hportions, transfer_allOrPrefix engine source sink hchunks hportions⟩

end Engine

end QueryLabel
