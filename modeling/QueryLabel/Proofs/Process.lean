import QueryLabel.Process
import QueryLabel.Proofs.Config.Layers
import QueryLabel.Proofs.Transfer

/-!
How a run of the program ends.  The settings come first, then the model, then the request, and each
of them has its own way to fail; a run that gets past them prints the whole response
(`run_ends`).  Nothing else happens, but that a filter may crash.
-/

namespace QueryLabel

/-- A run ends with an error: it prints nothing, and reports a code and a message. -/
def Ending.Fails (ending : Ending) (status : Nat) (code message : String) : Prop :=
  ∃ log, ending = .exited
    { status, log, diagnostic := some ("error[" ++ code ++ "]: " ++ message) }

/-- A run ends well: it prints a text and reports nothing. -/
def Ending.Answers (ending : Ending) (text : Text) : Prop :=
  ∃ log, ending = .exited { status := 0, output := Utf8.encode text, log }

theorem Outcome.fails_failing (table : Filter.Table) (before : List Event) (e : PredictError) :
    (Ending.exited (failing table before e)).Fails e.exitStatus e.code.name e.message :=
  ⟨_, rfl⟩

/-! ### The engine -/

namespace Engine

/-- A writer that takes everything gets the whole response. -/
theorem transfer_unlimited {engine : Engine} {source : Source} {input : List UInt8} {text : Text}
    (hread : source.readAll = .ok input) (hrun : engine.run input = .ok text) :
    (engine.transfer source {}).result = .ok (input.length, (Utf8.encode text).length) ∧
      (engine.transfer source {}).sink.written = Utf8.encode text := by
  obtain ⟨hverdict, hwritten, -⟩ :=
    @Sink.deliver_eq {} (List.forall_mem_nil _) (Utf8.encode text)
  have hfitting : ({} : Sink).fitting (Utf8.encode text).length = (Utf8.encode text).length :=
    Nat.min_self _
  have hholds : ({} : Sink).Holds (Utf8.encode text) := hfitting
  rw [hfitting, List.take_length, List.nil_append] at hwritten
  rw [Sink.verdict, if_pos hholds] at hverdict
  cases hdeliver : ({} : Sink).deliver (Utf8.encode text) with
  | mk result later =>
      rw [hdeliver] at hverdict hwritten
      simp only at hverdict hwritten
      subst hverdict
      simp only [transfer, hread, hrun, hdeliver]
      exact ⟨trivial, hwritten⟩

variable {engine : Engine} {table : Filter.Table} {source : Source} {input : List UInt8}

theorem fails_outcome {e : PredictError} (hread : source.readAll = .ok input)
    (hrun : engine.run input = .error e) :
    (Ending.exited (engine.outcome table source)).Fails e.exitStatus e.code.name e.message := by
  have hresult : (engine.transfer source {}).result = .error e := by
    simp only [transfer, hread, hrun]
  unfold outcome
  simp only [hresult]
  exact Outcome.fails_failing _ _ e

theorem answers_outcome {text : Text} (hread : source.readAll = .ok input)
    (hrun : engine.run input = .ok text) :
    (Ending.exited (engine.outcome table source)).Answers text := by
  obtain ⟨hresult, hwritten⟩ := transfer_unlimited hread hrun
  unfold outcome
  simp only [hresult, hwritten]
  exact ⟨_, rfl⟩

end Engine

/-! ### Settings that are checked -/

namespace Config

variable {config : Config} {files : FileSystem}

/-- The path of a model leads nowhere. -/
def ModelMissing (config : Config) (files : FileSystem) (path : String) : Prop :=
  config.modelPath = some path ∧ files.pathExists path = false

/-- The engine that valid settings describe, if the path of the model leads somewhere. -/
def engine (config : Config) : Engine :=
  ⟨.constant, ⟨config.modelPath⟩, config.style⟩

theorem ofConfig_of_missing {path : String} (h : config.ModelMissing files path) :
    Engine.ofConfig files config =
      .error (.model (.loadFailed path "file does not exist")) := by
  obtain ⟨hmodel, hexists⟩ := h
  have hload : config.loadModel files = .error (.loadFailed path "file does not exist") := by
    simp [loadModel, hmodel, hexists]
  rw [Engine.ofConfig, hload]
  rfl

theorem loadModel_of_present (h : ∀ path, ¬ config.ModelMissing files path) :
    config.loadModel files = .ok ⟨config.modelPath⟩ := by
  unfold loadModel
  cases hmodel : config.modelPath with
  | none => rfl
  | some path =>
      have hexists : files.pathExists path = true :=
        Bool.not_eq_false _ ▸ fun hmissing => h path ⟨hmodel, hmissing⟩
      simp only [hexists, if_true]

theorem ofConfig_of_present (hvalid : config.validate = .ok ())
    (h : ∀ path, ¬ config.ModelMissing files path) :
    Engine.ofConfig files config = .ok config.engine := by
  rw [Engine.ofConfig, loadModel_of_present h, buildPredictor_of_validate hvalid]
  rfl

end Config

/-! ### Runs -/

namespace Surroundings

/-- How a run with some settings ends.  Whatever the input holds, settings that cannot be used are
reported first, and then a model that is missing; a request that is refused is reported next, and
else the whole response is printed.  Or else the settings crash the run, and a run crashes only on a
filter with a piece that is shifted. -/
structure Ends (s : Surroundings) (settings : CommandSettings) : Prop where
  unusable : ∀ e, settings.resolve s.files s.environment = .error (.failed e) →
    s.run.Fails 2 "CONFIG_ERROR" (PredictError.config e).message
  missing : ∀ config path, settings.resolve s.files s.environment = .ok config →
    config.ModelMissing s.files path →
      s.run.Fails 1 "MODEL_ERROR"
        (PredictError.model (.loadFailed path "file does not exist")).message
  refused : ∀ config input e, settings.resolve s.files s.environment = .ok config →
    (∀ path, ¬ config.ModelMissing s.files path) → s.input.readAll = .ok input →
      Request.decode input = .error e →
        s.run.Fails 1 "INPUT_ERROR" (PredictError.input e).message
  answered : ∀ config input request, settings.resolve s.files s.environment = .ok config →
    (∀ path, ¬ config.ModelMissing s.files path) → s.input.readAll = .ok input →
      Request.decode input = .ok request →
        ∃ text, config.engine.run input = .ok text ∧ s.run.Answers text
  crashes : settings.resolve s.files s.environment = .error .crashed → s.run = .crashed
  crashed : s.run = .crashed → ∃ filter,
    Config.Gives s.files settings.config s.environment ⟨settings.style, settings.logLevel⟩ filter ∧
      ∃ piece ∈ Filter.splitCommas filter.toList, Filter.Shifted piece

variable {s : Surroundings} {settings : CommandSettings}

theorem run_of_parse (h : Command.parse s.words = .ok (.run settings)) :
    s.run = settings.ending s.environment s.files s.input := by
  unfold run
  rw [h]

theorem run_of_resolve (h : Command.parse s.words = .ok (.run settings)) {config : Config}
    (hresolve : settings.resolve s.files s.environment = .ok config) :
    s.run = .exited (config.outcome s.files s.input) := by
  rw [run_of_parse h, CommandSettings.ending, hresolve]

/-- Every run that asks for predictions ends in one of these ways. -/
theorem run_ends (s : Surroundings) (settings : CommandSettings)
    (hwords : Command.parse s.words = .ok (.run settings)) : s.Ends settings := by
  -- Settings that were found are valid, so they have an engine if the model is there.
  have hengine : ∀ config, settings.resolve s.files s.environment = .ok config →
      (∀ path, ¬ config.ModelMissing s.files path) →
        s.run = .exited (config.engine.outcome config.table s.input) := by
    intro config hresolve hpresent
    have hvalid := Config.validate_of_resolve hresolve
    rw [run_of_resolve hwords hresolve, Config.outcome,
      Config.ofConfig_of_present hvalid hpresent]
  refine ⟨?_, ?_, ?_, ?_, ?_, ?_⟩
  · intro e hresolve
    rw [run_of_parse hwords, CommandSettings.ending, hresolve]
    exact Outcome.fails_failing _ _ (.config e)
  · intro config path hresolve hmissing
    rw [run_of_resolve hwords hresolve, Config.outcome, Config.ofConfig_of_missing hmissing]
    exact Outcome.fails_failing _ _ (.model _)
  · intro config input e hresolve hpresent hread hdecode
    rw [hengine config hresolve hpresent]
    apply Engine.fails_outcome hread (e := .input e)
    rw [Config.engine, Engine.run_constant, hdecode]
  · intro config input request hresolve hpresent hread hdecode
    have hrun : config.engine.run input =
        .ok (Response.render config.style ⟨request.placeholders⟩) := by
      rw [Config.engine, Engine.run_constant, hdecode]
    refine ⟨_, hrun, ?_⟩
    rw [hengine config hresolve hpresent]
    exact Engine.answers_outcome hread hrun
  · intro hcrash
    rw [run_of_parse hwords, CommandSettings.ending, hcrash]
  · intro hcrash
    rw [run_of_parse hwords, CommandSettings.ending] at hcrash
    split at hcrash
    · cases hcrash
    · cases hcrash
    · next hresolve =>
        obtain ⟨filter, hgives, hfilter⟩ := Config.exists_filter_of_crashed hresolve
        exact ⟨filter, hgives, Filter.exists_shifted_of_crashed hfilter⟩

/-- A run without options, in an environment that says nothing. -/
theorem run_ends_plain :
    let s : Surroundings := ⟨[], none, .unseen (.error .notFound),
      .ofBytes ("\x7b\x7d".toList.map Text.ascii)⟩
    Command.parse s.words = .ok (.run {}) ∧ s.Ends {} := by
  intro s
  exact ⟨rfl, run_ends s {} rfl⟩

/-- A filter in the environment that begins with an ideographic space crashes the same run, which
then ends in none of these ways. -/
theorem run_crashes :
    let s : Surroundings := ⟨[], some "\u3000a=info", .unseen (.error .notFound),
      .ofBytes ("\x7b\x7d".toList.map Text.ascii)⟩
    Command.parse s.words = .ok (.run {}) ∧
      (∀ status code message, ¬ s.run.Fails status code message) ∧
      ∀ text, ¬ s.run.Answers text := by
  intro s
  have hcrash : s.run = .crashed := rfl
  refine ⟨rfl, ?_, ?_⟩
  · rintro status code message ⟨log, heq⟩
    rw [hcrash] at heq
    cases heq
  · rintro text ⟨log, heq⟩
    rw [hcrash] at heq
    cases heq

end Surroundings

end QueryLabel
