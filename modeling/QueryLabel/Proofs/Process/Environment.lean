import QueryLabel.FileTree
import QueryLabel.Proofs.Process

/-!
What the environment changes.  It has a say in the log only, except that a run whose settings lack
a filter that can be read is refused without one in the environment (`run_environment`).
-/

namespace QueryLabel

/-- What is left of an outcome without its log and its messages. -/
def Outcome.visible (outcome : Outcome) : Nat × List UInt8 :=
  (outcome.status, outcome.output)

/-- What is left of an ending; nothing if it is a crash. -/
def Ending.visible? : Ending → Option (Nat × List UInt8)
  | exited outcome => some outcome.visible
  | crashed => none

/-- What is left of a run whose settings are refused. -/
def refusal : Nat × List UInt8 :=
  (ErrorCode.config.exitStatus, [])

theorem Engine.visible_outcome (engine : Engine) (table other : Filter.Table) (input : Source) :
    (engine.outcome table input).visible = (engine.outcome other input).visible := by
  unfold outcome
  simp only
  cases (engine.transfer input {}).result <;> rfl

/-- A transfer with the constant predictor never fails because of the configuration. -/
theorem Engine.exitStatus_of_transfer {model : Model} {style : Style} {source : Source}
    {sink : Sink} {e : PredictError}
    (h : (transfer ⟨.constant, model, style⟩ source sink).result = .error e) :
    e.exitStatus = 1 := by
  unfold transfer at h
  cases hread : source.readAll with
  | error message =>
      simp only [hread] at h
      cases h
      rfl
  | ok input =>
      simp only [hread, run_constant] at h
      cases hdecode : Request.decode input with
      | error e =>
          simp only [hdecode] at h
          cases h
          rfl
      | ok request =>
          simp only [hdecode] at h
          -- What can still fail is the writer.
          split at h
          · cases h
          · cases h
            rfl

namespace Config

variable {config : Config}

/-- The level of the log does not show in the outcome of valid settings. -/
theorem visible_outcome (config : Config) (level : String) (files : FileSystem) (input : Source) :
    (outcome { config with logLevel := level } files input).visible =
      (config.outcome files input).visible := by
  have hengine : Engine.ofConfig files { config with logLevel := level } =
      Engine.ofConfig files config := rfl
  unfold outcome
  rw [hengine]
  cases Engine.ofConfig files config with
  | error e => rfl
  | ok engine => exact engine.visible_outcome _ _ input

/-- A run with valid settings does not end as if they were refused. -/
theorem visible_ne_refusal (hvalid : config.validate = .ok ()) (files : FileSystem)
    (input : Source) :
    (config.outcome files input).visible ≠ refusal := by
  have hstatus : (config.outcome files input).status ≠ ErrorCode.config.exitStatus := by
    by_cases hmissing : ∃ path, config.ModelMissing files path
    · obtain ⟨path, hmissing⟩ := hmissing
      rw [outcome, ofConfig_of_missing hmissing]
      exact Nat.ne_of_lt Nat.one_lt_two
    · rw [outcome, ofConfig_of_present hvalid fun path h => hmissing ⟨path, h⟩]
      unfold Engine.outcome
      simp only
      split
      · next e he =>
          have hstatus : e.exitStatus = 1 := Engine.exitStatus_of_transfer he
          exact Nat.ne_of_lt (Nat.lt_of_le_of_lt (Nat.le_of_eq hstatus) Nat.one_lt_two)
      · exact Nat.ne_of_lt Nat.zero_lt_two
  exact fun heq => hstatus (congrArg Prod.fst heq)

end Config

namespace CommandSettings

open Config (environmentFilter?)

/-- The settings of a run are accepted with a filter from the environment. -/
def Accepts (settings : CommandSettings) (files : FileSystem) (filter : Option String) : Prop :=
  ∃ config, Config.base files settings.config = .ok config ∧ config.Sound ∧
    (Config.parseFilter ((settings.logLevel <|> filter).getD config.logLevel)).toBool = true

/-- The settings of a run lack a filter: the command line gives none, and everything about the
settings below is right but their filter, which cannot be read. -/
def LacksFilter (settings : CommandSettings) (files : FileSystem) : Prop :=
  settings.logLevel = none ∧ ∃ config problem, Config.base files settings.config = .ok config ∧
    config.Sound ∧ Config.parseFilter config.logLevel = .error (.failed problem)

/-- What is left of a run whose settings are accepted. -/
def answer (settings : CommandSettings) (files : FileSystem) (input : Source) :
    Nat × List UInt8 :=
  match Config.base files settings.config with
  | .ok config =>
      (Config.outcome { config with style := settings.style.getD config.style } files
        input).visible
  | .error _ => refusal

variable {settings : CommandSettings} {environment other : Option String} {files : FileSystem}
  {input : Source}

/-- Settings are accepted if they are valid with all layers. -/
theorem accepts_iff {config : Config} (hbase : Config.base files settings.config = .ok config) :
    settings.Accepts files (environmentFilter? environment) ↔
      (config.layered environment ⟨settings.style, settings.logLevel⟩).validate = .ok () := by
  rw [Config.validate_eq_ok_iff]
  constructor
  · rintro ⟨config', hconfig, haccepts⟩
    rw [hbase] at hconfig
    cases hconfig
    exact haccepts
  · exact fun hvalid => ⟨config, hbase, hvalid⟩

theorem answer_eq {config : Config} (hbase : Config.base files settings.config = .ok config) :
    (Config.outcome (config.layered environment ⟨settings.style, settings.logLevel⟩) files
      input).visible = settings.answer files input := by
  rw [answer, hbase]
  exact Config.visible_outcome { config with style := settings.style.getD config.style } _ files
    input

/-- A run shows whether its settings are accepted, and nothing else of its environment. -/
theorem visible_ending (h : settings.ending environment files input ≠ .crashed) :
    (settings.Accepts files (environmentFilter? environment) →
      (settings.ending environment files input).visible? = some (settings.answer files input) ∧
        settings.answer files input ≠ refusal) ∧
      (¬ settings.Accepts files (environmentFilter? environment) →
        (settings.ending environment files input).visible? = some refusal) := by
  unfold ending resolve at h ⊢
  rcases Config.resolve_cases files settings.config environment
      ⟨settings.style, settings.logLevel⟩ with
    ⟨e, hbase, he⟩ | ⟨config, hbase, hchecked | ⟨hcrash, -⟩⟩
  · rw [he]
    refine ⟨?_, fun _ => rfl⟩
    rintro ⟨config, hconfig, -⟩
    rw [hbase] at hconfig
    cases hconfig
  · rw [hchecked] at h ⊢
    rw [accepts_iff hbase]
    cases hvalid : (config.layered environment ⟨settings.style, settings.logLevel⟩).validate with
    | ok u =>
        rw [Config.checked_eq_ok_iff.mpr ⟨hvalid, rfl⟩]
        refine ⟨fun _ => ⟨congrArg some (answer_eq hbase), ?_⟩, fun hnot => absurd rfl hnot⟩
        rw [← answer_eq hbase]
        exact Config.visible_ne_refusal hvalid files input
    | error e =>
        rw [Config.checked_eq_error_iff.mpr hvalid] at h ⊢
        cases e with
        | crashed => exact absurd rfl h
        | failed e => exact ⟨nofun, fun _ => rfl⟩
  · rw [hcrash] at h
    exact absurd rfl h

/-- Settings that lack a filter are accepted if the environment has one. -/
theorem accepts_iff_of_lacksFilter (h : settings.LacksFilter files) :
    settings.Accepts files (environmentFilter? environment) ↔
      (environmentFilter? environment).isSome = true := by
  obtain ⟨hlevel, config, problem, hbase, hsound, hfilter⟩ := h
  cases hfound : environmentFilter? environment with
  | none =>
      simp only [Option.isSome_none, Bool.false_eq_true, iff_false]
      rintro ⟨config', hconfig, -, haccepts⟩
      rw [hbase] at hconfig
      cases hconfig
      simp only [hlevel, Option.orElse_eq_orElse, Option.orElse_none, Option.getD_none, hfilter,
        Except.toBool] at haccepts
      cases haccepts
  | some filter =>
      simp only [Option.isSome_some, iff_true]
      refine ⟨config, hbase, hsound, ?_⟩
      have hread := Config.toBool_of_environmentFilter? hfound
      simpa [hlevel] using hread

/-- Settings crash on a filter below that does, if no other one is over it. -/
theorem ending_of_crashed {config : Config} (hlevel : settings.logLevel = none)
    (hbase : Config.base files settings.config = .ok config) (hsound : config.Sound)
    (hlower : Config.parseFilter config.logLevel = .error .crashed)
    (hfound : environmentFilter? environment = none) (input : Source) :
    settings.ending environment files input = .crashed := by
  have hresolve : settings.resolve files environment = .error .crashed := by
    by_cases hcrash : Config.CrashesOn environment
    · exact Config.resolve_of_crashes hbase hcrash
    · have hlayered : (config.layered environment
          ⟨settings.style, settings.logLevel⟩).logLevel = config.logLevel := by
        simp [Config.layered, hlevel, hfound]
      have hright : (config.layered environment
          ⟨settings.style, settings.logLevel⟩).Sound := hsound
      rw [resolve, Config.resolve_of_not_crashes hbase hcrash, Config.checked_eq_error_iff,
        Config.validate_of_sound hright, hlayered, hlower]
  rw [ending, hresolve]

/-- Settings that do not lack a filter are accepted in every environment or in none. -/
theorem Accepts.congr (h : ¬ settings.LacksFilter files)
    (hother : settings.ending other files input ≠ .crashed)
    (haccepts : settings.Accepts files (environmentFilter? environment)) :
    settings.Accepts files (environmentFilter? other) := by
  obtain ⟨config, hbase, hsound, hfilter⟩ := haccepts
  refine ⟨config, hbase, hsound, ?_⟩
  cases hlevel : settings.logLevel with
  | some level => simpa [hlevel] using hfilter
  | none =>
      cases hfound : environmentFilter? other with
      | some filter => simpa using Config.toBool_of_environmentFilter? hfound
      | none =>
          -- The filter below decides: it can be read, or the run would crash, or it is lacking.
          match hlower : Config.parseFilter config.logLevel with
          | .ok directives => rfl
          | .error (.failed problem) =>
              exact absurd ⟨hlevel, config, problem, hbase, hsound, hlower⟩ h
          | .error .crashed =>
              have hcrash := ending_of_crashed hlevel hbase hsound hlower hfound input
              exact absurd hcrash hother

end CommandSettings

/-- The settings of a run lack a filter. -/
def Surroundings.LacksFilter (s : Surroundings) : Prop :=
  ∃ settings, Command.parse s.words = .ok (.run settings) ∧ settings.LacksFilter s.files

/-- The same surroundings, but for the environment. -/
def Surroundings.within (s : Surroundings) (environment : Option String) : Surroundings :=
  { s with environment }

namespace Surroundings

open Config (environmentFilter?)

variable {s : Surroundings} {settings : CommandSettings}

theorem lacksFilter_iff (h : Command.parse s.words = .ok (.run settings)) :
    s.LacksFilter ↔ settings.LacksFilter s.files := by
  constructor
  · rintro ⟨settings', hsettings, hlacks⟩
    rw [h] at hsettings
    cases hsettings
    exact hlacks
  · exact fun hlacks => ⟨settings, h, hlacks⟩

theorem run_within (h : Command.parse s.words = .ok (.run settings))
    (environment : Option String) :
    (s.within environment).run = settings.ending environment s.files s.input :=
  run_of_parse h

/-- A command line that does not ask for predictions is answered without a look at the
environment. -/
theorem run_within_of_inform (h : ∀ settings, Command.parse s.words ≠ .ok (.run settings))
    (environment other : Option String) :
    (s.within environment).run = (s.within other).run := by
  unfold run within
  simp only
  split
  · rfl
  · rfl
  · next settings hparse => exact absurd hparse (h settings)

/-- A run does not show its environment, if its settings do not lack a filter; if they do, it
shows whether the environment has one, for without one it is refused.  Runs that crash are left
out. -/
theorem run_environment (s : Surroundings) (environment other : Option String)
    (h : (s.within environment).run ≠ .crashed) (hother : (s.within other).run ≠ .crashed) :
    ((s.within environment).run.visible? = (s.within other).run.visible? ↔
      ¬ (s.LacksFilter ∧
        (environmentFilter? environment).isSome ≠ (environmentFilter? other).isSome)) ∧
      (s.LacksFilter → environmentFilter? environment = none →
        (s.within environment).run.visible? = some (2, [])) := by
  by_cases hrun : ∃ settings, Command.parse s.words = .ok (.run settings)
  · obtain ⟨settings, hparse⟩ := hrun
    rw [lacksFilter_iff hparse]
    rw [run_within hparse] at h hother
    rw [run_within hparse, run_within hparse]
    obtain ⟨haccepted, hrefused⟩ := CommandSettings.visible_ending h
    obtain ⟨haccepted', hrefused'⟩ := CommandSettings.visible_ending hother
    constructor
    · -- What is visible tells whether the settings are accepted, and no more.
      have hvisible : (settings.ending environment s.files s.input).visible? =
          (settings.ending other s.files s.input).visible? ↔
            (settings.Accepts s.files (environmentFilter? environment) ↔
              settings.Accepts s.files (environmentFilter? other)) := by
        by_cases hfirst : settings.Accepts s.files (environmentFilter? environment)
        · obtain ⟨hanswer, hne⟩ := haccepted hfirst
          by_cases hsecond : settings.Accepts s.files (environmentFilter? other)
          · simp [hfirst, hsecond, hanswer, (haccepted' hsecond).1]
          · simp [hfirst, hsecond, hanswer, hrefused' hsecond, hne]
        · by_cases hsecond : settings.Accepts s.files (environmentFilter? other)
          · obtain ⟨hanswer, hne⟩ := haccepted' hsecond
            simp [hfirst, hsecond, hanswer, hrefused hfirst, hne.symm]
          · simp [hfirst, hsecond, hrefused hfirst, hrefused' hsecond]
      rw [hvisible]
      by_cases hlacks : settings.LacksFilter s.files
      · rw [CommandSettings.accepts_iff_of_lacksFilter hlacks,
          CommandSettings.accepts_iff_of_lacksFilter hlacks, ← Bool.eq_iff_iff]
        simp [hlacks]
      · simp only [hlacks, false_and, not_false_iff, iff_true]
        exact ⟨.congr hlacks hother, .congr hlacks h⟩
    · intro hlacks hnone
      apply hrefused
      rw [CommandSettings.accepts_iff_of_lacksFilter hlacks, hnone]
      simp
  · have hnever : ∀ settings, Command.parse s.words ≠ .ok (.run settings) :=
      fun settings hparse => hrun ⟨settings, hparse⟩
    have hlacks : ¬ s.LacksFilter := fun ⟨settings, hparse, _⟩ => hnever settings hparse
    rw [run_within_of_inform hnever environment other]
    simp [hlacks]

/-- A directory with a file of settings, in which only the filter is wrong. -/
def wrongFilter : Surroundings where
  words := ["--config", "c.toml"]
  environment := none
  files := FileTree.toFileSystem ⟨[(["c.toml"],
    .file ("[observability]\nlog_level = \"a=b\"\n".toList.map Text.ascii))]⟩
  input := .ofBytes ("\x7b\x7d".toList.map Text.ascii)

/-- The settings of that directory, in an environment that says nothing and in one with a
filter. -/
theorem run_environment_wrongFilter :
    (wrongFilter.within none).run ≠ .crashed ∧ (wrongFilter.within (some "info")).run ≠ .crashed ∧
      ((wrongFilter.within none).run.visible? = (wrongFilter.within (some "info")).run.visible? ↔
        ¬ (wrongFilter.LacksFilter ∧
          (environmentFilter? none).isSome ≠ (environmentFilter? (some "info")).isSome)) ∧
        (wrongFilter.LacksFilter → environmentFilter? none = none →
          (wrongFilter.within none).run.visible? = some (2, [])) := by
  have h : (wrongFilter.within none).run ≠ .crashed := by decide +kernel
  have hother : (wrongFilter.within (some "info")).run ≠ .crashed := by decide +kernel
  exact ⟨h, hother, run_environment wrongFilter none (some "info") h hother⟩

/-- A filter in the environment turns the refusal of that directory's settings into an answer. -/
theorem run_wrongFilter :
    (wrongFilter.within none).run.visible? = some (2, []) ∧
      (wrongFilter.within (some "info")).run.visible? =
        some (0, "\x7b\"predictions\": []\x7d".toList.map Text.ascii) := by
  constructor <;> decide +kernel

end Surroundings

end QueryLabel
