import QueryLabel.Proofs.Process

/-!
Engines from settings.  An engine is not built for two reasons only, and validation excludes one of
them; of two engines that are built, only the styles can differ in what a run shows
(`ofConfig_style_only`).
-/

namespace QueryLabel

namespace Config

variable {config : Config} {files : FileSystem}

/-- No predictor has the name that the settings ask for. -/
def PredictorUnknown (config : Config) : Prop :=
  ∀ predictor, config.buildPredictor ≠ .ok predictor

/-- The one predictor that can be built is the constant one. -/
theorem buildPredictor_cases (config : Config) :
    config.buildPredictor = .ok .constant ∨
      config.PredictorUnknown ∧ config.buildPredictor = .error (.unknownPredictor config.kind) := by
  unfold PredictorUnknown buildPredictor Predictor.ofName?
  by_cases hkind : config.kind = Predictor.constantName
  · exact Or.inl (by rw [if_pos hkind])
  · exact Or.inr (by simp [hkind])

/-- The model is looked for first, then the predictor, and nothing else can fail. -/
theorem ofConfig_cases (files : FileSystem) (config : Config) :
    (∃ path, config.ModelMissing files path) ∨
      (∀ path, ¬ config.ModelMissing files path) ∧
        (config.PredictorUnknown ∧
            Engine.ofConfig files config = .error (.config (.unknownPredictor config.kind)) ∨
          config.buildPredictor = .ok .constant ∧
            Engine.ofConfig files config = .ok config.engine) := by
  by_cases hmissing : ∃ path, config.ModelMissing files path
  · exact Or.inl hmissing
  have hpresent : ∀ path, ¬ config.ModelMissing files path := fun path h => hmissing ⟨path, h⟩
  refine Or.inr ⟨hpresent, ?_⟩
  rcases buildPredictor_cases config with hbuild | ⟨hunknown, hbuild⟩
  · refine Or.inr ⟨hbuild, ?_⟩
    rw [Engine.ofConfig, loadModel_of_present hpresent, hbuild]
    rfl
  · refine Or.inl ⟨hunknown, ?_⟩
    rw [Engine.ofConfig, loadModel_of_present hpresent, hbuild]
    rfl

/-- An engine that is built is the constant predictor with the style of the settings. -/
theorem eq_engine_of_ofConfig {engine : Engine} (h : Engine.ofConfig files config = .ok engine) :
    engine = config.engine := by
  rcases ofConfig_cases files config with
    ⟨path, hmissing⟩ | ⟨-, ⟨-, hunknown⟩ | ⟨-, hbuilt⟩⟩
  · rw [ofConfig_of_missing hmissing] at h
    cases h
  · rw [hunknown] at h
    cases h
  · rw [hbuilt] at h
    exact (Except.ok.inj h).symm

/-- How an engine is built from settings: a missing model is reported first, then an unknown
predictor, and settings that pass validation can only lack their model. -/
structure Builds (config : Config) (files : FileSystem) : Prop where
  fails : (∃ e, Engine.ofConfig files config = .error e) ↔
    (∃ path, config.ModelMissing files path) ∨ config.PredictorUnknown
  missing : ∀ path, config.ModelMissing files path →
    Engine.ofConfig files config = .error (.model (.loadFailed path "file does not exist"))
  unknown : (∀ path, ¬ config.ModelMissing files path) → config.PredictorUnknown →
    Engine.ofConfig files config = .error (.config (.unknownPredictor config.kind))
  validated : config.validate = .ok () → ∀ e, Engine.ofConfig files config = .error e →
    ∃ path, config.ModelMissing files path ∧
      e = .model (.loadFailed path "file does not exist")

theorem builds (config : Config) (files : FileSystem) : config.Builds files := by
  have hmissing : ∀ path, config.ModelMissing files path → Engine.ofConfig files config =
      .error (.model (.loadFailed path "file does not exist")) :=
    fun path h => ofConfig_of_missing h
  have hnot : ∀ predictor, config.buildPredictor = .ok predictor → ¬ config.PredictorUnknown :=
    fun predictor hbuild hunknown => hunknown predictor hbuild
  rcases ofConfig_cases files config with
    ⟨path, hpath⟩ | ⟨hpresent, ⟨hunknown, hfailed⟩ | ⟨hbuild, hbuilt⟩⟩
  · refine ⟨⟨fun _ => Or.inl ⟨path, hpath⟩, fun _ => ⟨_, hmissing path hpath⟩⟩, hmissing, ?_, ?_⟩
    · exact fun hpresent => absurd hpath (hpresent path)
    · intro _ e he
      rw [hmissing path hpath] at he
      exact ⟨path, hpath, (Except.error.inj he).symm⟩
  · refine ⟨⟨fun _ => Or.inr hunknown, fun _ => ⟨_, hfailed⟩⟩, hmissing, fun _ _ => hfailed, ?_⟩
    intro hvalid
    exact absurd hunknown (hnot _ (buildPredictor_of_validate hvalid))
  · refine ⟨⟨?_, ?_⟩, hmissing, ?_, ?_⟩
    · rintro ⟨e, he⟩
      rw [hbuilt] at he
      cases he
    · rintro (⟨path, hpath⟩ | hunknown)
      · exact absurd hpath (hpresent path)
      · exact absurd hunknown (hnot _ hbuild)
    · exact fun _ hunknown => absurd hunknown (hnot _ hbuild)
    · intro _ e he
      rw [hbuilt] at he
      cases he

end Config

namespace Engine

/-- Two engines accept the same inputs, and refuse every other one with the same error. -/
structure AcceptsAlike (a b : Engine) (input : List UInt8) : Prop where
  accepts : (∃ text, a.run input = .ok text) ↔ ∃ text, b.run input = .ok text
  refuses : ∀ e, a.run input = .error e ↔ b.run input = .error e

/-- Constant predictors accept alike, whatever their styles are: what is decoded can be written in
either of them. -/
theorem acceptsAlike_constant (model model' : Model) (style style' : Style)
    (input : List UInt8) :
    AcceptsAlike ⟨.constant, model, style⟩ ⟨.constant, model', style'⟩ input := by
  constructor
  all_goals
    rw [run_constant, run_constant]
    cases Request.decode input <;> simp

/-- Settings decide whether there is an engine, and nothing of them but the style is seen in its
runs. -/
theorem ofConfig_style_only :
    (∀ (config : Config) (files : FileSystem), config.Builds files) ∧
      ∀ (files files' : FileSystem) (config config' : Config) (engine engine' : Engine),
        ofConfig files config = .ok engine → ofConfig files' config' = .ok engine' →
          ∀ input, (config.style = config'.style → engine.run input = engine'.run input) ∧
            engine.AcceptsAlike engine' input := by
  refine ⟨Config.builds, ?_⟩
  intro files files' config config' engine engine' hbuilt hbuilt' input
  rw [Config.eq_engine_of_ofConfig hbuilt, Config.eq_engine_of_ofConfig hbuilt']
  refine ⟨?_, acceptsAlike_constant _ _ _ _ input⟩
  intro hstyle
  rw [Config.engine, Config.engine, run_constant, run_constant, hstyle]

/-- Default settings, and compact ones with a model that is there and a log that says more. -/
theorem ofConfig_style_only_two :
    let files' : FileSystem := ⟨fun _ => .error .notFound, fun _ => true⟩
    let config' : Config :=
      { modelPath := some "model", style := .compact, logLevel := "debug" }
    ofConfig (.unseen (.error .notFound)) .default = .ok (Config.engine .default) ∧
      ofConfig files' config' = .ok config'.engine ∧
      (Config.Builds .default (.unseen (.error .notFound)) ∧ config'.Builds files') ∧
      ∀ input, (Config.style .default = config'.style →
          (Config.engine .default).run input = config'.engine.run input) ∧
        (Config.engine .default).AcceptsAlike config'.engine input := by
  intro files' config'
  have hdefault : ofConfig (.unseen (.error .notFound)) .default =
      .ok (Config.engine .default) := rfl
  have hcompact : ofConfig files' config' = .ok config'.engine := rfl
  exact ⟨hdefault, hcompact,
    ⟨ofConfig_style_only.1 _ _, ofConfig_style_only.1 _ _⟩,
    ofConfig_style_only.2 _ _ _ _ _ _ hdefault hcompact⟩

end Engine

end QueryLabel
