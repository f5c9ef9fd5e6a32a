import QueryLabel.Config.Resolve
import QueryLabel.Proofs.Filter.Crash

/-!
The layers of the settings.  The environment counts only where it holds a filter that can be read,
and then like a level on the command line (`resolve_cases`); settings that pass validation build a
predictor (`buildPredictor_of_validate`).
-/

namespace QueryLabel.Config

/-- The filter that the environment gives a run: one that is not blank and can be read. -/
def environmentFilter? (environment : Option String) : Option String :=
  environment.filter fun text => !Text.allBlank text.toList && (parseFilter text).toBool

/-- The settings below the environment: those of the file if there is one, or else the default
ones. -/
def base (files : FileSystem) (path : Option String) : Except ConfigError Config :=
  match path with
  | some path => readFile files path
  | none => .ok default

/-- The settings with the environment and the command line over them. -/
def layered (config : Config) (environment : Option String) (overrides : Overrides) : Config :=
  { config with
    style := overrides.style.getD config.style
    logLevel := (overrides.logLevel <|> environmentFilter? environment).getD config.logLevel }

/-- Settings that are right but perhaps for their filter: the predictor is known, and the path of
the model is not blank. -/
def Sound (config : Config) : Prop :=
  Predictor.knownNames.contains config.kind = true ∧
    ∀ path, config.modelPath = some path → Text.allBlank path.toList = false

/-- Settings, if they pass validation. -/
def checked (config : Config) : Except (Stop ConfigError) Config := do
  config.validate
  .ok config

variable {config : Config} {files : FileSystem} {path environment : Option String}
  {overrides : Overrides}

/-! ### Validation -/

theorem validate_of_sound (h : config.Sound) :
    config.validate = match parseFilter config.logLevel with
      | .ok _ => .ok ()
      | .error (.failed problem) =>
          .error (.failed (.validationFailed "observability.log_level"
            ("invalid filter directives: " ++ problem.message)))
      | .error .crashed => .error .crashed := by
  obtain ⟨hkind, hpath⟩ := h
  have hblank : ¬ (config.modelPath.any fun path => Text.allBlank path.toList) = true := by
    cases hmodel : config.modelPath with
    | none => simp
    | some path => simp [hpath path hmodel]
  unfold validate
  exact (if_neg (not_not_intro hkind)).trans (if_neg hblank)

/-- Settings are right but for their filter, or they are refused whatever it is. -/
theorem sound_or_refused (config : Config) :
    config.Sound ∨ ∃ e, ∀ level style, validate { config with logLevel := level, style } =
      .error (.failed e) := by
  by_cases hkind : Predictor.knownNames.contains config.kind = true
  · by_cases hblank : (config.modelPath.any fun path => Text.allBlank path.toList) = true
    · refine Or.inr ⟨.validationFailed "predictor.model_path" "must not be empty", ?_⟩
      intro level style
      unfold validate
      rw [if_neg (not_not_intro hkind), if_pos hblank]
    · refine Or.inl ⟨hkind, fun path hmodel => ?_⟩
      rw [hmodel] at hblank
      simpa using hblank
  · refine Or.inr ⟨.unknownPredictor config.kind, ?_⟩
    intro level style
    unfold validate
    rw [if_pos hkind]

/-- Settings are right but for their filter if they are not refused. -/
theorem sound_of_validate (h : ∀ e, config.validate ≠ .error (.failed e)) : config.Sound := by
  rcases sound_or_refused config with hsound | ⟨e, he⟩
  · exact hsound
  · exact absurd (he config.logLevel config.style) (h e)

/-- Settings are valid if they are right and their filter can be read. -/
theorem validate_eq_ok_iff :
    config.validate = .ok () ↔
      config.Sound ∧ (parseFilter config.logLevel).toBool = true := by
  constructor
  · intro h
    have hsound : config.Sound := sound_of_validate fun e he => by
      rw [h] at he
      cases he
    rw [validate_of_sound hsound] at h
    refine ⟨hsound, ?_⟩
    split at h
    · next hfilter =>
        rw [hfilter]
        rfl
    · cases h
    · cases h
  · rintro ⟨hsound, hfilter⟩
    rw [validate_of_sound hsound]
    cases hparse : parseFilter config.logLevel with
    | ok directives => rfl
    | error e =>
        rw [hparse] at hfilter
        cases hfilter

/-- Validation crashes only on a filter that does. -/
theorem parseFilter_of_validate (h : config.validate = .error .crashed) :
    parseFilter config.logLevel = .error .crashed := by
  have hsound : config.Sound := sound_of_validate fun e he => by
    rw [h] at he
    cases he
  rw [validate_of_sound hsound] at h
  split at h
  · cases h
  · cases h
  · assumption

/-- Settings that pass validation build the constant predictor. -/
theorem buildPredictor_of_validate (h : config.validate = .ok ()) :
    config.buildPredictor = .ok .constant := by
  have hkind : config.kind = Predictor.constantName := by
    simpa [Predictor.knownNames] using (validate_eq_ok_iff.mp h).1.1
  unfold buildPredictor Predictor.ofName?
  rw [if_pos hkind]

/-! ### Layers -/

theorem checked_eq_ok_iff {found : Config} :
    config.checked = .ok found ↔ config.validate = .ok () ∧ config = found := by
  unfold checked
  cases config.validate with
  | error e => simp [bind, Except.bind]
  | ok u => simp [bind, Except.bind]

theorem checked_eq_error_iff {e : Stop ConfigError} :
    config.checked = .error e ↔ config.validate = .error e := by
  unfold checked
  cases config.validate with
  | error e => simp [bind, Except.bind]
  | ok u => simp [bind, Except.bind]

/-- The filter of the environment can be read. -/
theorem toBool_of_environmentFilter? {filter : String}
    (h : environmentFilter? environment = some filter) : (parseFilter filter).toBool = true := by
  have hfilter := (Option.filter_eq_some_iff.mp h).2
  simp only [Bool.and_eq_true] at hfilter
  exact hfilter.2

/-- The environment holds a filter on which looking for the settings crashes. -/
def CrashesOn (environment : Option String) : Prop :=
  ∃ filter, environment = some filter ∧ Text.allBlank filter.toList = false ∧
    parseFilter filter = .error .crashed

theorem withEnvironment_of_crashes (config : Config) (h : CrashesOn environment) :
    config.withEnvironment environment = .error .crashed := by
  obtain ⟨filter, rfl, hblank, hcrash⟩ := h
  simp [withEnvironment, hblank, hcrash]

/-- The environment changes the filter to its own, unless it crashes. -/
theorem withEnvironment_of_not_crashes (config : Config) (h : ¬ CrashesOn environment) :
    config.withEnvironment environment =
      .ok { config with logLevel := (environmentFilter? environment).getD config.logLevel } := by
  cases environment with
  | none => rfl
  | some text =>
      unfold withEnvironment
      by_cases hblank : Text.allBlank text.toList = true
      · simp [environmentFilter?, Option.filter_some, hblank]
      · match hfilter : parseFilter text with
        | .ok _ => simp [environmentFilter?, Option.filter_some, hblank, hfilter, Except.toBool]
        | .error (.failed _) =>
            simp [environmentFilter?, Option.filter_some, hblank, hfilter, Except.toBool]
        | .error .crashed =>
            exact absurd ⟨text, rfl, Bool.eq_false_iff.mpr hblank, hfilter⟩ h

theorem resolve_eq_bind (files : FileSystem) (path environment : Option String)
    (overrides : Overrides) :
    resolve files path environment overrides =
      ((base files path).mapError .failed >>= fun config =>
        config.withEnvironment environment >>= fun config =>
          (config.withOverrides overrides).checked) := by
  cases path <;> rfl

/-- What is wrong with the file is reported whatever the other layers hold. -/
theorem resolve_of_base_error {e : ConfigError} (hbase : base files path = .error e) :
    resolve files path environment overrides = .error (.failed e) := by
  rw [resolve_eq_bind, hbase]
  rfl

theorem resolve_of_crashes (hbase : base files path = .ok config) (h : CrashesOn environment) :
    resolve files path environment overrides = .error .crashed := by
  rw [resolve_eq_bind, hbase]
  change (config.withEnvironment environment >>= fun config =>
    (config.withOverrides overrides).checked) = _
  rw [withEnvironment_of_crashes config h]
  rfl

/-- The layers over the file are checked together. -/
theorem resolve_of_not_crashes (hbase : base files path = .ok config)
    (h : ¬ CrashesOn environment) :
    resolve files path environment overrides =
      (config.layered environment overrides).checked := by
  have hlayers : withOverrides { config with
      logLevel := (environmentFilter? environment).getD config.logLevel } overrides =
        config.layered environment overrides := by
    cases hlevel : overrides.logLevel <;> simp [withOverrides, layered, hlevel]
  rw [resolve_eq_bind, hbase, ← hlayers]
  change (config.withEnvironment environment >>= fun config =>
    (config.withOverrides overrides).checked) = _
  rw [withEnvironment_of_not_crashes config h]
  rfl

/-- The settings from all layers: the file has to be read first, and then the layers over it are
checked together, unless the filter of the environment crashes. -/
theorem resolve_cases (files : FileSystem) (path environment : Option String)
    (overrides : Overrides) :
    (∃ e, base files path = .error e ∧
        resolve files path environment overrides = .error (.failed e)) ∨
      ∃ config, base files path = .ok config ∧
        (resolve files path environment overrides =
            (config.layered environment overrides).checked ∨
          resolve files path environment overrides = .error .crashed ∧
            CrashesOn environment) := by
  cases hbase : base files path with
  | error e => exact Or.inl ⟨e, rfl, resolve_of_base_error hbase⟩
  | ok config =>
      refine Or.inr ⟨config, rfl, ?_⟩
      by_cases h : CrashesOn environment
      · exact Or.inr ⟨resolve_of_crashes hbase h, h⟩
      · exact Or.inl (resolve_of_not_crashes hbase h)

/-- Settings that are found are valid. -/
theorem validate_of_resolve (h : resolve files path environment overrides = .ok config) :
    config.validate = .ok () := by
  rcases resolve_cases files path environment overrides with
    ⟨e, -, he⟩ | ⟨lower, -, hchecked | ⟨hcrash, -⟩⟩
  · rw [he] at h
    contradiction
  · rw [hchecked] at h
    obtain ⟨hvalid, rfl⟩ := checked_eq_ok_iff.mp h
    exact hvalid
  · rw [hcrash] at h
    contradiction

/-- A filter that one of the layers gives. -/
def Gives (files : FileSystem) (path environment : Option String) (overrides : Overrides)
    (filter : String) : Prop :=
  environment = some filter ∨ overrides.logLevel = some filter ∨
    ∃ config, base files path = .ok config ∧ config.logLevel = filter

/-- Looking for the settings crashes only if a layer gives a filter that does. -/
theorem exists_filter_of_crashed
    (h : resolve files path environment overrides = .error .crashed) :
    ∃ filter, Gives files path environment overrides filter ∧
      parseFilter filter = .error .crashed := by
  rcases resolve_cases files path environment overrides with
    ⟨e, -, he⟩ | ⟨config, hbase, hchecked | ⟨-, filter, hfilter, -, hcrash⟩⟩
  · rw [he] at h
    cases h
  · rw [hchecked, checked_eq_error_iff] at h
    refine ⟨_, ?_, parseFilter_of_validate h⟩
    unfold layered
    cases hlevel : overrides.logLevel with
    | some filter => exact Or.inr (Or.inl hlevel)
    | none =>
        cases hfilter : environmentFilter? environment with
        | some filter =>
            exact Or.inl (Option.eq_some_of_filter_eq_some hfilter)
        | none => exact Or.inr (Or.inr ⟨config, hbase, rfl⟩)
  · exact ⟨filter, Or.inl hfilter, hcrash⟩

end QueryLabel.Config
