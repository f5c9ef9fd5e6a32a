import QueryLabel.Proofs.Config.Layers

/-!
What the settings of all layers are.  What is wrong with the file is reported before anything
else; then the first layer that gives a style or a filter counts, and the settings that result are
used, or refused for the first rule that they break (`resolve_layers`).  Only filters that are read
can get in the way: looking for the settings crashes exactly if one of them does.
-/

namespace QueryLabel.Config

/-- What is wrong with the file of the settings: it is not there, cannot be read, or does not spell
any settings. -/
inductive FileFault (files : FileSystem) : Option String → ConfigError → Prop
  | missing {path : String} (hread : files.readText path = .error .notFound) :
      FileFault files (some path) (.fileNotFound path)
  | unreadable {path message : String} (hread : files.readText path = .error (.other message)) :
      FileFault files (some path) (.readFailed path message)
  | malformed {path : String} {document : Text} {report : Option String}
      (hread : files.readText path = .ok document)
      (hspell : ofToml path document = .error (.parseError path report)) :
      FileFault files (some path) (.parseError path report)

/-- The lowest layer: the settings that the file spells, or the default ones without a file. -/
inductive Lowest (files : FileSystem) : Option String → Config → Prop
  | unnamed : Lowest files none default
  | spelled {path : String} {document : Text} {config : Config}
      (hread : files.readText path = .ok document) (hspell : ofToml path document = .ok config) :
      Lowest files (some path) config

/-- The rules are that the predictor is known, that the path of the model is not blank, and that
the filter can be read.  The first one that settings break is why they are refused. -/
inductive FirstBroken (config : Config) : ConfigError → Prop
  | kind (hkind : Predictor.knownNames.contains config.kind = false) :
      FirstBroken config (.unknownPredictor config.kind)
  | modelPath {path : String} (hkind : Predictor.knownNames.contains config.kind = true)
      (hpath : config.modelPath = some path) (hblank : Text.allBlank path.toList = true) :
      FirstBroken config (.validationFailed "predictor.model_path" "must not be empty")
  | logLevel {problem : Filter.Problem} (hsound : config.Sound)
      (hfilter : parseFilter config.logLevel = .error (.failed problem)) :
      FirstBroken config (.validationFailed "observability.log_level"
        ("invalid filter directives: " ++ problem.message))

/-- Settings that break no rule. -/
def Valid (config : Config) : Prop :=
  config.Sound ∧ (parseFilter config.logLevel).toBool = true

/-- The filters that are read while the settings are looked for: the one of the environment if it
is not blank, and the one that counts if no rule in front of it is broken. -/
inductive Consulted (files : FileSystem) (path environment : Option String)
    (overrides : Overrides) : String → Prop
  | environment {config : Config} {filter : String} (hlowest : Lowest files path config)
      (hgiven : environment = some filter) (hblank : Text.allBlank filter.toList = false) :
      Consulted files path environment overrides filter
  | effective {config : Config} (hlowest : Lowest files path config) (hsound : config.Sound) :
      Consulted files path environment overrides (config.layered environment overrides).logLevel

/-- Looking for the settings reads a filter that crashes. -/
def Crashes (files : FileSystem) (path environment : Option String) (overrides : Overrides) :
    Prop :=
  ∃ filter, Consulted files path environment overrides filter ∧
    parseFilter filter = .error .crashed

/-- How the settings of all layers come out.  A fault of the file is reported, whatever the other
layers hold.  Otherwise there is a lowest layer, and the layered settings are found if they are
valid, and refused for the first rule that they break if they are not.  The filter of a layer does
not matter under another one, and the environment never gets in the way of settings that are found
without it. -/
structure Resolution (files : FileSystem) (path environment : Option String)
    (overrides : Overrides) : Prop where
  fault_or_lowest : (∃ e, FileFault files path e) ∨ ∃ config, Lowest files path config
  fault : ∀ e, FileFault files path e →
    resolve files path environment overrides = .error (.failed e)
  found : ∀ config, Lowest files path config → ∀ result,
    resolve files path environment overrides = .ok result ↔
      result = config.layered environment overrides ∧ result.Valid
  refused : ∀ config, Lowest files path config → ¬ (config.layered environment overrides).Valid →
    ∃ e, FirstBroken (config.layered environment overrides) e ∧
      resolve files path environment overrides = .error (.failed e)
  lowest_masked : (overrides.logLevel <|> environmentFilter? environment).isSome = true →
    ∀ config, Lowest files path config → ∀ files' path' level,
      Lowest files' path' { config with logLevel := level } →
        resolve files' path' environment overrides = resolve files path environment overrides
  environment_masked : overrides.logLevel.isSome = true →
    resolve files path environment overrides = resolve files path none overrides
  environment_harmless : (∃ result, resolve files path none overrides = .ok result) →
    ∃ result, resolve files path environment overrides = .ok result

variable {config : Config} {files : FileSystem} {path environment : Option String}
  {overrides : Overrides}

/-! ### The lowest layer -/

/-- A document that spells no settings is reported as such. -/
theorem exists_report_of_ofToml {name : String} {document : Text} {e : ConfigError}
    (h : ofToml name document = .error e) : ∃ report, e = .parseError name report := by
  unfold ofToml at h
  split at h
  · cases h
    exact ⟨none, rfl⟩
  · split at h
    · cases h
    · cases h
      exact ⟨_, rfl⟩

theorem base_eq_ok_iff : base files path = .ok config ↔ Lowest files path config := by
  constructor
  · intro h
    cases path with
    | none =>
        cases h
        exact .unnamed
    | some name =>
        change readFile files name = .ok config at h
        unfold readFile at h
        split at h
        · next hread => exact .spelled hread h
        · cases h
        · cases h
  · rintro (_ | ⟨hread, hspell⟩)
    · rfl
    · simp only [base, readFile, hread, hspell]

theorem base_eq_error_iff {e : ConfigError} :
    base files path = .error e ↔ FileFault files path e := by
  constructor
  · intro h
    cases path with
    | none => cases h
    | some name =>
        change readFile files name = .error e at h
        unfold readFile at h
        split at h
        · next hread =>
            obtain ⟨report, rfl⟩ := exists_report_of_ofToml h
            exact .malformed hread h
        · next hread =>
            cases h
            exact .missing hread
        · next hread =>
            cases h
            exact .unreadable hread
  · rintro (hread | hread | ⟨hread, hspell⟩)
    · rw [base, readFile, hread]
    · rw [base, readFile, hread]
    · simp only [base, readFile, hread, hspell]

/-! ### Rules -/

theorem valid_iff : config.Valid ↔ config.validate = .ok () :=
  validate_eq_ok_iff.symm

/-- Settings are refused for the first rule that they break. -/
theorem validate_of_firstBroken {e : ConfigError} (h : FirstBroken config e) :
    config.validate = .error (.failed e) := by
  cases h with
  | kind hkind =>
      unfold validate
      rw [if_pos (by rw [hkind]; exact Bool.false_ne_true)]
  | modelPath hkind hpath hblank =>
      unfold validate
      rw [if_neg (not_not_intro hkind), if_pos (by simp [hpath, hblank])]
  | logLevel hsound hfilter => rw [validate_of_sound hsound, hfilter]

/-- Settings are valid or break a rule, unless their filter crashes. -/
theorem valid_or_broken (config : Config) :
    config.Valid ∨ (∃ e, FirstBroken config e) ∨
      config.Sound ∧ parseFilter config.logLevel = .error .crashed := by
  by_cases hsound : config.Sound
  · match hfilter : parseFilter config.logLevel with
    | .ok _ =>
        refine Or.inl ⟨hsound, ?_⟩
        rw [hfilter]
        rfl
    | .error (.failed _) => exact Or.inr (Or.inl ⟨_, .logLevel hsound hfilter⟩)
    | .error .crashed => exact Or.inr (Or.inr ⟨hsound, rfl⟩)
  · refine Or.inr (Or.inl ?_)
    by_cases hkind : Predictor.knownNames.contains config.kind = true
    · have hpath : ∃ path, config.modelPath = some path ∧ Text.allBlank path.toList = true :=
        Classical.byContradiction fun hnone => hsound ⟨hkind, fun path hmodel =>
          Bool.eq_false_iff.mpr fun hblank => hnone ⟨path, hmodel, hblank⟩⟩
      obtain ⟨path, hmodel, hblank⟩ := hpath
      exact ⟨_, .modelPath hkind hmodel hblank⟩
    · exact ⟨_, .kind (Bool.eq_false_iff.mpr hkind)⟩

/-! ### All layers -/

/-- The settings are looked for without a crash unless a filter that is read crashes. -/
theorem resolve_eq_crashed_iff :
    resolve files path environment overrides = .error .crashed ↔
      Crashes files path environment overrides := by
  constructor
  · intro h
    cases hbase : base files path with
    | error e =>
        rw [resolve_of_base_error hbase] at h
        cases h
    | ok config =>
        have hlowest := base_eq_ok_iff.mp hbase
        by_cases hcrash : CrashesOn environment
        · obtain ⟨filter, hgiven, hblank, hfilter⟩ := hcrash
          exact ⟨filter, .environment hlowest hgiven hblank, hfilter⟩
        · rw [resolve_of_not_crashes hbase hcrash, checked_eq_error_iff] at h
          have hsound : (config.layered environment overrides).Sound :=
            sound_of_validate fun e he => by
              rw [h] at he
              cases he
          exact ⟨_, .effective hlowest hsound, parseFilter_of_validate h⟩
  · rintro ⟨filter, hconsulted, hfilter⟩
    cases hconsulted with
    | environment hlowest hgiven hblank =>
        exact resolve_of_crashes (base_eq_ok_iff.mpr hlowest) ⟨filter, hgiven, hblank, hfilter⟩
    | @effective config hlowest hsound =>
        by_cases hcrash : CrashesOn environment
        · exact resolve_of_crashes (base_eq_ok_iff.mpr hlowest) hcrash
        · have hright : (config.layered environment overrides).Sound := hsound
          rw [resolve_of_not_crashes (base_eq_ok_iff.mpr hlowest) hcrash, checked_eq_error_iff,
            validate_of_sound hright, hfilter]

theorem not_crashesOn (h : ¬ Crashes files path environment overrides)
    (hlowest : Lowest files path config) : ¬ CrashesOn environment := by
  rintro ⟨filter, hgiven, hblank, hfilter⟩
  exact h ⟨filter, .environment hlowest hgiven hblank, hfilter⟩

/-- Without a crash, the layered settings are checked. -/
theorem resolve_of_lowest (h : ¬ CrashesOn environment) (hlowest : Lowest files path config) :
    resolve files path environment overrides =
      (config.layered environment overrides).checked :=
  resolve_of_not_crashes (base_eq_ok_iff.mpr hlowest) h

theorem not_crashesOn_none : ¬ CrashesOn none := by
  rintro ⟨filter, hgiven, -⟩
  cases hgiven

/-- The layered settings are what is found, if they are valid. -/
theorem resolve_eq_ok_iff (h : ¬ CrashesOn environment) (hlowest : Lowest files path config)
    {result : Config} :
    resolve files path environment overrides = .ok result ↔
      result = config.layered environment overrides ∧ result.Valid := by
  rw [resolve_of_lowest h hlowest, checked_eq_ok_iff, ← valid_iff]
  constructor
  · rintro ⟨hvalid, rfl⟩
    exact ⟨rfl, hvalid⟩
  · rintro ⟨rfl, hvalid⟩
    exact ⟨hvalid, rfl⟩

/-- Settings that are not valid are refused for the first rule that they break. -/
theorem exists_firstBroken (h : ¬ Crashes files path environment overrides)
    (hlowest : Lowest files path config)
    (hinvalid : ¬ (config.layered environment overrides).Valid) :
    ∃ e, FirstBroken (config.layered environment overrides) e ∧
      resolve files path environment overrides = .error (.failed e) := by
  rcases valid_or_broken (config.layered environment overrides) with
    hvalid | ⟨e, hbroken⟩ | ⟨hsound, hfilter⟩
  · exact absurd hvalid hinvalid
  · refine ⟨e, hbroken, ?_⟩
    rw [resolve_of_lowest (not_crashesOn h hlowest) hlowest, checked_eq_error_iff]
    exact validate_of_firstBroken hbroken
  · exact absurd ⟨_, .effective hlowest hsound, hfilter⟩ h

/-! ### Layers that are covered -/

theorem layered_of_upper
    (h : (overrides.logLevel <|> environmentFilter? environment).isSome = true) (config : Config)
    (level : String) :
    layered { config with logLevel := level } environment overrides =
      config.layered environment overrides := by
  obtain ⟨filter, hfilter⟩ := Option.isSome_iff_exists.mp h
  simp only [layered, hfilter, Option.getD_some]

theorem layered_of_override (h : overrides.logLevel.isSome = true) (config : Config)
    (environment : Option String) :
    config.layered environment overrides = config.layered none overrides := by
  obtain ⟨filter, hfilter⟩ := Option.isSome_iff_exists.mp h
  simp only [layered, hfilter, Option.orElse_eq_orElse, Option.orElse_some, Option.getD_some]

/-- The environment keeps settings valid: the filter that counts stays, or is that of the
environment, which can be read. -/
theorem valid_layered (h : (config.layered none overrides).Valid) (environment : Option String) :
    (config.layered environment overrides).Valid := by
  by_cases hlevel : overrides.logLevel.isSome = true
  · rwa [layered_of_override hlevel]
  · obtain ⟨hsound, hread⟩ := h
    have hnone : overrides.logLevel = none := Option.not_isSome_iff_eq_none.mp hlevel
    have habsent : environmentFilter? none = none := rfl
    refine ⟨hsound, ?_⟩
    cases hfound : environmentFilter? environment with
    | none => simpa [layered, hnone, hfound, habsent] using hread
    | some filter =>
        have hfilter := toBool_of_environmentFilter? hfound
        simpa [layered, hnone, hfound] using hfilter

theorem resolve_of_upper (h : ¬ CrashesOn environment)
    (hupper : (overrides.logLevel <|> environmentFilter? environment).isSome = true)
    (hlowest : Lowest files path config) {files' : FileSystem} {path' : Option String}
    {level : String} (hlowest' : Lowest files' path' { config with logLevel := level }) :
    resolve files' path' environment overrides = resolve files path environment overrides := by
  rw [resolve_of_lowest h hlowest, resolve_of_lowest h hlowest', layered_of_upper hupper]

theorem resolve_of_override (h : ¬ Crashes files path environment overrides)
    (hlevel : overrides.logLevel.isSome = true) :
    resolve files path environment overrides = resolve files path none overrides := by
  cases hbase : base files path with
  | error e => rw [resolve_of_base_error hbase, resolve_of_base_error hbase]
  | ok config =>
      have hlowest := base_eq_ok_iff.mp hbase
      rw [resolve_of_lowest (not_crashesOn h hlowest) hlowest,
        resolve_of_lowest not_crashesOn_none hlowest, layered_of_override hlevel]

theorem exists_resolve (h : ¬ Crashes files path environment overrides) {result : Config}
    (hresult : resolve files path none overrides = .ok result) :
    ∃ result, resolve files path environment overrides = .ok result := by
  cases hbase : base files path with
  | error e =>
      rw [resolve_of_base_error hbase] at hresult
      cases hresult
  | ok config =>
      have hlowest := base_eq_ok_iff.mp hbase
      obtain ⟨rfl, hvalid⟩ := (resolve_eq_ok_iff not_crashesOn_none hlowest).mp hresult
      exact ⟨config.layered environment overrides,
        (resolve_eq_ok_iff (not_crashesOn h hlowest) hlowest).mpr
          ⟨rfl, valid_layered hvalid environment⟩⟩

/-- Looking for the settings crashes exactly if a filter that is read does; else the settings come
out as the layers say. -/
theorem resolve_layers (files : FileSystem) (path environment : Option String)
    (overrides : Overrides) :
    (resolve files path environment overrides = .error .crashed ↔
      Crashes files path environment overrides) ∧
      (¬ Crashes files path environment overrides →
        Resolution files path environment overrides) := by
  refine ⟨resolve_eq_crashed_iff, fun hcrash => ?_⟩
  constructor
  case fault_or_lowest =>
    cases hbase : base files path with
    | error e => exact Or.inl ⟨e, base_eq_error_iff.mp hbase⟩
    | ok config => exact Or.inr ⟨config, base_eq_ok_iff.mp hbase⟩
  case fault => exact fun e hfault => resolve_of_base_error (base_eq_error_iff.mpr hfault)
  case found =>
    exact fun config hlowest result =>
      resolve_eq_ok_iff (not_crashesOn hcrash hlowest) hlowest
  case refused => exact fun config hlowest hinvalid => exists_firstBroken hcrash hlowest hinvalid
  case lowest_masked =>
    exact fun hupper config hlowest files' path' level hlowest' =>
      resolve_of_upper (not_crashesOn hcrash hlowest) hupper hlowest hlowest'
  case environment_masked => exact fun hlevel => resolve_of_override hcrash hlevel
  case environment_harmless => exact fun ⟨result, hresult⟩ => exists_resolve hcrash hresult

/-- A level on the command line over a file and an environment whose filters are both wrong. -/
theorem resolve_layers_covered :
    let files := FileSystem.unseen (.ok "[observability]\nlog_level = \"a=b\"\n".toList)
    let overrides : Overrides := ⟨some .compact, some "info"⟩
    ¬ Crashes files (some "c.toml") (some "c=d") overrides ∧
      Resolution files (some "c.toml") (some "c=d") overrides ∧
      (resolve files (some "c.toml") (some "c=d") overrides).toOption =
        some { default with style := .compact, logLevel := "info" } := by
  intro files overrides
  have hfound : (resolve files (some "c.toml") (some "c=d") overrides).toOption =
      some { default with style := .compact, logLevel := "info" } := by
    decide +kernel
  have hcrash : ¬ Crashes files (some "c.toml") (some "c=d") overrides := by
    intro hcrashes
    rw [resolve_eq_crashed_iff.mpr hcrashes] at hfound
    cases hfound
  exact ⟨hcrash, (resolve_layers files (some "c.toml") (some "c=d") overrides).2 hcrash, hfound⟩

/-- A filter in the environment crashes although the command line covers it: without it the
settings are found, and with it they are not. -/
theorem resolve_covered_crashes :
    let files := FileSystem.unseen (.error .notFound)
    let overrides : Overrides := ⟨none, some "info"⟩
    let result : Config := { default with logLevel := "info" }
    default.layered (some "\u3000a=info") overrides = result ∧ result.Valid ∧
      resolve files none none overrides = .ok result ∧
      resolve files none (some "\u3000a=info") overrides = .error .crashed ∧
      ¬ Resolution files none (some "\u3000a=info") overrides := by
  intro files overrides result
  have hvalid : result.Valid := ⟨⟨by decide, nofun⟩, by decide⟩
  have hfound : resolve files none none overrides = .ok result :=
    (resolve_eq_ok_iff not_crashesOn_none .unnamed).mpr ⟨rfl, hvalid⟩
  have hcrash : resolve files none (some "\u3000a=info") overrides = .error .crashed := rfl
  refine ⟨rfl, hvalid, hfound, hcrash, fun h => ?_⟩
  obtain ⟨found, heq⟩ := h.environment_harmless ⟨result, hfound⟩
  rw [hcrash] at heq
  cases heq

end QueryLabel.Config
