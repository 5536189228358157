import RealRoots.CommandLine.Session
import RealRoots.Proofs.Solver.Refusal

/-!
# The settings that hold for a command

A value is that of the option if it is given, else that of the key of the settings file, else the
built-in one. The file is judged on its own keys, whatever the options say.

* `SolveFlags.effectiveConfig`, `SolveFlags.effectiveDerivative`: the configuration of a run, read
  off the options and the keys of the file.
* `Settings.Reads`: the settings that a file holds, key by key.
* `ConfigFile.DecodesTo.settings_cases`: a session has these settings, if they are in range.
-/

namespace RealRoots

/-- A field with a default has the value that the object gives it, or else the default. -/
theorem Json.eq_getD_of_orElse {α : Type} [Stored α] {value : Json} {name : String}
    {default a : α} (h : value.orElse name default = some a) :
    a = (value.required name).getD default := by
  rw [orElse] at h
  rw [required]
  cases hfield : value.field? name with
  | none =>
    rw [hfield] at h
    exact (Option.some.inj h).symm
  | some field =>
    rw [hfield] at h
    rw [Option.bind_some, show read? field = some a from h]
    rfl

/-- What holds of the default holds of a value with that default if it holds where there is one. -/
theorem holds_getD_iff {α : Type} {P : α → Prop} {default : α} (h : P default) {value : Option α} :
    P (value.getD default) ↔ ∀ a, value = some a → P a := by
  cases value with
  | none => simp [h]
  | some a => simp

namespace CommandLine

/-! ## What options and keys come to -/

namespace SolveFlags

/-- The configuration of a run under a settings file. The stopping rule is that on the residual if
the option or the file asks for it. -/
def effectiveConfig (flags : SolveFlags) (file : Json) : SolverConfig where
  tolerance := (flags.tolerance <|> file.required "tolerance").getD 1e-4
  maxIterations := (flags.maxIterations <|> file.required "max_iterations").getD 50
  stoppingRule :=
    if flags.residual ∨ file.required "stopping_rule" = some StoppingRule.residual then .residual
    else .stepSize

/-- The slopes of a run under a settings file. They are exact where they can be if the option or the
file asks for it, and no option sets the step of the others. -/
def effectiveDerivative (flags : SolveFlags) (file : Json) : DerivativeOptions where
  method :=
    if flags.shortcut ∨ file.required "derivative_method" = some Differentiation.shortcut then
      .shortcut
    else .centralDifference
  step := (file.required "derivative_step").getD 1e-7

end SolveFlags

/-- Is the final point to be recorded, by the option or by the file? -/
def effectiveFinalPoint (finalPoint : Bool) (file : Json) : Bool :=
  finalPoint || (file.required "record_final_point").getD false

/-- The keys of the file that are checked have values in range. -/
structure KeysInRange (file : Json) : Prop where
  tolerance : ∀ tolerance, file.required "tolerance" = some tolerance → isPositive tolerance
  maxIterations : ∀ limit : Nat, file.required "max_iterations" = some limit → limit ≠ 0
  derivativeStep : ∀ step, file.required "derivative_step" = some step → isPositive step

end CommandLine

/-! ## The settings of a file -/

/-- The settings are those of the keys of the file. -/
structure Settings.Reads (s : Settings) (file : Json) : Prop where
  tolerance : s.tolerance = (file.required "tolerance").getD 1e-4
  maxIterations : s.maxIterations = (file.required "max_iterations").getD 50
  stoppingRule : s.stoppingRule = (file.required "stopping_rule").getD .stepSize
  derivativeMethod :
    s.derivativeMethod = (file.required "derivative_method").getD .centralDifference
  derivativeStep : s.derivativeStep = (file.required "derivative_step").getD 1e-7
  recordFinalPoint : s.recordFinalPoint = (file.required "record_final_point").getD false

namespace Settings

theorem reads_of_read? {s : Settings} {fields : List (String × Json)}
    (h : read? (Json.object fields) = some s) : s.Reads (.object fields) := by
  simp only [read?, Json.readFields, Option.bind_eq_bind, Option.bind_eq_some_iff] at h
  obtain ⟨_, h₁, _, h₂, _, h₃, _, h₄, _, h₅, _, h₆, _, -, _, -, h⟩ := h
  cases h
  exact ⟨Json.eq_getD_of_orElse h₁, Json.eq_getD_of_orElse h₂, Json.eq_getD_of_orElse h₃,
    Json.eq_getD_of_orElse h₄, Json.eq_getD_of_orElse h₅, Json.eq_getD_of_orElse h₆⟩

/-- The defaults are the settings of a file without keys. -/
theorem reads_default : default.Reads (.object []) := by
  constructor <;> rfl

theorem validate_eq_ok {s : Settings} : s.validate = .ok () ↔
    (isPositive s.tolerance ∧ s.maxIterations ≠ 0) ∧ isPositive s.derivativeStep := by
  rw [validate, both_eq_ok, SolverConfig.validate_eq_ok, DerivativeOptions.validate_eq_ok]
  rfl

/-- Settings out of range are refused with an error about a parameter. -/
theorem validate_error {s : Settings} (h : s.validate ≠ .ok ()) : ∃ field value reason,
    s.validate = .error (.invalidParameter field value reason) := by
  have hdemands : s.validate =
      firstUnmet (s.solverConfig.demands ++ s.derivativeOptions.demands) := by
    rw [validate, firstUnmet_append, SolverConfig.validate_eq, DerivativeOptions.validate_eq]
  cases hvalidate : s.validate with
  | ok _ => exact absurd hvalidate h
  | error e =>
    obtain ⟨_, d, _, -, -, -, rfl⟩ := firstUnmet_eq_error.1 (hdemands ▸ hvalidate)
    exact ⟨d.field, d.value, d.reason, rfl⟩

namespace Reads

variable {s : Settings} {file : Json} (h : s.Reads file)

include h

/-- A configuration takes what the options and keys come to. -/
theorem solverConfig_eq (flags : CommandLine.SolveFlags) :
    flags.solverConfig s = flags.effectiveConfig file := by
  unfold CommandLine.SolveFlags.solverConfig CommandLine.SolveFlags.effectiveConfig
  rw [h.tolerance, h.maxIterations, h.stoppingRule]
  congr 1
  · cases flags.tolerance <;> rfl
  · cases flags.maxIterations <;> rfl
  · cases flags.residual with
    | true => simp
    | false => rcases (file.required "stopping_rule" : Option StoppingRule) with _ | _ | _ <;> simp

theorem derivativeOptions_eq (flags : CommandLine.SolveFlags) :
    flags.derivativeOptions s = flags.effectiveDerivative file := by
  unfold CommandLine.SolveFlags.derivativeOptions CommandLine.SolveFlags.effectiveDerivative
  rw [h.derivativeMethod, h.derivativeStep]
  congr 1
  cases flags.shortcut with
  | true => simp
  | false =>
    rcases (file.required "derivative_method" : Option Differentiation) with _ | _ | _ <;> simp

/-- The settings are in range if the keys of the file are: the defaults are. -/
theorem validate_eq_ok_iff : s.validate = .ok () ↔ CommandLine.KeysInRange file := by
  have htolerance : isPositive 1e-4 := by decide +kernel
  have hstep : isPositive 1e-7 := by decide +kernel
  rw [validate_eq_ok, h.tolerance, h.maxIterations, h.derivativeStep,
    holds_getD_iff (P := (isPositive · = true)) htolerance,
    holds_getD_iff (P := (· ≠ 0)) (by decide), holds_getD_iff (P := (isPositive · = true)) hstep]
  exact ⟨fun ⟨⟨ht, hn⟩, hs⟩ => ⟨ht, hn, hs⟩, fun ⟨ht, hn, hs⟩ => ⟨⟨ht, hn⟩, hs⟩⟩

end Reads

end Settings

namespace CommandLine

theorem eq_object_of_parse? {text : String} {file : Json} (h : Toml.parse? text = some file) :
    ∃ fields, file = .object fields := by
  simp only [Toml.parse?, Option.bind_eq_bind, Option.bind_eq_some_iff] at h
  obtain ⟨_, -, _, -, _, -, h⟩ := h
  exact ⟨_, (Option.some.inj h).symm⟩

theorem keysInRange_of_none : KeysInRange (.object []) := by
  constructor <;> intro _ h <;> cases h

/-- A settings file as the object of its keys. A missing file has no keys; any other is a document
whose keys have values of the right kinds. -/
inductive ConfigFile.DecodesTo : ConfigFile → Json → Prop
  | missing : DecodesTo .missing (.object [])
  | text {text : String} {file : Json} {s : Settings} :
      Toml.parse? text = some file → read? file = some s → DecodesTo (.text text) file

/-- **A session has the settings of the file, if these are in range.** -/
theorem ConfigFile.DecodesTo.settings_cases {config : ConfigFile} {file : Json}
    (h : config.DecodesTo file) (path : String) :
    (KeysInRange file ∧ ∃ s : Settings, s.Reads file ∧ Session.settings path config = .ok s) ∨
    (¬ KeysInRange file ∧ ∃ field value reason,
      Session.settings path config = .error (.solver (.invalidParameter field value reason))) := by
  have hvalidated : ∃ s : Settings, s.Reads file ∧
      Session.settings path config = s.validate.mapError .solver >>= fun _ => .ok s := by
    cases h with
    | missing =>
      have hvalid : Settings.default.validate = .ok () :=
        Settings.reads_default.validate_eq_ok_iff.2 keysInRange_of_none
      refine ⟨.default, Settings.reads_default, ?_⟩
      rw [hvalid]
      rfl
    | @text text file s hparse hread =>
      obtain ⟨fields, rfl⟩ := eq_object_of_parse? hparse
      refine ⟨s, Settings.reads_of_read? hread, ?_⟩
      simp only [Session.settings, hparse, Option.bind_some, hread]
  obtain ⟨s, hs, hsettings⟩ := hvalidated
  rw [← hs.validate_eq_ok_iff]
  by_cases hvalid : s.validate = .ok ()
  · rw [hvalid] at hsettings
    exact .inl ⟨hvalid, s, hs, hsettings⟩
  · obtain ⟨field, value, reason, hinvalid⟩ := Settings.validate_error hvalid
    rw [hinvalid] at hsettings
    exact .inr ⟨hvalid, field, value, reason, hsettings⟩

end CommandLine

end RealRoots
