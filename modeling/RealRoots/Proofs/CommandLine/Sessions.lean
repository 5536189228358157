import Mathlib
import RealRoots.Proofs.CommandLine.Effective
import RealRoots.Proofs.Comparison.Separate
import RealRoots.Proofs.Record.Storage

/-!
# A session is one call of the library

A command that solves asks the library for one outcome (`Command.call?`), with the values that its
options and the settings file come to. The session prints that outcome, with the times that its runs
took, or the error (`Response.Reports`). As JSON it prints a record: the outcome itself, the text of
its function and the version of the format (`Record.IsOf`), which is what the text decodes to
(`Outcome.IsRecordedIn`).

**Theorem (`session_calls_library`).** Every such command is answered in this way, unless the
settings file has a value out of range. A test case is answered like the comparison of its function
and guesses.

All this is for any monad in which a session can find its files, its clock and the identity of a
record. Nothing is assumed of these but what `Surroundings.Dependable` says.
-/

namespace RealRoots

/-- What is printed before the comparison of a test case. -/
def TestCase.title (json : Bool) (c : TestCase) : List String :=
  if json then [] else [c.name ++ ": " ++ c.description, ""]

/-! ## The record of an outcome -/

/-- The record is one of the outcome. It has the outcome itself, the text of its function, which for
a comparison is that of the first run, and the version of the stored format. -/
structure Record.IsOf (r : Record) (outcome : Outcome) : Prop where
  outcome_eq : r.outcome = outcome
  expression_of_single : ∀ result, outcome = .single result → r.expression = result.expression
  expression_of_comparison : ∀ c, outcome = .comparison c →
    r.expression = c.first.result.expression
  schemaVersion_eq : r.schemaVersion = "0.1.0"

theorem Record.isOf_ofOutcome (id : Uuid) (created : Timestamp) (outcome : Outcome) :
    (ofOutcome id created outcome).IsOf outcome where
  outcome_eq := rfl
  expression_of_single := by
    rintro result rfl
    rfl
  expression_of_comparison := by
    rintro c rfl
    rfl
  schemaVersion_eq := rfl

/-- The text is a record of the outcome as JSON, over several lines. The record is decoded from it, as
long as its doubles are finite and its counts have 64 bits. -/
def Outcome.IsRecordedIn (outcome : Outcome) (text : String) : Prop :=
  ∃ r : Record, text = (write r).pretty ∧ r.IsOf outcome ∧
    (Fits outcome → decode? Record text = some r)

theorem Outcome.isRecordedIn_ofOutcome (id : Uuid) (created : Timestamp) (outcome : Outcome) :
    outcome.IsRecordedIn (write (Record.ofOutcome id created outcome)).pretty :=
  ⟨_, rfl, Record.isOf_ofOutcome id created outcome, fun hfits => decode?_eq hfits .pretty⟩

namespace CommandLine

/-! ## The call of a command -/

/-- What a command that solves asks of the library, under a settings file. -/
def Command.call? (file : Json) : Command → Option (Except SolverError Outcome)
  | .newton expression x0 finalPoint flags =>
    some <| .map .single <| Newton.solve {
      expression, x0
      config := flags.effectiveConfig file
      derivative := flags.effectiveDerivative file
      recordFinalPoint := effectiveFinalPoint finalPoint file }
  | .secant expression x0 x1 flags =>
    some <| .map .single <| Secant.solve {
      expression, x0, x1
      config := flags.effectiveConfig file }
  | .compare expression x0 x1 flags =>
    some <| .map .comparison <| ComparisonInput.solve {
      expression, x0, x1
      config := flags.effectiveConfig file
      derivative := flags.effectiveDerivative file }
  | .case id flags =>
    (findCase? id).map fun c => .map .comparison <| ComparisonInput.solve {
      expression := c.function
      x0 := c.initialGuess
      x1 := c.secondGuess
      config := flags.effectiveConfig file
      derivative := flags.effectiveDerivative file }
  | .cases => none
  | .sample .. => none

/-! ## What is reported of a call -/

/-- The same outcome, with the times that its runs took. -/
inductive ClockedAs : Outcome → Outcome → Prop
  | single (result : RootResult) (time : Float) :
      ClockedAs (.single result) (.single { result with executionTimeMs := time })
  | comparison (a b : RootResult) (s t : Float) :
      ClockedAs (.comparison (.judge (.ofResult a) (.ofResult b)))
        (.comparison (.judge (.ofResult { a with executionTimeMs := s })
          (.ofResult { b with executionTimeMs := t })))

/-- The lines that an outcome is printed as: a record of it as JSON, or its report. -/
inductive PrintedAs : Bool → Outcome → List String → Prop
  | record {outcome : Outcome} {text : String} :
      outcome.IsRecordedIn text → PrintedAs true outcome [text]
  | result (result : RootResult) : PrintedAs false (.single result) result.report
  | comparison (c : Comparison) : PrintedAs false (.comparison c) c.report

namespace Response

/-- The response with a title before its output. -/
def titled (title : List String) (response : Response) : Response :=
  { response with output := title ++ response.output }

/-- How a session ends: its exit code and the error that it reports. -/
def ending (response : Response) : UInt8 × List String :=
  (response.exitCode, response.errors)

/-- What a session answers to a call of the library. It succeeds exactly if there is an outcome, and
prints it; an error is reported in words and as JSON. With `json` nothing else is printed. The log is
no part of the answer, so there may be lines of it beside those of `errors`, also if these are none. -/
structure Reports (response : Response) (json : Bool) (call : Except SolverError Outcome) :
    Prop where
  exit_iff : response.exitCode = 0 ↔ ∃ outcome, call = .ok outcome
  ok : ∀ outcome, call = .ok outcome → response.errors = [] ∧
    ∃ title clocked lines, (json → title = []) ∧ ClockedAs outcome clocked ∧
      PrintedAs json clocked lines ∧ response.output = title ++ lines
  error : ∀ e, call = .error e → response.exitCode = 1 ∧
    response.errors = ["Error: " ++ e.message, "Hint: " ++ e.guidance, "", "Error JSON:",
      (write e).pretty] ∧ (json → response.output = [])

namespace Reports

variable {json : Bool}

theorem of_ok {outcome clocked : Outcome} {lines : List String} (h : ClockedAs outcome clocked)
    (hlines : PrintedAs json clocked lines) :
    (Printout.toResponse { lines }).Reports json (.ok outcome) where
  exit_iff := iff_of_true rfl ⟨outcome, rfl⟩
  ok := by
    rintro _ ⟨⟩
    exact ⟨rfl, [], clocked, lines, fun _ => rfl, h, hlines, rfl⟩
  error _ he := by cases he

theorem of_error (e : SolverError) :
    (Printout.failing (.solver e)).toResponse.Reports json (.error e) where
  exit_iff := iff_of_false (show ¬ (1 : UInt8) = 0 by decide) fun ⟨_, h⟩ => by cases h
  ok _ h := by cases h
  error := by
    rintro _ ⟨⟩
    exact ⟨rfl, rfl, fun _ => rfl⟩

theorem titled {response : Response} {call : Except SolverError Outcome} {lines : List String}
    (h : response.Reports json call) (hlines : json → lines = []) :
    (response.titled lines).Reports json call where
  exit_iff := h.exit_iff
  ok outcome hcall := by
    obtain ⟨herrors, title, clocked, printed, htitle, hclocked, hprinted, houtput⟩ :=
      h.ok outcome hcall
    refine ⟨herrors, lines ++ title, clocked, printed, fun hjson => ?_, hclocked, hprinted, ?_⟩
    · rw [hlines hjson, htitle hjson]
      rfl
    · rw [Response.titled, houtput, List.append_assoc]
  error e hcall := by
    obtain ⟨hexit, herrors, houtput⟩ := h.error e hcall
    refine ⟨hexit, herrors, fun hjson => ?_⟩
    rw [Response.titled, hlines hjson, houtput hjson]
    rfl

/-- With `json` the output is one text, a record of the outcome. -/
theorem output_of_json {response : Response} {call : Except SolverError Outcome}
    {outcome : Outcome} (h : response.Reports true call)
    (hcall : call = .ok outcome) : ∃ clocked text, ClockedAs outcome clocked ∧
      clocked.IsRecordedIn text ∧ response.output = [text] := by
  obtain ⟨-, title, clocked, lines, htitle, hclocked, hlines, houtput⟩ := h.ok outcome hcall
  rw [htitle rfl, List.nil_append] at houtput
  cases hlines with
  | record hrecorded => exact ⟨clocked, _, hclocked, hrecorded, houtput⟩

end Reports

end Response

/-! ## The same session for a test case -/

namespace Session

variable {m : Type → Type} [Monad m] [LawfulMonad m] {outside : Surroundings m}

theorem toResponse_after (printout : Printout) (lines : List String) :
    (printout.after lines).toResponse = printout.toResponse.titled lines := by
  obtain ⟨_, _ | failure⟩ := printout <;> rfl

/-- A test case is a comparison with a title. -/
theorem carryOut_case (s : Settings) (json : Bool) {id : String} {c : TestCase}
    (hc : findCase? id = some c) (flags : SolveFlags) :
    carryOut outside s json (.case id flags) =
      (fun printout => printout.after (c.title json)) <$> printComparison outside json {
        expression := c.function
        x0 := c.initialGuess
        x1 := c.secondGuess
        config := flags.solverConfig s
        derivative := flags.derivativeOptions s } := by
  rw [carryOut, hc, ← bind_pure_comp]
  rfl

variable {args args' : List String} {invocation : Invocation}

theorem respond_eq (hargs : Invocation.read args = .ok invocation) :
    respond outside args = Printout.toResponse <$> invoke outside invocation := by
  rw [respond, hargs, ← bind_pure_comp]

/-- Whatever is observed of a test case and does not depend on its title is observed of the
comparison of its function and guesses. -/
theorem respond_case {β : Type} (observe : Response → β) {id : String} {flags : SolveFlags}
    {c : TestCase} (hargs : Invocation.read args = .ok invocation)
    (hcommand : invocation.command = .case id flags) (hc : findCase? id = some c)
    (hargs' : Invocation.read args' = .ok
      { invocation with command := .compare c.function c.initialGuess c.secondGuess flags })
    (htitle : ∀ response : Response,
      observe (response.titled (c.title invocation.json)) = observe response) :
    observe <$> respond outside args = observe <$> respond outside args' := by
  rw [respond_eq hargs, respond_eq hargs', invoke, invoke]
  simp only [map_bind]
  refine bind_congr fun config => ?_
  cases settings invocation.config config with
  | error failure => rfl
  | ok s =>
    dsimp only
    rw [hcommand, carryOut_case s _ hc]
    simp only [Functor.map_map, toResponse_after, htitle]
    rfl

end Session

/-! ## What a session does -/

section

open Std.Do

set_option mvcgen.warning false

variable {m : Type → Type} {ps : PostShape} [Monad m] [WPMonad m ps] {outside : Surroundings m}

/-- What a session relies on: the clock hands on the value that it times, and a record gets an
identity. -/
structure Surroundings.Dependable (outside : Surroundings m) : Prop where
  timed : ∀ {α : Type} (compute : Unit → α),
    ⦃⌜True⌝⦄ outside.timed compute ⦃⇓ timed => ⌜timed.1 = compute ()⌝⦄
  identity : ⦃⌜True⌝⦄ outside.identity ⦃⇓ _ => ⌜True⌝⦄

namespace Session

variable (json : Bool) (houtside : outside.Dependable)

include houtside

theorem printOutcome_spec (outcome : Outcome) :
    ⦃⌜True⌝⦄ printOutcome outside json outcome
    ⦃⇓ printout => ⌜∃ lines, PrintedAs json outcome lines ∧ printout = { lines }⌝⦄ := by
  have hidentity := houtside.identity
  mvcgen [printOutcome, hidentity] with mpure_intro
  case vc1 hjson identity =>
    rw [hjson]
    exact ⟨_, .record (outcome.isRecordedIn_ofOutcome identity.1 identity.2), rfl⟩
  case vc2 hjson result _ =>
    rw [eq_false_of_ne_true hjson]
    exact ⟨_, .result result, rfl⟩
  case vc3 hjson c _ =>
    rw [eq_false_of_ne_true hjson]
    exact ⟨_, .comparison c, rfl⟩

theorem printRun_spec (run : Unit → Except SolverError RootResult) :
    ⦃⌜True⌝⦄ printRun outside json run
    ⦃⇓ printout => ⌜printout.toResponse.Reports json ((run ()).map .single)⌝⦄ := by
  have htimed := @houtside.timed
  have houtcome := printOutcome_spec json houtside
  mvcgen [printRun, htimed, houtcome]
  case vc1 e _ _ hrun =>
    mpure_intro
    rw [← hrun]
    exact .of_error e
  case vc2 result time _ hrun printout =>
    mrename_i hprintout
    mpure hprintout
    obtain ⟨lines, hlines, rfl⟩ := hprintout
    mpure_intro
    rw [← hrun]
    exact .of_ok (.single result time) hlines

theorem printComparison_spec (input : ComparisonInput) :
    ⦃⌜True⌝⦄ printComparison outside json input
    ⦃⇓ printout => ⌜printout.toResponse.Reports json (input.solve.map .comparison)⌝⦄ := by
  have htimed := @houtside.timed
  have houtcome := printOutcome_spec json houtside
  mvcgen [printComparison, htimed, houtcome]
  case vc1 e hformula =>
    mpure_intro
    rw [ComparisonInput.solve, hformula]
    exact .of_error e
  case vc2 f hformula newton hnewton secant hsecant printout =>
    mrename_i hprintout
    mpure hprintout
    obtain ⟨lines, hlines, rfl⟩ := hprintout
    mpure_intro
    rw [hnewton, hsecant] at hlines
    rw [ComparisonInput.solve, hformula]
    exact .of_ok (.comparison _ _ newton.2 secant.2) hlines

/-- **A command under settings in range reports its call.** -/
theorem carryOut_spec {s : Settings} {file : Json} (hs : s.Reads file) {command : Command}
    {call : Except SolverError Outcome} (hcall : command.call? file = some call) :
    ⦃⌜True⌝⦄ carryOut outside s json command
    ⦃⇓ printout => ⌜printout.toResponse.Reports json call⌝⦄ := by
  cases command with
  | newton expression x0 finalPoint flags =>
    cases hcall
    rw [carryOut, hs.solverConfig_eq, hs.derivativeOptions_eq, hs.recordFinalPoint]
    exact printRun_spec json houtside _
  | secant expression x0 x1 flags =>
    cases hcall
    rw [carryOut, hs.solverConfig_eq]
    exact printRun_spec json houtside _
  | compare expression x0 x1 flags =>
    cases hcall
    rw [carryOut, hs.solverConfig_eq, hs.derivativeOptions_eq]
    exact printComparison_spec json houtside _
  | case id flags =>
    obtain ⟨c, hc, rfl⟩ := Option.map_eq_some_iff.1 hcall
    rw [carryOut_case _ _ hc, hs.solverConfig_eq, hs.derivativeOptions_eq]
    have hcomparison := printComparison_spec json houtside
    mvcgen [hcomparison]
    mrename_i hreports
    mpure hreports
    mpure_intro
    rw [toResponse_after]
    exact hreports.titled fun hjson => if_pos hjson
  | cases => cases hcall
  | sample => cases hcall

variable {args : List String} {invocation : Invocation}

/-- A settings file out of range is refused before the command is looked at. -/
theorem invoke_spec {file : Json}
    (hfile : ⦃⌜True⌝⦄ outside.configFile invocation.config
      ⦃⇓ config => ⌜config.DecodesTo file⌝⦄)
    {call : Except SolverError Outcome} (hcall : invocation.command.call? file = some call) :
    ⦃⌜True⌝⦄ invoke outside invocation
    ⦃⇓ printout => ⌜(¬ KeysInRange file → ∃ field value reason,
        printout = Printout.failing (.solver (.invalidParameter field value reason))) ∧
      (KeysInRange file → printout.toResponse.Reports invocation.json call)⌝⦄ := by
  refine Triple.bind _ _ hfile fun config => ?_
  mintro hdecodes
  mpure hdecodes
  obtain ⟨hrange, s, hs, hsettings⟩ | ⟨hrange, field, value, reason, hsettings⟩ :=
    hdecodes.settings_cases invocation.config
  · have hcarry := carryOut_spec invocation.json houtside hs hcall
    rw [hsettings]
    mvcgen [hcarry]
    mrename_i hreports
    mpure hreports
    mpure_intro
    exact ⟨fun h => absurd hrange h, fun _ => hreports⟩
  · rw [hsettings]
    mvcgen
    mpure_intro
    exact ⟨fun _ => ⟨field, value, reason, rfl⟩, fun h => absurd h hrange⟩

theorem respond_spec (hargs : Invocation.read args = .ok invocation) {file : Json}
    (hfile : ⦃⌜True⌝⦄ outside.configFile invocation.config
      ⦃⇓ config => ⌜config.DecodesTo file⌝⦄)
    {call : Except SolverError Outcome} (hcall : invocation.command.call? file = some call) :
    ⦃⌜True⌝⦄ respond outside args
    ⦃⇓ response => ⌜(¬ KeysInRange file → ∃ field value reason, response =
        { exitCode := 1
          errors := (Failure.solver (.invalidParameter field value reason)).report }) ∧
      (KeysInRange file → response.Reports invocation.json call)⌝⦄ := by
  rw [respond, hargs]
  have hinvoke := invoke_spec houtside hfile hcall
  mvcgen [hinvoke] with mpure_intro
  case vc1 printout hprintout =>
    refine ⟨fun hrange => ?_, hprintout.2⟩
    obtain ⟨field, value, reason, rfl⟩ := hprintout.1 hrange
    exact ⟨field, value, reason, rfl⟩

end Session

/-- **A session is one call of the library.** Under a settings file that decodes, a command that
solves is answered with what the library gives for the values that options and file come to: exit
code zero, and with `json` the record of the result, exactly if there is one, and exit code one with
the error if not. A file with a value out of range is refused, whatever the options say. A test case
prints the record of the comparison of its function and guesses, and ends like it. -/
theorem session_calls_library (houtside : outside.Dependable) {args : List String}
    {invocation : Invocation}
    (hargs : Invocation.read args = .ok invocation) {file : Json}
    (hfile : ⦃⌜True⌝⦄ outside.configFile invocation.config
      ⦃⇓ config => ⌜config.DecodesTo file⌝⦄)
    {call : Except SolverError Outcome} (hcall : invocation.command.call? file = some call) :
    ⦃⌜True⌝⦄ Session.respond outside args
    ⦃⇓ response => ⌜(¬ KeysInRange file → ∃ field value reason, response =
        { exitCode := 1
          errors := (Failure.solver (.invalidParameter field value reason)).report }) ∧
      (KeysInRange file → response.Reports invocation.json call)⌝⦄ ∧
    ∀ id flags c args', invocation.command = .case id flags → findCase? id = some c →
      Invocation.read args' = .ok
        { invocation with command := .compare c.function c.initialGuess c.secondGuess flags } →
      (invocation.json → Session.respond outside args = Session.respond outside args') ∧
        Response.ending <$> Session.respond outside args =
          Response.ending <$> Session.respond outside args' := by
  refine ⟨Session.respond_spec houtside hargs hfile hcall,
    fun _ flags c args' hcommand hc hargs' => ⟨fun hjson => ?_, ?_⟩⟩
  · have htitle : c.title invocation.json = [] := if_pos hjson
    rw [← id_map (Session.respond outside args), ← id_map (Session.respond outside args')]
    refine Session.respond_case id hargs hcommand hc hargs' fun response => ?_
    rw [htitle]
    rfl
  · exact Session.respond_case Response.ending hargs hcommand hc hargs' fun _ => rfl

/-- Where one file sets a limit of no iterations, each run takes a millisecond and a half, and each
record gets the same identity. -/
def Surroundings.still (id : Uuid) (now : Timestamp) : Surroundings Id where
  configFile path :=
    pure (if path = "zero.toml" then .text "max_iterations = 0\n" else .missing)
  timed compute := pure (compute (), 1.5)
  identity := pure (id, now)

section

variable (id : Uuid) (now : Timestamp)

theorem Surroundings.still_dependable : (still id now).Dependable :=
  ⟨fun _ => Triple.pure _ fun _ => rfl, Triple.pure _ fun _ => trivial⟩

theorem Surroundings.still_missing : ⦃⌜True⌝⦄ (still id now).configFile "rootfind.toml"
    ⦃⇓ config => ⌜config.DecodesTo (.object [])⌝⦄ :=
  Triple.pure _ fun _ => .missing

/-- The file with a limit of no iterations decodes, and the limit is its key. -/
theorem Surroundings.exists_still_zero : ∃ file,
    (⦃⌜True⌝⦄ (still id now).configFile "zero.toml" ⦃⇓ config => ⌜config.DecodesTo file⌝⦄) ∧
      ¬ KeysInRange file := by
  have hsome : ((Toml.parse? "max_iterations = 0\n").bind fun file =>
      (read? file : Option Settings)).isSome := by decide +kernel
  obtain ⟨s, hs⟩ := Option.isSome_iff_exists.1 hsome
  obtain ⟨file, hparse, hread⟩ := Option.bind_eq_some_iff.1 hs
  have hzero : (Toml.parse? "max_iterations = 0\n").bind
      (fun file => (file.required "max_iterations" : Option Nat)) = some 0 := by decide +kernel
  rw [hparse, Option.bind_some] at hzero
  exact ⟨file, Triple.pure _ fun _ => .text hparse hread,
    fun hrange => hrange.maxIterations 0 hzero rfl⟩

theorem Session.printRun_still {run : Unit → Except SolverError RootResult} {result : RootResult}
    (h : run () = .ok result) : printRun (.still id now) true run =
      Printout.json (write (Record.ofOutcome id now (.single (result.timed 1.5)))) := by
  unfold printRun Surroundings.still
  simp only [h, pure_bind]
  rfl

end

theorem solve_identity : Newton.solve { expression := "x", x0 := 1 } =
    .ok (Newton.run ⟨"x", .x⟩ { expression := "x", x0 := 1 }) := by
  have hmet : firstUnmet (NewtonInput.demands { expression := "x", x0 := 1 }) = .ok () :=
    toOption_eq_some.1 (by decide +kernel)
  rw [Newton.solve_eq, start, hmet, ok_bind, readFormula_x, ok_bind]

/-- A limit of no iterations in the file is refused though an option sets another. Without the file
a run from `x` at `1` has a result. With `--json` the one text that is printed decodes to a record of
this result, with the time that the clock gave. A test case prints the record of its comparison. -/
theorem answers_for_refused_file_and_without_file :
    let id : Uuid := ⟨List.replicate 32 0, rfl⟩
    let now : Timestamp :=
      ⟨⟨2024, 2, 29, by decide, by decide, by decide⟩, 23, 59, 60, 500000000, by decide, by decide,
        by decide, by decide⟩
    let answer (args : List String) : Response := (Session.respond (.still id now) args).run
    let result := Newton.run ⟨"x", .x⟩ { expression := "x", x0 := 1 }
    (answer ["newton", "x", "--x0", "1", "-n", "5", "-c", "zero.toml"]).exitCode = 1 ∧
      (answer ["newton", "x", "--x0", "1"]).exitCode = 0 ∧
      (∃ text time, (answer ["newton", "x", "--x0", "1", "--json"]).output = [text] ∧
        (Outcome.single { result with executionTimeMs := time }).IsRecordedIn text ∧
        decode? Record text = some {
          id, created := now, schemaVersion := "0.1.0", expression := "x"
          outcome := .single { result with executionTimeMs := 1.5 } }) ∧
      answer ["case", "quadratic", "--json"] =
        answer ["compare", "x^2 - 4", "--x0", "3", "--x1", "2", "--json"] := by
  intro id now answer result
  have houtside := Surroundings.still_dependable id now
  have hmissing := Surroundings.still_missing id now
  have hcall :
      Command.call? (.object []) (.newton "x" 1 false {}) = some (.ok (.single result)) :=
    congrArg (fun call => some (Except.map Outcome.single call)) solve_identity
  refine ⟨?_, ?_, ?_, ?_⟩
  · have hargs : Invocation.read ["newton", "x", "--x0", "1", "-n", "5", "-c", "zero.toml"] =
        .ok ⟨"zero.toml", false, .newton "x" 1 false { maxIterations := some 5 }⟩ :=
      toOption_eq_some.1 (by decide +kernel)
    obtain ⟨file, hfile, hrange⟩ := Surroundings.exists_still_zero id now
    obtain ⟨_, _, _, hanswer⟩ := (Id.of_wp_run_eq rfl _
      (session_calls_library houtside hargs hfile rfl).1).1 hrange
    exact congrArg Response.exitCode hanswer
  · have hargs : Invocation.read ["newton", "x", "--x0", "1"] =
        .ok ⟨"rootfind.toml", false, .newton "x" 1 false {}⟩ :=
      toOption_eq_some.1 (by decide +kernel)
    have hreports := (Id.of_wp_run_eq rfl _
      (session_calls_library houtside hargs hmissing hcall).1).2 keysInRange_of_none
    exact hreports.exit_iff.2 ⟨_, rfl⟩
  · have hargs : Invocation.read ["newton", "x", "--x0", "1", "--json"] =
        .ok ⟨"rootfind.toml", true, .newton "x" 1 false {}⟩ :=
      toOption_eq_some.1 (by decide +kernel)
    have hreports := (Id.of_wp_run_eq rfl _
      (session_calls_library houtside hargs hmissing hcall).1).2 keysInRange_of_none
    obtain ⟨_, text, ⟨_, time⟩, hrecorded, houtput⟩ := hreports.output_of_json rfl
    let record := Record.ofOutcome id now (.single (result.timed 1.5))
    have hrun := @Session.printRun_still id now
      (fun _ => Newton.solve { expression := "x", x0 := 1 }) _ solve_identity
    have hresponse : answer ["newton", "x", "--x0", "1", "--json"] =
        Printout.toResponse (.json (write record)) :=
      (Session.respond_eq hargs).trans (congrArg Printout.toResponse hrun)
    have htext : [text] = [(write record).pretty] :=
      houtput.symm.trans (congrArg Response.output hresponse)
    obtain rfl : text = (write record).pretty := (List.cons.inj htext).1
    have hfits : Fits record := by decide +kernel
    exact ⟨_, time, houtput, hrecorded, decode?_eq hfits .pretty⟩
  · have hargs : Invocation.read ["case", "quadratic", "--json"] =
        .ok ⟨"rootfind.toml", true, .case "quadratic" {}⟩ := toOption_eq_some.1 (by decide +kernel)
    have hargs' : Invocation.read ["compare", "x^2 - 4", "--x0", "3", "--x1", "2", "--json"] =
        .ok ⟨"rootfind.toml", true, .compare "x^2 - 4" 3 2 {}⟩ :=
      toOption_eq_some.1 (by decide +kernel)
    exact ((session_calls_library houtside hargs hmissing rfl).2 "quadratic" {} _ _ rfl rfl
      hargs').1 rfl

end

end CommandLine

end RealRoots
