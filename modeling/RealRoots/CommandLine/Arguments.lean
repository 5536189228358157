import RealRoots.Number.Literal

/-!
# Arguments

A command takes options and perhaps one text. An option is a switch or takes a value: the next
argument, or what is attached to it (`--x0=1`, `-n4`, `-n=4`). Short switches may be joined
(`-vt1`). After `--` no argument is an option.

* `CommandSpec`: what a command takes.
* `CommandSpec.read`: the arguments of a command, up to the name of a further command.
-/

namespace RealRoots.CommandLine

/-- What the value of an option has to be. -/
inductive ValueKind where
  | text
  | number
  | count
  deriving DecidableEq

def ValueKind.accepts : ValueKind → String → Bool
  | text, _ => true
  | number, value => (readFloat? value).isSome
  | count, value => (readCount? value).isSome

/-- Why the arguments are not carried out. -/
inductive Stop where
  /-- They are not well formed. -/
  | misuse
  /-- They ask for help. -/
  | help
  /-- They ask for the version of the program. -/
  | version
  deriving DecidableEq

/-- What an option does. -/
inductive OptionKind where
  | switch
  /-- Takes a value, which may start with a hyphen if `hyphens`. -/
  | value (kind : ValueKind) (hyphens : Bool)
  | stop (reason : Stop)
  deriving DecidableEq

/-- An option of a command. -/
structure OptionSpec where
  long : String
  short : Option Char := none
  kind : OptionKind
  required : Bool := false
  /-- An option that has to be given together with this one. -/
  partner : Option String := none
  /-- What holds without the option, as help shows it. -/
  default : Option String := none
  help : String

namespace OptionSpec

def takesValue (o : OptionSpec) : Bool :=
  match o.kind with
  | .value .. => true
  | _ => false

/-- Can the argument after the option be its value? -/
def takesNext (o : OptionSpec) (arg : String) : Bool :=
  match o.kind, arg.toList with
  | .value _ hyphens, '-' :: _ :: _ => hyphens
  | .value .., _ => true
  | _, _ => false

end OptionSpec

/-- A text that a command takes. -/
structure TextSpec where
  name : String
  help : String
  /-- Any number of such texts is taken, not just one. -/
  repeated : Bool := false

/-- What a command takes. -/
structure CommandSpec where
  name : String
  about : String
  text : Option TextSpec := none
  options : List OptionSpec := []
  /-- The names and meanings of further commands. -/
  commands : List (String × String) := []

/-- The arguments that were given to a command. -/
structure Given where
  text : Option String := none
  /-- The long names of the options, and their values. -/
  options : List (String × String) := []

namespace Given

/-- Was the option given? -/
def has (given : Given) (long : String) : Bool :=
  (given.options.lookup long).isSome

def number? (given : Given) (long : String) : Option Float :=
  (given.options.lookup long).bind readFloat?

def count? (given : Given) (long : String) : Option Nat :=
  (given.options.lookup long).bind readCount?

/-- Adds an option, which is given once at most and with a value that it accepts. -/
def add (given : Given) (o : OptionSpec) (value : String) : Except Stop Given :=
  match o.kind with
  | .stop reason => .error reason
  | .switch => addOnce
  | .value kind _ => if kind.accepts value then addOnce else .error .misuse
where
  addOnce : Except Stop Given :=
    if given.has o.long then .error .misuse
    else .ok { given with options := given.options ++ [(o.long, value)] }

end Given

/-- An argument as it is spelled. -/
inductive Argument where
  | plain (text : String)
  | long (name : String) (value : Option String)
  | shorts (letters : List Char)

/-- An argument with two hyphens is a long option, and one with a hyphen before other characters is
a list of short options. -/
def Argument.of (arg : String) : Argument :=
  match arg.toList with
  | '-' :: '-' :: cs =>
    let value :=
      match cs.dropWhile (· ≠ '=') with
      | _ :: value => some (String.ofList value)
      | [] => none
    .long (String.ofList (cs.takeWhile (· ≠ '='))) value
  | '-' :: c :: cs => .shorts (c :: cs)
  | _ => .plain arg

namespace CommandSpec

/-- Adds a text, which is given once at most. -/
def addText (command : CommandSpec) (given : Given) (text : String) : Except Stop Given :=
  if command.text.isSome && given.text.isNone then .ok { given with text := some text }
  else .error .misuse

/-- Adds short options. The last one may wait for a value, which is then returned. -/
def addShorts (command : CommandSpec) (given : Given) :
    List Char → Except Stop (Option OptionSpec × Given)
  | [] => .ok (none, given)
  | c :: cs =>
    match command.options.find? (·.short = some c) with
    | none => .error .misuse
    | some o =>
      if o.takesValue then
        match cs with
        | [] => .ok (some o, given)
        | '=' :: value => do .ok (none, ← given.add o (String.ofList value))
        | value => do .ok (none, ← given.add o (String.ofList value))
      else do addShorts command (← given.add o "") cs

/-- Adds a long option. It may wait for a value, and is then returned. -/
def addLong (command : CommandSpec) (given : Given) (name : String) (value : Option String) :
    Except Stop (Option OptionSpec × Given) :=
  match command.options.find? (·.long = name), value with
  | none, _ => .error .misuse
  | some o, some value =>
    if o.takesValue then do .ok (none, ← given.add o value) else .error .misuse
  | some o, none => if o.takesValue then .ok (some o, given) else do .ok (none, ← given.add o "")

/-- Reads arguments while an option may wait for its value. What is left starts with the name of a
further command. -/
def readFrom (command : CommandSpec) :
    Option OptionSpec → Given → List String → Except Stop (Given × List String)
  | none, given, [] => .ok (given, [])
  | some _, _, [] => .error .misuse
  | some o, given, arg :: args =>
    if o.takesNext arg then do readFrom command none (← given.add o arg) args else .error .misuse
  | none, given, arg :: args =>
    if command.commands.any (·.1 = arg) then .ok (given, arg :: args)
    else if arg = "--" then do .ok (← args.foldlM command.addText given, [])
    else
      match Argument.of arg with
      | .plain text => do readFrom command none (← command.addText given text) args
      | .long name value => do
        let (waiting, given) ← command.addLong given name value
        readFrom command waiting given args
      | .shorts letters => do
        let (waiting, given) ← command.addShorts given letters
        readFrom command waiting given args

/-- Is everything there that the command requires? -/
def isComplete (command : CommandSpec) (given : Given) : Bool :=
  (command.text.isNone || given.text.isSome) && command.options.all fun o =>
    if given.has o.long then o.partner.all given.has else !o.required

/-- Reads all arguments of a command, up to the name of a further command. -/
def read (command : CommandSpec) (args : List String) : Except Stop (Given × List String) := do
  let (given, rest) ← command.readFrom none {} args
  if command.isComplete given then .ok (given, rest) else .error .misuse

end CommandSpec

end RealRoots.CommandLine
