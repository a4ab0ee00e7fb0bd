/-!
# Command-line options

The program takes options only: three that carry a value, in the next argument or attached to the
name, and three that do not. An option that has its name in an argument of its own is settled only
when the next option, or the end, is reached (`Reading.pending`); an unknown argument is reported
before an option that is still to be settled.
-/

set_option autoImplicit false
set_option relaxedAutoImplicit false

namespace Logbook.CommandLine

/-- What the arguments ask for. -/
structure Options where
  config : Option String := none
  pretty : Bool := false
  debug : Bool := false
  level : Option String := none
  bind : Option String := none
  deriving DecidableEq, Repr, Inhabited

/-- An option that carries a value. -/
inductive Setting where
  | config
  | level
  | bind
  deriving DecidableEq, Repr

namespace Setting

/-- The option as messages name it. -/
def text : Setting → String
  | config => "--config <CONFIG>"
  | level => "--level <LEVEL>"
  | bind => "--bind <BIND>"

/-- The value of the option, if it has been given. -/
def value? (o : Options) : Setting → Option String
  | config => o.config
  | level => o.level
  | bind => o.bind

/-- The options with a value for this one. -/
def put (value : String) (o : Options) : Setting → Options
  | config => { o with config := some value }
  | level => { o with level := some value }
  | bind => { o with bind := some value }

end Setting

/-- An option without a value. -/
inductive Switch where
  | pretty
  | debug
  | help
  deriving DecidableEq, Repr

/-- The switch as messages name it. -/
def Switch.text : Switch → String
  | pretty => "--pretty"
  | debug => "--debug"
  | help => "--help"

/-- An option of the program. -/
inductive Known where
  | setting (s : Setting)
  | switch (s : Switch)
  deriving DecidableEq, Repr

/-- The option of a long name. -/
def long? (name : String) : Option Known :=
  match name with
  | "config" => some (.setting .config)
  | "level" => some (.setting .level)
  | "bind" => some (.setting .bind)
  | "pretty" => some (.switch .pretty)
  | "debug" => some (.switch .debug)
  | "help" => some (.switch .help)
  | _ => none

/-- The option of a letter. -/
def short? (c : Char) : Option Known :=
  match c with
  | 'c' => some (.setting .config)
  | 'l' => some (.setting .level)
  | 'b' => some (.setting .bind)
  | 'h' => some (.switch .help)
  | _ => none

/-- Why arguments give no options. Asking for help is one reason. -/
inductive Refusal where
  | help
  | unexpectedArgument (argument : String)
  | missingValue (option : Setting)
  | repeated (option : String)
  | unexpectedValue (value : String) (option : Switch)
  deriving DecidableEq, Repr

/-- The description of the program and its options. -/
def helpText : String :=
  "Echo service demonstrating the structured logger\n\n" ++
  "Usage: service-logger [OPTIONS]\n\n" ++
  "Options:\n" ++
  "  -c, --config <CONFIG>  TOML configuration file\n" ++
  "      --pretty           Human-readable console output\n" ++
  "      --debug            Record the call site of every log line\n" ++
  "  -l, --level <LEVEL>    Minimum level (debug, info, warning, error, fatal, panic)\n" ++
  "  -b, --bind <BIND>      Override the listener bind address\n" ++
  "  -h, --help             Print help\n"

namespace Refusal

/-- What the program says. -/
def message : Refusal → String
  | help => helpText
  | unexpectedArgument argument => "error: unexpected argument '" ++ argument ++ "' found"
  | missingValue option =>
    "error: a value is required for '" ++ option.text ++ "' but none was supplied"
  | repeated option => "error: the argument '" ++ option ++ "' cannot be used multiple times"
  | unexpectedValue value option =>
    "error: unexpected value '" ++ value ++ "' for '" ++ option.text ++
      "' found; no more were expected"

/-- The exit status. -/
def status : Refusal → Nat
  | help => 0
  | _ => 2

end Refusal

/-- How far arguments have been read: the options so far, the one that is still to be settled with
its value if that has come, and whether a double dash has ended the options. -/
structure Reading where
  options : Options := {}
  pending : Option (Setting × Option String) := none
  ended : Bool := false

namespace Reading

/-- Gives an option its value. The value of `--config` must not be empty. -/
def set (r : Reading) (s : Setting) (value : String) : Except Refusal Reading :=
  if (s.value? r.options).isSome then .error (.repeated s.text)
  else if s = .config ∧ value.isEmpty then .error (.missingValue s)
  else .ok { r with options := s.put value r.options }

/-- Settles the option that is still to be settled. -/
def settle (r : Reading) : Except Refusal Reading :=
  match r.pending with
  | none => .ok r
  | some (s, none) => .error (.missingValue s)
  | some (s, some value) => { r with pending := none }.set s value

/-- Turns a switch on. -/
def turnOn (r : Reading) : Switch → Except Refusal Reading
  | .help => .error .help
  | .pretty =>
    if r.options.pretty then .error (.repeated Switch.pretty.text)
    else .ok { r with options := { r.options with pretty := true } }
  | .debug =>
    if r.options.debug then .error (.repeated Switch.debug.text)
    else .ok { r with options := { r.options with debug := true } }

/-- An option, with the value attached to it if there is one. -/
def take (r : Reading) (known : Known) (attached : Option String) : Except Refusal Reading :=
  match known, attached with
  | .setting s, some value => do (← r.settle).set s value
  | .setting s, none => do return { ← r.settle with pending := some (s, none) }
  | .switch s, some value => .error (.unexpectedValue value s)
  | .switch s, none => do (← r.settle).turnOn s

/-- An argument that is no option: the value that is waited for, or an error. -/
def word (r : Reading) (argument : String) : Except Refusal Reading :=
  match r.pending with
  | some (s, none) => .ok { r with pending := some (s, some argument) }
  | _ => .error (.unexpectedArgument argument)

/-- What follows an equals sign in a text, if there is one, and what comes before it. -/
def splitValue (cs : List Char) : List Char × Option String :=
  let name := cs.takeWhile (· != '=')
  (name, match cs.drop name.length with
    | [] => none
    | _ :: value => some (String.ofList value))

/-- The value attached to a letter: all that follows, without an equals sign in front. -/
def attachedToLetter : List Char → Option String
  | [] => none
  | '=' :: value => some (String.ofList value)
  | value => some (String.ofList value)

/-- One argument. -/
def step (r : Reading) (argument : String) : Except Refusal Reading :=
  if r.ended then .error (.unexpectedArgument argument)
  else match argument.toList with
    | ['-', '-'] => .ok { r with ended := true }
    | '-' :: '-' :: rest =>
      let (name, value) := splitValue rest
      match long? (String.ofList name) with
      | some known => r.take known value
      | none => .error (.unexpectedArgument ("--" ++ String.ofList name))
    | '-' :: c :: rest =>
      match short? c with
      | some (.switch s) => r.take (.switch s) none
      | some known => r.take known (attachedToLetter rest)
      | none => .error (.unexpectedArgument (String.ofList ['-', c]))
    | _ => r.word argument

end Reading

/-- The options arguments stand for. -/
def Options.read (arguments : List String) : Except Refusal Options := do
  let r ← arguments.foldlM Reading.step {}
  return (← r.settle).options

end Logbook.CommandLine
