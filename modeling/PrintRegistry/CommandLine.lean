import PrintRegistry.Text.Search

/-!
The command line. A switch is given by its long name after two hyphens, or by
its letter after one, where letters may be written together. The value of an
option follows as the next argument, after an equals sign, or right after the
letter. A value that follows as an argument is looked at only when the next
switch is reached or nothing is left, so a switch that is not known is found
out before a value that is not allowed.
-/

namespace PrintRegistry

inductive Switch where
  | input
  | output
  | config
  | denyWarnings
  | verbose
  | help
  | version
  deriving DecidableEq, Repr

namespace Switch

def all : List Switch :=
  [input, output, config, denyWarnings, verbose, help, version]

def name : Switch → String
  | input => "input"
  | output => "output"
  | config => "config"
  | denyWarnings => "deny-warnings"
  | verbose => "verbose"
  | help => "help"
  | version => "version"

def letter? : Switch → Option Char
  | input => some 'i'
  | output => some 'o'
  | config => some 'c'
  | denyWarnings => none
  | verbose => some 'v'
  | help => some 'h'
  | version => some 'V'

def takesValue : Switch → Bool
  | input | output | config => true
  | _ => false

def ofName? (name : String) : Option Switch :=
  all.find? (·.name == name)

def ofLetter? (letter : Char) : Option Switch :=
  all.find? (·.letter? == some letter)

end Switch

structure Arguments where
  input : Option String := none
  output : Option String := none
  config : Option String := none
  denyWarnings : Bool := false
  verbose : Bool := false
  deriving DecidableEq, Repr

inductive UsageStop where
  | help
  | version
  | unknownArgument (argument : String)
  | repeated (switch : Switch)
  /-- The value of an option is missing or empty. -/
  | missingValue (switch : Switch)
  /-- A switch that takes no value has one. -/
  | unexpectedValue (switch : Switch)
  deriving DecidableEq, Repr

namespace Arguments

def has (a : Arguments) : Switch → Bool
  | .input => a.input.isSome
  | .output => a.output.isSome
  | .config => a.config.isSome
  | .denyWarnings => a.denyWarnings
  | .verbose => a.verbose
  | .help | .version => false

def withValue (a : Arguments) (switch : Switch) (value : String) : Except UsageStop Arguments :=
  if a.has switch then .error (.repeated switch)
  else if value.isEmpty then .error (.missingValue switch)
  else
    match switch with
    | .input => .ok { a with input := value }
    | .output => .ok { a with output := value }
    | .config => .ok { a with config := value }
    | _ => .error (.unexpectedValue switch)

def withFlag (a : Arguments) (switch : Switch) : Except UsageStop Arguments :=
  if a.has switch then .error (.repeated switch)
  else
    match switch with
    | .denyWarnings => .ok { a with denyWarnings := true }
    | .verbose => .ok { a with verbose := true }
    | .help => .error .help
    | .version => .error .version
    | _ => .error (.missingValue switch)

end Arguments

/-- An option whose value is not looked at yet. -/
structure Pending where
  switch : Switch
  value : Option String := none

/-- The arguments read so far. -/
structure ArgumentState where
  given : Arguments := {}
  pending : Option Pending := none

namespace ArgumentState

def settle (s : ArgumentState) : Except UsageStop Arguments :=
  match s.pending with
  | none => .ok s.given
  | some ⟨switch, none⟩ => .error (.missingValue switch)
  | some ⟨switch, some value⟩ => s.given.withValue switch value

/-- Reads a switch with what is attached to it as its value. -/
def takeSwitch (s : ArgumentState) (switch : Switch) (attached : Option String) :
    Except UsageStop ArgumentState := do
  if switch.takesValue then
    let given ← s.settle
    match attached with
    | some value => return { given := ← given.withValue switch value }
    | none => return { given, pending := some { switch } }
  else
    if attached.isSome then throw (.unexpectedValue switch)
    return { given := ← (← s.settle).withFlag switch }

/-- Reads a long name, which may have a value after an equals sign. -/
def takeName (s : ArgumentState) (cs : List Char) : Except UsageStop ArgumentState :=
  let name := String.ofList (cs.takeWhile (· != '='))
  let attached := match cs.dropWhile (· != '=') with
    | [] => none
    | _ :: value => some (String.ofList value)
  match Switch.ofName? name with
  | some switch => s.takeSwitch switch attached
  | none => .error (.unknownArgument ("--" ++ name))

/-- The value that stands right after the letter of an option, with or without
an equals sign. -/
def attachedValue? : List Char → Option String
  | [] => none
  | '=' :: cs => some (String.ofList cs)
  | cs => some (String.ofList cs)

/-- Reads letters. The first one of an option ends them. -/
def takeLetters (s : ArgumentState) : List Char → Except UsageStop ArgumentState
  | [] => .ok s
  | c :: cs =>
    match Switch.ofLetter? c with
    | none => .error (.unknownArgument (String.ofList ['-', c]))
    | some switch =>
      if switch.takesValue then s.takeSwitch switch (attachedValue? cs)
      else
        match s.takeSwitch switch none with
        | .ok s => s.takeLetters cs
        | .error stop => .error stop

/-- Reads an argument that is no switch: the value of the option before it. -/
def takeValue (s : ArgumentState) (value : String) : Except UsageStop ArgumentState :=
  match s.pending with
  | some ⟨switch, none⟩ => .ok { s with pending := some ⟨switch, some value⟩ }
  | _ => .error (.unknownArgument value)

def take (s : ArgumentState) (argument : String) : Except UsageStop ArgumentState :=
  match argument.toList with
  | '-' :: '-' :: name => s.takeName name
  | '-' :: c :: cs => s.takeLetters (c :: cs)
  | _ => s.takeValue argument

/-- Reads arguments to the end. After two hyphens alone nothing may come. -/
def takeAll (s : ArgumentState) : List String → Except UsageStop Arguments
  | [] => s.settle
  | ["--"] => s.settle
  | "--" :: argument :: _ => .error (.unknownArgument argument)
  | argument :: arguments =>
    match s.take argument with
    | .ok s => s.takeAll arguments
    | .error stop => .error stop

end ArgumentState

def Arguments.ofList (arguments : List String) : Except UsageStop Arguments :=
  ArgumentState.takeAll {} arguments

namespace UsageStop

def programName : String := "ipp-typegen"

/-- The version of the registry tools. -/
def versionText : String := "ipp-registry 0.3.0\n"

def helpText : String :=
  "Resolve IANA IPP registry records into a typed model for code generation\n\n" ++
  "Usage: " ++ programName ++ " [OPTIONS]\n\n" ++
  "Options:\n" ++
  "  -i, --input <INPUT>    Record JSON file, or a directory of record files\n" ++
  "  -o, --output <OUTPUT>  Where to write the resolved model JSON\n" ++
  "  -c, --config <CONFIG>  Path to KDL config file\n" ++
  "      --deny-warnings    Exit with an error when the run produced warnings " ++
  "(the model is still written)\n" ++
  "  -v, --verbose          Verbose output\n" ++
  "  -h, --help             Print help\n" ++
  "  -V, --version          Print version\n"

def output : UsageStop → String
  | help => helpText
  | version => versionText
  | _ => ""

def message? : UsageStop → Option String
  | help | version => none
  | unknownArgument argument => some s!"unexpected argument '{argument}' found"
  | repeated switch => some s!"the argument '--{switch.name}' cannot be used multiple times"
  | missingValue switch =>
    some s!"a value is required for '--{switch.name}' but none was supplied"
  | unexpectedValue switch => some s!"unexpected value for '--{switch.name}' found"

/-- Only a wrong command line ends the program with an error. -/
def exitCode (s : UsageStop) : Nat :=
  if s.message?.isSome then 2 else 0

end UsageStop

end PrintRegistry
