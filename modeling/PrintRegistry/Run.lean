import PrintRegistry.CommandLine
import PrintRegistry.Config
import PrintRegistry.Corpus
import PrintRegistry.Model.Encoding

/-!
A run of the program: from the command line and the configuration to the model
of a corpus, written to a file. Files are reached through a `FileAccess`, so a
run is the same on a disk and on files in memory.
-/

namespace PrintRegistry

structure Settings where
  input : String
  output : String
  denyWarnings : Bool
  deriving DecidableEq, Repr

namespace Settings

def defaultOutput : String := "ipp-model.json"

/-- The settings of a command line and a configuration. The command line comes
first; warnings are denied if either denies them. -/
def choose (a : Arguments) (c : Config) : Except Failure Settings :=
  match a.input.or c.input with
  | none => .error .noInput
  | some input => .ok {
      input
      output := (a.output.or c.output).getD defaultOutput
      denyWarnings := a.denyWarnings || c.denyWarnings }

end Settings

structure Report where
  settings : Settings
  model : Model

namespace Report

def summary (r : Report) : String :=
  s!"Resolved {r.model.types.length} types and {r.model.collections.length} collections to " ++
    r.settings.output ++ "\n"

/-- The failure that warnings come to where they are denied. -/
def failure? (r : Report) : Option Failure :=
  if r.settings.denyWarnings && !r.model.warnings.isEmpty then
    some (.warningsDenied r.model.warnings.length)
  else none

end Report

structure Outcome where
  exitCode : Nat
  output : String := ""
  warnings : List Warning := []
  complaint : Option String := none

namespace Outcome

def ofFailure (f : Failure) : Outcome where
  exitCode := 1
  complaint := some f.message

def ofUsage (s : UsageStop) : Outcome where
  exitCode := s.exitCode
  output := s.output
  complaint := s.message?

def ofReport (r : Report) : Outcome where
  exitCode := if r.failure?.isSome then 1 else 0
  output := r.summary
  warnings := r.model.warnings
  complaint := r.failure?.map Failure.message

def ofRun : Except Failure Report → Outcome
  | .ok report => ofReport report
  | .error failure => ofFailure failure

end Outcome

section

variable {m : Type → Type} [Monad m]

def loadConfig (files : FileAccess m) (a : Arguments) : ExceptT Failure m Config := do
  match a.config with
  | none => return {}
  | some path => ExceptT.mk do return Config.load path (← files.look path)

def resolveTo (files : FileAccess m) (a : Arguments) : ExceptT Failure m Report := do
  let config ← loadConfig files a
  let settings ← ExceptT.mk (pure (Settings.choose a config))
  let corpus ← ExceptT.mk do return Corpus.load settings.input (← files.look settings.input)
  let model := Model.resolve corpus.records
  ExceptT.mk do return (← files.save settings.output model.text).mapError Failure.file
  return { settings, model }

/-- Runs the program with the arguments after its name. -/
def run (files : FileAccess m) (arguments : List String) : m Outcome :=
  match Arguments.ofList arguments with
  | .error stop => pure (.ofUsage stop)
  | .ok a => do return .ofRun (← (resolveTo files a).run)

end

end PrintRegistry
