import PrintRegistry.Files
import PrintRegistry.Record.Shape

/-!
Why a run fails. Irregular records never fail a run; what does is its input,
its configuration and its files.
-/

namespace PrintRegistry

inductive ConfigFault where
  | notFound (path : String)
  | malformed
  | unknownNode (name : String)
  | stringExpected (node : String)
  | booleanExpected (node : String)
  deriving DecidableEq, Repr

def ConfigFault.message : ConfigFault → String
  | notFound path => s!"config file {path} not found"
  | malformed => "Failed to parse KDL"
  | unknownNode name => s!"Unknown config node: {name}"
  | stringExpected node => s!"{node} expects a string value"
  | booleanExpected node => s!"{node} expects a boolean value"

inductive Failure where
  | file (fault : FileFault)
  | missingInput (path : String)
  | unreadableRecords (path : String) (fault : RecordFault)
  | config (fault : ConfigFault)
  /-- Neither the command line nor the configuration names an input. -/
  | noInput
  | warningsDenied (count : Nat)
  deriving DecidableEq, Repr

namespace Failure

def configMessage (message : String) : String :=
  s!"Invalid configuration: {message}"

def message : Failure → String
  | file fault => s!"IO error: {fault.message}"
  | missingInput path => s!"Registry input not found: {path}"
  | unreadableRecords path _ => s!"Failed to parse registry records in {path}"
  | config fault => configMessage fault.message
  | noInput => "No input given; pass --input or set `input` in the config file"
  | warningsDenied count => s!"{count} warning(s) with --deny-warnings"

end Failure

end PrintRegistry
