import PrintRegistry.Failure
import PrintRegistry.Warning

/-!
Diagnostics: how warnings and failures present themselves to a reader, with a
code to look them up by and advice where there is some.
-/

namespace PrintRegistry

inductive Severity where
  | warning
  | error
  deriving DecidableEq, Repr

structure Diagnostic where
  message : String
  code : Option String := none
  help : Option String := none
  url : Option String := none
  severity : Severity := .error
  deriving DecidableEq, Repr

namespace Diagnostic

def codeOf (words : List String) : String :=
  "registry::" ++ String.intercalate "_" words

/-- An invalid configuration, whatever is wrong with it. -/
def invalidConfig (message : String) : Diagnostic where
  message := Failure.configMessage message
  code := codeOf ["config"]

end Diagnostic

def registryUrl : String := "https://www.iana.org/assignments/ipp-registrations/"

/-- A warning shows its subject as help. Where definitions disagree, the
published registry decides. -/
def Warning.diagnostic (w : Warning) : Diagnostic where
  message := w.message
  code := Diagnostic.codeOf w.kind.words
  help := w.subject
  url := if w.kind = .conflict then some registryUrl else none
  severity := .warning

def Failure.diagnostic (f : Failure) : Diagnostic :=
  match f with
  | missingInput _ =>
    { message := f.message
      code := Diagnostic.codeOf ["missing", "input"]
      help := "Extract the IANA registrations into a JSON record file and pass it with --input" }
  | unreadableRecords .. =>
    { message := f.message
      code := Diagnostic.codeOf ["parse", "error"]
      help := "Check that the record file is valid JSON with enums, keywords, attributes and " ++
        "status_codes arrays" }
  | config fault => Diagnostic.invalidConfig fault.message
  | file _ | noInput | warningsDenied _ => { message := f.message }

end PrintRegistry
