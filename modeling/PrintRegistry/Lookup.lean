import PrintRegistry.Entity
import PrintRegistry.Text.Search

/-!
Finding the values meant by a name. An entry of the name itself wins, and one
that shares the values of another entry is followed. A name without an entry
is traced back by the naming conventions of the registry, such as
`sides-supported` for the values of `sides`. No name is visited twice in one
search, and a search follows at most `depthLimit` names one after another.
-/

namespace PrintRegistry

inductive Resolved where
  | entity (e : Entity)
  | members (collection : String)

/-- Where names are looked up: a table, and the names of known collections. -/
structure Scope where
  table : Table Entity
  isCollection : String → Bool

inductive Fallback where
  /-- Look up another name, with its own fallbacks. -/
  | retry (name : String)
  | members (collection : String)
  /-- Take the entry of this name, and nothing in its stead. -/
  | entry (name : String)
  deriving DecidableEq, Repr

namespace Fallback

/-- Names that stand for another name when all else fails. -/
def redirects : List (String × String) :=
  [("job-error-sheet", "job-error-sheet-type"), ("separator-sheets", "separator-sheets-type"),
   ("job-accounting-sheets", "job-accounting-sheets-type"), ("notify-status-code", "status"),
   ("media-key", "media"), ("media-size-name", "media")]

def withoutEnding? (ending name : String) : Option Fallback :=
  (Text.withoutEnding? name ending).map retry

/-- A supported-values attribute lists the member names of a collection, or
else the values of the attribute it is about. -/
def supported? (s : Scope) (name : String) : Option Fallback :=
  (Text.withoutEnding? name "-supported").map fun base =>
    if s.isCollection base then members base else retry base

def shared? (ending common name : String) : Option Fallback :=
  if Text.endsWith name ending then some (retry common) else none

def plural? (name : String) : Option Fallback :=
  if Text.endsWith name "-state" then some (retry (name ++ "s")) else none

/-- The supported-values entry of an attribute without an entry of its own. -/
def supportedEntry? (s : Scope) (name : String) : Option Fallback :=
  if s.table.has (name ++ "-supported") then some (entry (name ++ "-supported")) else none

def conventions (s : Scope) : List (String → Option Fallback) :=
  [withoutEnding? "-default",
   supported? s,
   withoutEnding? "-actual",
   withoutEnding? "-supplied",
   shared? "-document-state-reasons" "document-state-reasons",
   shared? "-document-state" "document-state",
   plural?,
   fun name => (Text.withoutStart? name "output-device-").map retry,
   fun name => (redirects.lookup name).map retry,
   supportedEntry? s]

def all (s : Scope) (name : String) : List Fallback :=
  (conventions s).filterMap (· name)

end Fallback

namespace Scope

/-- How many names a search may follow one after another. -/
def depthLimit : Nat := 16

/-- What an entry means that shares no other entry's values. An unreadable one
means nothing. -/
def settle (e : Entity) : Option Resolved :=
  if e.unreadable then none
  else
    match e.reference with
    | some (.byMembers collection) => some (.members collection)
    | _ => some (.entity e)

/-- The first of several fallbacks that leads to an answer, and the names seen
by then. `search` looks another name up. -/
def firstResolved (s : Scope) (search : String → List String → Option Resolved × List String) :
    List Fallback → List String → Option Resolved × List String
  | [], seen => (none, seen)
  | .members collection :: _, seen => (some (.members collection), seen)
  | .entry name :: rest, seen =>
    match (s.table.find? name).bind settle with
    | some found => (some found, seen)
    | none => firstResolved s search rest seen
  | .retry name :: rest, seen =>
    match search name seen with
    | (some found, seen) => (some found, seen)
    | (none, seen) => firstResolved s search rest seen

/-- What a name means when at most `limit` names may be visited one after
another and none of `seen`; and the names seen by the end. -/
def search (s : Scope) : Nat → String → List String → Option Resolved × List String
  | 0, _, seen => (none, seen)
  | limit + 1, name, seen =>
    if name ∈ seen then (none, seen)
    else
      match s.table.find? name with
      | some e =>
        match e.target? with
        | some target => search s limit target (name :: seen)
        | none => (settle e, name :: seen)
      | none => firstResolved s (search s limit) (Fallback.all s name) (name :: seen)

def resolve (s : Scope) (name : String) : Option Resolved :=
  (s.search (depthLimit + 1) name []).1

end Scope

end PrintRegistry
