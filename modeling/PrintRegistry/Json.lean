/-!
Values of the data format in which records and models are kept. A value that
comes from a text may be incomplete: reading goes from left to right and stops
at the first place that does not belong to the format, and a `cut` stands for
that place.
-/

namespace PrintRegistry

inductive TextFault where
  | malformed
  | truncated
  deriving DecidableEq, Repr

inductive CutPlace where
  /-- Before a value, or in a string. -/
  | value
  /-- In a word or a number. -/
  | literal
  | name
  | colon
  | mark
  deriving DecidableEq, Repr

inductive Json where
  | null
  | bool (b : Bool)
  | number (literal : String)
  | string (text : String)
  | array (items : List Json)
  /-- Fields in order, names as often as they are given. -/
  | object (fields : List (String × Json))
  /-- A text that reads differently where its value is used and where it is
  passed over, as half a surrogate pair does. -/
  | divided (used passed : Json)
  /-- The place where a text stops being a value. Between the fields of an
  object it stands as a field without a name. -/
  | cut (fault : TextFault) (place : CutPlace)
  deriving Inhabited, Repr

namespace Json

mutual

/-- Passes over a value, of which only the form counts. -/
def passOver : Json → Except TextFault Unit
  | array items => passItems items
  | object fields => passFields fields
  | divided _ passed => passOver passed
  | cut fault _ => .error fault
  | _ => .ok ()

def passItems : List Json → Except TextFault Unit
  | [] => .ok ()
  | item :: items => do
    passOver item
    passItems items

def passFields : List (String × Json) → Except TextFault Unit
  | [] => .ok ()
  | (_, value) :: fields => do
    passOver value
    passFields fields

end

def fault? : Json → Option TextFault
  | cut fault _ => some fault
  | divided used _ => used.fault?
  | _ => none

/-- A field that is written only if there is something to write. -/
def optionalField (name : String) (f : α → Json) : Option α → List (String × Json)
  | some a => [(name, f a)]
  | none => []

def listField (name : String) (f : α → Json) : List α → List (String × Json)
  | [] => []
  | as => [(name, array (as.map f))]

def strings (ss : List String) : Json :=
  array (ss.map string)

end Json

end PrintRegistry
