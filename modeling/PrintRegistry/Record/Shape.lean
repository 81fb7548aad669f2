import PrintRegistry.Json

/-!
Records with named fields in data. A record is given as an object, whose
fields may come in any order and under any of their names, or as an array of
its fields in order. Unknown fields are passed over; a field given twice is
refused, as is one whose value does not have the shape that is asked for. The
first problem from left to right is the one reported.
-/

namespace PrintRegistry

inductive RecordFault where
  | text (fault : TextFault)
  /-- The value is of another shape than asked for. -/
  | mismatched
  deriving DecidableEq, Repr

abbrev Decoded := Except RecordFault

namespace Json

def asText : Json → Decoded String
  | string text => .ok text
  | divided used _ => asText used
  | cut fault _ => .error (.text fault)
  | _ => .error .mismatched

def asOptional (read : Json → Decoded α) : Json → Decoded (Option α)
  | null => .ok none
  | j => (read j).map some

def asList (read : Json → Decoded α) : Json → Decoded (List α)
  | array items => items.mapM read
  | divided used _ => asList read used
  | cut fault _ => .error (.text fault)
  | _ => .error .mismatched

def ignore (j : Json) : Decoded Unit :=
  match j.passOver with
  | .ok () => .ok ()
  | .error fault => .error (.text fault)

end Json

/-- A field of a record: the names it may have, and a check of its value. -/
structure FieldShape where
  names : List String
  check : Json → Decoded Unit

def FieldShape.of (names : List String) (read : Json → Decoded α) : FieldShape :=
  ⟨names, fun j => (read j).map fun _ => ()⟩

structure RecordShape where
  fields : List FieldShape
  /-- Whether an array may end before the last field. -/
  mayBeShort : Bool := false

/-- The values given for the fields of a record, in the order of its shape. -/
abbrev Slots := List (Option Json)

namespace Slots

/-- The value of a field that has to be there. -/
def required (s : Slots) (index : Nat) (read : Json → Decoded α) : Decoded α :=
  match s[index]? with
  | some (some j) => read j
  | _ => .error .mismatched

/-- The value of a field that may be missing or null. -/
def optional (s : Slots) (index : Nat) (read : Json → Decoded α) : Decoded (Option α) :=
  match s[index]? with
  | some (some j) => j.asOptional read
  | _ => .ok none

/-- The value of a field that stands for an empty list if it is missing. -/
def list (s : Slots) (index : Nat) (read : Json → Decoded α) : Decoded (List α) :=
  match s[index]? with
  | some (some j) => j.asList read
  | _ => .ok []

end Slots

namespace RecordShape

def indexOf? (shape : RecordShape) (name : String) : Option Nat :=
  shape.fields.findIdx? (·.names.contains name)

def takeField (shape : RecordShape) (slots : Slots) (name : String) (value : Json) :
    Decoded Slots :=
  match shape.indexOf? name with
  | none => value.ignore.map fun _ => slots
  | some index =>
    match slots[index]?, shape.fields[index]? with
    | some none, some field => (field.check value).map fun _ => slots.set index (some value)
    | _, _ => .error .mismatched

/-- Takes the items of an array in as the given fields. -/
def takeItems (mayBeShort : Bool) : List FieldShape → List Json → Decoded Slots
  | [], [] => .ok []
  | [], .cut fault .mark :: _ => .error (.text fault)
  | [], _ :: _ => .error (.text .malformed)
  | fields, [] => if mayBeShort then .ok (fields.map fun _ => none) else .error .mismatched
  | field :: fields, value :: values => do
    field.check value
    return some value :: (← takeItems mayBeShort fields values)

def slots (shape : RecordShape) : Json → Decoded Slots
  | .object fields =>
    fields.foldlM (fun slots (name, value) => shape.takeField slots name value)
      (shape.fields.map fun _ => none)
  | .array items => takeItems shape.mayBeShort shape.fields items
  | .divided used _ => slots shape used
  | .cut fault _ => .error (.text fault)
  | _ => .error .mismatched

end RecordShape

end PrintRegistry
