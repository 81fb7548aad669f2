import PrintRegistry.Text.Quoted

/-!
The layout in which an offending value is shown with a warning: one item on a
line, nested items four spaces further in, and a comma after every item.
-/

namespace PrintRegistry

inductive Layout where
  | atom (text : String)
  | labelled (label : String) (value : Layout)
  /-- Items between an opening and a closing text. -/
  | group (opening closing : String) (items : List Layout)

namespace Layout

def margin (depth : Nat) : String :=
  String.ofList (List.replicate (4 * depth) ' ')

mutual

/-- Writes a value that starts at a depth after the text `out`. -/
def writeAt (depth : Nat) (out : String) : Layout → String
  | atom text => out ++ text
  | labelled label value => writeAt depth (out ++ label ++ ": ") value
  | group opening closing [] => out ++ opening ++ closing
  | group opening closing (item :: items) =>
    writeItems (depth + 1) (out ++ opening ++ "\n") (item :: items) ++ margin depth ++ closing

def writeItems (depth : Nat) (out : String) : List Layout → String
  | [] => out
  | item :: items =>
    writeItems depth (writeAt depth (out ++ margin depth) item ++ ",\n") items

end

def render (l : Layout) : String :=
  writeAt 0 "" l

def text (s : String) : Layout :=
  atom (Text.quoted s)

def flag (b : Bool) : Layout :=
  atom (if b then "true" else "false")

def list (items : List Layout) : Layout :=
  group "[" "]" items

/-- Items in braces: sets, and maps with labelled items. -/
def braced (items : List Layout) : Layout :=
  group "\x7b" "\x7d" items

def record (name : String) (fields : List (String × Layout)) : Layout :=
  group (name ++ " \x7b") "\x7d" (fields.map fun (label, value) => labelled label value)

def wrapped (name : String) (value : Layout) : Layout :=
  group (name ++ "(") ")" [value]

def optional (f : α → Layout) : Option α → Layout
  | none => atom "None"
  | some a => wrapped "Some" (f a)

end Layout

end PrintRegistry
