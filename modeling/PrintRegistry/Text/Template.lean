/-!
Templates for stock phrases: fixed wordings with blanks to fill in. A template
is a sequence of pieces. Where a text can be read as an instance of a template
in several ways, the reading that counts is the first one in order of
preference: earlier options before later ones, longer runs before shorter ones.
-/

namespace PrintRegistry.Text

inductive Piece where
  /-- One of several fixed texts. The empty text makes the piece optional. -/
  | choice (options : List String)
  /-- A blank: a run of at least `least` characters of a class. -/
  | blank (least : Nat) (fits : Char → Bool)

abbrev Template := List Piece

namespace Piece

def fixed (text : String) : Piece :=
  .choice [text]

def optional (text : String) : Piece :=
  .choice [text, ""]

end Piece

/-- Takes the longest run of at least `least` characters of a class off a text
that leaves a rest which `next` accepts. -/
def longestRun? (fits : Char → Bool) (next : List Char → Option α) :
    Nat → List Char → Option (List Char × α)
  | _ + 1, [] => none
  | least + 1, c :: cs =>
    if fits c then (longestRun? fits next least cs).map fun (run, a) => (c :: run, a) else none
  | 0, [] => (next []).map fun a => ([], a)
  | 0, c :: cs =>
    let longer := if fits c then longestRun? fits next 0 cs else none
    match longer with
    | some (run, a) => some (c :: run, a)
    | none => (next (c :: cs)).map fun a => ([], a)

namespace Template

/-- The first reading of the beginning of a text as an instance that leaves a
rest which `next` accepts: what is filled into the blanks, in order, and what
`next` makes of the rest. -/
def first? (next : List Char → Option α) : Template → List Char → Option (List (List Char) × α)
  | [], cs => (next cs).map fun a => ([], a)
  | .choice options :: pieces, cs =>
    options.findSome? fun o => (o.toList.isPrefixOf? cs).bind (first? next pieces)
  | .blank least fits :: pieces, cs =>
    (longestRun? fits (first? next pieces) least cs).map fun (run, others, a) =>
      (run :: others, a)

def readWhole? (t : Template) (cs : List Char) : Option (List (List Char)) :=
  (t.first? (fun rest => if rest.isEmpty then some () else none) cs).map Prod.fst

def readBeginning? (t : Template) (cs : List Char) : Option (List (List Char) × List Char) :=
  t.first? some cs

/-- Whether a character fits a blank that the template begins with. -/
def beginsWith (t : Template) (c : Char) : Bool :=
  match t with
  | .blank _ fits :: _ => fits c
  | _ => false

/-- What is filled into the first instance that stands in the text. No instance
begins here if `refuted`. If none begins with a character that fits a blank at
the beginning, none begins after it either: the blank would be longer. -/
def searchFrom? (t : Template) (refuted : Bool) : List Char → Option (List (List Char))
  | [] => if refuted then none else (t.readBeginning? []).map Prod.fst
  | c :: cs =>
    match if refuted then none else t.readBeginning? (c :: cs) with
    | some (filled, _) => some filled
    | none => searchFrom? t (t.beginsWith c) cs

def search? (t : Template) (cs : List Char) : Option (List (List Char)) :=
  t.searchFrom? false cs

end Template

end PrintRegistry.Text
