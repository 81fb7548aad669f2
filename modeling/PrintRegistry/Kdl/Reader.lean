import PrintRegistry.Kdl
import PrintRegistry.Kdl.Text

/-!
Reading a document. A reader takes something off the front of a text and gives
it with the rest, or nothing if the text does not begin that way. What a slash
and a hyphen mark is read and left out: nodes where space between nodes may
stand, entries before entries or at the end of them, and the nodes of a node
beside those that it keeps.
-/

namespace PrintRegistry.Kdl

/-! ### Values -/

/-- Splits off the digits of a radix, among which underscores may stand, but
not first. -/
def digits? (radix : Nat) (cs : List Char) : Option (List Nat × List Char) :=
  let fits (c : Char) : Bool := c == '_' || (Text.digit? radix c).isSome
  match cs with
  | c :: _ =>
    if c = '_' ∨ !fits c then none
    else some ((cs.takeWhile fits).filterMap (Text.digit? radix), cs.dropWhile fits)
  | [] => none

/-- The text after digits that stand for a number of at most 127 bits. -/
def afterInteger? (radix : Nat) (cs : List Char) : Option (List Char) :=
  (digits? radix cs).bind fun (digits, rest) =>
    if Text.ofDigits radix digits < 1 <<< 127 then some rest else none

def afterFraction? : List Char → Option (List Char)
  | '.' :: cs => afterInteger? 10 cs
  | _ => none

def afterExponent? : List Char → Option (List Char)
  | c :: cs => if c = 'e' ∨ c = 'E' then afterInteger? 10 (withoutSign cs) else none
  | [] => none

def afterDecimal? (cs : List Char) : Option (List Char) :=
  (afterInteger? 10 cs).map fun rest =>
    let rest := (afterFraction? rest).getD rest
    (afterExponent? rest).getD rest

def radixOf? : Char → Option Nat
  | 'x' => some 16
  | 'X' => some 16
  | 'o' => some 8
  | 'O' => some 8
  | 'b' => some 2
  | 'B' => some 2
  | _ => none

def afterUnsigned? (cs : List Char) : Option (List Char) :=
  match cs with
  | '0' :: c :: rest =>
    match radixOf? c with
    | some radix => afterInteger? radix rest
    | none => afterDecimal? cs
  | _ => afterDecimal? cs

def number? (cs : List Char) : Option (Value × List Char) :=
  (afterUnsigned? (withoutSign cs)).bind fun rest => atBoundary? (.number, rest)

def namedValues : List (String × Value) :=
  [("true", .bool true), ("false", .bool false), ("null", .null), ("nan", .number),
   ("inf", .number), ("-inf", .number)]

/-- Reads the word for a value. Anything may follow it. -/
def named? (cs : List Char) : Option (Value × List Char) :=
  namedValues.findSome? fun (word, value) =>
    (('#' :: word.toList).isPrefixOf? cs).map (value, ·)

def afterType? (cs : List Char) : Option (List Char) :=
  match cs with
  | '(' :: rest =>
    match text? (skipNodeSpace rest) with
    | some (_, rest) =>
      match skipNodeSpace rest with
      | ')' :: after => some (skipNodeSpace after)
      | _ => none
    | none => none
  | _ => some cs

def plainValue? (cs : List Char) : Option (Value × List Char) :=
  ((named? cs).or ((text? cs).map fun (s, rest) => (.string s, rest))).or (number? cs)

def value? (cs : List Char) : Option (Value × List Char) :=
  (afterType? cs).bind plainValue?

/-! ### Entries -/

/-- Reads an entry. A text with an equals sign after it is the key of a
property. -/
def entry? (cs : List Char) : Option (Entry × List Char) :=
  match text? cs with
  | some (s, rest) =>
    match skipNodeSpace rest with
    | '=' :: after =>
      (value? (skipNodeSpace after)).map fun (value, rest) => ({ key := some s, value }, rest)
    | _ => some ({ value := .string s }, rest)
  | none => (value? cs).map fun (value, rest) => ({ value }, rest)

/-- The text after the mark that leaves something out, if it is there, and
after space of any kind. -/
def afterMark? : List Char → Option (List Char)
  | '/' :: '-' :: cs => some (skipLineSpace cs)
  | _ => none

mutual

/-- Reads an entry, with entries before it that are left out. The fuel is to
exceed the number of characters, as for the following readers of entries. -/
def entryAfterHidden? : Nat → List Char → Option (Entry × List Char)
  | 0, _ => none
  | fuel + 1, cs => entry? (((afterHidden? fuel cs).bind afterNodeSpace?).getD cs)

def afterHidden? : Nat → List Char → Option (List Char)
  | 0, _ => none
  | fuel + 1, cs => do
    let (_, rest) ← entryAfterHidden? fuel (← afterMark? cs)
    return ((afterNodeSpace? rest).bind (afterHidden? fuel)).getD rest

end

def entriesUpTo : Nat → List Char → List Entry × List Char
  | 0, cs => ([], cs)
  | fuel + 1, cs =>
    match (afterNodeSpace? cs).bind (entryAfterHidden? fuel) with
    | some (entry, rest) =>
      let (entries, rest) := entriesUpTo fuel rest
      (entry :: entries, rest)
    | none => ([], cs)

def entries (cs : List Char) : List Entry × List Char :=
  entriesUpTo (cs.length + 1) cs

def afterLastEntries? (cs : List Char) : Option (List Char) :=
  (afterNodeSpace? cs).bind (afterHidden? (cs.length + 1))

/-! ### Nodes -/

/-- The text after the end of a node: a semicolon, or the end of the line. -/
def afterNodeEnd? : List Char → Option (List Char)
  | ';' :: cs => some cs
  | cs => lineEnd? cs

mutual

/-- The text after space between nodes and nodes that are left out. The fuel is
to exceed four times the number of characters, as for the following readers. -/
def afterGap : Nat → List Char → List Char
  | 0, cs => cs
  | fuel + 1, cs =>
    let start := skipLineSpace cs
    match (afterMark? start).bind (node? fuel) with
    | some (_, rest) => afterGap fuel rest
    | none => start

def node? : Nat → List Char → Option (Node × List Char)
  | 0, _ => none
  | fuel + 1, cs => do
    let (name, rest) ← text? (← afterType? cs)
    let (entries, rest) := entries rest
    let start := beforeChildren fuel rest
    match children? fuel start with
    | some (children, rest) =>
      let rest := (afterHiddenChildren? fuel rest).getD rest
      return ({ name, entries, children }, skipNodeSpace rest)
    | none => return ({ name, entries }, start)

def beforeChildren : Nat → List Char → List Char
  | 0, cs => cs
  | fuel + 1, cs =>
    skipNodeSpace <|
      match afterLastEntries? cs with
      | some rest => (afterHiddenChildren? fuel rest).getD rest
      | none => ((afterNodeSpace? cs).bind (afterHiddenChildren? fuel)).getD cs

def afterHiddenChildren? : Nat → List Char → Option (List Char)
  | 0, _ => none
  | fuel + 1, cs => do
    let (_, rest) ← children? fuel (← afterMark? (skipNodeSpace cs))
    return ((afterNodeSpace? rest).bind (afterHiddenChildren? fuel)).getD rest

def children? : Nat → List Char → Option (List Node × List Char)
  | 0, _ => none
  | fuel + 1, cs =>
    match cs with
    | '\x7b' :: inner =>
      match nodes fuel inner with
      | (nodes, '\x7d' :: rest) => some (nodes, rest)
      | _ => none
    | _ => none

/-- Reads nodes as far as there are any. Each but the last has to come to an
end before the next one. -/
def nodes : Nat → List Char → List Node × List Char
  | 0, cs => ([], cs)
  | fuel + 1, cs =>
    let start := afterGap fuel cs
    match node? fuel start with
    | none => ([], start)
    | some (node, rest) =>
      match afterNodeEnd? rest with
      | some rest =>
        let (more, rest) := nodes fuel rest
        (node :: more, rest)
      | none => ([node], afterGap fuel rest)

end

def withoutByteOrderMark : List Char → List Char
  | '\uFEFF' :: cs => cs
  | cs => cs

def ofText? (text : String) : Option (List Node) :=
  let cs := withoutByteOrderMark text.toList
  match nodes (4 * cs.length + 4) cs with
  | (nodes, []) => some nodes
  | _ => none

end PrintRegistry.Kdl
