/-!
Finding, removing and replacing pieces of text. All searches go from left to
right and take occurrences that do not overlap.
-/

namespace PrintRegistry.Text

def occurs (piece : List Char) : List Char → Bool
  | [] => piece.isEmpty
  | c :: cs => piece.isPrefixOf (c :: cs) || occurs piece cs

/-- Replaces occurrences of `old`; the first argument counts the characters of
the current occurrence that are still to be passed over. -/
def replaceFrom (old new : List Char) : Nat → List Char → List Char
  | _, [] => []
  | k + 1, _ :: cs => replaceFrom old new k cs
  | 0, c :: cs =>
    if old.isPrefixOf (c :: cs) then new ++ replaceFrom old new (old.length - 1) cs
    else c :: replaceFrom old new 0 cs

/-- Every occurrence of the nonempty text `old` replaced by `new`. -/
def replaceAll (old new cs : List Char) : List Char :=
  replaceFrom old new 0 cs

def deleteAll (old cs : List Char) : List Char :=
  replaceAll old [] cs

def replaceFirst (old new : List Char) : List Char → List Char
  | [] => []
  | c :: cs =>
    if old.isPrefixOf (c :: cs) then new ++ (c :: cs).drop old.length
    else c :: replaceFirst old new cs

/-- The text before a final `ending`, if it ends so. -/
def dropEnding? (ending cs : List Char) : Option (List Char) :=
  (ending.reverse.isPrefixOf? cs.reverse).map List.reverse

/-- Cuts a text at each occurrence of the nonempty separator; the first
argument counts the characters of the separator still to be passed over. -/
def cutFrom (sep : List Char) : Nat → List Char → List (List Char)
  | _, [] => [[]]
  | k + 1, _ :: cs => cutFrom sep k cs
  | 0, c :: cs =>
    if sep.isPrefixOf (c :: cs) then [] :: cutFrom sep (sep.length - 1) cs
    else
      match cutFrom sep 0 cs with
      | [] => [[c]]
      | piece :: pieces => (c :: piece) :: pieces

/-- The pieces between the occurrences of a nonempty separator. -/
def cutAt (sep cs : List Char) : List (List Char) :=
  cutFrom sep 0 cs

def contains (s piece : String) : Bool :=
  occurs piece.toList s.toList

def startsWith (s start : String) : Bool :=
  start.toList.isPrefixOf s.toList

def endsWith (s ending : String) : Bool :=
  ending.toList.isSuffixOf s.toList

def withoutEnding? (s ending : String) : Option String :=
  (dropEnding? ending.toList s.toList).map String.ofList

def withoutStart? (s start : String) : Option String :=
  (start.toList.isPrefixOf? s.toList).map String.ofList

/-- The string with every occurrence of the nonempty `old` replaced by `new`. -/
def replaced (s old new : String) : String :=
  String.ofList (replaceAll old.toList new.toList s.toList)

example : replaced "aaa" "aa" "b" = "ba" := by decide
example : withoutEnding? "sides-default" "-default" = some "sides" := by decide
example : cutAt " | ".toList "a | b".toList = ["a".toList, "b".toList] := by decide

end PrintRegistry.Text
