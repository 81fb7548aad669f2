import PrintRegistry.Files
import PrintRegistry.Text.Search

/-!
A tree of files in memory. Paths lead from the root of the tree: names are
parted by slashes, `.` and empty names stay where they are, and `..` goes back
up. Every directory on the way has to be there. Names and paths are limited in
length, as on a disk.
-/

namespace PrintRegistry

structure FileTree where
  /-- The bytes of each file, under the names on the way to it. -/
  files : List (List String × ByteArray) := []
  directories : List (List String) := []

namespace FileTree

def isDirectory (t : FileTree) (location : List String) : Bool :=
  location.isEmpty || t.directories.contains location

def bytes? (t : FileTree) (location : List String) : Option ByteArray :=
  t.files.lookup location

def step (location : List String) : String → List String
  | "" | "." => location
  | ".." => location.dropLast
  | name => location ++ [name]

def namesIn (path : String) : List String :=
  (Text.cutAt ['/'] path.toList).map String.ofList

def maxNameSize : Nat := 255

def maxPathSize : Nat := 4095

def checkPath (path : String) : Except FileFault Unit :=
  if path.toList.contains '\x00' then .error .holdsNul
  else if maxPathSize < path.utf8ByteSize then .error .tooLong
  else if path = "" ∨ Text.startsWith path "/" then .error .notFound
  else .ok ()

/-- The location that names lead to from a location, one after another. -/
def follow (t : FileTree) (location : List String) : List String → Except FileFault (List String)
  | [] => .ok location
  | name :: names =>
    if t.isDirectory location then
      if maxNameSize < name.utf8ByteSize then .error .tooLong
      else follow t (step location name) names
    else if (t.bytes? location).isSome then .error .notDirectory
    else .error .notFound

/-- What a walk comes upon under the directory that a path leads to. The path
grows on the way, and where it is too long nothing is listed or read. -/
def walk (t : FileTree) (path : String) (location : List String) : Walk :=
  let isReached (rest : List String) : Bool := (pathUnder path rest).utf8ByteSize ≤ maxPathSize
  let unlisted := t.directories.filterMap fun place => do
    let rest ← location.isPrefixOf? place
    if isReached rest.dropLast && !isReached rest then
      some (.error (.onWalk (pathUnder path rest) .tooLong))
    else none
  let files := t.files.filterMap fun (place, bytes) => do
    let rest ← location.isPrefixOf? place
    if isReached rest.dropLast then
      some (.ok ⟨rest, if isReached rest then .ok bytes else .error .tooLong⟩)
    else none
  unlisted ++ files

def locate (t : FileTree) (path : String) : Except FileFault (List String) := do
  checkPath path
  t.follow [] (namesIn path)

def look (t : FileTree) (path : String) : Place :=
  match t.locate path with
  | .error fault => .missing fault
  | .ok location =>
    if t.isDirectory location then .directory (t.walk path location)
    else
      match t.bytes? location with
      | some bytes => .file (.ok bytes)
      | none => .missing .notFound

def addDirectory (t : FileTree) (location : List String) : FileTree :=
  if t.isDirectory location then t
  else { t with directories := t.directories ++ [location] }

def addDirectories (t : FileTree) (location : List String) :
    List String → Except FileFault (FileTree × List String)
  | [] => .ok (t, location)
  | name :: names =>
    let next := step location name
    if maxNameSize < name.utf8ByteSize then .error .tooLong
    else if (t.bytes? next).isSome then .error .notDirectory
    else addDirectories (t.addDirectory next) next names

/-- Puts a file in the place of the one at its location. -/
def putFile (t : FileTree) (location : List String) (bytes : ByteArray) : FileTree :=
  { t with files := t.files.filter (·.1 != location) ++ [(location, bytes)] }

/-- Writes a file to a path, after making the directories on the way. -/
def save (t : FileTree) (path : String) (bytes : ByteArray) : Except FileFault FileTree := do
  checkPath path
  let names := namesIn path
  let (t, location) ← t.addDirectories [] names.dropLast
  let name := names.getLast?.getD ""
  let place := step location name
  if maxNameSize < name.utf8ByteSize then throw .tooLong
  if place.length ≤ location.length || t.isDirectory place then throw .isDirectory
  return t.putFile place bytes

def makeDirectory (t : FileTree) (path : String) : Except FileFault FileTree :=
  (t.addDirectories [] (namesIn path)).map Prod.fst

/-- Reading and writing in a tree. A write that fails leaves the tree as it was. -/
def access : FileAccess (StateM FileTree) where
  look path := do return (← get).look path
  save path text := do
    match (← get).save path text.toUTF8 with
    | .ok t =>
      set t
      return .ok ()
    | .error fault => return .error fault

end FileTree

end PrintRegistry
