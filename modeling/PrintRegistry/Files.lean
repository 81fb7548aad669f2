import PrintRegistry.Text.Search

/-!
Files as a run sees them: what stands at a path, and why a file cannot be read
or written. Nothing here depends on where the files are kept.
-/

namespace PrintRegistry

inductive FileFault where
  | notFound
  | notDirectory
  | isDirectory
  /-- The path, or a name in it, is too long. -/
  | tooLong
  /-- The path holds the character NUL, which ends paths. -/
  | holdsNul
  | notText
  /-- A walk through a directory cannot go on at a path: no directory can be
  listed there, or a link leads nowhere. -/
  | onWalk (path : String) (fault : FileFault)
  /-- Anything else, in the words of the system. -/
  | other (message : String)
  deriving DecidableEq, Repr

def FileFault.message : FileFault → String
  | notFound => "No such file or directory (os error 2)"
  | notDirectory => "Not a directory (os error 20)"
  | isDirectory => "Is a directory (os error 21)"
  | tooLong => "File name too long (os error 36)"
  | holdsNul => "file name contained an unexpected NUL byte"
  | notText => "stream did not contain valid UTF-8"
  | onWalk path fault => s!"IO error for operation on {path}: {fault.message}"
  | other message => message

abbrev Content := Except FileFault ByteArray

structure StoredFile where
  /-- The names of the directories on the way to it and its own. -/
  location : List String
  content : Content

/-- What a walk through a directory comes upon, in no special order: the files
at any depth under it, and a fault wherever it cannot go on. -/
abbrev Walk := List (Except FileFault StoredFile)

/-- The path of what has this location under a directory. -/
def pathUnder (directory : String) (location : List String) : String :=
  location.foldl (fun path name => (if Text.endsWith path "/" then path else path ++ "/") ++ name)
    directory

inductive Place where
  | missing (fault : FileFault)
  | file (content : Content)
  | directory (walk : Walk)

def Content.text : Content → Except FileFault String
  | .error fault => .error fault
  | .ok bytes =>
    match String.fromUTF8? bytes with
    | some text => .ok text
    | none => .error .notText

def Place.content : Place → Content
  | missing fault => .error fault
  | file content => content
  | directory _ => .error .isDirectory

def Place.text (p : Place) : Except FileFault String :=
  p.content.text

structure FileAccess (m : Type → Type) where
  look : String → m Place
  /-- Writes a text to a path, after making the directories on the way. -/
  save : String → String → m (Except FileFault Unit)

end PrintRegistry
