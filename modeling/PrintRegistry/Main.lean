import PrintRegistry.Run

/-!
The program on a disk. Files are read and written here and nowhere else, and
what was found on the way is reported on standard error.
-/

open System (FilePath)

namespace PrintRegistry.Disk

def faultOf : IO.Error → FileFault
  | .noFileOrDirectory .. => .notFound
  | e => .other (toString e)

def attempt (action : IO α) : IO (Except FileFault α) := do
  match ← action.toBaseIO with
  | .ok a => return .ok a
  | .error e => return .error (faultOf e)

/-- A walk through a directory, which is `location` for the caller. Links are
followed, and only record files are read. -/
partial def walk (directory : FilePath) (location : List String) : IO Walk := do
  let cutShort (path : FilePath) (fault : FileFault) : Walk :=
    [.error (.onWalk path.toString fault)]
  match ← attempt directory.readDir with
  | .error fault => return cutShort directory fault
  | .ok entries =>
    let mut found := []
    for entry in entries do
      let place := location ++ [entry.fileName]
      match ← attempt entry.path.metadata with
      | .error fault => found := found ++ cutShort entry.path fault
      | .ok info =>
        match info.type with
        | .dir => found := found ++ (← walk entry.path place)
        | .file =>
          if Corpus.isRecordName entry.fileName then
            found := found ++ [.ok ⟨place, ← attempt (IO.FS.readBinFile entry.path)⟩]
        | _ => pure ()
    return found

def look (path : FilePath) : IO Place := do
  match ← attempt path.metadata with
  | .error fault => return .missing fault
  | .ok info =>
    if info.type matches .dir then return .directory (← walk path [])
    else return .file (← attempt (IO.FS.readBinFile path))

def save (path : FilePath) (text : String) : IO (Except FileFault Unit) :=
  attempt do
    if let some parent := path.parent then
      if parent.toString ≠ "" then IO.FS.createDirAll parent
    IO.FS.writeFile path text

def access : FileAccess IO where
  look path := look path
  save path text := save path text

def report (w : Warning) : IO Unit := do
  IO.eprintln s!"{w.kind.label}: {w.message}"
  if let some subject := w.subject then IO.eprintln subject

end PrintRegistry.Disk

open PrintRegistry in
def main (arguments : List String) : IO UInt32 := do
  let outcome ← run Disk.access arguments
  outcome.warnings.forM Disk.report
  if !outcome.warnings.isEmpty then IO.eprintln s!"{outcome.warnings.length} warning(s)"
  IO.print outcome.output
  if let some complaint := outcome.complaint then IO.eprintln s!"error: {complaint}"
  return outcome.exitCode.toUInt32
