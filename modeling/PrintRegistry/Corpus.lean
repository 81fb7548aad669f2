import PrintRegistry.Failure
import PrintRegistry.Record.Decoding
import PrintRegistry.Text.Search

/-!
The corpus: the records of one file, or of all record files under a directory.
Files under a directory are taken in the order of their paths, name by name,
so the same files always give the same corpus. A file that cannot be read
leaves the corpus as it was.
-/

namespace PrintRegistry

structure Corpus where
  files : List String := []
  records : Records := {}

namespace Corpus

def add (c : Corpus) (path : String) (content : Content) : Except Failure Corpus :=
  match content.text with
  | .error fault => .error (.file fault)
  | .ok text =>
    match Records.ofText text with
    | .error fault => .error (.unreadableRecords path fault)
    | .ok records => .ok ⟨c.files ++ [path], c.records.merge records⟩

/-- Whether a file of this name holds records: the name has the ending `.json`
and something before it. -/
def isRecordName (name : String) : Bool :=
  match Text.withoutEnding? name ".json" with
  | some stem => !stem.isEmpty
  | none => false

def isRecordFile (f : StoredFile) : Bool :=
  (f.location.getLast?.map isRecordName).getD false

/-- The files with records, in the order of their paths. -/
def recordFiles (files : List StoredFile) : List StoredFile :=
  (files.filter isRecordFile).mergeSort fun a b => !b.location.lex a.location

/-- The records at a path. A fault on the walk through a directory comes before
those of its files, whether they hold records or not. -/
def load (path : String) : Place → Except Failure Corpus
  | .missing _ => .error (.missingInput path)
  | .file content => add {} path content
  | .directory walk => do
    let files ← (walk.mapM id).mapError Failure.file
    (recordFiles files).foldlM (fun c f => c.add (pathUnder path f.location) f.content) {}

end Corpus

end PrintRegistry
