import OtterWorks.Files.Records
import OtterWorks.Lib.Calendar
import OtterWorks.Lib.KeyMap

namespace OtterWorks.Files

inductive FileEventType
  | uploaded
  | deleted
  | shared
  | trashed
  | restored
  | updated
  | moved
  deriving DecidableEq, Repr

/-- An event as it is published; a field that is `none` is null or left out. -/
structure FileEvent where
  eventType : FileEventType
  fileId : Uuid
  ownerId : Uuid
  folderId : Option Uuid
  timestamp : TimeText
  name : Option String
  mimeType : Option String
  sizeBytes : Option Nat
  deriving DecidableEq, Repr

def metadataEvent (eventType : FileEventType) (file : FileMetadata) (published : Nat) : FileEvent where
  eventType := eventType
  fileId := file.id
  ownerId := file.ownerId
  folderId := file.folderId
  timestamp := .offset published
  name := some file.name
  mimeType := some file.mimeType
  sizeBytes := some file.sizeBytes

def bareEvent (eventType : FileEventType) (folderId : Option Uuid) (file : FileMetadata) (published : Nat) :
    FileEvent where
  eventType := eventType
  fileId := file.id
  ownerId := file.ownerId
  folderId := folderId
  timestamp := .offset published
  name := none
  mimeType := none
  sizeBytes := none

def fileUploaded : FileMetadata → Nat → FileEvent := metadataEvent .uploaded

def fileRestored : FileMetadata → Nat → FileEvent := metadataEvent .restored

def fileUpdated : FileMetadata → Nat → FileEvent := metadataEvent .updated

def fileDeleted : FileMetadata → Nat → FileEvent := bareEvent .deleted none

def fileTrashed : FileMetadata → Nat → FileEvent := bareEvent .trashed none

def fileMoved (file : FileMetadata) : Nat → FileEvent := bareEvent .moved file.folderId file

/-- `char::is_whitespace`. -/
def isWhitespace (c : Char) : Bool :=
  (9 ≤ c.toNat && c.toNat ≤ 13) || c.toNat = 32 || c.toNat = 0x85 || c.toNat = 0xa0 || c.toNat = 0x1680 ||
    (0x2000 ≤ c.toNat && c.toNat ≤ 0x200a) || c.toNat = 0x2028 || c.toNat = 0x2029 || c.toNat = 0x202f ||
    c.toNat = 0x205f || c.toNat = 0x3000

def trim (name : String) : String :=
  String.ofList ((name.toList.dropWhile isWhitespace).reverse.dropWhile isWhitespace).reverse

/-- The rows of the files table. -/
abbrev FileTable := KeyMap Uuid FileMetadata

/-- An operation with the time it reads for the row and the later one it reads for the event. -/
inductive Operation
  | upload (form : UploadForm) (maxUploadBytes : Nat) (id : Uuid) (now published : Nat)
  | rename (id : Uuid) (name : String) (now published : Nat)
  | move (id : Uuid) (folderId : Option Uuid) (now published : Nat)
  | trash (id : Uuid) (now published : Nat)
  | restore (id : Uuid) (now published : Nat)
  | delete (id : Uuid) (published : Nat)
  deriving DecidableEq, Repr

/-- The update of one row, and the row that is read back after it. -/
def updateRow (files : FileTable) (id : Uuid) (now : Nat) (change : Change) : Option (FileMetadata × FileTable) :=
  files[id]?.map fun file => (change.apply now file, files.insert id (change.apply now file))

/-- A request whose calls all succeed: the event it publishes and the rows it leaves, unless it is refused. -/
def Operation.perform (files : FileTable) : Operation → Option (FileEvent × FileTable)
  | .upload form maxUploadBytes id now published =>
    match form.file maxUploadBytes id now with
    | .error _ => none
    | .ok file => some (fileUploaded file published, files.insert id file)
  | .rename id name now published =>
    if (trim name).isEmpty then none
    else (updateRow files id now (.rename (trim name))).map fun (file, files) => (fileUpdated file published, files)
  | .move id folderId now published =>
    (updateRow files id now (.move folderId)).map fun (file, files) => (fileMoved file published, files)
  | .trash id now published =>
    (updateRow files id now .trash).map fun (file, files) => (fileTrashed file published, files)
  | .restore id now published =>
    (updateRow files id now .restore).map fun (file, files) => (fileRestored file published, files)
  | .delete id published => files[id]?.map fun file => (fileDeleted file published, files.erase id)

/-- The rows, and all events published so far. -/
structure History where
  files : FileTable
  events : List FileEvent

namespace History

def step (h : History) (op : Operation) : History :=
  match op.perform h.files with
  | none => h
  | some (event, files) => ⟨files, h.events ++ [event]⟩

def start : History := ⟨∅, []⟩

def run (ops : List Operation) : History := ops.foldl step start

end History

end OtterWorks.Files
