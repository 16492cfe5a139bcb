import Mathlib.Logic.Function.Basic

namespace OtterWorks.Files

abbrev Uuid := Nat

/-- The text `files/{owner}/{file_id}`. -/
structure ObjectKey where
  ownerId : Uuid
  fileId : Uuid
  deriving DecidableEq, Repr

structure FileMetadata where
  id : Uuid
  name : String
  mimeType : String
  sizeBytes : Nat
  s3Key : ObjectKey
  folderId : Option Uuid
  ownerId : Uuid
  version : Nat
  isTrashed : Bool
  createdAt : Nat
  updatedAt : Nat
  deriving DecidableEq, Repr

structure FileVersion where
  fileId : Uuid
  version : Nat
  s3Key : ObjectKey
  sizeBytes : Nat
  createdBy : Uuid
  createdAt : Nat
  deriving DecidableEq, Repr

/-- The bucket and the two tables. -/
structure Store where
  objects : ObjectKey → Bool
  files : Uuid → Option FileMetadata
  versions : Uuid → Nat → Option FileVersion

namespace Store

def uploadObject (s : Store) (key : ObjectKey) : Store := { s with objects := Function.update s.objects key true }

def deleteObject (s : Store) (key : ObjectKey) : Store := { s with objects := Function.update s.objects key false }

def putFile (s : Store) (file : FileMetadata) : Store :=
  { s with files := Function.update s.files file.id (some file) }

def deleteFile (s : Store) (id : Uuid) : Store := { s with files := Function.update s.files id none }

def putVersion (s : Store) (v : FileVersion) : Store :=
  { s with versions := Function.update s.versions v.fileId (Function.update (s.versions v.fileId) v.version (some v)) }

end Store

/-- The updates of one row: `trash_file`, `restore_file`, `rename_file` with the trimmed name, and `move_file`. -/
inductive Change
  | trash
  | restore
  | rename (name : String)
  | move (folderId : Option Uuid)
  deriving DecidableEq, Repr

def Change.apply (now : Nat) (file : FileMetadata) : Change → FileMetadata
  | .trash => { file with isTrashed := true, updatedAt := now }
  | .restore => { file with isTrashed := false, updatedAt := now }
  | .rename name => { file with name := name, updatedAt := now }
  | .move folderId => { file with folderId := folderId, updatedAt := now }

/-- An update under the condition `attribute_exists(id)`; without the row it is refused. -/
def Store.updateFile (s : Store) (id : Uuid) (now : Nat) (change : Change) : Store :=
  match s.files id with
  | none => s
  | some file => { s with files := Function.update s.files id (some (change.apply now file)) }

/-- How a call ends: answered, failed without an effect, or failed after it took effect. -/
inductive Outcome
  | ok
  | failed
  | lost
  deriving DecidableEq, Repr

/-- The call an `upload_file` is at; `half` has stored the row but not its version, and has stopped. -/
inductive UploadStage
  | object
  | row
  | version
  | half
  | finished
  deriving DecidableEq, Repr

structure Upload where
  file : FileMetadata
  stage : UploadStage
  deriving DecidableEq, Repr

inductive ServiceError
  | badRequest (message : String)
  | fileTooLarge (maxBytes actualBytes : Nat)
  deriving DecidableEq, Repr

/-- The parts of an upload as the request sends them. -/
structure UploadForm where
  headerOwnerId : Option Uuid
  ownerId : Option Uuid
  fileName : Option String
  contentType : Option String
  fileBytes : Nat
  folderId : Option Uuid
  deriving DecidableEq, Repr

/-- What `upload_file` makes of the form before its first call. -/
def UploadForm.file (form : UploadForm) (maxUploadBytes : Nat) (id : Uuid) (now : Nat) :
    Except ServiceError FileMetadata :=
  if maxUploadBytes < form.fileBytes then .error (.fileTooLarge maxUploadBytes form.fileBytes)
  else
    match form.headerOwnerId.or form.ownerId with
    | none => .error (.badRequest "owner_id is required")
    | some owner =>
      if form.fileBytes = 0 then .error (.badRequest "file field is required")
      else
        .ok {
          id := id
          name := form.fileName.getD "unnamed"
          mimeType := form.contentType.getD "application/octet-stream"
          sizeBytes := form.fileBytes
          s3Key := ⟨owner, id⟩
          folderId := form.folderId
          ownerId := owner
          version := 1
          isTrashed := false
          createdAt := now
          updatedAt := now }

/-- The first version of a file. -/
def FileMetadata.firstVersion (file : FileMetadata) : FileVersion :=
  ⟨file.id, 1, file.s3Key, file.sizeBytes, file.ownerId, file.createdAt⟩

/-- The call a `delete_file` is at, with the row it has read. -/
inductive DeleteStage
  | row (file : FileMetadata)
  | object (file : FileMetadata)
  | finished
  deriving DecidableEq, Repr

/-- The service: the store, the uploads by the id each has drawn, and the deletions under way. `deleted` lists the
ids whose row a `delete_file` has removed. -/
structure Service where
  store : Store
  uploads : Uuid → Option Upload
  deletes : List DeleteStage
  deleted : List Uuid

/-- What can happen next. A handler that stops is one that nothing happens to any more; an update reads nothing
before its one conditional call. -/
inductive Event
  | upload (id : Uuid) (form : UploadForm) (maxUploadBytes now : Nat)
  | uploadCall (id : Uuid) (outcome : Outcome)
  | delete (id : Uuid)
  | deleteCall (i : Nat) (outcome : Outcome)
  | update (id : Uuid) (now : Nat) (change : Change) (outcome : Outcome)
  deriving DecidableEq, Repr

/-- The next call of `upload_file`. -/
def Upload.call (u : Upload) (s : Store) (outcome : Outcome) : Store × Upload :=
  match u.stage, outcome with
  | .object, .ok => (s.uploadObject u.file.s3Key, { u with stage := .row })
  | .object, .lost => (s.uploadObject u.file.s3Key, { u with stage := .finished })
  | .object, .failed => (s, { u with stage := .finished })
  | .row, .ok => (s.putFile u.file, { u with stage := .version })
  | .row, .lost => (s.putFile u.file, { u with stage := .half })
  | .row, .failed => (s, { u with stage := .finished })
  | .version, .ok => (s.putVersion u.file.firstVersion, { u with stage := .finished })
  | .version, .lost => (s.putVersion u.file.firstVersion, { u with stage := .finished })
  | .version, .failed => (s, { u with stage := .half })
  | .half, _ => (s, u)
  | .finished, _ => (s, u)

namespace Service

/-- The next call of `delete_file`, whose row the caller has read. -/
def deleteCall (s : Service) (i : Nat) (outcome : Outcome) : DeleteStage → Service
  | .row file =>
    match outcome with
    | .failed => { s with deletes := s.deletes.set i .finished }
    | .ok =>
      { s with
        store := s.store.deleteFile file.id
        deletes := s.deletes.set i (.object file)
        deleted := file.id :: s.deleted }
    | .lost =>
      { s with
        store := s.store.deleteFile file.id
        deletes := s.deletes.set i .finished
        deleted := file.id :: s.deleted }
  | .object file =>
    if outcome = .failed then { s with deletes := s.deletes.set i .finished }
    else { s with store := s.store.deleteObject file.s3Key, deletes := s.deletes.set i .finished }
  | .finished => s

/-- One event; an upload draws an id that no upload has drawn before. -/
def step (s : Service) : Event → Service
  | .upload id form maxUploadBytes now =>
    match s.uploads id, form.file maxUploadBytes id now with
    | none, .ok file => { s with uploads := Function.update s.uploads id (some ⟨file, .object⟩) }
    | _, _ => s
  | .uploadCall id outcome =>
    match s.uploads id with
    | none => s
    | some u =>
      { s with store := (u.call s.store outcome).1, uploads := Function.update s.uploads id (some (u.call s.store outcome).2) }
  | .delete id =>
    match s.store.files id with
    | none => s
    | some file => { s with deletes := s.deletes ++ [.row file] }
  | .deleteCall i outcome =>
    match s.deletes[i]? with
    | none => s
    | some d => s.deleteCall i outcome d
  | .update id now change outcome =>
    if outcome = .failed then s else { s with store := s.store.updateFile id now change }

/-- A service that has stored nothing yet. -/
def start : Service := ⟨⟨fun _ => false, fun _ => none, fun _ _ => none⟩, fun _ => none, [], []⟩

def run (events : List Event) : Service := events.foldl step start

end Service

end OtterWorks.Files
