import OtterWorks.Documents.Requests
import OtterWorks.Files.Events
import OtterWorks.Lib.Slices

namespace OtterWorks.Search

open Documents (DocumentEntry DocumentEvent DocumentTable)
open Files (Uuid FileMetadata FileEvent FileEventType FileTable)

structure FileEntry where
  id : Uuid
  name : String
  mimeType : String
  ownerId : Uuid
  folderId : Option Uuid
  tags : List String
  size : Nat
  createdAt : TimeText
  updatedAt : TimeText
  deriving DecidableEq, Repr

inductive Kind
  | document
  | file
  deriving DecidableEq, Repr

inductive Message
  | document (event : DocumentEvent)
  | file (event : FileEvent)
  deriving DecidableEq, Repr

inductive IndexerEvent
  | indexDocument (payload : DocumentEntry)
  | indexFile (payload : FileEntry)
  | delete (type : Kind) (id : Uuid)
  | unknown
  deriving DecidableEq, Repr

inductive FileAction
  | indexFile
  | delete
  deriving DecidableEq, Repr

/-- `action_map`; events without metadata have no action. -/
def actionOf : FileEventType → Option FileAction
  | .uploaded => some .indexFile
  | .updated => some .indexFile
  | .deleted => some .delete
  | .trashed => some .delete
  | .restored => some .indexFile
  | .shared => none
  | .moved => none

def filePayload (event : FileEvent) : FileEntry where
  id := event.fileId
  name := event.name.getD ""
  mimeType := event.mimeType.getD ""
  ownerId := event.ownerId
  folderId := event.folderId
  tags := []
  size := event.sizeBytes.getD 0
  createdAt := event.timestamp
  updatedAt := event.timestamp

def normalizeEvent : Message → IndexerEvent
  | .document (.created payload) => .indexDocument payload
  | .document (.updated payload) => .indexDocument payload
  | .document (.deleted id) => .delete .document id
  | .file event =>
    match actionOf event.eventType with
    | none => .unknown
    | some .delete => .delete .file event.fileId
    | some .indexFile => .indexFile (filePayload event)

/-- The two indexes of the search engine. -/
structure Index where
  documents : KeyMap Uuid DocumentEntry
  files : KeyMap Uuid FileEntry

namespace Index

def empty : Index := ⟨∅, ∅⟩

def indexDocument (ix : Index) (payload : DocumentEntry) : Except String Index :=
  if payload.title.isEmpty then .error "Document 'title' is required"
  else .ok { ix with documents := ix.documents.insert payload.id payload }

def indexFile (ix : Index) (payload : FileEntry) : Except String Index :=
  if payload.name.isEmpty then .error "File 'name' is required"
  else .ok { ix with files := ix.files.insert payload.id payload }

def remove (ix : Index) (type : Kind) (id : Uuid) : Index :=
  match type with
  | .document => { ix with documents := ix.documents.erase id }
  | .file => { ix with files := ix.files.erase id }

def processEvent (ix : Index) : IndexerEvent → Except String Index
  | .indexDocument payload => ix.indexDocument payload
  | .indexFile payload => ix.indexFile payload
  | .delete type id => .ok (ix.remove type id)
  | .unknown => .ok ix

/-- A message that fails its validation is dropped. -/
def processMessage (ix : Index) (message : Message) : Index :=
  match ix.processEvent (normalizeEvent message) with
  | .ok ix => ix
  | .error _ => ix

end Index

/-- What the crawl makes of a record of the list endpoint. -/
def fileRecord (file : FileMetadata) : FileEntry where
  id := file.id
  name := file.name
  mimeType := file.mimeType
  ownerId := file.ownerId
  folderId := file.folderId
  tags := []
  size := file.sizeBytes
  createdAt := .zulu file.createdAt
  updatedAt := .zulu file.updatedAt

/-- `list_files` without a filter: the rows of the scan that are not trashed. -/
def listFiles (scan : FileTable → List FileMetadata) (files : FileTable) : List FileMetadata :=
  (scan files).filter fun file => !file.isTrashed

def fetchPageSize : Nat := 100

/-- `_fetch_all_files`, from page `page` on, counted from 0. -/
def fetchAllFiles (scan : FileTable → List FileMetadata) (files : FileTable) (page : Nat) : List FileEntry :=
  (pagesFrom fetchPageSize (listFiles scan files) page).map fileRecord

def addBatch : Nat := 500

/-- `reindex`: the new index takes the entries batch by batch. -/
def refill (entries : List FileEntry) : KeyMap Uuid FileEntry :=
  (slices addBatch entries).foldl (fun m batch => m.upsertAll (batch.map fun e => (e.id, e))) ∅

def reindexFiles (scan : FileTable → List FileMetadata) (files : FileTable) : KeyMap Uuid FileEntry :=
  refill (fetchAllFiles scan files 0)

end OtterWorks.Search
