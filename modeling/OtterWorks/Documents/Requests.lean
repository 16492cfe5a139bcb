import OtterWorks.Lib.Calendar
import OtterWorks.Lib.KeyMap
import Mathlib.Data.List.Basic

namespace OtterWorks.Documents

abbrev Uuid := Nat

/-- The columns of a `documents` row but its key and its times. -/
structure Document where
  title : String
  content : String
  contentType : String
  ownerId : Uuid
  folderId : Option Uuid
  isDeleted : Bool
  wordCount : Nat
  version : Nat
  deriving DecidableEq, Repr

structure DocumentVersion where
  id : Uuid
  versionNumber : Nat
  title : String
  content : String
  createdBy : Uuid
  deriving DecidableEq, Repr

structure DocumentCreate where
  title : String
  content : String
  contentType : String
  ownerId : Uuid
  folderId : Option Uuid
  deriving DecidableEq, Repr

structure DocumentUpdate where
  title : String
  content : String
  contentType : String
  folderId : Option Uuid
  deriving DecidableEq, Repr

/-- The fields that a PATCH sets. -/
structure DocumentPatch where
  title : Option String
  content : Option String
  contentType : Option String
  folderId : Option (Option Uuid)
  deriving DecidableEq, Repr

/-- White space as `str.split` has it. -/
def isSpace (c : Char) : Bool :=
  (9 ≤ c.toNat && c.toNat ≤ 13) || (28 ≤ c.toNat && c.toNat ≤ 32) || c.toNat = 0x85 || c.toNat = 0xa0 ||
    c.toNat = 0x1680 || (0x2000 ≤ c.toNat && c.toNat ≤ 0x200a) || c.toNat = 0x2028 || c.toNat = 0x2029 ||
    c.toNat = 0x202f || c.toNat = 0x205f || c.toNat = 0x3000

def wordCountOf (text : String) : Nat := ((text.toList.splitOnP isSpace).filter fun word => !word.isEmpty).length

def DocumentCreate.document (data : DocumentCreate) : Document where
  title := data.title
  content := data.content
  contentType := data.contentType
  ownerId := data.ownerId
  folderId := data.folderId
  isDeleted := false
  wordCount := wordCountOf data.content
  version := 1

def DocumentUpdate.apply (data : DocumentUpdate) (document : Document) : Document :=
  { document with
    title := data.title
    content := data.content
    contentType := data.contentType
    folderId := data.folderId
    wordCount := wordCountOf data.content
    version := document.version + 1 }

namespace DocumentPatch

def changed (data : DocumentPatch) : Bool :=
  data.title.isSome || data.content.isSome || data.contentType.isSome || data.folderId.isSome

def apply (data : DocumentPatch) (document : Document) : Document :=
  { document with
    title := data.title.getD document.title
    content := data.content.getD document.content
    contentType := data.contentType.getD document.contentType
    folderId := data.folderId.getD document.folderId
    wordCount := match data.content with
      | some content => wordCountOf content
      | none => document.wordCount
    version := if data.changed then document.version + 1 else document.version }

end DocumentPatch

def Document.restore (document : Document) (ver : DocumentVersion) : Document :=
  { document with
    title := ver.title
    content := ver.content
    wordCount := wordCountOf ver.content
    version := document.version + 1 }

/-- The version row that goes with a document that a modifying request has changed. -/
def Document.versionRow (document : Document) (id : Uuid) : DocumentVersion :=
  ⟨id, document.version, document.title, document.content, document.ownerId⟩

/-- The UPDATE of a flush sets the columns that differ from what the session has loaded. -/
def Document.flush (stored loaded document : Document) : Document where
  title := if document.title = loaded.title then stored.title else document.title
  content := if document.content = loaded.content then stored.content else document.content
  contentType := if document.contentType = loaded.contentType then stored.contentType else document.contentType
  ownerId := if document.ownerId = loaded.ownerId then stored.ownerId else document.ownerId
  folderId := if document.folderId = loaded.folderId then stored.folderId else document.folderId
  isDeleted := if document.isDeleted = loaded.isDeleted then stored.isDeleted else document.isDeleted
  wordCount := if document.wordCount = loaded.wordCount then stored.wordCount else document.wordCount
  version := if document.version = loaded.version then stored.version else document.version

inductive Request
  | create (data : DocumentCreate)
  | update (data : DocumentUpdate)
  | patch (data : DocumentPatch)
  | restoreVersion (versionId : Uuid)
  | delete
  deriving DecidableEq, Repr

/-- The statement a request is at. The endpoint reads the document, checks its owner and calls the service, which
reads it again in the same session: the session keeps the columns it has loaded first. -/
inductive Stage
  | insert
  | existing
  | get (loaded : Document)
  | findVersion (loaded : Document) (versionId : Uuid)
  | commit (loaded document : Document) (addsVersion : Bool)
  | finished
  deriving DecidableEq, Repr

structure Handler where
  user : Uuid
  request : Request
  stage : Stage
  deriving DecidableEq, Repr

def Request.first : Request → Stage
  | .create _ => .insert
  | _ => .existing

/-- What the service does with the document it has read, up to its next statement. -/
def Request.change (document : Document) : Request → Stage
  | .create _ => .finished
  | .update data => .commit document (data.apply document) true
  | .patch data => .commit document (data.apply document) data.changed
  | .restoreVersion versionId => .findVersion document versionId
  | .delete => .commit document { document with isDeleted := true } false

/-- The largest value of an Integer column. -/
def maxInteger : Nat := 2147483647

/-- The rows of one document and the requests on it; `modified` counts the updates, the patches that set a field
and the restores that have succeeded. -/
structure Database where
  document : Option Document
  versions : List DocumentVersion
  handlers : List Handler
  modified : Nat
  deriving DecidableEq, Repr

/-- What can happen next: a request arrives, its next statement is executed (a new version row draws an id), or it
ends in an error. -/
inductive Event
  | request (user : Uuid) (r : Request)
  | next (i : Nat) (id : Uuid)
  | fail (i : Nat)
  deriving DecidableEq, Repr

namespace Database

def setStage (s : Database) (i : Nat) (h : Handler) (stage : Stage) : Database :=
  { s with handlers := s.handlers.set i { h with stage := stage } }

/-- The row `get` finds. -/
def get (s : Database) : Option Document := s.document.filter fun d => !d.isDeleted

/-- Whether the insert of a version row goes through. -/
def accepts (s : Database) (id : Uuid) (document : Document) : Prop :=
  document.version ≤ maxInteger ∧ id ∉ s.versions.map DocumentVersion.id

instance (s : Database) (id : Uuid) (document : Document) : Decidable (s.accepts id document) :=
  inferInstanceAs (Decidable (_ ∧ _))

def next (s : Database) (i : Nat) (id : Uuid) (h : Handler) : Stage → Database
  | .insert =>
    match h.request, s.document with
    | .create data, none =>
      { s.setStage i h .finished with
        document := some data.document
        versions := [data.document.versionRow id] }
    -- any other document that is created is another one
    | _, _ => s.setStage i h .finished
  | .existing =>
    match s.get with
    | none => s.setStage i h .finished
    | some document => s.setStage i h (if document.ownerId = h.user then .get document else .finished)
  | .get loaded => s.setStage i h (if s.get.isSome then h.request.change loaded else .finished)
  | .findVersion loaded versionId =>
    match s.versions.find? fun v => v.id = versionId with
    | none => s.setStage i h .finished
    | some ver => s.setStage i h (.commit loaded (loaded.restore ver) true)
  | .commit loaded document addsVersion =>
    match s.document with
    | none => s.setStage i h .finished
    | some stored =>
      if addsVersion then
        if s.accepts id document then
          { s.setStage i h .finished with
            document := some (stored.flush loaded document)
            versions := s.versions ++ [document.versionRow id]
            modified := s.modified + 1 }
        else s.setStage i h .finished
      else { s.setStage i h .finished with document := some (stored.flush loaded document) }
  | .finished => s

def step (s : Database) : Event → Database
  | .request user r => { s with handlers := s.handlers ++ [⟨user, r, r.first⟩] }
  | .next i id =>
    match s.handlers[i]? with
    | none => s
    | some h => s.next i id h h.stage
  | .fail i =>
    match s.handlers[i]? with
    | none => s
    | some h => s.setStage i h .finished

/-- The document does not exist and no request is under way. -/
def start : Database := ⟨none, [], [], 0⟩

end Database

/-- `_document_index_payload`. -/
structure DocumentEntry where
  id : Uuid
  title : String
  content : String
  ownerId : Uuid
  tags : List String
  createdAt : TimeText
  updatedAt : TimeText
  deriving DecidableEq, Repr

/-- The published events that carry a document or name one. -/
inductive DocumentEvent
  | created (payload : DocumentEntry)
  | updated (payload : DocumentEntry)
  | deleted (id : Uuid)
  deriving DecidableEq, Repr

structure DocumentRow where
  document : Document
  versions : List DocumentVersion
  createdAt : Nat
  updatedAt : Nat
  deriving DecidableEq, Repr

abbrev DocumentTable := KeyMap Uuid DocumentRow

def DocumentRow.payload (row : DocumentRow) (id : Uuid) : DocumentEntry where
  id := id
  title := row.document.title
  content := row.document.content
  ownerId := row.document.ownerId
  tags := []
  createdAt := .offset row.createdAt
  updatedAt := .offset row.updatedAt

/-- The row that a modifying request leaves, with the version it adds. -/
def DocumentRow.save (row : DocumentRow) (document : Document) (versionId now : Nat) : DocumentRow where
  document := document
  versions := row.versions ++ [document.versionRow versionId]
  createdAt := row.createdAt
  updatedAt := now

/-- `Field(..., min_length=1, max_length=500)`. -/
def validTitle (title : String) : Bool := !title.isEmpty && title.length ≤ 500

/-- An operation with the ids and the time that the database draws for it. -/
inductive Operation
  | create (data : DocumentCreate) (id versionId now : Nat)
  | update (id : Uuid) (data : DocumentUpdate) (versionId now : Nat)
  | patch (id : Uuid) (data : DocumentPatch) (versionId now : Nat)
  | restoreVersion (id versionId newVersionId now : Nat)
  | delete (id : Uuid) (now : Nat)
  deriving DecidableEq, Repr

/-- `get`: a row that is not deleted. -/
def getDocument (rows : DocumentTable) (id : Uuid) : Option DocumentRow :=
  rows[id]?.filter fun row => !row.document.isDeleted

/-- The row a modifying request has written, with the event it publishes. -/
def updated (rows : DocumentTable) (id : Uuid) (row : DocumentRow) : DocumentEvent × DocumentTable :=
  (.updated (row.payload id), rows.insert id row)

/-- A request whose statements all succeed: the event it publishes and the rows it leaves, unless it is refused or
changes nothing. -/
def Operation.perform (rows : DocumentTable) : Operation → Option (DocumentEvent × DocumentTable)
  | .create data id versionId now =>
    if !validTitle data.title || id ∈ rows then none
    else
      let row : DocumentRow := ⟨data.document, [data.document.versionRow versionId], now, now⟩
      some (.created (row.payload id), rows.insert id row)
  | .update id data versionId now =>
    if !validTitle data.title then none
    else (getDocument rows id).map fun row => updated rows id (row.save (data.apply row.document) versionId now)
  | .patch id data versionId now =>
    if !(data.title.all validTitle) || !data.changed then none
    else (getDocument rows id).map fun row => updated rows id (row.save (data.apply row.document) versionId now)
  | .restoreVersion id versionId newVersionId now => do
    let row ← getDocument rows id
    let ver ← row.versions.find? fun ver => ver.id = versionId
    some (updated rows id (row.save (row.document.restore ver) newVersionId now))
  | .delete id now =>
    (getDocument rows id).map fun row =>
      (.deleted id, rows.insert id { row with document := { row.document with isDeleted := true }, updatedAt := now })

end OtterWorks.Documents
