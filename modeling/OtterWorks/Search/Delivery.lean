import OtterWorks.Lib.Replay
import OtterWorks.Search.Indexer

namespace OtterWorks.Search

open Documents (DocumentEntry DocumentEvent DocumentRow DocumentTable)
open Files (Uuid FileMetadata FileTable)

/-- What the crawl makes of a listed document. -/
def documentRecord (id : Uuid) (row : DocumentRow) : DocumentEntry where
  id := id
  title := row.document.title
  content := row.document.content
  ownerId := row.document.ownerId
  tags := []
  createdAt := .zulu row.createdAt
  updatedAt := .zulu row.updatedAt

/-- `list_documents` without a filter: the rows in the order of the query that are not deleted. -/
def listDocuments (order : DocumentTable → List (Uuid × DocumentRow)) (rows : DocumentTable) : List (Uuid × DocumentRow) :=
  (order rows).filter fun row => !row.2.document.isDeleted

/-- The `size` of document-service, which does not know the `page_size` the crawl asks for. -/
def documentPageSize : Nat := 20

/-- The call a reindex is at, with what it has fetched and not written yet; pages are counted from 0. -/
inductive Stage
  | documents (page : Nat) (docs : List DocumentEntry)
  | files (page : Nat) (docs : List DocumentEntry) (files : List FileEntry)
  | dropDocuments (docs : List DocumentEntry) (files : List FileEntry)
  | dropFiles (docs : List DocumentEntry) (files : List FileEntry)
  | addDocuments (batches : List (List DocumentEntry)) (files : List FileEntry)
  | addFiles (batches : List (List FileEntry))
  | finished
  deriving DecidableEq, Repr

/-- A reindex, with the number of events published before it read its first page of either kind. -/
structure Reindex where
  stage : Stage
  documentsSince : Nat
  filesSince : Nat
  deriving DecidableEq, Repr

/-- The two services, every event they have published, the events the consumer has processed, the last one first, and
the reindexes. -/
structure System where
  documents : DocumentTable
  files : FileTable
  queue : List Message
  processed : List Nat
  index : Index
  reindexes : List Reindex

/-- The queue delivers any published event at any time. -/
inductive Step
  | document (op : Documents.Operation)
  | file (op : Files.Operation)
  | deliver (i : Nat)
  | startReindex
  | reindex (r : Nat)
  deriving DecidableEq, Repr

section

variable (order : DocumentTable → List (Uuid × DocumentRow)) (scan : FileTable → List FileMetadata)

/-- The next call of a reindex. -/
def Reindex.call (s : System) (run : Reindex) : Reindex × Index :=
  match run.stage with
  | .documents page docs =>
    let items := pageAt documentPageSize (listDocuments order s.documents) page
    let run := if page = 0 then { run with documentsSince := s.queue.length } else run
    if items.isEmpty then ({ run with stage := .files 0 docs [] }, s.index)
    else ({ run with stage := .documents (page + 1) (docs ++ items.map fun row => documentRecord row.1 row.2) }, s.index)
  | .files page docs files =>
    let items := pageAt fetchPageSize (listFiles scan s.files) page
    let run := if page = 0 then { run with filesSince := s.queue.length } else run
    if items.isEmpty then ({ run with stage := .dropDocuments docs files }, s.index)
    else ({ run with stage := .files (page + 1) docs (files ++ items.map fileRecord) }, s.index)
  | .dropDocuments docs files => ({ run with stage := .dropFiles docs files }, { s.index with documents := ∅ })
  | .dropFiles docs files =>
    ({ run with stage := .addDocuments (slices addBatch docs) files }, { s.index with files := ∅ })
  | .addDocuments [] files => ({ run with stage := .addFiles (slices addBatch files) }, s.index)
  | .addDocuments (batch :: batches) files =>
    ({ run with stage := .addDocuments batches files },
      { s.index with documents := s.index.documents.upsertAll (batch.map fun e => (e.id, e)) })
  | .addFiles [] => ({ run with stage := .finished }, s.index)
  | .addFiles (batch :: batches) =>
    ({ run with stage := .addFiles batches }, { s.index with files := s.index.files.upsertAll (batch.map fun e => (e.id, e)) })
  | .finished => (run, s.index)

namespace System

def step (s : System) : Step → System
  | .document op =>
    match op.perform s.documents with
    | none => s
    | some (event, rows) => { s with documents := rows, queue := s.queue ++ [.document event] }
  | .file op =>
    match op.perform s.files with
    | none => s
    | some (event, rows) => { s with files := rows, queue := s.queue ++ [.file event] }
  | .deliver i =>
    match s.queue[i]? with
    | none => s
    | some message => { s with index := s.index.processMessage message, processed := i :: s.processed }
  | .startReindex => { s with reindexes := s.reindexes ++ [⟨.documents 0 [], 0, 0⟩] }
  | .reindex r =>
    match s.reindexes[r]? with
    | none => s
    | some run =>
      { s with
        index := (run.call order scan s).2
        reindexes := s.reindexes.set r (run.call order scan s).1 }

def start : System := ⟨∅, ∅, [], [], .empty, []⟩

end System

end

inductive Object
  | document (id : Uuid)
  | file (id : Uuid)
  deriving DecidableEq, Repr

/-- What a search shows of an object. -/
inductive Shown
  | document (title content : String)
  | file (name : String)
  deriving DecidableEq, Repr

/-- The object an event is about, if the consumer acts on it. -/
def Message.object : Message → Option Object
  | .document (.created payload) => some (.document payload.id)
  | .document (.updated payload) => some (.document payload.id)
  | .document (.deleted id) => some (.document id)
  | .file event => (actionOf event.eventType).map fun _ => .file event.fileId

/-- What an event says its object shows from then on. -/
def Message.shown : Message → Option Shown
  | .document (.created payload) => some (.document payload.title payload.content)
  | .document (.updated payload) => some (.document payload.title payload.content)
  | .document (.deleted _) => none
  | .file event => if actionOf event.eventType = some .indexFile then some (.file (event.name.getD "")) else none

def shownDocument (e : DocumentEntry) : Shown := .document e.title e.content

def shownFile (e : FileEntry) : Shown := .file e.name

def Index.shown (ix : Index) : Object → Option Shown
  | .document id => ix.documents[id]?.map shownDocument
  | .file id => ix.files[id]?.map shownFile

/-- What the first `n` events tell of an object. -/
def told (queue : List Message) (n : Nat) (o : Object) : Option Shown :=
  replay Message.object Message.shown (queue.take n) o

namespace System

/-- What an object that exists undeleted has now. -/
def shown (s : System) : Object → Option Shown
  | .document id =>
    (Documents.getDocument s.documents id).map fun row => .document row.document.title row.document.content
  | .file id => (s.files[id]?.filter fun file => !file.isTrashed).map fun file => .file file.name

/-- The number of events up to the one about an object that was processed last. -/
def covered (s : System) (o : Object) : Nat :=
  match s.processed.find? fun i => (s.queue[i]?.bind Message.object) = some o with
  | none => 0
  | some i => i + 1

/-- The event about an object that was processed last is the last that was published. -/
def Settled (s : System) (o : Object) : Prop := QuietFrom Message.object s.queue o (s.covered o)

end System

namespace Reindex

def since (run : Reindex) : Object → Nat
  | .document _ => run.documentsSince
  | .file _ => run.filesSince

/-- It has read rows of the kind that it has yet to write back. -/
def Holds (run : Reindex) (o : Object) : Prop :=
  match o, run.stage with
  | .document _, .documents page _ => 0 < page
  | .document _, .files .. => True
  | .file _, .files page _ _ => 0 < page
  | _, .dropDocuments .. => True
  | _, .dropFiles .. => True
  | _, .addDocuments .. => True
  | .file _, .addFiles _ => True
  | _, _ => False

/-- It is between its first and its last page of a kind. -/
def CrawlsDocuments (run : Reindex) : Prop := ∃ page docs, run.stage = .documents page docs ∧ 0 < page

def CrawlsFiles (run : Reindex) : Prop := ∃ page docs files, run.stage = .files page docs files ∧ 0 < page

end Reindex

/-- A file is not stored without a name and not renamed in the trash. -/
def Plain (files : FileTable) : Files.Operation → Prop
  | .upload form _ _ _ _ => form.fileName ≠ some ""
  | .rename id _ _ _ => ∀ file ∈ files[id]?, file.isTrashed = false
  | _ => True

/-- No rows change while they are crawled, and the last event about an object is not processed while a reindex holds
older rows. -/
def Allowed (s : System) : Step → Prop
  | .document _ => ∀ run ∈ s.reindexes, ¬ run.CrawlsDocuments
  | .file op => Plain s.files op ∧ ∀ run ∈ s.reindexes, ¬ run.CrawlsFiles
  | .deliver i => ∀ message o, s.queue[i]? = some message → message.object = some o →
      QuietFrom Message.object s.queue o (i + 1) → ∀ run ∈ s.reindexes, run.Holds o → i < run.since o
  | _ => True

end OtterWorks.Search
