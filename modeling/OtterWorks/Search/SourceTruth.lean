import OtterWorks.Search.Delivery
import OtterWorks.Search.FileTracking

namespace OtterWorks.Search

open Documents (DocumentEntry DocumentEvent DocumentRow DocumentTable getDocument)
open Files (Uuid FileMetadata FileEvent FileTable)

/-- A message the consumer indexes carries a title or a name. -/
def Message.Proper : Message → Prop
  | .document (.created payload) => payload.title ≠ ""
  | .document (.updated payload) => payload.title ≠ ""
  | .document (.deleted _) => True
  | .file event => actionOf event.eventType = some .indexFile → event.name.getD "" ≠ ""

/-- Titles are never empty, in the rows and in their versions. -/
def Titled (rows : DocumentTable) : Prop :=
  ∀ (id : Uuid) (row : DocumentRow), rows[id]? = some row →
    row.document.title ≠ "" ∧ ∀ ver ∈ row.versions, ver.title ≠ ""

def Named (files : FileTable) : Prop := ∀ (id : Uuid) (file : FileMetadata), files[id]? = some file → file.name ≠ ""

def documentShown (rows : DocumentTable) (id : Uuid) : Option Shown :=
  (getDocument rows id).map fun row => .document row.document.title row.document.content

def fileShown (files : FileTable) (id : Uuid) : Option Shown :=
  (files[id]?.filter fun file => !file.isTrashed).map fun file => .file file.name

section

variable {rows rows' : DocumentTable} {e : DocumentEvent} {id : Uuid} {row : DocumentRow}

/-- What one accepted operation on a document publishes and does. -/
structure Tells (shownIn shownIn' : Uuid → Option Shown) (object : Uuid → Object) (message : Message) (id : Uuid) :
    Prop where
  object : message.object = some (object id)
  shown : message.shown = shownIn' id
  others : ∀ other, other ≠ id → shownIn' other = shownIn other
  proper : message.Proper

theorem getDocument_insert (rows : DocumentTable) (id other : Uuid) (row : DocumentRow) :
    getDocument (rows.insert id row) other =
      if id = other then some row |>.filter fun row => !row.document.isDeleted else getDocument rows other := by
  rw [getDocument, Std.ExtTreeMap.getElem?_insert]
  by_cases same : id = other
  · rw [if_pos same, if_pos (by simpa using same)]
  · rw [if_neg same, if_neg (by simpa using same), getDocument]

theorem getDocument_some (h : getDocument rows id = some row) : rows[id]? = some row ∧ row.document.isDeleted = false := by
  obtain ⟨held, kept⟩ := Option.filter_eq_some_iff.mp h
  exact ⟨held, by simpa using kept⟩

theorem validTitle_ne {title : String} (h : ¬ (!Documents.validTitle title) = true) : title ≠ "" := by
  rintro rfl
  exact h rfl

theorem titled_insert (titled : Titled rows) (title : row.document.title ≠ "") (versions : ∀ ver ∈ row.versions, ver.title ≠ "") :
    Titled (rows.insert id row) := by
  intro other found held
  rw [Std.ExtTreeMap.getElem?_insert] at held
  split at held
  next =>
    cases held
    exact ⟨title, versions⟩
  next => exact titled other found held

/-- A row written by `save` is shown with its new title and content. -/
theorem saved_tells (titled : Titled rows) (got : getDocument rows id = some row) {document : Documents.Document}
    (title : document.title ≠ "") (kept : document.isDeleted = row.document.isDeleted) (versionId now : Nat) :
    Tells (documentShown rows) (documentShown (Documents.updated rows id (row.save document versionId now)).2) .document
        (.document (Documents.updated rows id (row.save document versionId now)).1) id ∧
      Titled (Documents.updated rows id (row.save document versionId now)).2 := by
  obtain ⟨held, visible⟩ := getDocument_some got
  constructor
  · refine ⟨rfl, ?_, fun other ne => ?_, title⟩
    · simp only [documentShown, Documents.updated, getDocument_insert]
      rw [← kept] at visible
      simp [Option.filter, Documents.DocumentRow.save, visible, Message.shown, Documents.DocumentRow.payload]
    · simp only [documentShown, Documents.updated, getDocument_insert, if_neg fun eq => ne (Eq.symm eq)]
  · apply titled_insert titled title
    intro ver member
    rcases List.mem_append.mp member with old | new
    · exact (titled id row held).2 ver old
    · rw [List.mem_singleton.mp new]
      exact title

theorem document_perform (titled : Titled rows) {op : Documents.Operation} (h : op.perform rows = some (e, rows')) :
    (∃ id, Tells (documentShown rows) (documentShown rows') .document (.document e) id) ∧ Titled rows' := by
  cases op with
  | create data id versionId now =>
    simp only [Documents.Operation.perform] at h
    split at h
    next => cases h
    next accepted =>
      cases h
      have title : data.title ≠ "" := by
        intro empty
        rw [empty] at accepted
        exact accepted rfl
      refine ⟨⟨id, rfl, ?_, fun other ne => ?_, title⟩, titled_insert titled title ?_⟩
      · simp only [documentShown, getDocument_insert]
        rfl
      · simp only [documentShown, getDocument_insert, if_neg fun eq => ne (Eq.symm eq)]
      · intro ver member
        rw [List.mem_singleton.mp member]
        exact title
  | update id data versionId now =>
    simp only [Documents.Operation.perform] at h
    split at h
    next => cases h
    next accepted =>
      obtain ⟨row, got, both⟩ := Option.map_eq_some_iff.mp h
      have title : (data.apply row.document).title ≠ "" := validTitle_ne accepted
      obtain ⟨tells, titled'⟩ := saved_tells titled got title rfl versionId now
      rw [both] at tells titled'
      exact ⟨⟨id, tells⟩, titled'⟩
  | patch id data versionId now =>
    simp only [Documents.Operation.perform] at h
    split at h
    next => cases h
    next accepted =>
      obtain ⟨row, got, both⟩ := Option.map_eq_some_iff.mp h
      have title : (data.apply row.document).title ≠ "" := by
        simp only [Documents.DocumentPatch.apply]
        cases set : data.title with
        | none => exact (titled id row (getDocument_some got).1).1
        | some title =>
          rw [set] at accepted
          rintro rfl
          exact accepted rfl
      obtain ⟨tells, titled'⟩ := saved_tells titled got title rfl versionId now
      rw [both] at tells titled'
      exact ⟨⟨id, tells⟩, titled'⟩
  | restoreVersion id versionId newVersionId now =>
    obtain ⟨row, got, h⟩ := Option.bind_eq_some_iff.mp h
    obtain ⟨ver, found, both⟩ := Option.bind_eq_some_iff.mp h
    have title : (row.document.restore ver).title ≠ "" :=
      (titled id row (getDocument_some got).1).2 ver (List.mem_of_find?_eq_some found)
    obtain ⟨tells, titled'⟩ := saved_tells titled got title rfl newVersionId now
    rw [Option.some.inj both] at tells titled'
    exact ⟨⟨id, tells⟩, titled'⟩
  | delete id now =>
    obtain ⟨row, got, both⟩ := Option.map_eq_some_iff.mp h
    cases both
    obtain ⟨title, versions⟩ := titled id row (getDocument_some got).1
    refine ⟨⟨id, rfl, ?_, fun other ne => ?_, trivial⟩, titled_insert titled title versions⟩
    · simp only [documentShown, getDocument_insert]
      rfl
    · simp only [documentShown, getDocument_insert, if_neg fun eq => ne (Eq.symm eq)]

end

section

variable {files files' : FileTable} {e : FileEvent} {id : Uuid}

theorem fileShown_listed {file : FileMetadata} (held : files[id]? = some file) (listed : file.isTrashed = false) :
    fileShown files id = some (.file file.name) := by
  rw [fileShown, held]
  simp [Option.filter, listed]

theorem fileShown_hidden {file : FileMetadata} (held : files[id]? = some file) (hidden : file.isTrashed = true) :
    fileShown files id = none := by
  rw [fileShown, held]
  simp [Option.filter, hidden]

theorem fileShown_other {file : FileMetadata} {other : Uuid} (ne : other ≠ file.id) :
    fileShown (files.insert file.id file) other = fileShown files other := by
  rw [fileShown, fileShown, Std.ExtTreeMap.getElem?_insert, if_neg (by simpa using fun eq => ne (Eq.symm eq))]

theorem named_insert {file : FileMetadata} (named : Named files) (name : file.name ≠ "") : Named (files.insert id file) := by
  intro other found held
  rw [Std.ExtTreeMap.getElem?_insert] at held
  split at held
  next =>
    cases held
    exact name
  next => exact named other found held

/-- A listed row with a name is shown by the event that carries it. -/
theorem metadata_tells {type : Files.FileEventType} {file : FileMetadata} (indexes : actionOf type = some .indexFile)
    (name : file.name ≠ "") (listed : file.isTrashed = false) (published : Nat) :
    Tells (fileShown files) (fileShown (files.insert file.id file)) .file
      (.file (Files.metadataEvent type file published)) file.id := by
  refine ⟨?_, ?_, fun other ne => fileShown_other ne, fun _ => name⟩
  · simp only [Message.object, Files.metadataEvent, indexes]
    rfl
  · rw [fileShown_listed Std.ExtTreeMap.getElem?_insert_self listed]
    simp only [Message.shown, Files.metadataEvent, indexes]
    rfl

theorem upload_name {form : Files.UploadForm} {maxUploadBytes now : Nat} {file : FileMetadata}
    (h : form.file maxUploadBytes id now = .ok file) : file.name = form.fileName.getD "unnamed" := by
  simp only [Files.UploadForm.file] at h
  split at h
  next => cases h
  next =>
    split at h
    next => cases h
    next =>
      split at h
      next => cases h
      next =>
        cases h
        rfl

/-- An operation on files tells of its file, or is a move, which changes nothing that is shown. -/
theorem file_perform (keyed : Keyed files) (named : Named files) {op : Files.Operation} (plain : Plain files op)
    (h : op.perform files = some (e, files')) :
    ((∃ id, Tells (fileShown files) (fileShown files') .file (.file e) id) ∨
        Message.object (.file e) = none ∧ Message.Proper (.file e) ∧ ∀ id, fileShown files' id = fileShown files id) ∧
      Named files' := by
  cases op with
  | upload form maxUploadBytes id now published =>
    simp only [Files.Operation.perform] at h
    split at h
    next => cases h
    next file ok =>
      cases h
      obtain ⟨own, listed⟩ := uploaded_file ok
      have name : file.name ≠ "" := by
        rw [upload_name ok]
        cases given : form.fileName with
        | none => decide
        | some name =>
          rintro rfl
          exact plain given
      subst own
      exact ⟨Or.inl ⟨file.id, metadata_tells rfl name listed published⟩, named_insert named name⟩
  | rename id name now published =>
    simp only [Files.Operation.perform] at h
    split at h
    next => cases h
    next nonempty =>
      obtain ⟨⟨file, _⟩, changed, both⟩ := Option.map_eq_some_iff.mp h
      obtain ⟨old, held, rfl, rfl, rfl⟩ := updateRow_some keyed changed
      cases both
      have nonblank : ((Files.Change.rename (Files.trim name)).apply now old).name ≠ "" := by
        intro empty
        rw [show Files.trim name = "" from empty] at nonempty
        exact nonempty rfl
      have listed : ((Files.Change.rename (Files.trim name)).apply now old).isTrashed = false := plain old held
      exact ⟨Or.inl ⟨old.id, metadata_tells rfl nonblank listed published⟩, named_insert named nonblank⟩
  | move id folderId now published =>
    obtain ⟨⟨file, _⟩, changed, both⟩ := Option.map_eq_some_iff.mp h
    obtain ⟨old, held, _, rfl, rfl⟩ := updateRow_some keyed changed
    cases both
    refine ⟨Or.inr ⟨rfl, fun indexed => (by cases indexed), fun other => ?_⟩, named_insert named (named old.id old held)⟩
    by_cases own : other = old.id
    · subst own
      simp only [fileShown, Std.ExtTreeMap.getElem?_insert_self, held]
      cases hidden : old.isTrashed <;> simp [Option.filter, Files.Change.apply, hidden]
    · exact @fileShown_other _ ((Files.Change.move folderId).apply now old) _ own
  | trash id now published =>
    obtain ⟨⟨file, _⟩, changed, both⟩ := Option.map_eq_some_iff.mp h
    obtain ⟨old, held, _, rfl, rfl⟩ := updateRow_some keyed changed
    cases both
    refine ⟨Or.inl ⟨old.id, rfl, ?_, fun other ne => ?_, fun indexed => (by cases indexed)⟩, named_insert named (named old.id old held)⟩
    · exact (fileShown_hidden Std.ExtTreeMap.getElem?_insert_self rfl).symm
    · exact @fileShown_other _ (Files.Change.trash.apply now old) _ ne
  | restore id now published =>
    obtain ⟨⟨file, _⟩, changed, both⟩ := Option.map_eq_some_iff.mp h
    obtain ⟨old, held, _, rfl, rfl⟩ := updateRow_some keyed changed
    cases both
    have name : (Files.Change.restore.apply now old).name ≠ "" := named old.id old held
    exact ⟨Or.inl ⟨old.id, metadata_tells rfl name rfl published⟩, named_insert named name⟩
  | delete id published =>
    obtain ⟨file, held, both⟩ := Option.map_eq_some_iff.mp h
    cases both
    have own := keyed id file held
    subst own
    refine ⟨Or.inl ⟨file.id, rfl, ?_, fun other ne => ?_, fun indexed => (by cases indexed)⟩, fun other found kept => ?_⟩
    · simp only [fileShown, Std.ExtTreeMap.getElem?_erase_self]
      rfl
    · rw [fileShown, fileShown, Std.ExtTreeMap.getElem?_erase, if_neg (by simpa using fun eq => ne (Eq.symm eq))]
    · rw [Std.ExtTreeMap.getElem?_erase] at kept
      split at kept
      next => cases kept
      next => exact named other found kept

end

end OtterWorks.Search
