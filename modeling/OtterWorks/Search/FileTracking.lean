import OtterWorks.Search.Indexer
import Mathlib.Data.List.Induction

namespace OtterWorks.Search

open Files

/-- The files index after the published events were delivered once and in order. -/
def incremental (events : List FileEvent) : KeyMap Uuid FileEntry :=
  (events.foldl (fun ix event => ix.processMessage (.file event)) Index.empty).files

/-- The last event of a file that is not a move. -/
def lastEvent (events : List FileEvent) (id : Uuid) : Option FileEvent :=
  (events.filter fun e => e.fileId = id ∧ e.eventType ≠ .moved).getLast?

/-- The last event of a file. -/
def latestEvent (events : List FileEvent) (id : Uuid) : Option FileEvent :=
  (events.filter fun e => e.fileId = id).getLast?

/-- An entry but for its folder and its times. -/
def FileEntry.contents (e : FileEntry) : Uuid × String × String × Uuid × List String × Nat :=
  (e.id, e.name, e.mimeType, e.ownerId, e.tags, e.size)

/-- An entry with its times brought to one form. -/
def FileEntry.atInstants (e : FileEntry) : FileEntry :=
  { e with createdAt := .offset e.createdAt.instant, updatedAt := .offset e.updatedAt.instant }

def Withdraws (e : FileEvent) : Prop := e.eventType = .trashed ∨ e.eventType = .deleted

theorem withdraws_iff {e : FileEvent} : Withdraws e ↔ actionOf e.eventType = some .delete := by
  simp only [Withdraws]
  cases e.eventType <;> simp [actionOf]

/-- The row still is as an event with metadata has it, and both its times are the event's. -/
structure UpToDate (e : FileEvent) (file : FileMetadata) : Prop where
  named : e.name ≠ some ""
  listed : file.isTrashed = false
  folder : file.folderId = e.folderId
  created : file.createdAt = e.timestamp.instant
  updated : file.updatedAt = e.timestamp.instant

/-- What an event with metadata says of its row, and a move does not change. -/
structure Describes (e : FileEvent) (file : FileMetadata) : Prop where
  id : file.id = e.fileId
  name : e.name = some file.name
  mimeType : e.mimeType = some file.mimeType
  owner : e.ownerId = file.ownerId
  size : e.sizeBytes = some file.sizeBytes
  stamped : e.timestamp = .offset e.timestamp.instant

/-- How the last event of a file stands to its entry and its row. -/
inductive Tracks : Option FileEvent → Option FileEntry → Option FileMetadata → Prop
  | unknown : Tracks none none none
  | deleted (e : FileEvent) (last : e.eventType = .deleted) : Tracks (some e) none none
  | trashed (e : FileEvent) (file : FileMetadata) (last : e.eventType = .trashed) (hidden : file.isTrashed = true) :
      Tracks (some e) none (some file)
  | nameless (e : FileEvent) (entry : Option FileEntry) (file : FileMetadata) (last : ¬ Withdraws e)
      (empty : file.name = "") (described : Describes e file) (listed : file.isTrashed = false)
      (named : ∀ f ∈ entry, f.name ≠ "") : Tracks (some e) entry (some file)
  | indexed (e : FileEvent) (file : FileMetadata) (last : ¬ Withdraws e) (named : file.name ≠ "")
      (described : Describes e file) : Tracks (some e) (some (filePayload e)) (some file)

section

variable {last : Option FileEvent} {entry : Option FileEntry} {row : Option FileMetadata} {e : FileEvent}
  {file : FileMetadata}

/-- The entry a reindex makes of a row. -/
def recordOf (row : Option FileMetadata) : Option FileEntry := (row.filter fun file => !file.isTrashed).map fileRecord

theorem recordOf_listed (listed : file.isTrashed = false) : recordOf (some file) = some (fileRecord file) := by
  simp [recordOf, Option.filter, listed]

theorem recordOf_trashed (hidden : file.isTrashed = true) : recordOf (some file) = none := by
  simp [recordOf, Option.filter, hidden]

theorem recordOf_some {r : FileEntry} (h : recordOf (some file) = some r) : file.isTrashed = false ∧ r = fileRecord file := by
  cases hidden : file.isTrashed with
  | true =>
    rw [recordOf_trashed hidden] at h
    cases h
  | false =>
    rw [recordOf_listed hidden] at h
    exact ⟨rfl, (Option.some.inj h).symm⟩

theorem Tracks.same_iff (h : Tracks last entry row) : entry = recordOf row ↔ ∀ e ∈ last, Withdraws e := by
  cases h with
  | unknown => simp [recordOf]
  | deleted e last => simp [recordOf, Withdraws, last]
  | trashed e file last hidden => simp [recordOf_trashed hidden, Withdraws, last]
  | nameless e entry file last empty described listed named =>
    refine iff_of_false ?_ fun all => last (all e rfl)
    intro same
    rw [recordOf_listed listed] at same
    exact named _ same empty
  | indexed e file last named described =>
    refine iff_of_false ?_ fun all => last (all e rfl)
    intro same
    obtain ⟨_, recorded⟩ := recordOf_some same.symm
    -- the one ends in the offset, the other in Z
    have times : e.timestamp = .zulu file.createdAt := congrArg FileEntry.createdAt recorded
    rw [described.stamped] at times
    cases times

/-- An entry agrees with its record but for the form of its times when the row is as the event has it. -/
theorem Describes.near_iff (d : Describes e file) (named : file.name ≠ "") :
    some (filePayload e).atInstants = (recordOf (some file)).map FileEntry.atInstants ↔ UpToDate e file := by
  constructor
  · intro same
    obtain ⟨r, recorded, near⟩ := Option.map_eq_some_iff.mp same.symm
    obtain ⟨listed, rfl⟩ := recordOf_some recorded
    have created := congrArg (fun f => f.createdAt.instant) near
    have updated := congrArg (fun f => f.updatedAt.instant) near
    have folder := congrArg FileEntry.folderId near
    refine ⟨?_, listed, folder, created, updated⟩
    rw [d.name]
    exact fun empty => named (Option.some.inj empty)
  · intro fresh
    rw [recordOf_listed fresh.listed]
    simp only [Option.map_some, FileEntry.atInstants, filePayload, fileRecord, d.id, d.name, d.mimeType, d.owner,
      d.size, fresh.folder, fresh.created, fresh.updated, TimeText.instant, Option.getD_some]

theorem Tracks.near_iff (h : Tracks last entry row) :
    entry.map FileEntry.atInstants = (recordOf row).map FileEntry.atInstants ↔
      ∀ e ∈ last, Withdraws e ∨ ∃ file ∈ row, UpToDate e file := by
  cases h with
  | unknown => simp [recordOf]
  | deleted e last => simp [recordOf, Withdraws, last]
  | trashed e file last hidden => simp [recordOf_trashed hidden, Withdraws, last]
  | nameless e entry file last empty described listed named =>
    rw [recordOf_listed listed]
    apply iff_of_false
    · intro same
      obtain ⟨f, held, near⟩ := Option.map_eq_some_iff.mp same
      have name : f.name = file.name := congrArg FileEntry.name near
      exact named f held (name.trans empty)
    · intro all
      rcases all e rfl with gone | ⟨_, held, fresh⟩
      · exact last gone
      · apply fresh.named
        rw [described.name, empty]
  | indexed e file last named described =>
    rw [Option.map_some, described.near_iff named]
    simp [last]

/-- A file with a name that was not renamed in the trash has entries in both indexes or in none. -/
theorem Tracks.both_or_none (h : Tracks last entry row)
    (usual : ∀ file ∈ row, file.name ≠ "" ∧ (file.isTrashed = true → ∀ e ∈ last, e.eventType = .trashed)) :
    (entry = none ∧ recordOf row = none) ∨
      ∃ e file, last = some e ∧ row = some file ∧ ¬ Withdraws e ∧ Describes e file ∧ entry = some (filePayload e) ∧
        recordOf row = some (fileRecord file) := by
  cases h with
  | unknown => exact Or.inl ⟨rfl, rfl⟩
  | deleted => exact Or.inl ⟨rfl, rfl⟩
  | trashed e file last hidden => exact Or.inl ⟨rfl, recordOf_trashed hidden⟩
  | nameless e entry file last empty described listed named => exact absurd empty (usual file rfl).1
  | indexed e file last named described =>
    have listed : file.isTrashed = false := by
      cases hidden : file.isTrashed with
      | true => exact absurd (Or.inl ((usual file rfl).2 hidden e rfl)) last
      | false => rfl
    exact Or.inr ⟨e, file, rfl, rfl, last, described, rfl, recordOf_listed listed⟩

theorem Describes.metadata (type : FileEventType) (file : FileMetadata) (published : Nat) :
    Describes (metadataEvent type file published) file :=
  ⟨rfl, rfl, rfl, rfl, rfl, rfl⟩

theorem Tracks.named (h : Tracks last entry row) : ∀ f ∈ entry, f.name ≠ "" := by
  cases h with
  | unknown => simp
  | deleted => simp
  | trashed => simp
  | nameless e entry file last empty described listed named => exact named
  | indexed e file last named described =>
    intro f held
    rw [← Option.some.inj held, filePayload, described.name]
    exact named

end

/-- Every row is under its own id. -/
def Keyed (files : FileTable) : Prop := ∀ (id : Uuid) (file : FileMetadata), files[id]? = some file → file.id = id

theorem mem_listFiles {scan : FileTable → List FileMetadata} {files : FileTable} {file : FileMetadata}
    (complete : (scan files).Perm (files.toList.map Prod.snd)) (keyed : Keyed files) :
    file ∈ listFiles scan files ↔ files[file.id]? = some file ∧ file.isTrashed = false := by
  rw [listFiles, List.mem_filter, complete.mem_iff, List.mem_map]
  constructor
  · rintro ⟨⟨row, member, rfl⟩, visible⟩
    have held : files[row.1]? = some row.2 := Std.ExtTreeMap.mem_toList_iff_getElem?_eq_some.mp member
    refine ⟨?_, by simpa using visible⟩
    rwa [keyed _ _ held]
  · rintro ⟨held, visible⟩
    exact ⟨⟨(file.id, file), Std.ExtTreeMap.mem_toList_iff_getElem?_eq_some.mpr held, rfl⟩, by simp [visible]⟩

/-- What an accepted operation publishes and does to the rows. -/
inductive Performed (files : FileTable) : FileEvent → FileTable → Prop
  | indexed (type : FileEventType) (file : FileMetadata) (published : Nat)
      (indexes : actionOf type = some .indexFile) (listed : file.name = "" → file.isTrashed = false) :
      Performed files (metadataEvent type file published) (files.insert file.id file)
  | trashed (file : FileMetadata) (published : Nat) (hidden : file.isTrashed = true) :
      Performed files (fileTrashed file published) (files.insert file.id file)
  | deleted (file : FileMetadata) (published : Nat) : Performed files (fileDeleted file published) (files.erase file.id)
  | moved (old : FileMetadata) (folderId : Option Uuid) (now published : Nat) (held : files[old.id]? = some old) :
      Performed files (fileMoved ((Change.move folderId).apply now old) published)
        (files.insert old.id ((Change.move folderId).apply now old))

section

variable {files files' : FileTable} {e : FileEvent} {id : Uuid}

theorem updateRow_some {now : Nat} {change : Change} {file : FileMetadata} (keyed : Keyed files)
    (h : updateRow files id now change = some (file, files')) :
    ∃ old, files[old.id]? = some old ∧ old.id = id ∧ file = change.apply now old ∧ files' = files.insert old.id file := by
  obtain ⟨old, held, both⟩ := Option.map_eq_some_iff.mp h
  cases both
  have own := keyed id old held
  subst own
  exact ⟨old, held, rfl, rfl, rfl⟩

theorem uploaded_file {form : UploadForm} {maxUploadBytes now : Nat} {file : FileMetadata}
    (h : form.file maxUploadBytes id now = .ok file) : file.id = id ∧ file.isTrashed = false := by
  simp only [UploadForm.file] at h
  split at h
  next => cases h
  next =>
    split at h
    next => cases h
    next =>
      split at h
      next => cases h
      next =>
        cases h
        exact ⟨rfl, rfl⟩

theorem perform_cases (keyed : Keyed files) {op : Operation} (h : op.perform files = some (e, files')) :
    Performed files e files' := by
  cases op with
  | upload form maxUploadBytes id now published =>
    simp only [Operation.perform] at h
    split at h
    next => cases h
    next file ok =>
      obtain ⟨own, listed⟩ := uploaded_file ok
      cases h
      rw [← own]
      exact .indexed .uploaded file published rfl fun _ => listed
  | rename id name now published =>
    simp only [Operation.perform] at h
    split at h
    next => cases h
    next named =>
      obtain ⟨⟨file, rows⟩, updated, both⟩ := Option.map_eq_some_iff.mp h
      obtain ⟨old, held, _, rfl, rfl⟩ := updateRow_some keyed updated
      cases both
      refine .indexed .updated _ published rfl fun empty => absurd ?_ named
      rw [show trim name = "" from empty]
      rfl
  | move id folderId now published =>
    obtain ⟨⟨file, rows⟩, updated, both⟩ := Option.map_eq_some_iff.mp h
    obtain ⟨old, held, _, rfl, rfl⟩ := updateRow_some keyed updated
    cases both
    exact .moved old folderId now published held
  | trash id now published =>
    obtain ⟨⟨file, rows⟩, updated, both⟩ := Option.map_eq_some_iff.mp h
    obtain ⟨old, held, _, rfl, rfl⟩ := updateRow_some keyed updated
    cases both
    exact .trashed _ published rfl
  | restore id now published =>
    obtain ⟨⟨file, rows⟩, updated, both⟩ := Option.map_eq_some_iff.mp h
    obtain ⟨old, held, _, rfl, rfl⟩ := updateRow_some keyed updated
    cases both
    exact .indexed .restored _ published rfl fun _ => rfl
  | delete id published =>
    obtain ⟨file, held, both⟩ := Option.map_eq_some_iff.mp h
    cases both
    have own := keyed id file held
    subst own
    exact .deleted file published

theorem Performed.keyed (h : Performed files e files') (keyed : Keyed files) : Keyed files' := by
  have inserted (file : FileMetadata) : Keyed (files.insert file.id file) := by
    intro id found held
    rw [Std.ExtTreeMap.getElem?_insert] at held
    split at held
    next same =>
      cases held
      exact Std.LawfulEqOrd.eq_of_compare same
    next => exact keyed id found held
  cases h with
  | indexed type file => exact inserted file
  | trashed file => exact inserted file
  | moved old folderId now => exact inserted ((Change.move folderId).apply now old)
  | deleted file =>
    intro id found held
    rw [Std.ExtTreeMap.getElem?_erase] at held
    split at held
    next => cases held
    next => exact keyed id found held

/-- Rows and index stay as they are under every other id. -/
theorem Performed.other_row (h : Performed files e files') (other : e.fileId ≠ id) : files'[id]? = files[id]? := by
  cases h with
  | indexed type file => simp [Std.ExtTreeMap.getElem?_insert, show file.id ≠ id from other]
  | trashed file => simp [Std.ExtTreeMap.getElem?_insert, show file.id ≠ id from other]
  | deleted file => simp [Std.ExtTreeMap.getElem?_erase, show file.id ≠ id from other]
  | moved old => simp [Std.ExtTreeMap.getElem?_insert, show old.id ≠ id from other]

theorem lastEvent_snoc (events : List FileEvent) (e : FileEvent) (id : Uuid) :
    lastEvent (events ++ [e]) id =
      if e.fileId = id ∧ e.eventType ≠ .moved then some e else lastEvent events id := by
  by_cases own : e.fileId = id ∧ e.eventType ≠ .moved
  · simp [lastEvent, own]
  · rw [if_neg own]
    simp only [lastEvent, List.filter_append]
    simp [own]

theorem latestEvent_snoc (events : List FileEvent) (e : FileEvent) (id : Uuid) :
    latestEvent (events ++ [e]) id = if e.fileId = id then some e else latestEvent events id := by
  by_cases own : e.fileId = id
  · simp [latestEvent, own]
  · simp [latestEvent, own]

theorem lastEvent_of_unmoved {events : List FileEvent} {id : Uuid}
    (unmoved : ∀ e ∈ latestEvent events id, e.eventType ≠ .moved) : lastEvent events id = latestEvent events id := by
  induction events using List.reverseRecOn with
  | nil => rfl
  | append_singleton events e ih =>
    rw [latestEvent_snoc] at unmoved ⊢
    rw [lastEvent_snoc]
    by_cases own : e.fileId = id
    · rw [if_pos own] at unmoved
      rw [if_pos own, if_pos ⟨own, unmoved e rfl⟩]
    · rw [if_neg own] at unmoved
      rw [if_neg own, if_neg fun both => own both.1, ih unmoved]

theorem incremental_snoc (events : List FileEvent) (e : FileEvent) :
    ∃ ix : Index, incremental events = ix.files ∧ incremental (events ++ [e]) = (ix.processMessage (.file e)).files := by
  refine ⟨_, rfl, ?_⟩
  rw [incremental, List.foldl_append]
  rfl

/-- What the delivery of one event does to the entry of a file. -/
theorem processMessage_entry (ix : Index) (e : FileEvent) (id : Uuid) :
    (ix.processMessage (.file e)).files[id]? =
      if e.fileId ≠ id then ix.files[id]?
      else
        match actionOf e.eventType with
        | none => ix.files[id]?
        | some .delete => none
        | some .indexFile => if (e.name.getD "").isEmpty then ix.files[id]? else some (filePayload e) := by
  simp only [Index.processMessage, normalizeEvent]
  cases actionOf e.eventType with
  | none => simp [Index.processEvent]
  | some action =>
    cases action with
    | delete =>
      simp only [Index.processEvent, Index.remove, Std.ExtTreeMap.getElem?_erase]
      by_cases own : e.fileId = id
      · simp [own]
      · simp [own]
    | indexFile =>
      simp only [Index.processEvent, Index.indexFile]
      by_cases empty : (filePayload e).name.isEmpty
      · have blank : (e.name.getD "").isEmpty := empty
        simp [empty, blank]
      · have named : ¬ (e.name.getD "").isEmpty := empty
        rw [if_neg empty, if_neg named]
        simp only [Std.ExtTreeMap.getElem?_insert]
        by_cases own : e.fileId = id
        · simp [own, filePayload]
        · simp [own, filePayload]

/-- A move changes nothing that the last event says. -/
theorem Tracks.moved {last : Option FileEvent} {entry : Option FileEntry} {old : FileMetadata} {folderId : Option Uuid}
    {now : Nat} (h : Tracks last entry (some old)) :
    Tracks last entry (some ((Change.move folderId).apply now old)) := by
  have still {e : FileEvent} (d : Describes e old) : Describes e ((Change.move folderId).apply now old) :=
    ⟨d.id, d.name, d.mimeType, d.owner, d.size, d.stamped⟩
  cases h with
  | trashed e _ last hidden => exact .trashed e _ last hidden
  | nameless e entry _ last empty described listed named =>
    exact .nameless e entry _ last empty (still described) listed named
  | indexed e _ last named described => exact .indexed e _ last named (still described)

theorem Tracks.metadata {type : FileEventType} {file : FileMetadata} {published : Nat} {entry : Option FileEntry}
    (indexes : actionOf type = some .indexFile) (listed : file.name = "" → file.isTrashed = false)
    (named : ∀ f ∈ entry, f.name ≠ "") :
    Tracks (some (metadataEvent type file published))
      (if file.name.isEmpty then entry else some (filePayload (metadataEvent type file published))) (some file) := by
  have stays : ¬ Withdraws (metadataEvent type file published) := by
    rw [withdraws_iff, show actionOf (metadataEvent type file published).eventType = _ from indexes]
    nofun
  by_cases empty : file.name = ""
  · rw [if_pos (by simp [empty])]
    exact .nameless _ entry file stays empty (.metadata type file published) (listed empty) named
  · rw [if_neg (by simpa using empty)]
    exact .indexed _ file stays empty (.metadata type file published)

/-- The rows and the index so far stand as the last events say. -/
structure Followed (h : History) : Prop where
  keyed : Keyed h.files
  tracks : ∀ id : Uuid, Tracks (lastEvent h.events id) (incremental h.events)[id]? h.files[id]?
  placed : ∀ (id : Uuid) (file : FileMetadata), h.files[id]? = some file → ∀ e ∈ latestEvent h.events id,
    ¬ Withdraws e → e.folderId = file.folderId

theorem Performed.placed {events : List FileEvent} (p : Performed files e files') {file : FileMetadata}
    (before : e.fileId ≠ id → files[id]? = some file → ∀ e ∈ latestEvent events id, ¬ Withdraws e →
      e.folderId = file.folderId)
    (held : files'[id]? = some file) :
    ∀ l ∈ latestEvent (events ++ [e]) id, ¬ Withdraws l → l.folderId = file.folderId := by
  rw [latestEvent_snoc]
  by_cases own : e.fileId = id
  · subst own
    rw [if_pos rfl]
    intro l last keeps
    cases Option.some.inj last
    cases p with
    | indexed type row published =>
      change (files.insert row.id row)[row.id]? = some file at held
      rw [Std.ExtTreeMap.getElem?_insert_self] at held
      cases held
      rfl
    | trashed row published => exact absurd (Or.inl rfl) keeps
    | deleted row published => exact absurd (Or.inr rfl) keeps
    | moved old folderId now published =>
      change (files.insert old.id ((Change.move folderId).apply now old))[old.id]? = some file at held
      rw [Std.ExtTreeMap.getElem?_insert_self] at held
      cases held
      rfl
  · rw [if_neg own]
    rw [p.other_row own] at held
    exact before own held

theorem Performed.followed {events : List FileEvent} (p : Performed files e files') (h : Followed ⟨files, events⟩) :
    Followed ⟨files', events ++ [e]⟩ := by
  refine ⟨p.keyed h.keyed, fun id => ?_, fun id file held => p.placed (fun _ old => h.placed id file old) held⟩
  have before := h.tracks id
  obtain ⟨ix, soFar, now⟩ := incremental_snoc events e
  simp only [soFar] at before
  simp only [now, processMessage_entry, lastEvent_snoc]
  by_cases other : e.fileId ≠ id
  · rw [if_neg fun own => other own.1, if_pos other, p.other_row other]
    exact before
  · have own : e.fileId = id := not_not.mp other
    subst own
    rw [if_neg other]
    cases p with
    | indexed type file published indexes listed =>
      have stays : type ≠ .moved := by
        rintro rfl
        cases indexes
      have row : (files.insert file.id file)[(metadataEvent type file published).fileId]? = some file :=
        Std.ExtTreeMap.getElem?_insert_self
      rw [if_pos ⟨rfl, stays⟩, row, show actionOf (metadataEvent type file published).eventType = _ from indexes]
      exact .metadata indexes listed before.named
    | trashed file published hidden =>
      have row : (files.insert file.id file)[(fileTrashed file published).fileId]? = some file :=
        Std.ExtTreeMap.getElem?_insert_self
      rw [if_pos ⟨rfl, nofun⟩, row]
      exact .trashed _ file rfl hidden
    | deleted file published =>
      have row : (files.erase file.id)[(fileDeleted file published).fileId]? = none :=
        Std.ExtTreeMap.getElem?_erase_self
      rw [if_pos ⟨rfl, nofun⟩, row]
      exact .deleted _ rfl
    | moved old folderId moment published held =>
      have row : (files.insert old.id ((Change.move folderId).apply moment old))[old.id]? =
          some ((Change.move folderId).apply moment old) :=
        Std.ExtTreeMap.getElem?_insert_self
      rw [if_neg fun own => own.2 rfl]
      change Tracks (lastEvent events old.id) ix.files[old.id]? _
      change Tracks (lastEvent events old.id) ix.files[old.id]? files[old.id]? at before
      rw [held] at before
      have after := @Tracks.moved _ _ _ folderId moment before
      rw [← row] at after
      exact after

end

theorem followed_run (ops : List Operation) : Followed (History.run ops) := by
  induction ops using List.reverseRecOn with
  | nil =>
    refine ⟨fun id file held => ?_, fun id => ?_, fun id file held => ?_⟩
    · simp [History.run, History.start] at held
    · simpa [History.run, History.start, lastEvent, incremental, Index.empty] using Tracks.unknown
    · simp [History.run, History.start] at held
  | append_singleton ops op ih =>
    have step : History.run (ops ++ [op]) = (History.run ops).step op := by simp [History.run]
    rw [step, History.step]
    cases done : op.perform (History.run ops).files with
    | none => exact ih
    | some both => exact (perform_cases ih.keyed done).followed ih

def photo : UploadForm := ⟨some 7, none, some "photo.jpg", some "image/jpeg", 3, none⟩

section

variable {scan : FileTable → List FileMetadata} {files : FileTable}

theorem foldl_upsertAll (batches : List (List FileEntry)) (m : KeyMap Uuid FileEntry) :
    batches.foldl (fun m batch => m.upsertAll (batch.map fun e => (e.id, e))) m =
      m.upsertAll (batches.flatten.map fun e => (e.id, e)) := by
  induction batches generalizing m with
  | nil => rfl
  | cons batch batches ih =>
    rw [List.foldl_cons, ih, List.flatten_cons, List.map_append]
    simp [KeyMap.upsertAll, List.foldl_append]

theorem reindexFiles_eq (scan : FileTable → List FileMetadata) (files : FileTable) :
    reindexFiles scan files = KeyMap.upsertAll ∅ ((listFiles scan files).map fun file => (file.id, fileRecord file)) := by
  have all : fetchAllFiles scan files 0 = (listFiles scan files).map fileRecord := by
    rw [fetchAllFiles, pagesFrom_eq (by decide)]
    simp
  rw [reindexFiles, refill, foldl_upsertAll, slices_flatten (by decide), all, List.map_map]
  rfl

/-- A reindex builds the records of the rows that are not trashed, whatever the order of the scan. -/
theorem reindexFiles_entry (complete : (scan files).Perm (files.toList.map Prod.snd)) (keyed : Keyed files) (id : Uuid) :
    (reindexFiles scan files)[id]? = recordOf files[id]? := by
  have distinct : (((listFiles scan files).map fun file => (file.id, fileRecord file)).map Prod.fst).Nodup := by
    have keys : ((files.toList.map Prod.snd).map FileMetadata.id).Nodup := by
      have same : (files.toList.map Prod.snd).map FileMetadata.id = files.toList.map Prod.fst := by
        rw [List.map_map]
        apply List.map_congr_left
        intro row member
        exact keyed _ _ (Std.ExtTreeMap.mem_toList_iff_getElem?_eq_some.mp member)
      rw [same, Std.ExtTreeMap.map_fst_toList_eq_keys]
      exact Std.ExtTreeMap.nodup_keys
    have scanned := (complete.map FileMetadata.id).nodup_iff.mpr keys
    rw [List.map_map]
    exact (List.filter_sublist.map FileMetadata.id).nodup scanned
  rw [reindexFiles_eq]
  by_cases there : id ∈ ((listFiles scan files).map fun file => (file.id, fileRecord file)).map Prod.fst
  · rw [List.map_map] at there
    obtain ⟨file, member, own⟩ := List.mem_map.mp there
    have own : file.id = id := own
    subst own
    obtain ⟨held, visible⟩ := (mem_listFiles complete keyed).mp member
    rw [KeyMap.upsertAll_of_mem distinct (List.mem_map.mpr ⟨file, member, rfl⟩), held, recordOf_listed visible]
  · rw [KeyMap.upsertAll_of_not_mem there]
    cases held : files[id]? with
    | none => simp [recordOf]
    | some file =>
      cases hidden : file.isTrashed with
      | true => simp [recordOf_trashed hidden]
      | false =>
        have own := keyed id file held
        subst own
        rw [List.map_map] at there
        exact absurd (List.mem_map.mpr ⟨file, (mem_listFiles complete keyed).mpr ⟨held, hidden⟩, rfl⟩) there

end

/-- Both indexes hold the same text in every field exactly when every file was last trashed or deleted. But for the
form of the times they also agree on a file whose row its last event still describes. -/
theorem file_index_agrees_iff (scan : FileTable → List FileMetadata)
    (complete : ∀ files, (scan files).Perm (files.toList.map Prod.snd)) (ops : List Operation) :
    (incremental (History.run ops).events = reindexFiles scan (History.run ops).files ↔
      ∀ id, ∀ e ∈ lastEvent (History.run ops).events id, Withdraws e) ∧
    ((∀ id : Uuid, (incremental (History.run ops).events)[id]?.map FileEntry.atInstants =
        (reindexFiles scan (History.run ops).files)[id]?.map FileEntry.atInstants) ↔
      ∀ id, ∀ e ∈ lastEvent (History.run ops).events id,
        Withdraws e ∨ ∃ file ∈ (History.run ops).files[id]?, UpToDate e file) := by
  have followed := followed_run ops
  have record := reindexFiles_entry (complete (History.run ops).files) followed.keyed
  constructor
  · calc
      _ ↔ ∀ id : Uuid, (incremental (History.run ops).events)[id]? =
          (reindexFiles scan (History.run ops).files)[id]? :=
        ⟨fun same id => by rw [same], Std.ExtTreeMap.ext_getElem?⟩
      _ ↔ _ := by
        apply forall_congr'
        intro id
        rw [record, (followed.tracks id).same_iff]
  · apply forall_congr'
    intro id
    rw [record, (followed.tracks id).near_iff]

/-- A file with a name that was not renamed in the trash. -/
def Usual (h : History) (id : Uuid) : Prop :=
  ∀ file ∈ h.files[id]?, file.name ≠ "" ∧ (file.isTrashed = true → ∀ e ∈ lastEvent h.events id, e.eventType = .trashed)

/-- Moves and times aside, a file has the same entry in both indexes or none in either; its folder is the same as
long as it has not been moved since its last other event. -/
theorem file_index_agrees (scan : FileTable → List FileMetadata)
    (complete : ∀ files, (scan files).Perm (files.toList.map Prod.snd)) (ops : List Operation) (id : Uuid)
    (usual : Usual (History.run ops) id) :
    (incremental (History.run ops).events)[id]?.map FileEntry.contents =
        (reindexFiles scan (History.run ops).files)[id]?.map FileEntry.contents ∧
      ((∀ e ∈ latestEvent (History.run ops).events id, e.eventType ≠ .moved) →
        (incremental (History.run ops).events)[id]?.map FileEntry.folderId =
          (reindexFiles scan (History.run ops).files)[id]?.map FileEntry.folderId) := by
  have followed := followed_run ops
  rw [reindexFiles_entry (complete (History.run ops).files) followed.keyed]
  rcases (followed.tracks id).both_or_none usual with ⟨absent, unlisted⟩ | ⟨e, file, last, row, kept, d, entry, record⟩
  · rw [absent, unlisted]
    exact ⟨rfl, fun _ => rfl⟩
  · rw [entry, record]
    constructor
    · simp only [Option.map_some, FileEntry.contents, filePayload, fileRecord, d.id, d.name, d.mimeType, d.owner,
        d.size, Option.getD_some]
    · intro unmoved
      rw [lastEvent_of_unmoved unmoved] at last
      exact congrArg some (followed.placed id file row e last kept)

theorem renamed_file_agrees :
    (incremental (History.run [.upload photo 100 1 10 11, .rename 1 " a " 20 21]).events)[1]?.map FileEntry.contents =
        (reindexFiles (fun files => files.toList.map Prod.snd)
          (History.run [.upload photo 100 1 10 11, .rename 1 " a " 20 21]).files)[1]?.map FileEntry.contents :=
  (file_index_agrees _ (fun _ => .refl _) [.upload photo 100 1 10 11, .rename 1 " a " 20 21] 1
    (by unfold Usual; decide +kernel)).1

/-- An upload and a move into folder 5, of which the index hears nothing. -/
def movedPhoto : List Operation := [.upload photo 100 1 10 11, .move 1 (some 5) 20 21]

theorem moved_file_indexed_otherwise :
    incremental (History.run movedPhoto).events ≠
      reindexFiles (fun files => files.toList.map Prod.snd) (History.run movedPhoto).files := by
  intro same
  have row := followed_run movedPhoto
  have record := @reindexFiles_entry (fun files => files.toList.map Prod.snd) _ (.refl _) row.keyed 1
  rw [← same] at record
  have folders := congrArg (Option.map FileEntry.folderId) record
  revert folders
  decide +kernel

end OtterWorks.Search
