import OtterWorks.Search.Delivery

namespace OtterWorks.Search

open Documents (DocumentEntry DocumentRow DocumentTable)
open Files (Uuid FileMetadata FileTable)

section

variable {ε ρ : Type} {s : System} {queue : List Message} {object : Uuid → Object} {key : ε → Uuid} {seen : ε → Shown} {since page size : Nat}
  {entries : List ε} {listing : List ρ} {record : ρ → ε}

/-- Entries as the first `since` events tell. -/
def TrueTo (queue : List Message) (object : Uuid → Object) (key : ε → Uuid) (seen : ε → Shown) (since : Nat) (entries : List ε) :
    Prop :=
  ∀ e ∈ entries, told queue since (object (key e)) = some (seen e)

/-- All entries the first `since` events tell of. -/
structure Snapshot (queue : List Message) (object : Uuid → Object) (key : ε → Uuid) (seen : ε → Shown) (since : Nat)
    (entries : List ε) : Prop where
  each : TrueTo queue object key seen since entries
  complete : ∀ id, (∀ e ∈ entries, key e ≠ id) → told queue since (object id) = none

/-- A listing of what there is now. -/
structure Lists (s : System) (object : Uuid → Object) (key : ε → Uuid) (seen : ε → Shown) (record : ρ → ε)
    (listing : List ρ) : Prop where
  each : ∀ r ∈ listing, s.shown (object (key (record r))) = some (seen (record r))
  complete : ∀ id, (∀ r ∈ listing, key (record r) ≠ id) → s.shown (object id) = none

/-- The pages read so far, of rows that have not changed since the first was read. -/
def Crawled (queue : List Message) (object : Uuid → Object) (record : ρ → ε) (listing : List ρ) (size since page : Nat)
    (entries : List ε) : Prop :=
  entries = (listing.take (page * size)).map record ∧
    (0 < page → ∀ id, QuietFrom Message.object queue (object id) since)

/-- The events before the first page, once a page is read. -/
def sinceOf (queue : List Message) (page since : Nat) : Nat := if page = 0 then queue.length else since

theorem Crawled.quiet (h : Crawled queue object record listing size since page entries) (id : Uuid) :
    QuietFrom Message.object queue (object id) (sinceOf queue page since) := by
  unfold sinceOf
  split
  next => exact quietFrom_length
  next later => exact h.2 (by omega) id

theorem Crawled.next (h : Crawled queue object record listing size since page entries) :
    Crawled queue object record listing size (sinceOf queue page since) (page + 1)
      (entries ++ (pageAt size listing page).map record) := by
  refine ⟨?_, fun _ id => h.quiet id⟩
  rw [h.1, ← List.map_append, pageAt, Nat.add_mul, Nat.one_mul, List.take_add]

theorem Crawled.done (h : Crawled s.queue object record listing size since page entries) (pos : 0 < size)
    (lists : Lists s object key seen record listing)
    (truth : ∀ o, s.shown o = replay Message.object Message.shown s.queue o) (empty : pageAt size listing page = []) :
    Snapshot s.queue object key seen (sinceOf s.queue page since) entries := by
  have all : entries = listing.map record := by
    have short : listing.length ≤ page * size := by
      rcases List.take_eq_nil_iff.mp empty with zero | past
      · omega
      · exact List.drop_eq_nil_iff.mp past
    rw [h.1, List.take_of_length_le short]
  have now (id : Uuid) : told s.queue (sinceOf s.queue page since) (object id) = s.shown (object id) := by
    rw [truth, told, (h.quiet id).replay_take]
  subst all
  constructor
  · intro e member
    obtain ⟨r, listed, rfl⟩ := List.mem_map.mp member
    rw [now]
    exact lists.each r listed
  · intro id absent
    rw [now]
    exact lists.complete id fun r listed => absent (record r) (List.mem_map.mpr ⟨r, listed, rfl⟩)

end

namespace Reindex

section

variable (order : DocumentTable → List (Uuid × DocumentRow)) (scan : FileTable → List FileMetadata)

def recordOfRow (row : Uuid × DocumentRow) : DocumentEntry := documentRecord row.1 row.2

/-- What a reindex has fetched is what the events before its first pages tell. -/
def Sound (s : System) (run : Reindex) : Prop :=
  match run.stage with
  | .documents page docs =>
    Crawled s.queue .document recordOfRow (listDocuments order s.documents) documentPageSize run.documentsSince page docs
  | .files page docs files =>
    Snapshot s.queue .document DocumentEntry.id shownDocument run.documentsSince docs ∧
      Crawled s.queue .file fileRecord (listFiles scan s.files) fetchPageSize run.filesSince page files
  | .dropDocuments docs files | .dropFiles docs files =>
    Snapshot s.queue .document DocumentEntry.id shownDocument run.documentsSince docs ∧
      Snapshot s.queue .file FileEntry.id shownFile run.filesSince files
  | .addDocuments batches files =>
    TrueTo s.queue .document DocumentEntry.id shownDocument run.documentsSince batches.flatten ∧
      Snapshot s.queue .file FileEntry.id shownFile run.filesSince files
  | .addFiles batches => TrueTo s.queue .file FileEntry.id shownFile run.filesSince batches.flatten
  | .finished => True

/-- It has dropped the entry of an object and will add it again. -/
def Pending (run : Reindex) (o : Object) : Prop :=
  match o, run.stage with
  | .document id, .dropFiles docs _ => ∃ e ∈ docs, e.id = id
  | .document id, .addDocuments batches _ => ∃ e ∈ batches.flatten, e.id = id
  | .file id, .addDocuments _ files => ∃ e ∈ files, e.id = id
  | .file id, .addFiles batches => ∃ e ∈ batches.flatten, e.id = id
  | _, _ => False

/-- What a call may do to the entry of an object: nothing, write what the events before the first page told, or leave
it to a later call. -/
structure Calls (s : System) (run run' : Reindex) (index : Index) : Prop where
  sound : run'.Sound order scan s
  marks : ∀ o, run'.since o = run.since o ∨ run'.since o = s.queue.length
  holds : ∀ o, run'.Holds o → run.Holds o ∨ run'.since o = s.queue.length
  effect : ∀ o, (index.shown o = s.index.shown o ∧ (run.Pending o → run'.Pending o)) ∨
    (run.Holds o ∧ index.shown o = told s.queue (run.since o) o) ∨ run'.Pending o

end

end Reindex

section

variable {β : Type} {m : KeyMap Uuid β} {key : β → Uuid} {batch : List β} {id : Uuid}

/-- A batch leaves one of its own entries under each of its keys. -/
theorem added_cases : (∃ e ∈ batch, key e = id ∧ (m.upsertAll (batch.map fun e => (key e, e)))[id]? = some e) ∨
    ((∀ e ∈ batch, key e ≠ id) ∧ (m.upsertAll (batch.map fun e => (key e, e)))[id]? = m[id]?) := by
  by_cases there : ∃ e ∈ batch, key e = id
  · left
    have listed : id ∈ (batch.map fun e => (key e, e)).map Prod.fst := by
      obtain ⟨e, member, own⟩ := there
      exact List.mem_map.mpr ⟨(key e, e), List.mem_map.mpr ⟨e, member, rfl⟩, own⟩
    cases held : (m.upsertAll (batch.map fun e => (key e, e)))[id]? with
    | some e =>
      rcases KeyMap.upsertAll_cases held with written | ⟨absent, _⟩
      · obtain ⟨_, member, same⟩ := List.mem_map.mp written
        cases same
        exact ⟨e, member, rfl, rfl⟩
      · exact absurd listed absent
    | none =>
      exfalso
      rw [KeyMap.getElem?_upsertAll, Option.or_eq_none_iff, Option.map_eq_none_iff] at held
      obtain ⟨row, member, own⟩ := List.mem_map.mp listed
      exact List.find?_eq_none.mp held.1 row (List.mem_reverse.mpr member) (by simpa using own)
  · right
    have absent : ∀ e ∈ batch, key e ≠ id := fun e member own => there ⟨e, member, own⟩
    refine ⟨absent, KeyMap.upsertAll_of_not_mem ?_⟩
    intro listed
    obtain ⟨row, member, own⟩ := List.mem_map.mp listed
    obtain ⟨e, inside, rfl⟩ := List.mem_map.mp member
    exact absent e inside own

end

section

variable {order : DocumentTable → List (Uuid × DocumentRow)} {scan : FileTable → List FileMetadata} {s : System}
  {ds fs : Nat}

theorem sinceOf_cases (queue : List Message) (page since : Nat) :
    (page = 0 ∧ sinceOf queue page since = queue.length) ∨ (0 < page ∧ sinceOf queue page since = since) := by
  unfold sinceOf
  split
  next first => exact Or.inl ⟨first, rfl⟩
  next later => exact Or.inr ⟨by omega, rfl⟩

namespace Reindex

theorem call_documents {page : Nat} {docs : List DocumentEntry}
    (crawled : Crawled s.queue .document recordOfRow (listDocuments order s.documents) documentPageSize ds page docs)
    (lists : Lists s .document DocumentEntry.id shownDocument recordOfRow (listDocuments order s.documents))
    (truth : ∀ o, s.shown o = replay Message.object Message.shown s.queue o) :
    Calls order scan s ⟨.documents page docs, ds, fs⟩ (call order scan s ⟨.documents page docs, ds, fs⟩).1
      (call order scan s ⟨.documents page docs, ds, fs⟩).2 := by
  have marked : (if page = 0 then { stage := .documents page docs, documentsSince := s.queue.length, filesSince := fs }
      else (⟨.documents page docs, ds, fs⟩ : Reindex)) = ⟨.documents page docs, sinceOf s.queue page ds, fs⟩ := by
    unfold sinceOf
    split <;> rfl
  have marks (o : Object) (stage : Stage) : (⟨stage, sinceOf s.queue page ds, fs⟩ : Reindex).since o =
      (⟨.documents page docs, ds, fs⟩ : Reindex).since o ∨
        (⟨stage, sinceOf s.queue page ds, fs⟩ : Reindex).since o = s.queue.length := by
    cases o with
    | document id =>
      rcases sinceOf_cases s.queue page ds with ⟨_, first⟩ | ⟨_, same⟩
      · exact Or.inr first
      · exact Or.inl same
    | file id => exact Or.inl rfl
  have holds (id : Uuid) (stage : Stage) : (⟨.documents page docs, ds, fs⟩ : Reindex).Holds (.document id) ∨
      (⟨stage, sinceOf s.queue page ds, fs⟩ : Reindex).since (.document id) = s.queue.length := by
    rcases sinceOf_cases s.queue page ds with ⟨_, first⟩ | ⟨later, _⟩
    · exact Or.inr first
    · exact Or.inl later
  simp only [call, marked]
  split
  next empty =>
    refine ⟨⟨crawled.done (by decide) lists truth (List.isEmpty_iff.mp empty), ?_⟩, fun o => marks o _,
      fun o held => ?_, fun o => ?_⟩
    · exact ⟨rfl, fun pos => absurd pos (by omega)⟩
    · cases o with
      | document id => exact holds id _
      | file id => exact absurd held (Nat.lt_irrefl 0)
    · cases o <;> exact Or.inl ⟨rfl, False.elim⟩
  next =>
    refine ⟨crawled.next, fun o => marks o _, fun o held => ?_, fun o => ?_⟩
    · cases o with
      | document id => exact holds id _
      | file id => exact held.elim
    · cases o <;> exact Or.inl ⟨rfl, False.elim⟩

theorem call_files {page : Nat} {docs : List DocumentEntry} {files : List FileEntry}
    (fetched : Snapshot s.queue .document DocumentEntry.id shownDocument ds docs)
    (crawled : Crawled s.queue .file fileRecord (listFiles scan s.files) fetchPageSize fs page files)
    (lists : Lists s .file FileEntry.id shownFile fileRecord (listFiles scan s.files))
    (truth : ∀ o, s.shown o = replay Message.object Message.shown s.queue o) :
    Calls order scan s ⟨.files page docs files, ds, fs⟩ (call order scan s ⟨.files page docs files, ds, fs⟩).1
      (call order scan s ⟨.files page docs files, ds, fs⟩).2 := by
  have marked : (if page = 0 then { stage := .files page docs files, documentsSince := ds, filesSince := s.queue.length }
      else (⟨.files page docs files, ds, fs⟩ : Reindex)) = ⟨.files page docs files, ds, sinceOf s.queue page fs⟩ := by
    unfold sinceOf
    split <;> rfl
  have marks (o : Object) (stage : Stage) : (⟨stage, ds, sinceOf s.queue page fs⟩ : Reindex).since o =
      (⟨.files page docs files, ds, fs⟩ : Reindex).since o ∨
        (⟨stage, ds, sinceOf s.queue page fs⟩ : Reindex).since o = s.queue.length := by
    cases o with
    | document id => exact Or.inl rfl
    | file id =>
      rcases sinceOf_cases s.queue page fs with ⟨_, first⟩ | ⟨_, same⟩
      · exact Or.inr first
      · exact Or.inl same
  have holds (o : Object) (stage : Stage) : (⟨.files page docs files, ds, fs⟩ : Reindex).Holds o ∨
      (⟨stage, ds, sinceOf s.queue page fs⟩ : Reindex).since o = s.queue.length := by
    cases o with
    | document id => exact Or.inl trivial
    | file id =>
      rcases sinceOf_cases s.queue page fs with ⟨_, first⟩ | ⟨later, _⟩
      · exact Or.inr first
      · exact Or.inl later
  simp only [call, marked]
  split
  next empty =>
    refine ⟨⟨fetched, crawled.done (by decide) lists truth (List.isEmpty_iff.mp empty)⟩, fun o => marks o _,
      fun o _ => holds o _, fun o => ?_⟩
    cases o <;> exact Or.inl ⟨rfl, False.elim⟩
  next =>
    refine ⟨⟨fetched, crawled.next⟩, fun o => marks o _, fun o _ => holds o _, fun o => ?_⟩
    cases o <;> exact Or.inl ⟨rfl, False.elim⟩

theorem call_drops {docs : List DocumentEntry} {files : List FileEntry}
    (documents : Snapshot s.queue .document DocumentEntry.id shownDocument ds docs)
    (found : Snapshot s.queue .file FileEntry.id shownFile fs files) :
    Calls order scan s ⟨.dropDocuments docs files, ds, fs⟩ (call order scan s ⟨.dropDocuments docs files, ds, fs⟩).1
        (call order scan s ⟨.dropDocuments docs files, ds, fs⟩).2 ∧
      Calls order scan s ⟨.dropFiles docs files, ds, fs⟩ (call order scan s ⟨.dropFiles docs files, ds, fs⟩).1
        (call order scan s ⟨.dropFiles docs files, ds, fs⟩).2 := by
  have back : (slices addBatch docs).flatten = docs := slices_flatten (by decide) docs
  constructor
  · refine ⟨⟨documents, found⟩, fun o => Or.inl ?_, fun o _ => Or.inl ?_, fun o => ?_⟩
    · cases o <;> rfl
    · cases o <;> trivial
    · cases o with
      | file id => exact Or.inl ⟨rfl, False.elim⟩
      | document id =>
        by_cases there : ∃ e ∈ docs, e.id = id
        · exact Or.inr (Or.inr there)
        · refine Or.inr (Or.inl ⟨trivial, ?_⟩)
          have gone := documents.complete id fun e member own => there ⟨e, member, own⟩
          exact (show (none : Option Shown) = told s.queue ds (.document id) from gone.symm)
  · refine ⟨⟨by rw [back]; exact documents.each, found⟩, fun o => Or.inl ?_, fun o _ => Or.inl ?_, fun o => ?_⟩
    · cases o <;> rfl
    · cases o <;> trivial
    · cases o with
      | document id =>
        refine Or.inl ⟨rfl, ?_⟩
        rintro ⟨e, member, own⟩
        exact ⟨e, by rw [back]; exact member, own⟩
      | file id =>
        by_cases there : ∃ e ∈ files, e.id = id
        · exact Or.inr (Or.inr there)
        · refine Or.inr (Or.inl ⟨trivial, ?_⟩)
          have gone := found.complete id fun e member own => there ⟨e, member, own⟩
          exact (show (none : Option Shown) = told s.queue fs (.file id) from gone.symm)

theorem call_addDocuments {batches : List (List DocumentEntry)} {files : List FileEntry}
    (each : TrueTo s.queue .document DocumentEntry.id shownDocument ds batches.flatten)
    (found : Snapshot s.queue .file FileEntry.id shownFile fs files) :
    Calls order scan s ⟨.addDocuments batches files, ds, fs⟩ (call order scan s ⟨.addDocuments batches files, ds, fs⟩).1
      (call order scan s ⟨.addDocuments batches files, ds, fs⟩).2 := by
  cases batches with
  | nil =>
    have back : (slices addBatch files).flatten = files := slices_flatten (by decide) files
    refine ⟨fun e member => found.each e (by rwa [← back]), fun o => Or.inl ?_, fun o held => Or.inl ?_, fun o => ?_⟩
    · cases o <;> rfl
    · cases o with
      | document id => exact held.elim
      | file id => trivial
    · cases o with
      | document id =>
        refine Or.inl ⟨rfl, ?_⟩
        rintro ⟨e, member, _⟩
        exact absurd member List.not_mem_nil
      | file id =>
        refine Or.inl ⟨rfl, ?_⟩
        rintro ⟨e, member, own⟩
        exact ⟨e, by rw [back]; exact member, own⟩
  | cons batch batches =>
    refine ⟨⟨fun e member => each e (List.mem_append_right _ member), found⟩, fun o => Or.inl ?_, fun o _ => Or.inl ?_,
      fun o => ?_⟩
    · cases o <;> rfl
    · cases o <;> trivial
    · cases o with
      | file id => exact Or.inl ⟨rfl, fun pending => pending⟩
      | document id =>
        rcases @added_cases _ s.index.documents DocumentEntry.id batch id with ⟨e, member, own, written⟩ | ⟨absent, same⟩
        · refine Or.inr (Or.inl ⟨trivial, ?_⟩)
          subst own
          have is_told := each e (List.mem_append_left _ member)
          calc
            _ = Option.map shownDocument (some e) := congrArg (Option.map shownDocument) written
            _ = told s.queue ds (.document e.id) := is_told.symm
        · refine Or.inl ⟨congrArg (Option.map shownDocument) same, ?_⟩
          rintro ⟨e, member, own⟩
          rcases List.mem_append.mp member with now | later
          · exact absurd own (absent e now)
          · exact ⟨e, later, own⟩

theorem call_addFiles {batches : List (List FileEntry)}
    (each : TrueTo s.queue .file FileEntry.id shownFile fs batches.flatten) :
    Calls order scan s ⟨.addFiles batches, ds, fs⟩ (call order scan s ⟨.addFiles batches, ds, fs⟩).1
      (call order scan s ⟨.addFiles batches, ds, fs⟩).2 := by
  cases batches with
  | nil =>
    refine ⟨trivial, fun o => Or.inl ?_, fun o held => ?_, fun o => Or.inl ⟨rfl, ?_⟩⟩
    · cases o <;> rfl
    · cases o <;> exact held.elim
    · cases o with
      | document id => exact False.elim
      | file id =>
        rintro ⟨e, member, _⟩
        exact absurd member List.not_mem_nil
  | cons batch batches =>
    refine ⟨fun e member => each e (List.mem_append_right _ member), fun o => Or.inl ?_, fun o held => Or.inl ?_, fun o => ?_⟩
    · cases o <;> rfl
    · cases o with
      | document id => exact held.elim
      | file id => trivial
    · cases o with
      | document id => exact Or.inl ⟨rfl, False.elim⟩
      | file id =>
        rcases @added_cases _ s.index.files FileEntry.id batch id with ⟨e, member, own, written⟩ | ⟨absent, same⟩
        · refine Or.inr (Or.inl ⟨trivial, ?_⟩)
          subst own
          have is_told := each e (List.mem_append_left _ member)
          calc
            _ = Option.map shownFile (some e) := congrArg (Option.map shownFile) written
            _ = told s.queue fs (.file e.id) := is_told.symm
        · refine Or.inl ⟨congrArg (Option.map shownFile) same, ?_⟩
          rintro ⟨e, member, own⟩
          rcases List.mem_append.mp member with now | later
          · exact absurd own (absent e now)
          · exact ⟨e, later, own⟩

theorem call_calls {run : Reindex} (sound : run.Sound order scan s)
    (documents : Lists s .document DocumentEntry.id shownDocument recordOfRow (listDocuments order s.documents))
    (files : Lists s .file FileEntry.id shownFile fileRecord (listFiles scan s.files))
    (truth : ∀ o, s.shown o = replay Message.object Message.shown s.queue o) :
    Calls order scan s run (run.call order scan s).1 (run.call order scan s).2 := by
  obtain ⟨stage, ds, fs⟩ := run
  cases stage with
  | documents page docs => exact call_documents sound documents truth
  | files page docs files' => exact call_files sound.1 sound.2 files truth
  | dropDocuments docs files' => exact (call_drops sound.1 sound.2).1
  | dropFiles docs files' => exact (call_drops sound.1 sound.2).2
  | addDocuments batches files' => exact call_addDocuments sound.1 sound.2
  | addFiles batches => exact call_addFiles sound
  | finished =>
    refine ⟨trivial, fun o => Or.inl rfl, fun o held => ?_, fun o => Or.inl ⟨rfl, fun pending => pending⟩⟩
    cases o <;> exact held.elim

end Reindex

end

end OtterWorks.Search
