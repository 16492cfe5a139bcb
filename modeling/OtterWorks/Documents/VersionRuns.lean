import OtterWorks.Documents.Requests
import OtterWorks.Lib.Transition
import Mathlib.Data.List.Nodup

namespace OtterWorks.Documents

/-- The version rows carry the numbers from 1 on, each once and one for each modification, and the last of them is
the document. -/
def Linear (s : Database) : Prop :=
  ∀ document ∈ s.document,
    ((s.versions.map DocumentVersion.versionNumber).Perm (List.range' 1 (s.modified + 1)) ∧
      document.version = s.modified + 1) ∧
    ∃ row ∈ s.versions, row.versionNumber = document.version ∧ row.title = document.title ∧
      row.content = document.content

/-- The document as it is and as the request has loaded it, where the request is about to add a version row. -/
def Database.adding (s : Database) : Event → Option (Document × Document)
  | .next i id =>
    match s.handlers[i]?, s.document with
    | some ⟨_, _, .commit loaded document true⟩, some stored =>
      if s.accepts id document then some (stored, loaded) else none
    | _, _ => none
  | _ => none

/-- No other modification has been committed since the request has loaded the document. -/
def UpToDate (s : Database) (event : Event) : Prop := ∀ docs ∈ s.adding event, docs.1.version = docs.2.version

instance (s : Database) (event : Event) : Decidable (UpToDate s event) :=
  inferInstanceAs (Decidable (∀ docs ∈ s.adding event, docs.1.version = docs.2.version))

/-- The document as a request has loaded it. -/
def Stage.loaded : Stage → Option Document
  | .get loaded | .findVersion loaded _ | .commit loaded _ _ => some loaded
  | _ => none

/-- A version row stands for the document. -/
def Recorded (versions : List DocumentVersion) (document : Document) : Prop :=
  ∃ row ∈ versions, row.versionNumber = document.version ∧ row.title = document.title ∧ row.content = document.content

/-- What a request is about to write is a next version of what it has loaded, or the same version. -/
def Stage.Follows : Stage → Prop
  | .commit loaded document true => document.version = loaded.version + 1
  | .commit loaded document false =>
    document.version = loaded.version ∧ document.title = loaded.title ∧ document.content = loaded.content
  | _ => True

/-- The history of a document that is linear so far: what each request has loaded is one of its versions. -/
structure History (s : Database) : Prop where
  linear : Linear s
  absent : s.document = none → s.versions = [] ∧ s.modified = 0
  loaded : ∀ h ∈ s.handlers, ∀ document ∈ h.stage.loaded, Recorded s.versions document
  follows : ∀ h ∈ s.handlers, h.stage.Follows

/-- A version number has been given twice. -/
def Forked (s : Database) : Prop :=
  s.document.isSome = true ∧ ¬ (s.versions.map DocumentVersion.versionNumber).Nodup

section Rows

variable {stored loaded document : Document}

theorem flush_title (same : stored.title = loaded.title) : (stored.flush loaded document).title = document.title := by
  unfold Document.flush
  dsimp only
  split
  next kept => rw [same, kept]
  next => rfl

theorem flush_content (same : stored.content = loaded.content) :
    (stored.flush loaded document).content = document.content := by
  unfold Document.flush
  dsimp only
  split
  next kept => rw [same, kept]
  next => rfl

theorem flush_version (same : stored.version = loaded.version) :
    (stored.flush loaded document).version = document.version := by
  unfold Document.flush
  dsimp only
  split
  next kept => rw [same, kept]
  next => rfl

theorem Recorded.append {versions : List DocumentVersion} (h : Recorded versions document) (row : DocumentVersion) :
    Recorded (versions ++ [row]) document := by
  obtain ⟨old, there, same⟩ := h
  exact ⟨old, List.mem_append_left _ there, same⟩

/-- Two documents of one version that are both recorded have the same text. -/
theorem Recorded.unique {versions : List DocumentVersion} (once : (versions.map DocumentVersion.versionNumber).Nodup)
    (left : Recorded versions stored) (right : Recorded versions loaded) (same : stored.version = loaded.version) :
    stored.title = loaded.title ∧ stored.content = loaded.content := by
  obtain ⟨a, ha, numberA, titleA, contentA⟩ := left
  obtain ⟨b, hb, numberB, titleB, contentB⟩ := right
  have number : a.versionNumber = b.versionNumber := by rw [numberA, numberB, same]
  have here : a = b := List.inj_on_of_nodup_map once ha hb number
  rw [here] at titleA contentA
  exact ⟨titleA.symm.trans titleB, contentA.symm.trans contentB⟩

theorem follows_change (r : Request) : (r.change document).Follows := by
  cases r with
  | create data => trivial
  | update data => rfl
  | patch data =>
    show (Stage.commit document (data.apply document) data.changed).Follows
    cases changed : data.changed with
    | true =>
      show (data.apply document).version = document.version + 1
      simp [DocumentPatch.apply, changed]
    | false =>
      have version : (data.apply document).version = document.version := by simp [DocumentPatch.apply, changed]
      -- nothing is set
      simp only [DocumentPatch.changed, Bool.or_eq_false_iff, Option.isSome_eq_false_iff,
        Option.isNone_iff_eq_none] at changed
      obtain ⟨⟨⟨title, content⟩, _⟩, _⟩ := changed
      have sameTitle : (data.apply document).title = document.title := by simp [DocumentPatch.apply, title]
      have sameContent : (data.apply document).content = document.content := by simp [DocumentPatch.apply, content]
      exact ⟨version, sameTitle, sameContent⟩
  | restoreVersion versionId => trivial
  | delete => exact ⟨rfl, rfl, rfl⟩

theorem loaded_change {r : Request} {d : Document} (h : d ∈ (r.change document).loaded) : d = document := by
  cases r with
  | create data => cases h
  | _ =>
    cases Option.some.inj h
    rfl

end Rows

section Steps

variable {s : Database}

namespace History

theorem numbers_nodup (inv : History s) : (s.versions.map DocumentVersion.versionNumber).Nodup := by
  cases here : s.document with
  | none =>
    rw [(inv.absent here).1]
    exact List.nodup_nil
  | some document => exact (inv.linear document here).1.1.nodup_iff.mpr List.nodup_range'

theorem setStage (inv : History s) (i : Nat) (h : Handler) {stage : Stage}
    (loaded : ∀ document ∈ stage.loaded, Recorded s.versions document) (follows : stage.Follows) :
    History (s.setStage i h stage) := by
  refine ⟨inv.linear, inv.absent, ?_, ?_⟩
  · intro h' mem
    rcases List.mem_or_eq_of_mem_set mem with old | new
    · exact inv.loaded h' old
    · rw [new]
      exact loaded
  · intro h' mem
    rcases List.mem_or_eq_of_mem_set mem with old | new
    · exact inv.follows h' old
    · rw [new]
      exact follows

theorem ended (inv : History s) (i : Nat) (h : Handler) : History (s.setStage i h .finished) :=
  inv.setStage i h (fun _ mem => by cases mem) trivial

/-- The first version. -/
theorem create (inv : History s) (absent : s.document = none) (data : DocumentCreate) (id : Uuid) :
    History { s with document := some data.document, versions := [data.document.versionRow id] } := by
  obtain ⟨versions, modified⟩ := inv.absent absent
  refine ⟨?_, ?_, ?_, inv.follows⟩
  · intro document here
    cases Option.some.inj here
    refine ⟨⟨?_, ?_⟩, data.document.versionRow id, List.mem_singleton_self _, rfl, rfl, rfl⟩
    · rw [modified]
      exact List.Perm.refl _
    · show data.document.version = s.modified + 1
      rw [modified]
      rfl
  · intro none
    cases none
  · intro h mem document loaded
    obtain ⟨row, there, _⟩ := inv.loaded h mem document loaded
    rw [versions] at there
    cases there

/-- A next version of the document as it is. -/
theorem add (inv : History s) {stored loaded document : Document} (here : s.document = some stored)
    (recorded : Recorded s.versions loaded) (same : stored.version = loaded.version)
    (next : document.version = loaded.version + 1) (id : Uuid) :
    History { s with
      document := some (stored.flush loaded document)
      versions := s.versions ++ [document.versionRow id]
      modified := s.modified + 1 } := by
  obtain ⟨⟨numbers, version⟩, last⟩ := inv.linear stored here
  obtain ⟨title, content⟩ := Recorded.unique inv.numbers_nodup last recorded same
  refine ⟨?_, ?_, ?_, inv.follows⟩
  · intro written isWritten
    cases Option.some.inj isWritten
    have number : (stored.flush loaded document).version = document.version := flush_version same
    have count : document.version = s.modified + 1 + 1 := by omega
    refine ⟨⟨?_, number.trans count⟩, document.versionRow id, List.mem_append_right _ (List.mem_singleton_self _),
      number.symm, (flush_title title).symm, (flush_content content).symm⟩
    show ((s.versions ++ [document.versionRow id]).map DocumentVersion.versionNumber).Perm
      (List.range' 1 (s.modified + 1 + 1))
    rw [List.range'_1_concat, List.map_append]
    have row : [document.versionRow id].map DocumentVersion.versionNumber = [1 + (s.modified + 1)] := by
      show [document.version] = _
      rw [count, Nat.add_comm 1]
    rw [row]
    exact numbers.append_right _
  · intro none
    cases none
  · intro h mem d loaded
    exact (inv.loaded h mem d loaded).append _

/-- A commit of other columns. -/
theorem flush (inv : History s) {stored loaded document : Document} (here : s.document = some stored)
    (version : document.version = loaded.version) (title : document.title = loaded.title)
    (content : document.content = loaded.content) :
    History { s with document := some (stored.flush loaded document) } := by
  have sameVersion : (stored.flush loaded document).version = stored.version := by simp [Document.flush, version]
  have sameTitle : (stored.flush loaded document).title = stored.title := by simp [Document.flush, title]
  have sameContent : (stored.flush loaded document).content = stored.content := by simp [Document.flush, content]
  refine ⟨?_, ?_, inv.loaded, inv.follows⟩
  · intro written isWritten
    cases Option.some.inj isWritten
    have linear := inv.linear stored here
    rw [sameVersion, sameTitle, sameContent]
    exact linear
  · intro none
    cases none

end History

theorem get_some {document : Document} (h : s.get = some document) : s.document = some document := by
  unfold Database.get at h
  exact (Option.filter_eq_some_iff.mp h).1

theorem step_history {event : Event} (inv : History s) (upToDate : UpToDate s event) : History (s.step event) := by
  cases event with
  | request user r =>
    refine ⟨inv.linear, inv.absent, ?_, ?_⟩
    · intro h mem
      rcases List.mem_append.mp mem with old | new
      · exact inv.loaded h old
      · rw [List.mem_singleton.mp new]
        intro document loaded
        cases r <;> cases loaded
    · intro h mem
      rcases List.mem_append.mp mem with old | new
      · exact inv.follows h old
      · rw [List.mem_singleton.mp new]
        cases r <;> trivial
  | fail i =>
    simp only [Database.step]
    split
    next => exact inv
    next h _ => exact inv.ended i h
  | next i id =>
    simp only [Database.step]
    cases hi : s.handlers[i]? with
    | none => exact inv
    | some h =>
      have mem := List.mem_of_getElem? hi
      have loadedInv := inv.loaded h mem
      have followsInv := inv.follows h mem
      obtain ⟨user, r, stage⟩ := h
      dsimp only at loadedInv followsInv ⊢
      cases stage with
      | insert =>
        simp only [Database.next]
        split
        next data absent => exact (inv.create absent data id).ended i _
        next => exact inv.ended i _
      | existing =>
        simp only [Database.next]
        split
        next => exact inv.ended i _
        next document found =>
          have recorded : Recorded s.versions document := (inv.linear document (get_some found)).2
          split
          next =>
            refine inv.setStage i _ ?_ trivial
            intro d loaded
            cases Option.some.inj loaded
            exact recorded
          next => exact inv.ended i _
      | get loaded =>
        simp only [Database.next]
        split
        next =>
          refine inv.setStage i _ ?_ (follows_change r)
          intro d hd
          rw [loaded_change hd]
          exact loadedInv loaded rfl
        next => exact inv.ended i _
      | findVersion loaded versionId =>
        simp only [Database.next]
        split
        next => exact inv.ended i _
        next ver _ =>
          refine inv.setStage i _ ?_ rfl
          intro d hd
          cases Option.some.inj hd
          exact loadedInv loaded rfl
      | commit loaded document addsVersion =>
        simp only [Database.next]
        split
        next => exact inv.ended i _
        next stored here =>
          cases addsVersion with
          | true =>
            rw [if_pos rfl]
            split
            next accepts =>
              have same : stored.version = loaded.version := by
                apply upToDate (stored, loaded)
                simp [Database.adding, hi, here, accepts]
              exact (inv.add here (loadedInv loaded rfl) same followsInv id).ended i _
            next => exact inv.ended i _
          | false =>
            obtain ⟨version, title, content⟩ := followsInv
            exact (inv.flush here version title content).ended i _
      | finished => exact inv

/-- A commit that is not up to date gives a number again. -/
theorem step_forked {event : Event} (inv : History s) (stale : ¬ UpToDate s event) : Forked (s.step event) := by
  unfold UpToDate at stale
  push Not at stale
  obtain ⟨⟨stored, loaded⟩, adding, differ⟩ := stale
  cases event with
  | request user r => cases adding
  | fail i => cases adding
  | next i id =>
    simp only [Database.adding] at adding
    split at adding
    next user r loaded' document stored' hi here =>
      split at adding
      next accepts =>
        cases Option.some.inj adding
        have mem := List.mem_of_getElem? hi
        have next : document.version = loaded.version + 1 := inv.follows _ mem
        obtain ⟨row, there, number, _⟩ := inv.loaded _ mem loaded rfl
        obtain ⟨⟨numbers, version⟩, _⟩ := inv.linear stored here
        have member : ∀ k, k ∈ s.versions.map DocumentVersion.versionNumber ↔ 1 ≤ k ∧ k < 1 + (s.modified + 1) := by
          intro k
          rw [numbers.mem_iff, List.mem_range'_1]
        have bound := (member loaded.version).mp (List.mem_map.mpr ⟨row, there, number⟩)
        have again : document.version ∈ s.versions.map DocumentVersion.versionNumber := by
          apply (member document.version).mpr
          dsimp only at differ
          omega
        have after : s.step (.next i id) = { s.setStage i ⟨user, r, .commit loaded document true⟩ .finished with
            document := some (stored.flush loaded document)
            versions := s.versions ++ [document.versionRow id]
            modified := s.modified + 1 } := by
          simp [Database.step, hi, Database.next, here, accepts]
        rw [after]
        refine ⟨rfl, ?_⟩
        intro once
        rw [List.map_append, List.nodup_append] at once
        exact once.2.2 document.version again document.version (List.mem_singleton_self _) rfl
      next => cases adding
    next => cases adding

/-- Rows are not removed: a number that was given twice stays given twice. -/
theorem Forked.step (forked : Forked s) (event : Event) : Forked (s.step event) := by
  obtain ⟨present, twice⟩ := forked
  cases event with
  | request user r => exact ⟨present, twice⟩
  | fail i =>
    simp only [Database.step]
    split
    next => exact ⟨present, twice⟩
    next => exact ⟨present, twice⟩
  | next i id =>
    simp only [Database.step]
    split
    next => exact ⟨present, twice⟩
    next h hi =>
      cases h.stage with
      | insert =>
        simp only [Database.next]
        split
        next absent =>
          rw [absent] at present
          cases present
        next => exact ⟨present, twice⟩
      | existing =>
        simp only [Database.next]
        split
        next => exact ⟨present, twice⟩
        next => exact ⟨present, twice⟩
      | get loaded => exact ⟨present, twice⟩
      | findVersion loaded versionId =>
        simp only [Database.next]
        split
        next => exact ⟨present, twice⟩
        next => exact ⟨present, twice⟩
      | commit loaded document addsVersion =>
        simp only [Database.next]
        split
        next => exact ⟨present, twice⟩
        next stored here =>
          split
          next =>
            split
            next =>
              refine ⟨rfl, ?_⟩
              intro once
              rw [List.map_append, List.nodup_append] at once
              exact twice once.1
            next => exact ⟨present, twice⟩
          next => exact ⟨rfl, twice⟩
      | finished => exact ⟨present, twice⟩

theorem Forked.not_linear (forked : Forked s) : ¬ Linear s := by
  intro linear
  obtain ⟨present, twice⟩ := forked
  obtain ⟨document, here⟩ := Option.isSome_iff_exists.mp present
  exact twice ((linear document here).1.1.nodup_iff.mpr List.nodup_range')

end Steps

section Runs

theorem start_history : History .start := by
  refine ⟨?_, fun _ => ⟨rfl, rfl⟩, ?_, ?_⟩
  · intro document here
    cases here
  · intro h mem
    cases mem
  · intro h mem
    cases mem

/-- The history is linear in the end exactly if every commit of a modification finds the version that its request
has read. -/
theorem history_linear_iff (events : List Event) :
    Linear (events.foldl Database.step .start) ↔
      ∀ n event, events[n]? = some event → UpToDate ((events.take n).foldl Database.step .start) event :=
  foldl_end_iff (fun _ _ => step_history) (fun _ _ => step_forked) (fun _ event forked => forked.step event)
    (fun _ inv => inv.linear) (fun _ forked => forked.not_linear) start_history events

end Runs

/-- Two updates read version 1 before either commits. -/
def concurrentUpdates : List Event :=
  [.request 7 (.create ⟨"Plan", "", "text/markdown", 7, none⟩), .next 0 100,
    .request 7 (.update ⟨"Plan A", "", "text/markdown", none⟩), .request 7 (.update ⟨"Plan B", "", "text/markdown", none⟩),
    .next 1 0, .next 1 0, .next 2 0, .next 2 0, .next 1 101, .next 2 102]

/-- Both have ended well, and the second version is there twice. -/
theorem concurrent_updates_fork_history :
    (concurrentUpdates.foldl Database.step .start).handlers.map Handler.stage = [.finished, .finished, .finished] ∧
    (concurrentUpdates.foldl Database.step .start).modified = 2 ∧
    (concurrentUpdates.foldl Database.step .start).versions.map DocumentVersion.versionNumber = [1, 2, 2] ∧
    ¬ Linear (concurrentUpdates.foldl Database.step .start) := by
  refine ⟨by decide, by decide, by decide, ?_⟩
  intro linear
  have numbers := (linear ⟨"Plan B", "", "text/markdown", 7, none, false, 0, 2⟩ (by decide)).1.2
  revert numbers
  decide

end OtterWorks.Documents
