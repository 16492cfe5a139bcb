import Mathlib.Data.List.Find
import OtterWorks.Lib.Transition
import OtterWorks.Search.ReindexCalls
import OtterWorks.Search.SourceTruth

namespace OtterWorks.Search

open Documents (DocumentEntry DocumentRow DocumentTable getDocument)
open Files (Uuid FileMetadata FileTable)

theorem indexDocument_shown {payload : DocumentEntry} (title : payload.title ≠ "") (ix : Index) (o : Object) :
    (match ix.indexDocument payload with | .ok ix => ix | .error _ => ix).shown o =
      if some (Object.document payload.id) = some o then some (shownDocument payload) else ix.shown o := by
  have nonempty : ¬ payload.title.isEmpty = true := by simpa using title
  simp only [Index.indexDocument, if_neg nonempty]
  cases o with
  | file id => rfl
  | document id =>
    simp only [Index.shown, Std.ExtTreeMap.getElem?_insert]
    by_cases own : payload.id = id
    · simp [own]
    · simp [own]

theorem processMessage_documents (ix : Index) (event : Files.FileEvent) :
    (ix.processMessage (.file event)).documents = ix.documents := by
  simp only [Index.processMessage, normalizeEvent]
  cases actionOf event.eventType with
  | none => rfl
  | some action =>
    cases action with
    | delete => rfl
    | indexFile =>
      simp only [Index.processEvent, Index.indexFile]
      cases (filePayload event).name.isEmpty <;> rfl

/-- What one processed message does to what is shown. -/
theorem processMessage_shown {message : Message} (proper : message.Proper) (ix : Index) (o : Object) :
    (ix.processMessage message).shown o = if message.object = some o then message.shown else ix.shown o := by
  cases message with
  | document event =>
    cases event with
    | created payload => exact indexDocument_shown proper ix o
    | updated payload => exact indexDocument_shown proper ix o
    | deleted removed =>
      cases o with
      | file id => rfl
      | document id =>
        simp only [Index.processMessage, normalizeEvent, Index.processEvent, Index.remove, Index.shown,
          Std.ExtTreeMap.getElem?_erase, Message.object, Message.shown]
        by_cases own : removed = id
        · simp [own]
        · simp [own]
  | file event =>
    cases o with
    | document id =>
      have other : Message.object (.file event) ≠ some (.document id) := by
        simp only [Message.object]
        cases actionOf event.eventType <;> (intro named; cases named)
      rw [if_neg other, Index.shown, Index.shown, processMessage_documents]
    | file id =>
      rw [Index.shown, processMessage_entry]
      by_cases own : event.fileId = id
      · rw [if_neg (not_not.mpr own)]
        cases acts : actionOf event.eventType with
        | none => simp [Message.object, acts, Index.shown]
        | some action =>
          have mine : Message.object (.file event) = some (.file id) := by simp [Message.object, acts, own]
          rw [if_pos mine]
          cases action with
          | delete => simp [Message.shown, acts]
          | indexFile =>
            have name := proper acts
            simp [Message.shown, acts, name, shownFile, filePayload]
      · have other : Message.object (.file event) ≠ some (.file id) := by
          simp only [Message.object]
          cases actionOf event.eventType with
          | none => simp
          | some _ => simpa using own
        rw [if_pos own, if_neg other, Index.shown]

section

variable {order : DocumentTable → List (Uuid × DocumentRow)} {scan : FileTable → List FileMetadata} {s s' : System}
  {m : Message} {run : Reindex}

/-- What earlier events told is not changed by later ones. -/
theorem told_snoc {queue : List Message} {n : Nat} (within : n ≤ queue.length) (m : Message) (o : Object) :
    told (queue ++ [m]) n o = told queue n o := by
  rw [told, told, List.take_append_of_le_length within]

section

variable {ε ρ : Type} {queue : List Message} {object : Uuid → Object} {key : ε → Uuid} {seen : ε → Shown}
  {record : ρ → ε} {listing listing' : List ρ} {size since page : Nat} {entries : List ε}

theorem TrueTo.snoc (h : TrueTo queue object key seen since entries) (within : since ≤ queue.length) (m : Message) :
    TrueTo (queue ++ [m]) object key seen since entries := by
  intro e member
  rw [told_snoc within]
  exact h e member

theorem Snapshot.snoc (h : Snapshot queue object key seen since entries) (within : since ≤ queue.length) (m : Message) :
    Snapshot (queue ++ [m]) object key seen since entries := by
  refine ⟨h.each.snoc within m, fun id absent => ?_⟩
  rw [told_snoc within]
  exact h.complete id absent

/-- The crawl goes on over rows that did not change, or has not begun. -/
theorem Crawled.snoc (h : Crawled queue object record listing size since page entries)
    (still : (listing' = listing ∧ ∀ id, m.object ≠ some (object id)) ∨ ¬ 0 < page) :
    Crawled (queue ++ [m]) object record listing' size since page entries := by
  rcases still with ⟨rfl, other⟩ | first
  · exact ⟨h.1, fun later id => (h.2 later id).snoc (other id)⟩
  · have zero : page = 0 := by omega
    subst zero
    refine ⟨?_, fun later => absurd later first⟩
    rw [h.1]
    simp

end

/-- A run's marks lie within the queue. -/
def Reindex.Within (s : System) (run : Reindex) : Prop :=
  run.documentsSince ≤ s.queue.length ∧ run.filesSince ≤ s.queue.length

theorem sound_published (h : run.Sound order scan s) (queue : s'.queue = s.queue ++ [m]) (within : run.Within s)
    (documents : (s'.documents = s.documents ∧ ∀ id, m.object ≠ some (.document id)) ∨ ¬ run.CrawlsDocuments)
    (files : (s'.files = s.files ∧ ∀ id, m.object ≠ some (.file id)) ∨ ¬ run.CrawlsFiles) :
    run.Sound order scan s' := by
  obtain ⟨_, _, after, _, _, _⟩ := s'
  cases queue
  obtain ⟨stage, ds, fs⟩ := run
  obtain ⟨inDocuments, inFiles⟩ := within
  cases stage with
  | documents page docs =>
    apply Crawled.snoc h
    rcases documents with ⟨same, other⟩ | idle
    · exact Or.inl ⟨by rw [same], other⟩
    · exact Or.inr fun later => idle ⟨page, docs, rfl, later⟩
  | files page docs found =>
    refine ⟨h.1.snoc inDocuments m, h.2.snoc ?_⟩
    rcases files with ⟨same, other⟩ | idle
    · exact Or.inl ⟨by rw [same], other⟩
    · exact Or.inr fun later => idle ⟨page, docs, found, rfl, later⟩
  | dropDocuments docs found => exact ⟨h.1.snoc inDocuments m, h.2.snoc inFiles m⟩
  | dropFiles docs found => exact ⟨h.1.snoc inDocuments m, h.2.snoc inFiles m⟩
  | addDocuments batches found => exact ⟨h.1.snoc inDocuments m, h.2.snoc inFiles m⟩
  | addFiles batches => exact TrueTo.snoc h inFiles m
  | finished => trivial

/-- Soundness is about the services and the queue. -/
theorem sound_same (queue : s'.queue = s.queue) (documents : s'.documents = s.documents) (files : s'.files = s.files)
    (h : run.Sound order scan s ∧ run.Within s) : run.Sound order scan s' ∧ run.Within s' := by
  obtain ⟨_, _, _, _, _, _⟩ := s
  obtain ⟨_, _, _, _, _, _⟩ := s'
  cases queue
  cases documents
  cases files
  obtain ⟨stage, _, _⟩ := run
  cases stage <;> exact h

/-- The services, the queue, the index and the reindexes of a run whose steps are all allowed. -/
structure Converging (order : DocumentTable → List (Uuid × DocumentRow)) (scan : FileTable → List FileMetadata)
    (s : System) : Prop where
  titled : Titled s.documents
  keyed : Keyed s.files
  named : Named s.files
  truth : ∀ o, s.shown o = replay Message.object Message.shown s.queue o
  proper : ∀ message ∈ s.queue, message.Proper
  processed : ∀ i ∈ s.processed, i < s.queue.length
  sound : ∀ run ∈ s.reindexes, run.Sound order scan s ∧ run.Within s
  fresh : ∀ o, s.Settled o → ∀ run ∈ s.reindexes, run.Holds o → QuietFrom Message.object s.queue o (run.since o)
  right : ∀ o, s.Settled o → s.index.shown o = s.shown o ∨ ∃ run ∈ s.reindexes, run.Pending o

theorem Converging.covered_le (h : Converging order scan s) (o : Object) : s.covered o ≤ s.queue.length := by
  unfold System.covered
  split
  next => exact Nat.zero_le _
  next i found => exact h.processed i (List.mem_of_find?_eq_some found)

theorem Converging.covered_published (h : Converging order scan s) (queue : s'.queue = s.queue ++ [m])
    (processed : s'.processed = s.processed) (o : Object) : s'.covered o = s.covered o := by
  have same : (s.processed.find? fun i => (s'.queue[i]?.bind Message.object) = some o) =
      s.processed.find? fun i => (s.queue[i]?.bind Message.object) = some o := by
    apply List.find?_congr
    intro i member
    rw [queue, List.getElem?_append_left (h.processed i member)]
  unfold System.covered
  rw [processed, same]

/-- An event that is new leaves its object unsettled. -/
theorem Converging.settled_published (h : Converging order scan s) (queue : s'.queue = s.queue ++ [m])
    (processed : s'.processed = s.processed) {o : Object} (settled : s'.Settled o) : m.object ≠ some o ∧ s.Settled o := by
  unfold System.Settled at settled
  rw [h.covered_published queue processed, queue] at settled
  refine ⟨fun mine => ?_, settled.of_snoc⟩
  have past := settled.past mine
  have le := h.covered_le o
  omega

theorem Converging.published (h : Converging order scan s) (queue : s'.queue = s.queue ++ [m])
    (processed : s'.processed = s.processed) (index : s'.index = s.index) (reindexes : s'.reindexes = s.reindexes)
    (proper : m.Proper) (titled : Titled s'.documents) (keyed : Keyed s'.files) (named : Named s'.files)
    (truth : ∀ o, s'.shown o = if m.object = some o then m.shown else s.shown o)
    (sound : ∀ run ∈ s.reindexes, run.Sound order scan s') : Converging order scan s' := by
  refine ⟨titled, keyed, named, fun o => ?_, fun message member => ?_, fun i member => ?_, fun run member => ?_,
    fun o settled run member holds => ?_, fun o settled => ?_⟩
  · rw [truth, queue, replay_snoc, h.truth]
  · rw [queue] at member
    rcases List.mem_append.mp member with old | new
    · exact h.proper message old
    · rw [List.mem_singleton.mp new]
      exact proper
  · rw [processed] at member
    have before := h.processed i member
    rw [queue, List.length_append]
    omega
  · rw [reindexes] at member
    obtain ⟨inDocuments, inFiles⟩ := (h.sound run member).2
    have longer : s.queue.length ≤ s'.queue.length := by
      rw [queue, List.length_append]
      omega
    exact ⟨sound run member, Nat.le_trans inDocuments longer, Nat.le_trans inFiles longer⟩
  · rw [reindexes] at member
    obtain ⟨other, before⟩ := h.settled_published queue processed settled
    rw [queue]
    exact (h.fresh o before run member holds).snoc other
  · obtain ⟨other, before⟩ := h.settled_published queue processed settled
    rw [index, reindexes, truth, if_neg other]
    exact h.right o before

theorem Converging.document (h : Converging order scan s) {op : Documents.Operation}
    (idle : ∀ run ∈ s.reindexes, ¬ run.CrawlsDocuments) : Converging order scan (s.step order scan (.document op)) := by
  simp only [System.step]
  split
  next => exact h
  next event rows done =>
    obtain ⟨⟨id, tells⟩, titled⟩ := document_perform h.titled done
    refine h.published rfl rfl rfl rfl tells.proper titled h.keyed h.named (fun o => ?_) fun run member => ?_
    · rw [tells.object, tells.shown]
      cases o with
      | file other => rfl
      | document other =>
        by_cases own : id = other
        · rw [own, if_pos rfl]
          rfl
        · rw [if_neg (by simpa using own)]
          exact tells.others other (Ne.symm own)
    · obtain ⟨sound, within⟩ := h.sound run member
      refine sound_published sound rfl within (Or.inr (idle run member)) (Or.inl ⟨rfl, fun other => ?_⟩)
      rw [tells.object]
      nofun

theorem Converging.file (h : Converging order scan s) {op : Files.Operation} (plain : Plain s.files op)
    (idle : ∀ run ∈ s.reindexes, ¬ run.CrawlsFiles) : Converging order scan (s.step order scan (.file op)) := by
  simp only [System.step]
  split
  next => exact h
  next event rows done =>
    obtain ⟨effect, named⟩ := file_perform h.keyed h.named plain done
    have keyed := (perform_cases h.keyed done).keyed h.keyed
    have elsewhere (id : Uuid) : Message.object (.file event) ≠ some (.document id) := by
      simp only [Message.object]
      cases actionOf event.eventType <;> (intro named; cases named)
    have proper : Message.Proper (.file event) := by
      rcases effect with ⟨_, tells⟩ | ⟨_, proper, _⟩
      · exact tells.proper
      · exact proper
    refine h.published rfl rfl rfl rfl proper h.titled keyed named (fun o => ?_) fun run member => ?_
    · cases o with
      | document other =>
        rw [if_neg (elsewhere other)]
        rfl
      | file other =>
        rcases effect with ⟨id, tells⟩ | ⟨silent, _, same⟩
        · rw [tells.object, tells.shown]
          by_cases own : id = other
          · rw [own, if_pos rfl]
            rfl
          · rw [if_neg (by simpa using own)]
            exact tells.others other (Ne.symm own)
        · rw [silent, if_neg (by simp)]
          exact same other
    · obtain ⟨sound, within⟩ := h.sound run member
      exact sound_published sound rfl within (Or.inl ⟨rfl, elsewhere⟩) (Or.inr (idle run member))

theorem Converging.deliver (h : Converging order scan s) {i : Nat} (allowed : Allowed s (.deliver i)) :
    Converging order scan (s.step order scan (.deliver i)) := by
  simp only [System.step]
  split
  next => exact h
  next message found =>
    have proper := h.proper message (List.mem_of_getElem? found)
    have covered (o : Object) : System.covered { s with index := s.index.processMessage message, processed := i :: s.processed } o =
        if message.object = some o then i + 1 else s.covered o := by
      simp only [System.covered, List.find?_cons, found]
      by_cases mine : message.object = some o
      · simp [mine]
      · simp [mine]
    refine ⟨h.titled, h.keyed, h.named, h.truth, h.proper, fun j member => ?_,
      fun run member => sound_same rfl rfl rfl (h.sound run member), fun o settled run member holds => ?_, fun o settled => ?_⟩
    · rcases List.mem_cons.mp member with rfl | old
      · exact (List.getElem?_eq_some_iff.mp found).1
      · exact h.processed j old
    · unfold System.Settled at settled
      rw [covered] at settled
      by_cases mine : message.object = some o
      · rw [if_pos mine] at settled
        exact settled.mono (allowed message o found mine settled run member holds)
      · rw [if_neg mine] at settled
        exact h.fresh o settled run member holds
    · unfold System.Settled at settled
      rw [covered] at settled
      simp only [processMessage_shown proper]
      by_cases mine : message.object = some o
      · rw [if_pos mine] at settled
        left
        rw [if_pos mine]
        exact (replay_at found mine settled).symm.trans (h.truth o).symm
      · rw [if_neg mine] at settled
        rw [if_neg mine]
        exact h.right o settled

theorem Converging.startReindex (h : Converging order scan s) : Converging order scan (s.step order scan .startReindex) := by
  have cases_mem {run : Reindex} (member : run ∈ s.reindexes ++ [⟨.documents 0 [], 0, 0⟩]) :
      run ∈ s.reindexes ∨ run = ⟨.documents 0 [], 0, 0⟩ := by simpa using member
  refine ⟨h.titled, h.keyed, h.named, h.truth, h.proper, h.processed, fun run member => ?_,
    fun o settled run member holds => ?_, fun o settled => ?_⟩
  · rcases cases_mem member with old | rfl
    · exact sound_same rfl rfl rfl (h.sound run old)
    · exact ⟨⟨rfl, fun later => absurd later (Nat.lt_irrefl 0)⟩, Nat.zero_le _, Nat.zero_le _⟩
  · rcases cases_mem member with old | rfl
    · exact h.fresh o settled run old holds
    · cases o with
      | document id => exact absurd holds (Nat.lt_irrefl 0)
      | file id => exact holds.elim
  · rcases h.right o settled with shown | ⟨run, member, pending⟩
    · exact Or.inl shown
    · exact Or.inr ⟨run, List.mem_append_left _ member, pending⟩

theorem documents_listed (complete : ∀ rows, (order rows).Perm rows.toList) (s : System) :
    Lists s .document DocumentEntry.id shownDocument Reindex.recordOfRow (listDocuments order s.documents) := by
  have listed (row : Uuid × DocumentRow) : row ∈ listDocuments order s.documents ↔ getDocument s.documents row.1 = some row.2 := by
    rw [listDocuments, List.mem_filter, (complete s.documents).mem_iff, getDocument, Option.filter_eq_some_iff]
    exact and_congr_left' Std.ExtTreeMap.mem_toList_iff_getElem?_eq_some
  constructor
  · intro row member
    have held := (listed row).mp member
    exact congrArg (Option.map _) held
  · intro id absent
    cases held : getDocument s.documents id with
    | none => exact congrArg (Option.map _) held
    | some row => exact absurd rfl (absent (id, row) ((listed (id, row)).mpr held))

theorem files_listed (complete : ∀ files, (scan files).Perm (files.toList.map Prod.snd)) (keyed : Keyed s.files) :
    Lists s .file FileEntry.id shownFile fileRecord (listFiles scan s.files) := by
  constructor
  · intro file member
    obtain ⟨held, listed⟩ := (mem_listFiles (complete s.files) keyed).mp member
    exact fileShown_listed held listed
  · intro id absent
    cases held : s.files[id]? with
    | none => simp [System.shown, held]
    | some file =>
      have own := keyed id file held
      subst own
      cases hidden : file.isTrashed with
      | true => exact fileShown_hidden held hidden
      | false => exact absurd rfl (absent file ((mem_listFiles (complete s.files) keyed).mpr ⟨held, hidden⟩))

theorem Converging.reindex (h : Converging order scan s) (documents : ∀ rows, (order rows).Perm rows.toList)
    (files : ∀ files, (scan files).Perm (files.toList.map Prod.snd)) (r : Nat) :
    Converging order scan (s.step order scan (.reindex r)) := by
  simp only [System.step]
  split
  next => exact h
  next run found =>
    have here := List.mem_of_getElem? found
    obtain ⟨sound, inDocuments, inFiles⟩ := h.sound run here
    have calls := Reindex.call_calls sound (documents_listed documents s) (files_listed files h.keyed) h.truth
    have next : (run.call order scan s).1 ∈ s.reindexes.set r (run.call order scan s).1 :=
      List.mem_set (List.getElem?_eq_some_iff.mp found).1 _
    refine ⟨h.titled, h.keyed, h.named, h.truth, h.proper, h.processed, fun other member => ?_,
      fun o settled other member holds => ?_, fun o settled => ?_⟩
    · rcases List.mem_or_eq_of_mem_set member with old | rfl
      · exact sound_same rfl rfl rfl (h.sound other old)
      · apply sound_same rfl rfl rfl
        refine ⟨calls.sound, ?_, ?_⟩
        · rcases calls.marks (.document 0) with same | last
          · exact Nat.le_trans (Nat.le_of_eq same) inDocuments
          · exact Nat.le_of_eq last
        · rcases calls.marks (.file 0) with same | last
          · exact Nat.le_trans (Nat.le_of_eq same) inFiles
          · exact Nat.le_of_eq last
    · rcases List.mem_or_eq_of_mem_set member with old | rfl
      · exact h.fresh o settled other old holds
      · rcases calls.marks o with same | last
        · rcases calls.holds o holds with held | last
          · rw [same]
            exact h.fresh o settled run here held
          · rw [last]
            exact quietFrom_length
        · rw [last]
          exact quietFrom_length
    · rcases calls.effect o with ⟨same, pending⟩ | ⟨held, written⟩ | pending
      · rcases h.right o settled with shown | ⟨other, member, waits⟩
        · exact Or.inl (same.trans shown)
        · right
          obtain ⟨i, at_i⟩ := List.mem_iff_getElem?.mp member
          by_cases own : r = i
          · subst own
            rw [found] at at_i
            cases at_i
            exact ⟨_, next, pending waits⟩
          · refine ⟨other, List.mem_iff_getElem?.mpr ⟨i, ?_⟩, waits⟩
            rw [List.getElem?_set_ne own]
            exact at_i
      · left
        have quiet := h.fresh o settled run here held
        exact (written.trans quiet.replay_take).trans (h.truth o).symm
      · exact Or.inr ⟨_, next, pending⟩

theorem Converging.step (h : Converging order scan s) (documents : ∀ rows, (order rows).Perm rows.toList)
    (files : ∀ files, (scan files).Perm (files.toList.map Prod.snd)) {step : Step} (allowed : Allowed s step) :
    Converging order scan (s.step order scan step) := by
  cases step with
  | document op => exact h.document allowed
  | file op => exact h.file allowed.1 allowed.2
  | deliver i => exact h.deliver allowed
  | startReindex => exact h.startReindex
  | reindex r => exact h.reindex documents files r

theorem converging_start : Converging order scan System.start := by
  refine ⟨fun id row held => ?_, fun id file held => ?_, fun id file held => ?_, fun o => ?_, ?_, ?_, ?_, ?_, fun o _ => ?_⟩
  · simp [System.start] at held
  · simp [System.start] at held
  · simp [System.start] at held
  · cases o <;> simp [System.start, System.shown, getDocument, replay]
  · simp [System.start]
  · simp [System.start]
  · simp [System.start]
  · simp [System.start]
  · left
    cases o <;> simp [System.start, System.shown, Index.shown, Index.empty, getDocument]

end

/-- However often and in whatever order events are delivered: when the last processed event about an object is its
last published one and every reindex has finished, a search finds the object exactly as it is, and not at all once it
is deleted. -/
theorem index_converges (order : DocumentTable → List (Uuid × DocumentRow)) (scan : FileTable → List FileMetadata)
    (documents : ∀ rows, (order rows).Perm rows.toList)
    (files : ∀ files, (scan files).Perm (files.toList.map Prod.snd)) (steps : List Step)
    (allowed : ∀ n step, steps[n]? = some step →
      Allowed ((steps.take n).foldl (System.step order scan) System.start) step)
    (finished : ∀ run ∈ (steps.foldl (System.step order scan) System.start).reindexes, run.stage = .finished) (o : Object)
    (settled : (steps.foldl (System.step order scan) System.start).Settled o) :
    (steps.foldl (System.step order scan) System.start).index.shown o =
      (steps.foldl (System.step order scan) System.start).shown o := by
  have converging : Converging order scan (steps.foldl (System.step order scan) System.start) := by
    have always := @foldl_always_of _ _ (System.step order scan) (Converging order scan) Allowed
      (fun s step may h => h.step documents files may) _ converging_start steps allowed steps.length
    rwa [List.take_length] at always
  rcases converging.right o settled with shown | ⟨run, member, pending⟩
  · exact shown
  · have done := finished run member
    obtain ⟨stage, _, _⟩ := run
    cases done
    cases o <;> exact pending.elim

/-- All published events have been processed and all reindexes have finished, and a search shows something else. -/
def Diverges (s : System) (o : Object) : Prop :=
  (∀ i < s.queue.length, i ∈ s.processed) ∧ (∀ run ∈ s.reindexes, run.stage = .finished) ∧ s.index.shown o ≠ s.shown o

instance (s : System) (o : Object) : Decidable (Diverges s o) := inferInstanceAs (Decidable (_ ∧ _ ∧ _))

def ran (steps : List Step) : System :=
  steps.foldl (System.step (fun rows => rows.toList) fun files => files.toList.map Prod.snd) System.start

/-- The upload is delivered after the deletion. -/
def lateUpload : List Step := [.file (.upload photo 100 1 10 11), .file (.delete 1 21), .deliver 1, .deliver 0]

/-- The file is deleted after a reindex has fetched it and before it writes it back. -/
def overlappedReindex : List Step :=
  [.file (.upload photo 100 1 10 11), .deliver 0, .startReindex] ++ List.replicate 4 (.reindex 0) ++
    [.file (.delete 1 21), .deliver 1] ++ List.replicate 5 (.reindex 0)

theorem deleted_file_found : Diverges (ran lateUpload) (.file 1) ∧ Diverges (ran overlappedReindex) (.file 1) := by
  constructor <;> decide +kernel

/-- A reindex, then an upload and a deletion, of which the first is delivered twice. -/
def calmSteps : List Step :=
  [.startReindex] ++ List.replicate 6 (.reindex 0) ++
    [.file (.upload photo 100 1 10 11), .deliver 0, .deliver 0, .file (.delete 1 21), .deliver 1]

/-- Once the reindexes have finished, only a file without a name or one in the trash can go wrong. -/
theorem allowed_of_finished {s : System} (finished : ∀ run ∈ s.reindexes, run.stage = .finished) {step : Step}
    (plain : ∀ op, step = .file op → Plain s.files op) : Allowed s step := by
  have crawled (run : Reindex) (member : run ∈ s.reindexes) : ¬ run.CrawlsDocuments ∧ ¬ run.CrawlsFiles := by
    constructor
    · rintro ⟨page, docs, stage, _⟩
      rw [finished run member] at stage
      cases stage
    · rintro ⟨page, docs, files, stage, _⟩
      rw [finished run member] at stage
      cases stage
  cases step with
  | document op => exact fun run member => (crawled run member).1
  | file op => exact ⟨plain op rfl, fun run member => (crawled run member).2⟩
  | deliver i =>
    intro message o _ _ _ run member holds
    obtain ⟨stage, _, _⟩ := run
    cases finished _ member
    cases o <;> exact holds.elim
  | startReindex => trivial
  | reindex r => trivial

theorem deleted_file_not_found : (ran calmSteps).index.shown (.file 1) = none := by
  have gone : (ran calmSteps).shown (.file 1) = none := by decide +kernel
  have ended : ∀ run ∈ (ran calmSteps).reindexes, run.stage = .finished := by decide +kernel
  rw [← gone]
  refine index_converges _ _ (fun _ => .refl _) (fun _ => .refl _) calmSteps (fun n step taken => ?_) ended _ ?_
  · by_cases early : n < 7
    · have reindexing : ∀ n < 7, ∀ step ∈ calmSteps[n]?, step = .startReindex ∨ step = .reindex 0 := by decide
      rcases reindexing n early step taken with rfl | rfl <;> trivial
    · have later : 7 ≤ n ∧ n < 12 := ⟨by omega, (List.getElem?_eq_some_iff.mp taken).1⟩
      have quiet : ∀ n < 12, 7 ≤ n → ∀ run ∈ (ran (calmSteps.take n)).reindexes, run.stage = .finished := by
        decide +kernel
      refine allowed_of_finished (quiet n later.2 later.1) fun op file => ?_
      subst file
      have member : op ∈ calmSteps.filterMap fun | .file op => some op | _ => none :=
        List.mem_filterMap.mpr ⟨.file op, List.mem_of_getElem? taken, rfl⟩
      have two : (calmSteps.filterMap fun | .file op => some op | _ => none) =
          [.upload photo 100 1 10 11, .delete 1 21] := by decide
      rw [two] at member
      rcases List.mem_cons.mp member with rfl | other
      · exact nofun
      · rw [List.mem_singleton.mp other]
        trivial
  · have all : (ran calmSteps).covered (.file 1) = (ran calmSteps).queue.length := by decide +kernel
    change QuietFrom Message.object (ran calmSteps).queue (.file 1) ((ran calmSteps).covered (.file 1))
    rw [all]
    exact quietFrom_length

end OtterWorks.Search
