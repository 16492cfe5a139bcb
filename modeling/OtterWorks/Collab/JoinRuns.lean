import OtterWorks.Collab.Attachment
import OtterWorks.Collab.Replies
import OtterWorks.Lib.Transition

namespace OtterWorks.Collab

/-- A handler of the socket waits: its joins are the handlers that have something to do after a wait. -/
def Suspended (c : CollaborationManager) (s : SocketId) : Prop :=
  ∃ j ∈ c.joins, j.socketId = s ∧ j.stage.suspended = true

def LastJoinSucceeded (c : CollaborationManager) (s : SocketId) : Prop :=
  ∃ (i : Nat) (j : Join), c.lastJoin s = some i ∧ c.joins[i]? = some j ∧ j.stage = .finished true

/-- A socket none of whose handlers waits is registered for the document whose room it is in and which it has joined
last, and the manager holds the document it was sent, so that what it sends is applied to that one. -/
structure Attached (c : CollaborationManager) : Prop where
  agree : ∀ (s : SocketId) (d : DocumentId), s ∈ c.users d ↔ c.socketToDocument s = some d
  registered_iff : ∀ s : SocketId, ¬ Suspended c s → ∀ d : DocumentId,
    s ∈ c.users d ↔ c.status s = .connected ∧ (s, d) ∈ c.rooms ∧ LastJoinSucceeded c s
  live : ∀ s : SocketId, ¬ Suspended c s → ∀ d : DocumentId, s ∈ c.users d →
    ∃ y, c.docs.documents d = some y ∧ c.sent s = some y
  applied : ∀ s : SocketId, ¬ Suspended c s → ∀ d : DocumentId, s ∈ c.users d → ∀ u : Update,
    ∃ y doc, c.sent s = some y ∧ (c.step (.documentUpdate s d (.yjs u))).docs.documents d = some y ∧
      (c.step (.documentUpdate s d (.yjs u))).docs.instances[y]? = some doc ∧ u ∈ doc.updates

/-- The join that goes on with its document, the document and the end of its load. -/
def CollaborationManager.resumed (c : CollaborationManager) : Event → Option (Join × Nat × LoadStage)
  | .resumeJoin i =>
    match c.joins[i]? with
    | some ⟨s, d, .awaiting y⟩ => c.docs.instances[y]?.map fun doc => (⟨s, d, .awaiting y⟩, y, doc.load)
    | _ => none
  | _ => none

/-- A join that has its document finds its socket connected, in the room and not registered elsewhere, with no later
join that has failed, and the document still the one of the manager; a join that fails finds it not registered. -/
def JoinsUndisturbed (c : CollaborationManager) (event : Event) : Prop :=
  ∀ r ∈ c.resumed event,
    (r.2.2 = .ready → c.status r.1.socketId = .connected ∧ (r.1.socketId, r.1.documentId) ∈ c.rooms ∧
      c.docs.documents r.1.documentId = some r.2.1 ∧ (∀ e ∈ c.socketToDocument r.1.socketId, e = r.1.documentId) ∧
      ∀ k ∈ c.lastJoin r.1.socketId, ∀ j ∈ c.joins[k]?, j.stage ≠ .finished false) ∧
    (r.2.2 = .failed → c.socketToDocument r.1.socketId = none)

instance (c : CollaborationManager) (event : Event) : Decidable (JoinsUndisturbed c event) := by
  unfold JoinsUndisturbed
  infer_instance

section Documents

variable {c : Docs}

theorem saveDocument_documents (d : DocumentId) : (c.saveDocument d).documents = c.documents := by
  unfold Docs.saveDocument
  split
  next => rfl
  next => rfl

theorem persistAndCleanupDocument_documents (d : DocumentId) :
    (c.persistAndCleanupDocument d).documents = c.documents := by
  unfold Docs.persistAndCleanupDocument
  split
  next => rfl
  next =>
    split
    next => rfl
    next => rfl

theorem applyUpdate_documents (d : DocumentId) (u : Update) : (c.applyUpdate d u).documents = c.documents := by
  unfold Docs.applyUpdate
  split
  next => rfl
  next =>
    split
    next => rfl
    next => rfl

theorem getOrCreateDoc_documents (d : DocumentId) : (c.getOrCreateDoc d).1.documents = c.documents := by
  unfold Docs.getOrCreateDoc
  split
  next => rfl
  next =>
    split
    next => rfl
    next => rfl

theorem execute_documents (outcome : Outcome) : (c.execute outcome).documents = c.documents := by
  cases queue : c.queue with
  | nil =>
    unfold Docs.execute
    rw [queue]
  | cons op rest =>
    cases op with
    | load y =>
      unfold Docs.execute
      rw [queue]
      dsimp only
      split
      next => rfl
      next => rfl
    | save i command =>
      cases there : c.saves[i]? with
      | none =>
        unfold Docs.execute
        rw [queue]
        dsimp only
        rw [there]
      | some a =>
        rw [execute_save outcome queue there]
        split
        next => rfl
        next => cases command <;> rfl

/-- A load puts a document in memory that was not there. -/
theorem LoadInv.resumeLoad_documents (loads : LoadInv c) (y : Nat) {d : DocumentId} {z : Nat}
    (live : c.documents d = some z) : (c.resumeLoad y).documents d = some z := by
  unfold Docs.resumeLoad
  split
  next e updates state there =>
    obtain ⟨pending, _⟩ := loads.waiting y _ there rfl
    have apart : d ≠ e := by
      intro here
      have absent := loads.absent e y pending
      rw [← here, live] at absent
      cases absent
    show Function.update c.documents e (some y) d = some z
    rw [Function.update_of_ne apart]
    exact live
  next => exact live
  next => exact live

/-- But for the end of a cleanup, what is in memory stays there. -/
theorem stayRule (documents : DocumentId → Option Nat) :
    DocsRule fun c => LoadInv c ∧ ∀ d y, documents d = some y → c.documents d = some y where
  persistAndCleanupDocument c d h := by
    refine ⟨h.1.persistAndCleanupDocument d, ?_⟩
    rw [persistAndCleanupDocument_documents]
    exact h.2
  saveDocument c d h := by
    refine ⟨h.1.saveDocument d, ?_⟩
    rw [saveDocument_documents]
    exact h.2
  applyUpdate c d u h := by
    refine ⟨h.1.applyUpdate d u, ?_⟩
    rw [applyUpdate_documents]
    exact h.2
  getOrCreateDoc c d h := by
    refine ⟨h.1.getOrCreateDoc d, ?_⟩
    rw [getOrCreateDoc_documents]
    exact h.2
  resumeLoad c y h := ⟨h.1.resumeLoad y, fun d z live => h.1.resumeLoad_documents y (h.2 d z live)⟩
  execute c outcome h := by
    refine ⟨h.1.execute outcome, ?_⟩
    rw [execute_documents]
    exact h.2

end Documents

section Steps

variable {c : CollaborationManager}

open CollaborationManager

theorem JoinInv.cleanupIfEmpty (inv : JoinInv c) (d : DocumentId) : JoinInv (c.cleanupIfEmpty d) := by
  unfold CollaborationManager.cleanupIfEmpty
  split
  next =>
    apply inv.withDocs
    intro s e y _ live
    rw [persistAndCleanupDocument_documents]
    exact live
  next => exact inv

theorem JoinInv.evictUser (inv : JoinInv c) (s : SocketId) : JoinInv (c.evictUser s) := by
  unfold CollaborationManager.evictUser
  split
  next => exact inv
  next d here =>
    have connected := (inv.registered s d here).1
    rw [if_pos connected, JoinInv.removeUser_leaveRoom]
    exact inv.detach here

theorem JoinInv.evict (inv : JoinInv c) (stale : List SocketId) : JoinInv (c.evict stale) := by
  have users : ∀ (stale : List SocketId) {c : CollaborationManager}, JoinInv c →
      JoinInv (stale.foldl CollaborationManager.evictUser c) := by
    intro stale
    induction stale with
    | nil => exact fun inv => inv
    | cons s stale ih => exact fun inv => ih (inv.evictUser s)
  have cleanups : ∀ (ds : List DocumentId) {c : CollaborationManager}, JoinInv c →
      JoinInv (ds.foldl CollaborationManager.cleanupIfEmpty c) := by
    intro ds
    induction ds with
    | nil => exact fun inv => inv
    | cons d ds ih => exact fun inv => ih (inv.cleanupIfEmpty d)
  exact cleanups _ (users stale inv)

theorem JoinInv.switchOut (inv : JoinInv c) (s : SocketId) (d : DocumentId) : JoinInv (c.switchOut s d) := by
  unfold CollaborationManager.switchOut
  split
  next old here =>
    have registered : c.socketToDocument s = some old := (Option.filter_eq_some_iff.mp here).1
    split
    next => exact (inv.detach registered).cleanupIfEmpty old
    next => exact inv
  next => exact inv

theorem cleanupIfEmpty_status (d : DocumentId) : (c.cleanupIfEmpty d).status = c.status := by
  unfold CollaborationManager.cleanupIfEmpty
  split
  next => rfl
  next => rfl

theorem removeUser_status (s : SocketId) : (c.removeUser s).status = c.status := by
  unfold removeUser
  split
  next => rfl
  next => rfl

theorem switchOut_status (s : SocketId) (d : DocumentId) : (c.switchOut s d).status = c.status := by
  unfold CollaborationManager.switchOut
  split
  next =>
    split
    next =>
      rw [cleanupIfEmpty_status, removeUser_status]
      rfl
    next => rfl
  next => rfl

theorem JoinInv.disconnect (inv : JoinInv c) (s : SocketId) : JoinInv (c.handleDisconnect s) := by
  unfold handleDisconnect
  cases here : c.socketToDocument s with
  | none => exact inv.close here
  | some d =>
    have detached := inv.detach here
    rw [removeUser_of (c := c.leaveRoom s d) here] at detached
    have closed := detached.close (s := s) (Function.update_self ..)
    have rooms : (c.rooms.filter (· ≠ (s, d))).filter (·.1 ≠ s) = c.rooms.filter (·.1 ≠ s) := by
      rw [List.filter_filter]
      apply List.filter_congr
      intro p _
      by_cases same : p.1 = s
      · simp [same]
      · have apart : p ≠ (s, d) := by
          intro eq
          rw [eq] at same
          exact same rfl
        simp [same, apart]
    unfold CollaborationManager.leaveRoom at closed
    dsimp only at closed ⊢
    rw [rooms] at closed
    apply JoinInv.cleanupIfEmpty
    rw [removeUser_of (d := d) (by exact here)]
    exact closed

theorem JoinInv.leave (inv : JoinInv c) (s : SocketId) (d : DocumentId) : JoinInv (c.handleLeaveDocument s d) := by
  unfold handleLeaveDocument
  dsimp only
  apply JoinInv.cleanupIfEmpty
  rw [JoinInv.removeUser_leaveRoom]
  cases here : c.socketToDocument s with
  | some e => exact inv.detach here
  | none =>
    have left := inv.leaveRoom here d
    have same : (c.leaveRoom s d).removeUser s = c.leaveRoom s d := by
      unfold removeUser
      have absent : (c.leaveRoom s d).socketToDocument s = none := here
      rw [absent]
    rw [Option.getD_none, same]
    exact left

/-- The documents with users stay through every step but the end of a cleanup, which finds no user. -/
theorem step_stays (inv : JoinInv c) (loads : LoadInv c.docs) (event : Event) :
    LoadInv (c.step event).docs ∧ ∀ s d y, c.socketToDocument s = some d → c.docs.documents d = some y →
      (c.step event).docs.documents d = some y := by
  by_cases save : ∃ i, event = .resumeSave i
  · obtain ⟨i, isSave⟩ := save
    rw [isSave]
    refine ⟨loads.resumeSave i c.noUsers, ?_⟩
    intro s d y registered live
    show (c.docs.resumeSave i c.noUsers).documents d = some y
    rw [resumeSave_documents]
    split
    next e removes =>
      obtain ⟨_, _, _, _, _, empty⟩ := removes_some removes
      have apart : d ≠ e := by
        intro here
        have user := (inv.agree s d).mpr registered
        have none : c.users e = [] := by simpa [noUsers, getDocumentUserCount] using empty
        rw [here, none] at user
        cases user
      rw [Function.update_of_ne apart]
      exact live
    next => exact live
  · have stay := (stayRule c.docs.documents).step (fun i isSave => save ⟨i, isSave⟩) ⟨loads, fun d y live => live⟩
    exact ⟨stay.1, fun s d y _ live => stay.2 d y live⟩

theorem JoinInv.resumeJoin (inv : JoinInv c) {i : Nat} (clean : JoinsUndisturbed c (.resumeJoin i)) :
    JoinInv (c.resumeJoin i) := by
  unfold CollaborationManager.resumeJoin
  split
  next => exact inv
  next j there =>
    obtain ⟨s, d, stage⟩ := j
    cases stage with
    | joined =>
      have waits : JoinInv (c.setStage i ⟨s, d, .joined⟩ (.awaiting (c.docs.getOrCreateDoc d).2)) := inv.wait there rfl
      apply waits.withDocs
      intro t e y _ live
      show (c.docs.getOrCreateDoc d).1.documents e = some y
      rw [getOrCreateDoc_documents]
      exact live
    | finished success => exact inv
    | awaiting y =>
      dsimp only
      have asked : ∀ doc, c.docs.instances[y]? = some doc →
          c.resumed (.resumeJoin i) = some (⟨s, d, .awaiting y⟩, y, doc.load) := by
        intro doc instance_
        unfold resumed
        dsimp only
        rw [there]
        dsimp only
        rw [instance_]
        rfl
      split
      next e updates instance_ =>
        obtain ⟨connected, room, live, single, fine⟩ := (clean _ (asked _ instance_)).1 rfl
        exact inv.register there connected room live (fun e he => single e he) fun k j' hk hj => fine k hk j' hj
      next e updates instance_ => exact inv.fail there ((clean _ (asked _ instance_)).2 rfl)
      next => exact inv

theorem step_join_inv (inv : JoinInv c) (loads : LoadInv c.docs) {event : Event} (clean : JoinsUndisturbed c event) :
    JoinInv (c.step event) := by
  have stays := (step_stays inv loads event).2
  cases event with
  | connect s =>
    simp only [CollaborationManager.step]
    split
    next => exact inv.connect s
    next => exact inv
  | joinDocument s d =>
    simp only [CollaborationManager.step]
    split
    next connected =>
      have switched := inv.switchOut s d
      apply switched.join
      rw [switchOut_status]
      exact connected
    next => exact inv
  | leaveDocument s d =>
    simp only [CollaborationManager.step]
    split
    next => exact inv.leave s d
    next => exact inv
  | documentUpdate s d update =>
    simp only [CollaborationManager.step] at stays ⊢
    split
    next connected =>
      rw [if_pos connected] at stays
      cases update with
      | yjs u => exact inv.withDocs stays
      | malformed => exact inv
      | json => exact inv.withDocs stays
    next => exact inv
  | disconnect s =>
    simp only [CollaborationManager.step]
    split
    next => exact inv.disconnect s
    next => exact inv
  | evict stale => exact inv.evict stale
  | periodicSave d => exact inv.withDocs stays
  | resumeJoin i => exact inv.resumeJoin clean
  | resumeLoad y => exact inv.withDocs stays
  | resumeSave i => exact inv.withDocs stays
  | execute outcome => exact inv.withDocs stays

/-- An update for a document in memory is applied to it. -/
theorem applyUpdate_applied {docs : Docs} (loads : LoadInv docs) {d : DocumentId} {y : Nat}
    (live : docs.documents d = some y) (u : Update) :
    ∃ doc, (docs.applyUpdate d u).instances[y]? = some doc ∧ u ∈ doc.updates := by
  obtain ⟨doc, there, _⟩ := loads.present d y live
  unfold Docs.applyUpdate
  rw [live]
  dsimp only
  rw [there]
  exact ⟨_, getElem?_set_here there, Finset.mem_insert_self u doc.updates⟩

theorem JoinInv.attached (inv : JoinInv c) (loads : LoadInv c.docs) : Attached c := by
  have live : ∀ s : SocketId, ∀ d : DocumentId, s ∈ c.users d →
      ∃ y, c.docs.documents d = some y ∧ c.sent s = some y := by
    intro s d user
    exact (inv.registered s d ((inv.agree s d).mp user)).2.2.1
  refine ⟨inv.agree, ?_, fun s _ => live s, ?_⟩
  · intro s idle d
    have finished : ∀ (i : Nat) (j : Join), c.joins[i]? = some j → j.socketId = s → j.stage.suspended = false := by
      intro i j there socket
      by_contra waits
      exact idle ⟨j, List.mem_of_getElem? there, socket, by simpa using waits⟩
    constructor
    · intro user
      obtain ⟨connected, room, _, i, j, last, there, notFailed⟩ := inv.registered s d ((inv.agree s d).mp user)
      refine ⟨connected, room, i, j, last, there, ?_⟩
      obtain ⟨j', here, socket⟩ := inv.last s i last
      cases Option.some.inj (there.symm.trans here)
      have ended := finished i j there socket
      cases stage : j.stage with
      | joined =>
        rw [stage] at ended
        cases ended
      | awaiting y =>
        rw [stage] at ended
        cases ended
      | finished success =>
        cases success with
        | true => rfl
        | false => exact absurd stage notFailed
    · intro h
      obtain ⟨_, room, _⟩ := h
      obtain ⟨_, why⟩ := inv.room s d room
      rcases why with registered | ⟨i, j, there, socket, _, waits⟩
      · exact (inv.agree s d).mpr registered
      · rw [finished i j there socket] at waits
        cases waits
  · intro s _ d user u
    obtain ⟨y, isLive, sent⟩ := live s d user
    obtain ⟨connected, _⟩ := inv.registered s d ((inv.agree s d).mp user)
    obtain ⟨doc, there, mem⟩ := applyUpdate_applied loads isLive u
    have after : (c.step (.documentUpdate s d (.yjs u))).docs = c.docs.applyUpdate d u := by
      simp only [CollaborationManager.step, connected, ↓reduceIte, handleDocumentUpdate]
    rw [after, applyUpdate_documents]
    exact ⟨y, doc, sent, isLive, there, mem⟩

end Steps

section Runs

variable {redis : DocumentId → Finset Update} {created : DocumentId → Bool}

theorem start_join_inv : JoinInv (.start redis created) := by
  refine ⟨?_, ?_, ?_, ?_, ?_⟩
  · intro s d
    constructor
    · intro user
      cases user
    · intro registered
      cases registered
  · intro s d room
    cases room
  · intro s d registered
    cases registered
  · intro s i last
    cases last
  · intro i j there
    cases there

/-- In a run whose joins go on undisturbed every joined collaborator is attached to the document in memory. -/
theorem collaborators_attached (events : List Event)
    (undisturbed : ∀ n event, events[n]? = some event →
      JoinsUndisturbed ((events.take n).foldl CollaborationManager.step (.start redis created)) event) (n : Nat) :
    Attached ((events.take n).foldl CollaborationManager.step (.start redis created)) := by
  have step : ∀ (c : CollaborationManager) (event : Event), JoinsUndisturbed c event → JoinInv c ∧ LoadInv c.docs →
      JoinInv (c.step event) ∧ LoadInv (c.step event).docs := fun c event clean inv =>
    ⟨step_join_inv inv.1 inv.2 clean, (step_stays inv.1 inv.2 event).1⟩
  have inv := foldl_always_of step ⟨start_join_inv, start_load_inv⟩ events undisturbed n
  exact inv.1.attached inv.2

end Runs

/-- One socket leaves while the other's join waits for the document, whose save it sets off; then the other leaves while
the first one's next document loads. -/
def overlappingJoins : List Event :=
  [.connect 1, .connect 2, .joinDocument 1 "d", .resumeJoin 0, .execute .ok, .resumeLoad 0, .resumeJoin 0,
    .joinDocument 2 "d", .resumeJoin 1, .leaveDocument 1 "d", .evict [1], .resumeJoin 1, .execute .ok, .resumeSave 0,
    .joinDocument 1 "e", .resumeJoin 2, .leaveDocument 2 "d", .execute .ok, .execute .ok, .resumeSave 1, .resumeLoad 1,
    .resumeJoin 2]

theorem overlapping_joins_attached :
    (∀ n, Attached ((overlappingJoins.take n).foldl CollaborationManager.step (.start (fun _ => ∅) fun _ => false))) ∧
      (overlappingJoins.foldl CollaborationManager.step (.start (fun _ => ∅) fun _ => false)).users "e" = [1] := by
  refine ⟨collaborators_attached overlappingJoins ?_, by decide⟩
  rw [forall_getElem?_iff]
  decide

/-- The socket disconnects while its join waits for the document to be loaded. -/
def disconnectDuringJoin : List Event :=
  [.connect 1, .joinDocument 1 "d", .resumeJoin 0, .disconnect 1, .execute .ok, .resumeLoad 0, .resumeJoin 0]

/-- No handler waits any more, and the closed socket is registered. -/
theorem disconnect_during_join_registers :
    let c := disconnectDuringJoin.foldl CollaborationManager.step (.start (fun _ => ∅) fun _ => false)
    c.joins.map Join.stage = [.finished true] ∧ c.users "d" = [1] ∧ c.status 1 = .closed ∧ ¬ Attached c := by
  have closed : (disconnectDuringJoin.foldl CollaborationManager.step
      (.start (fun _ => ∅) fun _ => false)).status 1 ≠ .connected := by decide
  have user : 1 ∈ (disconnectDuringJoin.foldl CollaborationManager.step
      (.start (fun _ => ∅) fun _ => false)).users "d" := by decide
  have finished : ∀ j ∈ (disconnectDuringJoin.foldl CollaborationManager.step
      (.start (fun _ => ∅) fun _ => false)).joins, j.stage.suspended = false := by decide
  refine ⟨by decide, by decide, by decide, ?_⟩
  intro attached
  have idle : ¬ Suspended (disconnectDuringJoin.foldl CollaborationManager.step
      (.start (fun _ => ∅) fun _ => false)) 1 := by
    intro waits
    obtain ⟨j, mem, _, suspended⟩ := waits
    rw [finished j mem] at suspended
    cases suspended
  exact closed ((attached.registered_iff 1 idle "d").mp user).1

end OtterWorks.Collab
