import OtterWorks.Collab.Handlers
import OtterWorks.Collab.Replies
import OtterWorks.Lib.Transition

namespace OtterWorks.Collab

/-- What a document that is removed has been edited since its cleanup encoded it has been written. -/
def EditsCovered (c : CollaborationManager) : Event → Prop
  | .resumeSave i => c.docs.EditsWritten i c.noUsers
  | _ => True

section Steps

variable {c : CollaborationManager}

theorem storeRule : DocsRule fun docs => StoreInv docs ∧ docs.Kept where
  persistAndCleanupDocument _ d h := ⟨h.1.persistAndCleanupDocument d, h.2.persistAndCleanupDocument d⟩
  saveDocument _ d h := ⟨h.1.saveDocument d, h.2.saveDocument d⟩
  applyUpdate _ d u h := ⟨h.1.applyUpdate d u, h.2.applyUpdate d u⟩
  getOrCreateDoc _ d h := ⟨h.1.getOrCreateDoc d, h.2.getOrCreateDoc d⟩
  resumeLoad _ y h := ⟨h.1.resumeLoad y, h.2.resumeLoad y⟩
  execute _ outcome h := ⟨h.1.execute h.2 outcome, h.2.execute h.1 outcome⟩

theorem step_store_inv (event : Event) (inv : StoreInv c.docs) (kept : c.docs.Kept) : StoreInv (c.step event).docs := by
  by_cases save : ∃ i, event = .resumeSave i
  · obtain ⟨i, isSave⟩ := save
    rw [isSave]
    exact inv.resumeSave i c.noUsers
  · exact (storeRule.step (fun i isSave => save ⟨i, isSave⟩) ⟨inv, kept⟩).1

theorem step_kept_iff (event : Event) (inv : StoreInv c.docs) (kept : c.docs.Kept) :
    (c.step event).docs.Kept ↔ EditsCovered c event := by
  by_cases save : ∃ i, event = .resumeSave i
  · obtain ⟨i, isSave⟩ := save
    rw [isSave]
    exact resumeSave_kept_iff inv kept
  · have after := (storeRule.step (fun i isSave => save ⟨i, isSave⟩) ⟨inv, kept⟩).2
    cases event with
    | resumeSave i => exact absurd ⟨i, rfl⟩ save
    | _ => exact ⟨fun _ => trivial, fun _ => after⟩

end Steps

section Runs

variable {redis : DocumentId → Finset Update} {created : DocumentId → Bool}

theorem start_store_inv : StoreInv (CollaborationManager.start redis created).docs := by
  refine ⟨start_load_inv, ⟨?_, ?_, ?_, ?_, fun d => subset_refl _, ?_, ?_, List.Pairwise.nil, ?_, ?_, ?_,
    fun d _ => subset_refl _, ?_⟩⟩
  · intro d y live
    cases live
  · intro y doc v there
    cases there
  · intro i j d S T key
    cases key
  · intro i d S key
    cases key
  · intro i command queued
    cases queued
  · intro i d S queued
    cases queued
  · intro d k stored
    cases stored
  · intro i a there
    cases there
  · intro i a command queued
    cases queued
  · intro d l u last
    cases last

/-- No edit is lost in a run exactly if, whenever a cleanup removes a document, what was edited since it encoded the
document has been written. -/
theorem edits_kept_iff (events : List Event) :
    (∀ n, ((events.take n).foldl CollaborationManager.step (.start redis created)).docs.Kept) ↔
      ∀ n event, events[n]? = some event →
        EditsCovered ((events.take n).foldl CollaborationManager.step (.start redis created)) event := by
  have start : (CollaborationManager.start redis created).docs.Kept := fun d _ => subset_refl _
  have run := @foldl_always_iff_with _ _ CollaborationManager.step (fun c => c.docs.Kept) EditsCovered
    (fun c => StoreInv c.docs) (fun c event inv kept => step_store_inv event inv kept)
    (fun c event inv kept => step_kept_iff event inv kept) (.start redis created) start_store_inv events
  rw [run]
  exact ⟨fun h => h.2, fun h => ⟨start, h⟩⟩

end Runs

/-- A command of save `i` is executed and its reply is read. -/
def answered (i : Nat) : List Event := [.execute .ok, .resumeSave i]

/-- Socket 1 edits and leaves. While its cleanup saves the document, socket 2 joins, makes an edit whose save fails,
and leaves; the cleanup of its leave is skipped, and the first cleanup removes the document. -/
def editDuringCleanup : List Event :=
  [.connect 1, .connect 2, .joinDocument 1 "d", .resumeJoin 0, .execute .ok, .resumeLoad 0, .resumeJoin 0,
    .documentUpdate 1 "d" (.yjs 10), .execute .ok, .leaveDocument 1 "d"] ++
  answered 1 ++ answered 1 ++ answered 1 ++ answered 1 ++ answered 1 ++ answered 1 ++ answered 1 ++
  [.joinDocument 2 "d", .resumeJoin 1, .resumeJoin 1, .execute .ok, .documentUpdate 2 "d" (.yjs 20), .execute .failed,
    .leaveDocument 2 "d", .resumeSave 1]

/-- The document is gone from memory, and the second edit is not stored. -/
theorem edit_during_cleanup_is_lost :
    let c := editDuringCleanup.foldl CollaborationManager.step (.start (fun _ => ∅) fun _ => false)
    c.docs.documents "d" = none ∧ 20 ∈ c.docs.edits "d" ∧ 20 ∉ c.docs.redis "d" := by
  decide

end OtterWorks.Collab
