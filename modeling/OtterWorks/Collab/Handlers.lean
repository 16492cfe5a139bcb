import OtterWorks.Collab.Manager
import OtterWorks.Collab.Saves

namespace OtterWorks.Collab

section Handlers

variable {c : CollaborationManager}

open CollaborationManager

@[simp] theorem removeUser_docs (s : SocketId) : (c.removeUser s).docs = c.docs := by
  unfold removeUser
  split
  next => rfl
  next => rfl

@[simp] theorem evictUser_docs (s : SocketId) : (c.evictUser s).docs = c.docs := by
  unfold evictUser
  split
  next => rfl
  next =>
    split
    next => exact removeUser_docs s
    next => exact removeUser_docs s

theorem evictUsers_docs (stale : List SocketId) : (stale.foldl evictUser c).docs = c.docs := by
  induction stale generalizing c with
  | nil => rfl
  | cons s stale ih =>
    rw [List.foldl_cons, ih]
    exact evictUser_docs s

/-- What holds of the documents and is kept when one is saved, loaded and cleaned up is kept by every handler. -/
structure DocsRule (P : Docs → Prop) : Prop where
  persistAndCleanupDocument : ∀ docs d, P docs → P (docs.persistAndCleanupDocument d)
  saveDocument : ∀ docs d, P docs → P (docs.saveDocument d)
  applyUpdate : ∀ docs d u, P docs → P (docs.applyUpdate d u)
  getOrCreateDoc : ∀ docs d, P docs → P (docs.getOrCreateDoc d).1
  resumeLoad : ∀ docs y, P docs → P (docs.resumeLoad y)
  execute : ∀ docs outcome, P docs → P (docs.execute outcome)

namespace DocsRule

variable {P : Docs → Prop}

theorem cleanupIfEmpty (rule : DocsRule P) (d : DocumentId) (h : P c.docs) : P (c.cleanupIfEmpty d).docs := by
  unfold CollaborationManager.cleanupIfEmpty
  split
  next => exact rule.persistAndCleanupDocument _ d h
  next => exact h

theorem cleanups (rule : DocsRule P) (ds : List DocumentId) (h : P c.docs) :
    P (ds.foldl CollaborationManager.cleanupIfEmpty c).docs := by
  induction ds generalizing c with
  | nil => exact h
  | cons d ds ih => exact ih (rule.cleanupIfEmpty d h)

theorem switchOut (rule : DocsRule P) (s : SocketId) (d : DocumentId) (h : P c.docs) : P (c.switchOut s d).docs := by
  unfold CollaborationManager.switchOut
  split
  next =>
    split
    next =>
      apply rule.cleanupIfEmpty
      rw [removeUser_docs]
      exact h
    next => exact h
  next => exact h

/-- Every step but that of a save that goes on. -/
theorem step (rule : DocsRule P) {event : Event} (other : ∀ i, event ≠ .resumeSave i) (h : P c.docs) :
    P (c.step event).docs := by
  cases event with
  | connect s =>
    simp only [CollaborationManager.step]
    split
    next => exact h
    next => exact h
  | joinDocument s d =>
    simp only [CollaborationManager.step]
    split
    next => exact rule.switchOut s d h
    next => exact h
  | leaveDocument s d =>
    simp only [CollaborationManager.step, handleLeaveDocument]
    split
    next =>
      apply rule.cleanupIfEmpty
      show P (c.removeUser s).docs
      rw [removeUser_docs]
      exact h
    next => exact h
  | documentUpdate s d update =>
    simp only [CollaborationManager.step]
    split
    next =>
      cases update with
      | yjs u => exact rule.applyUpdate _ d u h
      | malformed => exact h
      | json => exact rule.saveDocument _ d h
    next => exact h
  | disconnect s =>
    simp only [CollaborationManager.step, handleDisconnect]
    split
    next =>
      split
      next => exact h
      next =>
        apply rule.cleanupIfEmpty
        rw [removeUser_docs]
        exact h
    next => exact h
  | evict stale =>
    apply rule.cleanups
    rw [evictUsers_docs]
    exact h
  | periodicSave d => exact rule.saveDocument _ d h
  | resumeJoin i =>
    simp only [CollaborationManager.step, resumeJoin]
    split
    next => exact h
    next j _ =>
      split
      next => exact rule.getOrCreateDoc _ _ h
      next =>
        split
        next => exact h
        next => exact h
        next => exact h
      next => exact h
  | resumeLoad y => exact rule.resumeLoad _ y h
  | resumeSave i => exact absurd rfl (other i)
  | execute outcome => exact rule.execute _ outcome h

end DocsRule

end Handlers

theorem start_load_inv {redis : DocumentId → Finset Update} {created : DocumentId → Bool} :
    LoadInv (CollaborationManager.start redis created).docs := by
  refine ⟨?_, ?_, ?_⟩
  · intro d y pending
    cases pending
  · intro y doc there
    cases there
  · intro d y live
    cases live

end OtterWorks.Collab
