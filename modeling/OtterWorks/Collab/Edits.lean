import OtterWorks.Collab.Saves

namespace OtterWorks.Collab

structure StoreInv (c : Docs) : Prop where
  loads : LoadInv c
  edits : EditInv c

section Saving

variable {c : Docs} {d : DocumentId}

theorem document_some {doc : YDoc} (h : c.document d = some doc) :
    ∃ y, c.documents d = some y ∧ c.instances[y]? = some doc := Option.bind_eq_some_iff.mp h

/-- What is in memory has the edits there are. -/
theorem EditInv.document (inv : EditInv c) {doc : YDoc} (h : c.document d = some doc) :
    doc.documentId = d ∧ doc.updates = c.edits d := by
  obtain ⟨y, live, there⟩ := document_some h
  obtain ⟨doc', here, isDoc, updates⟩ := inv.live d y live
  cases Option.some.inj (there.symm.trans here)
  exact ⟨isDoc, updates⟩

/-- The document in the map is one of the document, and is loaded. -/
theorem LoadInv.document (loads : LoadInv c) {y : Nat} {doc : YDoc} (live : c.documents d = some y)
    (there : c.instances[y]? = some doc) : doc.documentId = d ∧ doc.load.waiting = false := by
  obtain ⟨doc', here, isDoc⟩ := loads.present d y live
  cases Option.some.inj (there.symm.trans here)
  exact ⟨isDoc, loads.not_waiting live there isDoc⟩

theorem LoadInv.startSave (loads : LoadInv c) (d : DocumentId) (state : Finset Update) (cleanup : Bool) :
    LoadInv (c.startSave d state cleanup) := ⟨loads.absent, loads.waiting, loads.present⟩

theorem LoadInv.saveDocument (loads : LoadInv c) (d : DocumentId) : LoadInv (c.saveDocument d) := by
  unfold Docs.saveDocument
  split
  next => exact loads
  next => exact loads.startSave d _ _

theorem LoadInv.persistAndCleanupDocument (loads : LoadInv c) (d : DocumentId) :
    LoadInv (c.persistAndCleanupDocument d) := by
  unfold Docs.persistAndCleanupDocument
  split
  next => exact loads
  next =>
    split
    next => exact loads
    next => exact ⟨loads.absent, loads.waiting, loads.present⟩

/-- A document whose promise and place stay. -/
theorem LoadInv.set (loads : LoadInv c) {y : Nat} {old new : YDoc} (there : c.instances[y]? = some old)
    (isDoc : new.documentId = old.documentId) (waits : new.load.waiting = true → old.load.waiting = true)
    (same : new.load.waiting = true → new.updates = old.updates) :
    LoadInv { c with instances := c.instances.set y new } := by
  refine ⟨loads.absent, ?_, ?_⟩
  · intro z doc hz waiting
    rcases getElem?_of_set hz with ⟨place, here⟩ | ⟨_, other⟩
    · rw [here] at waiting ⊢
      obtain ⟨pending, empty⟩ := loads.waiting y old there (waits waiting)
      rw [isDoc, place, same waiting]
      exact ⟨pending, empty⟩
    · exact loads.waiting z doc other waiting
  · intro d z live
    obtain ⟨doc, here, isDoc'⟩ := loads.present d z live
    by_cases place : z = y
    · subst place
      cases Option.some.inj (there.symm.trans here)
      exact ⟨new, getElem?_set_here there, isDoc.trans isDoc'⟩
    · refine ⟨doc, ?_, isDoc'⟩
      rw [← here]
      exact List.getElem?_set_ne (Ne.symm place)

theorem LoadInv.applyUpdate (loads : LoadInv c) (d : DocumentId) (u : Update) : LoadInv (c.applyUpdate d u) := by
  unfold Docs.applyUpdate
  split
  next => exact loads
  next y live =>
    split
    next => exact loads
    next doc there =>
      obtain ⟨_, idle⟩ := loads.document live there
      have busy : ∀ {p : Prop}, doc.load.waiting = true → p := by
        intro p waits
        rw [idle] at waits
        cases waits
      have set : LoadInv { c with instances := c.instances.set y { doc with updates := insert u doc.updates } } :=
        loads.set there rfl (fun h => h) busy
      exact ⟨set.absent, set.waiting, set.present⟩

theorem StoreInv.startSave (inv : StoreInv c) {doc : YDoc} (h : c.document d = some doc) (cleanup : Bool) :
    StoreInv (c.startSave d doc.updates cleanup) := by
  obtain ⟨y, live, there⟩ := document_some h
  obtain ⟨_, updates⟩ := inv.edits.document h
  refine ⟨inv.loads.startSave d _ _, ?_⟩
  have saved := inv.edits.edited inv.loads live there (subset_refl (c.edits d)) (Or.inl ⟨rfl, rfl⟩) cleanup
  have same : c.instances.set y { doc with updates := c.edits d } = c.instances := by
    rw [← updates]
    exact set_of_getElem? there
  rw [same, Function.update_eq_self] at saved
  rw [updates]
  exact saved

theorem StoreInv.saveDocument (inv : StoreInv c) (d : DocumentId) : StoreInv (c.saveDocument d) := by
  unfold Docs.saveDocument
  split
  next => exact inv
  next doc h => exact inv.startSave h false

theorem StoreInv.persistAndCleanupDocument (inv : StoreInv c) (d : DocumentId) :
    StoreInv (c.persistAndCleanupDocument d) := by
  refine ⟨inv.loads.persistAndCleanupDocument d, ?_⟩
  unfold Docs.persistAndCleanupDocument
  split
  next => exact inv.edits
  next =>
    split
    next => exact inv.edits
    next doc h =>
      have edits := (inv.startSave h true).edits
      exact ⟨edits.live, edits.loaded, edits.grown, edits.within, edits.redisWithin,
        edits.bounded, edits.queued, edits.order, edits.stored, edits.own, edits.ownQueue, edits.unedited, edits.last⟩

theorem StoreInv.applyUpdate (inv : StoreInv c) (d : DocumentId) (u : Update) : StoreInv (c.applyUpdate d u) := by
  refine ⟨inv.loads.applyUpdate d u, ?_⟩
  unfold Docs.applyUpdate
  split
  next => exact inv.edits
  next y live =>
    split
    next => exact inv.edits
    next doc there =>
      have here : c.document d = some doc := by
        unfold Docs.document
        rw [live]
        exact there
      obtain ⟨isDoc, updates⟩ := inv.edits.document here
      rw [updates]
      apply inv.edits.edited inv.loads live there (Finset.subset_insert u (c.edits d))
      by_cases known : u ∈ c.edits d
      · rw [if_pos known]
        exact Or.inl ⟨Finset.insert_eq_of_mem known, rfl⟩
      · rw [if_neg known]
        exact Or.inr ⟨u, Finset.mem_insert_self u (c.edits d), known, rfl⟩

theorem Docs.Kept.saveDocument (kept : c.Kept) (d : DocumentId) : (c.saveDocument d).Kept := by
  unfold Docs.saveDocument
  split
  next => exact kept
  next => exact kept

theorem Docs.Kept.persistAndCleanupDocument (kept : c.Kept) (d : DocumentId) :
    (c.persistAndCleanupDocument d).Kept := by
  unfold Docs.persistAndCleanupDocument
  split
  next => exact kept
  next =>
    split
    next => exact kept
    next => exact kept

/-- Only what is in memory is edited. -/
theorem Docs.Kept.applyUpdate (kept : c.Kept) (d : DocumentId) (u : Update) : (c.applyUpdate d u).Kept := by
  unfold Docs.applyUpdate
  split
  next => exact kept
  next y live =>
    split
    next => exact kept
    next =>
      intro e absent
      change c.documents e = none at absent
      have apart : e ≠ d := by
        intro here
        rw [here, live] at absent
        cases absent
      show Function.update c.edits d _ e ⊆ c.redis e
      rw [Function.update_of_ne apart]
      exact kept e absent

end Saving

section Loading

variable {c : Docs}

theorem LoadInv.getOrCreateDoc (loads : LoadInv c) (d : DocumentId) : LoadInv (c.getOrCreateDoc d).1 := by
  unfold Docs.getOrCreateDoc
  split
  next => exact loads
  next absent =>
    split
    next => exact loads
    next idle =>
      refine ⟨?_, ?_, ?_⟩
      · intro e y hy
        change Function.update c.documentInitPromises d (some c.instances.length) e = some y at hy
        by_cases here : e = d
        · rw [here]
          exact absent
        · rw [Function.update_of_ne here] at hy
          exact loads.absent e y hy
      · intro y doc hy waits
        show Function.update c.documentInitPromises d (some c.instances.length) doc.documentId = some y ∧ _
        rcases getElem?_of_concat hy with ⟨place, new⟩ | old
        · rw [new, place]
          exact ⟨Function.update_self .., rfl⟩
        · obtain ⟨pending, empty⟩ := loads.waiting y doc old waits
          have apart : doc.documentId ≠ d := by
            intro here
            rw [here, idle] at pending
            cases pending
          rw [Function.update_of_ne apart]
          exact ⟨pending, empty⟩
      · intro e y live
        obtain ⟨doc, there, isDoc⟩ := loads.present e y live
        exact ⟨doc, getElem?_concat_of there _, isDoc⟩

theorem StoreInv.getOrCreateDoc (inv : StoreInv c) (d : DocumentId) : StoreInv (c.getOrCreateDoc d).1 := by
  refine ⟨inv.loads.getOrCreateDoc d, ?_⟩
  have edits := inv.edits
  unfold Docs.getOrCreateDoc
  split
  next => exact edits
  next =>
    split
    next => exact edits
    next =>
      refine ⟨?_, ?_, edits.grown, edits.within, edits.redisWithin, ?_, ?_, ?_, ?_, edits.own, ?_, edits.unedited,
        edits.last⟩
      · intro e y live
        obtain ⟨doc, there, same⟩ := edits.live e y live
        exact ⟨doc, getElem?_concat_of there _, same⟩
      · intro y doc v hy replied
        rcases getElem?_of_concat hy with ⟨_, new⟩ | old
        · rw [new] at replied
          cases replied
        · exact edits.loaded y doc v old replied
      · intro i command hi
        exact edits.bounded i command (by simpa using hi)
      · intro i e S hi key
        exact edits.queued i e S (by simpa using hi) key
      · show (c.queue ++ [Operation.load c.instances.length]).Pairwise _
        rw [List.pairwise_append]
        refine ⟨edits.order, List.pairwise_singleton .., ?_⟩
        intro a _ b hb i j _ isJ
        rw [List.mem_singleton] at hb
        rw [hb] at isJ
        cases isJ
      · intro e k hk
        obtain ⟨key, later⟩ := edits.stored e k hk
        exact ⟨key, fun i hi => later i (by simpa using hi)⟩
      · intro i a command hi other hs
        exact edits.ownQueue i a command (by simpa using hi) other hs

theorem Docs.Kept.getOrCreateDoc (kept : c.Kept) (d : DocumentId) : (c.getOrCreateDoc d).1.Kept := by
  unfold Docs.getOrCreateDoc
  split
  next => exact kept
  next =>
    split
    next => exact kept
    next => exact kept

/-- A load that ends removes its promise, and puts its document in memory or not. -/
theorem LoadInv.ended (loads : LoadInv c) {y : Nat} {doc : YDoc} (there : c.instances[y]? = some doc)
    (waits : doc.load.waiting = true) {updates : Finset Update} {stage : LoadStage} (finished : stage.waiting = false)
    {documents : DocumentId → Option Nat}
    (others : ∀ e, documents e = c.documents e ∨ (e = doc.documentId ∧ documents e = some y)) :
    LoadInv { c with
      instances := c.instances.set y ⟨doc.documentId, updates, stage⟩
      documents := documents
      documentInitPromises := Function.update c.documentInitPromises doc.documentId none } := by
  obtain ⟨pending, _⟩ := loads.waiting y doc there waits
  refine ⟨?_, ?_, ?_⟩
  · intro e z hz
    change Function.update c.documentInitPromises doc.documentId none e = some z at hz
    have apart : e ≠ doc.documentId := by
      intro here
      rw [here, Function.update_self] at hz
      cases hz
    rw [Function.update_of_ne apart] at hz
    rcases others e with same | ⟨here, _⟩
    · exact same.trans (loads.absent e z hz)
    · exact absurd here apart
  · intro z doc' hz waits'
    show Function.update c.documentInitPromises doc.documentId none doc'.documentId = some z ∧ _
    rcases getElem?_of_set hz with ⟨_, new⟩ | ⟨other, old⟩
    · rw [new] at waits'
      rw [waits'] at finished
      cases finished
    · obtain ⟨pending', empty⟩ := loads.waiting z doc' old waits'
      have apart : doc'.documentId ≠ doc.documentId := by
        intro here
        rw [here, pending] at pending'
        exact other (Option.some.inj pending').symm
      rw [Function.update_of_ne apart]
      exact ⟨pending', empty⟩
  · intro e z hz
    change documents e = some z at hz
    rcases others e with same | ⟨here, loaded⟩
    · rw [same] at hz
      obtain ⟨doc', live, isDoc⟩ := loads.present e z hz
      by_cases place : z = y
      · subst place
        cases Option.some.inj (there.symm.trans live)
        exact ⟨_, getElem?_set_here there, isDoc⟩
      · refine ⟨doc', ?_, isDoc⟩
        rw [← live]
        exact List.getElem?_set_ne (Ne.symm place)
    · rw [loaded] at hz
      cases Option.some.inj hz
      exact ⟨_, getElem?_set_here there, here.symm⟩

theorem LoadInv.resumeLoad (loads : LoadInv c) (y : Nat) : LoadInv (c.resumeLoad y) := by
  unfold Docs.resumeLoad
  split
  next d updates state there =>
    refine loads.ended there rfl rfl ?_
    intro e
    by_cases here : e = d
    · rw [here, Function.update_self]
      exact Or.inr ⟨rfl, rfl⟩
    · rw [Function.update_of_ne here]
      exact Or.inl rfl
  next d updates there =>
    have finished : LoadStage.failed.waiting = false := rfl
    exact loads.ended there rfl finished fun e => Or.inl rfl
  next => exact loads

/-- A load that is answered has all the edits: the document is put in memory with them. -/
theorem StoreInv.resumeLoad (inv : StoreInv c) (y : Nat) : StoreInv (c.resumeLoad y) := by
  refine ⟨inv.loads.resumeLoad y, ?_⟩
  have edits := inv.edits
  unfold Docs.resumeLoad
  split
  next d updates state there =>
    obtain ⟨_, empty⟩ := inv.loads.waiting y _ there rfl
    change updates = ∅ at empty
    have complete : updates ∪ state = c.edits d := by
      rw [empty, Finset.empty_union]
      exact edits.loaded y _ state there rfl
    refine ⟨?_, ?_, edits.grown, edits.within, edits.redisWithin, edits.bounded, edits.queued, edits.order,
      edits.stored, edits.own, edits.ownQueue, edits.unedited, edits.last⟩
    · intro e z hz
      change Function.update c.documents d (some y) e = some z at hz
      by_cases here : e = d
      · subst here
        rw [Function.update_self] at hz
        cases Option.some.inj hz
        exact ⟨_, getElem?_set_here there, rfl, complete⟩
      · rw [Function.update_of_ne here] at hz
        obtain ⟨doc, live, isDoc, same⟩ := edits.live e z hz
        have apart : y ≠ z := by
          intro same
          subst same
          cases Option.some.inj (there.symm.trans live)
          exact here isDoc.symm
        refine ⟨doc, ?_, isDoc, same⟩
        rw [← live]
        exact List.getElem?_set_ne apart
    · intro z doc v hz replied
      rcases getElem?_of_set hz with ⟨_, new⟩ | ⟨_, old⟩
      · rw [new] at replied
        cases replied
      · exact edits.loaded z doc v old replied
  next d updates there =>
    refine ⟨?_, ?_, edits.grown, edits.within, edits.redisWithin, edits.bounded, edits.queued, edits.order,
      edits.stored, edits.own, edits.ownQueue, edits.unedited, edits.last⟩
    · intro e z hz
      obtain ⟨doc, live, isDoc, same⟩ := edits.live e z hz
      by_cases here : z = y
      · subst here
        cases Option.some.inj (there.symm.trans live)
        exact ⟨_, getElem?_set_here there, isDoc, same⟩
      · refine ⟨doc, ?_, isDoc, same⟩
        rw [← live]
        exact List.getElem?_set_ne (Ne.symm here)
    · intro z doc v hz replied
      rcases getElem?_of_set hz with ⟨_, new⟩ | ⟨_, old⟩
      · rw [new] at replied
        cases replied
      · exact edits.loaded z doc v old replied
  next => exact edits

theorem Docs.Kept.resumeLoad (kept : c.Kept) (y : Nat) : (c.resumeLoad y).Kept := by
  unfold Docs.resumeLoad
  split
  next d updates state there =>
    intro e absent
    change Function.update c.documents d (some y) e = none at absent
    by_cases here : e = d
    · rw [here, Function.update_self] at absent
      cases absent
    · rw [Function.update_of_ne here] at absent
      exact kept e absent
  next => exact kept
  next => exact kept

end Loading

end OtterWorks.Collab
