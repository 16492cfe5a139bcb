import OtterWorks.Collab.Edits

namespace OtterWorks.Collab

section Executing

variable {c : Docs}

/-- Nothing of the invariant is lost when an operation leaves the queue. -/
theorem EditInv.popped (inv : EditInv c) {op : Operation} {rest : List Operation} (queue : c.queue = op :: rest) :
    EditInv { c with queue := rest } := by
  have kept : ∀ o ∈ rest, o ∈ c.queue := by
    intro o ho
    rw [queue]
    exact List.mem_cons_of_mem _ ho
  have order := inv.order
  rw [queue] at order
  exact ⟨inv.live, inv.loaded, inv.grown, inv.within, inv.redisWithin, fun i command hi => inv.bounded i command (kept _ hi),
    fun i d S hi => inv.queued i d S (kept _ hi), order.of_cons,
    fun d k hk => ⟨(inv.stored d k hk).1, fun i hi => (inv.stored d k hk).2 i (kept _ hi)⟩, inv.own,
    fun i a command hi => inv.ownQueue i a command (kept _ hi), inv.unedited, inv.last⟩

/-- The state of the save that was issued first is written over an older one. -/
theorem EditInv.written (inv : EditInv c) {i : Nat} {a : Save} (there : c.saves[i]? = some a)
    (older : c.redis a.documentId ⊆ a.state) (next : ∀ j : Nat, .save j .setState ∈ c.queue → i < j)
    (last : ∀ d k, c.stored d = some k → k < i) : EditInv (c.write i a .setState) := by
  have key := keys_of_saves there
  have grows : ∀ e, c.redis e ⊆ Function.update c.redis a.documentId a.state e := by
    intro e
    by_cases here : e = a.documentId
    · rw [here, Function.update_self]
      exact older
    · rw [Function.update_of_ne here]
  have later : ∀ e j, c.SavedFrom e j → (c.write i a .setState).SavedFrom e j := by
    intro e j saved
    obtain ⟨k, hk, le⟩ := saved
    show ∃ k, Function.update c.stored a.documentId (some i) e = some k ∧ j ≤ k
    by_cases here : e = a.documentId
    · have := last e k hk
      rw [here, Function.update_self]
      exact ⟨i, rfl, by omega⟩
    · rw [Function.update_of_ne here]
      exact ⟨k, hk, le⟩
  refine ⟨inv.live, inv.loaded, inv.grown, inv.within, ?_, inv.bounded, ?_, inv.order, ?_, ?_, ?_, ?_, ?_⟩
  · intro e
    show Function.update c.redis a.documentId a.state e ⊆ c.edits e
    by_cases here : e = a.documentId
    · rw [here, Function.update_self]
      exact inv.within i a.documentId a.state key
    · rw [Function.update_of_ne here]
      exact inv.redisWithin e
  · intro j e S hj keyJ
    show Function.update c.redis a.documentId a.state e ⊆ S
    by_cases here : e = a.documentId
    · subst here
      rw [Function.update_self]
      exact inv.grown i j a.documentId a.state S key keyJ (Nat.le_of_lt (next j hj))
    · rw [Function.update_of_ne here]
      exact inv.queued j e S hj keyJ
  · intro e k hk
    change Function.update c.stored a.documentId (some i) e = some k at hk
    show c.keys[k]? = some (e, Function.update c.redis a.documentId a.state e) ∧ _
    by_cases here : e = a.documentId
    · rw [here, Function.update_self] at hk
      cases Option.some.inj hk
      rw [here, Function.update_self]
      exact ⟨key, next⟩
    · rw [Function.update_of_ne here] at hk ⊢
      exact inv.stored e k hk
  · intro j b hb saved
    exact later b.documentId j (inv.own j b hb saved)
  · intro j b command hj other hb
    exact later b.documentId j (inv.ownQueue j b command hj other hb)
  · intro e unedited
    exact (inv.unedited e unedited).trans (grows e)
  · intro e l u hl
    obtain ⟨keyL, mem, before, written⟩ := inv.last e l u hl
    refine ⟨keyL, mem, before, ?_⟩
    intro stored
    change u ∈ Function.update c.redis a.documentId a.state e at stored
    by_cases here : e = a.documentId
    · subst here
      rw [Function.update_self] at stored
      show ∃ k, Function.update c.stored a.documentId (some i) a.documentId = some k ∧ l ≤ k
      refine ⟨i, Function.update_self .., ?_⟩
      by_contra early
      exact before i a.state key (by omega) stored
    · rw [Function.update_of_ne here] at stored
      exact later e l (written stored)

/-- A save goes to a stage that knows of its state only if it is written. -/
theorem EditInv.setStage (inv : EditInv c) {i : Nat} {a : Save} (there : c.saves[i]? = some a) {stage : SaveStage}
    (saved : stage.stateSaved = true → c.SavedFrom a.documentId i) : EditInv (c.setStage i a stage) := by
  have keys : (c.setStage i a stage).keys = c.keys := keys_setStage stage there
  refine ⟨inv.live, inv.loaded, ?_, ?_, inv.redisWithin, ?_, ?_, inv.order, ?_, ?_, ?_, inv.unedited, ?_⟩
  · rw [keys]
    exact inv.grown
  · rw [keys]
    exact inv.within
  · intro j command hj
    have bound := inv.bounded j command hj
    simpa [Docs.setStage] using bound
  · rw [keys]
    exact inv.queued
  · rw [keys]
    exact inv.stored
  · intro j b hb stateSaved
    rcases getElem?_of_set hb with ⟨same, new⟩ | ⟨_, old⟩
    · rw [new] at stateSaved
      rw [new, same]
      exact saved stateSaved
    · exact inv.own j b old stateSaved
  · intro j b command hj other hb
    rcases getElem?_of_set hb with ⟨same, new⟩ | ⟨_, old⟩
    · rw [new]
      rw [same] at hj ⊢
      exact inv.ownQueue i a command hj other there
    · exact inv.ownQueue j b command hj other old
  · rw [keys]
    exact inv.last

theorem LoadInv.setStage (loads : LoadInv c) (i : Nat) (a : Save) (stage : SaveStage) :
    LoadInv (c.setStage i a stage) := ⟨loads.absent, loads.waiting, loads.present⟩

theorem execute_save {i : Nat} {command : Command} {rest : List Operation} {a : Save} (outcome : Outcome)
    (queue : c.queue = .save i command :: rest) (there : c.saves[i]? = some a) :
    c.execute outcome =
      (if outcome = .failed then { c with queue := rest }
        else ({ c with queue := rest } : Docs).write i a command).setStage i a
          (.replied command (if outcome = .ok then some (c.created a.documentId) else none)) := by
  unfold Docs.execute
  rw [queue]
  dsimp only
  rw [there]
  by_cases failed : outcome = .failed
  · simp only [failed, ↓reduceIte]
    rfl
  · simp only [failed, ↓reduceIte]
    cases command <;> rfl

theorem LoadInv.write (loads : LoadInv c) (i : Nat) (a : Save) (command : Command) :
    LoadInv (c.write i a command) := by
  cases command with
  | _ => exact ⟨loads.absent, loads.waiting, loads.present⟩

theorem LoadInv.execute (loads : LoadInv c) (outcome : Outcome) : LoadInv (c.execute outcome) := by
  have popped : ∀ rest, LoadInv { c with queue := rest } := fun rest => ⟨loads.absent, loads.waiting, loads.present⟩
  cases queue : c.queue with
  | nil =>
    unfold Docs.execute
    rw [queue]
    exact loads
  | cons op rest =>
    cases op with
    | load y =>
      unfold Docs.execute
      rw [queue]
      dsimp only
      split
      next d updates there => exact (popped rest).set there rfl (fun _ => rfl) fun _ => rfl
      next => exact popped rest
    | save i command =>
      cases there : c.saves[i]? with
      | none =>
        unfold Docs.execute
        rw [queue]
        dsimp only
        rw [there]
        exact popped rest
      | some a =>
        rw [execute_save outcome queue there]
        split
        next => exact (popped rest).setStage i a _
        next => exact ((popped rest).write i a command).setStage i a _

/-- The command at the head of the queue, with what it does. -/
theorem EditInv.executeSave (inv : EditInv c) {i : Nat} {command : Command} {rest : List Operation} {a : Save}
    (outcome : Outcome) (queue : c.queue = .save i command :: rest) (there : c.saves[i]? = some a) :
    EditInv (c.execute outcome) := by
  have head : Operation.save i command ∈ c.queue := by
    rw [queue]
    exact List.mem_cons_self ..
  have popped : EditInv { c with queue := rest } := inv.popped queue
  rw [execute_save outcome queue there]
  cases command with
  | setState =>
    have older := inv.queued i a.documentId a.state head (keys_of_saves there)
    have next : ∀ j : Nat, .save j .setState ∈ rest → i < j := by
      intro j hj
      have order := inv.order
      rw [queue] at order
      exact (List.pairwise_cons.mp order).1 _ hj i j rfl rfl
    have last : ∀ d k, c.stored d = some k → k < i := fun d k hk => (inv.stored d k hk).2 i head
    have written := popped.written there older next last
    cases outcome with
    | ok =>
      refine written.setStage there fun _ => ⟨i, ?_, le_refl i⟩
      exact Function.update_self ..
    | failed => exact popped.setStage there fun saved => by cases saved
    | lost => exact written.setStage there fun saved => by cases saved
  | hsetCreatedAt =>
    have saved := inv.ownQueue i a _ head (by simp) there
    have after : EditInv (({ c with queue := rest } : Docs).setStage i a (.replied .hsetCreatedAt
        (if outcome = .ok then some (c.created a.documentId) else none))) := popped.setStage there fun _ => saved
    split
    next => exact after
    next => exact ⟨after.live, after.loaded, after.grown, after.within, after.redisWithin, after.bounded, after.queued,
      after.order, after.stored, after.own, after.ownQueue, after.unedited, after.last⟩
  | _ =>
    have saved := inv.ownQueue i a _ head (by simp) there
    split
    next => exact popped.setStage there fun _ => saved
    next => exact popped.setStage there fun _ => saved

/-- A load reads all the edits there are, since what is not in memory is stored. -/
theorem StoreInv.executeLoad (inv : StoreInv c) (kept : c.Kept) {y : Nat} {rest : List Operation} (outcome : Outcome)
    (queue : c.queue = .load y :: rest) : EditInv (c.execute outcome) := by
  have popped : EditInv { c with queue := rest } := inv.edits.popped queue
  unfold Docs.execute
  rw [queue]
  dsimp only
  split
  next d updates there =>
    obtain ⟨pending, _⟩ := inv.loads.waiting y _ there rfl
    change c.documentInitPromises d = some y at pending
    have absent := inv.loads.absent d y pending
    have complete : c.redis d = c.edits d := Finset.Subset.antisymm (inv.edits.redisWithin d) (kept d absent)
    refine ⟨?_, ?_, popped.grown, popped.within, popped.redisWithin, popped.bounded, popped.queued, popped.order,
      popped.stored, popped.own, popped.ownQueue, popped.unedited, popped.last⟩
    · intro e z live
      obtain ⟨doc, here, isDoc, same⟩ := popped.live e z live
      by_cases this : z = y
      · subst this
        cases Option.some.inj (there.symm.trans here)
        exact ⟨_, getElem?_set_here there, isDoc, same⟩
      · refine ⟨doc, ?_, isDoc, same⟩
        rw [← here]
        exact List.getElem?_set_ne (Ne.symm this)
    · intro z doc v hz replied
      rcases getElem?_of_set hz with ⟨_, new⟩ | ⟨_, old⟩
      · rw [new] at replied ⊢
        cases outcome with
        | ok =>
          cases replied
          exact complete
        | failed => cases replied
        | lost => cases replied
      · exact popped.loaded z doc v old replied
  next => exact popped

theorem StoreInv.execute (inv : StoreInv c) (kept : c.Kept) (outcome : Outcome) : StoreInv (c.execute outcome) := by
  refine ⟨inv.loads.execute outcome, ?_⟩
  cases queue : c.queue with
  | nil =>
    unfold Docs.execute
    rw [queue]
    exact inv.edits
  | cons op rest =>
    cases op with
    | load y => exact inv.executeLoad kept outcome queue
    | save i command =>
      cases there : c.saves[i]? with
      | some a => exact inv.edits.executeSave outcome queue there
      | none =>
        unfold Docs.execute
        rw [queue]
        dsimp only
        rw [there]
        exact inv.edits.popped queue

/-- What is stored only grows. -/
theorem Docs.Kept.execute (kept : c.Kept) (inv : StoreInv c) (outcome : Outcome) : (c.execute outcome).Kept := by
  cases queue : c.queue with
  | nil =>
    unfold Docs.execute
    rw [queue]
    exact kept
  | cons op rest =>
    cases op with
    | load y =>
      unfold Docs.execute
      rw [queue]
      dsimp only
      split
      next => exact kept
      next => exact kept
    | save i command =>
      cases there : c.saves[i]? with
      | none =>
        unfold Docs.execute
        rw [queue]
        dsimp only
        rw [there]
        exact kept
      | some a =>
        rw [execute_save outcome queue there]
        split
        next => exact kept
        next =>
          cases command with
          | setState =>
            have older := inv.edits.queued i a.documentId a.state
              (by rw [queue]; exact List.mem_cons_self ..) (keys_of_saves there)
            intro e absent
            show c.edits e ⊆ Function.update c.redis a.documentId a.state e
            have stored := kept e absent
            by_cases here : e = a.documentId
            · rw [here, Function.update_self]
              rw [here] at stored
              exact stored.trans older
            · rw [Function.update_of_ne here]
              exact stored
          | _ => exact kept

end Executing

/-- The document that a save removes when it goes on. -/
def Docs.removes (c : Docs) (i : Nat) (noUsers : DocumentId → Bool) : Option DocumentId :=
  match c.saves[i]? with
  | some ⟨d, _, true, .replied command (some found)⟩ =>
    if command.next found = none ∧ noUsers d = true then some d else none
  | _ => none

/-- The last edit of a document that is removed came before its cleanup encoded it, or the save of that edit or a
later one has been written. -/
def Docs.EditsWritten (c : Docs) (i : Nat) (noUsers : DocumentId → Bool) : Prop :=
  ∀ d ∈ c.removes i noUsers, ∀ edit ∈ c.lastEdit d, edit.1 < i ∨ c.SavedFrom d edit.1

instance (c : Docs) (i : Nat) (noUsers : DocumentId → Bool) : Decidable (c.EditsWritten i noUsers) :=
  inferInstanceAs (Decidable (∀ d ∈ c.removes i noUsers, ∀ edit ∈ c.lastEdit d, edit.1 < i ∨ c.SavedFrom d edit.1))

section Removing

variable {c : Docs} {i : Nat} {noUsers : DocumentId → Bool}

theorem Command.next_ne_setState {found : Bool} {command next : Command} (h : command.next found = some next) :
    next ≠ .setState := by
  intro here
  subst here
  cases command with
  | hgetCreatedAt => cases found <;> cases h
  | _ => cases h

/-- The next command of a save whose state is written. -/
theorem EditInv.sendNext (inv : EditInv c) {a : Save} (there : c.saves[i]? = some a) (saved : c.SavedFrom a.documentId i)
    {command : Command} (other : command ≠ .setState) :
    EditInv { c.setStage i a (.sent command) with queue := c.queue ++ [.save i command] } := by
  have staged : EditInv (c.setStage i a (.sent command)) := inv.setStage there fun _ => saved
  have pending : ∀ j : Nat, Operation.save j .setState ∈ c.queue ++ [.save i command] →
      Operation.save j .setState ∈ c.queue := by
    intro j hj
    rcases List.mem_append.mp hj with old | new
    · exact old
    · cases List.mem_singleton.mp new
      exact absurd rfl other
  refine ⟨staged.live, staged.loaded, staged.grown, staged.within, staged.redisWithin, ?_, ?_, ?_, ?_, staged.own, ?_,
    staged.unedited, staged.last⟩
  · intro j command' hj
    rcases List.mem_append.mp hj with old | new
    · exact staged.bounded j command' old
    · cases List.mem_singleton.mp new
      have bound := lt_of_getElem? there
      simpa [Docs.setStage] using bound
  · intro j d S hj
    exact staged.queued j d S (pending j hj)
  · show (c.queue ++ [Operation.save i command]).Pairwise _
    rw [List.pairwise_append]
    refine ⟨inv.order, List.pairwise_singleton .., ?_⟩
    intro o _ p hp j k _ isP
    rw [List.mem_singleton] at hp
    rw [hp] at isP
    cases isP
    exact absurd rfl other
  · intro d k hk
    obtain ⟨key, later⟩ := staged.stored d k hk
    exact ⟨key, fun j hj => later j (pending j hj)⟩
  · intro j b command' hj notSet hb
    rcases List.mem_append.mp hj with old | new
    · exact staged.ownQueue j b command' old notSet hb
    · cases List.mem_singleton.mp new
      rcases getElem?_of_set hb with ⟨_, here⟩ | ⟨apart, _⟩
      · rw [here]
        exact saved
      · exact absurd rfl apart

/-- Documents that leave the memory. -/
theorem LoadInv.removed (loads : LoadInv c) {documents : DocumentId → Option Nat} {cleaningUp : DocumentId → Bool}
    (fewer : ∀ d, documents d = c.documents d ∨ documents d = none) :
    LoadInv { c with documents := documents, cleaningUp := cleaningUp } := by
  refine ⟨?_, loads.waiting, ?_⟩
  · intro d y pending
    rcases fewer d with same | none
    · exact same.trans (loads.absent d y pending)
    · exact none
  · intro d y live
    change documents d = some y at live
    rcases fewer d with same | none
    · rw [same] at live
      exact loads.present d y live
    · rw [none] at live
      cases live

theorem EditInv.removed (edits : EditInv c) {documents : DocumentId → Option Nat} {cleaningUp : DocumentId → Bool}
    (fewer : ∀ d, documents d = c.documents d ∨ documents d = none) :
    EditInv { c with documents := documents, cleaningUp := cleaningUp } := by
  refine ⟨?_, edits.loaded, edits.grown, edits.within, edits.redisWithin, edits.bounded, edits.queued, edits.order,
    edits.stored, edits.own, edits.ownQueue, edits.unedited, edits.last⟩
  intro d y live
  change documents d = some y at live
  rcases fewer d with same | none
  · rw [same] at live
    exact edits.live d y live
  · rw [none] at live
    cases live

theorem update_none_fewer (documents : DocumentId → Option Nat) (d e : DocumentId) :
    Function.update documents d none e = documents e ∨ Function.update documents d none e = none := by
  by_cases here : e = d
  · rw [here, Function.update_self]
    exact Or.inr rfl
  · rw [Function.update_of_ne here]
    exact Or.inl rfl

theorem LoadInv.resumeSave (loads : LoadInv c) (i : Nat) (noUsers : DocumentId → Bool) :
    LoadInv (c.resumeSave i noUsers) := by
  unfold Docs.resumeSave
  split
  next => exact loads
  next a _ =>
    have finished := loads.setStage i a .finished
    split
    next =>
      split
      next => exact ⟨loads.absent, loads.waiting, loads.present⟩
      next =>
        split
        next =>
          apply finished.removed
          intro d
          split
          next => exact update_none_fewer c.documents a.documentId d
          next => exact Or.inl rfl
        next => exact finished
    next => exact finished.removed fun d => Or.inl rfl
    next => exact loads

theorem StoreInv.resumeSave (inv : StoreInv c) (i : Nat) (noUsers : DocumentId → Bool) :
    StoreInv (c.resumeSave i noUsers) := by
  refine ⟨inv.loads.resumeSave i noUsers, ?_⟩
  have edits := inv.edits
  unfold Docs.resumeSave
  split
  next => exact edits
  next a there =>
    have finished : EditInv (c.setStage i a .finished) := edits.setStage there fun saved => by cases saved
    split
    next command found stage =>
      have saved : c.SavedFrom a.documentId i := by
        apply edits.own i a there
        rw [stage]
        cases command <;> rfl
      split
      next next isNext => exact edits.sendNext there saved (Command.next_ne_setState isNext)
      next =>
        split
        next =>
          apply finished.removed
          intro d
          split
          next => exact update_none_fewer c.documents a.documentId d
          next => exact Or.inl rfl
        next => exact finished
    next => exact finished.removed fun d => Or.inl rfl
    next => exact edits

/-- The edits of a document are stored exactly if the last of them, or a later state, has been written. -/
theorem EditInv.stored_iff (inv : EditInv c) (d : DocumentId) :
    c.edits d ⊆ c.redis d ↔ ∀ edit ∈ c.lastEdit d, c.SavedFrom d edit.1 := by
  constructor
  · intro stored edit last
    obtain ⟨l, u⟩ := edit
    obtain ⟨_, mem, _, written⟩ := inv.last d l u last
    exact written (stored mem)
  · intro saved
    cases last : c.lastEdit d with
    | none => exact inv.unedited d last
    | some edit =>
      obtain ⟨l, u⟩ := edit
      obtain ⟨key, _⟩ := inv.last d l u last
      obtain ⟨k, hk, le⟩ := saved (l, u) last
      exact inv.grown l k d (c.edits d) (c.redis d) key (inv.stored d k hk).1 le

theorem removes_some {d : DocumentId} (h : c.removes i noUsers = some d) :
    ∃ S command found, c.saves[i]? = some ⟨d, S, true, .replied command (some found)⟩ ∧ command.next found = none ∧
      noUsers d = true := by
  unfold Docs.removes at h
  split at h
  next e S command found there =>
    split at h
    next ends =>
      cases h
      exact ⟨S, command, found, there, ends.1, ends.2⟩
    next => cases h
  next => cases h

/-- What a save that goes on does to the documents in memory. -/
theorem resumeSave_documents :
    (c.resumeSave i noUsers).documents =
      match c.removes i noUsers with
      | some d => Function.update c.documents d none
      | none => c.documents := by
  unfold Docs.resumeSave Docs.removes
  cases there : c.saves[i]? with
  | none => rfl
  | some a =>
    obtain ⟨d, S, cleanup, stage⟩ := a
    cases stage with
    | sent command => cases cleanup <;> rfl
    | finished => cases cleanup <;> rfl
    | replied command reply =>
      cases reply with
      | none => cases cleanup <;> rfl
      | some found =>
        cases next : command.next found with
        | some command' => cases cleanup <;> simp [next, Docs.setStage]
        | none =>
          cases cleanup with
          | false => simp [next, Docs.setStage]
          | true =>
            by_cases empty : noUsers d = true
            · simp [next, empty]
            · simp [next, empty, Docs.setStage]

theorem resumeSave_store :
    (c.resumeSave i noUsers).edits = c.edits ∧ (c.resumeSave i noUsers).redis = c.redis := by
  unfold Docs.resumeSave
  split
  next => exact ⟨rfl, rfl⟩
  next =>
    split
    next =>
      split
      next => exact ⟨rfl, rfl⟩
      next =>
        split
        next => exact ⟨rfl, rfl⟩
        next => exact ⟨rfl, rfl⟩
    next => exact ⟨rfl, rfl⟩
    next => exact ⟨rfl, rfl⟩

/-- A cleanup loses nothing exactly if the edits made since it encoded the document have been written. -/
theorem resumeSave_kept_iff (inv : StoreInv c) (kept : c.Kept) :
    (c.resumeSave i noUsers).Kept ↔ c.EditsWritten i noUsers := by
  obtain ⟨sameEdits, sameRedis⟩ := @resumeSave_store c i noUsers
  have documents := @resumeSave_documents c i noUsers
  unfold Docs.Kept Docs.EditsWritten
  rw [sameEdits, sameRedis]
  cases removes : c.removes i noUsers with
  | none =>
    rw [removes] at documents
    rw [documents]
    constructor
    · intro _ d h
      cases h
    · intro _
      exact kept
  | some d =>
    rw [removes] at documents
    rw [documents]
    obtain ⟨S, command, found, there, _, _⟩ := removes_some removes
    have saved : c.SavedFrom d i := by
      apply inv.edits.own i _ there
      cases command <;> rfl
    have early : ∀ l, l < i → c.SavedFrom d l := by
      intro l lt
      obtain ⟨k, hk, le⟩ := saved
      exact ⟨k, hk, by omega⟩
    constructor
    · intro all e isD edit last
      cases isD
      have stored := all d (Function.update_self ..)
      exact Or.inr ((inv.edits.stored_iff d).mp stored edit last)
    · intro written e absent
      by_cases here : e = d
      · subst here
        apply (inv.edits.stored_iff e).mpr
        intro edit last
        rcases written e rfl edit last with before | after
        · exact early edit.1 before
        · exact after
      · change Function.update c.documents d none e = none at absent
        rw [Function.update_of_ne here] at absent
        exact kept e absent

end Removing

end OtterWorks.Collab
