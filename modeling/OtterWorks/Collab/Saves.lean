import OtterWorks.Collab.Store
import OtterWorks.Lib.Dict

namespace OtterWorks.Collab

/-- The document and the state of a save, which do not change while it runs. -/
def Save.key (a : Save) : DocumentId × Finset Update := (a.documentId, a.state)

def Docs.keys (c : Docs) : List (DocumentId × Finset Update) := c.saves.map Save.key

def LoadStage.waiting : LoadStage → Bool
  | .sent | .replied _ => true
  | _ => false

/-- The state of the save has been written and the save knows it. -/
def SaveStage.stateSaved : SaveStage → Bool
  | .sent .setState | .replied .setState none | .finished => false
  | _ => true

/-- A state from the save `i` on was written last. -/
def Docs.SavedFrom (c : Docs) (d : DocumentId) (i : Nat) : Prop := ∃ k, c.stored d = some k ∧ i ≤ k

instance (c : Docs) (d : DocumentId) (i : Nat) : Decidable (c.SavedFrom d i) :=
  decidable_of_iff (∃ k ∈ c.stored d, i ≤ k) Iff.rfl

/-- A document that is being loaded is not in memory, and is loaded once. -/
structure LoadInv (c : Docs) : Prop where
  absent : ∀ (d : DocumentId) (y : Nat), c.documentInitPromises d = some y → c.documents d = none
  waiting : ∀ (y : Nat) (doc : YDoc), c.instances[y]? = some doc → doc.load.waiting = true →
    c.documentInitPromises doc.documentId = some y ∧ doc.updates = ∅
  present : ∀ (d : DocumentId) (y : Nat), c.documents d = some y →
    ∃ doc : YDoc, c.instances[y]? = some doc ∧ doc.documentId = d

/-- States are written in the order in which they were encoded, each with all the edits there were. -/
structure EditInv (c : Docs) : Prop where
  live : ∀ (d : DocumentId) (y : Nat), c.documents d = some y →
    ∃ doc : YDoc, c.instances[y]? = some doc ∧ doc.documentId = d ∧ doc.updates = c.edits d
  loaded : ∀ (y : Nat) (doc : YDoc) (v : Finset Update), c.instances[y]? = some doc →
    doc.load = .replied (some v) → v = c.edits doc.documentId
  grown : ∀ (i j : Nat) (d : DocumentId) (S T : Finset Update), c.keys[i]? = some (d, S) →
    c.keys[j]? = some (d, T) → i ≤ j → S ⊆ T
  within : ∀ (i : Nat) (d : DocumentId) (S : Finset Update), c.keys[i]? = some (d, S) → S ⊆ c.edits d
  redisWithin : ∀ d : DocumentId, c.redis d ⊆ c.edits d
  bounded : ∀ (i : Nat) (command : Command), .save i command ∈ c.queue → i < c.saves.length
  queued : ∀ (i : Nat) (d : DocumentId) (S : Finset Update), .save i .setState ∈ c.queue →
    c.keys[i]? = some (d, S) → c.redis d ⊆ S
  order : c.queue.Pairwise fun a b => ∀ i j : Nat, a = .save i .setState → b = .save j .setState → i < j
  stored : ∀ (d : DocumentId) (k : Nat), c.stored d = some k → c.keys[k]? = some (d, c.redis d) ∧
    ∀ i : Nat, .save i .setState ∈ c.queue → k < i
  own : ∀ (i : Nat) (a : Save), c.saves[i]? = some a → a.stage.stateSaved = true → c.SavedFrom a.documentId i
  ownQueue : ∀ (i : Nat) (a : Save) (command : Command), .save i command ∈ c.queue → command ≠ .setState →
    c.saves[i]? = some a → c.SavedFrom a.documentId i
  unedited : ∀ d : DocumentId, c.lastEdit d = none → c.edits d ⊆ c.redis d
  last : ∀ (d : DocumentId) (l : Nat) (u : Update), c.lastEdit d = some (l, u) →
    c.keys[l]? = some (d, c.edits d) ∧ u ∈ c.edits d ∧
    (∀ (j : Nat) (S : Finset Update), c.keys[j]? = some (d, S) → j < l → u ∉ S) ∧ (u ∈ c.redis d → c.SavedFrom d l)

/-- What is not in memory is stored. -/
def Docs.Kept (c : Docs) : Prop := ∀ d, c.documents d = none → c.edits d ⊆ c.redis d

section Keys

variable {c : Docs} {i j : Nat} {a : Save}

theorem keys_of_saves (h : c.saves[i]? = some a) : c.keys[i]? = some (a.documentId, a.state) := by
  unfold Docs.keys
  rw [List.getElem?_map, h]
  rfl

@[simp] theorem keys_setStage (stage : SaveStage) (h : c.saves[i]? = some a) : (c.setStage i a stage).keys = c.keys := by
  unfold Docs.keys Docs.setStage
  dsimp only
  rw [List.map_set]
  apply set_of_getElem?
  rw [List.getElem?_map, h]
  rfl

theorem keys_startSave (c : Docs) (d : DocumentId) (S : Finset Update) (cleanup : Bool) :
    (c.startSave d S cleanup).keys = c.keys ++ [(d, S)] := by
  unfold Docs.keys Docs.startSave
  dsimp only
  rw [List.map_append]
  rfl

theorem keys_length (c : Docs) : c.keys.length = c.saves.length := List.length_map ..

end Keys

section Saves

variable {c : Docs}

theorem LoadInv.not_waiting (loads : LoadInv c) {d : DocumentId} {y z : Nat} {doc : YDoc}
    (live : c.documents d = some y) (there : c.instances[z]? = some doc) (same : doc.documentId = d) :
    doc.load.waiting = false := by
  by_contra waiting
  obtain ⟨pending, _⟩ := loads.waiting z doc there (by simpa using waiting)
  have absent := loads.absent doc.documentId z pending
  rw [same, live] at absent
  cases absent

theorem pending_startSave {n i : Nat} {command : Command}
    (h : .save i command ∈ c.queue ++ [Operation.save n .setState]) : .save i command ∈ c.queue ∨ i = n := by
  rcases List.mem_append.mp h with old | new
  · exact Or.inl old
  · cases List.mem_singleton.mp new
    exact Or.inr rfl

section Edited

variable {d : DocumentId} {y : Nat} {doc : YDoc} {T : Finset Update}

theorem EditInv.documentId_of (inv : EditInv c) (live : c.documents d = some y) (there : c.instances[y]? = some doc) :
    doc.documentId = d := by
  obtain ⟨doc', here, same, _⟩ := inv.live d y live
  cases Option.some.inj (there.symm.trans here)
  exact same

/-- After the edit of one document each document in memory has all its updates. -/
theorem EditInv.live_edited (inv : EditInv c) (live : c.documents d = some y) (there : c.instances[y]? = some doc)
    {e : DocumentId} {z : Nat} (hz : c.documents e = some z) :
    ∃ doc', (c.instances.set y { doc with updates := T })[z]? = some doc' ∧ doc'.documentId = e ∧
      doc'.updates = Function.update c.edits d T e := by
  have isDoc := inv.documentId_of live there
  obtain ⟨doc', here, same, updates⟩ := inv.live e z hz
  by_cases other : z = y
  · subst other
    cases Option.some.inj (there.symm.trans here)
    refine ⟨_, getElem?_set_here there, same, ?_⟩
    rw [← same, isDoc, Function.update_self]
  · have apart : e ≠ d := by
      intro here
      rw [here, live] at hz
      exact other (Option.some.inj hz).symm
    refine ⟨doc', ?_, same, ?_⟩
    · rw [List.getElem?_set_ne (Ne.symm other)]
      exact here
    · rw [Function.update_of_ne apart]
      exact updates

/-- A document that is being loaded is not the one that is edited. -/
theorem EditInv.loaded_edited (inv : EditInv c) (loads : LoadInv c) (live : c.documents d = some y)
    (there : c.instances[y]? = some doc) {z : Nat} {doc' : YDoc} {v : Finset Update}
    (hz : (c.instances.set y { doc with updates := T })[z]? = some doc') (replied : doc'.load = .replied (some v)) :
    v = Function.update c.edits d T doc'.documentId := by
  have waits : doc'.load.waiting = true := by rw [replied]; rfl
  rcases getElem?_of_set hz with ⟨_, here⟩ | ⟨_, old⟩
  · have not := loads.not_waiting live there (inv.documentId_of live there)
    rw [here] at waits
    exact absurd waits (by simpa using not)
  · have apart : doc'.documentId ≠ d := by
      intro same
      have not := loads.not_waiting live old same
      rw [waits] at not
      cases not
    rw [Function.update_of_ne apart]
    exact inv.loaded z doc' v old replied

theorem EditInv.grown_saved (inv : EditInv c) (more : c.edits d ⊆ T) {i j : Nat} {e : DocumentId}
    {S S' : Finset Update} (hi : (c.keys ++ [(d, T)])[i]? = some (e, S)) (hj : (c.keys ++ [(d, T)])[j]? = some (e, S'))
    (le : i ≤ j) : S ⊆ S' := by
  rcases getElem?_of_concat hj with ⟨_, new⟩ | hj
  · cases new
    rcases getElem?_of_concat hi with ⟨_, new⟩ | hi
    · cases new
      exact subset_refl _
    · exact (inv.within i d S hi).trans more
  · rcases getElem?_of_concat hi with ⟨place, new⟩ | hi
    · have bound := lt_of_getElem? hj
      omega
    · exact inv.grown i j e S S' hi hj le

/-- The last edit of a document: before it no save has it, and once it is written so is the save it started. -/
def Docs.LastEdit (c : Docs) (keys : List (DocumentId × Finset Update)) (edits : Finset Update) (d : DocumentId)
    (l : Nat) (u : Update) : Prop :=
  keys[l]? = some (d, edits) ∧ u ∈ edits ∧
    (∀ (j : Nat) (S : Finset Update), keys[j]? = some (d, S) → j < l → u ∉ S) ∧ (u ∈ c.redis d → c.SavedFrom d l)

theorem EditInv.lastEdit_kept (inv : EditInv c) {e : DocumentId} {l : Nat} {u : Update}
    (hl : c.lastEdit e = some (l, u)) : c.LastEdit (c.keys ++ [(d, T)]) (c.edits e) e l u := by
  obtain ⟨key, isIn, before, written⟩ := inv.last e l u hl
  refine ⟨getElem?_concat_of key _, isIn, ?_, written⟩
  intro j S hj lt
  rcases getElem?_of_concat hj with ⟨place, _⟩ | hj
  · have bound := lt_of_getElem? key
    omega
  · exact before j S hj lt

theorem EditInv.lastEdit_new (inv : EditInv c) {u : Update} (isIn : u ∈ T) (isNew : u ∉ c.edits d) :
    c.LastEdit (c.keys ++ [(d, T)]) T d c.saves.length u := by
  refine ⟨?_, isIn, ?_, ?_⟩
  · rw [← keys_length]
    exact List.getElem?_concat_length
  · intro j S hj lt
    rcases getElem?_of_concat hj with ⟨place, _⟩ | hj
    · rw [keys_length] at place
      omega
    · exact fun isOld => isNew (inv.within j d S hj isOld)
  · intro stored
    exact absurd (inv.redisWithin d stored) isNew

/-- A document gets the updates `T`, at least those it has, and a save of them starts. -/
theorem EditInv.edited (inv : EditInv c) (loads : LoadInv c) (live : c.documents d = some y)
    (there : c.instances[y]? = some doc) (more : c.edits d ⊆ T) {lastEdit : DocumentId → Option (Nat × Update)}
    (edit : (T = c.edits d ∧ lastEdit = c.lastEdit) ∨
      ∃ u ∈ T, u ∉ c.edits d ∧ lastEdit = Function.update c.lastEdit d (some (c.saves.length, u)))
    (cleanup : Bool) :
    EditInv ({ c with
      instances := c.instances.set y { doc with updates := T }
      edits := Function.update c.edits d T
      lastEdit := lastEdit }.startSave d T cleanup) := by
  have grows : ∀ e, c.edits e ⊆ Function.update c.edits d T e := by
    intro e
    by_cases same : e = d
    · subst same
      rw [Function.update_self]
      exact more
    · rw [Function.update_of_ne same]
  have pending : ∀ (i : Nat) (command : Command), .save i command ∈ c.queue ++ [.save c.saves.length .setState] →
      .save i command ∈ c.queue ∨ i = c.saves.length := fun i command hi => pending_startSave hi
  refine ⟨fun e z hz => inv.live_edited live there hz,
    fun z doc' v hz replied => inv.loaded_edited loads live there hz replied, ?_, ?_, ?_, ?_, ?_, ?_, ?_, ?_, ?_, ?_, ?_⟩
  · intro i j e S S' hi hj le
    rw [keys_startSave] at hi hj
    exact inv.grown_saved more hi hj le
  · intro i e S hi
    rw [keys_startSave] at hi
    rcases getElem?_of_concat hi with ⟨_, new⟩ | hi
    · cases new
      show T ⊆ Function.update c.edits d T d
      rw [Function.update_self]
    · exact (inv.within i e S hi).trans (grows e)
  · intro e
    exact (inv.redisWithin e).trans (grows e)
  · intro i command hi
    show i < (c.saves ++ [_]).length
    rw [List.length_append, List.length_singleton]
    rcases pending i _ hi with old | new
    · have bound := inv.bounded i command old
      omega
    · omega
  · intro i e S hi hk
    rw [keys_startSave] at hk
    rcases getElem?_of_concat hk with ⟨_, new⟩ | hk
    · cases new
      exact (inv.redisWithin d).trans more
    · rcases pending i _ hi with old | new
      · exact inv.queued i e S old hk
      · have bound := lt_of_getElem? hk
        change i < c.keys.length at bound
        rw [keys_length] at bound
        omega
  · show (c.queue ++ [Operation.save c.saves.length .setState]).Pairwise _
    rw [List.pairwise_append]
    refine ⟨inv.order, List.pairwise_singleton .., ?_⟩
    intro a ha b hb i j isI isJ
    rw [List.mem_singleton] at hb
    rw [hb] at isJ
    cases isJ
    rw [isI] at ha
    exact inv.bounded i _ ha
  · intro e k hk
    obtain ⟨key, later⟩ := inv.stored e k hk
    refine ⟨?_, ?_⟩
    · rw [keys_startSave]
      exact getElem?_concat_of key _
    · intro i hi
      rcases pending i _ hi with old | new
      · exact later i old
      · have bound := lt_of_getElem? key
        rw [keys_length] at bound
        omega
  · intro i a hi saved
    rcases getElem?_of_concat hi with ⟨_, new⟩ | hi
    · rw [new] at saved
      cases saved
    · exact inv.own i a hi saved
  · intro i a command hi other hs
    rcases List.mem_append.mp hi with old | new
    · rcases getElem?_of_concat hs with ⟨place, _⟩ | hs
      · have bound := inv.bounded i command old
        change i = c.saves.length at place
        omega
      · exact inv.ownQueue i a command old other hs
    · cases List.mem_singleton.mp new
      exact absurd rfl other
  · intro e none
    show Function.update c.edits d T e ⊆ c.redis e
    change lastEdit e = Option.none at none
    rcases edit with ⟨same, kept⟩ | ⟨u, _, _, new⟩
    · rw [kept] at none
      rw [same, Function.update_eq_self]
      exact inv.unedited e none
    · rw [new] at none
      have apart : e ≠ d := by
        intro here
        rw [here, Function.update_self] at none
        cases none
      rw [Function.update_of_ne apart] at none ⊢
      exact inv.unedited e none
  · intro e l u hl
    change lastEdit e = some (l, u) at hl
    rw [keys_startSave]
    show c.LastEdit (c.keys ++ [(d, T)]) (Function.update c.edits d T e) e l u
    rcases edit with ⟨same, kept⟩ | ⟨v, isIn, isNew, new⟩
    · rw [kept] at hl
      rw [same, Function.update_eq_self]
      exact inv.lastEdit_kept hl
    · rw [new] at hl
      by_cases here : e = d
      · subst here
        rw [Function.update_self] at hl ⊢
        cases Option.some.inj hl
        exact inv.lastEdit_new isIn isNew
      · rw [Function.update_of_ne here] at hl ⊢
        exact inv.lastEdit_kept hl

end Edited

end Saves

end OtterWorks.Collab
