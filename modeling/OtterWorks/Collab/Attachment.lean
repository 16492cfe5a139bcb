import OtterWorks.Collab.Handlers
import OtterWorks.Lib.Dict

namespace OtterWorks.Collab

def JoinStage.suspended : JoinStage → Bool
  | .finished _ => false
  | _ => true

/-- What rooms, the awareness service, the documents and the joins say of each other. -/
structure JoinInv (c : CollaborationManager) : Prop where
  agree : ∀ (s : SocketId) (d : DocumentId), s ∈ c.users d ↔ c.socketToDocument s = some d
  room : ∀ (s : SocketId) (d : DocumentId), (s, d) ∈ c.rooms → c.status s = .connected ∧
    (c.socketToDocument s = some d ∨
      ∃ (i : Nat) (j : Join), c.joins[i]? = some j ∧ j.socketId = s ∧ j.documentId = d ∧ j.stage.suspended = true)
  registered : ∀ (s : SocketId) (d : DocumentId), c.socketToDocument s = some d →
    c.status s = .connected ∧ (s, d) ∈ c.rooms ∧ (∃ y, c.docs.documents d = some y ∧ c.sent s = some y) ∧
    ∃ (i : Nat) (j : Join), c.lastJoin s = some i ∧ c.joins[i]? = some j ∧ j.stage ≠ .finished false
  last : ∀ (s : SocketId) (i : Nat), c.lastJoin s = some i → ∃ j : Join, c.joins[i]? = some j ∧ j.socketId = s
  joined : ∀ (i : Nat) (j : Join), c.joins[i]? = some j → ∃ k, c.lastJoin j.socketId = some k

section Presence

variable {c : CollaborationManager} {s : SocketId} {d : DocumentId}

open CollaborationManager

theorem removeUser_of (here : c.socketToDocument s = some d) : c.removeUser s = { c with
    users := Function.update c.users d ((c.users d).filter (· ≠ s))
    socketToDocument := Function.update c.socketToDocument s none } := by
  unfold removeUser
  rw [here]

namespace JoinInv

/-- Documents may change as long as those with users stay. -/
theorem withDocs (inv : JoinInv c) {docs : Docs}
    (stays : ∀ (s : SocketId) (d : DocumentId) (y : Nat), c.socketToDocument s = some d →
      c.docs.documents d = some y → docs.documents d = some y) :
    JoinInv { c with docs := docs } := by
  refine ⟨inv.agree, inv.room, ?_, inv.last, inv.joined⟩
  intro s d registered
  obtain ⟨connected, room, ⟨y, live, sent⟩, last⟩ := inv.registered s d registered
  exact ⟨connected, room, ⟨y, stays s d y registered live, sent⟩, last⟩

/-- A socket that leaves the room and the document it is registered for. -/
theorem detach (inv : JoinInv c) (here : c.socketToDocument s = some d) : JoinInv ((c.leaveRoom s d).removeUser s) := by
  have left : (c.leaveRoom s d).removeUser s = { c with
      rooms := c.rooms.filter (· ≠ (s, d))
      users := Function.update c.users d ((c.users d).filter (· ≠ s))
      socketToDocument := Function.update c.socketToDocument s none } :=
    removeUser_of (c := c.leaveRoom s d) here
  rw [left]
  have others : ∀ t e, Function.update c.socketToDocument s none t = some e → t ≠ s ∧ c.socketToDocument t = some e := by
    intro t e registered
    by_cases same : t = s
    · rw [same, Function.update_self] at registered
      cases registered
    · rw [Function.update_of_ne same] at registered
      exact ⟨same, registered⟩
  refine ⟨?_, ?_, ?_, inv.last, inv.joined⟩
  · intro t e
    show t ∈ Function.update c.users d ((c.users d).filter (· ≠ s)) e ↔ Function.update c.socketToDocument s none t = some e
    by_cases same : t = s
    · rw [same, Function.update_self]
      by_cases room : e = d
      · rw [room, Function.update_self]
        simp
      · rw [Function.update_of_ne room, inv.agree, here]
        constructor
        · intro h
          exact absurd (Option.some.inj h).symm room
        · intro h
          cases h
    · rw [Function.update_of_ne same]
      by_cases room : e = d
      · rw [room, Function.update_self, ← inv.agree]
        simp [same]
      · rw [Function.update_of_ne room]
        exact inv.agree t e
  · intro t e mem
    obtain ⟨old, apart⟩ := List.mem_filter.mp mem
    obtain ⟨connected, why⟩ := inv.room t e old
    refine ⟨connected, ?_⟩
    rcases why with registered | waiting
    · left
      show Function.update c.socketToDocument s none t = some e
      have other : t ≠ s := by
        intro same
        rw [same, here] at registered
        have sameRoom := Option.some.inj registered
        rw [same, ← sameRoom] at apart
        simp at apart
      rw [Function.update_of_ne other]
      exact registered
    · exact Or.inr waiting
  · intro t e registered
    obtain ⟨other, old⟩ := others t e registered
    obtain ⟨connected, room, rest⟩ := inv.registered t e old
    refine ⟨connected, ?_, rest⟩
    apply List.mem_filter.mpr
    refine ⟨room, ?_⟩
    simp [other]

/-- A socket that is not registered leaves a room. -/
theorem leaveRoom (inv : JoinInv c) (absent : c.socketToDocument s = none) (d : DocumentId) :
    JoinInv (c.leaveRoom s d) := by
  refine ⟨inv.agree, ?_, ?_, inv.last, inv.joined⟩
  · intro t e mem
    exact inv.room t e (List.mem_filter.mp mem).1
  · intro t e registered
    obtain ⟨connected, room, rest⟩ := inv.registered t e registered
    refine ⟨connected, ?_, rest⟩
    apply List.mem_filter.mpr
    refine ⟨room, ?_⟩
    have other : t ≠ s := by
      intro same
      change c.socketToDocument t = some e at registered
      rw [same, absent] at registered
      cases registered
    simp [other]

theorem removeUser_leaveRoom (c : CollaborationManager) (s : SocketId) (d : DocumentId) :
    (c.removeUser s).leaveRoom s d = (c.leaveRoom s d).removeUser s := by
  unfold CollaborationManager.leaveRoom CollaborationManager.removeUser
  dsimp only
  cases c.socketToDocument s with
  | none => rfl
  | some e => rfl

/-- A join enters the room and waits. -/
theorem join (inv : JoinInv c) (connected : c.status s = .connected) (d : DocumentId) :
    JoinInv { c.joinRoom s d with
      joins := c.joins ++ [⟨s, d, .joined⟩]
      lastJoin := Function.update c.lastJoin s (some c.joins.length) } := by
  have new : (c.joins ++ [(⟨s, d, .joined⟩ : Join)])[c.joins.length]? = some ⟨s, d, .joined⟩ :=
    List.getElem?_concat_length
  have entered : ∀ p, p ∈ (c.joinRoom s d).rooms ↔ p ∈ c.rooms ∨ p = (s, d) := by
    intro p
    unfold joinRoom
    dsimp only
    split
    next there =>
      constructor
      · exact Or.inl
      · intro h
        rcases h with old | new
        · exact old
        · rw [new]
          exact there
    next => simp
  refine ⟨inv.agree, ?_, ?_, ?_, ?_⟩
  · intro t e mem
    rcases (entered (t, e)).mp mem with old | here
    · obtain ⟨isConnected, why⟩ := inv.room t e old
      refine ⟨isConnected, ?_⟩
      rcases why with registered | ⟨i, j, there, rest⟩
      · exact Or.inl registered
      · exact Or.inr ⟨i, j, getElem?_concat_of there _, rest⟩
    · cases here
      exact ⟨connected, Or.inr ⟨c.joins.length, _, new, rfl, rfl, rfl⟩⟩
  · intro t e registered
    obtain ⟨isConnected, room, live, i, j, last, there, notFailed⟩ := inv.registered t e registered
    refine ⟨isConnected, (entered (t, e)).mpr (Or.inl room), live, ?_⟩
    by_cases same : t = s
    · refine ⟨c.joins.length, _, ?_, new, by simp⟩
      show Function.update c.lastJoin s (some c.joins.length) t = _
      rw [same, Function.update_self]
    · refine ⟨i, j, ?_, getElem?_concat_of there _, notFailed⟩
      show Function.update c.lastJoin s (some c.joins.length) t = _
      rw [Function.update_of_ne same]
      exact last
  · intro t i isLast
    change Function.update c.lastJoin s (some c.joins.length) t = some i at isLast
    by_cases same : t = s
    · rw [same, Function.update_self] at isLast
      cases Option.some.inj isLast
      exact ⟨_, new, same.symm⟩
    · rw [Function.update_of_ne same] at isLast
      obtain ⟨j, there, socket⟩ := inv.last t i isLast
      exact ⟨j, getElem?_concat_of there _, socket⟩
  · intro i j there
    show ∃ k, Function.update c.lastJoin s (some c.joins.length) j.socketId = some k
    by_cases same : j.socketId = s
    · rw [same, Function.update_self]
      exact ⟨_, rfl⟩
    · rw [Function.update_of_ne same]
      rcases getElem?_of_concat there with ⟨_, here⟩ | old
      · rw [here] at same
        exact absurd rfl same
      · exact inv.joined i j old

/-- A suspended join goes on to another wait. -/
theorem wait (inv : JoinInv c) {i : Nat} {j : Join} (there : c.joins[i]? = some j) {stage : JoinStage}
    (suspended : stage.suspended = true) : JoinInv (c.setStage i j stage) := by
  have notFailed : stage ≠ .finished false := by
    intro finished
    rw [finished] at suspended
    cases suspended
  have placed : ∀ (k : Nat) (j' : Join), c.joins[k]? = some j' →
      ∃ j'' : Join, (c.joins.set i { j with stage := stage })[k]? = some j'' ∧ j''.socketId = j'.socketId ∧
        j''.documentId = j'.documentId ∧ (j''.stage = stage ∨ j''.stage = j'.stage) := by
    intro k j' old
    by_cases same : k = i
    · subst same
      cases Option.some.inj (there.symm.trans old)
      exact ⟨_, getElem?_set_here there, rfl, rfl, Or.inl rfl⟩
    · refine ⟨j', ?_, rfl, rfl, Or.inr rfl⟩
      rw [List.getElem?_set_ne (Ne.symm same)]
      exact old
  refine ⟨inv.agree, ?_, ?_, ?_, ?_⟩
  · intro t e mem
    obtain ⟨connected, why⟩ := inv.room t e mem
    refine ⟨connected, ?_⟩
    rcases why with registered | ⟨k, j', old, socket, document, waits⟩
    · exact Or.inl registered
    · right
      obtain ⟨j'', new, socket', document', stages⟩ := placed k j' old
      refine ⟨k, j'', new, socket'.trans socket, document'.trans document, ?_⟩
      rcases stages with here | same
      · rw [here]
        exact suspended
      · rw [same]
        exact waits
  · intro t e registered
    obtain ⟨connected, room, live, k, j', last, old, fine⟩ := inv.registered t e registered
    obtain ⟨j'', new, _, _, stages⟩ := placed k j' old
    refine ⟨connected, room, live, k, j'', last, new, ?_⟩
    rcases stages with here | same
    · rw [here]
      exact notFailed
    · rw [same]
      exact fine
  · intro t k isLast
    obtain ⟨j', old, socket⟩ := inv.last t k isLast
    obtain ⟨j'', new, socket', _⟩ := placed k j' old
    exact ⟨j'', new, socket'.trans socket⟩
  · intro k j' new
    rcases getElem?_of_set new with ⟨_, here⟩ | ⟨_, old⟩
    · rw [here]
      exact inv.joined i j there
    · exact inv.joined k j' old

/-- A join that ends leaves the joins as they are that differ from it, be it in the socket or in the document. -/
theorem other_join {β : Type} {i k : Nat} {j j' : Join} {stage : JoinStage} (field : Join → β)
    (apart : field j' ≠ field j) (there : c.joins[i]? = some j) (old : c.joins[k]? = some j') :
    (c.joins.set i { j with stage := stage })[k]? = some j' := by
  have other : i ≠ k := by
    intro same
    subst same
    cases Option.some.inj (there.symm.trans old)
    exact apart rfl
  rw [List.getElem?_set_ne other]
  exact old

theorem ended_last (inv : JoinInv c) {i : Nat} {j : Join} (there : c.joins[i]? = some j) (stage : JoinStage) :
    (∀ (t : SocketId) (k : Nat), c.lastJoin t = some k →
      ∃ j' : Join, (c.joins.set i { j with stage := stage })[k]? = some j' ∧ j'.socketId = t) ∧
    ∀ (k : Nat) (j' : Join), (c.joins.set i { j with stage := stage })[k]? = some j' →
      ∃ l, c.lastJoin j'.socketId = some l := by
  constructor
  · intro t k isLast
    obtain ⟨j', old, socket⟩ := inv.last t k isLast
    by_cases same : k = i
    · subst same
      cases Option.some.inj (there.symm.trans old)
      exact ⟨_, getElem?_set_here there, socket⟩
    · refine ⟨j', ?_, socket⟩
      rw [List.getElem?_set_ne (Ne.symm same)]
      exact old
  · intro k j' new
    rcases getElem?_of_set new with ⟨_, here⟩ | ⟨_, old⟩
    · rw [here]
      exact inv.joined i j there
    · exact inv.joined k j' old

/-- A join registers its socket, which is still in the room, with the document the manager still holds. -/
theorem register (inv : JoinInv c) {i y : Nat} {j : Join} (there : c.joins[i]? = some j)
    (connected : c.status j.socketId = .connected) (room : (j.socketId, j.documentId) ∈ c.rooms)
    (live : c.docs.documents j.documentId = some y)
    (single : ∀ e, c.socketToDocument j.socketId = some e → e = j.documentId)
    (fine : ∀ k j', c.lastJoin j.socketId = some k → c.joins[k]? = some j' → j'.stage ≠ .finished false) :
    JoinInv { (c.addUser j.documentId j.socketId).setStage i j (.finished true) with
      sent := Function.update c.sent j.socketId (some y) } := by
  have added : c.addUser j.documentId j.socketId = { c with
      users := Function.update c.users j.documentId (if j.socketId ∈ c.users j.documentId then c.users j.documentId
        else c.users j.documentId ++ [j.socketId])
      socketToDocument := Function.update c.socketToDocument j.socketId (some j.documentId) } := by
    unfold addUser
    cases old : c.socketToDocument j.socketId with
    | none => rfl
    | some e =>
      cases single e old
      simp
  rw [added]
  obtain ⟨last, joined⟩ := inv.ended_last there (.finished true)
  have mapping : ∀ t e, Function.update c.socketToDocument j.socketId (some j.documentId) t = some e →
      (t = j.socketId ∧ e = j.documentId) ∨ (t ≠ j.socketId ∧ c.socketToDocument t = some e) := by
    intro t e registered
    by_cases same : t = j.socketId
    · rw [same, Function.update_self] at registered
      exact Or.inl ⟨same, (Option.some.inj registered).symm⟩
    · rw [Function.update_of_ne same] at registered
      exact Or.inr ⟨same, registered⟩
  refine ⟨?_, ?_, ?_, last, joined⟩
  · intro t e
    have users : ∀ t, t ∈ (if j.socketId ∈ c.users j.documentId then c.users j.documentId
        else c.users j.documentId ++ [j.socketId]) ↔ t ∈ c.users j.documentId ∨ t = j.socketId := by
      intro t
      split
      next there =>
        constructor
        · exact Or.inl
        · intro h
          rcases h with old | new
          · exact old
          · rw [new]
            exact there
      next => simp
    show t ∈ Function.update c.users j.documentId _ e ↔
      Function.update c.socketToDocument j.socketId (some j.documentId) t = some e
    by_cases same : t = j.socketId
    · rw [same, Function.update_self]
      by_cases here : e = j.documentId
      · rw [here, Function.update_self, users]
        simp
      · rw [Function.update_of_ne here, inv.agree]
        constructor
        · intro registered
          exact absurd (single e registered) here
        · intro registered
          exact absurd (Option.some.inj registered).symm here
    · rw [Function.update_of_ne same]
      by_cases here : e = j.documentId
      · rw [here, Function.update_self, users, inv.agree]
        simp [same]
      · rw [Function.update_of_ne here]
        exact inv.agree t e
  · intro t e mem
    obtain ⟨isConnected, why⟩ := inv.room t e mem
    refine ⟨isConnected, ?_⟩
    show Function.update c.socketToDocument j.socketId (some j.documentId) t = some e ∨ _
    by_cases same : t = j.socketId
    · by_cases here : e = j.documentId
      · rw [same, here, Function.update_self]
        exact Or.inl rfl
      · rcases why with registered | ⟨k, j', old, socket, document, waits⟩
        · rw [same] at registered
          exact absurd (single e registered) here
        · right
          refine ⟨k, j', other_join Join.documentId ?_ there old, socket, document, waits⟩
          rw [document]
          exact here
    · rw [Function.update_of_ne same]
      rcases why with registered | ⟨k, j', old, socket, document, waits⟩
      · exact Or.inl registered
      · right
        refine ⟨k, j', other_join Join.socketId ?_ there old, socket, document, waits⟩
        rw [socket]
        exact same
  · intro t e registered
    show c.status t = .connected ∧ (t, e) ∈ c.rooms ∧
      (∃ y', c.docs.documents e = some y' ∧ Function.update c.sent j.socketId (some y) t = some y') ∧
      ∃ (k : Nat) (j' : Join), c.lastJoin t = some k ∧ (c.joins.set i { j with stage := .finished true })[k]? = some j' ∧ _
    rcases mapping t e registered with ⟨same, here⟩ | ⟨other, old⟩
    · subst same here
      obtain ⟨k, isLast⟩ := inv.joined i j there
      obtain ⟨j', old, _⟩ := inv.last j.socketId k isLast
      refine ⟨connected, room, ⟨y, live, Function.update_self ..⟩, k, ?_⟩
      by_cases place : k = i
      · subst place
        exact ⟨_, isLast, getElem?_set_here there, by simp⟩
      · refine ⟨j', isLast, ?_, fine k j' isLast old⟩
        rw [List.getElem?_set_ne (Ne.symm place)]
        exact old
    · obtain ⟨isConnected, isRoom, isLive, k, j', isLast, oldJoin, notFailed⟩ := inv.registered t e old
      rw [Function.update_of_ne other]
      refine ⟨isConnected, isRoom, isLive, k, j', isLast, other_join Join.socketId ?_ there oldJoin, notFailed⟩
      obtain ⟨j'', here, socket⟩ := inv.last t k isLast
      cases Option.some.inj (oldJoin.symm.trans here)
      rw [socket]
      exact other

/-- A join that fails leaves the room; its socket is not registered. -/
theorem fail (inv : JoinInv c) {i : Nat} {j : Join} (there : c.joins[i]? = some j)
    (absent : c.socketToDocument j.socketId = none) :
    JoinInv ((c.leaveRoom j.socketId j.documentId).setStage i j (.finished false)) := by
  obtain ⟨last, joined⟩ := inv.ended_last there (.finished false)
  have others : ∀ t e, c.socketToDocument t = some e → t ≠ j.socketId := by
    intro t e registered same
    rw [same, absent] at registered
    cases registered
  refine ⟨inv.agree, ?_, ?_, last, joined⟩
  · intro t e mem
    obtain ⟨old, apart⟩ := List.mem_filter.mp mem
    obtain ⟨connected, why⟩ := inv.room t e old
    refine ⟨connected, ?_⟩
    rcases why with registered | ⟨k, j', oldJoin, socket, document, waits⟩
    · exact Or.inl registered
    · right
      by_cases same : t = j.socketId
      · have other : e ≠ j.documentId := by
          intro here
          rw [same, here] at apart
          simp at apart
        refine ⟨k, j', other_join Join.documentId ?_ there oldJoin, socket, document, waits⟩
        rw [document]
        exact other
      · refine ⟨k, j', other_join Join.socketId ?_ there oldJoin, socket, document, waits⟩
        rw [socket]
        exact same
  · intro t e registered
    have other := others t e registered
    obtain ⟨connected, room, live, k, j', isLast, old, notFailed⟩ := inv.registered t e registered
    refine ⟨connected, ?_, live, k, j', isLast, other_join Join.socketId ?_ there old, notFailed⟩
    · apply List.mem_filter.mpr
      refine ⟨room, ?_⟩
      simp [other]
    · obtain ⟨j'', here, socket⟩ := inv.last t k isLast
      cases Option.some.inj (old.symm.trans here)
      rw [socket]
      exact other

/-- A socket that is new is in no room and not registered. -/
theorem connect (inv : JoinInv c) (s : SocketId) :
    JoinInv { c with status := Function.update c.status s .connected } := by
  have connected : ∀ t, c.status t = .connected → Function.update c.status s .connected t = .connected := by
    intro t isConnected
    by_cases same : t = s
    · rw [same, Function.update_self]
    · rw [Function.update_of_ne same]
      exact isConnected
  refine ⟨inv.agree, ?_, ?_, inv.last, inv.joined⟩
  · intro t e mem
    obtain ⟨isConnected, why⟩ := inv.room t e mem
    exact ⟨connected t isConnected, why⟩
  · intro t e registered
    obtain ⟨isConnected, rest⟩ := inv.registered t e registered
    exact ⟨connected t isConnected, rest⟩

/-- A socket that is not registered disconnects. -/
theorem close (inv : JoinInv c) (absent : c.socketToDocument s = none) :
    JoinInv { c with
      status := Function.update c.status s .closed
      rooms := c.rooms.filter (·.1 ≠ s) } := by
  refine ⟨inv.agree, ?_, ?_, inv.last, inv.joined⟩
  · intro t e mem
    obtain ⟨old, other⟩ := List.mem_filter.mp mem
    obtain ⟨connected, why⟩ := inv.room t e old
    refine ⟨?_, why⟩
    show Function.update c.status s .closed t = .connected
    rw [Function.update_of_ne (by simpa using other)]
    exact connected
  · intro t e registered
    have other : t ≠ s := by
      intro same
      change c.socketToDocument t = some e at registered
      rw [same, absent] at registered
      cases registered
    obtain ⟨connected, room, rest⟩ := inv.registered t e registered
    refine ⟨?_, ?_, rest⟩
    · show Function.update c.status s .closed t = .connected
      rw [Function.update_of_ne other]
      exact connected
    · apply List.mem_filter.mpr
      refine ⟨room, ?_⟩
      simp [other]

end JoinInv

end Presence

end OtterWorks.Collab
