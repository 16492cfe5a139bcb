import Mathlib.Data.Finset.Insert
import Mathlib.Data.Finset.Lattice.Lemmas
import Mathlib.Logic.Function.Basic

namespace OtterWorks.Collab

abbrev DocumentId := String

abbrev SocketId := Nat

abbrev Update := Nat

/-- The commands of a `saveDocumentState`, one after the reply to the other. -/
inductive Command
  | setState
  | hsetDocumentId
  | hsetLastModifiedAt
  | hsetLastModifiedBy
  | hincrbyVersion
  | hgetCreatedAt
  | hsetCreatedAt
  | expire
  deriving DecidableEq, Repr

/-- The next command, by the reply to this one; it matters to `hget` only, which tells whether there is a time. -/
def Command.next (found : Bool) : Command → Option Command
  | .setState => some .hsetDocumentId
  | .hsetDocumentId => some .hsetLastModifiedAt
  | .hsetLastModifiedAt => some .hsetLastModifiedBy
  | .hsetLastModifiedBy => some .hincrbyVersion
  | .hincrbyVersion => some .hgetCreatedAt
  | .hgetCreatedAt => if found then some .expire else some .hsetCreatedAt
  | .hsetCreatedAt => some .expire
  | .expire => none

/-- Where a save stands: a command is sent, its reply is there (none if it is an error), or the save has ended. -/
inductive SaveStage
  | sent (command : Command)
  | replied (command : Command) (reply : Option Bool)
  | finished
  deriving DecidableEq, Repr

/-- A save with the state it has encoded; a cleanup goes on after its save. -/
structure Save where
  documentId : DocumentId
  state : Finset Update
  cleanup : Bool
  stage : SaveStage
  deriving DecidableEq

inductive LoadStage
  | sent
  | replied (reply : Option (Finset Update))
  | ready
  | failed
  deriving DecidableEq

/-- A `Y.Doc` is the set of the updates that have been applied to it; `load` is the promise that yields it. -/
structure YDoc where
  documentId : DocumentId
  updates : Finset Update
  load : LoadStage
  deriving DecidableEq

/-- A command in the order in which it was issued, with the one who waits for it. -/
inductive Operation
  | save (i : Nat) (command : Command)
  | load (y : Nat)
  deriving DecidableEq, Repr

/-- How a store operation ends: done, not done, or done with its reply lost. -/
inductive Outcome
  | ok
  | failed
  | lost
  deriving DecidableEq, Repr

/-- The documents of the manager, by their number in `instances`, and the store under them. `redis` is empty where
nothing is stored. `edits` has the updates stored at the start and those applied and broadcast since; `lastEdit` the
last of them that was new, with the save it issued; `stored` the last save whose state was written. -/
structure Docs where
  documents : DocumentId → Option Nat
  documentInitPromises : DocumentId → Option Nat
  cleaningUp : DocumentId → Bool
  instances : List YDoc
  saves : List Save
  queue : List Operation
  redis : DocumentId → Finset Update
  created : DocumentId → Bool
  edits : DocumentId → Finset Update
  lastEdit : DocumentId → Option (Nat × Update)
  stored : DocumentId → Option Nat

namespace Docs

/-- A `saveDocumentState` starts: its first command is sent at once. -/
def startSave (c : Docs) (d : DocumentId) (state : Finset Update) (cleanup : Bool) : Docs :=
  { c with
    saves := c.saves ++ [⟨d, state, cleanup, .sent .setState⟩]
    queue := c.queue ++ [.save c.saves.length .setState] }

def setStage (c : Docs) (i : Nat) (a : Save) (stage : SaveStage) : Docs :=
  { c with saves := c.saves.set i { a with stage := stage } }

/-- The document in the map. -/
def document (c : Docs) (d : DocumentId) : Option YDoc := (c.documents d).bind fun y => c.instances[y]?

/-- `persistAndCleanupDocument` up to the first reply. -/
def persistAndCleanupDocument (c : Docs) (d : DocumentId) : Docs :=
  if c.cleaningUp d then c
  else
    match c.document d with
    | none => c
    | some doc => { c.startSave d doc.updates true with cleaningUp := Function.update c.cleaningUp d true }

def saveDocument (c : Docs) (d : DocumentId) : Docs :=
  match c.document d with
  | none => c
  | some doc => c.startSave d doc.updates false

/-- An update that is applied, and the save that follows. -/
def applyUpdate (c : Docs) (d : DocumentId) (u : Update) : Docs :=
  match c.documents d with
  | none => c
  | some y =>
    match c.instances[y]? with
    | none => c
    | some doc =>
      let applied := { c with
        instances := c.instances.set y { doc with updates := insert u doc.updates }
        edits := Function.update c.edits d (insert u (c.edits d))
        lastEdit := if u ∈ c.edits d then c.lastEdit else Function.update c.lastEdit d (some (c.saves.length, u)) }
      applied.startSave d (insert u doc.updates) false

/-- `getOrCreateDoc` up to its first wait: the document to wait for. -/
def getOrCreateDoc (c : Docs) (d : DocumentId) : Docs × Nat :=
  match c.documents d with
  | some y => (c, y)
  | none =>
    match c.documentInitPromises d with
    | some y => (c, y)
    | none =>
      ({ c with
        documentInitPromises := Function.update c.documentInitPromises d (some c.instances.length)
        instances := c.instances ++ [⟨d, ∅, .sent⟩]
        queue := c.queue ++ [.load c.instances.length] }, c.instances.length)

/-- The load goes on after its reply. -/
def resumeLoad (c : Docs) (y : Nat) : Docs :=
  match c.instances[y]? with
  | some ⟨d, updates, .replied (some state)⟩ =>
    { c with
      instances := c.instances.set y ⟨d, updates ∪ state, .ready⟩
      documents := Function.update c.documents d (some y)
      documentInitPromises := Function.update c.documentInitPromises d none }
  | some ⟨d, updates, .replied none⟩ =>
    { c with
      instances := c.instances.set y ⟨d, updates, .failed⟩
      documentInitPromises := Function.update c.documentInitPromises d none }
  | _ => c

/-- A save goes on after a reply; at its end a cleanup removes the document if no user is there. -/
def resumeSave (c : Docs) (i : Nat) (noUsers : DocumentId → Bool) : Docs :=
  match c.saves[i]? with
  | none => c
  | some a =>
    match a.stage with
    | .replied command (some found) =>
      match command.next found with
      | some command => { c.setStage i a (.sent command) with queue := c.queue ++ [.save i command] }
      | none =>
        if a.cleanup then
          { c.setStage i a .finished with
            documents := if noUsers a.documentId then Function.update c.documents a.documentId none else c.documents
            cleaningUp := Function.update c.cleaningUp a.documentId false }
        else c.setStage i a .finished
    | .replied _ none =>
      { c.setStage i a .finished with
        cleaningUp := if a.cleanup then Function.update c.cleaningUp a.documentId false else c.cleaningUp }
    | _ => c

/-- What a command of a save does to the store. -/
def write (c : Docs) (i : Nat) (a : Save) : Command → Docs
  | .setState =>
    { c with
      redis := Function.update c.redis a.documentId a.state
      stored := Function.update c.stored a.documentId (some i) }
  | .hsetCreatedAt => { c with created := Function.update c.created a.documentId true }
  | _ => c

/-- The store executes the operation that was issued first. -/
def execute (c : Docs) (outcome : Outcome) : Docs :=
  match c.queue with
  | [] => c
  | .save i command :: rest =>
    match c.saves[i]? with
    | none => { c with queue := rest }
    | some a =>
      let reply := if outcome = .ok then some (c.created a.documentId) else none
      let written := if outcome = .failed then c else c.write i a command
      { written.setStage i a (.replied command reply) with queue := rest }
  | .load y :: rest =>
    match c.instances[y]? with
    | some ⟨d, updates, .sent⟩ =>
      let reply := if outcome = .ok then some (c.redis d) else none
      { c with instances := c.instances.set y ⟨d, updates, .replied reply⟩, queue := rest }
    | _ => { c with queue := rest }

/-- Nothing is in memory. -/
def start (redis : DocumentId → Finset Update) (created : DocumentId → Bool) : Docs where
  documents := fun _ => none
  documentInitPromises := fun _ => none
  cleaningUp := fun _ => false
  instances := []
  saves := []
  queue := []
  redis := redis
  created := created
  edits := redis
  lastEdit := fun _ => none
  stored := fun _ => none

end Docs

end OtterWorks.Collab
