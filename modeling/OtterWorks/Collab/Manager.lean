import OtterWorks.Collab.Store

namespace OtterWorks.Collab

inductive SocketStatus
  | new
  | connected
  | closed
  deriving DecidableEq, Repr

/-- Where a `handleJoinDocument` waits: for the room, for the document, or not any more. -/
inductive JoinStage
  | joined
  | awaiting (y : Nat)
  | finished (success : Bool)
  deriving DecidableEq, Repr

structure Join where
  socketId : SocketId
  documentId : DocumentId
  stage : JoinStage
  deriving DecidableEq, Repr

/-- The manager, the awareness service (`users`, `socketToDocument`) and the sockets with their rooms. `lastJoin` has
the last join of a socket and `sent` the document whose state it was sent last. -/
structure CollaborationManager where
  docs : Docs
  status : SocketId → SocketStatus
  rooms : List (SocketId × DocumentId)
  users : DocumentId → List SocketId
  socketToDocument : SocketId → Option DocumentId
  joins : List Join
  lastJoin : SocketId → Option Nat
  sent : SocketId → Option Nat

/-- The `update` of a message: one of a `Y.Doc`, a text that is none, or a JSON patch of an older client. -/
inductive Payload
  | yjs (u : Update)
  | malformed
  | json
  deriving DecidableEq, Repr

/-- What can happen next: a message or a timer, or the wait of a handler is over, or the store executes a command. -/
inductive Event
  | connect (s : SocketId)
  | joinDocument (s : SocketId) (d : DocumentId)
  | leaveDocument (s : SocketId) (d : DocumentId)
  | documentUpdate (s : SocketId) (d : DocumentId) (update : Payload)
  | disconnect (s : SocketId)
  | evict (stale : List SocketId)
  | periodicSave (d : DocumentId)
  | resumeJoin (i : Nat)
  | resumeLoad (y : Nat)
  | resumeSave (i : Nat)
  | execute (outcome : Outcome)
  deriving DecidableEq, Repr

namespace CollaborationManager

def addUser (c : CollaborationManager) (d : DocumentId) (s : SocketId) : CollaborationManager :=
  let users := match c.socketToDocument s with
    | some old => if old ≠ d then Function.update c.users old ((c.users old).filter (· ≠ s)) else c.users
    | none => c.users
  { c with
    users := Function.update users d (if s ∈ users d then users d else users d ++ [s])
    socketToDocument := Function.update c.socketToDocument s (some d) }

def removeUser (c : CollaborationManager) (s : SocketId) : CollaborationManager :=
  match c.socketToDocument s with
  | none => c
  | some d =>
    { c with
      users := Function.update c.users d ((c.users d).filter (· ≠ s))
      socketToDocument := Function.update c.socketToDocument s none }

def getDocumentUserCount (c : CollaborationManager) (d : DocumentId) : Nat := (c.users d).length

/-- An empty id is no id. -/
def getUserDocument (c : CollaborationManager) (s : SocketId) : Option DocumentId := (c.socketToDocument s).filter (· ≠ "")

instance : LawfulBEq (SocketId × DocumentId) := inferInstance

def joinRoom (c : CollaborationManager) (s : SocketId) (d : DocumentId) : CollaborationManager :=
  { c with rooms := if (s, d) ∈ c.rooms then c.rooms else c.rooms ++ [(s, d)] }

def leaveRoom (c : CollaborationManager) (s : SocketId) (d : DocumentId) : CollaborationManager :=
  { c with rooms := c.rooms.filter (· ≠ (s, d)) }

/-- The check after a user has gone. -/
def cleanupIfEmpty (c : CollaborationManager) (d : DocumentId) : CollaborationManager :=
  if c.getDocumentUserCount d = 0 then { c with docs := c.docs.persistAndCleanupDocument d } else c

def setStage (c : CollaborationManager) (i : Nat) (j : Join) (stage : JoinStage) : CollaborationManager :=
  { c with joins := c.joins.set i { j with stage := stage } }

/-- A socket that joins another document leaves the one it is in. -/
def switchOut (c : CollaborationManager) (s : SocketId) (d : DocumentId) : CollaborationManager :=
  match c.getUserDocument s with
  | some old => if old ≠ d then ((c.leaveRoom s old).removeUser s).cleanupIfEmpty old else c
  | none => c

/-- `handleJoinDocument` up to its first wait. -/
def handleJoinDocument (c : CollaborationManager) (s : SocketId) (d : DocumentId) : CollaborationManager :=
  let c := (c.switchOut s d).joinRoom s d
  { c with
    joins := c.joins ++ [⟨s, d, .joined⟩]
    lastJoin := Function.update c.lastJoin s (some c.joins.length) }

/-- A join goes on: it asks for the document, and with the document it registers its socket. -/
def resumeJoin (c : CollaborationManager) (i : Nat) : CollaborationManager :=
  match c.joins[i]? with
  | none => c
  | some j =>
    match j.stage with
    | .joined =>
      let (docs, y) := c.docs.getOrCreateDoc j.documentId
      { c.setStage i j (.awaiting y) with docs := docs }
    | .awaiting y =>
      match c.docs.instances[y]? with
      | some ⟨_, _, .ready⟩ =>
        { (c.addUser j.documentId j.socketId).setStage i j (.finished true) with
          sent := Function.update c.sent j.socketId (some y) }
      | some ⟨_, _, .failed⟩ => (c.leaveRoom j.socketId j.documentId).setStage i j (.finished false)
      | _ => c
    | .finished _ => c

def handleLeaveDocument (c : CollaborationManager) (s : SocketId) (d : DocumentId) : CollaborationManager :=
  let trackedDocId := (c.socketToDocument s).getD d
  ((c.removeUser s).leaveRoom s trackedDocId).cleanupIfEmpty trackedDocId

/-- A socket that disconnects is in no room any more when its handler runs. -/
def handleDisconnect (c : CollaborationManager) (s : SocketId) : CollaborationManager :=
  let closed := { c with
    status := Function.update c.status s .closed
    rooms := c.rooms.filter (·.1 ≠ s) }
  match c.socketToDocument s with
  | none => closed
  | some d => (closed.removeUser s).cleanupIfEmpty d

def handleDocumentUpdate (c : CollaborationManager) (d : DocumentId) : Payload → CollaborationManager
  | .yjs u => { c with docs := c.docs.applyUpdate d u }
  | .malformed => c
  | .json => { c with docs := c.docs.saveDocument d }

/-- An idle socket leaves the awareness service and, while it is connected, its room. -/
def evictUser (c : CollaborationManager) (s : SocketId) : CollaborationManager :=
  match c.socketToDocument s with
  | none => c
  | some d => if c.status s = .connected then (c.removeUser s).leaveRoom s d else c.removeUser s

/-- One run of the cleanup timer: the idle sockets go first, then the documents left without a user are saved. -/
def evict (c : CollaborationManager) (stale : List SocketId) : CollaborationManager :=
  (stale.filterMap c.socketToDocument).eraseDups.foldl cleanupIfEmpty (stale.foldl evictUser c)

def noUsers (c : CollaborationManager) (d : DocumentId) : Bool := c.getDocumentUserCount d = 0

def step (c : CollaborationManager) : Event → CollaborationManager
  | .connect s => if c.status s = .new then { c with status := Function.update c.status s .connected } else c
  | .joinDocument s d => if c.status s = .connected then c.handleJoinDocument s d else c
  | .leaveDocument s d => if c.status s = .connected then c.handleLeaveDocument s d else c
  | .documentUpdate s d update => if c.status s = .connected then c.handleDocumentUpdate d update else c
  | .disconnect s => if c.status s = .connected then c.handleDisconnect s else c
  | .evict stale => c.evict stale
  | .periodicSave d => { c with docs := c.docs.saveDocument d }
  | .resumeJoin i => c.resumeJoin i
  | .resumeLoad y => { c with docs := c.docs.resumeLoad y }
  | .resumeSave i => { c with docs := c.docs.resumeSave i c.noUsers }
  | .execute outcome => { c with docs := c.docs.execute outcome }

/-- The service as it starts, over what is stored. -/
def start (redis : DocumentId → Finset Update) (created : DocumentId → Bool) : CollaborationManager where
  docs := .start redis created
  status := fun _ => .new
  rooms := []
  users := fun _ => []
  socketToDocument := fun _ => none
  joins := []
  lastJoin := fun _ => none
  sent := fun _ => none

end CollaborationManager

end OtterWorks.Collab
