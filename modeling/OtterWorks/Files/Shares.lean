import OtterWorks.Files.Records
import OtterWorks.Lib.FirstMax
import OtterWorks.Lib.Upsert

namespace OtterWorks.Files

inductive SharePermission
  | viewer
  | editor
  deriving DecidableEq, Repr

structure FileShare where
  id : Uuid
  fileId : Uuid
  sharedWith : Uuid
  permission : SharePermission
  sharedBy : Uuid
  createdAt : Nat
  deriving DecidableEq, Repr

/-- The file and the user of a share. -/
def FileShare.pair (s : FileShare) : Uuid × Uuid := (s.fileId, s.sharedWith)

/-- The row of a `put_item`: it replaces the row under its id. -/
def putShare (shares : List FileShare) (share : FileShare) : List FileShare :=
  upsert (fun s => s.id = share.id) (fun _ => share) share shares

def deleteShare (shares : List FileShare) (id : Uuid) : List FileShare := shares.filter fun s => s.id ≠ id

/-- The first row of the scan that matches, in the order the table is scanned. -/
def findExistingShare (scan : Scan FileShare) (shares : List FileShare) (pair : Uuid × Uuid) : Option FileShare :=
  (scan.order shares).find? fun s => s.pair = pair

structure ShareFileRequest where
  fileId : Uuid
  sharedWith : Uuid
  permission : SharePermission
  sharedBy : Uuid
  deriving DecidableEq, Repr

def ShareFileRequest.pair (req : ShareFileRequest) : Uuid × Uuid := (req.fileId, req.sharedWith)

def ShareFileRequest.share (req : ShareFileRequest) (id now : Nat) : FileShare :=
  ⟨id, req.fileId, req.sharedWith, req.permission, req.sharedBy, now⟩

/-- The call a `share_file` is at. -/
inductive ShareStage
  | getFile
  | findExisting
  | create
  | update (existing : FileShare)
  | finished
  deriving DecidableEq, Repr

/-- The call a `remove_share` is at. -/
inductive RemoveStage
  | getFile
  | findExisting
  | delete (share : FileShare)
  | finished
  deriving DecidableEq, Repr

inductive ShareHandler
  | share (req : ShareFileRequest) (stage : ShareStage)
  | remove (pair : Uuid × Uuid) (stage : RemoveStage)
  deriving DecidableEq, Repr

/-- A `share_file` for the pair that has not ended. -/
def ShareHandler.sharing (pair : Uuid × Uuid) : ShareHandler → Bool
  | .share _ .finished => false
  | .share req _ => req.pair = pair
  | .remove _ _ => false

/-- The tables and the handlers under way. `drawn` has the pair each share id was drawn for; `revoked` lists the
pairs of which a removal has succeeded while no `share_file` of theirs was running, and none has started since. -/
structure Sharing where
  files : Uuid → Option FileMetadata
  fileKeys : ∀ id file, files id = some file → file.id = id
  shares : List FileShare
  handlers : List ShareHandler
  drawn : Uuid → Option (Uuid × Uuid)
  revoked : List (Uuid × Uuid)

/-- What can happen next: a request arrives, the handler goes on with its next call, or that call fails. -/
inductive ShareEvent
  | share (req : ShareFileRequest)
  | remove (pair : Uuid × Uuid)
  | next (i : Nat) (scan : Scan FileShare) (id now : Nat)
  | fail (i : Nat)

namespace Sharing

def setHandler (s : Sharing) (i : Nat) (h : ShareHandler) : Sharing := { s with handlers := s.handlers.set i h }

def isShared (s : Sharing) (pair : Uuid × Uuid) : Bool := s.handlers.any (ShareHandler.sharing pair)

/-- The next call of a handler; a new share draws an id that no share has drawn before. -/
def next (s : Sharing) (i : Nat) (scan : Scan FileShare) (id now : Nat) : ShareHandler → Sharing
  | .share req .getFile =>
    s.setHandler i (.share req (if (s.files req.fileId).isSome then .findExisting else .finished))
  | .share req .findExisting =>
    match findExistingShare scan s.shares req.pair with
    | none => s.setHandler i (.share req .create)
    | some existing =>
      s.setHandler i (.share req (if existing.permission ≠ req.permission then .update existing else .finished))
  | .share req .create =>
    if s.drawn id = none then
      { s.setHandler i (.share req .finished) with
        shares := putShare s.shares (req.share id now)
        drawn := Function.update s.drawn id (some req.pair) }
    else s
  | .share req (.update existing) =>
    { s.setHandler i (.share req .finished) with
      shares := putShare s.shares (req.share existing.id existing.createdAt) }
  | .share _ .finished => s
  | .remove pair .getFile => s.setHandler i (.remove pair (if (s.files pair.1).isSome then .findExisting else .finished))
  | .remove pair .findExisting =>
    match findExistingShare scan s.shares pair with
    | none => s.setHandler i (.remove pair .finished)
    | some share => s.setHandler i (.remove pair (.delete share))
  | .remove pair (.delete share) =>
    { s.setHandler i (.remove pair .finished) with
      shares := deleteShare s.shares share.id
      revoked := if s.isShared pair then s.revoked else pair :: s.revoked }
  | .remove _ .finished => s

/-- A failed call ends its handler. -/
def fail (s : Sharing) (i : Nat) : ShareHandler → Sharing
  | .share req _ => s.setHandler i (.share req .finished)
  | .remove pair _ => s.setHandler i (.remove pair .finished)

def step (s : Sharing) : ShareEvent → Sharing
  | .share req =>
    { s with
      handlers := s.handlers ++ [.share req .getFile]
      revoked := s.revoked.filter fun pair => pair ≠ req.pair }
  | .remove pair => { s with handlers := s.handlers ++ [.remove pair .getFile] }
  | .next i scan id now =>
    match s.handlers[i]? with
    | none => s
    | some h => s.next i scan id now h
  | .fail i =>
    match s.handlers[i]? with
    | none => s
    | some h => s.fail i h

/-- The files of `list_shared_files`, page after page. -/
def listSharedFiles (scan : Scan FileShare) (s : Sharing) (user : Uuid) : List FileMetadata :=
  ((((scan.order s.shares).filter fun r => r.sharedWith = user).map FileShare.fileId).eraseDups.filterMap s.files).filter
    fun file => !file.isTrashed

/-- No share is stored and no request is under way. -/
def start (files : Uuid → Option FileMetadata) (fileKeys : ∀ id file, files id = some file → file.id = id) : Sharing :=
  ⟨files, fileKeys, [], [], fun _ => none, []⟩

end Sharing

end OtterWorks.Files
