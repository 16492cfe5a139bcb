import OtterWorks.Lib.Lineage
import OtterWorks.Lib.Text

namespace OtterWorks.Auth

/-- A committed row of `refresh_tokens`. `holder` is the call whose transaction has it locked. -/
structure TokenRow where
  tokenId : Text
  userId : Text
  expiresAt : Nat
  revoked : Bool
  holder : Option Nat
  deriving DecidableEq, Repr

/-- The payload of a signed token that has not expired. -/
structure TokenClaims where
  id : Option Text
  subject : Text
  type : Option Text
  deriving DecidableEq, Repr

/-- What an open transaction has done: `finding` waits in `findByTokenIdAndRevokedFalse`, having seen the row, and
`exchanging` holds it; `revoking` has, once its statement has started, the rows that the statement saw. -/
inductive Call
  | register (userId : Text)
  | login (userId : Text)
  | validated (jti userId : Text)
  | finding (jti userId : Text)
  | exchanging (jti userId : Text)
  | revoking (userId : Text) (rows : Option (List Text))
  | done
  deriving DecidableEq, Repr

/-- The users, their tokens and the calls by number. The runs are judged by `issued`, which has every token of a
committed call with the token exchanged for it, the newest first, and by the calls that `succeeded`. -/
structure Sessions where
  users : List Text
  rows : List TokenRow
  calls : List Call
  issued : List (Option Text × Text)
  succeeded : List Nat
  deriving DecidableEq, Repr

/-- A call starts, or one of its statements runs. `rollback` is any failure: of a statement, of the connection or of
the process, and of a call that a deadlock ends. -/
inductive SessionEvent
  | register (userId : Text)
  | login (userId : Text)
  | refreshToken (claims : Option TokenClaims)
  | logout (userId : Text)
  | changePassword (userId : Text)
  | select (call : Nat)
  | acquire (call : Nat) (now : Nat)
  | revokeAll (call : Nat)
  | lockRow (call : Nat) (tokenId : Text)
  | commit (call : Nat) (tokenId : Text) (expiresAt : Nat)
  | rollback (call : Nat)
  deriving DecidableEq, Repr

/-- The call that a statement belongs to. -/
def SessionEvent.call? : SessionEvent → Option Nat
  | .select call => some call
  | .acquire call _ => some call
  | .revokeAll call => some call
  | .lockRow call _ => some call
  | .commit call _ _ => some call
  | .rollback call => some call
  | _ => none

/-- `extractJti` and `validateRefreshTokenAndGetUserId`. -/
def validateRefreshToken : Option TokenClaims → Option (Text × Text)
  | some ⟨some jti, subject, some type⟩ => if type = text "refresh" then some (jti, subject) else none
  | _ => none

namespace Sessions

def start : Sessions := ⟨[], [], [], [], []⟩

/-- The row of a token that is free becomes the call's. -/
def lock (s : Sessions) (call : Nat) (tokenId : Text) : List TokenRow :=
  s.rows.map fun r => if r.tokenId = tokenId ∧ r.holder = none then { r with holder := some call } else r

/-- The transaction ends: whatever row it had locked, it was to revoke it. -/
def unlock (s : Sessions) (call : Nat) (revoke : Bool) : List TokenRow :=
  s.rows.map fun r => if r.holder = some call then { r with revoked := r.revoked || revoke, holder := none } else r

def begin (s : Sessions) (call : Call) : Sessions := { s with calls := s.calls ++ [call] }

def goOn (s : Sessions) (call : Nat) (next : Call) : Sessions := { s with calls := s.calls.set call next }

def rollback (s : Sessions) (call : Nat) : Sessions :=
  { s with rows := s.unlock call false, calls := s.calls.set call .done }

def committed (s : Sessions) (call : Nat) : Sessions :=
  { s with rows := s.unlock call true, calls := s.calls.set call .done, succeeded := call :: s.succeeded }

/-- The row that `buildAuthResponse` inserts; its id is unique. -/
def issue (s : Sessions) (call : Nat) (parent : Option Text) (userId tokenId : Text) (expiresAt : Nat)
    (users : List Text) : Sessions :=
  if s.rows.any fun r => r.tokenId = tokenId then s.rollback call
  else
    { s.committed call with
      users := users
      rows := s.unlock call true ++ [⟨tokenId, userId, expiresAt, false, none⟩]
      issued := (parent, tokenId) :: s.issued }

/-- All rows that the statement saw are the call's by now. -/
def locked (s : Sessions) (call : Nat) (rows : List Text) : Bool :=
  s.rows.all fun r => r.tokenId ∉ rows ∨ r.holder = some call

def commit (s : Sessions) (call : Nat) (tokenId : Text) (expiresAt : Nat) : Call → Sessions
  | .register userId =>
    if s.users.contains userId then s.rollback call
    else s.issue call none userId tokenId expiresAt (s.users ++ [userId])
  | .login userId => s.issue call none userId tokenId expiresAt s.users
  | .exchanging jti userId =>
    if s.users.contains userId then s.issue call (some jti) userId tokenId expiresAt s.users else s.rollback call
  | .revoking _ (some rows) => if s.locked call rows then s.committed call else s
  | _ => s

/-- `findByTokenIdAndRevokedFalse` looks for the row among those committed. -/
def select (s : Sessions) (call : Nat) : Call → Sessions
  | .validated jti userId =>
    if s.rows.any fun r => r.tokenId = jti ∧ r.revoked = false then s.goOn call (.finding jti userId) else s.rollback call
  | _ => s

/-- Once the row is free it is locked and read again; it may have been revoked meanwhile, or have expired. -/
def acquire (s : Sessions) (call now : Nat) : Call → Sessions
  | .finding jti userId =>
    match s.rows.find? fun r => r.tokenId = jti with
    | none => s.rollback call
    | some r =>
      if r.holder.isSome then s
      else if r.revoked then s.rollback call
      else if r.expiresAt < now then s.rollback call
      else { s with rows := s.lock call jti }.goOn call (.exchanging jti userId)
  | _ => s

/-- `revokeAllByUserId` starts and sees the user's rows that are committed. -/
def revokeAll (s : Sessions) (call : Nat) : Call → Sessions
  | .revoking userId none =>
    s.goOn call (.revoking userId (some ((s.rows.filter fun r => r.userId = userId).map (·.tokenId))))
  | _ => s

def lockRow (s : Sessions) (call : Nat) (tokenId : Text) : Call → Sessions
  | .revoking _ (some rows) => if tokenId ∈ rows then { s with rows := s.lock call tokenId } else s
  | _ => s

/-- A statement of a call that is there. -/
def onCall (s : Sessions) (call : Nat) (statement : Call → Sessions) : Sessions :=
  match s.calls[call]? with
  | some work => statement work
  | none => s

def step (s : Sessions) : SessionEvent → Sessions
  | .register userId => s.begin (.register userId)
  | .login userId => if s.users.contains userId then s.begin (.login userId) else s
  | .refreshToken claims =>
    match validateRefreshToken claims with
    | some (jti, userId) => s.begin (.validated jti userId)
    | none => s
  | .logout userId => s.begin (.revoking userId none)
  | .changePassword userId => if s.users.contains userId then s.begin (.revoking userId none) else s
  | .select call => s.onCall call (s.select call)
  | .acquire call now => s.onCall call (s.acquire call now)
  | .revokeAll call => s.onCall call (s.revokeAll call)
  | .lockRow call tokenId => s.onCall call (s.lockRow call tokenId)
  | .commit call tokenId expiresAt => s.onCall call (s.commit call tokenId expiresAt)
  | .rollback call => s.rollback call

def run (events : List SessionEvent) : Sessions := events.foldl step start

/-- The tokens as other transactions see them. -/
def tokens (s : Sessions) : List (Text × Text × Nat × Bool) :=
  s.rows.map fun r => (r.tokenId, r.userId, r.expiresAt, r.revoked)

end Sessions

end OtterWorks.Auth
