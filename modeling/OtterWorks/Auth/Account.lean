import OtterWorks.Lib.Text

namespace OtterWorks.Auth

/-- What is relied on of the encoder: it compares what it reads of two passwords, with bcrypt their first 72 bytes. -/
structure PasswordEncoder where
  encode (salt rawPassword : Text) : Text
  passwordMatches (rawPassword encodedPassword : Text) : Bool
  reads (rawPassword : Text) : Text
  matches_encode (salt rawPassword other : Text) :
    passwordMatches other (encode salt rawPassword) = true ↔ reads other = reads rawPassword

/-- The columns of a user row that a request here sets. -/
structure User where
  email : Text
  passwordHash : Text
  displayName : Text
  avatarUrl : Option Text
  lastLoginAt : Option Nat
  deriving DecidableEq, Repr

/-- A committed row. `holder` is the transaction that has it locked, and `epoch` counts the changes to a different
password that had been committed when the password behind the token was checked. -/
structure RefreshToken where
  tokenId : Text
  expiresAt : Nat
  revoked : Bool
  holder : Option Nat
  epoch : Nat
  deriving DecidableEq, Repr

structure RegisterRequest where
  email : Text
  password : Text
  displayName : Text
  deriving DecidableEq, Repr

structure UpdateProfileRequest where
  displayName : Option Text
  avatarUrl : Option Text
  deriving DecidableEq, Repr

structure ChangePasswordRequest where
  currentPassword : Text
  newPassword : Text
  deriving DecidableEq, Repr

/-- What an open transaction holds in memory: the user as loaded and as changed, and the rows that the statement of
`revokeAllByUserId` saw when it started. -/
inductive Work
  | register (user : User) (password : Text)
  | login (loaded user : User) (epoch : Nat)
  | updateProfile (loaded user : User)
  | changePassword (loaded user : User) (request : ChangePasswordRequest) (rows : Option (List Text))
  | refreshToken (epoch : Nat)
  | logout (rows : Option (List Text))
  | done
  deriving DecidableEq, Repr

/-- One user's rows, the transactions by number, and what the runs are judged by: the password in force, the number of
changes to a different one, the passwords that the last of them replaced, and for every accepted refresh token its epoch
and that number. -/
structure Account where
  user : Option User
  tokens : List RefreshToken
  txs : List Work
  password : Text
  epoch : Nat
  replaced : List Text
  accepted : List (Nat × Nat)
  deriving DecidableEq, Repr

inductive AuthEvent
  | register (request : RegisterRequest) (salt : Text)
  | login (password : Text) (now : Nat)
  | updateProfile (request : UpdateProfileRequest)
  | changePassword (request : ChangePasswordRequest) (salt : Text)
  | refreshToken (tokenId : Text) (now : Nat)
  | logout
  | revokeAll (tx : Nat)
  | lockRow (tx : Nat) (tokenId : Text)
  | commit (tx : Nat) (tokenId : Text) (expiresAt : Nat)
  | rollback (tx : Nat)
  deriving DecidableEq, Repr

/-- A changed entity is written with every column, an unchanged one not at all. -/
def flush (loaded user : User) (row : Option User) : Option User := if user = loaded then row else some user

def UpdateProfileRequest.apply (request : UpdateProfileRequest) (user : User) : User :=
  let named := match request.displayName with
    | some displayName => { user with displayName := displayName }
    | none => user
  match request.avatarUrl with
  | some avatarUrl => { named with avatarUrl := some avatarUrl }
  | none => named

/-- The passwords that a change replaces: the one given as current and the one in force. -/
def replacedBy (request : ChangePasswordRequest) (inForce : Text) : List Text :=
  [request.currentPassword, inForce].filter (· ≠ request.newPassword)

namespace Account

def start : Account := ⟨none, [], [], [], 0, [], []⟩

/-- `SELECT … FOR UPDATE` and the rows of an `UPDATE`: a row that is free. -/
def lock (s : Account) (tx : Nat) (tokenId : Text) : List RefreshToken :=
  s.tokens.map fun t => if t.tokenId = tokenId ∧ t.holder = none then { t with holder := some tx } else t

/-- The transaction ends: whatever row it had locked, it was to revoke it. -/
def unlock (s : Account) (tx : Nat) (revoke : Bool) : List RefreshToken :=
  s.tokens.map fun t => if t.holder = some tx then { t with revoked := t.revoked || revoke, holder := none } else t

def rollback (s : Account) (tx : Nat) : Account := { s with tokens := s.unlock tx false, txs := s.txs.set tx .done }

def committed (s : Account) (tx : Nat) : Account := { s with tokens := s.unlock tx true, txs := s.txs.set tx .done }

def taken (s : Account) (tokenId : Text) : Bool := s.tokens.any fun t => t.tokenId = tokenId

/-- The token of `buildAuthResponse`; its id is unique. -/
def issue (s : Account) (tx : Nat) (tokenId : Text) (expiresAt epoch : Nat) (after : Account) : Account :=
  if s.taken tokenId then s.rollback tx
  else { after with tokens := after.tokens ++ [⟨tokenId, expiresAt, false, none, epoch⟩] }

/-- All rows that the statement saw are locked by now. -/
def locked (s : Account) (tx : Nat) (rows : List Text) : Bool :=
  s.tokens.all fun t => t.tokenId ∉ rows ∨ t.holder = some tx

def commitChange (s : Account) (tx : Nat) (loaded user : User) (request : ChangePasswordRequest) : Account :=
  let replaced := replacedBy request s.password
  { s.committed tx with
    user := flush loaded user s.user
    password := request.newPassword
    epoch := if replaced = [] then s.epoch else s.epoch + 1
    replaced := if replaced = [] then s.replaced else replaced }

/-- The flush and the commit. -/
def commit (s : Account) (tx : Nat) (tokenId : Text) (expiresAt : Nat) : Work → Account
  | .register user password =>
    if s.user.isSome then s.rollback tx
    else s.issue tx tokenId expiresAt s.epoch { s.committed tx with user := some user, password := password }
  | .login loaded user epoch =>
    s.issue tx tokenId expiresAt epoch { s.committed tx with user := flush loaded user s.user }
  | .updateProfile loaded user => { s.committed tx with user := flush loaded user s.user }
  | .changePassword loaded user request (some rows) => if s.locked tx rows then s.commitChange tx loaded user request else s
  | .refreshToken epoch =>
    s.issue tx tokenId expiresAt epoch { s.committed tx with accepted := (epoch, s.epoch) :: s.accepted }
  | .logout (some rows) => if s.locked tx rows then s.committed tx else s
  | .changePassword _ _ _ none => s
  | .logout none => s
  | .done => s

/-- The `UPDATE` starts and sees the rows that are committed. -/
def revokeAll (s : Account) (tx : Nat) : Work → Account
  | .changePassword loaded user request none =>
    { s with txs := s.txs.set tx (.changePassword loaded user request (some (s.tokens.map (·.tokenId)))) }
  | .logout none => { s with txs := s.txs.set tx (.logout (some (s.tokens.map (·.tokenId)))) }
  | _ => s

def lockRow (s : Account) (tx : Nat) (tokenId : Text) : Work → Account
  | .changePassword _ _ _ (some rows) => if tokenId ∈ rows then { s with tokens := s.lock tx tokenId } else s
  | .logout (some rows) => if tokenId ∈ rows then { s with tokens := s.lock tx tokenId } else s
  | _ => s

def begin (s : Account) (work : Work) : Account := { s with txs := s.txs ++ [work] }

def register (enc : PasswordEncoder) (s : Account) (request : RegisterRequest) (salt : Text) : Account :=
  match s.user with
  | some _ => s
  | none =>
    let user := ⟨request.email, enc.encode salt request.password, request.displayName, none, none⟩
    s.begin (.register user request.password)

def login (enc : PasswordEncoder) (s : Account) (password : Text) (now : Nat) : Account :=
  match s.user with
  | none => s
  | some user =>
    if enc.passwordMatches password user.passwordHash then s.begin (.login user { user with lastLoginAt := some now } s.epoch)
    else s

def updateProfile (s : Account) (request : UpdateProfileRequest) : Account :=
  match s.user with
  | none => s
  | some user => s.begin (.updateProfile user (request.apply user))

/-- A fresh salt never gives the stored hash again. -/
def changePassword (enc : PasswordEncoder) (s : Account) (request : ChangePasswordRequest) (salt : Text) : Account :=
  match s.user with
  | none => s
  | some user =>
    let hash := enc.encode salt request.newPassword
    if enc.passwordMatches request.currentPassword user.passwordHash ∧ hash ≠ user.passwordHash then
      s.begin (.changePassword user { user with passwordHash := hash } request none)
    else s

/-- `findByTokenIdAndRevokedFalse` waits while the row is locked. -/
def refreshToken (s : Account) (tokenId : Text) (now : Nat) : Account :=
  match s.tokens.find? fun t => t.tokenId = tokenId ∧ t.revoked = false with
  | none => s
  | some t =>
    if t.holder.isSome then s
    else if t.expiresAt < now then s
    else { s with tokens := s.lock s.txs.length tokenId }.begin (.refreshToken t.epoch)

def step (enc : PasswordEncoder) (s : Account) : AuthEvent → Account
  | .register request salt => s.register enc request salt
  | .login password now => s.login enc password now
  | .updateProfile request => s.updateProfile request
  | .changePassword request salt => s.changePassword enc request salt
  | .refreshToken tokenId now => s.refreshToken tokenId now
  | .logout => s.begin (.logout none)
  | .revokeAll tx =>
    match s.txs[tx]? with
    | some work => s.revokeAll tx work
    | none => s
  | .lockRow tx tokenId =>
    match s.txs[tx]? with
    | some work => s.lockRow tx tokenId work
    | none => s
  | .commit tx tokenId expiresAt =>
    match s.txs[tx]? with
    | some work => s.commit tx tokenId expiresAt work
    | none => s
  | .rollback tx => s.rollback tx

end Account

end OtterWorks.Auth
