import Mathlib.Data.List.Nodup

namespace OtterWorks.Auth

/-- A JSON value as far as a reader of claims tells it from others. -/
inductive ClaimValue
  | null
  | text (s : String)
  | list (elements : List ClaimValue)
  | other

/-- The members of a token's payload. -/
structure ClaimSet where
  members : List (String × ClaimValue)
  distinct : (members.map Prod.fst).Nodup

/-- `get(name, String.class)`: a value of another type raises. -/
def ClaimSet.getString (claims : ClaimSet) (name : String) : Option (Option String) :=
  match claims.members.lookup name with
  | none => some none
  | some .null => some none
  | some (.text s) => some (some s)
  | some _ => none

def ClaimSet.getSubject (claims : ClaimSet) : Option String := (claims.getString "sub").join

/-- One element of `roles` as a lambda over strings meets it. -/
def authority : ClaimValue → Option String
  | .null => some "ROLE_null"
  | .text role => some ("ROLE_" ++ role)
  | _ => none

/-- The authorities of `get("roles", List.class)`. -/
def ClaimSet.authorities (claims : ClaimSet) : Option (List String) :=
  match claims.members.lookup "roles" with
  | none => some []
  | some .null => some []
  | some (.list roles) => roles.mapM authority
  | some _ => none

structure Authentication where
  principal : Option String
  authorities : List String
  deriving DecidableEq, Repr

/-- `Jwts.parser().verifyWith(key).build().parseSignedClaims`, at one instant; a refused token has none. -/
structure JwtParser where
  parseSignedClaims : String → Option ClaimSet

/-- What `doFilterInternal` leaves in the security context for a token; whatever it meets, the request goes on. -/
def doFilterInternal (parser : JwtParser) (token : String) : Option Authentication := do
  let claims ← parser.parseSignedClaims token
  let tokenType ← claims.getString "type"
  if tokenType = some "refresh" then none
  else do
    let authorities ← claims.authorities
    some ⟨claims.getSubject, authorities⟩

def validateTokenAndGetUserId (parser : JwtParser) (token : String) : Option (Option String) := do
  let claims ← parser.parseSignedClaims token
  let tokenType ← claims.getString "type"
  if tokenType = some "refresh" then none else some claims.getSubject

/-- The payload of `generateAccessToken`; the times are numbers. -/
def generateAccessToken (userId email displayName : String) (roles : List String) : ClaimSet where
  members := [("sub", .text userId), ("email", .text email), ("name", .text displayName),
    ("roles", .list (roles.map .text)), ("type", .text "access"), ("iat", .other), ("exp", .other)]
  distinct := by simp

/-- The payload of `generateRefreshToken`. -/
def generateRefreshToken (userId jti : String) : ClaimSet where
  members := [("sub", .text userId), ("jti", .text jti), ("type", .text "refresh"), ("iat", .other), ("exp", .other)]
  distinct := by simp

end OtterWorks.Auth
