import OtterWorks.Auth.JwtAuthFilter
import OtterWorks.Gateway.Identity
import OtterWorks.Lib.Fallible

namespace OtterWorks.Gateway

open Auth

/-! The gateway decodes a payload into `JWTClaims`. -/

structure DecodedClaims where
  userID : String
  email : String
  roles : List String
  subject : String
  deriving DecidableEq, Repr

/-- Letters that `encoding/json` takes for one another in a member's name. -/
def foldRune (c : Char) : Char :=
  if c = 'ſ' then 'S' else if c = '\u212A' then 'K' else c.toUpper

def foldName (name : String) : List Char := name.toList.map foldRune

/-- A string field: null leaves it as it is. -/
def decodeString (old : String) : ClaimValue → Option String
  | .null => some old
  | .text s => some s
  | _ => none

def decodeRole : ClaimValue → Option String
  | .null => some ""
  | .text role => some role
  | _ => none

def decodeRoles : ClaimValue → Option (List String)
  | .null => some []
  | .list roles => roles.mapM decodeRole
  | _ => none

/-- One member goes to the field of its name, whatever the case; others are left to the library. -/
def decodeMember (claims : DecodedClaims) (member : String × ClaimValue) : Option DecodedClaims :=
  if foldName member.1 = foldName "user_id" then
    (decodeString claims.userID member.2).map fun userID => { claims with userID := userID }
  else if foldName member.1 = foldName "email" then
    (decodeString claims.email member.2).map fun email => { claims with email := email }
  else if foldName member.1 = foldName "roles" then
    (decodeRoles member.2).map fun roles => { claims with roles := roles }
  else if foldName member.1 = foldName "sub" then
    (decodeString claims.subject member.2).map fun subject => { claims with subject := subject }
  else some claims

def decodeClaims (members : List (String × ClaimValue)) : Option DecodedClaims :=
  members.foldlM decodeMember ⟨"", "", [], ""⟩

/-- The key function of `validateToken`. -/
def hmacKey (secret : String) (method : SigningMethod) : Except String String :=
  match method with
  | .hmac _ => .ok secret
  | .other alg => .error s!"unexpected signing method: {alg}"

/-- Both libraries verify signatures and expiry of tokens under one key: what the gateway's accepts, the other
accepts, and both read its payload. -/
structure SameKey (jwt : JwtLibrary) (secret : String) (parser : JwtParser) : Prop where
  reads : ∀ token claims valid, jwt.parseWithClaims token (hmacKey secret) = .ok (claims, valid) →
    ∃ payload decoded, parser.parseSignedClaims token = some payload ∧ decodeClaims payload.members = some decoded ∧
      claims.userID = decoded.userID ∧ claims.subject = decoded.subject

/-- The last text under a name, whatever its case. -/
def lastText (name : String) (members : List (String × ClaimValue)) : String :=
  members.foldl (fun old member =>
    if foldName member.1 = foldName name then (decodeString old member.2).getD old else old) ""

/-- The user the gateway sends on: the subject, else the `user_id`. -/
def sentUser (members : List (String × ClaimValue)) : String :=
  if lastText "sub" members = "" then lastText "user_id" members else lastText "sub" members

/-- The payload is an access token's: no refresh type, and a subject that is the user the gateway sends on. -/
structure AccessClaims (payload : ClaimSet) : Prop where
  typed : ∃ tokenType, payload.getString "type" = some tokenType ∧ tokenType ≠ some "refresh"
  subject : payload.getSubject = some (sentUser payload.members)
  named : sentUser payload.members ≠ ""

section

variable {members : List (String × ClaimValue)} {start claims decoded : DecodedClaims} {member : String × ClaimValue}

theorem names_apart :
    foldName "user_id" ≠ foldName "sub" ∧ foldName "email" ≠ foldName "sub" ∧ foldName "roles" ≠ foldName "sub" ∧
      foldName "email" ≠ foldName "user_id" ∧ foldName "roles" ≠ foldName "user_id" := by
  decide +kernel

theorem decodeMember_texts (h : decodeMember claims member = some decoded) :
    (decoded.subject =
        if foldName member.1 = foldName "sub" then (decodeString claims.subject member.2).getD claims.subject
        else claims.subject) ∧
      decoded.userID =
        if foldName member.1 = foldName "user_id" then (decodeString claims.userID member.2).getD claims.userID
        else claims.userID := by
  obtain ⟨userSub, emailSub, rolesSub, emailUser, rolesUser⟩ := names_apart
  unfold decodeMember at h
  split at h
  next same =>
    obtain ⟨userID, read, rfl⟩ := Option.map_eq_some_iff.mp h
    rw [same, if_neg userSub, if_pos rfl, read]
    exact ⟨rfl, rfl⟩
  next notUser =>
    split at h
    next same =>
      obtain ⟨_, _, rfl⟩ := Option.map_eq_some_iff.mp h
      rw [same, if_neg emailSub, if_neg emailUser]
      exact ⟨rfl, rfl⟩
    next =>
      split at h
      next same =>
        obtain ⟨_, _, rfl⟩ := Option.map_eq_some_iff.mp h
        rw [same, if_neg rolesSub, if_neg rolesUser]
        exact ⟨rfl, rfl⟩
      next =>
        split at h
        next same =>
          obtain ⟨subject, read, rfl⟩ := Option.map_eq_some_iff.mp h
          rw [if_pos same, if_neg notUser, read]
          exact ⟨rfl, rfl⟩
        next other =>
          cases Option.some.inj h
          rw [if_neg other, if_neg notUser]
          exact ⟨rfl, rfl⟩

/-- The fold leaves the last texts. -/
theorem decode_texts (h : members.foldlM decodeMember start = some decoded) :
    (decoded.subject = members.foldl (fun old member =>
        if foldName member.1 = foldName "sub" then (decodeString old member.2).getD old else old) start.subject) ∧
      decoded.userID = members.foldl (fun old member =>
        if foldName member.1 = foldName "user_id" then (decodeString old member.2).getD old else old) start.userID := by
  induction members generalizing start with
  | nil =>
    cases Option.some.inj h
    exact ⟨rfl, rfl⟩
  | cons member members ih =>
    rw [List.foldlM_cons] at h
    obtain ⟨next, here, rest⟩ := Option.bind_eq_some_iff.mp h
    obtain ⟨subject, userID⟩ := decodeMember_texts here
    obtain ⟨lastSubject, lastUserID⟩ := ih rest
    rw [subject] at lastSubject
    rw [userID] at lastUserID
    exact ⟨lastSubject, lastUserID⟩

theorem sentUser_decoded (h : decodeClaims members = some decoded) :
    sentUser members = if decoded.subject = "" then decoded.userID else decoded.subject := by
  obtain ⟨subject, userID⟩ := decode_texts h
  rw [subject, userID]
  rfl

/-- What the gateway decodes as roles, the filter reads as authorities. -/
theorem authorities_of_decode {roles : List ClaimValue} {names : List String} (h : roles.mapM decodeRole = some names) :
    ∃ authorities, roles.mapM authority = some authorities := by
  induction roles generalizing names with
  | nil => exact ⟨[], rfl⟩
  | cons role roles ih =>
    rw [List.mapM_cons] at h
    obtain ⟨name, here, h⟩ := Option.bind_eq_some_iff.mp h
    obtain ⟨rest, there, _⟩ := Option.bind_eq_some_iff.mp h
    obtain ⟨authorities, hrest⟩ := ih there
    cases role with
    | null => exact ⟨_, by rw [List.mapM_cons, hrest]; rfl⟩
    | text s => exact ⟨_, by rw [List.mapM_cons, hrest]; rfl⟩
    | list elements => cases here
    | other => cases here

theorem decodeMember_of_mem {member : String × ClaimValue} (listed : member ∈ members)
    (h : members.foldlM decodeMember start = some decoded) : ∃ claims next, decodeMember claims member = some next := by
  induction members generalizing start with
  | nil => cases listed
  | cons first members ih =>
    rw [List.foldlM_cons] at h
    obtain ⟨next, here, rest⟩ := Option.bind_eq_some_iff.mp h
    rcases List.mem_cons.mp listed with rfl | listed
    · exact ⟨start, next, here⟩
    · exact ih listed rest

/-- Where the gateway takes the roles, the filter finds authorities. -/
theorem authorities_some {payload : ClaimSet} (h : decodeClaims payload.members = some decoded) :
    ∃ authorities, payload.authorities = some authorities := by
  unfold ClaimSet.authorities
  cases held : payload.members.lookup "roles" with
  | none => exact ⟨[], rfl⟩
  | some value =>
    obtain ⟨before, after, split, _⟩ := List.lookup_eq_some_iff.mp held
    have listed : ("roles", value) ∈ payload.members := by
      rw [split]
      exact List.mem_append_right _ (List.mem_cons_self ..)
    obtain ⟨claims, next, taken⟩ := decodeMember_of_mem listed h
    obtain ⟨_, _, rolesSub, _, rolesUser⟩ := names_apart
    have rolesEmail : foldName "roles" ≠ foldName "email" := by decide +kernel
    unfold decodeMember at taken
    rw [if_neg rolesUser, if_neg rolesEmail, if_pos rfl] at taken
    obtain ⟨names, read, _⟩ := Option.map_eq_some_iff.mp taken
    cases value with
    | null => exact ⟨[], rfl⟩
    | text s => cases read
    | list roles => exact authorities_of_decode read
    | other => cases read

theorem validateToken_ok {jwt : JwtLibrary} {now : Time} {tokenStr secret : String} {claims : JWTClaims}
    (h : validateToken jwt now tokenStr secret = .ok claims) :
    ∃ valid, jwt.parseWithClaims tokenStr (hmacKey secret) = .ok (claims, valid) := by
  unfold validateToken at h
  obtain ⟨⟨parsed, valid⟩, accepted, h⟩ := bind_ok h
  refine ⟨valid, ?_⟩
  have same : parsed = claims := by
    cases valid with
    | false => cases h
    | true =>
      cases expiry : parsed.expiresAt with
      | none =>
        simp only [expiry] at h
        cases h
        rfl
      | some exp =>
        simp only [expiry] at h
        by_cases expired : exp < now
        · simp only [if_pos expired] at h
          cases h
        · simp only [if_neg expired] at h
          cases h
          rfl
  rw [← same]
  exact accepted

/-- A request that the gateway sends on from a guarded path carries a token it has validated. -/
theorem verified_of_forwarded {env : GatewayEnv} {r : Request} {target : String} {upstream : Header}
    (noPeer : env.jwtConfig.peerSecret = "")
    (guarded : isPublicPath r.path env.jwtConfig.publicPath env.jwtConfig.prefixPath = false)
    (isProtected : isProtectedPath r.path env.jwtConfig.protectedPrefixPath = true)
    (h : env.serve r = .forwarded target upstream) :
    ∃ claims, env.verifiedClaims r = some claims ∧
      validateToken env.jwt env.now (extractBearerToken r) env.jwtConfig.secret = .ok claims := by
  have held : ∃ claims, validateUnderKeys env.jwt env.now env.jwtConfig (extractBearerToken r) = .ok claims := by
    unfold GatewayEnv.serve rateLimit cors at h
    split at h
    next => cases h
    next =>
      dsimp only at h
      split at h
      next => cases h
      next =>
        unfold jwtAuth at h
        rw [if_neg (by simp [guarded]), if_neg (by simp [isProtected])] at h
        dsimp only at h
        split at h
        next => cases h
        next =>
          split at h
          next => cases h
          next claims valid => exact ⟨claims, valid⟩
  obtain ⟨claims, valid⟩ := held
  refine ⟨claims, ?_, ?_⟩
  · unfold GatewayEnv.verifiedClaims
    rw [if_neg (by simp [guarded]), if_neg (by simp [isProtected]), valid]
    rfl
  · unfold validateUnderKeys at valid
    split at valid
    next claims' own =>
      cases valid
      exact own
    next =>
      rw [noPeer] at valid
      cases valid

theorem forwardedUser_eq {payload : ClaimSet} {claims : JWTClaims} (h : decodeClaims payload.members = some decoded)
    (userID : claims.userID = decoded.userID) (subject : claims.subject = decoded.subject) :
    claims.forwardedUser = sentUser payload.members := by
  rw [sentUser_decoded h, JWTClaims.forwardedUser, userID, subject]
  by_cases empty : decoded.subject = ""
  · simp [empty]
  · simp [empty]

/-- A token that gets a request past the gateway authenticates the same user at the auth service exactly when its
payload is an access token's. -/
theorem same_tokens_iff {env : GatewayEnv} {parser : JwtParser} {r : Request} {target : String} {upstream : Header}
    (keys : SameKey env.jwt env.jwtConfig.secret parser) (noPeer : env.jwtConfig.peerSecret = "")
    (guarded : isPublicPath r.path env.jwtConfig.publicPath env.jwtConfig.prefixPath = false)
    (isProtected : isProtectedPath r.path env.jwtConfig.protectedPrefixPath = true)
    (h : env.serve r = .forwarded target upstream) :
    ∃ payload, parser.parseSignedClaims (extractBearerToken r) = some payload ∧
      ((∃ user authorities, env.verifiedUser r = some user ∧
          doFilterInternal parser (extractBearerToken r) = some ⟨some user, authorities⟩) ↔ AccessClaims payload) := by
  obtain ⟨claims, verified, valid⟩ := verified_of_forwarded noPeer guarded isProtected h
  obtain ⟨_, accepted⟩ := validateToken_ok valid
  obtain ⟨payload, decoded, parsed, decodes, userID, subject⟩ := keys.reads _ _ _ accepted
  obtain ⟨authorities, roles⟩ := authorities_some decodes
  have sent := forwardedUser_eq decodes userID subject
  have user : env.verifiedUser r = if sentUser payload.members = "" then none else some (sentUser payload.members) := by
    rw [GatewayEnv.verifiedUser, verified, Option.bind_some, JWTClaims.identity, sent]
  refine ⟨payload, parsed, ?_⟩
  constructor
  · rintro ⟨user', found, same, authenticated⟩
    rw [user] at same
    by_cases empty : sentUser payload.members = ""
    · rw [if_pos empty] at same
      cases same
    · rw [if_neg empty] at same
      cases same
      simp only [doFilterInternal, parsed, Option.bind_eq_bind, Option.bind_some] at authenticated
      obtain ⟨tokenType, typed, rest⟩ := Option.bind_eq_some_iff.mp authenticated
      by_cases refresh : tokenType = some "refresh"
      · rw [if_pos refresh] at rest
        cases rest
      · rw [if_neg refresh, roles] at rest
        injection rest with rest
        injection rest with principal _
        exact ⟨⟨tokenType, typed, refresh⟩, principal, empty⟩
  · rintro ⟨⟨tokenType, typed, access⟩, principal, named⟩
    refine ⟨sentUser payload.members, authorities, ?_, ?_⟩
    · rw [user, if_neg named]
    · simp only [doFilterInternal, parsed, Option.bind_eq_bind, Option.bind_some, typed, if_neg access, roles, principal]

/-- The tokens that the auth service issues for access are access tokens. -/
theorem accessClaims_access {userId email displayName : String} {roles : List String} (named : userId ≠ "") :
    AccessClaims (generateAccessToken userId email displayName roles) := by
  have others : ∀ name ∈ ["email", "name", "roles", "type", "iat", "exp"], foldName name ≠ foldName "sub" := by
    decide +kernel
  have subject : lastText "sub" (generateAccessToken userId email displayName roles).members = userId := by
    simp only [lastText, generateAccessToken, List.foldl_cons, List.foldl_nil, if_true, decodeString, Option.getD_some,
      if_neg (others "email" (by simp)), if_neg (others "name" (by simp)), if_neg (others "roles" (by simp)),
      if_neg (others "type" (by simp)), if_neg (others "iat" (by simp)), if_neg (others "exp" (by simp))]
  have sent : sentUser (generateAccessToken userId email displayName roles).members = userId := by
    rw [sentUser, subject, if_neg named]
  refine ⟨⟨some "access", rfl, by decide⟩, ?_, ?_⟩
  · rw [sent]
    rfl
  · rw [sent]
    exact named

end

/-- A parser that knows one token. -/
def parserOf (payload : ClaimSet) : JwtParser := ⟨fun token => if token = "alice-token" then some payload else none⟩

theorem sample_reads {payload : ClaimSet} {decoded : DecodedClaims} (decodes : decodeClaims payload.members = some decoded)
    (userID : decoded.userID = "") (subject : decoded.subject = "alice") :
    SameKey sampleEnv.jwt sampleEnv.jwtConfig.secret (parserOf payload) := by
  refine ⟨fun token claims valid accepted => ?_⟩
  by_cases known : token = "alice-token"
  · subst known
    cases accepted
    have parsed : (parserOf payload).parseSignedClaims "alice-token" = some payload := by simp [parserOf]
    exact ⟨payload, decoded, parsed, decodes, userID.symm, subject.symm⟩
  · simp [sampleEnv, hmacKey, bind, Except.bind, known] at accepted

def aliceRequest : Request :=
  ⟨"GET", "/api/v1/files/7", [("Authorization", "Bearer alice-token")], "10.0.0.9:4242", some "10.0.0.9", none⟩

def aliceAccess : ClaimSet := generateAccessToken "alice" "alice@otterworks.dev" "Alice" ["USER"]

def aliceRefresh : ClaimSet := generateRefreshToken "alice" "9f1c"

theorem access_token_authenticates :
    ∃ user authorities, sampleEnv.verifiedUser aliceRequest = some user ∧
      doFilterInternal (parserOf aliceAccess) "alice-token" = some ⟨some user, authorities⟩ := by
  have decodes : decodeClaims aliceAccess.members = some ⟨"", "alice@otterworks.dev", ["USER"], "alice"⟩ := by
    decide +kernel
  obtain ⟨payload, parsed, agree⟩ := @same_tokens_iff sampleEnv (parserOf aliceAccess) aliceRequest
    "http://file-service:8082" [("Authorization", "Bearer alice-token"), ("X-User-Id", "alice"),
      ("X-Forwarded-For", "10.0.0.9"), ("User-Agent", "")]
    (sample_reads decodes rfl rfl) rfl (by decide +kernel) (by decide +kernel) (by decide +kernel)
  have token : extractBearerToken aliceRequest = "alice-token" := by decide +kernel
  rw [token] at parsed agree
  cases parsed
  exact agree.mpr (accessClaims_access (by decide))

/-- A refresh token gets its request sent on under the user's name, and the auth service does not take it. -/
theorem refresh_token_forwarded :
    SameKey sampleEnv.jwt sampleEnv.jwtConfig.secret (parserOf aliceRefresh) ∧
      sampleEnv.serve aliceRequest = .forwarded "http://file-service:8082"
        [("Authorization", "Bearer alice-token"), ("X-User-Id", "alice"), ("X-Forwarded-For", "10.0.0.9"),
          ("User-Agent", "")] ∧
      sampleEnv.verifiedUser aliceRequest = some "alice" ∧
      doFilterInternal (parserOf aliceRefresh) "alice-token" = none := by
  have decodes : decodeClaims aliceRefresh.members = some ⟨"", "", [], "alice"⟩ := by decide +kernel
  exact ⟨sample_reads decodes rfl rfl, by decide +kernel, by decide +kernel, by decide +kernel⟩

end OtterWorks.Gateway
