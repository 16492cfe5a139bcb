import OtterWorks.Gateway.Router

namespace OtterWorks.Gateway

/-- The claims that `jwtAuth` puts into the context of a request it passes on. -/
def GatewayEnv.verifiedClaims (env : GatewayEnv) (r : Request) : Option JWTClaims :=
  if isPublicPath r.path env.jwtConfig.publicPath env.jwtConfig.prefixPath then none
  else if !isProtectedPath r.path env.jwtConfig.protectedPrefixPath then none
  else (validateUnderKeys env.jwt env.now env.jwtConfig (extractBearerToken r)).toOption

/-- The user a token stands for: its `sub`, else its `user_id`, if it has one. -/
def JWTClaims.identity (claims : JWTClaims) : Option String :=
  if claims.forwardedUser = "" then none else some claims.forwardedUser

def GatewayEnv.verifiedUser (env : GatewayEnv) (r : Request) : Option String :=
  (env.verifiedClaims r).bind JWTClaims.identity

/-- The upstream sees no `X-User-ID`, or the user of the token the gateway verified. -/
def GatewayEnv.IdentityIntact (env : GatewayEnv) (r : Request) (upstream : Header) : Prop :=
  upstream.values "X-User-ID" = [] ∨
    ∃ user, env.verifiedUser r = some user ∧ upstream.values "X-User-ID" = [user]

theorem director_values (r : Request) :
    (director r).values "X-User-ID" =
      match r.claims.bind JWTClaims.identity with
      | some user => [user]
      | none => r.header.values "X-User-ID" := by
  unfold director
  cases r.claims with
  | none => rfl
  | some claims =>
    by_cases empty : claims.forwardedUser = ""
    · simp [JWTClaims.identity, empty]
    · simp [JWTClaims.identity, empty, Header.values_set]

theorem director_other {r : Request} {key : String} (other : canonicalKey key ≠ canonicalKey "X-User-ID") :
    (director r).values key = r.header.values key := by
  unfold director
  cases r.claims with
  | none => rfl
  | some claims =>
    dsimp only
    split
    · simp [Header.values_set, other]
    · rfl

/-- Only the header lines named hop-by-hop are taken out. -/
theorem removeHopByHop_values (h : Header) :
    (removeHopByHopHeaders h).values "X-User-ID" =
      if canonicalKey "X-User-ID" ∈ (connectionNames h).map canonicalKey then []
      else h.values "X-User-ID" := by
  have kept : canonicalKey "X-User-ID" ∉ hopHeaders.map canonicalKey := by decide +kernel
  rw [removeHopByHopHeaders, Header.values_delAll, if_neg kept, Header.values_delAll]

theorem outHeader_values (r : Request) :
    (outHeader r).values "X-User-ID" = (removeHopByHopHeaders (director r)).values "X-User-ID" := by
  have te : canonicalKey "X-User-ID" ≠ canonicalKey "Te" := by decide +kernel
  have connection : canonicalKey "X-User-ID" ≠ canonicalKey "Connection" := by decide +kernel
  have upgrade : canonicalKey "X-User-ID" ≠ canonicalKey "Upgrade" := by decide +kernel
  have forwarded : canonicalKey "X-User-ID" ≠ canonicalKey "X-Forwarded-For" := by decide +kernel
  have agent : canonicalKey "X-User-ID" ≠ canonicalKey "User-Agent" := by decide +kernel
  simp only [outHeader]
  split <;> split <;> split <;> split <;> simp [Header.values_set, te, connection, upgrade, forwarded, agent]

theorem connectionNames_director (r : Request) : connectionNames (director r) = connectionNames r.header := by
  unfold connectionNames
  rw [director_other (by decide +kernel)]

/-- The identity header that goes upstream, whatever the route. -/
theorem outHeader_identity (r : Request) :
    (outHeader r).values "X-User-ID" =
      if canonicalKey "X-User-ID" ∈ (connectionNames r.header).map canonicalKey then []
      else match r.claims.bind JWTClaims.identity with
        | some user => [user]
        | none => r.header.values "X-User-ID" := by
  rw [outHeader_values, removeHopByHop_values, connectionNames_director, director_values]

theorem mainRouter_forwarded {env : GatewayEnv} {r : Request} {target : String} {upstream : Header}
    (h : mainRouter env r = .forwarded target upstream) : upstream = outHeader r := by
  unfold mainRouter at h
  split at h
  next => simp at h
  next => simp at h
  next route _ =>
    unfold proxyHandler at h
    split at h
    next => simp at h
    next =>
      unfold reverseProxy at h
      split at h
      next => simp only [Served.forwarded.injEq] at h; exact h.2.symm
      next => simp at h
  next => simp at h

theorem jwtAuth_forwarded {env : GatewayEnv} {next : Handler} {r : Request} {target : String}
    {upstream : Header} (anonymous : r.claims = none)
    (h : jwtAuth env.jwt env.now env.jwtConfig next r = .forwarded target upstream) :
    next { r with claims := env.verifiedClaims r } = .forwarded target upstream := by
  unfold jwtAuth at h
  unfold GatewayEnv.verifiedClaims
  split at h
  next isPublic => simpa [isPublic, ← anonymous] using h
  next notPublic =>
    rw [if_neg notPublic]
    split at h
    next unprotected => simpa [unprotected, ← anonymous] using h
    next guarded =>
      rw [if_neg guarded]
      dsimp only at h
      split at h
      next => simp at h
      next =>
        split at h
        next => simp at h
        next claims valid => simpa [valid, Except.toOption] using h

theorem serve_forwarded {env : GatewayEnv} {r : Request} {target : String} {upstream : Header}
    (h : env.serve r = .forwarded target upstream) :
    upstream = outHeader { r with claims := env.verifiedClaims r } := by
  unfold GatewayEnv.serve rateLimit cors at h
  split at h
  next => simp at h
  next =>
    dsimp only at h
    split at h
    next => simp at h
    next => exact mainRouter_forwarded (jwtAuth_forwarded (r := { r with claims := none }) rfl h)

def serviceRoutes : List Route :=
  [⟨"/api/v1/auth", "http://auth-service:8081"⟩, ⟨"/api/v1/files", "http://file-service:8082"⟩,
    ⟨"/socket.io", "http://collab-service:8084"⟩]

/-- A gateway with the default paths, one key, closed breakers, and a library that knows one token. -/
def sampleEnv : GatewayEnv where
  jwt := ⟨fun tokenStr keyfunc => do
    let key ← keyfunc (.hmac "HS256")
    if tokenStr == "alice-token" && key == "s3cret" then pure (⟨"", "alice", some 2000⟩, true)
    else throw "signature is invalid"⟩
  jwtConfig :=
    ⟨"s3cret", "", defaultPublicPaths, defaultPrefixPaths, serviceRoutes.map Route.path⟩
  allowedOrigins := ["http://localhost:3000"]
  allow := fun _ => true
  chi := fun r =>
    if r.path == "/health" then .health
    else if r.path == "/metrics" then .metrics
    else match serviceRoutes.find? fun route => underPath r.path route.path with
      | some route => .proxy route
      | none => .notFound
  breakerConfig := ⟨5, 60000000000, 30000000000, fun _ _ => false⟩
  breaker := newCircuitBreaker
  now := 1000

/-- A forwarded request carries the right identity exactly when the gateway verified a token with a
user on it, or no client `X-User-ID` outlives the removal of the `Connection` lines. -/
theorem forwarded_identity_iff {env : GatewayEnv} {r : Request} {target : String} {upstream : Header}
    (h : env.serve r = .forwarded target upstream) :
    env.IdentityIntact r upstream ↔
      (env.verifiedUser r).isSome ∨ r.header.values "X-User-ID" = [] ∨
        canonicalKey "X-User-ID" ∈ (connectionNames r.header).map canonicalKey := by
  have out := outHeader_identity { r with claims := env.verifiedClaims r }
  rw [← serve_forwarded h] at out
  unfold GatewayEnv.IdentityIntact
  change _ = if _ then [] else match env.verifiedUser r with
    | some user => [user]
    | none => r.header.values "X-User-ID" at out
  rw [out]
  by_cases named : canonicalKey "X-User-ID" ∈ (connectionNames r.header).map canonicalKey
  · simp [named]
  · cases user : env.verifiedUser r with
    | none => simp [named]
    | some user => simp [named]

/-- A client that names another user is overruled by its own token. -/
theorem alice_stays_alice :
    sampleEnv.IdentityIntact
      ⟨"GET", "/api/v1/files/7", [("Authorization", "Bearer alice-token"), ("X-User-Id", "bob")],
        "10.0.0.9:4242", some "10.0.0.9", none⟩
      [("Authorization", "Bearer alice-token"), ("X-User-Id", "alice"), ("X-Forwarded-For", "10.0.0.9"),
        ("User-Agent", "")] :=
  (@forwarded_identity_iff sampleEnv _ "http://file-service:8082" _ (by decide +kernel)).mpr
    (Or.inl (by decide +kernel))

/-- The collaboration socket is routed like any service but needs no token. -/
theorem socket_forwards_client_identity :
    ¬ ∀ (env : GatewayEnv) (r : Request) (target : String) (upstream : Header),
      env.serve r = .forwarded target upstream → env.IdentityIntact r upstream := by
  intro law
  have intact := law sampleEnv
    ⟨"GET", "/socket.io/", [("X-User-Id", "bob")], "10.0.0.9:4242", some "10.0.0.9", none⟩
    "http://collab-service:8084"
    [("X-User-Id", "bob"), ("X-Forwarded-For", "10.0.0.9"), ("User-Agent", "")] (by decide +kernel)
  have anonymous : sampleEnv.verifiedUser
      ⟨"GET", "/socket.io/", [("X-User-Id", "bob")], "10.0.0.9:4242", some "10.0.0.9", none⟩ = none := by
    decide +kernel
  rcases intact with absent | ⟨user, verified, _⟩
  · exact absurd absent (by decide +kernel)
  · simp [anonymous] at verified

end OtterWorks.Gateway
