import OtterWorks.Gateway.CircuitBreaker
import OtterWorks.Lib.Header

namespace OtterWorks.Gateway

/-- The claims the gateway reads; `expiresAt` is the registered `exp`. -/
structure JWTClaims where
  userID : String
  subject : String
  expiresAt : Option Time
  deriving DecidableEq, Repr

inductive SigningMethod
  | hmac (alg : String)
  | other (alg : String)
  deriving DecidableEq, Repr

/-- `jwt.ParseWithClaims`: the parsed claims and the token's `Valid`. -/
structure JwtLibrary where
  parseWithClaims : String → (SigningMethod → Except String String) → Except String (JWTClaims × Bool)

structure JWTConfig where
  secret : String
  peerSecret : String
  publicPath : List String
  prefixPath : List String
  protectedPrefixPath : List String

def defaultPublicPaths : List String := ["/api/v1/auth/login", "/api/v1/auth/register"]

def defaultPrefixPaths : List String := ["/health", "/metrics", "/socket.io"]

/-- A request as a handler sees it. `clientIP` is the host that `net.SplitHostPort` finds in
`RemoteAddr`, `claims` what the context holds under `jwtClaimsKey`. -/
structure Request where
  method : String
  path : String
  header : Header
  remoteAddr : String
  clientIP : Option String
  claims : Option JWTClaims
  deriving DecidableEq, Repr

/-- How the gateway ends a request: with a response of its own, or by sending it upstream. -/
inductive Served
  | responded (status : Nat) (error : String)
  | forwarded (target : String) (header : Header)
  deriving DecidableEq, Repr

abbrev Handler := Request → Served

def underPath (path p : String) : Bool := path == p || path.startsWith (p ++ "/")

def isPublicPath (path : String) (exactPaths prefixPaths : List String) : Bool :=
  exactPaths.contains path || prefixPaths.any (underPath path)

def isProtectedPath (path : String) (protectedPrefixes : List String) : Bool :=
  protectedPrefixes.isEmpty || protectedPrefixes.any (underPath path)

def extractBearerToken (r : Request) : String :=
  let auth := (r.header.get "Authorization").toList
  let scheme := auth.takeWhile (· != ' ')
  match auth.dropWhile (· != ' ') with
  | _ :: token =>
    if lowerAscii (String.ofList scheme) == "bearer" then String.ofList token else ""
  | [] => ""

def validateToken (jwt : JwtLibrary) (now : Time) (tokenStr secret : String) : Except String JWTClaims := do
  let (claims, valid) ← jwt.parseWithClaims tokenStr fun method =>
    match method with
    | .hmac _ => .ok secret
    | .other alg => .error s!"unexpected signing method: {alg}"
  if !valid then throw "token is not valid"
  match claims.expiresAt with
  | some exp => if exp < now then throw "token has expired" else pure claims
  | none => pure claims

def validateUnderKeys (jwt : JwtLibrary) (now : Time) (cfg : JWTConfig) (tokenStr : String) :
    Except String JWTClaims :=
  match validateToken jwt now tokenStr cfg.secret with
  | .ok claims => .ok claims
  | .error err =>
    if cfg.peerSecret != "" then validateToken jwt now tokenStr cfg.peerSecret else .error err

def jwtAuth (jwt : JwtLibrary) (now : Time) (cfg : JWTConfig) (next : Handler) : Handler := fun r =>
  if isPublicPath r.path cfg.publicPath cfg.prefixPath then next r
  else if !isProtectedPath r.path cfg.protectedPrefixPath then next r
  else
    let tokenStr := extractBearerToken r
    if tokenStr == "" then .responded 401 "missing or invalid authorization header"
    else
      match validateUnderKeys jwt now cfg tokenStr with
      | .error err => .responded 401 s!"invalid token: {err}"
      | .ok claims => next { r with claims := some claims }

def isOriginAllowed (origin : String) (origins : List String) : Bool :=
  origins.contains origin || origins.contains "*"

/-- `CORS` answers a preflight of an allowed origin itself. -/
def cors (allowedOrigins : List String) (next : Handler) : Handler := fun r =>
  let origin := r.header.get "Origin"
  if r.method == "OPTIONS" && origin != "" && isOriginAllowed origin allowedOrigins then
    .responded 204 ""
  else next r

def extractIP (r : Request) : String := r.clientIP.getD r.remoteAddr

/-- `RateLimiter.Handler`, whose bucket for the client address answers `allow`. -/
def rateLimit (allow : String → Bool) (next : Handler) : Handler := fun r =>
  if !allow (extractIP r) then .responded 429 "rate limit exceeded" else next r

structure Route where
  path : String
  targetURL : String
  deriving DecidableEq, Repr

/-- The handler the main chi router picks for a request. -/
inductive Mounted
  | health
  | metrics
  | proxy (route : Route)
  | notFound
  deriving DecidableEq, Repr

/-- What one request meets at the gateway: its configuration, the clock, the state of the rate
limiter and of the breakers, and the two libraries, which are not part of the repository. -/
structure GatewayEnv where
  jwt : JwtLibrary
  jwtConfig : JWTConfig
  allowedOrigins : List String
  allow : String → Bool
  chi : Request → Mounted
  breakerConfig : CircuitBreakerConfig
  breaker : String → CircuitBreaker
  now : Time

def JWTClaims.forwardedUser (claims : JWTClaims) : String :=
  if claims.subject == "" then claims.userID else claims.subject

def director (r : Request) : Header :=
  match r.claims with
  | some claims =>
    let userID := claims.forwardedUser
    if userID != "" then r.header.set "X-User-ID" userID else r.header
  | none => r.header

def hopHeaders : List String :=
  ["Connection", "Proxy-Connection", "Keep-Alive", "Proxy-Authenticate", "Proxy-Authorization", "Te",
    "Trailer", "Transfer-Encoding", "Upgrade"]

def connectionNames (h : Header) : List String :=
  (fieldElements (h.values "Connection")).filter (· != "")

def removeHopByHopHeaders (h : Header) : Header := (h.delAll (connectionNames h)).delAll hopHeaders

def upgradeType (h : Header) : String :=
  if containsToken (h.values "Connection") "Upgrade" then h.get "Upgrade" else ""

/-- `httputil.ReverseProxy`: the request header it sends upstream after running the Director. -/
def outHeader (r : Request) : Header :=
  let outreq := director r
  let reqUpType := upgradeType outreq
  let h := removeHopByHopHeaders outreq
  let h := if containsToken (r.header.values "Te") "trailers" then h.set "Te" "trailers" else h
  let h := if reqUpType != "" then (h.set "Connection" "Upgrade").set "Upgrade" reqUpType else h
  let h := match r.clientIP with
    | some ip => h.set "X-Forwarded-For" (", ".intercalate (h.values "X-Forwarded-For" ++ [ip]))
    | none => h
  if (h.values "User-Agent").isEmpty then h.set "User-Agent" "" else h

def isPrint (s : String) : Bool := s.toList.all fun c => ' ' ≤ c && c ≤ '~'

def reverseProxy (route : Route) : Handler := fun r =>
  if isPrint (upgradeType (director r)) then .forwarded route.targetURL (outHeader r)
  else .responded 502 "service unavailable"

def proxyHandler (env : GatewayEnv) (route : Route) : Handler := fun r =>
  match ((env.breaker route.path).executeEnter env.breakerConfig env.now).2 with
  | some _ => .responded 503 "service temporarily unavailable"
  | none => reverseProxy route r

def mainRouter (env : GatewayEnv) : Handler := fun r =>
  match env.chi r with
  | .health => .responded 200 ""
  | .metrics => .responded 200 ""
  | .proxy route => proxyHandler env route r
  | .notFound => .responded 404 "route not found"

/-- The middleware that can end a request, in the order `main` installs it. -/
def GatewayEnv.serve (env : GatewayEnv) : Handler := fun r =>
  rateLimit env.allow
    (cors env.allowedOrigins (jwtAuth env.jwt env.now env.jwtConfig (mainRouter env)))
    { r with claims := none }

end OtterWorks.Gateway
