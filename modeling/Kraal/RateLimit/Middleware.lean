import Kraal.Backend.Json
import Kraal.Foundation.Run
import Kraal.RateLimit.Store
import Mathlib.Data.Rat.Floor

/-!
# The rate limiter

Every request is counted in a bucket for each tier that applies to it: one of its endpoint, if
that has a limit, one of its IP address, and one of its user, if it names one.  It is rejected if
the estimate of a bucket exceeds the limit of the tier, and answered with the smallest budget
that remains otherwise.

Main results:

- Definition {lit}`rateLimit`: the middleware.
- Theorem {lit}`nodup_buckets`: a request is counted once in each of its buckets.
- Theorem {lit}`governs_of_wellNamed`: every bucket has one limit, if the names of endpoints do
  not contain a colon.

Current gaps:

- The counters of the metrics are not modelled.
-/

namespace Kraal
namespace RateLimit

open Foundation
open Backend (Json)

/-! ## Limits -/

/-- So many requests in a window. -/
structure WindowLimit where
  limit : Nat
  windowSeconds : WindowSeconds
deriving DecidableEq

/-- The limits, and the paths that are exempt from them. -/
structure RateLimitConfig where
  ipBurst : WindowLimit
  userSustained : WindowLimit
  /-- The limits of endpoints by method and path. -/
  endpoints : List (String × WindowLimit)
  exemptPaths : List String

/-- Ten seconds are a window. -/
theorem ten_seconds_pos : (0 : Int) < 10 := by decide

/-- A minute is a window. -/
theorem minute_pos : (0 : Int) < 60 := by decide

/-- The limits of the public API. -/
def rateLimitConfig : RateLimitConfig where
  ipBurst := ⟨20, 10, ten_seconds_pos⟩
  userSustained := ⟨300, 60, minute_pos⟩
  endpoints :=
    [("GET /marketplace/prices", ⟨10, 60, minute_pos⟩),
      ("GET /marketplace/listings", ⟨60, 60, minute_pos⟩),
      ("POST /marketplace/purchases", ⟨10, 60, minute_pos⟩),
      ("POST /marketplace/listings", ⟨20, 60, minute_pos⟩),
      ("POST /credits/retire", ⟨20, 60, minute_pos⟩)]
  exemptPaths := ["/health", "/metrics"]

/-! ## Requests -/

/-- A request, as far as the limiter reads it. -/
structure Request where
  method : String
  path : String
  originalUrl : String
  ip : Option String
  authorization : Option String
deriving DecidableEq, Repr

/-- What the runtime does: it reads the JSON text behind a base64url encoding, and it rounds the
results of arithmetic. -/
structure Runtime where
  decodePayload : String → Option Json
  round : ℚ → ℚ

/-- A runtime that can read no encoding, with the doubles of the language. -/
def plainRuntime : Runtime := ⟨fun _ => none, roundDouble⟩

/-- A runtime that can read no encoding and computes exactly. -/
def exactRuntime : Runtime := ⟨fun _ => none, id⟩

/-- A property, or another one where it is null or undefined. -/
def coalesce : Option Json → Option Json → Option Json
  | none, other => other
  | some .null, other => other
  | some value, _ => some value

/-- The identity that a payload names. -/
def payloadIdentity (payload : Json) : Option String :=
  Backend.isNonEmptyString (coalesce (payload.field "sub") (payload.field "userId"))

/-- The user that a token names. -/
def jwtIdentity (rt : Runtime) : Option String → Option String
  | none => none
  | some header =>
      if "Bearer ".toList.isPrefixOf header.toList then
        match (header.toList.drop "Bearer ".length).splitOn '.' with
        | [_, payload, _] => (rt.decodePayload (String.ofList payload)).bind payloadIdentity
        | _ => none
      else none

/-- The method and the path of a request, without a slash at the end. -/
def endpointId (req : Request) : String :=
  if 1 < req.path.length ∧ req.path.toList.getLast? = some '/' then
    req.method ++ " " ++ String.ofList req.path.toList.dropLast
  else req.method ++ " " ++ req.path

/-- The address of the client, as far as it is known. -/
def Request.address (req : Request) : String :=
  req.ip.getD "unknown"

/-- The user of a request, or its address. -/
def clientId (rt : Runtime) (req : Request) : String :=
  match jwtIdentity rt req.authorization with
  | some user => "user:" ++ user
  | none => "ip:" ++ req.address

/-! ## Tiers -/

/-- The tiers of limits. -/
inductive Tier where
  | endpoint
  | ipBurst
  | userSustained
deriving DecidableEq, Repr

/-- The name of a tier in a response. -/
def Tier.name : Tier → String
  | .endpoint => "endpoint"
  | .ipBurst => "ip-burst"
  | .userSustained => "user-sustained"

/-- The limit of a tier for a bucket. -/
structure TierCheck where
  tier : Tier
  bucket : String
  limit : WindowLimit

/-- The outcome of the check of a tier. -/
structure TierResult extends TierCheck where
  estimated : ℚ
  remaining : Nat
  /-- The time when the current window ends. -/
  reset : Int

/-- The check of the endpoint, if it has a limit. -/
def RateLimitConfig.endpointCheck (limits : RateLimitConfig) (rt : Runtime) (req : Request) :
    Option TierCheck :=
  (limits.endpoints.lookup (endpointId req)).map fun limit =>
    ⟨.endpoint, "ep:" ++ endpointId req ++ ":" ++ clientId rt req, limit⟩

/-- The check of the address of a request. -/
def RateLimitConfig.ipCheck (limits : RateLimitConfig) (req : Request) : TierCheck :=
  ⟨.ipBurst, "ip:" ++ req.address, limits.ipBurst⟩

/-- The check of the user, if the request names one. -/
def RateLimitConfig.userCheck (limits : RateLimitConfig) (rt : Runtime) (req : Request) :
    Option TierCheck :=
  (jwtIdentity rt req.authorization).map fun user =>
    ⟨.userSustained, "user:" ++ user, limits.userSustained⟩

/-- The checks of a request, in the order in which they are made. -/
def RateLimitConfig.checks (limits : RateLimitConfig) (rt : Runtime) (req : Request) :
    List TierCheck :=
  (limits.endpointCheck rt req).toList ++ [limits.ipCheck req] ++ (limits.userCheck rt req).toList

/-- The result of a check from the counts of its bucket. -/
def TierCheck.result (rt : Runtime) (check : TierCheck) (counts : WindowCounts) (now : Int) :
    TierResult where
  toTierCheck := check
  estimated := slidingWindowCount rt.round counts check.limit.windowSeconds now
  remaining := (⌊rt.round ((check.limit.limit : ℚ) -
    slidingWindowCount rt.round counts check.limit.windowSeconds now)⌋).toNat
  reset := counts.windowStart + check.limit.windowSeconds.1

/-- Count a request in one bucket after the other. -/
def checkTiers (store : RateLimitStore) (rt : Runtime) (now : Int) :
    List TierCheck → Action (List TierResult)
  | [] => pure []
  | check :: checks => do
      let counts ← store check.bucket check.limit.windowSeconds now
      let results ← checkTiers store rt now checks
      pure (check.result rt counts now :: results)

/-! ## Responses -/

/-- What the headers of a response say. -/
structure RateLimitHeaders where
  limit : Nat
  remaining : Nat
  reset : Int
deriving DecidableEq, Repr

/-- The body of a rejection. -/
structure ProblemDetails where
  type : String
  title : String
  status : Nat
  detail : String
  instanceUrl : String
  retryAfterSeconds : Int
deriving DecidableEq, Repr

/-- A request is passed on, with the headers of its budget if it has one, or it is rejected. -/
inductive Response where
  | next (headers : Option RateLimitHeaders)
  | tooManyRequests (violated : TierResult) (retryAfter : Int) (headers : RateLimitHeaders)
      (problem : ProblemDetails)

/-- A request is let in. -/
def Response.admitted : Response → Bool
  | .next _ => true
  | .tooManyRequests _ _ _ _ => false

/-- The problem that is reported of a tier that is violated. -/
def problemDetails (violated : TierResult) (retryAfter : Int) (instanceUrl : String) :
    ProblemDetails where
  type := "https://stellarkraal.dev/problems/rate-limit-exceeded"
  title := "Too Many Requests"
  status := 429
  detail := violated.tier.name ++ " limit of " ++ toString violated.limit.limit ++
    " requests per " ++ toString violated.limit.windowSeconds.1 ++ "s exceeded; retry after " ++
    toString retryAfter ++ "s"
  instanceUrl := instanceUrl
  retryAfterSeconds := retryAfter

/-- The rejection of a request. -/
def reject (violated : TierResult) (retryAfter : Int) (instanceUrl : String) : Response :=
  .tooManyRequests violated retryAfter ⟨violated.limit.limit, 0, violated.reset⟩
    (problemDetails violated retryAfter instanceUrl)

/-- The estimate exceeds the limit. -/
def TierResult.exceeded (result : TierResult) : Bool :=
  decide ((result.limit.limit : ℚ) < result.estimated)

/-- The result with the smallest budget, the first of those. -/
def tightest : List TierResult → Option TierResult
  | [] => none
  | result :: results =>
      some (results.foldl (fun a b => if b.remaining < a.remaining then b else a) result)

/-- The headers of a budget. -/
def TierResult.headers (result : TierResult) : RateLimitHeaders :=
  ⟨result.limit.limit, result.remaining, result.reset⟩

/-- The response to a request with the results of its checks. -/
def respond (results : List TierResult) (now : Int) (instanceUrl : String) : Response :=
  match results.find? TierResult.exceeded with
  | some violated => reject violated (max 1 (violated.reset - now)) instanceUrl
  | none => .next ((tightest results).map TierResult.headers)

/-- The middleware.  A request is passed on if the limiter itself fails. -/
def rateLimit (store : RateLimitStore) (limits : RateLimitConfig) (rt : Runtime) (req : Request)
    (now : Int) : Action Response :=
  if req.path ∈ limits.exemptPaths then pure (.next none)
  else do
    match ← (checkTiers store rt now (limits.checks rt req)).attempt with
    | .ok results => pure (respond results now req.originalUrl)
    | .error _ => pure (.next none)

/-! ## Arrivals -/

/-- A request at a time, and how Redis replies to the commands for it. -/
structure Arrival where
  request : Request
  now : Int
  replies : List Reply

/-- Process an arrival. -/
def serve (store : RateLimitStore) (limits : RateLimitConfig) (rt : Runtime) (w : Stores)
    (arrival : Arrival) : Response × Stores :=
  match rateLimit store limits rt arrival.request arrival.now arrival.replies w with
  | (.returned response, _, w') => (response, w')
  | (_, _, w') => (.next none, w')

/-- What an arrival leaves of the stores. -/
def step (store : RateLimitStore) (limits : RateLimitConfig) (rt : Runtime) (w : Stores)
    (arrival : Arrival) : Stores :=
  (serve store limits rt w arrival).2

/-- An arrival is counted in a bucket. -/
def Counted (limits : RateLimitConfig) (rt : Runtime) (bucket : String) (req : Request) : Prop :=
  req.path ∉ limits.exemptPaths ∧ ∃ check ∈ limits.checks rt req, check.bucket = bucket

instance (limits : RateLimitConfig) (rt : Runtime) (bucket : String) (req : Request) :
    Decidable (Counted limits rt bucket req) :=
  inferInstanceAs (Decidable (_ ∧ _))

/-- The times at which requests that are counted in a bucket are let in. -/
def admittedTimes (store : RateLimitStore) (limits : RateLimitConfig) (rt : Runtime)
    (bucket : String) (w : Stores) (arrivals : List Arrival) : List Int :=
  ((Run.trace (step store limits rt) w arrivals).filter fun e =>
    Counted limits rt bucket e.2.request ∧ (serve store limits rt e.1 e.2).1.admitted).map
      fun e => e.2.now

/-! ## Buckets -/

section

variable {limits : RateLimitConfig} {rt : Runtime} {req req' : Request} {check check' : TierCheck}

/-- The bucket of an endpoint is not that of an address. -/
theorem endpoint_bucket_ne_ip (name client address : String) :
    "ep:" ++ name ++ ":" ++ client ≠ "ip:" ++ address := by
  intro h
  have hhead := congrArg (fun s : String => s.toList.head?) h
  simp at hhead

/-- The bucket of an endpoint is not that of a user. -/
theorem endpoint_bucket_ne_user (name client user : String) :
    "ep:" ++ name ++ ":" ++ client ≠ "user:" ++ user := by
  intro h
  have hhead := congrArg (fun s : String => s.toList.head?) h
  simp at hhead

/-- The bucket of an address is not that of a user. -/
theorem ip_bucket_ne_user (address user : String) : "ip:" ++ address ≠ "user:" ++ user := by
  intro h
  have hhead := congrArg (fun s : String => s.toList.head?) h
  simp at hhead

/-- A request is counted once in each of its buckets. -/
theorem nodup_buckets (limits : RateLimitConfig) (rt : Runtime) (req : Request) :
    ((limits.checks rt req).map TierCheck.bucket).Nodup := by
  have hip := endpoint_bucket_ne_ip (endpointId req) (clientId rt req) req.address
  have huser := endpoint_bucket_ne_user (endpointId req) (clientId rt req)
  have hipUser := ip_bucket_ne_user req.address
  unfold RateLimitConfig.checks RateLimitConfig.endpointCheck RateLimitConfig.ipCheck
    RateLimitConfig.userCheck
  cases limits.endpoints.lookup (endpointId req) with
  | none =>
      cases jwtIdentity rt req.authorization with
      | none => simp
      | some user => simp [hipUser]
  | some limit =>
      cases jwtIdentity rt req.authorization with
      | none => simp [hip]
      | some user => simp [hip, huser, hipUser]

/-- Every check of a bucket has the same limit. -/
def Governs (limits : RateLimitConfig) (rt : Runtime) (bucket : String) (limit : WindowLimit) :
    Prop :=
  ∀ req, ∀ check ∈ limits.checks rt req, check.bucket = bucket → check.limit = limit

/-- The names of endpoints do not contain a colon. -/
def RateLimitConfig.WellNamed (limits : RateLimitConfig) : Prop :=
  ∀ e ∈ limits.endpoints, ':' ∉ e.1.toList

/-- The endpoints of the server are named by method and path. -/
theorem wellNamed_rateLimitConfig : rateLimitConfig.WellNamed := by
  simp [RateLimitConfig.WellNamed, rateLimitConfig]

/-- A limit that is found is listed. -/
theorem name_mem_of_lookup {endpoints : List (String × WindowLimit)} {name : String}
    {limit : WindowLimit} (h : endpoints.lookup name = some limit) :
    (name, limit) ∈ endpoints := by
  induction endpoints with
  | nil => simp at h
  | cons e endpoints ih =>
      rw [List.lookup_cons] at h
      by_cases hname : name = e.1
      · subst hname
        rw [beq_self_eq_true] at h
        cases h
        exact List.mem_cons_self
      · rw [beq_false_of_ne hname] at h
        exact List.mem_cons_of_mem _ (ih h)

/-- What is checked in a bucket: an endpoint, an address or a user. -/
theorem check_cases (h : check ∈ limits.checks rt req) :
    (∃ limit, limits.endpoints.lookup (endpointId req) = some limit ∧
      check = ⟨.endpoint, "ep:" ++ endpointId req ++ ":" ++ clientId rt req, limit⟩) ∨
    check = ⟨.ipBurst, "ip:" ++ req.address, limits.ipBurst⟩ ∨
    ∃ user, check = ⟨.userSustained, "user:" ++ user, limits.userSustained⟩ := by
  simp only [RateLimitConfig.checks, List.mem_append, Option.mem_toList, List.mem_singleton,
    RateLimitConfig.endpointCheck, RateLimitConfig.userCheck, Option.map_eq_some_iff] at h
  rcases h with (⟨limit, hlimit, rfl⟩ | rfl) | ⟨user, -, rfl⟩
  · exact .inl ⟨limit, hlimit, rfl⟩
  · exact .inr (.inl rfl)
  · exact .inr (.inr ⟨user, rfl⟩)

/-- Every bucket has one limit, if the names of endpoints do not contain a colon. -/
theorem governs_of_wellNamed (hnames : limits.WellNamed) (hcheck : check ∈ limits.checks rt req) :
    Governs limits rt check.bucket check.limit := by
  intro req' check' hcheck' hbucket
  rcases check_cases hcheck with ⟨limit, hlimit, rfl⟩ | rfl | ⟨user, rfl⟩
  · rcases check_cases hcheck' with ⟨limit', hlimit', rfl⟩ | rfl | ⟨user', rfl⟩
    · -- the name of the endpoint ends at the first colon
      have htext := congrArg String.toList hbucket
      simp only [String.toList_append, List.append_assoc, List.append_cancel_left_eq] at htext
      have hname : (endpointId req').toList = (endpointId req).toList :=
        (append_separator_inj (hnames _ (name_mem_of_lookup hlimit'))
          (hnames _ (name_mem_of_lookup hlimit)) htext).1
      rw [String.toList_inj.mp hname, hlimit] at hlimit'
      exact (Option.some.inj hlimit').symm
    · exact absurd hbucket.symm (endpoint_bucket_ne_ip _ _ _)
    · exact absurd hbucket.symm (endpoint_bucket_ne_user _ _ _)
  · rcases check_cases hcheck' with ⟨limit', hlimit', rfl⟩ | rfl | ⟨user', rfl⟩
    · exact absurd hbucket (endpoint_bucket_ne_ip _ _ _)
    · rfl
    · exact absurd hbucket.symm (ip_bucket_ne_user _ _)
  · rcases check_cases hcheck' with ⟨limit', hlimit', rfl⟩ | rfl | ⟨user', rfl⟩
    · exact absurd hbucket (endpoint_bucket_ne_user _ _ _)
    · exact absurd hbucket (ip_bucket_ne_user _ _)
    · rfl

end

end RateLimit
end Kraal
