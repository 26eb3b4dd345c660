import Mathlib.Data.Rat.Defs
import Mathlib.Algebra.Order.Ring.Rat
import Mathlib.Logic.Function.Basic
import FleetOps.Library.Dict
import FleetOps.Library.Text

namespace FleetOps.Middleware

open Text

inductive Bucket where
  | ingest
  | console
  deriving DecidableEq

-- INGEST_BUCKET and CONSOLE_BUCKET.
def Bucket.text : Bucket → List Char
  | .ingest => "ingest".toList
  | .console => "console".toList

def INGEST_SUFFIXES : List (List Char) := ["/telemetry".toList, "/telemetry/batch".toList]

def CONSOLE_SUFFIXES : List (List Char) := ["/auth/ticket".toList]

def COMMANDS_SEGMENT : List Char := "/commands/".toList

def endswith (path : List Char) (suffixes : List (List Char)) : Bool :=
  suffixes.any fun suffix => suffix.isSuffixOf path

def rate_limit_bucket (method path : List Char) : Option Bucket :=
  if method ≠ "POST".toList then none
  else if endswith path INGEST_SUFFIXES then some .ingest
  else if endswith path CONSOLE_SUFFIXES then some .console
  else if contains COMMANDS_SEGMENT path && !endswith path ["/claim".toList] then some .console
  else none

-- What the middleware reads of an ASGI scope. The server gives the names of
-- headers in lower case, and `Headers.get` takes the first of a name.
structure Scope where
  type : String
  method : List Char
  path : List Char
  client : Option (List Char)
  headers : List (String × List Char)

-- The hops of a header, blanks and empty ones dropped.
def hops (forwarded : List Char) : List (List Char) :=
  ((forwarded.splitOn ',').map strip).filter fun hop => !hop.isEmpty

def client_ip_from_scope (scope : Scope) (trusted_proxy_count : Int) : List Char :=
  let fallback := scope.client.getD "unknown".toList
  if trusted_proxy_count ≤ 0 then fallback
  else
    match scope.headers.lookup "x-forwarded-for" with
    | none => fallback
    | some forwarded =>
        if forwarded = [] then fallback
        else if hops forwarded = [] then fallback
        else
          let index := ((hops forwarded).length : Int) - trusted_proxy_count
          (hops forwarded).getD (max index 0).toNat []

-- The arguments of one call of `_check_rate_limit`, and `time.time()` in it.
structure Request where
  client_ip : List Char
  max_requests : Int
  window_seconds : Int
  bucket : Bucket
  now : ℚ

-- f"{bucket}:{client_ip}"
def key (bucket : Bucket) (client_ip : List Char) : List Char := bucket.text ++ ':' :: client_ip

def Request.key (r : Request) : List Char := Middleware.key r.bucket r.client_ip

structure RateLimitMiddleware where
  max_requests : Int
  console_max_requests : Int
  window_seconds : Int
  trusted_proxy_count : Int

namespace RateLimitMiddleware

variable (self : RateLimitMiddleware)

def budget (bucket : Bucket) : Int :=
  if bucket = .console then self.console_max_requests else self.max_requests

-- What `__call__` asks the limiter, or `none` where it goes straight to the app.
def request (scope : Scope) (now : ℚ) : Option Request :=
  if scope.type = "http" then
    (rate_limit_bucket scope.method scope.path).map fun bucket =>
      { client_ip := client_ip_from_scope scope self.trusted_proxy_count
        max_requests := self.budget bucket
        window_seconds := self.window_seconds
        bucket := bucket
        now := now }
  else none

end RateLimitMiddleware

section Memory

-- `_memory_windows`, in insertion order.
abbrev Windows := List (List Char × List ℚ)

def check_rate_limit_memory (memory_windows : Windows) (r : Request) : Windows × Bool :=
  let cutoff := r.now - r.window_seconds
  let timestamps := (memory_windows.lookup r.key).getD []
  let fresh := timestamps.filter fun t => cutoff < t
  let allowed := decide ((fresh.length : Int) < r.max_requests)
  (Dict.setItem memory_windows r.key (fresh ++ [r.now]), allowed)

end Memory

section Redis

variable {Member : Type*} [DecidableEq Member]

-- A sorted set with the time its key expires at, if it does.
structure Zset (Member : Type*) where
  scores : List (Member × ℚ)
  expires_at : Option ℚ

abbrev Redis (Member : Type*) := List Char → Option (Zset Member)

-- A set without members does not exist.
def zremrangebyscore (min max : ℚ) (zset : Option (Zset Member)) : Option (Zset Member) :=
  zset.bind fun z =>
    let kept := z.scores.filter fun p => !(decide (min ≤ p.2) && decide (p.2 ≤ max))
    if kept = [] then none else some { z with scores := kept }

def zcard (zset : Option (Zset Member)) : Nat := (zset.map fun z => z.scores.length).getD 0

def zadd (member : Member) (score : ℚ) : Option (Zset Member) → Option (Zset Member)
  | none => some { scores := [(member, score)], expires_at := none }
  | some z => some { z with scores := Dict.setItem z.scores member score }

-- EXPIRE with a time that is not positive deletes the key.
def expire (now : ℚ) (seconds : Int) (zset : Option (Zset Member)) : Option (Zset Member) :=
  if seconds ≤ 0 then none else zset.map fun z => { z with expires_at := some (now + seconds) }

-- What a command finds under a key; `expired now at` says whether a key with the deadline
-- `at` is gone at `now`.
def unexpired (expired : ℚ → ℚ → Bool) (now : ℚ) (zset : Option (Zset Member)) :
    Option (Zset Member) :=
  zset.filter fun z => !z.expires_at.any (expired now)

-- How `pipeline.execute()` ends: MULTI/EXEC is applied whole or not at all, and a
-- connection may be lost before or after that.
inductive Reply where
  | results
  | raised (applied : Bool)

-- `get_redis()` returning None is `client = false`.
structure Visit (Member : Type*) where
  request : Request
  member : Member
  client : Bool
  reply : Reply

structure Limiter (Member : Type*) where
  memory_windows : Windows
  redis : Redis Member

def redis_key (r : Request) : List Char := "rate_limit:".toList ++ r.key

-- The four commands of the pipeline, and the second result.
def execute (expired : ℚ → ℚ → Bool) (redis : Redis Member) (r : Request) (member : Member) :
    Redis Member × Nat :=
  let kept := zremrangebyscore 0 (r.now - r.window_seconds)
    (unexpired expired r.now (redis (redis_key r)))
  (Function.update redis (redis_key r) (expire r.now r.window_seconds (zadd member r.now kept)),
    zcard kept)

def check_rate_limit (expired : ℚ → ℚ → Bool) (rate_limit_backend : String) (limiter : Limiter Member)
    (v : Visit Member) : Limiter Member × Bool :=
  if rate_limit_backend = "memory" then
    let (windows, allowed) := check_rate_limit_memory limiter.memory_windows v.request
    ({ limiter with memory_windows := windows }, allowed)
  else if v.client = false then (limiter, true)
  else
    let (redis, count_before_insert) := execute expired limiter.redis v.request v.member
    match v.reply with
    | .raised false => (limiter, true)
    | .raised true => ({ limiter with redis := redis }, true)
    | .results => ({ limiter with redis := redis },
        decide ((count_before_insert : Int) < v.request.max_requests))

end Redis

end FleetOps.Middleware
