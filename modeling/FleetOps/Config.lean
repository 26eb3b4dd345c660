import FleetOps.Library.Text

namespace FleetOps

open Text

structure Settings where
  app_env : String
  cors_origins : String
  telemetry_api_key : String
  auth_mode : Option String
  jwt_secret : Option String
  websocket_backend : String
  defer_writes_without_viewers : Bool
  max_clock_skew_seconds : Int
  opt_redis_buffer : Bool
  opt_batch_insert : Bool
  telemetry_stream_maxlen : Int

inductive ConfigError where
  | value (message : String)
  | auth_mode (got : Option String)

-- `str.lower`, as far as comparing with a text of a, c, d, e, i, n, o, p, q, r,
-- t and u goes: no letter outside ASCII is lowered to one of these.
def lower (s : String) : List Char := s.toList.map Char.toLower

namespace Settings

variable (settings : Settings)

def is_production : Bool := lower settings.app_env == "production".toList

def cors_origin_list : List (List Char) :=
  if strip settings.cors_origins.toList == ['*'] then [['*']]
  else ((settings.cors_origins.toList.splitOn ',').map strip).filter fun origin => !origin.isEmpty

def resolved_auth_mode : List Char :=
  match settings.auth_mode with
  | some mode =>
      if mode != "" then lower mode
      else if settings.is_production then "required".toList else "open".toList
  | none => if settings.is_production then "required".toList else "open".toList

def auth_required : Bool := settings.resolved_auth_mode == "required".toList

-- `_guard_production`: the error a configuration is refused with.
def guard_production : Option ConfigError :=
  if settings.is_production && settings.cors_origin_list == [['*']] then
    some (.value ("CORS_ORIGINS='*' is not allowed when APP_ENV=production. " ++
      "Set it to the explicit dashboard origin(s)."))
  else if settings.is_production && decide (settings.telemetry_api_key.length < 16) then
    some (.value "TELEMETRY_API_KEY must be at least 16 characters in production.")
  else if settings.is_production && settings.jwt_secret.any fun secret => decide (secret.length < 32) then
    some (.value "JWT_SECRET must be at least 32 characters in production.")
  else if settings.resolved_auth_mode != "open".toList &&
      settings.resolved_auth_mode != "required".toList then
    some (.auth_mode settings.auth_mode)
  else none

def accepted : Bool := settings.guard_production.isNone

end Settings

end FleetOps
