import AccessGate.Setting.Duration
import AccessGate.Setting.Environment
import AccessGate.Setting.Flag

/-!
# Settings for verifying tokens

* `AccessGate.SignatureSettings` – the **settings**. They are values: what a setting is used for
  decides what it has to be, and that happens late;
* `AccessGate.SignatureSettings.ofData` and `AccessGate.SignatureSettings.ofEnvironment` – the
  settings **from configuration** and from variables;
* `AccessGate.SignatureSettings.check` – what is **wrong with them** whatever they are used for;
* `AccessGate.SignatureSettings.put` – the settings **with one of them changed**.
-/

namespace AccessGate

/-- How tokens are verified. -/
structure SignatureSettings where
  algorithm : Value
  keyUrl : Value
  keyFile : Value
  secret : Value
  audience : Value
  issuer : Value
  cookie : Value
  cacheEnabled : Value
  cacheDuration : Value
  leeway : Value
deriving DecidableEq, Repr

namespace SignatureSettings

/-- The settings where nothing is set. Keys are kept for a quarter of an hour. -/
def standard : SignatureSettings where
  algorithm := .text "RS256"
  keyUrl := .null
  keyFile := .null
  secret := .null
  audience := .list []
  issuer := .null
  cookie := .null
  cacheEnabled := .bool true
  cacheDuration := .int 900
  leeway := .int 0

/-- The settings with one of them changed, if there is one of that name. -/
def put? (s : SignatureSettings) (name : String) (v : Value) : Option SignatureSettings :=
  match name with
  | "alg" => some { s with algorithm := v }
  | "jwk_url" => some { s with keyUrl := v }
  | "jwk_local_path" => some { s with keyFile := v }
  | "secret" => some { s with secret := v }
  | "audience" => some { s with audience := v }
  | "issuer" => some { s with issuer := v }
  | "cookie_key" => some { s with cookie := v }
  | "cache_enabled" => some { s with cacheEnabled := v }
  | "cache_duration" => some { s with cacheDuration := v }
  | "leeway" => some { s with leeway := v }
  | _ => none

/-- The settings with one of them changed. Other names change nothing. -/
def put (s : SignatureSettings) (name : String) (v : Value) : SignatureSettings :=
  (s.put? name v).getD s

/-- The settings as a mapping. -/
def toMapping (s : SignatureSettings) : Members :=
  [(.text "alg", s.algorithm), (.text "jwk_url", s.keyUrl), (.text "jwk_local_path", s.keyFile),
    (.text "secret", s.secret), (.text "audience", s.audience), (.text "issuer", s.issuer),
    (.text "cookie_key", s.cookie), (.text "cache_enabled", s.cacheEnabled),
    (.text "cache_duration", s.cacheDuration), (.text "leeway", s.leeway)]

/-- The settings with one given by a name of any kind, which has to be that of a setting. -/
def putMember (s : SignatureSettings) : Value × Value → Except Fault SignatureSettings
  | (.text name, v) =>
      match s.put? name v with
      | some changed => .ok changed
      | none => .error .wrongKind
  | _ => .error .wrongKind

/-- The settings that differ from the standard ones as a mapping says. -/
def ofFields : Value → Except Fault SignatureSettings
  | .mapping ms => ms.foldlM putMember standard
  | _ => .error .wrongKind

/-! ### Configuration -/

/-- A truth value under a name; without one, `other`. -/
def flagUnder (ms : Members) (name : String) (other : Value) : Except Fault Value :=
  match ms.get name with
  | .null => .ok other
  | v =>
      match Setting.flag? v with
      | some b => .ok (.bool b)
      | none => .error (SetupError.notBoolean name v).fault

/-- A duration under a name, in seconds; without one, `other`. A duration that is too long is no
error of the setup. -/
def secondsUnder (ms : Members) (name : String) (other : Value) : Except Fault Value :=
  match ms.get name with
  | .null => .ok other
  | v =>
      match Duration.ofValue v with
      | .ok d => .ok (.float d.seconds)
      | .error .outOfRange => .error .outOfRange
      | .error e => .error (SetupError.notDuration name e.message v).fault

/-- Settings from configuration data. -/
def ofData (data : Value) : Except Fault SignatureSettings := do
  let ms ← Setting.members data
  let audience ← Setting.items (ms.get "audience")
  let cacheEnabled ← flagUnder ms "cache_enabled" standard.cacheEnabled
  let cacheDuration ← secondsUnder ms "cache_duration" standard.cacheDuration
  let leeway ← secondsUnder ms "leeway" standard.leeway
  return {
    algorithm := (ms.find? (.text "alg")).getD standard.algorithm
    keyUrl := ms.get "jwk_url"
    keyFile := ms.get "jwk_local_path"
    secret := ms.get "secret"
    audience := .list (audience.map .text)
    issuer := ms.get "issuer"
    cookie := ms.get "cookie_key"
    cacheEnabled := cacheEnabled
    cacheDuration := cacheDuration
    leeway := leeway }

/-- Settings from the variables under a prefix. Empty variables do not count. -/
def ofEnvironment (vars : Texts) (front : Value) : Except Fault SignatureSettings := do
  let ms ← Setting.fromEnvironmentUnder vars front
  ofData (.mapping (ms.filter (·.2.isTruthy)))

/-! ### Checks -/

/-- Is a duration negative? -/
def isNegative (v : Value) : Except Fault Bool :=
  if v.isNumber then .ok (v.point?.any (·.lt (Point.ofInt 0))) else .error .wrongKind

/-- An algorithm and a source of keys have to be given, and keys cannot be kept for a negative
time. -/
def check (s : SignatureSettings) : Except Fault Unit := do
  if !s.algorithm.isTruthy then throw (.setup .algorithmMissing)
  if !(s.keyUrl.isTruthy || s.keyFile.isTruthy || s.secret.isTruthy) then
    throw (.setup .keySourceMissing)
  if ← isNegative s.cacheDuration then
    throw (SetupError.cacheDurationNegative s.cacheDuration).fault

end SignatureSettings

end AccessGate
