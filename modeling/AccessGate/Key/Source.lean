import AccessGate.Json.Reader
import AccessGate.Key.Address
import AccessGate.Key.Set
import AccessGate.Setting.Signature
import AccessGate.Token.Parts
import AccessGate.Token.Claims
import AccessGate.World

/-!
# Where verification keys come from

* `AccessGate.KeySource` – a **source of keys**: one key for every token, the key set of a file, or
  the key set of a remote endpoint;
* `AccessGate.KeyCache` – what a source **remembers** of its endpoint;
* `AccessGate.KeySource.ofSettings` – the source **that settings name**. A secret comes before a
  file and a file before an endpoint;
* `AccessGate.KeySource.keyFor` – the **key for a token**. A file is read once, when the source is
  made. An endpoint is asked again when it has no key for a token, and asked every time if nothing
  is kept.
-/

namespace AccessGate

open Expectation (refused)

/-- A remote endpoint, and for how long its key set is kept, in seconds; nothing if it is not. -/
structure Endpoint where
  url : String
  lifespan : Option Double
deriving DecidableEq, Repr

/-- A source of keys. -/
inductive KeySource where
  | fixed (key : Value)
  | file (keys : List VerificationKey)
  | remote (endpoint : Endpoint)
deriving DecidableEq, Repr

/-- The document of an endpoint, if it is kept, and how often the endpoint was asked. -/
structure KeyCache where
  held : Option Value
  fetches : Nat
deriving DecidableEq, Repr

/-- What a source remembers when it is made. -/
def KeyCache.empty : KeyCache := ⟨none, 0⟩

namespace KeySource

/-! ### Key sets in files -/

/-- The keys of the document in the file at a path. -/
def ofDocument (path : String) : Value → Except Fault (List VerificationKey)
  | .mapping ms => KeySet.ofMembers (fun e => .setup (.keySetInvalid e path)) ms
  | v => .error (v.missing "get")

/-- The keys of the bytes of a file. -/
def ofBytes (path : String) (bytes : List UInt8) : Except Fault (List VerificationKey) :=
  match (Text.ofUtf8? bytes).bind Json.ofText? with
  | some document => ofDocument path document
  | none => .error (.setup (.keySetNotJson path))

/-- The fault of a path that leads to no file. -/
def unreadable (reason : String) (path : String) : Fault :=
  .setup (.keySetUnreadable (reason ++ ": " ++ Quote.text (Path.ofText path).text) path)

/-- The keys of the file at a path. -/
def ofPath (files : Tree) (path : String) : Except Fault (List VerificationKey) :=
  if path.toList.contains '\x00' then .error (.setup (.keySetPathUnusable path))
  else
    match files.find (Path.ofText path) with
    | .file bytes => ofBytes path bytes
    | .directory => .error (unreadable "[Errno 21] Is a directory" path)
    | .missing => .error (unreadable "[Errno 2] No such file or directory" path)
    | .blocked => .error (unreadable "[Errno 20] Not a directory" path)
    | .tooLong => .error (unreadable "[Errno 36] File name too long" path)

/-- The keys of the file that a setting names. -/
def ofFile (files : Tree) : Value → Except Fault (List VerificationKey)
  | .text path => ofPath files path
  | _ => .error .wrongKind

/-! ### Sources -/

/-- A time to keep keys, which is one second at least. -/
def lifespanOf : Value → Except Fault Value
  | .bool _ => .ok (.int 1)
  | .int n => .ok (.int (max n 1))
  | .float x => .ok (if (Point.ofDouble? x).any (·.lt (.ofInt 1)) then .int 1 else .float x)
  | _ => .error .wrongKind

/-- The source that settings name. -/
def ofSettings (files : Tree) (s : SignatureSettings) : Except Fault KeySource :=
  if s.secret.isTruthy then .ok (.fixed s.secret)
  else if s.keyFile.isTruthy then (ofFile files s.keyFile).map .file
  else if s.keyUrl.isTruthy then do
    let lifespan ← lifespanOf s.cacheDuration
    let url ← Address.check s.keyUrl
    if s.cacheEnabled.isTruthy then return .remote ⟨url, some (← lifespan.toDouble)⟩
    else return .remote ⟨url, none⟩
  else .error (.setup .keySourceMissing)

/-! ### Keys in a set -/

/-- The first key with an id. -/
def withKid? (keys : List VerificationKey) (kid : Value) : Option VerificationKey :=
  keys.find? (·.kid.equals kid)

/-- The key id of a token as it is shown. Only texts are key ids. -/
def kidText : Value → String
  | .text s => s
  | _ => "None"

/-- The key of a file for the key id of a token. A token without one is served if there is only one
key. -/
def pick (keys : List VerificationKey) (kid : Value) : Except KeySourceError VerificationKey :=
  match kid, keys with
  | .null, [only] => .ok only
  | .null, _ => .error .severalKeys
  | _, _ =>
      match withKid? keys kid with
      | some key => .ok key
      | none => .error (.noMatch (kidText kid))

/-- Is the key of an endpoint meant for signatures, and has it an id? -/
def isForSigning (key : VerificationKey) : Bool :=
  (key.use == .null || key.use == .text "sig") && key.kid.isTruthy

/-! ### Endpoints -/

/-- The document that an endpoint serves. -/
def fetch (served : Texts) (e : Endpoint) : Except Fault Value :=
  match served.lookup (Address.asked e.url) with
  | some body => (Json.readBytes (Text.utf8 body)).mapError Fault.ofUnreadable
  | none => .error (refused (.lookup (.unreachable "<urlopen error unreachable>")))

/-- What is kept of a document that was asked for. A document that is nothing is not kept. -/
def kept (e : Endpoint) : Except Fault Value → Option Value
  | .ok .null => none
  | .ok document => if e.lifespan.isSome then some document else none
  | .error _ => none

/-- The document of an endpoint, asked for if it is not kept or not fresh enough. -/
def document (served : Texts) (e : Endpoint) (refresh : Bool) (c : KeyCache) :
    Except Fault Value × KeyCache :=
  match refresh, c.held with
  | false, some document => (.ok document, c)
  | _, _ =>
      let answer := fetch served e
      (answer, ⟨kept e answer, c.fetches + 1⟩)

/-- The keys for signatures in a document of an endpoint. -/
def signingKeys : Value → Except Fault (List VerificationKey)
  | .mapping ms => do
      let keys ← KeySet.ofMembers (fun e => refused (.lookup (.emptySet e.message))) ms
      match keys.filter isForSigning with
      | [] => throw (refused (.lookup .noSigningKeys))
      | usable => return usable
  | _ => .error (refused (.lookup .notObject))

/-- The key of an endpoint with an id, if its document has one. -/
def ask (served : Texts) (e : Endpoint) (refresh : Bool) (c : KeyCache) (kid : Value) :
    Except Fault (Option VerificationKey) × KeyCache :=
  let (answer, after) := document served e refresh c
  (answer.bind fun d => (signingKeys d).map (withKid? · kid), after)

/-- The key of an endpoint for the key id of a token; the endpoint is asked again if it has none. -/
def askTwice (served : Texts) (e : Endpoint) (c : KeyCache) (kid : Value) :
    Except Fault VerificationKey × KeyCache :=
  match ask served e false c kid with
  | (.error f, after) => (.error f, after)
  | (.ok (some key), after) => (.ok key, after)
  | (.ok none, after) =>
      match ask served e true after kid with
      | (.error f, again) => (.error f, again)
      | (.ok (some key), again) => (.ok key, again)
      | (.ok none, again) => (.error (refused (.lookup (.noRemoteMatch (kidText kid)))), again)

/-! ### Keys for tokens -/

/-- The parts of a token that a key set is asked about. -/
def readable (token : Value) : Except TokenError Token.Parts := do
  let p ← Token.Parts.ofToken token
  p.check
  return p

/-- The key id of a token that an endpoint is asked about. The token has to be whole. -/
def kidOfWhole (token : Value) : Except TokenError Value := do
  let p ← readable token
  p.checkAttached
  let _ ← p.claims
  return p.kid

/-- The key for a token. -/
def keyFor (w : World) (source : KeySource) (c : KeyCache) (token : Value) :
    Except Fault Key × KeyCache :=
  match source with
  | .fixed key => (.ok (.given key), c)
  | .file keys =>
      let key := do
        let p ← readable token
        (pick keys p.kid).mapError TokenError.lookup
      ((key.mapError refused).map VerificationKey.key, c)
  | .remote e =>
      match kidOfWhole token with
      | .error f => (.error (refused f), c)
      | .ok kid =>
          let (key, after) := askTwice w.served e c kid
          (key.map VerificationKey.key, after)

end KeySource

end AccessGate
