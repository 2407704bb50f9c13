import Cadence.Config
import Cadence.Json.Printer
import Cadence.Request
import Cadence.Text.Base64
import Cadence.Url.Reader

/-!
# The client of the gateway

Says how the requests of scenarios go over HTTP: where to, and with which body. A key is one
segment of the path, whatever characters it has.

Sections 6 and 10.9 of the specification.
-/

namespace Cadence

/-- A request as it goes over HTTP. -/
structure HttpRequest where
  method : String
  /-- Where it goes, without credentials and fragment. -/
  url : Url
  authorization : Option String
  /-- The body and the kind of content it has. -/
  body : Option (String × String)
  deriving Repr

structure Client where
  base : Url
  timeout : Duration
  deriving Repr

namespace Client

/-- A client for the gateway at a base URL. -/
def new (baseUrl : String) (timeout : Duration) : Except Fault Client :=
  match Url.parse baseUrl with
  | .error fault => .error (.invalid (.baseUrlSyntax baseUrl fault.message))
  | .ok base =>
    if base.scheme = "http" ∨ base.scheme = "https" then .ok ⟨base, timeout⟩
    else .error (.invalid (.baseUrlOpaque baseUrl))

/-- The client that a configuration asks for. -/
def ofConfig (config : RunConfig) : Except Fault Client := new config.baseUrl config.requestTimeout

/-- Where the value of a key is (10.9). -/
def keyUrl (client : Client) (key : String) : Url := client.base.extend ["kv", key]

/-- What is sent to write a value: a document with the value and its lifetime in milliseconds, as
far as that fits 64 bits. -/
def putBody (value : String) (ttl : Duration) : String :=
  String.ofList ("\x7b\"value\":".toList ++ Json.quoted value ++ ",\"ttl\":".toList ++
    Nat.toDigits 10 (min ttl.millis (UInt64.size - 1)) ++ ['\x7d'])

/-- What proves who is asking: the user and the password in a URL, if there are any. -/
def authorization? (url : Url) : Option String := do
  let user ← Url.decode? url.username
  if url.username.isEmpty && url.password.isEmpty then none
  else
    let password := (Url.decode? url.password).getD ""
    some ("Basic " ++ String.ofList (Text.base64 (user ++ ":" ++ password).toUTF8.toList))

/-- A request to a URL. -/
def request (method : String) (url : Url) (body : Option (String × String)) : HttpRequest where
  method := method
  url := { url with username := [], password := [], fragment := none }
  authorization := authorization? url
  body := body

/-- A request as it goes over HTTP. -/
def send (client : Client) : Request → HttpRequest
  | .ping => request "GET" (client.base.extend ["ping"]) none
  | .put key value ttl =>
    request "PUT" (client.keyUrl key) (some ("application/json", putBody value ttl))
  | .get key => request "GET" (client.keyUrl key) none

end Client

end Cadence
