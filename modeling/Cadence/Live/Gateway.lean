import Cadence.Client.Wire
import Std.Async
import Std.Time

/-!
# The gateway over the network

Sends requests over TCP connections, one for each request, and times the replies. Whatever goes
wrong on the way makes the reply a lost one.
-/

namespace Cadence.Live

open Std Async

/-- The first address of a host. -/
def lookUp (host : Url.Host) : Async Net.IPAddr := do
  let name := match host with
    | .address6 _ => ((host.chars.drop 1).dropLast)
    | _ => host.chars
  match (← DNS.getAddrInfo (String.ofList name) "")[0]? with
  | some address => return address
  | none => throw (IO.userError "the host has no address")

/-- All that comes until the connection is closed. -/
partial def receive (socket : TCP.Socket.Client) (sofar : ByteArray) : Async ByteArray := do
  match ← socket.recv? 65536 with
  | none => return sofar
  | some more => receive socket (sofar ++ more)

/-- Sends a request and reads the status of the answer. -/
def fetch (request : HttpRequest) : Async Nat := do
  let url := request.url
  if url.scheme != "http" then throw (IO.userError "only http is spoken")
  match url.host with
  | none => throw (IO.userError "the URL has no host")
  | some host =>
    let port := UInt16.ofNat (url.port.getD 80)
    let address := match ← lookUp host with
      | .v4 address => Net.SocketAddress.v4 ⟨address, port⟩
      | .v6 address => Net.SocketAddress.v6 ⟨address, port⟩
    let socket ← TCP.Socket.Client.mk
    socket.connect address
    socket.send request.text.toUTF8
    let bytes ← receive socket .empty
    match HttpAnswer.read bytes.toList with
    | .ok status => return status
    | .error fault => throw (IO.userError fault.message)

/-- Fails when a time has passed. -/
def timeOut (wait : Duration) : Async Nat := do
  sleep (Time.Millisecond.Offset.ofNat (Duration.timerTick wait.nanos))
  throw (IO.userError "the request timed out")

/-- Makes a request and gives the reply. -/
def call (client : Client) (request : Request) : Async Reply := do
  let started ← IO.monoNanosNow
  let result : Except String Nat ← try
      let status ← Async.race (fetch (client.send request)) (timeOut client.timeout)
      pure (.ok status)
    catch error => pure (.error (toString error))
  let elapsed : Duration := ⟨(← IO.monoNanosNow) - started⟩
  return match result with
    | .ok status => .ofStatus status elapsed
    | .error message => .lost message elapsed

end Cadence.Live
