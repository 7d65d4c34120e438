/-
  Plugin.lean --- the state of the plugin, the record of what it did, and the
  programs over both.

  The globals of the source are `server` and `datarefMap`.  The world adds a
  trace of the calls the plugin made to WinSock and to the simulator, and of the
  callbacks it ran; no function reads the trace.  `Logging` is not in the
  repository, and its calls are left out.

  What a call from outside answered is an argument of the function that makes
  the call: `MsgEnv` for the handling of one message, `PollEnv` for one client
  in `receiveData`, and so on.  A theorem over all of these arguments is a
  theorem over all behaviours of the network and the simulator.
-/
import XplaneServer.Foundation.Exec
import XplaneServer.Foundation.FirstWins
import XplaneServer.Json.Value
import XplaneServer.Datas.Dataref
import XplaneServer.Networking.Client

set_option autoImplicit false

namespace XplaneServer

open Foundation
open Datas (Dataref)
open Networking (Client RecvOutcome)

/-- `DatarefMap`.  The source stores pointers to datarefs made for the map and
shared with nothing else, so the map holds the datarefs. -/
abbrev DatarefMap := StringMap Dataref

/-- `ServerCallbacks`, the functions a server can bind: the one `XPluginStart`
binds, and any other. -/
inductive ServerCallbacks where
  | registerDatarefCallback
  | other (id : Nat)
  deriving DecidableEq

/-- The answers from outside while one message is handled. -/
structure MsgEnv where
  /-- the simulator -/
  sim : Sim
  /-- the result of the `send` of a reply -/
  reply : Int

/-- What the plugin did. -/
inductive Event where
  | accept (result : Option SOCKET)
  | send (sock : SOCKET) (data : Bytes) (result : Int)
  | recv (sock : SOCKET) (outcome : RecvOutcome)
  | ioctlsocket (sock : SOCKET) (result : Int)
  | bind (sock : SOCKET) (ip : Bytes) (port : UInt16) (result : Int)
  | listen (sock : SOCKET) (result : Int)
  | closesocket (sock : SOCKET)
  /-- `_clients.push_back` -/
  | pushBack (sock : SOCKET)
  /-- `_clients.erase` -/
  | erase (sock : SOCKET)
  /-- a callback was called on a message -/
  | invoke (callback : ServerCallbacks) (dataIn : Bytes) (emiter : SOCKET) (env : MsgEnv)
  /-- and it returned -/
  | returned (callback : ServerCallbacks) (dataIn : Bytes) (emiter : SOCKET) (env : MsgEnv)
      (result : Int)
  | getData (call : XPLMGet)
  /-- `broadcastData` was called with this text -/
  | broadcast (data : Bytes)
  | speakString (text : Bytes)
  | registerFlightLoopCallback

/-- The data members of `class TCPServer` that its functions use.  A socket
that is not open is `none`. -/
structure TCPServer where
  serverSocket : Option SOCKET
  port : UInt16
  ip : Bytes
  isValid : Bool
  clients : List Client
  callbacks : StringMap ServerCallbacks

/-- The globals of the plugin, and the trace. -/
structure World where
  server : TCPServer
  datarefMap : DatarefMap
  trace : List Event

/-- A function of the plugin. -/
abbrev Plugin (α : Type) : Type := Exec World Halt α

/-- A call that ended in a state without undefined behaviour.  An exception is
caught by the caller. -/
def Leads {α : Type} (x : Plugin α) (w w' : World) : Prop :=
  (exec x w).2 = w' ∧ ∀ u, (exec x w).1 ≠ .error (.ub u)

theorem leads_of_ok {α : Type} {x : Plugin α} {w : World} {a : α} (h : (exec x w).1 = .ok a) :
    Leads x w (exec x w).2 :=
  ⟨rfl, fun u hub => by simp [h] at hub⟩

namespace World

/-- Append to the trace. -/
def record (w : World) (events : List Event) : World :=
  { w with trace := w.trace ++ events }

/-- Replace `_clients`. -/
def withClients (w : World) (clients : List Client) : World :=
  { w with server := { w.server with clients } }

@[simp] theorem record_server (w : World) (es : List Event) :
    (w.record es).server = w.server := rfl
@[simp] theorem record_datarefMap (w : World) (es : List Event) :
    (w.record es).datarefMap = w.datarefMap := rfl
@[simp] theorem record_trace (w : World) (es : List Event) :
    (w.record es).trace = w.trace ++ es := rfl
@[simp] theorem record_nil (w : World) : w.record [] = w := by simp [record]
@[simp] theorem record_record (w : World) (es es' : List Event) :
    (w.record es).record es' = w.record (es ++ es') := by simp [record]

@[simp] theorem withClients_clients (w : World) (cs : List Client) :
    (w.withClients cs).server.clients = cs := rfl
@[simp] theorem withClients_callbacks (w : World) (cs : List Client) :
    (w.withClients cs).server.callbacks = w.server.callbacks := rfl
@[simp] theorem withClients_datarefMap (w : World) (cs : List Client) :
    (w.withClients cs).datarefMap = w.datarefMap := rfl
@[simp] theorem withClients_trace (w : World) (cs : List Client) :
    (w.withClients cs).trace = w.trace := rfl

end World

/-- Note an event. -/
def log (e : Event) : Plugin Unit := modify fun w => w.record [e]

/-- A call of code that returns or throws. -/
def liftExn {α : Type} (x : Except Exn α) : Plugin α := liftExcept (x.mapError Halt.exn)

/-- Code that returns or is undefined. -/
def liftUb {α : Type} (x : Except Ub α) : Plugin α := liftExcept (x.mapError Halt.ub)

@[simp] theorem exec_log (e : Event) (w : World) :
    exec (log e) w = (.ok (), w.record [e]) := rfl

@[simp] theorem exec_liftExn_ok {α : Type} (a : α) (w : World) :
    exec (liftExn (.ok a)) w = (.ok a, w) := rfl

@[simp] theorem exec_liftExn_error {α : Type} (e : Exn) (w : World) :
    exec (liftExn (.error e : Except Exn α)) w = (.error (.exn e), w) := rfl

@[simp] theorem exec_liftUb_ok {α : Type} (a : α) (w : World) :
    exec (liftUb (.ok a)) w = (.ok a, w) := rfl

/-- `Client::sendTCPData`, given the result of its `send`.  The results of the
two `ioctlsocket` calls around it are not looked at. -/
def Networking.Client.sendTCPData (c : Client) (data : Bytes) (result : Int) : Plugin Int := do
  log (.send c.sock data result)
  return result

@[simp] theorem exec_sendTCPData (c : Client) (data : Bytes) (result : Int) (w : World) :
    exec (c.sendTCPData data result) w = (.ok result, w.record [.send c.sock data result]) :=
  rfl

end XplaneServer
