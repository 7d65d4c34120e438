/-
  Networking/TCPServer.lean --- `TCPServer`, from src/Networking/TCPServer.cpp.

  An iterator into `_clients` splits the vector in two: the elements before it,
  and the elements from it on.  The loops of `receiveData` and `broadcastData`
  recurse on the second part, so `it != _clients.end()` is that this part is not
  empty, and incrementing an iterator for which it is empty is undefined.

  An iterator is read as a position here, which is what it is in a build that does
  not check iterators.  By the standard `erase` invalidates the iterator it is given,
  and the increment after it is undefined in any case: `Networking.Checked` has the
  same loops read that way.
-/
import XplaneServer.Datas.Callbacks

set_option autoImplicit false

namespace XplaneServer.Networking

open Foundation Json
open Datas (registerDatarefCallback)

/-! ## Callbacks -/

/-- What a callback outside the repository did with a message: the exception it
threw or the value it returned, the registry after it, and the replies it sent
to the emiter.  It does not reach `_clients`, and leaves its emiter as it is. -/
structure CallbackEffect where
  result : Except Exn Int
  datarefMap : DatarefMap
  replies : List Bytes

/-- The code that is not in the repository. -/
structure Lib where
  json : JsonCpp
  /-- the callbacks other than the repository's own -/
  other : Nat → MsgEnv → Bytes → Client → DatarefMap → CallbackEffect

/-- A library in which no other callback does anything. -/
def Lib.ofJson (json : JsonCpp) : Lib where
  json
  other _ _ _ _ datarefMap := { result := .ok 0, datarefMap, replies := [] }

/-- Call a callback through its pointer. -/
def invoke (L : Lib) (env : MsgEnv) (dataIn : Bytes) (emiter : Client) :
    ServerCallbacks → Plugin Int
  | .registerDatarefCallback => registerDatarefCallback L.json env dataIn emiter
  | .other id => do
      let effect := L.other id env dataIn emiter (← get).datarefMap
      modify fun w =>
        { w with
          datarefMap := effect.datarefMap
          trace := w.trace ++ effect.replies.map (Event.send emiter.sock · env.reply) }
      liftExn effect.result

/-! ## Construction -/

/-- `TCPServer::TCPServer()`.  The constructors leave `_isValid` as it is in
memory. -/
def TCPServer.default (uninitialized : Bool) : TCPServer :=
  { serverSocket := none, port := 0, ip := [], isValid := uninitialized,
    clients := [], callbacks := ∅ }

/-- `TCPServer::TCPServer(u_short port, const char* bind_address)` -/
def TCPServer.ofAddress (port : UInt16) (bindAddress : Bytes) (uninitialized : Bool) :
    TCPServer :=
  { serverSocket := none, port, ip := bindAddress, isValid := uninitialized,
    clients := [], callbacks := ∅ }

/-- `TCPServer::setBindAddress` -/
def setBindAddress (port : UInt16) (bindAddress : Bytes) : Plugin Unit :=
  modify fun w => { w with server := { w.server with port, ip := bindAddress } }

/-- What the calls of `initServer` return. -/
structure InitEnv where
  startup : Int
  socket : Option SOCKET
  bind : Int
  listen : Int
  ioctlsocket : Int
  /-- `WSAGetLastError()` after a failed `ioctlsocket` -/
  lastError : Nat

/-- `TCPServer::initServer`.  On a failed `ioctlsocket` the source adds the error
code to a string literal, which moves a pointer into it: the text passed to the
log starts at that offset, and an offset past the terminator is a read outside
the literal. -/
def initServer (env : InitEnv) : Plugin Bool := do
  if env.startup ≠ 0 then
    return (← get).server.isValid
  modify fun w => { w with server := { w.server with serverSocket := env.socket } }
  match env.socket with
  | none => return (← get).server.isValid
  | some s =>
      let server := (← get).server
      log (.bind s server.ip server.port env.bind)
      if env.bind ≠ 0 then
        return (← get).server.isValid
      log (.listen s env.listen)
      if env.listen = SOCKET_ERROR then
        log (.closesocket s)
        return true
      log (.ioctlsocket s env.ioctlsocket)
      if env.ioctlsocket = SOCKET_ERROR then
        if (lit "ioctlsocket() failed with error").length < env.lastError then
          throw (.ub .overread)
        return true
      modify fun w => { w with server := { w.server with isValid := true } }
      return true

/-- `TCPServer::bindCallback` -/
def bindCallback (input : Bytes) (callback : ServerCallbacks) : Plugin Unit :=
  modify fun w =>
    { w with
      server := { w.server with callbacks := w.server.callbacks.insertIfNew input callback } }

/-- `TCPServer::connectedClients` -/
def connectedClients : Plugin Int := do
  return (← get).server.clients.length

/-! ## Receiving -/

/-- `TCPServer::parseReceivedData`.  A failed parse is only noted in the log:
the root it left is used like that of a parse that succeeded. -/
def parseReceivedData (L : Lib) (env : MsgEnv) (cli : Client) (data : Bytes) : Plugin Int := do
  let (_parsingSuccessful, root) ← liftExn (L.json.parse data)
  let operation ← liftExn (root.member (lit "Ops"))
  let key ← liftExn (operation.asString L.json)
  match (← get).server.callbacks[key]? with
  | some callback =>
      log (.invoke callback data cli.sock env)
      let result ← invoke L env data cli callback
      log (.returned callback data cli.sock env result)
      return result
  | none => return -1

/-- The answers from outside while one client is polled. -/
structure PollEnv where
  recv : RecvOutcome
  msg : MsgEnv

/-- The loop of `receiveData`, at an iterator with these clients before it. -/
def receiveDataLoop (L : Lib) (polls : Nat → PollEnv) :
    List Client → List Client → Plugin Unit
  | _, [] => return
  | before, it :: after => do
      let poll := polls before.length
      log (.recv it.sock poll.recv)
      let (res, received) := it.receiveTCPData poll.recv
      modify (·.withClients (before ++ received :: after))
      if 0 < res then
        let (data, emptied) ← liftExcept received.getAndEmptyBuffer
        modify (·.withClients (before ++ emptied :: after))
        let _ ← parseReceivedData L poll.msg emptied data
        receiveDataLoop L polls (before ++ [emptied]) after
      else
        receiveDataLoop L polls (before ++ [received]) after

/-- `TCPServer::receiveData`, given the answers to the poll of each client of
the list in turn. -/
def receiveData (L : Lib) (polls : Nat → PollEnv) : Plugin Unit := do
  receiveDataLoop L polls [] (← get).server.clients

/-! ## Sending -/

/-- The loop of `broadcastData`, at an iterator with these clients before it and
with this many iterations done.  The iterator is a position: after `erase` it is at
the element that followed the erased one, and the increment then steps over it. -/
def broadcastDataLoop (data : Bytes) (sends : Nat → Int) :
    Nat → List Client → List Client → Plugin Unit
  | _, _, [] => return
  | n, before, it :: after => do
      let res ← it.sendTCPData data (sends n)
      if res = SOCKET_ERROR then
        log (.erase it.sock)
        modify (·.withClients (before ++ after))
        match after with
        | [] => throw (.ub .iterator)
        | next :: after => broadcastDataLoop data sends (n + 1) (before ++ [next]) after
      else
        broadcastDataLoop data sends (n + 1) (before ++ [it]) after

/-- `TCPServer::broadcastData`, given the result of the `send` of each iteration. -/
def broadcastData (data : Bytes) (sends : Nat → Int) : Plugin Int := do
  log (.broadcast data)
  broadcastDataLoop data sends 0 [] (← get).server.clients
  return data.length

/-! ## Accepting -/

/-- What the calls of `listenForClient` return. -/
structure AcceptEnv where
  accept : Option SOCKET
  /-- the `send` of the greeting -/
  greeting : Int
  ioctlsocket : Int

/-- `TCPServer::listenForClient`.  The result of the `listen` before the `accept`
is not looked at, and a failed greeting is only noted in the log. -/
def listenForClient (env : AcceptEnv) : Plugin Int := do
  log (.accept env.accept)
  match env.accept with
  | none => return 0
  | some client =>
      log (.send client (lit "Hello on the server\n") env.greeting)
      log (.ioctlsocket client env.ioctlsocket)
      if env.ioctlsocket = SOCKET_ERROR then
        return -2
      log (.pushBack client)
      modify fun w => w.withClients (w.server.clients ++ [Client.ofSocket client])
      return (← get).server.clients.length

end XplaneServer.Networking
