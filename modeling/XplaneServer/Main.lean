/-
  Main.lean --- the plugin's entry points, from src/main.cpp.

  X-Plane calls `XPluginStart` once and then `MainCallBack` every half second.
  A call of the flight loop is one tick: accept at most one client, poll every
  client once, and send every client the values of all registered datarefs.
-/
import XplaneServer.Networking.TCPServer

set_option autoImplicit false

namespace XplaneServer

open Foundation
open Datas (Dataref)
open Networking

/-- The globals before `XPluginStart`; static storage is zeroed. -/
def World.initial : World :=
  { server := TCPServer.default false, datarefMap := ∅, trace := [] }

/-- `XPluginStart` -/
def xPluginStart (env : InitEnv) (uninitialized : Bool) : Plugin Int := do
  modify fun w =>
    { w with server := TCPServer.ofAddress 5505 (lit "0.0.0.0") uninitialized }
  if !(← initServer env) then
    log (.speakString (lit "UNABLE TO START THE SERVER"))
  bindCallback (lit "REGISTER_DATAREF") .registerDatarefCallback
  log .registerFlightLoopCallback
  return 1

/-- The loop of `MainCallBack` over `datarefMap`, with the text so far. -/
def snapshotLoop (S : Sim) : List (Bytes × Dataref) → Bytes → Plugin Bytes
  | [], data => return data
  | (first, second) :: rest, data => do
      let (calls, value) := second.getValue S
      modify (·.record (calls.map .getData))
      let value ← liftUb value
      snapshotLoop S rest (data ++ first ++ lit " : " ++ value ++ lit "\n")

/-- The text `MainCallBack` builds from the registry. -/
def snapshot (S : Sim) : Plugin Bytes := do
  snapshotLoop S (← get).datarefMap.toList []

/-- The answers from outside during one tick. -/
structure TickEnv where
  accept : AcceptEnv
  polls : Nat → PollEnv
  /-- the simulator while the values are read -/
  sim : Sim
  sends : Nat → Int

/-- `MainCallBack` -/
def mainCallBack (L : Lib) (t : TickEnv) : Plugin Rat := do
  let _ ← listenForClient t.accept
  receiveData L t.polls
  if 0 < (← connectedClients) then
    let data ← snapshot t.sim
    let _ ← broadcastData data t.sends
  return 1 / 2

end XplaneServer
