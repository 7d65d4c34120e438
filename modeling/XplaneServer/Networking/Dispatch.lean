/-
  Networking/Dispatch.lean --- what handling one message does, and why the
  receive buffer can be forgotten.

  `exec_parseReceivedData` says everything a message can cause: an exception
  while the operation is read, no callback, or exactly one callback run.  No
  callback reaches `_clients`, so a client whose buffer is clean before a poll
  has a clean buffer after it, and `receiveData` is the loop that hands every
  chunk, cut at its first NUL, to `parseReceivedData` (`exec_receiveData`).
-/
import XplaneServer.Networking.TCPServer

set_option autoImplicit false

namespace XplaneServer.Networking

open Foundation Json
open Datas

/-! ## One message -/

/-- The operation a message names, read from whatever root the parse left. -/
def operationOf (J : JsonCpp) (data : Bytes) : Except Exn Bytes := do
  let (_, root) ← J.parse data
  root.text J (lit "Ops")

/-- Run a callback on a message, and note both ends of the call. -/
def runCallback (L : Lib) (env : MsgEnv) (cli : Client) (data : Bytes)
    (callback : ServerCallbacks) : Plugin Int := do
  log (.invoke callback data cli.sock env)
  let result ← invoke L env data cli callback
  log (.returned callback data cli.sock env result)
  return result

/-- **Everything a message can cause.** -/
theorem exec_parseReceivedData (L : Lib) (env : MsgEnv) (cli : Client) (data : Bytes)
    (w : World) :
    exec (parseReceivedData L env cli data) w =
      match operationOf L.json data with
      | .error e => (.error (.exn e), w)
      | .ok key =>
          match w.server.callbacks[key]? with
          | none => (.ok (-1), w)
          | some callback => exec (runCallback L env cli data callback) w := by
  unfold parseReceivedData operationOf Value.text
  cases hparse : L.json.parse data with
  | error e => simp [exec_bind]
  | ok result =>
      obtain ⟨parsed, root⟩ := result
      cases hmember : root.member (lit "Ops") with
      | error e => simp [exec_bind, hmember]
      | ok operation =>
          cases hkey : operation.asString L.json with
          | error e => simp [exec_bind, hmember, hkey]
          | ok key =>
              simp only [exec_bind, exec_liftExn_ok, exec_get, hmember, hkey, except_ok_bind]
              cases w.server.callbacks[key]? <;> rfl

/-! ## What a callback leaves alone -/

/-- The events of the handling of messages. -/
def Handling : Event → Prop
  | .send .. => True
  | .recv .. => True
  | .invoke .. => True
  | .returned .. => True
  | _ => False

/-- The events of the loop of a broadcast. -/
def Sending : Event → Prop
  | .send .. => True
  | .erase _ => True
  | _ => False

/-- The server is the same, and the trace was extended by the handling of
messages. -/
structure Handles (w w' : World) : Prop where
  server : w'.server = w.server
  trace : ∃ es, w'.trace = w.trace ++ es ∧ ∀ e ∈ es, Handling e

instance : Std.Refl Handles := ⟨fun _ => ⟨rfl, [], by simp, by simp⟩⟩

instance : IsTrans World Handles where
  trans := by
    rintro w₁ w₂ w₃ ⟨hserver, es, htrace, hes⟩ ⟨hserver', es', htrace', hes'⟩
    refine ⟨hserver'.trans hserver, es ++ es', ?_, fun e he => ?_⟩
    · rw [htrace', htrace, List.append_assoc]
    · exact (List.mem_append.mp he).elim (hes e) (hes' e)

theorem handles_log {e : Event} (he : Handling e) : Respects Handles (log e) :=
  fun _ => ⟨rfl, [e], rfl, by simpa using he⟩

/-- A callback leaves the server alone, and only replies to the emiter. -/
theorem exec_invoke_replies (L : Lib) (env : MsgEnv) (dataIn : Bytes) (emiter : Client)
    (callback : ServerCallbacks) (w : World) :
    (exec (invoke L env dataIn emiter callback) w).2.server = w.server ∧
      ∃ replies : List Bytes, (exec (invoke L env dataIn emiter callback) w).2.trace =
        w.trace ++ replies.map (Event.send emiter.sock · env.reply) := by
  cases callback with
  | registerDatarefCallback =>
      rw [invoke, exec_registerDatarefCallback]
      split
      · exact ⟨rfl, [], by simp⟩
      · exact ⟨rfl, [lit "INVALID JSON"], rfl⟩
      · exact ⟨rfl, [lit "SUCESS"], rfl⟩
  | other id =>
      rw [invoke, exec_bind_ok (exec_get w), exec_bind_ok (exec_modify _ w), liftExn,
        exec_liftExcept]
      exact ⟨rfl, (L.other id env dataIn emiter w.datarefMap).replies, rfl⟩

theorem handles_invoke (L : Lib) (env : MsgEnv) (dataIn : Bytes) (emiter : Client)
    (callback : ServerCallbacks) : Respects Handles (invoke L env dataIn emiter callback) := by
  intro w
  obtain ⟨hserver, replies, htrace⟩ := exec_invoke_replies L env dataIn emiter callback w
  exact ⟨hserver, _, htrace, by simp [Handling]⟩

theorem handles_runCallback (L : Lib) (env : MsgEnv) (cli : Client) (data : Bytes)
    (callback : ServerCallbacks) : Respects Handles (runCallback L env cli data callback) := by
  refine Respects.bind (handles_log trivial) fun _ => ?_
  refine Respects.bind (handles_invoke L env data cli callback) fun _ => ?_
  exact Respects.bind (handles_log trivial) fun _ => Respects.pure _

theorem handles_parseReceivedData (L : Lib) (env : MsgEnv) (cli : Client) (data : Bytes) :
    Respects Handles (parseReceivedData L env cli data) := by
  intro w
  rw [exec_parseReceivedData]
  split
  · exact refl_of Handles w
  · split
    · exact refl_of Handles w
    · exact handles_runCallback L env cli data _ w

/-! ## The receive buffer forgotten -/

/-- `receiveData` without buffers: every client is polled in turn, and a chunk
is handled as the string up to its first NUL. -/
def pollClients (L : Lib) (polls : Nat → PollEnv) : Nat → List Client → Plugin Unit
  | _, [] => return
  | n, c :: rest => do
      log (.recv c.sock (polls n).recv)
      match (polls n).recv with
      | .data chunk =>
          let _ ← parseReceivedData L (polls n).msg c (beforeNul chunk.bytes)
          pollClients L polls (n + 1) rest
      | _ => pollClients L polls (n + 1) rest

theorem handles_pollClients (L : Lib) (polls : Nat → PollEnv) :
    ∀ (clients : List Client) (n : Nat), Respects Handles (pollClients L polls n clients) := by
  intro clients
  induction clients with
  | nil => exact fun n => Respects.pure _
  | cons c rest ih =>
      intro n
      refine Respects.bind (handles_log trivial) fun _ => ?_
      split
      · exact Respects.bind (handles_parseReceivedData _ _ _ _) fun _ => ih (n + 1)
      · exact ih (n + 1)

/-- Writing back the clients that are there changes nothing. -/
theorem withClients_self {w : World} {cs : List Client} (h : w.server.clients = cs) :
    w.withClients cs = w := by
  subst h
  rfl

theorem withClients_withClients (w : World) (cs cs' : List Client) :
    (w.withClients cs).withClients cs' = w.withClients cs' := rfl

section LoopStep

variable {L : Lib} {polls : Nat → PollEnv} {before after : List Client} {it : Client}
  {w : World}

/-- One iteration of the loop on a chunk: the buffer is filled and emptied, and
the chunk handled. -/
theorem exec_receiveDataLoop_data (hit : it.Clean)
    (hclients : w.server.clients = before ++ it :: after) {chunk : Chunk}
    (hrecv : (polls before.length).recv = .data chunk) :
    exec (receiveDataLoop L polls before (it :: after)) w =
      exec (do
        let _ ← parseReceivedData L (polls before.length).msg it (beforeNul chunk.bytes)
        receiveDataLoop L polls (before ++ [it]) after)
      (w.record [.recv it.sock (polls before.length).recv]) := by
  have hpos : 0 < (it.receiveTCPData (.data chunk)).1 :=
    (it.receiveTCPData_pos_iff _).mpr ⟨chunk, rfl⟩
  have hback : ∀ es, (w.record es).withClients (before ++ it :: after) = w.record es :=
    fun es => withClients_self hclients
  rw [receiveDataLoop, hrecv]
  simp only [exec_bind, exec_log, exec_modify, if_pos hpos, exec_liftExcept,
    Client.getAndEmptyBuffer_receive hit chunk, withClients_withClients, hback]

/-- One iteration of the loop without bytes. -/
theorem exec_receiveDataLoop_quiet (hclients : w.server.clients = before ++ it :: after)
    (hrecv : ∀ chunk, (polls before.length).recv ≠ .data chunk) :
    exec (receiveDataLoop L polls before (it :: after)) w =
      exec (receiveDataLoop L polls (before ++ [it]) after)
        (w.record [.recv it.sock (polls before.length).recv]) := by
  have hnot : ¬ 0 < (it.receiveTCPData (polls before.length).recv).1 := by
    intro hpos
    obtain ⟨chunk, hchunk⟩ := (it.receiveTCPData_pos_iff _).mp hpos
    exact hrecv chunk hchunk
  have hback : ∀ es, (w.record es).withClients (before ++ it :: after) = w.record es :=
    fun es => withClients_self hclients
  rw [receiveDataLoop]
  simp only [exec_bind, exec_log, exec_modify, if_neg hnot,
    Client.receiveTCPData_eq_self hrecv, hback]

end LoopStep

/-- The loop at an iterator polls the clients from it on. -/
theorem exec_receiveDataLoop (L : Lib) (polls : Nat → PollEnv) :
    ∀ (after before : List Client) (w : World),
      (∀ c ∈ after, c.Clean) → w.server.clients = before ++ after →
      exec (receiveDataLoop L polls before after) w =
        exec (pollClients L polls before.length after) w := by
  intro after
  induction after with
  | nil => intro before w _ _; rfl
  | cons it after ih =>
      intro before w hclean hclients
      have hit : it.Clean := hclean it List.mem_cons_self
      have hrest : ∀ c ∈ after, c.Clean := fun c hc => hclean c (List.mem_cons_of_mem it hc)
      have hnext : ∀ w' : World, w'.server = w.server →
          exec (receiveDataLoop L polls (before ++ [it]) after) w' =
            exec (pollClients L polls (before.length + 1) after) w' := by
        intro w' hserver
        have hsplit : w'.server.clients = (before ++ [it]) ++ after := by
          rw [hserver, hclients, List.append_assoc]
          rfl
        rw [ih (before ++ [it]) w' hrest hsplit, List.length_append]
        rfl
      rw [pollClients, exec_bind_ok (exec_log _ w)]
      cases hrecv : (polls before.length).recv with
      | data chunk =>
          have hserver := (handles_parseReceivedData L (polls before.length).msg it
            (beforeNul chunk.bytes) (w.record [.recv it.sock (.data chunk)])).server
          rw [exec_receiveDataLoop_data hit hclients hrecv, hrecv, exec_bind, exec_bind]
          rcases hparse : exec (parseReceivedData L (polls before.length).msg it
            (beforeNul chunk.bytes)) (w.record [.recv it.sock (.data chunk)]) with ⟨_ | r, t⟩
          · rfl
          · rw [hparse] at hserver
            exact hnext t hserver
      | closed =>
          rw [exec_receiveDataLoop_quiet hclients (by simp [hrecv]), hnext (w.record _) rfl, hrecv]
      | error code =>
          rw [exec_receiveDataLoop_quiet hclients (by simp [hrecv]), hnext (w.record _) rfl, hrecv]

/-- **Buffers are transparent.**  With clean buffers, `receiveData` is the poll
of every client in turn. -/
theorem exec_receiveData (L : Lib) (polls : Nat → PollEnv) {w : World}
    (hclean : ∀ c ∈ w.server.clients, c.Clean) :
    exec (receiveData L polls) w = exec (pollClients L polls 0 w.server.clients) w :=
  exec_receiveDataLoop L polls w.server.clients [] w hclean rfl

end XplaneServer.Networking
