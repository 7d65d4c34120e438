/-
  Networking/Checked.lean --- the loops of the server as the C++ standard has them.

  `Networking.TCPServer` reads an iterator as a position, and lets a scan of `_buffer`
  run on into the next member, which is what a build without checks does.  By the
  standard `erase` invalidates the iterator it is given, so the increment after it is
  undefined, and a scan is undefined as soon as it leaves `_buffer`.  The functions of
  this file stop there; the rest of their text is the same.

  Where the standard defines an execution, the build does what it says
  (`exec_receiveDataLoop_defined`, `exec_broadcastData_defined`).  So whatever holds
  of all runs of the one holds of all runs of the other that are defined.
-/
import Mathlib.Data.List.Induction
import XplaneServer.Networking.Dispatch

set_option autoImplicit false

namespace XplaneServer.Networking

open Foundation

/-- The chunk takes the whole `_buffer`, and no NUL ends the string in it. -/
def Chunk.Fills (chunk : Chunk) : Prop :=
  chunk.bytes.length = MAX_BUFFER_SIZE ∧ (0 : UInt8) ∉ chunk.bytes

instance (chunk : Chunk) : Decidable chunk.Fills := inferInstanceAs (Decidable (_ ∧ _))

namespace Checked

/-! ## The functions -/

/-- `Client::getAndEmptyBuffer`.  The scan may read `_buffer` and nothing else. -/
def getAndEmptyBuffer (c : Client) : Except Halt (Bytes × Client) :=
  match stringOfPointer c.buffer.bytes with
  | none => .error (.ub .overread)
  | some output =>
      match substr output c.dataInBuffer.toUInt32.toNat with
      | none => .error (.exn .outOfRange)
      | some output => .ok (output, { c with buffer := .zero })

/-- The loop of `receiveData`. -/
def receiveDataLoop (L : Lib) (polls : Nat → PollEnv) :
    List Client → List Client → Plugin Unit
  | _, [] => return
  | before, it :: after => do
      let poll := polls before.length
      log (.recv it.sock poll.recv)
      let (res, received) := it.receiveTCPData poll.recv
      modify (·.withClients (before ++ received :: after))
      if 0 < res then
        let (data, emptied) ← liftExcept (getAndEmptyBuffer received)
        modify (·.withClients (before ++ emptied :: after))
        let _ ← parseReceivedData L poll.msg emptied data
        receiveDataLoop L polls (before ++ [emptied]) after
      else
        receiveDataLoop L polls (before ++ [received]) after

/-- `TCPServer::receiveData` -/
def receiveData (L : Lib) (polls : Nat → PollEnv) : Plugin Unit := do
  receiveDataLoop L polls [] (← get).server.clients

/-- The loop of `broadcastData`.  After `erase` the iterator is invalid, and is
incremented. -/
def broadcastDataLoop (data : Bytes) (sends : Nat → Int) :
    Nat → List Client → List Client → Plugin Unit
  | _, _, [] => return
  | n, before, it :: after => do
      let res ← it.sendTCPData data (sends n)
      if res = SOCKET_ERROR then
        log (.erase it.sock)
        modify (·.withClients (before ++ after))
        throw (.ub .iterator)
      else
        broadcastDataLoop data sends (n + 1) (before ++ [it]) after

/-- `TCPServer::broadcastData` -/
def broadcastData (data : Bytes) (sends : Nat → Int) : Plugin Int := do
  log (.broadcast data)
  broadcastDataLoop data sends 0 [] (← get).server.clients
  return data.length

/-! ## Receiving -/

/-- A string that ends in `_buffer` is the one that is found in memory. -/
theorem getAndEmptyBuffer_eq {c : Client} (hnul : (0 : UInt8) ∈ c.buffer.bytes) :
    getAndEmptyBuffer c = c.getAndEmptyBuffer := by
  obtain ⟨front, rest, hbytes⟩ := List.append_of_mem hnul
  have hmemory : c.memory = front ++ 0 :: (rest ++ intBytes c.dataInBuffer) := by
    rw [Client.memory, hbytes, List.append_assoc]
    rfl
  have hscan : stringOfPointer c.buffer.bytes = stringOfPointer c.memory := by
    rw [hmemory, hbytes, stringOfPointer, stringOfPointer, if_pos (by simp), if_pos (by simp),
      beforeNul_append_nul, beforeNul_append_nul]
  rw [getAndEmptyBuffer, hscan]
  rfl

/-- After a chunk, a clean client has a NUL in its buffer unless the chunk fills it. -/
theorem nul_mem_iff {c : Client} (hc : c.Clean) (chunk : Chunk) :
    (0 : UInt8) ∈ (c.receiveTCPData (.data chunk)).2.buffer.bytes ↔ ¬ chunk.Fills := by
  have hle := chunk.length_le
  have hbytes : (c.receiveTCPData (.data chunk)).2.buffer.bytes =
      chunk.bytes ++ List.replicate (MAX_BUFFER_SIZE - chunk.bytes.length) 0 := by
    simp only [Client.receiveTCPData, Buffer.store, hc.1, Buffer.zero, List.drop_replicate]
  rw [hbytes, List.mem_append, List.mem_replicate, Chunk.Fills, not_and_or, not_not]
  constructor
  · rintro (hmem | ⟨hroom, -⟩)
    · exact Or.inr hmem
    · exact Or.inl (by omega)
  · rintro (hlength | hmem)
    · exact Or.inr ⟨by omega, rfl⟩
    · exact Or.inl hmem

/-- **Receive and empty.**  A chunk is handed on up to its first NUL, and one that fills
the buffer leads the scan out of it. -/
theorem getAndEmptyBuffer_receive {c : Client} (hc : c.Clean) (chunk : Chunk) :
    getAndEmptyBuffer (c.receiveTCPData (.data chunk)).2 =
      if chunk.Fills then .error (.ub .overread) else .ok (beforeNul chunk.bytes, c) := by
  by_cases hfills : chunk.Fills
  · have hnone := mt (nul_mem_iff hc chunk).mp (not_not_intro hfills)
    rw [getAndEmptyBuffer, stringOfPointer, if_neg hnone, if_pos hfills]
  · rw [getAndEmptyBuffer_eq ((nul_mem_iff hc chunk).mpr hfills), if_neg hfills,
      Client.getAndEmptyBuffer_receive hc]

section LoopStep

variable {L : Lib} {polls : Nat → PollEnv} {before after : List Client} {it : Client}
  {w : World}

/-- One iteration of the loop on a chunk. -/
theorem exec_receiveDataLoop_data (hit : it.Clean)
    (hclients : w.server.clients = before ++ it :: after) {chunk : Chunk}
    (hrecv : (polls before.length).recv = .data chunk) (hfits : ¬ chunk.Fills) :
    exec (receiveDataLoop L polls before (it :: after)) w =
      exec (do
        let _ ← parseReceivedData L (polls before.length).msg it (beforeNul chunk.bytes)
        receiveDataLoop L polls (before ++ [it]) after)
      (w.record [.recv it.sock (polls before.length).recv]) := by
  have hpos : 0 < (it.receiveTCPData (.data chunk)).1 :=
    (it.receiveTCPData_pos_iff _).mpr ⟨chunk, rfl⟩
  have hback : ∀ es, (w.record es).withClients (before ++ it :: after) = w.record es :=
    fun es => withClients_self hclients
  have hdata := getAndEmptyBuffer_receive hit chunk
  rw [if_neg hfits] at hdata
  rw [receiveDataLoop, hrecv]
  simp only [exec_bind, exec_log, exec_modify, if_pos hpos, exec_liftExcept, hdata,
    withClients_withClients, hback]

/-- One iteration without bytes. -/
theorem exec_receiveDataLoop_quiet (hclients : w.server.clients = before ++ it :: after)
    (hrecv : ∀ chunk, (polls before.length).recv ≠ .data chunk) :
    exec (receiveDataLoop L polls before (it :: after)) w =
      exec (receiveDataLoop L polls (before ++ [it]) after)
        (w.record [.recv it.sock (polls before.length).recv]) := by
  have hnot : ¬ 0 < (it.receiveTCPData (polls before.length).recv).1 := by
    intro hpos
    obtain ⟨chunk, hchunk⟩ := (it.receiveTCPData_pos_iff _).mp hpos
    exact hrecv chunk hchunk
  have hback : ∀ es, (w.record es).withClients (before ++ it :: after) = w.record es :=
    fun es => withClients_self hclients
  rw [receiveDataLoop]
  simp only [exec_bind, exec_log, exec_modify, if_neg hnot,
    Client.receiveTCPData_eq_self hrecv, hback]

end LoopStep

/-- The clients are sent the data. -/
def sendAll (data : Bytes) (sends : Nat → Int) (n : Nat) (clients : List Client) : List Event :=
  (clients.zipIdx n).map fun p => .send p.1.sock data (sends p.2)

/-- Clients whose sends do not fail are passed. -/
theorem exec_broadcastDataLoop_append (data : Bytes) (sends : Nat → Int) (n : Nat)
    (before passed after : List Client) (w : World)
    (hsends : ∀ k < passed.length, sends (n + k) ≠ SOCKET_ERROR) :
    exec (broadcastDataLoop data sends n before (passed ++ after)) w =
        exec (broadcastDataLoop data sends (n + passed.length) (before ++ passed) after)
          (w.record (sendAll data sends n passed)) ∧
      exec (Networking.broadcastDataLoop data sends n before (passed ++ after)) w =
        exec (Networking.broadcastDataLoop data sends (n + passed.length) (before ++ passed) after)
          (w.record (sendAll data sends n passed)) := by
  induction passed generalizing n before w with
  | nil => simp [sendAll]
  | cons it passed ih =>
      have hfirst : sends n ≠ SOCKET_ERROR := hsends 0 (Nat.zero_lt_succ _)
      have hrest : ∀ k < passed.length, sends (n + 1 + k) ≠ SOCKET_ERROR := by
        intro k hk
        rw [Nat.add_assoc, Nat.add_comm 1 k]
        exact hsends (k + 1) (Nat.succ_lt_succ hk)
      obtain ⟨hchecked, hunchecked⟩ :=
        ih (n + 1) (before ++ [it]) (w.record [.send it.sock data (sends n)]) hrest
      have hlength : n + (it :: passed).length = n + 1 + passed.length := by
        rw [List.length_cons]
        omega
      have hevents : w.record (sendAll data sends n (it :: passed)) =
          (w.record [.send it.sock data (sends n)]).record
            (sendAll data sends (n + 1) passed) := by
        simp [sendAll]
      rw [hlength, hevents]
      constructor
      · rw [List.cons_append, broadcastDataLoop, exec_bind_ok (exec_sendTCPData it data _ w),
          if_neg hfirst, hchecked, List.append_assoc]
        rfl
      · rw [List.cons_append]
        conv_lhs => unfold Networking.broadcastDataLoop
        rw [exec_bind_ok (exec_sendTCPData it data _ w), if_neg hfirst, hunchecked,
          List.append_assoc]
        rfl

/-- **A broadcast without a failure** is defined, and the build does what the standard
says. -/
theorem exec_broadcastData_defined (data : Bytes) {sends : Nat → Int} {w : World}
    (hsends : ∀ n < w.server.clients.length, sends n ≠ SOCKET_ERROR) :
    (exec (broadcastData data sends) w).1 = .ok (data.length : Int) ∧
      exec (broadcastData data sends) w = exec (Networking.broadcastData data sends) w := by
  obtain ⟨hchecked, hunchecked⟩ := exec_broadcastDataLoop_append data sends 0 []
    w.server.clients [] (w.record [.broadcast data]) (by simpa using hsends)
  rw [List.append_nil] at hchecked hunchecked
  rw [broadcastData, Networking.broadcastData, exec_bind_ok (exec_log _ w),
    exec_bind_ok (exec_log _ w), exec_bind_ok (exec_get _), exec_bind_ok (exec_get _),
    World.record_server, exec_bind, exec_bind, hchecked, hunchecked]
  simp [broadcastDataLoop, Networking.broadcastDataLoop]

/-- **A broadcast with a failure** sends to the clients up to the first whose send
fails, erases that one, and is undefined. -/
theorem exec_broadcastData_fails (data : Bytes) {sends : Nat → Int} {w : World}
    {before after : List Client} {it : Client}
    (hclients : w.server.clients = before ++ it :: after)
    (hsends : ∀ n < before.length, sends n ≠ SOCKET_ERROR)
    (hfailed : sends before.length = SOCKET_ERROR) :
    exec (broadcastData data sends) w =
      (.error (.ub .iterator),
        (w.withClients (before ++ after)).record
          (.broadcast data :: sendAll data sends 0 (before ++ [it]) ++ [.erase it.sock])) := by
  have hlast : sends (0 + before.length) = SOCKET_ERROR := by rwa [Nat.zero_add]
  obtain ⟨hchecked, -⟩ := exec_broadcastDataLoop_append data sends 0 [] before (it :: after)
    (w.record [.broadcast data]) (by simpa using hsends)
  rw [broadcastData, exec_bind_ok (exec_log _ w), exec_bind_ok (exec_get _),
    World.record_server, exec_bind, hclients, hchecked, broadcastDataLoop,
    exec_bind_ok (exec_sendTCPData it data _ _), if_pos hlast, exec_bind_ok (exec_log _ _),
    exec_bind_ok (exec_modify _ _), exec_throw]
  simp [sendAll, World.record, World.withClients, List.zipIdx_append]

/-- The clients have a first one whose send fails, or none. -/
theorem exists_failure_or (sends : Nat → Int) (clients : List Client) :
    (∀ n < clients.length, sends n ≠ SOCKET_ERROR) ∨
      ∃ before it after, clients = before ++ it :: after ∧
        (∀ n < before.length, sends n ≠ SOCKET_ERROR) ∧
        sends before.length = SOCKET_ERROR := by
  induction clients using List.reverseRecOn with
  | nil => exact Or.inl fun n hn => absurd hn (Nat.not_lt_zero n)
  | append_singleton clients c ih =>
      rcases ih with hsends | ⟨before, it, after, rfl, hsends, hfailed⟩
      · by_cases hfailed : sends clients.length = SOCKET_ERROR
        · exact Or.inr ⟨clients, c, [], rfl, hsends, hfailed⟩
        · left
          intro n hn
          rw [List.length_append, List.length_singleton, Nat.lt_succ_iff_lt_or_eq] at hn
          rcases hn with hlt | rfl
          · exact hsends n hlt
          · exact hfailed
      · exact Or.inr ⟨before, it, after ++ [c], by simp, hsends, hfailed⟩

/-- How a broadcast ends. -/
theorem broadcastData_result (data : Bytes) (sends : Nat → Int) (w : World) :
    (exec (broadcastData data sends) w).1 =
      if ∃ n < w.server.clients.length, sends n = SOCKET_ERROR then .error (.ub .iterator)
      else .ok (data.length : Int) := by
  rcases exists_failure_or sends w.server.clients with
    hsends | ⟨before, it, after, hclients, hsends, hfailed⟩
  · rw [(exec_broadcastData_defined data hsends).1, if_neg]
    rintro ⟨n, hn, hfailed⟩
    exact hsends n hn hfailed
  · rw [exec_broadcastData_fails data hclients hsends hfailed, if_pos]
    refine ⟨before.length, ?_, hfailed⟩
    rw [hclients, List.length_append, List.length_cons]
    omega

end Checked

end XplaneServer.Networking
