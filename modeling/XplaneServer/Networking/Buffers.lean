/-
  Networking/Buffers.lean --- what a receive buffer carries from one message to
  the next.

  A buffer is zeroed when it is emptied, copied whole when `_clients` grows or
  shifts, and left alone by a `recv` without bytes.  So between two calls every
  client of a run is clean, and the string a chunk becomes depends on nothing
  that was received before: two runs agree on it (`handed_of_runs`).  Of a chunk that
  fills the buffer this is said for the layout of `Client.memory`.
-/
import XplaneServer.Networking.Connections
import XplaneServer.Registry

set_option autoImplicit false

namespace XplaneServer.Networking

open Foundation

/-- One iteration of `receiveData` on a client, up to the call of
`parseReceivedData`: the string it is handed, if it is called, and the client
after it. -/
def Client.handed (c : Client) (recv : RecvOutcome) : Except Halt (Option Bytes × Client) :=
  let (res, received) := c.receiveTCPData recv
  if 0 < res then do
    let (data, emptied) ← received.getAndEmptyBuffer
    return (some data, emptied)
  else return (none, received)

/-- From a clean client, a chunk is handed on up to its first NUL. -/
theorem Client.handed_data {c : Client} (hc : c.Clean) (chunk : Chunk) :
    c.handed (.data chunk) = .ok (some (beforeNul chunk.bytes), c) := by
  have hpos : 0 < (c.receiveTCPData (.data chunk)).1 :=
    (c.receiveTCPData_pos_iff _).mpr ⟨chunk, rfl⟩
  unfold Client.handed
  simp only [if_pos hpos, Client.getAndEmptyBuffer_receive hc chunk, except_ok_bind, except_pure]

/-- **The loop hands over what `handed` says**, whatever the buffer holds. -/
theorem exec_receiveDataLoop_handed (L : Lib) (polls : Nat → PollEnv) (before after : List Client)
    (it : Client) (w : World) :
    exec (receiveDataLoop L polls before (it :: after)) w =
      match it.handed (polls before.length).recv with
      | .error halt =>
          (.error halt, (w.record [.recv it.sock (polls before.length).recv]).withClients
            (before ++ (it.receiveTCPData (polls before.length).recv).2 :: after))
      | .ok (none, next) =>
          exec (receiveDataLoop L polls (before ++ [next]) after)
            ((w.record [.recv it.sock (polls before.length).recv]).withClients
              (before ++ next :: after))
      | .ok (some data, next) =>
          exec (do
            let _ ← parseReceivedData L (polls before.length).msg next data
            receiveDataLoop L polls (before ++ [next]) after)
          ((w.record [.recv it.sock (polls before.length).recv]).withClients
            (before ++ next :: after)) := by
  rw [receiveDataLoop, exec_bind_ok (exec_log _ w), exec_bind_ok (exec_modify _ _)]
  unfold Client.handed
  by_cases hpos : 0 < (it.receiveTCPData (polls before.length).recv).1
  · simp only [if_pos hpos]
    rw [exec_bind, exec_liftExcept]
    cases (it.receiveTCPData (polls before.length).recv).2.getAndEmptyBuffer with
    | error halt => rfl
    | ok result =>
        simp only [except_ok_bind, except_pure]
        exact exec_bind_ok (exec_modify _ _)
  · simp only [if_neg hpos]
    simp only [except_pure]

/-- Every client is clean. -/
def CleanClients (w : World) : Prop := ∀ c ∈ w.server.clients, c.Clean

/-- Every call keeps the clients clean, however it ends. -/
theorem CleanClients.call {w : World} (hclean : CleanClients w) (L : Lib) (c : Call) :
    CleanClients (exec (c.run L) w).2 := by
  have heffect := c.effect L hclean
  generalize (exec (c.run L) w).2 = w' at heffect ⊢
  unfold CleanClients at hclean ⊢
  cases heffect with
  | unchanged hclients _ _ =>
      rw [hclients]
      exact hclean
  | lost _ _ => exact hclean
  | @accepted env s _ _ => exact clean_push hclean s
  | broadcast hkept hclients _ _ =>
      rw [hclients]
      exact fun client hmem => hclean client (hkept.sublist.subset hmem)

/-- A call in which no iterator left the vector.  It may have thrown. -/
def Call.Faultless (L : Lib) (w : World) (c : Call) (w' : World) : Prop :=
  (exec (c.run L) w).2 = w' ∧ (exec (c.run L) w).1 ≠ .error (.ub .iterator)

/-- Every state of a run has clean clients. -/
theorem cleanClients_of_run {L : Lib} {w₀ w : World} {calls : List Call}
    (hstart : w₀.server.clients = []) (hrun : Run (Call.Faultless L) w₀ calls w) :
    CleanClients w := by
  have hfirst : CleanClients w₀ := by simp [CleanClients, hstart]
  refine hrun.invariant (fun w c w' hclean hstep => ?_) hfirst
  rw [← hstep.1]
  exact hclean.call L c

/-- **No byte of an earlier message or of another client reaches a later one.**
In the states of any two runs every client is clean.  A chunk received by a
client of each becomes the same string, the chunk up to its first NUL, and
`receiveData` is the poll of the clients in turn that hands over these strings. -/
theorem handed_of_runs {L L' : Lib} {w₀ w w₀' w' : World} {calls calls' : List Call}
    (hstart : w₀.server.clients = []) (hrun : Run (Call.Faultless L) w₀ calls w)
    (hstart' : w₀'.server.clients = []) (hrun' : Run (Call.Faultless L') w₀' calls' w') :
    (∀ c ∈ w.server.clients, c.buffer = .zero ∧ c.dataInBuffer = 0) ∧
      (∀ c ∈ w.server.clients, ∀ c' ∈ w'.server.clients, ∀ chunk : Chunk,
        chunk.bytes.length < MAX_BUFFER_SIZE →
          c.handed (.data chunk) = .ok (some (beforeNul chunk.bytes), c) ∧
          c'.handed (.data chunk) = .ok (some (beforeNul chunk.bytes), c')) ∧
      ∀ polls, exec (receiveData L polls) w = exec (pollClients L polls 0 w.server.clients) w := by
  have hclean := cleanClients_of_run hstart hrun
  have hclean' := cleanClients_of_run hstart' hrun'
  refine ⟨hclean, fun c hc c' hc' chunk _ => ?_, fun polls => exec_receiveData L polls hclean⟩
  exact ⟨Client.handed_data (hclean c hc) chunk, Client.handed_data (hclean' c' hc') chunk⟩

/-- Every client receives the registration of `a`. -/
def receiveA : Call := .receiveData fun _ => ⟨.data chunkA, ⟨twoDatarefs, 6⟩⟩

/-- The registration received after an earlier one, and by a client that has
received nothing. -/
theorem handed_of_runs_sample :
    ∃ c ∈ (serverAfter [acceptCall 7, receiveA]).server.clients,
      ∃ c' ∈ (serverAfter [acceptCall 8]).server.clients,
        c.handed (.data chunkA) = .ok (some (beforeNul chunkA.bytes), c) ∧
          c'.handed (.data chunkA) = .ok (some (beforeNul chunkA.bytes), c') := by
  have haccept : ∀ s, Call.Faultless quietLib .started (acceptCall s)
      (serverAfter [acceptCall s]) := fun s => ⟨rfl, fun h => nomatch h⟩
  have hreceive : Call.Faultless quietLib (serverAfter [acceptCall 7]) receiveA
      (serverAfter [acceptCall 7, receiveA]) := by
    have hok : (exec (receiveA.run quietLib) (serverAfter [acceptCall 7])).1 = .ok () := rfl
    exact ⟨rfl, by simp [hok]⟩
  have hstart := (idle_of_started started_started).clients
  obtain ⟨-, hsame, -⟩ := handed_of_runs hstart
    (Run.snoc (Run.snoc (Run.nil _) (haccept 7)) hreceive) hstart
    (Run.snoc (Run.nil _) (haccept 8))
  have hmem : Client.ofSocket 7 ∈ (serverAfter [acceptCall 7, receiveA]).server.clients :=
    List.mem_singleton_self _
  have hmem' : Client.ofSocket 8 ∈ (serverAfter [acceptCall 8]).server.clients :=
    List.mem_singleton_self _
  exact ⟨_, hmem, _, hmem', hsame _ hmem _ hmem' chunkA (by decide)⟩

end XplaneServer.Networking
