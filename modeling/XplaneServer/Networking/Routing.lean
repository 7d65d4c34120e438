/-
  Networking/Routing.lean --- one call of `receiveData`, as a specification for
  each client.

  The callback table keeps the first callback bound to a key, so what a message
  runs is a function of the bindings (`callbackOf`).  Each polled client adds a
  block of its own to the trace (`Served`), and when every message can be read
  the blocks follow one another in the order of the clients
  (`receiveData_routed`).
-/
import Mathlib.Data.List.Forall2
import XplaneServer.Networking.Segmentation

set_option autoImplicit false

namespace XplaneServer.Networking

open Foundation Json
open Datas

/-! ## Bindings -/

/-- A sequence of `bindCallback` calls. -/
def bindAll : List (Bytes × ServerCallbacks) → Plugin Unit
  | [] => return
  | (input, callback) :: rest => do
      bindCallback input callback
      bindAll rest

/-- The callback a message runs: the one that was bound first to its
operation. -/
def callbackOf (J : JsonCpp) (bindings : List (Bytes × ServerCallbacks)) (data : Bytes) :
    Option ServerCallbacks :=
  match operationOf J data with
  | .ok key => firstBinding key bindings
  | .error _ => none

theorem exec_bindAll (bindings : List (Bytes × ServerCallbacks)) (w : World) :
    exec (bindAll bindings) w =
      (.ok (), { w with
        server := { w.server with callbacks := firstWins w.server.callbacks bindings } }) := by
  induction bindings generalizing w with
  | nil => rfl
  | cons binding bindings ih =>
      unfold bindAll bindCallback
      rw [exec_bind_ok (exec_modify _ w), ih]
      rfl

/-! ## What polling one client does -/

/-- The events of polling one client: a `recv`, and for a message with a bound
operation one call of its callback, with the replies between its two ends. -/
inductive Served (callbackOf : Bytes → Option ServerCallbacks) (c : Client) (poll : PollEnv) :
    List Event → Prop
  /-- No bytes. -/
  | quiet : (∀ chunk, poll.recv ≠ .data chunk) → Served callbackOf c poll [.recv c.sock poll.recv]
  /-- A message whose operation is not bound. -/
  | unbound {chunk : Chunk} : poll.recv = .data chunk → callbackOf chunk.bytes = none →
      Served callbackOf c poll [.recv c.sock poll.recv]
  /-- A message whose operation is bound. -/
  | bound {chunk : Chunk} {callback : ServerCallbacks} (replies : List Bytes) (result : Int) :
      poll.recv = .data chunk → callbackOf chunk.bytes = some callback →
      (callback = .registerDatarefCallback → replies = [lit "SUCESS"]) →
      Served callbackOf c poll
        (.recv c.sock poll.recv :: .invoke callback chunk.bytes c.sock poll.msg ::
          (replies.map (Event.send c.sock · poll.msg.reply) ++
            [.returned callback chunk.bytes c.sock poll.msg result]))

/-- The sockets that were polled, in order. -/
def polledSockets (trace : List Event) : List SOCKET :=
  trace.filterMap fun
    | .recv s _ => some s
    | _ => none

/-- The call of a callback that the poll of a client makes. -/
def invocationOf (callbackOf : Bytes → Option ServerCallbacks) (c : Client) (poll : PollEnv) :
    Option (ServerCallbacks × Bytes × SOCKET) :=
  match poll.recv with
  | .data chunk => (callbackOf chunk.bytes).map fun callback => (callback, chunk.bytes, c.sock)
  | _ => none

namespace Served

variable {callbackOf : Bytes → Option ServerCallbacks} {c : Client} {poll : PollEnv}
  {block : List Event}

/-- A client is polled once. -/
theorem polledSockets_eq (h : Served callbackOf c poll block) :
    polledSockets block = [c.sock] := by
  cases h with
  | quiet _ => rfl
  | unbound _ _ => rfl
  | bound replies result _ _ _ =>
      unfold polledSockets
      simp

/-- Its message runs the callback it should. -/
theorem invocations_eq (h : Served callbackOf c poll block) :
    invocations block = (invocationOf callbackOf c poll).toList := by
  cases h with
  | quiet hquiet =>
      unfold invocationOf
      split
      · rename_i chunk hrecv
        exact absurd hrecv (hquiet chunk)
      · rfl
  | unbound hrecv hnone =>
      simp only [invocationOf, hrecv, hnone]
      rfl
  | bound replies result hrecv hbound _ =>
      simp only [invocationOf, hrecv, hbound]
      unfold invocations
      simp

end Served

/-! ## Messages that can be read -/

/-- A message that fills no buffer, has no NUL and parses as an object with an
operation.  When its operation is one of `registers`, the members that a
registration reads convert as well. -/
structure Readable (J : JsonCpp) (registers : Bytes → Prop) (chunk : Chunk) : Prop where
  fits : chunk.bytes.length < MAX_BUFFER_SIZE
  noNul : (0 : UInt8) ∉ chunk.bytes
  parses : ∃ members key, J.parse chunk.bytes = .ok (true, .object members) ∧
    (Value.object members).text J (lit "Ops") = .ok key ∧
    (registers key → ∀ member ∈ [lit "Type", lit "Link", lit "Name"],
      ∃ text, (Value.object members).text J member = .ok text)

/-- The operations that are bound to `RegisterDataref_Callback`. -/
def Registers (bindings : List (Bytes × ServerCallbacks)) (key : Bytes) : Prop :=
  firstBinding key bindings = some .registerDatarefCallback

/-- The callbacks from outside the repository return. -/
def Lib.OthersReturn (L : Lib) : Prop :=
  ∀ id env dataIn emiter datarefMap,
    ∃ result, (L.other id env dataIn emiter datarefMap).result = .ok result

/-- A callback that returns, on a message that can be read. -/
theorem exec_runCallback_ok {L : Lib} (hothers : L.OthersReturn) (env : MsgEnv) (c : Client)
    (data : Bytes) {callback : ServerCallbacks} (w : World)
    (hregister : callback = .registerDatarefCallback →
      ∃ r, decodeRequest L.json data = .ok (some r)) :
    ∃ (replies : List Bytes) (result : Int),
      (exec (runCallback L env c data callback) w).1 = .ok result ∧
      (exec (runCallback L env c data callback) w).2.trace =
        w.trace ++ .invoke callback data c.sock env ::
          (replies.map (Event.send c.sock · env.reply) ++
            [.returned callback data c.sock env result]) ∧
      (callback = .registerDatarefCallback → replies = [lit "SUCESS"]) := by
  cases callback with
  | registerDatarefCallback =>
      obtain ⟨r, hdecode⟩ := hregister rfl
      rw [exec_runCallback_register, hdecode]
      exact ⟨[lit "SUCESS"], 0, rfl, rfl, fun _ => rfl⟩
  | other id =>
      obtain ⟨result, hresult⟩ := hothers id env data c w.datarefMap
      refine ⟨(L.other id env data c w.datarefMap).replies, result, ?_⟩
      unfold runCallback invoke
      simp only [exec_bind, exec_log, exec_get, exec_modify, World.record_datarefMap, hresult,
        exec_liftExn_ok, exec_pure]
      exact ⟨trivial, by simp, nofun⟩

/-- A message that can be read is handled without an exception. -/
theorem exec_parseReceivedData_readable {L : Lib} (hothers : L.OthersReturn)
    {bindings : List (Bytes × ServerCallbacks)} {w : World}
    (htable : ∀ key : Bytes, w.server.callbacks[key]? = firstBinding key bindings)
    (c : Client) {poll : PollEnv} {chunk : Chunk} (hrecv : poll.recv = .data chunk)
    (hread : Readable L.json (Registers bindings) chunk) :
    ∃ (result : Int) (es : List Event),
      (exec (parseReceivedData L poll.msg c chunk.bytes) w).1 = .ok result ∧
      (exec (parseReceivedData L poll.msg c chunk.bytes) w).2.trace = w.trace ++ es ∧
      Served (callbackOf L.json bindings) c poll (.recv c.sock poll.recv :: es) := by
  obtain ⟨members, key, hparse, hkey, hmembers⟩ := hread.parses
  have hop : operationOf L.json chunk.bytes = .ok key := by
    rw [operationOf_eq L.json hparse, hkey]
  have hcallback : callbackOf L.json bindings chunk.bytes = firstBinding key bindings := by
    simp only [callbackOf, hop]
  rw [exec_parseReceivedData, hop]
  simp only [htable]
  cases hbinding : firstBinding key bindings with
  | none => exact ⟨-1, [], rfl, by simp, .unbound hrecv (hcallback.trans hbinding)⟩
  | some callback =>
      have hregister : callback = .registerDatarefCallback →
          ∃ r, decodeRequest L.json chunk.bytes = .ok (some r) := by
        rintro rfl
        obtain ⟨type, htype⟩ := hmembers hbinding (lit "Type") (by simp)
        obtain ⟨link, hlink⟩ := hmembers hbinding (lit "Link") (by simp)
        obtain ⟨name, hname⟩ := hmembers hbinding (lit "Name") (by simp)
        exact ⟨⟨name, link, typeOfText type⟩, by
          simp [decodeRequest, hparse, htype, hlink, hname]⟩
      obtain ⟨replies, result, hresult, htrace, hreplies⟩ :=
        exec_runCallback_ok hothers poll.msg c chunk.bytes w hregister
      exact ⟨result, _, hresult, htrace,
        .bound replies result hrecv (hcallback.trans hbinding) hreplies⟩

/-- The poll of clients whose messages can be read: one block for each, in
order. -/
theorem exec_pollClients_served {L : Lib} (hothers : L.OthersReturn)
    {bindings : List (Bytes × ServerCallbacks)} (polls : Nat → PollEnv) :
    ∀ (clients : List Client) (n : Nat) (w : World),
      (∀ key : Bytes, w.server.callbacks[key]? = firstBinding key bindings) →
      (∀ i, n ≤ i → i < n + clients.length → ∀ chunk, (polls i).recv = .data chunk →
        Readable L.json (Registers bindings) chunk) →
      ∃ blocks : List (List Event), (exec (pollClients L polls n clients) w).1 = .ok () ∧
        (exec (pollClients L polls n clients) w).2.trace = w.trace ++ blocks.flatten ∧
        List.Forall₂ (fun p => Served (callbackOf L.json bindings) p.1 (polls p.2))
          (clients.zipIdx n) blocks := by
  intro clients
  induction clients with
  | nil => exact fun n w _ _ => ⟨[], rfl, by simp [pollClients], List.Forall₂.nil⟩
  | cons c rest ih =>
      intro n w htable hread
      have hrest : ∀ i, n + 1 ≤ i → i < n + 1 + rest.length → ∀ chunk,
          (polls i).recv = .data chunk → Readable L.json (Registers bindings) chunk := by
        intro i hlow hhigh
        refine hread i (by omega) ?_
        rw [List.length_cons]
        omega
      -- the rest of the loop, from a state this client's poll leaves
      have hnext : ∀ (w' : World) (es : List Event), w'.server = w.server →
          w'.trace = (w.record [.recv c.sock (polls n).recv]).trace ++ es →
          Served (callbackOf L.json bindings) c (polls n)
            (.recv c.sock (polls n).recv :: es) →
          ∃ blocks : List (List Event), (exec (pollClients L polls (n + 1) rest) w').1 = .ok () ∧
            (exec (pollClients L polls (n + 1) rest) w').2.trace = w.trace ++ blocks.flatten ∧
            List.Forall₂ (fun p => Served (callbackOf L.json bindings) p.1 (polls p.2))
              ((c :: rest).zipIdx n) blocks := by
        intro w' es hserver htrace hserved
        obtain ⟨blocks, hok, hblocks, hforall⟩ :=
          ih (n + 1) w' (by rw [hserver]; exact htable) hrest
        refine ⟨(.recv c.sock (polls n).recv :: es) :: blocks, hok, ?_, ?_⟩
        · rw [hblocks, htrace]
          simp
        · exact List.Forall₂.cons hserved hforall
      rw [pollClients, exec_bind_ok (exec_log _ w)]
      cases hrecv : (polls n).recv with
      | data chunk =>
          have hlength : n < n + (c :: rest).length := by simp
          have hchunk := hread n (Nat.le_refl n) hlength chunk hrecv
          have hrecorded : ∀ key : Bytes,
              (w.record [.recv c.sock (.data chunk)]).server.callbacks[key]? =
                firstBinding key bindings := htable
          obtain ⟨result, es, hresult, htrace, hserved⟩ :=
            exec_parseReceivedData_readable hothers hrecorded c hrecv hchunk
          have hserver := (handles_parseReceivedData L (polls n).msg c chunk.bytes
            (w.record [.recv c.sock (.data chunk)])).server
          simp only [beforeNul_eq_self hchunk.noNul]
          rw [exec_bind]
          rcases hparse : exec (parseReceivedData L (polls n).msg c chunk.bytes)
            (w.record [.recv c.sock (.data chunk)]) with ⟨_ | r, w'⟩ <;>
            rw [hparse] at hresult htrace hserver
          · cases hresult
          · exact hnext w' es hserver (by rw [hrecv]; exact htrace) hserved
      | closed =>
          exact hnext _ [] rfl (by simp [hrecv]) (.quiet (by simp [hrecv]))
      | error code =>
          exact hnext _ [] rfl (by simp [hrecv]) (.quiet (by simp [hrecv]))

/-! ## One call of `receiveData` -/

/-- **Each request is routed once, to the right callback, and answered to its
sender**: what one call of `receiveData` should do with these bindings. -/
structure Routed (L : Lib) (bindings : List (Bytes × ServerCallbacks)) (polls : Nat → PollEnv)
    (w : World) : Prop where
  returns : (exec (receiveData L polls) w).1 = .ok ()
  server : (exec (receiveData L polls) w).2.server = w.server
  blocks : ∃ blocks : List (List Event),
    (exec (receiveData L polls) w).2.trace = w.trace ++ blocks.flatten ∧
    List.Forall₂ (fun p => Served (callbackOf L.json bindings) p.1 (polls p.2))
      w.server.clients.zipIdx blocks ∧
    polledSockets blocks.flatten = w.server.clients.map Client.sock ∧
    invocations blocks.flatten = w.server.clients.zipIdx.filterMap fun p =>
      invocationOf (callbackOf L.json bindings) p.1 (polls p.2)

theorem polledSockets_append (es es' : List Event) :
    polledSockets (es ++ es') = polledSockets es ++ polledSockets es' :=
  List.filterMap_append

section Blocks

variable {callbackOf : Bytes → Option ServerCallbacks} {polls : Nat → PollEnv}
  {clients : List Client} {n : Nat} {blocks : List (List Event)}

/-- The clients are polled once each, in order. -/
theorem polledSockets_flatten
    (h : List.Forall₂ (fun p => Served callbackOf p.1 (polls p.2)) (clients.zipIdx n) blocks) :
    polledSockets blocks.flatten = clients.map Client.sock := by
  induction clients generalizing n blocks with
  | nil =>
      cases h
      rfl
  | cons c clients ih =>
      cases h with
      | cons hserved hrest =>
          rw [List.flatten_cons, polledSockets_append, hserved.polledSockets_eq, ih hrest]
          rfl

/-- The callbacks run in the order of the clients. -/
theorem invocations_flatten
    (h : List.Forall₂ (fun p => Served callbackOf p.1 (polls p.2)) (clients.zipIdx n) blocks) :
    invocations blocks.flatten = (clients.zipIdx n).filterMap fun p =>
      invocationOf callbackOf p.1 (polls p.2) := by
  induction clients generalizing n blocks with
  | nil =>
      cases h
      rfl
  | cons c clients ih =>
      cases h with
      | cons hserved hrest =>
          rw [List.flatten_cons, invocations_append, hserved.invocations_eq, ih hrest,
            List.zipIdx_cons, List.filterMap_cons]
          cases invocationOf callbackOf c (polls n) <;> simp

end Blocks

/-- A server with this table routes messages that can be read. -/
theorem routed_of_table {L : Lib} (hothers : L.OthersReturn)
    {bindings : List (Bytes × ServerCallbacks)} (polls : Nat → PollEnv) {w : World}
    (htable : ∀ key : Bytes, w.server.callbacks[key]? = firstBinding key bindings)
    (hclean : ∀ c ∈ w.server.clients, c.Clean)
    (hread : ∀ i < w.server.clients.length, ∀ chunk, (polls i).recv = .data chunk →
      Readable L.json (Registers bindings) chunk) : Routed L bindings polls w := by
  obtain ⟨blocks, hok, htrace, hblocks⟩ := exec_pollClients_served hothers polls
    w.server.clients 0 w htable fun i _ hi => hread i (by omega)
  rw [← exec_receiveData L polls hclean] at hok htrace
  exact ⟨hok, (handles_receiveData L polls hclean).server, blocks, htrace, hblocks,
    polledSockets_flatten hblocks, invocations_flatten hblocks⟩

/-- **Routing.**  After any sequence of bindings, with clean buffers and messages
that can be read, where an operation bound to `RegisterDataref_Callback` comes
with the members that it reads. -/
theorem receiveData_routed {L : Lib} (hothers : L.OthersReturn)
    (bindings : List (Bytes × ServerCallbacks)) (polls : Nat → PollEnv) {w : World}
    (hempty : w.server.callbacks = ∅) (hclean : ∀ c ∈ w.server.clients, c.Clean)
    (hread : ∀ i < w.server.clients.length, ∀ chunk, (polls i).recv = .data chunk →
      Readable L.json (Registers bindings) chunk) :
    Routed L bindings polls (exec (bindAll bindings) w).2 := by
  rw [exec_bindAll, hempty]
  refine routed_of_table hothers polls (fun key => ?_) hclean hread
  simp [getElem?_firstWins]

/-- A server with two clients and without a callback. -/
def twoClients : World := World.initial.withClients [.ofSocket 7, .ofSocket 8]

/-- Every client receives the same message. -/
def everyClient (chunk : Chunk) : Nat → PollEnv := fun _ => ⟨.data chunk, ⟨twoDatarefs, 6⟩⟩

theorem twoClients_clean : ∀ c ∈ twoClients.server.clients, c.Clean := by
  intro c hc
  have hpair : c = .ofSocket 7 ∨ c = .ofSocket 8 := by
    simpa [twoClients] using hc
  rcases hpair with rfl | rfl
  · exact Client.clean_ofSocket 7
  · exact Client.clean_ofSocket 8

theorem othersReturn_ofJson (J : JsonCpp) : (Lib.ofJson J).OthersReturn :=
  fun _ _ _ _ _ => ⟨0, rfl⟩

/-- Two registrations, with the second binding of their operation in vain. -/
theorem receiveData_routed_registrations :
    Routed (.ofJson registrationJson)
      [(lit "REGISTER_DATAREF", .registerDatarefCallback), (lit "REGISTER_DATAREF", .other 0)]
      (everyClient chunkA)
      (exec (bindAll [(lit "REGISTER_DATAREF", .registerDatarefCallback),
        (lit "REGISTER_DATAREF", .other 0)]) twoClients).2 := by
  apply receiveData_routed (othersReturn_ofJson registrationJson) _ _ rfl twoClients_clean
  intro i _ chunk hrecv
  cases hrecv
  refine ⟨by decide, by decide, _, lit "REGISTER_DATAREF", rfl, rfl, fun _ member hmember => ?_⟩
  have htext : member = lit "Type" ∨ member = lit "Link" ∨ member = lit "Name" := by
    simpa using hmember
  rcases htext with rfl | rfl | rfl
  · exact ⟨[], rfl⟩
  · exact ⟨lit "one", rfl⟩
  · exact ⟨lit "a", rfl⟩

/-- A message for an operation `R` whose type is not a string. -/
def typelessRequest : Chunk :=
  ⟨lit "\x7b\"Ops\":\"R\",\"Type\":[]\x7d", by decide, by decide⟩

/-- jsoncpp on that message. -/
def typelessJson : JsonCpp :=
  .ofTable [(typelessRequest.bytes, true,
    .object [(lit "Ops", .string (lit "R")), (lit "Type", .array [])])]

/-- Asking for the members of a registration only where the operation is called
`REGISTER_DATAREF` is not enough: the registration can be bound to `R`, and then
throws. -/
theorem not_routed_typeless :
    ¬ ∀ (L : Lib) (bindings : List (Bytes × ServerCallbacks)) (polls : Nat → PollEnv) (w : World),
        L.OthersReturn → w.server.callbacks = ∅ → (∀ c ∈ w.server.clients, c.Clean) →
        (∀ i < w.server.clients.length, ∀ chunk, (polls i).recv = .data chunk →
          Readable L.json (· = lit "REGISTER_DATAREF") chunk) →
        Routed L bindings polls (exec (bindAll bindings) w).2 := by
  intro hrouted
  have hread : ∀ i < twoClients.server.clients.length, ∀ chunk,
      (everyClient typelessRequest i).recv = .data chunk →
        Readable typelessJson (· = lit "REGISTER_DATAREF") chunk := by
    intro i _ chunk hrecv
    cases hrecv
    exact ⟨by decide, by decide, _, lit "R", rfl, rfl, fun h => absurd h (by decide)⟩
  have hreturns := (hrouted (.ofJson typelessJson) [(lit "R", .registerDatarefCallback)]
    (everyClient typelessRequest) twoClients (othersReturn_ofJson typelessJson) rfl
    twoClients_clean hread).returns
  have hthrow : (exec (receiveData (.ofJson typelessJson) (everyClient typelessRequest))
      (exec (bindAll [(lit "R", .registerDatarefCallback)]) twoClients).2).1 =
        .error (.exn .logicError) := rfl
  rw [hthrow] at hreturns
  cases hreturns

end XplaneServer.Networking
