/-
  Service.lean --- what the plugin does, without the parts it is made of.

  To its clients the plugin is a service: a list of sockets, and a registry in
  which the first registration of a name counts.  One of its ticks takes a new
  client, adds the registrations that arrived, and sends everyone the text of the
  registry.  `Service.tick` states this without buffers, iterators, callback tables
  and parses.  A tick of the plugin is a tick of the service, with the way it ends and
  all it sends (`tick_refines`), and so is every run (`service_of_run`).

  As in `Networking.TCPServer`, an iterator is a position, and a scan of `_buffer` runs
  on into `_dataInBuffer`; which ticks the standard defines is said in `Undefined`.
-/
import XplaneServer.Protocol

set_option autoImplicit false

namespace XplaneServer

open Foundation Json Datas Networking

/-- The message a poll of a client brings. -/
def Networking.PollEnv.message (poll : PollEnv) (s : SOCKET) : Option Message :=
  match poll.recv with
  | .data chunk => some ⟨poll.msg, .ofSocket s, beforeNul chunk.bytes⟩
  | _ => none

/-- What the handling of a message throws. -/
def Message.thrown (J : JsonCpp) (m : Message) : Option Exn :=
  match operationOf J m.data with
  | .error e => some e
  | .ok key =>
      if key = lit "REGISTER_DATAREF" then
        match decodeRequest J m.data with
        | .error e => some e
        | .ok _ => none
      else none

/-- What it sends to the client it came from. -/
def Message.reply (J : JsonCpp) (m : Message) : Option (SOCKET × Bytes × Int) :=
  match operationOf J m.data with
  | .error _ => none
  | .ok key =>
      if key = lit "REGISTER_DATAREF" then
        match decodeRequest J m.data with
        | .error _ => none
        | .ok none => some (m.client.sock, lit "INVALID JSON", m.env.reply)
        | .ok (some _) => some (m.client.sock, lit "SUCESS", m.env.reply)
      else none

/-! ## The service -/

/-- The clients, and what is registered. -/
structure Service where
  clients : List SOCKET
  registry : DatarefMap

namespace Service

/-- Nobody is connected, and nothing registered. -/
def empty : Service := ⟨[], ∅⟩

/-- A connection that does not block becomes a client. -/
def accept (env : AcceptEnv) (a : Service) : Service :=
  match env.accept with
  | some s => if env.ioctlsocket = SOCKET_ERROR then a else { a with clients := a.clients ++ [s] }
  | none => a

/-- A connection is greeted in any case. -/
def greeting (env : AcceptEnv) : List (SOCKET × Bytes × Int) :=
  env.accept.toList.map fun s => (s, lit "Hello on the server\n", env.greeting)

/-- The messages that arrived, in the order of the clients. -/
def received (polls : Nat → PollEnv) (a : Service) : List Message :=
  a.clients.zipIdx.filterMap fun p => (polls p.2).message p.1

/-- Those before the first that throws. -/
def handled (J : JsonCpp) (polls : Nat → PollEnv) (a : Service) : List Message :=
  (a.received polls).takeWhile fun m => (m.thrown J).isNone

/-- They register names. -/
def register (J : JsonCpp) (polls : Nat → PollEnv) (a : Service) : Service :=
  { a with
    registry := firstWins a.registry ((a.handled J polls).filterMap (Message.accepted J)) }

/-- The sends to the socket fail. -/
def failing (answer : SOCKET → Int) (s : SOCKET) : Bool := answer s == SOCKET_ERROR

/-- Whom a broadcast is sent to. -/
def reached (answer : SOCKET → Int) (a : Service) : List SOCKET :=
  selectBy (fun before _ => trailing (failing answer) before % 2 == 0) a.clients

/-- Whom it leaves. -/
def remaining (answer : SOCKET → Int) (a : Service) : List SOCKET :=
  selectBy (fun before s => !(trailing (failing answer) before % 2 == 0 && failing answer s))
    a.clients

/-- The sends of a broadcast. -/
def broadcast (S : Sim) (answer : SOCKET → Int) (a : Service) : List (SOCKET × Bytes × Int) :=
  (a.reached answer).map fun s => (s, snapshotText S a.registry, answer s)

/-- How a tick ended, and everything it sent: to whom, what, and the result. -/
structure Outcome where
  result : Except Halt Rat
  sent : List (SOCKET × Bytes × Int)

/-- One tick. -/
def tick (J : JsonCpp) (t : TickEnv) (answer : SOCKET → Int) (a : Service) : Outcome × Service :=
  let joined := a.accept t.accept
  let served := joined.register J t.polls
  let sent := greeting t.accept ++ (joined.handled J t.polls).filterMap (Message.reply J)
  match (joined.received t.polls).findSome? (Message.thrown J) with
  | some e => (⟨.error (.exn e), sent⟩, served)
  | none =>
      (⟨if trailing (failing answer) served.clients % 2 = 0 then .ok (1 / 2)
          else .error (.ub .iterator),
        sent ++ served.broadcast t.sim answer⟩,
        { served with clients := served.remaining answer })

/-- The sends of a tick have the results of their sockets. -/
def Answers (answer : SOCKET → Int) (t : TickEnv) (a : Service) : Prop :=
  ∀ p ∈ ((a.accept t.accept).reached answer).zipIdx, t.sends p.2 = answer p.1

/-- A tick after which the service goes on. -/
def Step (J : JsonCpp) (a : Service) (t : TickEnv) (a' : Service) : Prop :=
  ∃ answer, a.Answers answer t ∧ (a.tick J t answer).2 = a' ∧
    ∀ u, (a.tick J t answer).1.result ≠ .error (.ub u)

/-- The service that a state of the plugin provides. -/
def of (w : World) : Service := ⟨sockets w, w.datarefMap⟩

end Service

/-! ## One message, and all of them -/

/-- What one message does at the started server: how its handling ends, what it
registers, and what it sends. -/
theorem parseReceivedData_message {L : Lib} {m : Message} {cli : Client} {w : World}
    (hw : w.server.callbacks = startCallbacks) (hcli : cli.sock = m.client.sock) :
    (∃ result, (exec (parseReceivedData L m.env cli m.data) w).1 =
        match m.thrown L.json with
        | some e => .error (.exn e)
        | none => .ok result) ∧
      (exec (parseReceivedData L m.env cli m.data) w).2.datarefMap =
        firstWins w.datarefMap (m.accepted L.json).toList ∧
      transmissions (exec (parseReceivedData L m.env cli m.data) w).2.trace =
        transmissions w.trace ++ (m.reply L.json).toList := by
  refine ⟨?_, parseReceivedData_datarefMap (m := ⟨m.env, cli, m.data⟩) hw, ?_⟩ <;>
    rw [exec_parseReceivedData_start hw]
  · rw [Message.thrown]
    cases operationOf L.json m.data with
    | error e => exact ⟨0, rfl⟩
    | ok key =>
        by_cases hkey : key = lit "REGISTER_DATAREF"
        · simp only [if_pos hkey, exec_runCallback_register]
          rcases decodeRequest L.json m.data with e | _ | r
          · exact ⟨0, rfl⟩
          · exact ⟨-2, rfl⟩
          · exact ⟨0, rfl⟩
        · simp only [if_neg hkey]
          exact ⟨-1, rfl⟩
  · rw [Message.reply]
    cases operationOf L.json m.data with
    | error e => simp
    | ok key =>
        by_cases hkey : key = lit "REGISTER_DATAREF"
        · simp only [if_pos hkey, exec_runCallback_register]
          rcases decodeRequest L.json m.data with e | _ | r <;>
            simp [transmissions, addBinding, hcli]
        · simp [if_neg hkey]

/-- A message that throws registers nothing and sends nothing. -/
theorem Message.accepted_of_thrown {J : JsonCpp} {m : Message} {e : Exn}
    (h : m.thrown J = some e) : m.accepted J = none ∧ m.reply J = none := by
  unfold Message.thrown at h
  unfold Message.accepted Message.reply
  cases hkey : operationOf J m.data with
  | error e => exact ⟨rfl, rfl⟩
  | ok key =>
      simp only [hkey] at h ⊢
      split at h
      · rename_i hregister
        cases hdecode : decodeRequest J m.data with
        | error e => simp [Message.binding, requestOf_eq_none_of_error hdecode]
        | ok r => simp [hdecode] at h
      · cases h

/-- What the polls of some clients do: the messages that arrive are handled up to the
first that throws. -/
structure Handled (J : JsonCpp) (messages : List Message) (w : World)
    (result : Except Halt Unit × World) : Prop where
  ends : result.1 =
    match messages.findSome? (Message.thrown J) with
    | some e => .error (.exn e)
    | none => .ok ()
  datarefMap : result.2.datarefMap = firstWins w.datarefMap
    ((messages.takeWhile fun m => (m.thrown J).isNone).filterMap (Message.accepted J))
  sent : transmissions result.2.trace = transmissions w.trace ++
    (messages.takeWhile fun m => (m.thrown J).isNone).filterMap (Message.reply J)

/-- The message of a client is handled before the others. -/
theorem Handled.cons {J : JsonCpp} {m : Message} {messages : List Message} {w w' : World}
    {result : Except Halt Unit × World} (hm : m.thrown J = none)
    (hmap : w'.datarefMap = firstWins w.datarefMap (m.accepted J).toList)
    (hsent : transmissions w'.trace = transmissions w.trace ++ (m.reply J).toList)
    (hrest : Handled J messages w' result) : Handled J (m :: messages) w result := by
  refine ⟨?_, ?_, ?_⟩
  · rw [hrest.ends, List.findSome?_cons, hm]
  · rw [hrest.datarefMap, hmap, ← firstWins_append]
    simp only [List.takeWhile_cons, hm, Option.isNone_none, if_true, List.filterMap_cons]
    cases m.accepted J <;> rfl
  · rw [hrest.sent, hsent, List.append_assoc]
    simp only [List.takeWhile_cons, hm, Option.isNone_none, if_true, List.filterMap_cons]
    cases m.reply J <;> rfl

/-- A message that throws ends the polls. -/
theorem Handled.throw {J : JsonCpp} {m : Message} {messages : List Message} {w w' : World}
    {e : Exn} (hm : m.thrown J = some e) (hmap : w'.datarefMap = w.datarefMap)
    (hsent : transmissions w'.trace = transmissions w.trace) :
    Handled J (m :: messages) w (.error (.exn e), w') := by
  refine ⟨?_, ?_, ?_⟩
  · rw [List.findSome?_cons, hm]
  · simp [hm, hmap]
  · simp [hm, hsent]

/-- The polls of some clients. -/
theorem pollClients_handled {L : Lib} (polls : Nat → PollEnv) (clients : List Client) (n : Nat)
    (w : World) (hw : w.server.callbacks = startCallbacks) :
    Handled L.json
      (((clients.map Client.sock).zipIdx n).filterMap fun p => (polls p.2).message p.1) w
      (exec (pollClients L polls n clients) w) := by
  induction clients generalizing n w with
  | nil => exact ⟨rfl, rfl, by simp [pollClients]⟩
  | cons cli rest ih =>
      rw [List.map_cons, List.zipIdx_cons, List.filterMap_cons, pollClients,
        exec_bind_ok (exec_log _ w)]
      have hquiet : (polls n).message cli.sock = none → ∀ outcome,
          Handled L.json (((rest.map Client.sock).zipIdx (n + 1)).filterMap
              fun p => (polls p.2).message p.1) w
            (exec (pollClients L polls (n + 1) rest) (w.record [.recv cli.sock outcome])) := by
        intro hnone outcome
        obtain ⟨hresult, hmap, hsent⟩ := ih (n + 1) (w.record [.recv cli.sock outcome]) hw
        exact ⟨hresult, hmap, by simpa [transmissions] using hsent⟩
      cases hrecv : (polls n).recv with
      | data chunk =>
          have hmessage : (polls n).message cli.sock =
              some ⟨(polls n).msg, .ofSocket cli.sock, beforeNul chunk.bytes⟩ := by
            simp [PollEnv.message, hrecv]
          rw [hmessage]
          have hserver := (handles_parseReceivedData L (polls n).msg cli (beforeNul chunk.bytes)
            (w.record [.recv cli.sock (.data chunk)])).server
          have hcli : cli.sock = (⟨(polls n).msg, .ofSocket cli.sock, beforeNul chunk.bytes⟩ :
              Message).client.sock := rfl
          obtain ⟨⟨result, hends⟩, hmap, hsent⟩ := parseReceivedData_message (L := L)
            (w := w.record [.recv cli.sock (.data chunk)]) hw hcli
          rw [exec_bind]
          rcases hparse : exec (parseReceivedData L (polls n).msg cli (beforeNul chunk.bytes))
            (w.record [.recv cli.sock (.data chunk)]) with ⟨res, w'⟩
          simp only [hparse] at hends hmap hsent hserver
          have hrecorded : transmissions (w.record [.recv cli.sock (.data chunk)]).trace =
              transmissions w.trace := by
            simp [transmissions]
          rw [hrecorded] at hsent
          generalize (⟨(polls n).msg, .ofSocket cli.sock, beforeNul chunk.bytes⟩ : Message) = m
            at hends hmap hsent
          cases hthrown : m.thrown L.json with
          | some e =>
              obtain ⟨hnothing, hsilent⟩ := m.accepted_of_thrown hthrown
              rw [hthrown] at hends
              rw [hnothing] at hmap
              rw [hsilent] at hsent
              obtain rfl : res = .error (.exn e) := hends
              exact Handled.throw hthrown hmap (by simpa using hsent)
          | none =>
              rw [hthrown] at hends
              obtain rfl : res = .ok result := hends
              have hcallbacks : w'.server.callbacks = startCallbacks := by
                rw [hserver]
                exact hw
              exact Handled.cons hthrown hmap hsent (ih (n + 1) w' hcallbacks)
      | closed =>
          have hnone : (polls n).message cli.sock = none := by simp [PollEnv.message, hrecv]
          rw [hnone]
          exact hquiet hnone _
      | error code =>
          have hnone : (polls n).message cli.sock = none := by simp [PollEnv.message, hrecv]
          rw [hnone]
          exact hquiet hnone _

/-! ## The parts of a tick -/

namespace Service

/-- The accept. -/
theorem accept_of (env : AcceptEnv) (w : World) :
    of (exec (listenForClient env) w).2 = (of w).accept env := by
  rw [exec_listenForClient, accept]
  cases env.accept with
  | none => rfl
  | some s =>
      by_cases hioctl : env.ioctlsocket = SOCKET_ERROR
      · simp only [if_pos hioctl]
        rfl
      · simp only [if_neg hioctl]
        simp [of, sockets, Client.ofSocket]

/-- The accept returns. -/
theorem exec_listenForClient_ok (env : AcceptEnv) (w : World) :
    ∃ n, (exec (listenForClient env) w).1 = .ok n := by
  rw [exec_listenForClient]
  cases env.accept with
  | none => exact ⟨0, rfl⟩
  | some s =>
      by_cases hioctl : env.ioctlsocket = SOCKET_ERROR
      · exact ⟨-2, by simp only [if_pos hioctl]⟩
      · exact ⟨_, by simp only [if_neg hioctl]; rfl⟩

/-- The accept sends the greeting. -/
theorem greeting_of (env : AcceptEnv) (w : World) :
    transmissions (exec (listenForClient env) w).2.trace =
      transmissions w.trace ++ greeting env := by
  rw [exec_listenForClient, greeting]
  cases env.accept with
  | none => simp [transmissions]
  | some s =>
      by_cases hioctl : env.ioctlsocket = SOCKET_ERROR <;>
        simp [hioctl, transmissions]

/-- The accept and the polls. -/
theorem receivePhase_of {L : Lib} {t : TickEnv} {w : World}
    (hclean : ∀ c ∈ (exec (listenForClient t.accept) w).2.server.clients, c.Clean)
    (hw : (exec (listenForClient t.accept) w).2.server.callbacks = startCallbacks) :
    (exec (receivePhase L t) w).1 =
        (match (((of w).accept t.accept).received t.polls).findSome? (Message.thrown L.json) with
          | some e => .error (.exn e)
          | none => .ok ()) ∧
      of (exec (receivePhase L t) w).2 = ((of w).accept t.accept).register L.json t.polls ∧
      transmissions (exec (receivePhase L t) w).2.trace = transmissions w.trace ++
        (greeting t.accept ++
          (((of w).accept t.accept).handled L.json t.polls).filterMap (Message.reply L.json)) := by
  obtain ⟨n, hok⟩ := exec_listenForClient_ok t.accept w
  have haccept := accept_of t.accept w
  have hgreeting := greeting_of t.accept w
  rw [receivePhase, exec_bind]
  rcases hlisten : exec (listenForClient t.accept) w with ⟨res, w'⟩
  rw [hlisten] at hok haccept hclean hw hgreeting
  obtain rfl : res = .ok n := hok
  simp only at haccept hgreeting hclean hw ⊢
  have hserver := (handles_receiveData L t.polls hclean).server
  rw [exec_receiveData L t.polls hclean] at hserver ⊢
  obtain ⟨hends, hmap, hsent⟩ := pollClients_handled (L := L) t.polls w'.server.clients 0 w' hw
  rw [← haccept]
  refine ⟨hends, ?_, ?_⟩
  · unfold of sockets register handled received
    rw [hserver, hmap]
  · rw [hsent, hgreeting, List.append_assoc]
    rfl

/-- Whom a broadcast reaches, by their sockets. -/
theorem reached_of (answer : SOCKET → Int) (w : World) :
    (of w).reached answer = (Networking.reached answer w.server.clients).map Client.sock := by
  unfold reached of sockets
  simp only [selectBy_map, trailing_map]
  rfl

theorem remaining_of (answer : SOCKET → Int) (w : World) :
    (of w).remaining answer = (Networking.remaining answer w.server.clients).map Client.sock := by
  unfold remaining of sockets
  simp only [selectBy_map, trailing_map]
  rfl

theorem trailing_of (answer : SOCKET → Int) (w : World) :
    trailing (failing answer) (of w).clients = trailing (broken answer) w.server.clients := by
  unfold of sockets
  rw [trailing_map]
  rfl

/-- The results of the sends, by the clients. -/
theorem agrees_of {answer : SOCKET → Int} {sends : Nat → Int} {w : World}
    (h : ∀ p ∈ ((of w).reached answer).zipIdx, sends p.2 = answer p.1) :
    Agrees answer sends w.server.clients := by
  intro p hp
  rw [reached_of, List.zipIdx_map] at h
  exact h _ (List.mem_map_of_mem hp)

/-- A broadcast to nobody. -/
theorem broadcast_nobody {a : Service} (hnobody : a.clients = []) (S : Sim)
    (answer : SOCKET → Int) :
    a.broadcast S answer = [] ∧ { a with clients := a.remaining answer } = a ∧
      trailing (failing answer) a.clients = 0 := by
  obtain ⟨clients, registry⟩ := a
  obtain rfl : clients = [] := hnobody
  exact ⟨rfl, rfl, rfl⟩

/-- The calls of the getters send nothing. -/
theorem transmissions_snapshotCalls (S : Sim) (m : DatarefMap) :
    transmissions (snapshotCalls S m) = [] := by
  apply List.filterMap_eq_nil_iff.mpr
  intro e he
  obtain ⟨-, -, call, -, -, rfl⟩ := mem_snapshotCalls he
  rfl

/-- The broadcast of the snapshot. -/
theorem broadcast_of {t : TickEnv} {w : World} (hreadable : Readable w.datarefMap)
    {answer : SOCKET → Int}
    (hanswers : ∀ p ∈ ((of w).reached answer).zipIdx, t.sends p.2 = answer p.1) :
    (exec (broadcastSnapshot t) w).1 =
        (if trailing (failing answer) (of w).clients % 2 = 0 then .ok (1 / 2)
          else .error (.ub .iterator)) ∧
      of (exec (broadcastSnapshot t) w).2 = { of w with clients := (of w).remaining answer } ∧
      transmissions (exec (broadcastSnapshot t) w).2.trace =
        transmissions w.trace ++ (of w).broadcast t.sim answer := by
  have hloop := exec_broadcastData_agrees (snapshotText t.sim w.datarefMap)
    (w := w.record (snapshotCalls t.sim w.datarefMap)) (agrees_of hanswers)
  have hmark : transmissions [.broadcast (snapshotText t.sim w.datarefMap)] = [] := rfl
  have hend : (exec (broadcastSnapshot t) w).2 =
      (((w.record (snapshotCalls t.sim w.datarefMap)).record
        [.broadcast (snapshotText t.sim w.datarefMap)]).withClients
          (Networking.remaining answer w.server.clients)).record
            ((Networking.reached answer w.server.clients).flatMap
              (visit (snapshotText t.sim w.datarefMap) answer)) := by
    rw [broadcastSnapshot, exec_bind_ok (exec_snapshot t.sim hreadable), exec_bind_pure_snd, hloop]
    rfl
  rw [hend, trailing_of, remaining_of, broadcast, reached_of]
  refine ⟨?_, rfl, ?_⟩
  · rw [broadcastSnapshot, exec_bind_ok (exec_snapshot t.sim hreadable), exec_bind, hloop,
      World.record_server]
    by_cases heven : trailing (broken answer) w.server.clients % 2 = 0 <;> simp [heven]
  · simp only [World.record_trace, World.withClients_trace, transmissions_append,
      transmissions_snapshotCalls, hmark, List.append_nil, transmissions_visits, List.map_map]
    rfl

end Service

/-! ## One tick -/

/-- **A tick of the plugin is a tick of the service**: it ends the same way, it sends
the same to the same sockets in the same order, and it leaves the same clients and the
same registry. -/
theorem tick_refines {L : Lib} {w : World} (hclean : ∀ c ∈ w.server.clients, c.Clean)
    (hfaithful : Faithful L.json w) {t : TickEnv} {answer : SOCKET → Int}
    (hanswers : (Service.of w).Answers answer t) :
    ∃ sent, transmissions (exec (mainCallBack L t) w).2.trace = transmissions w.trace ++ sent ∧
      (Service.of w).tick L.json t answer =
        (⟨(exec (mainCallBack L t) w).1, sent⟩, Service.of (exec (mainCallBack L t) w).2) := by
  have hclean' := clean_call (L := L) hclean (.listenForClient t.accept)
  rw [Call.run, exec_bind_pure_snd] at hclean'
  have hlisten := (phase_listenForClient L.json t.accept w hfaithful).1.callbacks
  obtain ⟨hends, hservice, hsent⟩ := Service.receivePhase_of hclean' hlisten
  obtain ⟨hfaithful₁, -⟩ := phase_receivePhase L t w hfaithful
  have hsame : ((Service.of w).accept t.accept).reached answer =
      (((Service.of w).accept t.accept).register L.json t.polls).reached answer := rfl
  unfold Service.Answers at hanswers
  rw [exec_mainCallBack, Service.tick]
  rcases hreceive : exec (receivePhase L t) w with ⟨res, w₁⟩
  rw [hreceive] at hends hservice hsent hfaithful₁
  simp only at hservice hsent hfaithful₁
  rw [hsame, ← hservice] at hanswers
  simp only [← hservice]
  cases hthrown : (((Service.of w).accept t.accept).received t.polls).findSome?
      (Message.thrown L.json) with
  | some e =>
      rw [hthrown] at hends
      obtain rfl : res = .error (.exn e) := hends
      exact ⟨_, hsent, rfl⟩
  | none =>
      rw [hthrown] at hends
      obtain rfl : res = .ok () := hends
      simp only
      by_cases hclients : w₁.server.clients = []
      · have hnobody : (Service.of w₁).clients = [] := by simp [Service.of, sockets, hclients]
        obtain ⟨hsilent, hstays, heven⟩ := Service.broadcast_nobody hnobody t.sim answer
        rw [if_pos hclients, hsilent, hstays, heven]
        exact ⟨_, hsent, by simp⟩
      · obtain ⟨hresult, hleft, hbroadcast⟩ :=
          Service.broadcast_of (t := t) hfaithful₁.readable hanswers
        rw [if_neg hclients]
        refine ⟨_, by rw [hbroadcast, hsent, List.append_assoc], ?_⟩
        rw [hresult, hleft]

/-! ## Runs -/

/-- Whatever the results of the sends are, they are those of some sockets. -/
theorem exists_answers {w : World} (htidy : Tidy w) {t : TickEnv} (hfresh : t.Fresh w) :
    ∃ answer, (Service.of w).Answers answer t := by
  have haccepted := htidy.accept hfresh
  obtain ⟨answer, hagrees⟩ := exists_agrees t.sends haccepted.nodup
  refine ⟨answer, fun p hp => ?_⟩
  rw [← Service.accept_of, Service.reached_of, List.zipIdx_map, List.mem_map] at hp
  obtain ⟨q, hq, rfl⟩ := hp
  exact hagrees q hq

/-- The service starts empty. -/
theorem Started.service {w : World} (h : Started w) : Service.of w = .empty := by
  obtain ⟨hclients, -, hmap, -⟩ := h.tables
  simp [Service.of, Service.empty, sockets, hclients, hmap]

/-- **Every run of the plugin is a run of the service**, where iterators are positions
and `_dataInBuffer` lies behind `_buffer`; and so is its next tick, which may end in an
exception or with an iterator that leaves the vector. -/
theorem service_of_run {L : Lib} {w₀ w : World} {ticks : List TickEnv} (hstart : Started w₀)
    (hrun : Run (fun w t w' => t.Fresh w ∧ Tick L w t w') w₀ ticks w) :
    Run (Service.Step L.json) .empty ticks (Service.of w) ∧
      ∀ t : TickEnv, t.Fresh w → (∃ answer, (Service.of w).Answers answer t) ∧
        ∀ answer, (Service.of w).Answers answer t →
          ∃ sent, transmissions (exec (mainCallBack L t) w).2.trace =
              transmissions w.trace ++ sent ∧
            (Service.of w).tick L.json t answer =
              (⟨(exec (mainCallBack L t) w).1, sent⟩,
                Service.of (exec (mainCallBack L t) w).2) := by
  have hsimulates : ∀ v (t : TickEnv) v' a,
      (Tracked Connection.Up v ∧ Faithful L.json v ∧ Service.of v = a) →
      (t.Fresh v ∧ Tick L v t v') → ∃ a', Service.Step L.json a t a' ∧
        (Tracked Connection.Up v' ∧ Faithful L.json v' ∧ Service.of v' = a') := by
    rintro v t v' _ ⟨htracked, hfaithful, rfl⟩ ⟨hfresh, htick⟩
    obtain ⟨answer, hanswers⟩ := exists_answers htracked.tidy hfresh
    obtain ⟨es, -, hrefines⟩ := tick_refines (L := L) htracked.tidy.clean hfaithful hanswers
    have hfaithful' := (htick.phase hfaithful).1
    obtain ⟨rfl, hsafe⟩ := htick
    refine ⟨_, ⟨answer, hanswers, by rw [hrefines], ?_⟩,
      htracked.mainCallBack hfaithful hfresh, hfaithful', rfl⟩
    rw [hrefines]
    exact hsafe
  obtain ⟨a, hservice, htracked, hfaithful, rfl⟩ :=
    hrun.simulates hsimulates ⟨hstart.tracked, hstart.faithful L.json, hstart.service⟩
  refine ⟨hservice, fun t hfresh => ⟨exists_answers htracked.tidy hfresh, fun answer h => ?_⟩⟩
  exact tick_refines htracked.tidy.clean hfaithful h

/-- One tick of the service, with a client and a registration. -/
theorem service_of_run_registerTick :
    ∃ a, Run (Service.Step registrationJson) .empty [registerTick] a ∧ a.clients = [7] ∧
      a.registry.keys = [lit "a"] := by
  refine ⟨_, (service_of_run started_started ((Run.nil _).snoc registerTick_step)).1, ?_, ?_⟩
  · rfl
  · decide

end XplaneServer
