/-
  Protocol.lean --- what happens to one connection over a run of ticks.

  The server has no notion of a connection beyond the socket in `_clients`, and
  every part of a tick goes through all of them.  Seen from one socket this is a
  protocol all the same: it is accepted, greeted once, and made non-blocking or
  given up; then it is polled, its messages are answered, and it is sent
  snapshots, until a snapshot cannot be sent.  `Connection` states it as a monitor
  of the events of a socket, and `connection_of_run` that no run of ticks leaves it,
  also where a run goes on after an `erase` because iterators are positions.
-/
import Mathlib.Data.List.Nodup
import XplaneServer.Networking.Failures
import XplaneServer.Ticks

set_option autoImplicit false

namespace XplaneServer

open Foundation Json Datas Networking

/-- The socket of a connection that an event names. -/
def Event.socket : Event → Option SOCKET
  | .accept result => result
  | .send sock _ _ => some sock
  | .recv sock _ => some sock
  | .ioctlsocket sock _ => some sock
  | .closesocket sock => some sock
  | .pushBack sock => some sock
  | .erase sock => some sock
  | .invoke _ _ emiter _ => some emiter
  | .returned _ _ emiter _ _ => some emiter
  | _ => none

/-- Where a connection is. -/
inductive Connection where
  /-- not accepted -/
  | unknown
  | accepted
  | greeted
  /-- it stayed blocking, and is open without a client -/
  | refused
  | ready
  | connected
  /-- bytes were received, and nothing else happened since -/
  | received
  /-- a callback was called on them, and has not returned -/
  | answering
  /-- a snapshot could not be sent -/
  | failed
  | erased
  deriving DecidableEq, Repr

namespace Connection

/-- What may happen to a connection.  Before it is accepted, its socket is at most
the one that listens. -/
def step : Connection → Event → Option Connection
  | .unknown, .accept _ => some .accepted
  | .unknown, .ioctlsocket _ _ | .unknown, .closesocket _ => some .unknown
  | .accepted, .send _ data _ =>
      if data = lit "Hello on the server\n" then some .greeted else none
  | .greeted, .ioctlsocket _ result =>
      some (if result = SOCKET_ERROR then .refused else .ready)
  | .ready, .pushBack _ => some .connected
  | .received, .invoke _ _ _ _ => some .answering
  | .answering, .send _ _ _ => some .answering
  | .answering, .returned _ _ _ _ _ => some .connected
  | .connected, .send _ _ result | .received, .send _ _ result =>
      some (if result = SOCKET_ERROR then .failed else .connected)
  | .failed, .erase _ => some .erased
  | .connected, .recv _ outcome | .received, .recv _ outcome | .answering, .recv _ outcome =>
      match outcome with
      | .data _ => some .received
      | _ => some .connected
  | _, _ => none

/-- The monitor of a socket. -/
def next (s : SOCKET) (c : Connection) (e : Event) : Option Connection :=
  if e.socket = some s then c.step e else some c

/-- The socket is that of a client. -/
def Up (c : Connection) : Prop := c = .connected ∨ c = .received ∨ c = .answering

/-- And it is not: it is not accepted, or open without a client. -/
def Down (c : Connection) : Prop := c = .unknown ∨ c = .refused ∨ c = .erased

/-- Events of other sockets. -/
theorem follows_other {s : SOCKET} {es : List Event} (h : ∀ e ∈ es, e.socket ≠ some s)
    (c : Connection) : Follows (next s) c es c :=
  Follows.ignored fun e he => by simp [next, h e he]

/-- An event of its own. -/
theorem next_own {s : SOCKET} {e : Event} (h : e.socket = some s) (c : Connection) :
    next s c e = c.step e := by
  simp [next, h]

/-- A client is polled. -/
theorem Up.polled {s : SOCKET} {c : Connection} (h : c.Up) (outcome : RecvOutcome) :
    next s c (.recv s outcome) =
      some (match outcome with | .data _ => .received | _ => .connected) := by
  rw [next_own rfl]
  rcases h with rfl | rfl | rfl <;> cases outcome <;> rfl

end Connection

/-! ## Messages -/

/-- The events of one message: the emiter is answered while its callback runs. -/
theorem parseReceivedData_follows (L : Lib) (env : MsgEnv) (cli : Client) (data : Bytes)
    (w : World) :
    ∃ es, (exec (parseReceivedData L env cli data) w).2.trace = w.trace ++ es ∧
      (∀ e ∈ es, e.socket = some cli.sock) ∧
      ∃ c : Connection, Follows (Connection.next cli.sock) .received es c ∧ c.Up ∧
        (∀ r, (exec (parseReceivedData L env cli data) w).1 = .ok r → c ≠ .answering) := by
  rw [exec_parseReceivedData]
  cases operationOf L.json data with
  | error e =>
      refine ⟨[], by simp, by simp, .received, Follows.nil _, Or.inr (Or.inl rfl), ?_⟩
      intro r hr
      cases hr
  | ok key =>
      cases hkey : w.server.callbacks[key]? with
      | none =>
          refine ⟨[], by simp [hkey], by simp, .received, Follows.nil _, Or.inr (Or.inl rfl), ?_⟩
          simp
      | some callback =>
          obtain ⟨-, replies, htrace⟩ := exec_invoke_replies L env data cli callback
            (w.record [.invoke callback data cli.sock env])
          have hinvoked : Connection.next cli.sock .received
              (.invoke callback data cli.sock env) = some .answering :=
            Connection.next_own rfl _
          have hreplied : Follows (Connection.next cli.sock) .answering
              (replies.map (Event.send cli.sock · env.reply)) .answering := by
            apply Follows.ignored
            intro e he
            obtain ⟨text, -, rfl⟩ := List.mem_map.mp he
            exact Connection.next_own rfl _
          have hsocket : ∀ e ∈ [.invoke callback data cli.sock env] ++
              replies.map (Event.send cli.sock · env.reply), e.socket = some cli.sock := by
            intro e he
            rcases List.mem_append.mp he with hcalled | hreply
            · rw [List.mem_singleton.mp hcalled]
              rfl
            · obtain ⟨text, -, rfl⟩ := List.mem_map.mp hreply
              rfl
          simp only [hkey, runCallback]
          rw [exec_bind_ok (exec_log _ w), exec_bind]
          rcases hcall : exec (invoke L env data cli callback)
            (w.record [.invoke callback data cli.sock env]) with ⟨halt | r, w'⟩
          · rw [hcall, World.record_trace, List.append_assoc] at htrace
            exact ⟨_, htrace, hsocket, .answering, Follows.cons hinvoked hreplied,
              Or.inr (Or.inr rfl), nofun⟩
          · rw [hcall, World.record_trace, List.append_assoc] at htrace
            have hreturned : Connection.next cli.sock .answering
                (.returned callback data cli.sock env r) = some .connected :=
              Connection.next_own rfl _
            refine ⟨_ ++ [.returned callback data cli.sock env r], ?_, ?_, .connected,
              (Follows.cons hinvoked hreplied).append (Follows.cons hreturned (Follows.nil _)),
              Or.inl rfl, ?_⟩
            · simp only at htrace
              simp only [exec_bind, exec_log, exec_pure, World.record_trace, htrace,
                List.append_assoc]
              rfl
            · intro e he
              rcases List.mem_append.mp he with hbefore | hlast
              · exact hsocket e hbefore
              · rw [List.mem_singleton.mp hlast]
                rfl
            · simp

/-- Some clients are polled: every event is one of theirs, and every one of them
stays connected, with its callback returned if the poll ended normally. -/
def PolledAll (clients : List Client) (w : World) (result : Except Halt Unit × World) : Prop :=
  ∃ es, result.2.trace = w.trace ++ es ∧
    (∀ e ∈ es, ∃ s ∈ clients.map Client.sock, e.socket = some s) ∧
    ∀ s ∈ clients.map Client.sock, ∀ c : Connection, c.Up →
      ∃ c', Follows (Connection.next s) c es c' ∧ c'.Up ∧
        (result.1 = .ok () → c' ≠ .answering)

/-- A client is polled before the others. -/
theorem PolledAll.cons {cli : Client} {rest : List Client} {w w' : World}
    {result : Except Halt Unit × World} {head : List Event}
    (hnew : cli.sock ∉ rest.map Client.sock) (htrace : w'.trace = w.trace ++ head)
    (hsocket : ∀ e ∈ head, e.socket = some cli.sock)
    (hhead : ∀ c : Connection, c.Up →
      ∃ d, Follows (Connection.next cli.sock) c head d ∧ d.Up ∧ d ≠ .answering)
    (hrest : PolledAll rest w' result) : PolledAll (cli :: rest) w result := by
  obtain ⟨es, htrace', hes, hall⟩ := hrest
  refine ⟨head ++ es, by rw [htrace', htrace, List.append_assoc], ?_, ?_⟩
  · intro e he
    rcases List.mem_append.mp he with hfirst | hlater
    · exact ⟨cli.sock, List.mem_cons_self, hsocket e hfirst⟩
    · obtain ⟨s, hs, heq⟩ := hes e hlater
      exact ⟨s, List.mem_cons_of_mem _ hs, heq⟩
  · intro s hs c hc
    rcases List.mem_cons.mp hs with rfl | hs
    · obtain ⟨d, hd, hup, hdone⟩ := hhead c hc
      have hsilent : Follows (Connection.next cli.sock) d es d := by
        apply Connection.follows_other
        intro e he heq
        obtain ⟨s, hs, heq'⟩ := hes e he
        rw [heq] at heq'
        exact hnew (Option.some.inj heq' ▸ hs)
      exact ⟨d, hd.append hsilent, hup, fun _ => hdone⟩
    · have hother : ∀ e ∈ head, e.socket ≠ some s := by
        intro e he heq
        rw [hsocket e he] at heq
        exact hnew (Option.some.inj heq ▸ hs)
      obtain ⟨c', hc', hup, hdone⟩ := hall s hs c hc
      exact ⟨c', (Connection.follows_other hother c).append hc', hup, hdone⟩

/-- The poll of all clients: every one of them is polled, unless an exception ends
the poll before it. -/
theorem pollClients_follows (L : Lib) (polls : Nat → PollEnv) (clients : List Client) (n : Nat)
    (w : World) (hnodup : (clients.map Client.sock).Nodup) :
    PolledAll clients w (exec (pollClients L polls n clients) w) := by
  induction clients generalizing n w with
  | nil => exact ⟨[], by simp [pollClients], by simp, by simp⟩
  | cons cli rest ih =>
      rw [List.map_cons, List.nodup_cons] at hnodup
      obtain ⟨hnew, hrest⟩ := hnodup
      have hquiet : ∀ outcome, (∀ chunk, outcome ≠ .data chunk) → ∀ c : Connection, c.Up →
          ∃ d, Follows (Connection.next cli.sock) c [.recv cli.sock outcome] d ∧ d.Up ∧
            d ≠ .answering := by
        intro outcome hnone c hc
        refine ⟨.connected, Follows.cons ?_ (Follows.nil _), Or.inl rfl, by simp⟩
        rw [hc.polled outcome]
        cases outcome with
        | data chunk => exact absurd rfl (hnone chunk)
        | closed => rfl
        | error code => rfl
      rw [pollClients, exec_bind_ok (exec_log _ w)]
      cases hrecv : (polls n).recv with
      | data chunk =>
          obtain ⟨es, htrace, hes, d, hd, hup, hdone⟩ := parseReceivedData_follows L (polls n).msg
            cli (beforeNul chunk.bytes) (w.record [.recv cli.sock (.data chunk)])
          simp only
          rw [exec_bind]
          have hreceived : ∀ c : Connection, c.Up →
              Connection.next cli.sock c (.recv cli.sock (.data chunk)) = some .received :=
            fun c hc => hc.polled _
          have hsocket : ∀ e ∈ .recv cli.sock (.data chunk) :: es, e.socket = some cli.sock := by
            intro e he
            rcases List.mem_cons.mp he with rfl | he
            · rfl
            · exact hes e he
          rcases hmessage : exec (parseReceivedData L (polls n).msg cli (beforeNul chunk.bytes))
            (w.record [.recv cli.sock (.data chunk)]) with ⟨halt | r, w'⟩
          · -- the exception leaves the others unpolled
            rw [hmessage, World.record_trace, List.append_assoc] at htrace
            refine ⟨_, htrace, fun e he => ⟨_, List.mem_cons_self, hsocket e he⟩, ?_⟩
            intro s hs c hc
            by_cases hown : s = cli.sock
            · subst hown
              exact ⟨d, Follows.cons (hreceived c hc) hd, hup, by simp⟩
            · refine ⟨c, Connection.follows_other ?_ c, hc, by simp⟩
              intro e he heq
              rw [hsocket e he] at heq
              exact hown (Option.some.inj heq).symm
          · rw [hmessage, World.record_trace, List.append_assoc] at htrace
            refine PolledAll.cons hnew htrace hsocket ?_ (ih (n + 1) w' hrest)
            intro c hc
            exact ⟨d, Follows.cons (hreceived c hc) hd, hup, hdone r (by rw [hmessage])⟩
      | closed =>
          exact PolledAll.cons hnew rfl (by simp [Event.socket]) (hquiet .closed (by simp))
            (ih (n + 1) _ hrest)
      | error code =>
          exact PolledAll.cons hnew rfl (by simp [Event.socket]) (hquiet (.error code) (by simp))
            (ih (n + 1) _ hrest)

/-! ## Snapshots -/

/-- The events of the visits are those of the clients that are visited. -/
theorem socket_of_mem_visits {data : Bytes} {answer : SOCKET → Int} {clients : List Client}
    {e : Event} (he : e ∈ clients.flatMap (visit data answer)) :
    ∃ c ∈ clients, e.socket = some c.sock := by
  obtain ⟨c, hc, hvisit⟩ := List.mem_flatMap.mp he
  refine ⟨c, hc, ?_⟩
  rcases List.mem_cons.mp hvisit with rfl | herase
  · rfl
  · split at herase
    · rw [List.mem_singleton.mp herase]
      rfl
    · cases herase

/-- A client whose callback has returned is sent a snapshot, and erased if that
fails. -/
theorem visits_follow (data : Bytes) (answer : SOCKET → Int) {clients : List Client}
    (hnodup : (clients.map Client.sock).Nodup) {cli : Client} (hcli : cli ∈ clients)
    {c : Connection} (hc : c.Up) (hdone : c ≠ .answering) :
    Follows (Connection.next cli.sock) c (clients.flatMap (visit data answer))
      (if broken answer cli then .erased else .connected) := by
  obtain ⟨before, after, rfl⟩ := List.append_of_mem hcli
  rw [List.map_append, List.map_cons, List.nodup_append, List.nodup_cons] at hnodup
  obtain ⟨-, ⟨hlast, -⟩, hapart⟩ := hnodup
  have hsilent : ∀ others : List Client, cli.sock ∉ others.map Client.sock →
      ∀ d : Connection, Follows (Connection.next cli.sock) d
        (others.flatMap (visit data answer)) d := by
    intro others hothers d
    apply Connection.follows_other
    intro e he heq
    obtain ⟨c', hc', heq'⟩ := socket_of_mem_visits he
    rw [heq] at heq'
    exact hothers (Option.some.inj heq' ▸ List.mem_map_of_mem hc')
  have hnew : cli.sock ∉ before.map Client.sock := fun h =>
    hapart _ h _ List.mem_cons_self rfl
  have hown : Follows (Connection.next cli.sock) c (visit data answer cli)
      (if broken answer cli then .erased else .connected) := by
    have hsent : Connection.next cli.sock c (.send cli.sock data (answer cli.sock)) =
        some (if answer cli.sock = SOCKET_ERROR then .failed else .connected) := by
      rw [Connection.next_own rfl]
      rcases hc with rfl | rfl | rfl
      · rfl
      · rfl
      · exact absurd rfl hdone
    unfold visit broken
    by_cases hfailed : answer cli.sock = SOCKET_ERROR
    · rw [if_pos hfailed] at hsent
      have herased : Connection.next cli.sock .failed (.erase cli.sock) = some .erased :=
        Connection.next_own rfl _
      simp only [hfailed, beq_self_eq_true, if_true] at hsent ⊢
      exact Follows.cons hsent (Follows.cons herased (Follows.nil _))
    · rw [if_neg hfailed] at hsent
      have hsound : (answer cli.sock == SOCKET_ERROR) = false := by simpa using hfailed
      simp only [hsound, Bool.false_eq_true, if_false]
      exact Follows.cons hsent (Follows.nil _)
  rw [List.flatMap_append, List.flatMap_cons]
  exact (hsilent before hnew c).append (hown.append (hsilent after hlast _))

/-! ## Runs -/

/-- The clients stay tidy when one is accepted. -/
theorem Networking.Tidy.accept {w : World} (h : Tidy w) {env : AcceptEnv}
    (hfresh : ∀ s, env.accept = some s → s ∉ openSockets w.trace) :
    Tidy (exec (listenForClient env) w).2 := by
  have haccepted := h.call (.ofJson (.ofTable [])) (.listenForClient env) hfresh
  rwa [Call.run, exec_bind_pure_snd] at haccepted

/-- Every connection is where the protocol has it, and the clients are in a part of
it. -/
structure Tracked (P : Connection → Prop) (w : World) : Prop where
  tidy : Tidy w
  follows : ∀ s, ∃ c : Connection, Follows (Connection.next s) .unknown w.trace c ∧
    (s ∈ sockets w → P c) ∧ (s ∉ sockets w → c.Down) ∧
    (s ∉ openSockets w.trace → c = .unknown)

/-- No callback is running. -/
def Connection.Settled (c : Connection) : Prop := c.Up ∧ c ≠ .answering

namespace Tracked

variable {P Q : Connection → Prop} {w w' : World} {es : List Event}

/-- A part of a tick. -/
theorem extend (h : Tracked P w) (htidy : Tidy w') (htrace : w'.trace = w.trace ++ es)
    (hstep : ∀ s, ∀ c : Connection, (s ∈ sockets w → P c) → (s ∉ sockets w → c.Down) →
      (s ∉ openSockets w.trace → c = .unknown) →
      ∃ c', Follows (Connection.next s) c es c' ∧ (s ∈ sockets w' → Q c') ∧
        (s ∉ sockets w' → c'.Down) ∧ (s ∉ openSockets w'.trace → c' = .unknown)) :
    Tracked Q w' := by
  refine ⟨htidy, fun s => ?_⟩
  obtain ⟨c, hc, hup, hdown, hopen⟩ := h.follows s
  obtain ⟨c', hc', hafter⟩ := hstep s c hup hdown hopen
  exact ⟨c', htrace ▸ hc.append hc', hafter⟩

/-- A new connection is greeted, and becomes a client or is given up. -/
theorem listenForClient (h : Tracked Connection.Up w) (env : AcceptEnv)
    (hfresh : ∀ s, env.accept = some s → s ∉ openSockets w.trace) :
    Tracked Connection.Up (exec (Networking.listenForClient env) w).2 := by
  have htidy := h.tidy.accept hfresh
  rw [exec_listenForClient] at htidy ⊢
  cases haccept : env.accept with
  | none =>
      rw [haccept] at htidy
      refine h.extend htidy rfl fun s c hup hdown hopen => ?_
      refine ⟨c, Connection.follows_other (by simp [Event.socket]) c, hup, hdown, ?_⟩
      simpa [openSockets_append, openStep] using hopen
  | some s' =>
      rw [haccept] at htidy
      have hnew := hfresh s' haccept
      have hnot : s' ∉ sockets w := fun hs => hnew (h.tidy.opened hs)
      have hgreeted : Follows (Connection.next s') .unknown
          [.accept (some s'), .send s' (lit "Hello on the server\n") env.greeting] .greeted :=
        Follows.cons (Connection.next_own rfl _) (Follows.cons (Connection.next_own rfl _)
          (Follows.nil _))
      have hset : Connection.next s' .greeted (.ioctlsocket s' env.ioctlsocket) =
          some (if env.ioctlsocket = SOCKET_ERROR then .refused else .ready) :=
        Connection.next_own rfl _
      by_cases hioctl : env.ioctlsocket = SOCKET_ERROR
      · simp only [if_pos hioctl] at htidy hset ⊢
        refine h.extend htidy rfl fun s c hup hdown hopen => ?_
        rw [World.record_trace, openSockets_append]
        by_cases hs : s = s'
        · subst hs
          obtain rfl := hopen hnew
          refine ⟨.refused, hgreeted.append (Follows.cons hset (Follows.nil _)),
            fun hs => absurd hs hnot, fun _ => Or.inr (Or.inl rfl), fun hs => ?_⟩
          exact absurd List.mem_cons_self hs
        · refine ⟨c, Connection.follows_other ?_ c, hup, hdown, fun hs' => ?_⟩
          · simp [Event.socket, Ne.symm hs]
          · exact hopen fun hin => hs' (List.mem_cons_of_mem _ hin)
      · simp only [if_neg hioctl] at htidy hset ⊢
        refine h.extend htidy rfl fun s c hup hdown hopen => ?_
        rw [World.record_trace, openSockets_append, sockets_push]
        by_cases hs : s = s'
        · subst hs
          obtain rfl := hopen hnew
          have hpushed : Connection.next s .ready (.pushBack s) = some .connected :=
            Connection.next_own rfl _
          refine ⟨.connected, hgreeted.append (Follows.cons hset (Follows.cons hpushed
            (Follows.nil _))), fun _ => Or.inl rfl, fun hs => ?_, fun hs => ?_⟩
          · exact absurd (List.mem_append_right _ (List.mem_singleton_self s)) hs
          · exact absurd List.mem_cons_self hs
        · refine ⟨c, Connection.follows_other ?_ c, fun hin => ?_, fun hin => ?_, fun hs' => ?_⟩
          · simp [Event.socket, Ne.symm hs]
          · apply hup
            simpa [hs] using hin
          · apply hdown
            simpa [hs] using hin
          · exact hopen fun hin => hs' (List.mem_cons_of_mem _ hin)

/-- Every client is polled. -/
theorem receiveData (h : Tracked Connection.Up w) (L : Lib) (polls : Nat → PollEnv) :
    Tracked Connection.Up (exec (Networking.receiveData L polls) w).2 ∧
      ((exec (Networking.receiveData L polls) w).1 = .ok () →
        Tracked Connection.Settled (exec (Networking.receiveData L polls) w).2) := by
  have htidy := h.tidy.call L (.receiveData polls) trivial
  rw [Call.run] at htidy
  obtain ⟨hserver, -⟩ := handles_receiveData L polls h.tidy.clean
  have hsockets : sockets (exec (Networking.receiveData L polls) w).2 = sockets w :=
    congrArg (fun server => server.clients.map Client.sock) hserver
  obtain ⟨es, htrace, hes, hall⟩ := pollClients_follows L polls w.server.clients 0 w h.tidy.nodup
  rw [← exec_receiveData L polls h.tidy.clean] at htrace hall
  have hpart : ∀ Q : Connection → Prop, (∀ c : Connection, c.Up →
      ((exec (Networking.receiveData L polls) w).1 = .ok () → c ≠ .answering) → Q c) →
      Tracked Q (exec (Networking.receiveData L polls) w).2 := by
    intro Q hQ
    refine h.extend htidy htrace fun s c hup hdown hopen => ?_
    rw [hsockets]
    by_cases hs : s ∈ sockets w
    · obtain ⟨c', hc', hup', hdone⟩ := hall s hs c (hup hs)
      refine ⟨c', hc', fun _ => hQ c' hup' hdone, fun hnot => absurd hs hnot, fun hnot => ?_⟩
      exact absurd (htidy.opened (hsockets ▸ hs)) hnot
    · refine ⟨c, Connection.follows_other ?_ c, fun hin => absurd hin hs, hdown, fun hnot => ?_⟩
      · intro e he heq
        obtain ⟨s', hs', heq'⟩ := hes e he
        rw [heq] at heq'
        exact hs (Option.some.inj heq' ▸ hs')
      · exact hopen fun hin => hnot (opened_call (L := L) (c := .receiveData polls) h.tidy hin)
  exact ⟨hpart _ fun c hup _ => hup, fun hok => hpart _ fun c hup hdone => ⟨hup, hdone hok⟩⟩

/-- The clients that are visited are sent the snapshot. -/
theorem broadcastData (h : Tracked Connection.Settled w) (data : Bytes) (sends : Nat → Int) :
    Tracked Connection.Up (exec (Networking.broadcastData data sends) w).2 := by
  have htidy := h.tidy.call (.ofJson (.ofTable [])) (.broadcastData data sends) trivial
  rw [Call.run, exec_bind_pure_snd] at htidy
  have hopened : ∀ s ∈ openSockets w.trace,
      s ∈ openSockets (exec (Networking.broadcastData data sends) w).2.trace := by
    intro s hs
    have hkept := opened_call (L := .ofJson (.ofTable [])) (c := .broadcastData data sends)
      h.tidy hs
    rwa [Call.run, exec_bind_pure_snd] at hkept
  obtain ⟨answer, hagrees⟩ := exists_agrees sends h.tidy.nodup
  rw [exec_broadcastData_agrees data hagrees] at htidy hopened ⊢
  have hreached : reached answer w.server.clients =
      visited (broken answer) false w.server.clients := (visited_eq_filter _).symm
  have hremaining : remaining answer w.server.clients =
      survivors (broken answer) false w.server.clients := (survivors_eq_filter _).symm
  have hclients : w.server.clients.Nodup := List.Nodup.of_map _ h.tidy.nodup
  have hsub : (reached answer w.server.clients).Sublist w.server.clients :=
    hreached ▸ visited_sublist _ _
  have hrest : (remaining answer w.server.clients).Sublist w.server.clients :=
    hremaining ▸ survivors_sublist _ _
  have hvisited : ((reached answer w.server.clients).map Client.sock).Nodup :=
    (hsub.map Client.sock).nodup h.tidy.nodup
  have hmark : ∀ s c, Connection.next s c (.broadcast data) = some c := fun _ _ => rfl
  have htrace : (((w.record [.broadcast data]).withClients
      (remaining answer w.server.clients)).record
        ((reached answer w.server.clients).flatMap (visit data answer))).trace =
      w.trace ++ .broadcast data ::
        (reached answer w.server.clients).flatMap (visit data answer) := by
    simp
  refine h.extend htidy htrace fun s c hup hdown hopen => ?_
  by_cases hs : s ∈ sockets w
  · obtain ⟨hconnected, hdone⟩ := hup hs
    obtain ⟨cli, hcli, rfl⟩ := List.mem_map.mp hs
    have hstays : cli.sock ∈ (remaining answer w.server.clients).map Client.sock ↔
        ¬ (cli ∈ reached answer w.server.clients ∧ broken answer cli = true) := by
      have hleft : cli ∈ remaining answer w.server.clients ↔
          ¬ (cli ∈ reached answer w.server.clients ∧ broken answer cli = true) := by
        rw [hremaining, hreached, mem_survivors_iff false hclients]
        exact and_iff_right hcli
      rw [← hleft]
      refine ⟨fun hin => ?_, List.mem_map_of_mem⟩
      obtain ⟨other, hother, heq⟩ := List.mem_map.mp hin
      have hsame := List.inj_on_of_nodup_map h.tidy.nodup (hrest.subset hother) hcli heq
      exact hsame ▸ hother
    by_cases hvisit : cli ∈ reached answer w.server.clients
    · have hvisits := visits_follow data answer hvisited hvisit hconnected hdone
      refine ⟨_, Follows.cons (hmark cli.sock c) hvisits, fun hin => ?_, fun hnot => ?_,
        fun hnot => ?_⟩
      · have hsound : broken answer cli = false := by
          simpa [hvisit] using hstays.mp hin
        rw [hsound]
        exact Or.inl rfl
      · have hbroken : broken answer cli = true := by
          by_contra hsound
          exact hnot (hstays.mpr fun hboth => hsound hboth.2)
        rw [hbroken]
        exact Or.inr (Or.inr rfl)
      · exact absurd (hopened _ (h.tidy.opened hs)) hnot
    · refine ⟨c, Follows.cons (hmark cli.sock c) (Connection.follows_other ?_ c),
        fun _ => hconnected, fun hnot => ?_, fun hnot => ?_⟩
      · intro e he heq
        obtain ⟨other, hother, heq'⟩ := socket_of_mem_visits he
        rw [heq] at heq'
        have hsame := List.inj_on_of_nodup_map h.tidy.nodup (hsub.subset hother) hcli
          (Option.some.inj heq').symm
        exact hvisit (hsame ▸ hother)
      · exact absurd (hstays.mpr fun hboth => hvisit hboth.1) hnot
      · exact absurd (hopened _ (h.tidy.opened hs)) hnot
  · refine ⟨c, Follows.cons (hmark s c) (Connection.follows_other ?_ c), fun hin => ?_,
      fun _ => hdown hs, fun hnot => hopen fun hin => hnot (hopened s hin)⟩
    · intro e he heq
      obtain ⟨other, hother, heq'⟩ := socket_of_mem_visits he
      rw [heq] at heq'
      exact hs (Option.some.inj heq' ▸ List.mem_map_of_mem (hsub.subset hother))
    · exact absurd ((hrest.map Client.sock).subset hin) hs

end Tracked

/-- The socket that is accepted in the tick is not open. -/
def TickEnv.Fresh (t : TickEnv) (w : World) : Prop :=
  ∀ s, t.accept.accept = some s → s ∉ openSockets w.trace

/-- The getters open and push nothing. -/
theorem inert_snapshotCalls (S : Sim) (m : DatarefMap) : Inert (snapshotCalls S m) := by
  have hcalls : ∀ calls : List XPLMGet, Inert (calls.map .getData) := by
    intro calls
    induction calls with
    | nil => exact ⟨rfl, fun _ => rfl⟩
    | cons call calls ih => exact ⟨ih.pushed, ih.opened⟩
  have hall : snapshotCalls S m =
      (m.toList.flatMap fun p => (p.2.getValue S).1).map Event.getData := by
    rw [List.map_flatMap]
    rfl
  rw [hall]
  exact hcalls _

namespace Tracked

/-- The getters name no connection. -/
theorem snapshotCalls {P : Connection → Prop} {w : World} (h : Tracked P w) (S : Sim) :
    Tracked P (w.record (snapshotCalls S w.datarefMap)) := by
  have hcall : ∀ e ∈ XplaneServer.snapshotCalls S w.datarefMap, ∃ call, e = .getData call := by
    intro e he
    obtain ⟨-, -, call, -, -, rfl⟩ := mem_snapshotCalls he
    exact ⟨call, rfl⟩
  have hinert := inert_snapshotCalls S w.datarefMap
  have htidy : Tidy (w.record (XplaneServer.snapshotCalls S w.datarefMap)) :=
    h.tidy.shrink_inert (List.Sublist.refl _) rfl hinert
  refine h.extend htidy rfl fun s c hup hdown hopen => ?_
  refine ⟨c, Connection.follows_other (fun e he => ?_) c, hup, hdown, ?_⟩
  · obtain ⟨call, rfl⟩ := hcall e he
    exact nofun
  · rw [World.record_trace, openSockets_append, hinert.opened]
    exact hopen

/-- From the snapshot on. -/
theorem broadcastSnapshot {w : World} (h : Tracked Connection.Settled w)
    (hreadable : Readable w.datarefMap) (t : TickEnv) :
    Tracked Connection.Up (exec (XplaneServer.broadcastSnapshot t) w).2 := by
  rw [XplaneServer.broadcastSnapshot, exec_bind_ok (exec_snapshot t.sim hreadable),
    exec_bind_pure_snd]
  exact (h.snapshotCalls t.sim).broadcastData _ t.sends

/-- A tick, however it ends. -/
theorem mainCallBack {L : Lib} {w : World} (h : Tracked Connection.Up w)
    (hfaithful : Faithful L.json w) {t : TickEnv} (hfresh : t.Fresh w) :
    Tracked Connection.Up (exec (XplaneServer.mainCallBack L t) w).2 := by
  have haccepted := h.listenForClient t.accept hfresh
  obtain ⟨hfaithful₁, -⟩ := phase_receivePhase L t w hfaithful
  have hphase : Tracked Connection.Up (exec (receivePhase L t) w).2 ∧
      ((exec (receivePhase L t) w).1 = .ok () →
        Tracked Connection.Settled (exec (receivePhase L t) w).2) := by
    rw [receivePhase, exec_bind]
    rcases hlisten : exec (Networking.listenForClient t.accept) w with ⟨_ | n, w'⟩ <;>
      rw [hlisten] at haccepted
    · exact ⟨haccepted, nofun⟩
    · exact haccepted.receiveData L t.polls
  rw [exec_mainCallBack]
  rcases hreceive : exec (receivePhase L t) w with ⟨e | u, w₁⟩ <;>
    rw [hreceive] at hphase hfaithful₁
  · exact hphase.1
  · simp only
    split
    · exact hphase.1
    · exact (hphase.2 rfl).broadcastSnapshot hfaithful₁.readable t

end Tracked

theorem Started.tracked {w : World} (h : Started w) : Tracked Connection.Up w := by
  have hidle := idle_of_started h
  obtain ⟨-, -, -, htrace⟩ := h.tables
  refine ⟨hidle.tidy, fun s => ⟨.unknown, Follows.ignored fun e he => ?_, ?_, ?_, fun _ => rfl⟩⟩
  · have hstartup := htrace e he
    cases e with
    | ioctlsocket sock result | closesocket sock =>
        unfold Connection.next
        split <;> rfl
    | _ => first | rfl | cases hstartup
  · simp [sockets, hidle.clients]
  · exact fun _ => Or.inl rfl

/-- What a run of ticks keeps. -/
theorem tracked_of_run {L : Lib} {w₀ w : World} {ticks : List TickEnv} (hstart : Started w₀)
    (hrun : Run (fun w t w' => t.Fresh w ∧ Tick L w t w') w₀ ticks w) :
    Tracked Connection.Up w ∧ Faithful L.json w := by
  have hinvariant : ∀ v (t : TickEnv) v', (Tracked Connection.Up v ∧ Faithful L.json v) →
      (t.Fresh v ∧ Tick L v t v') → Tracked Connection.Up v' ∧ Faithful L.json v' := by
    intro v t v' hv hstep
    refine ⟨?_, (hstep.2.phase hv.2).1⟩
    rw [← hstep.2.1]
    exact hv.1.mainCallBack hv.2 hstep.1
  exact hrun.invariant hinvariant ⟨hstart.tracked, hstart.faithful L.json⟩

/-- The first tick of a run. -/
theorem registerTick_step : registerTick.Fresh .started ∧
    Tick (.ofJson registrationJson) .started registerTick
      (exec (mainCallBack (.ofJson registrationJson) registerTick) .started).2 :=
  ⟨fun s _ => by simp [(idle_of_started started_started).opened],
    leads_of_ok (show _ = Except.ok (1 / 2) from rfl)⟩

end XplaneServer
