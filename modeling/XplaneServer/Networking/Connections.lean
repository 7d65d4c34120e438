/-
  Networking/Connections.lean --- the clients of a server over runs of its three
  calls.

  `listenForClient` pushes at the end of `_clients`, `receiveData` leaves it as
  it is, and `broadcastData` erases the clients to which its send failed, though
  its iterator then steps over some.  Two questions are asked of every run: are
  the clients the pushed ones, in order, less those whose send failed
  (`clients_of_run`), and is every open socket the socket of a client
  (`noLeak_of_run`)?  Iterators are positions, as in `Networking.TCPServer`, so the
  runs are more than those that the standard defines.
-/
import XplaneServer.Networking.Dispatch
import XplaneServer.Start

set_option autoImplicit false

namespace XplaneServer.Networking

open Foundation

/-! ## Calls -/

/-- A call of the server, with the answers from outside. -/
inductive Call where
  | listenForClient (env : AcceptEnv)
  | receiveData (polls : Nat → PollEnv)
  | broadcastData (data : Bytes) (sends : Nat → Int)

/-- Make a call. -/
def Call.run (L : Lib) : Call → Plugin Unit
  | .listenForClient env => do let _ ← Networking.listenForClient env
  | .receiveData polls => Networking.receiveData L polls
  | .broadcastData data sends => do let _ ← Networking.broadcastData data sends

/-- The sockets of `_clients`. -/
def sockets (w : World) : List SOCKET := w.server.clients.map Client.sock

/-- The sockets `listenForClient` pushed, in order. -/
def pushed (trace : List Event) : List SOCKET :=
  trace.filterMap fun
    | .pushBack s => some s
    | _ => none

/-- The change an event makes to the open sockets. -/
def openStep (opened : List SOCKET) : Event → List SOCKET
  | .accept (some s) => s :: opened
  | .closesocket s => opened.filter (· ≠ s)
  | _ => opened

/-- The sockets that were accepted and not closed since. -/
def openSockets (trace : List Event) : List SOCKET := trace.foldl openStep []

/-- `accept` returns a socket that is not open. -/
def Call.Fresh (w : World) : Call → Prop
  | .listenForClient env => ∀ s, env.accept = some s → s ∉ openSockets w.trace
  | _ => True

@[simp] theorem pushed_append (es es' : List Event) :
    pushed (es ++ es') = pushed es ++ pushed es' :=
  List.filterMap_append

/-- Events that open and push nothing. -/
structure Inert (es : List Event) : Prop where
  pushed : pushed es = []
  opened : ∀ opened : List SOCKET, es.foldl openStep opened = opened

/-- An event of the handling of messages, or of the loop of a broadcast. -/
theorem inert_singleton {e : Event} (h : Handling e ∨ Sending e) : Inert [e] := by
  cases e <;> first | exact ⟨rfl, fun _ => rfl⟩ | exact h.elim False.elim False.elim

theorem inert_of_forall {es : List Event} (h : ∀ e ∈ es, Handling e ∨ Sending e) : Inert es := by
  induction es with
  | nil => exact ⟨rfl, fun _ => rfl⟩
  | cons e es ih =>
      have hfirst := inert_singleton (h e List.mem_cons_self)
      have hrest := ih fun e' he' => h e' (List.mem_cons_of_mem e he')
      refine ⟨?_, fun opened => ?_⟩
      · rw [← List.singleton_append, pushed_append, hfirst.pushed, hrest.pushed, List.append_nil]
      · rw [← List.singleton_append, List.foldl_append, hfirst.opened, hrest.opened]

/-! ## What each call does to the clients -/

/-- **Everything `listenForClient` does.** -/
theorem exec_listenForClient (env : AcceptEnv) (w : World) :
    exec (listenForClient env) w =
      match env.accept with
      | none => (.ok 0, w.record [.accept none])
      | some s =>
          if env.ioctlsocket = SOCKET_ERROR then
            (.ok (-2), w.record [.accept (some s),
              .send s (lit "Hello on the server\n") env.greeting,
              .ioctlsocket s env.ioctlsocket])
          else
            (.ok (w.server.clients.length + 1),
              (w.withClients (w.server.clients ++ [Client.ofSocket s])).record
                [.accept (some s), .send s (lit "Hello on the server\n") env.greeting,
                  .ioctlsocket s env.ioctlsocket, .pushBack s]) := by
  unfold listenForClient
  cases haccept : env.accept with
  | none => simp [exec_map, Except.map]
  | some s =>
      by_cases hioctl : env.ioctlsocket = SOCKET_ERROR
      · simp [exec_bind, exec_map, Except.map, hioctl]
      · simp [exec_bind, exec_map, Except.map, hioctl, World.record, World.withClients]

/-- With clean buffers, `receiveData` handles messages. -/
theorem handles_receiveData (L : Lib) (polls : Nat → PollEnv) {w : World}
    (hclean : ∀ c ∈ w.server.clients, c.Clean) : Handles w (exec (receiveData L polls) w).2 := by
  rw [exec_receiveData L polls hclean]
  exact handles_pollClients L polls w.server.clients 0 w

/-- What a broadcast keeps of the clients it has to visit, and the events of the
visits: a part of them, in order, and a client it does not keep is one whose own
send failed. -/
structure Kept (data : Bytes) (clients kept : List Client) (es : List Event) : Prop where
  sublist : kept.Sublist clients
  sending : ∀ e ∈ es, Sending e
  gone : ∀ s ∈ clients.map Client.sock, s ∉ kept.map Client.sock →
    .send s data SOCKET_ERROR ∈ es

namespace Kept

variable {data : Bytes} {clients kept : List Client} {es : List Event}

theorem nil (data : Bytes) : Kept data [] [] [] := ⟨List.Sublist.refl _, by simp, by simp⟩

/-- The iterator steps over a client. -/
theorem skip (h : Kept data clients kept es) (it : Client) :
    Kept data (it :: clients) (it :: kept) es := by
  refine ⟨h.sublist.cons_cons it, h.sending, fun s hs hgone => ?_⟩
  rw [List.map_cons, List.mem_cons, not_or] at hgone
  rw [List.map_cons, List.mem_cons] at hs
  exact h.gone s (hs.resolve_left hgone.1) hgone.2

/-- A visit whose send does not fail. -/
theorem visit (h : Kept data clients kept es) (it : Client) (result : Int) :
    Kept data (it :: clients) (it :: kept) (.send it.sock data result :: es) := by
  refine ⟨h.sublist.cons_cons it, ?_, fun s hs hgone => ?_⟩
  · exact List.forall_mem_cons.mpr ⟨trivial, h.sending⟩
  · exact List.mem_cons_of_mem _ ((h.skip it).gone s hs hgone)

/-- A visit whose send fails. -/
theorem erase (h : Kept data clients kept es) (it : Client) :
    Kept data (it :: clients) kept
      (.send it.sock data SOCKET_ERROR :: .erase it.sock :: es) := by
  refine ⟨h.sublist.cons it, ?_, fun s hs hgone => ?_⟩
  · exact List.forall_mem_cons.mpr ⟨trivial, List.forall_mem_cons.mpr ⟨trivial, h.sending⟩⟩
  · rcases List.mem_cons.mp hs with rfl | hs
    · exact List.mem_cons_self
    · exact List.mem_cons_of_mem _ (List.mem_cons_of_mem _ (h.gone s hs hgone))

end Kept

/-- **Everything the loop of a broadcast does to the clients**, also when its
iterator leaves the vector. -/
theorem broadcastDataLoop_kept (data : Bytes) (sends : Nat → Int) (n : Nat)
    (before after : List Client) (w : World) (hclients : w.server.clients = before ++ after) :
    ∃ kept es, Kept data after kept es ∧
      (exec (broadcastDataLoop data sends n before after) w).2.server.clients = before ++ kept ∧
      (exec (broadcastDataLoop data sends n before after) w).2.trace = w.trace ++ es := by
  induction n, before, after using broadcastDataLoop.induct generalizing w with
  | case1 n before => exact ⟨[], [], Kept.nil data, hclients, by simp [broadcastDataLoop]⟩
  | case2 n before it after ihskip ih =>
      unfold broadcastDataLoop
      rw [exec_bind_ok (exec_sendTCPData it data (sends n) w)]
      by_cases hfailed : sends n = SOCKET_ERROR
      · rw [if_pos hfailed, exec_bind_ok (exec_log _ _), exec_bind_ok (exec_modify _ _), hfailed]
        cases after with
        | nil =>
            -- the last client is erased, and the iterator leaves the vector
            exact ⟨[], _, (Kept.nil data).erase it, rfl, by simp⟩
        | cons next after =>
            obtain ⟨kept, es, hkept, hafter, htrace⟩ :=
              ihskip (((w.record [.send it.sock data SOCKET_ERROR]).record
                [.erase it.sock]).withClients (before ++ next :: after)) (by simp)
            refine ⟨next :: kept, _, (hkept.skip next).erase it, ?_, ?_⟩
            · simpa using hafter
            · simpa using htrace
      · rw [if_neg hfailed]
        obtain ⟨kept, es, hkept, hafter, htrace⟩ :=
          ih (w.record [.send it.sock data (sends n)]) (by simpa using hclients)
        refine ⟨it :: kept, _, hkept.visit it (sends n), ?_, ?_⟩
        · simpa using hafter
        · simpa using htrace

theorem exec_broadcastData (data : Bytes) (sends : Nat → Int) (w : World) :
    (exec (broadcastData data sends) w).2 =
      (exec (broadcastDataLoop data sends 0 [] w.server.clients)
        (w.record [.broadcast data])).2 := by
  rw [broadcastData, exec_bind_ok (exec_log _ w), exec_bind_ok (exec_get _), exec_bind_pure_snd]
  rfl

/-- A broadcast visits all the clients. -/
theorem broadcastData_kept (data : Bytes) (sends : Nat → Int) (w : World) :
    ∃ kept es, Kept data w.server.clients kept es ∧
      (exec (broadcastData data sends) w).2.server.clients = kept ∧
      (exec (broadcastData data sends) w).2.trace = w.trace ++ .broadcast data :: es := by
  obtain ⟨kept, es, hkept, hclients, htrace⟩ :=
    broadcastDataLoop_kept data sends 0 [] w.server.clients (w.record [.broadcast data]) rfl
  rw [exec_broadcastData]
  exact ⟨kept, es, hkept, hclients, by simp [htrace]⟩

/-- The loop of a broadcast in which no send fails sends to every client, in
order, and does nothing else. -/
theorem exec_broadcastDataLoop_lossless (data : Bytes) (sends : Nat → Int) :
    ∀ (after before : List Client) (n : Nat) (w : World),
      (∀ i, n ≤ i → i < n + after.length → sends i ≠ SOCKET_ERROR) →
      exec (broadcastDataLoop data sends n before after) w =
        (.ok (), w.record ((after.zipIdx n).map fun p => .send p.1.sock data (sends p.2))) := by
  intro after
  induction after with
  | nil => exact fun before n w _ => by simp [broadcastDataLoop]
  | cons it after ih =>
      intro before n w hsends
      have hfirst : sends n ≠ SOCKET_ERROR := hsends n (Nat.le_refl n) (by simp)
      have hrest : ∀ i, n + 1 ≤ i → i < n + 1 + after.length → sends i ≠ SOCKET_ERROR := by
        intro i hlow hhigh
        refine hsends i (by omega) ?_
        rw [List.length_cons]
        omega
      unfold broadcastDataLoop
      rw [exec_bind_ok (exec_sendTCPData it data (sends n) w), if_neg hfirst,
        ih (before ++ [it]) (n + 1) _ hrest]
      simp

/-- Without a failure, each client is sent the data. -/
theorem exec_broadcastData_lossless (data : Bytes) {sends : Nat → Int} {w : World}
    (hsends : ∀ i < w.server.clients.length, sends i ≠ SOCKET_ERROR) :
    exec (broadcastData data sends) w = (.ok (data.length : Int),
      (w.record [.broadcast data]).record
        (w.server.clients.zipIdx.map fun p => .send p.1.sock data (sends p.2))) := by
  have hloop := exec_broadcastDataLoop_lossless data sends w.server.clients [] 0
    (w.record [.broadcast data]) fun i _ hi => hsends i (by omega)
  rw [broadcastData, exec_bind_ok (exec_log _ w), exec_bind_ok (exec_get _),
    World.record_server, exec_bind_ok hloop]
  rfl

/-- What a call does to the clients and the trace, when the buffers are clean. -/
inductive CallEffect (w : World) : Call → World → Prop
  /-- No socket is accepted, and messages are handled. -/
  | unchanged {c : Call} {w' : World} {es : List Event} :
      w'.server.clients = w.server.clients → w'.trace = w.trace ++ es → Inert es →
      CallEffect w c w'
  /-- A socket that stays blocking is accepted, and neither pushed nor closed. -/
  | lost {env : AcceptEnv} {s : SOCKET} : env.accept = some s → env.ioctlsocket = SOCKET_ERROR →
      CallEffect w (.listenForClient env) (w.record [.accept (some s),
        .send s (lit "Hello on the server\n") env.greeting, .ioctlsocket s env.ioctlsocket])
  /-- A socket is accepted and pushed. -/
  | accepted {env : AcceptEnv} {s : SOCKET} :
      env.accept = some s → env.ioctlsocket ≠ SOCKET_ERROR →
      CallEffect w (.listenForClient env)
        ((w.withClients (w.server.clients ++ [Client.ofSocket s])).record [.accept (some s),
          .send s (lit "Hello on the server\n") env.greeting, .ioctlsocket s env.ioctlsocket,
          .pushBack s])
  /-- A broadcast visits the clients, and keeps them all when no send fails. -/
  | broadcast {data : Bytes} {sends : Nat → Int} {kept : List Client} {es : List Event}
      {w' : World} : Kept data w.server.clients kept es → w'.server.clients = kept →
      w'.trace = w.trace ++ .broadcast data :: es →
      ((∀ i < w.server.clients.length, sends i ≠ SOCKET_ERROR) → kept = w.server.clients) →
      CallEffect w (.broadcastData data sends) w'

/-- **Everything a call does**, however it ends. -/
theorem Call.effect (L : Lib) {w : World} (hclean : ∀ c ∈ w.server.clients, c.Clean) (c : Call) :
    CallEffect w c (exec (c.run L) w).2 := by
  cases c with
  | listenForClient env =>
      rw [Call.run, exec_bind_pure_snd, exec_listenForClient]
      cases haccept : env.accept with
      | none => exact .unchanged rfl rfl ⟨rfl, fun _ => rfl⟩
      | some s =>
          by_cases hioctl : env.ioctlsocket = SOCKET_ERROR
          · simp only [if_pos hioctl]
            exact .lost haccept hioctl
          · simp only [if_neg hioctl]
            exact .accepted haccept hioctl
  | receiveData polls =>
      obtain ⟨hserver, es, htrace, hes⟩ := handles_receiveData L polls hclean
      have hinert := inert_of_forall fun e he => Or.inl (hes e he)
      exact .unchanged (congrArg TCPServer.clients hserver) htrace hinert
  | broadcastData data sends =>
      rw [Call.run, exec_bind_pure_snd]
      obtain ⟨kept, es, hkept, hclients, htrace⟩ := broadcastData_kept data sends w
      refine .broadcast hkept hclients htrace fun hsends => ?_
      rw [exec_broadcastData_lossless data hsends] at hclients
      exact hclients.symm

/-! ## The clients of a run -/

/-- A server that has not accepted a connection yet. -/
structure Idle (w : World) : Prop where
  clients : w.server.clients = []
  pushed : pushed w.trace = []
  opened : openSockets w.trace = []

/-- The clients are distinct, in the order in which they were pushed, and their
sockets are open. -/
structure Tidy (w : World) : Prop where
  clean : ∀ c ∈ w.server.clients, c.Clean
  nodup : (sockets w).Nodup
  order : (sockets w).Sublist (pushed w.trace)
  opened : sockets w ⊆ openSockets w.trace

theorem Idle.tidy {w : World} (h : Idle w) : Tidy w := by
  have hsockets : sockets w = [] := by simp [sockets, h.clients]
  exact ⟨by simp [h.clients], by simp [hsockets], by simp [hsockets], by simp [hsockets]⟩

theorem clean_push {clients : List Client} (h : ∀ c ∈ clients, c.Clean) (s : SOCKET) :
    ∀ c ∈ clients ++ [Client.ofSocket s], c.Clean := by
  intro c hc
  rcases List.mem_append.mp hc with hc | hc
  · exact h c hc
  · rw [List.mem_singleton.mp hc]
    exact Client.clean_ofSocket s

theorem sockets_push (w : World) (s : SOCKET) (es : List Event) :
    sockets ((w.withClients (w.server.clients ++ [Client.ofSocket s])).record es) =
      sockets w ++ [s] := by
  simp [sockets, Client.ofSocket]

theorem openSockets_append (es es' : List Event) :
    openSockets (es ++ es') = es'.foldl openStep (openSockets es) :=
  List.foldl_append

namespace Tidy

variable {w w' : World} {es : List Event}

/-- Clients may leave, and nothing be pushed or closed. -/
theorem shrink (h : Tidy w) (hclients : w'.server.clients.Sublist w.server.clients)
    (htrace : w'.trace = w.trace ++ es) (hpushed : Networking.pushed es = [])
    (hopened : ∀ opened : List SOCKET, opened ⊆ es.foldl openStep opened) : Tidy w' := by
  have hsockets : (sockets w').Sublist (sockets w) := hclients.map Client.sock
  refine ⟨fun c hc => h.clean c (hclients.subset hc), hsockets.nodup h.nodup, ?_, ?_⟩
  · rw [htrace, pushed_append, hpushed, List.append_nil]
    exact hsockets.trans h.order
  · rw [htrace, openSockets_append]
    exact fun s hs => hopened _ (h.opened (hsockets.subset hs))

theorem shrink_inert (h : Tidy w) (hclients : w'.server.clients.Sublist w.server.clients)
    (htrace : w'.trace = w.trace ++ es) (hinert : Inert es) : Tidy w' := by
  refine h.shrink hclients htrace hinert.pushed fun opened => ?_
  rw [hinert.opened]
  exact List.Subset.refl _

/-- A socket that is not open is accepted and pushed. -/
theorem push (h : Tidy w) {s : SOCKET} {text : Bytes} {greeting ioctlsocket : Int}
    (hfresh : s ∉ openSockets w.trace) :
    Tidy ((w.withClients (w.server.clients ++ [Client.ofSocket s])).record
      [.accept (some s), .send s text greeting, .ioctlsocket s ioctlsocket, .pushBack s]) := by
  refine ⟨clean_push h.clean s, ?_, ?_, ?_⟩
  · have hnew : s ∉ sockets w := fun hs => hfresh (h.opened hs)
    rw [sockets_push, List.nodup_append]
    refine ⟨h.nodup, by simp, fun a ha b hb => ?_⟩
    rw [List.mem_singleton.mp hb]
    exact ne_of_mem_of_not_mem ha hnew
  · rw [sockets_push, World.record_trace, pushed_append]
    exact h.order.append (List.Sublist.refl [s])
  · rw [sockets_push, World.record_trace, openSockets_append]
    intro s' hs'
    rcases List.mem_append.mp hs' with hs' | hs'
    · exact List.mem_cons_of_mem s (h.opened hs')
    · rw [List.mem_singleton.mp hs']
      exact List.mem_cons_self

/-- The three calls keep the clients tidy, however they end. -/
theorem call (h : Tidy w) (L : Lib) (c : Call) (hfresh : c.Fresh w) :
    Tidy (exec (c.run L) w).2 := by
  have heffect := c.effect L h.clean
  generalize (exec (c.run L) w).2 = w' at heffect ⊢
  cases heffect with
  | unchanged hclients htrace hinert =>
      exact h.shrink_inert (hclients ▸ List.Sublist.refl _) htrace hinert
  | @lost env s haccept hioctl =>
      refine h.shrink (List.Sublist.refl _) rfl rfl fun opened => ?_
      exact List.subset_cons_self s opened
  | @accepted env s haccept hioctl => exact h.push (hfresh s haccept)
  | broadcast hkept hclients htrace _ =>
      have hinert := inert_of_forall fun e he => Or.inr (hkept.sending e he)
      exact h.shrink_inert (hclients ▸ hkept.sublist) htrace ⟨hinert.pushed, hinert.opened⟩

end Tidy

/-- A client leaves in a broadcast whose send to it failed, and in no other
call. -/
theorem call_gone {L : Lib} {w : World} (h : Tidy w) {c : Call} {s : SOCKET}
    (hs : s ∈ sockets w) (hgone : s ∉ sockets (exec (c.run L) w).2) :
    ∃ data sends es, c = .broadcastData data sends ∧
      (exec (c.run L) w).2.trace = w.trace ++ es ∧ .send s data SOCKET_ERROR ∈ es := by
  have heffect := c.effect L h.clean
  generalize (exec (c.run L) w).2 = w' at heffect hgone ⊢
  cases heffect with
  | unchanged hclients _ _ =>
      rw [sockets, hclients] at hgone
      exact absurd hs hgone
  | lost _ _ => exact absurd hs hgone
  | accepted _ _ =>
      rw [sockets_push] at hgone
      exact absurd (List.mem_append_left _ hs) hgone
  | broadcast hkept hclients htrace _ =>
      rw [sockets, hclients] at hgone
      exact ⟨_, _, _, rfl, htrace, List.mem_cons_of_mem _ (hkept.gone s hs hgone)⟩

/-- A step of a run whose `accept` returns no open socket. -/
def Call.Step (L : Lib) (w : World) (c : Call) (w' : World) : Prop :=
  c.Fresh w ∧ Leads (c.run L) w w'

/-- **No healthy client is dropped, duplicated or reordered**: in every state of
a run and after its next call, which may end in undefined behaviour, the clients
are distinct and in the order in which they were pushed, and only a failed send
to a client removes it. -/
theorem clients_of_run {L : Lib} {w₀ w : World} {calls : List Call} (hidle : Idle w₀)
    (hrun : Run (Call.Step L) w₀ calls w) :
    (sockets w).Nodup ∧ (sockets w).Sublist (pushed w.trace) ∧
      ∀ c : Call, c.Fresh w →
        (sockets (exec (c.run L) w).2).Nodup ∧
        (sockets (exec (c.run L) w).2).Sublist (pushed (exec (c.run L) w).2.trace) ∧
        ∀ s ∈ sockets w, s ∉ sockets (exec (c.run L) w).2 →
          ∃ data sends es, c = .broadcastData data sends ∧
            (exec (c.run L) w).2.trace = w.trace ++ es ∧ .send s data SOCKET_ERROR ∈ es := by
  have htidy : Tidy w := by
    refine hrun.invariant (fun w c w' h hstep => ?_) hidle.tidy
    rw [← hstep.2.1]
    exact h.call L c hstep.1
  refine ⟨htidy.nodup, htidy.order, fun c hfresh => ?_⟩
  have hnext := htidy.call L c hfresh
  exact ⟨hnext.nodup, hnext.order, fun s hs hgone => call_gone htidy hs hgone⟩

/-! ## Leaks -/

/-- Every socket that `accept` returned is a client's, or was closed since. -/
def NoLeak (w : World) : Prop :=
  ∀ before s after, w.trace = before ++ .accept (some s) :: after →
    s ∈ sockets w ∨ .closesocket s ∈ after

/-- The outside answers under which a call loses no socket: an accepted one can
be made non-blocking, and the send to every client succeeds. -/
def Call.Lossless (w : World) : Call → Prop
  | .listenForClient env => ∀ s, env.accept = some s → env.ioctlsocket ≠ SOCKET_ERROR
  | .receiveData _ => True
  | .broadcastData _ sends => ∀ i < w.server.clients.length, sends i ≠ SOCKET_ERROR

/-- A socket that is open stays open until it is closed. -/
theorem mem_foldl_openStep {s : SOCKET} :
    ∀ (es : List Event) (opened : List SOCKET),
      s ∈ opened → .closesocket s ∉ es → s ∈ es.foldl openStep opened := by
  intro es
  induction es with
  | nil => exact fun _ h _ => h
  | cons e es ih =>
      intro opened hopened hclosed
      rw [List.mem_cons, not_or] at hclosed
      refine ih _ ?_ hclosed.2
      cases e with
      | accept result =>
          cases result with
          | none => exact hopened
          | some s' => exact List.mem_cons_of_mem s' hopened
      | closesocket s' =>
          refine List.mem_filter.mpr ⟨hopened, ?_⟩
          have hother : s ≠ s' := fun h => hclosed.1 (h ▸ rfl)
          simpa using hother
      | _ => exact hopened

/-- The open sockets are those of the clients. -/
structure Balanced (w : World) : Prop where
  clean : ∀ c ∈ w.server.clients, c.Clean
  owned : openSockets w.trace ⊆ sockets w

theorem Idle.balanced {w : World} (h : Idle w) : Balanced w :=
  ⟨by simp [h.clients], by simp [h.opened]⟩

theorem Balanced.noLeak {w : World} (h : Balanced w) : NoLeak w := by
  intro before s after htrace
  by_cases hclosed : Event.closesocket s ∈ after
  · exact Or.inr hclosed
  · left
    apply h.owned
    rw [htrace, openSockets_append]
    exact mem_foldl_openStep after _ List.mem_cons_self hclosed

/-- Nothing is accepted, closed, pushed or erased. -/
theorem Balanced.of_inert {w w' : World} {es : List Event} (h : Balanced w)
    (hclients : w'.server.clients = w.server.clients) (htrace : w'.trace = w.trace ++ es)
    (hinert : Inert es) : Balanced w' := by
  have hsockets : sockets w' = sockets w := congrArg (List.map Client.sock) hclients
  refine ⟨hclients ▸ h.clean, ?_⟩
  rw [htrace, openSockets_append, hinert.opened, hsockets]
  exact h.owned

/-- A socket is accepted and pushed. -/
theorem Balanced.push {w : World} (h : Balanced w) {s : SOCKET} {text : Bytes}
    {greeting ioctlsocket : Int} :
    Balanced ((w.withClients (w.server.clients ++ [Client.ofSocket s])).record
      [.accept (some s), .send s text greeting, .ioctlsocket s ioctlsocket, .pushBack s]) := by
  refine ⟨clean_push h.clean s, ?_⟩
  rw [sockets_push, World.record_trace, openSockets_append]
  intro s' hs'
  rcases List.mem_cons.mp hs' with rfl | hs'
  · exact List.mem_append_right _ (List.mem_singleton_self s')
  · exact List.mem_append_left _ (h.owned hs')

/-- A lossless call keeps the open sockets those of the clients. -/
theorem Balanced.call {L : Lib} {w : World} (h : Balanced w) {c : Call} (hc : c.Lossless w) :
    Balanced (exec (c.run L) w).2 := by
  have heffect := c.effect L h.clean
  generalize (exec (c.run L) w).2 = w' at heffect ⊢
  cases heffect with
  | unchanged hclients htrace hinert => exact h.of_inert hclients htrace hinert
  | @lost env s haccept hioctl => exact absurd hioctl (hc s haccept)
  | accepted _ _ => exact h.push
  | broadcast hkept hclients htrace hall =>
      have hinert := inert_of_forall fun e he => Or.inr (hkept.sending e he)
      exact h.of_inert (hclients.trans (hall hc)) htrace ⟨hinert.pushed, hinert.opened⟩

/-- **No accepted connection leaks**, in a run in which no accepted socket fails
to become non-blocking and no send of a broadcast fails. -/
theorem noLeak_of_run {L : Lib} {w₀ w : World} {calls : List Call} (hidle : Idle w₀)
    (hrun : Run (fun w c w' => c.Lossless w ∧ Leads (c.run L) w w') w₀ calls w) : NoLeak w := by
  refine (hrun.invariant (fun w c w' h hstep => ?_) hidle.balanced).noLeak
  rw [← hstep.2.1]
  exact h.call hstep.1

/-! ## Runs of a started server -/

theorem idle_of_started {w : World} (h : Started w) : Idle w := by
  obtain ⟨hclients, -, -, htrace⟩ := h.tables
  have hopened : ∀ es : List Event, (∀ e ∈ es, startupEvent e) → es.foldl openStep [] = [] := by
    intro es
    induction es with
    | nil => exact fun _ => rfl
    | cons e es ih =>
        intro hes
        have hkind := hes e List.mem_cons_self
        have htail := ih fun e' he' => hes e' (List.mem_cons_of_mem e he')
        cases e <;> first | exact htail | cases hkind
  refine ⟨hclients, List.filterMap_eq_nil_iff.mpr fun e he => ?_, hopened _ htrace⟩
  have hkind := htrace e he
  cases e <;> first | rfl | cases hkind

/-- A library for servers that receive nothing. -/
def quietLib : Lib := .ofJson (.ofTable [])

/-- Calls of the started server: two connections and two broadcasts, of which
the second fails for the first client. -/
def acceptCall (s : SOCKET) : Call := .listenForClient ⟨some s, 20, 0⟩
def broadcastCall : Call := .broadcastData (lit "a : 1\n") fun _ => 6
def failingBroadcast : Call :=
  .broadcastData (lit "a : 1\n") fun n => if n = 0 then SOCKET_ERROR else 6

/-- The started server after some calls. -/
def serverAfter (calls : List Call) : World :=
  calls.foldl (fun w c => (exec (c.run quietLib) w).2) .started

/-- Two connections, and the broadcast that fails for the first one. -/
theorem clients_of_run_sample :
    (sockets (serverAfter [acceptCall 7, acceptCall 8, failingBroadcast])).Nodup := by
  have hfirst : Call.Step quietLib .started (acceptCall 7) (serverAfter [acceptCall 7]) :=
    ⟨fun s hs => by simp [(idle_of_started started_started).opened],
      leads_of_ok (show _ = Except.ok () from rfl)⟩
  have hsecond : Call.Step quietLib (serverAfter [acceptCall 7]) (acceptCall 8)
      (serverAfter [acceptCall 7, acceptCall 8]) := by
    refine ⟨fun s hs => ?_, leads_of_ok (show _ = Except.ok () from rfl)⟩
    have hopened : openSockets (serverAfter [acceptCall 7]).trace = [7] := rfl
    rw [hopened, ← Option.some.inj hs]
    decide
  have hrun := Run.snoc (Run.snoc (Run.nil _) hfirst) hsecond
  obtain ⟨-, -, hnext⟩ := clients_of_run (idle_of_started started_started) hrun
  exact (hnext failingBroadcast trivial).1

/-- A connection and a broadcast without a failure. -/
theorem noLeak_of_run_sample : NoLeak (serverAfter [acceptCall 7, broadcastCall]) := by
  have hfirst : (acceptCall 7).Lossless .started ∧
      Leads ((acceptCall 7).run quietLib) .started (serverAfter [acceptCall 7]) :=
    ⟨fun _ _ => by decide, leads_of_ok (show _ = Except.ok () from rfl)⟩
  have hsecond : broadcastCall.Lossless (serverAfter [acceptCall 7]) ∧
      Leads (broadcastCall.run quietLib) (serverAfter [acceptCall 7])
        (serverAfter [acceptCall 7, broadcastCall]) :=
    ⟨fun _ _ => (by decide : (6 : Int) ≠ SOCKET_ERROR),
      leads_of_ok (show _ = Except.ok () from rfl)⟩
  exact noLeak_of_run (idle_of_started started_started)
    (Run.snoc (Run.snoc (Run.nil _) hfirst) hsecond)

/-- A connection that cannot be made non-blocking leaks, and so does a client
whose send failed. -/
theorem not_noLeak_samples :
    ¬ NoLeak (serverAfter [.listenForClient ⟨some 7, 20, SOCKET_ERROR⟩]) ∧
      ¬ NoLeak (serverAfter [acceptCall 7, acceptCall 8, failingBroadcast]) := by
  constructor
  · intro h
    rcases h World.started.trace 7 _ rfl with hclient | hclosed
    · cases hclient
    · simp at hclosed
  · intro h
    have hsockets : sockets (serverAfter [acceptCall 7, acceptCall 8, failingBroadcast]) = [8] :=
      rfl
    rcases h World.started.trace 7 _ rfl with hclient | hclosed
    · rw [hsockets] at hclient
      revert hclient
      decide
    · simp at hclosed

end XplaneServer.Networking
