/-
  Networking/Failures.lean --- broadcasts to clients whose sends fail.

  By the standard a broadcast is undefined after its first failed send.  Where an
  iterator is a position, as in `Networking.TCPServer`, the loop is a walk that erases
  and steps over (`Foundation.Erasing`), so whom it reaches depends on the broken
  clients in a row (`broadcastData_exact`).  Over a run this is less harmful than over
  one call: where the sends to a socket always fail or never do, every broadcast takes
  away half of the broken clients at least (`broken_of_run`), and a client that is
  stepped over moves up, so it misses no more broadcasts than clients were before it
  (`missed_of_run`).
-/
import XplaneServer.Foundation.Erasing
import XplaneServer.Networking.Broadcast
import XplaneServer.Networking.Checked

set_option autoImplicit false

namespace XplaneServer.Networking

open Foundation

/-- The sends to the socket of a client fail. -/
def broken (answer : SOCKET → Int) (c : Client) : Bool := answer c.sock == SOCKET_ERROR

/-- A client is visited. -/
def visit (data : Bytes) (answer : SOCKET → Int) (c : Client) : List Event :=
  .send c.sock data (answer c.sock) :: if broken answer c then [.erase c.sock] else []

/-- The loop, with the results of its sends. -/
theorem exec_broadcastDataLoop_answer (data : Bytes) (answer : SOCKET → Int) (sends : Nat → Int)
    (n : Nat) (before after : List Client) (w : World)
    (hclients : w.server.clients = before ++ after)
    (hsends : ∀ k c, (visited (broken answer) false after)[k]? = some c →
      sends (n + k) = answer c.sock) :
    exec (broadcastDataLoop data sends n before after) w =
      (if overruns (broken answer) false after then .error (.ub .iterator) else .ok (),
        (w.withClients (before ++ survivors (broken answer) false after)).record
          ((visited (broken answer) false after).flatMap (visit data answer))) := by
  induction n, before, after using broadcastDataLoop.induct generalizing w with
  | case1 n before =>
      rw [List.append_nil] at hclients
      simp [broadcastDataLoop, overruns, survivors, visited, ← hclients, World.withClients]
  | case2 n before it after ihskip ih =>
      have hfirst : sends n = answer it.sock := hsends 0 it rfl
      have hrest : ∀ k c, (visited (broken answer) (broken answer it) after)[k]? = some c →
          sends (n + 1 + k) = answer c.sock := by
        intro k c hc
        rw [Nat.add_assoc, Nat.add_comm 1 k]
        exact hsends (k + 1) c hc
      unfold broadcastDataLoop
      rw [exec_bind_ok (exec_sendTCPData it data (sends n) w), hfirst]
      cases hbroken : broken answer it with
      | true =>
          have hfailed : answer it.sock = SOCKET_ERROR := by simpa [broken] using hbroken
          rw [if_pos hfailed, exec_bind_ok (exec_log _ _), exec_bind_ok (exec_modify _ _)]
          rw [hbroken] at hrest
          cases after with
          | nil =>
              simp [overruns, survivors, visited, visit, hbroken, World.withClients, World.record]
          | cons next after =>
              rw [ihskip _ (by simp) hrest]
              simp [overruns, survivors, visited, visit, hbroken, World.withClients, World.record]
      | false =>
          have hsent : answer it.sock ≠ SOCKET_ERROR := by simpa [broken] using hbroken
          rw [hbroken] at hrest
          rw [if_neg hsent, ih _ (by simpa using hclients) hrest]
          simp [overruns, survivors, visited, visit, hbroken, World.withClients, World.record]

/-- Whom a broadcast reaches: an even number of broken clients are directly before
the client. -/
def reached (answer : SOCKET → Int) (clients : List Client) : List Client :=
  selectBy (fun before _ => trailing (broken answer) before % 2 == 0) clients

/-- Whom it leaves: it erases the broken clients among those it reaches. -/
def remaining (answer : SOCKET → Int) (clients : List Client) : List Client :=
  selectBy (fun before c => !(trailing (broken answer) before % 2 == 0 && broken answer c))
    clients

/-- The result of every send that is made is that of its socket. -/
def Agrees (answer : SOCKET → Int) (sends : Nat → Int) (clients : List Client) : Prop :=
  ∀ p ∈ (reached answer clients).zipIdx, sends p.2 = answer p.1.sock

/-- A broadcast whose sends have these results. -/
theorem exec_broadcastData_agrees (data : Bytes) {answer : SOCKET → Int} {sends : Nat → Int}
    {w : World} (hsends : Agrees answer sends w.server.clients) :
    exec (broadcastData data sends) w =
      (if trailing (broken answer) w.server.clients % 2 = 0 then .ok (data.length : Int)
        else .error (.ub .iterator),
        ((w.record [.broadcast data]).withClients (remaining answer w.server.clients)).record
          ((reached answer w.server.clients).flatMap (visit data answer))) := by
  unfold Agrees reached at hsends
  rw [← visited_eq_filter] at hsends
  have hloop := exec_broadcastDataLoop_answer data answer sends 0 [] w.server.clients
    (w.record [.broadcast data]) rfl (fun k c hc => by
      rw [Nat.zero_add]
      exact hsends (c, k) (List.mem_zipIdx_iff_getElem?.mpr hc))
  rw [overruns_eq, survivors_eq_filter, visited_eq_filter, List.nil_append] at hloop
  rw [broadcastData, exec_bind_ok (exec_log _ w), exec_bind_ok (exec_get _), World.record_server,
    exec_bind, hloop]
  unfold remaining reached
  by_cases heven : trailing (broken answer) w.server.clients % 2 = 0
  · simp [heven]
  · simp [heven]

/-- The walk over clients with distinct sockets has such an answer, whatever the
results of its sends. -/
theorem exists_answer (sends : Nat → Int) (skip : Bool) (clients : List Client) (n : Nat)
    (hnodup : (clients.map Client.sock).Nodup) :
    ∃ answer : SOCKET → Int, ∀ k c, (visited (broken answer) skip clients)[k]? = some c →
      sends (n + k) = answer c.sock := by
  induction clients generalizing skip n with
  | nil =>
      refine ⟨fun _ => 0, fun k c hc => ?_⟩
      cases skip <;> simp [visited] at hc
  | cons it after ih =>
      rw [List.map_cons, List.nodup_cons] at hnodup
      cases skip with
      | true => exact ih false n hnodup.2
      | false =>
          obtain ⟨answer, hanswer⟩ := ih (sends n == SOCKET_ERROR) (n + 1) hnodup.2
          have hother : ∀ c ∈ after, c.sock ≠ it.sock := fun c hc h =>
            hnodup.1 (h ▸ List.mem_map_of_mem hc)
          refine ⟨fun s => if s = it.sock then sends n else answer s, fun k c hc => ?_⟩
          have hfirst : broken (fun s => if s = it.sock then sends n else answer s) it =
              (sends n == SOCKET_ERROR) := by simp [broken]
          have hrest : visited (broken fun s => if s = it.sock then sends n else answer s)
              (sends n == SOCKET_ERROR) after = visited (broken answer) (sends n == SOCKET_ERROR)
                after := by
            apply visited_congr
            intro c hc
            simp [broken, hother c hc]
          rw [visited, hfirst, hrest] at hc
          cases k with
          | zero =>
              obtain rfl : it = c := Option.some.inj hc
              simp
          | succ k =>
              have hc' : (visited (broken answer) (sends n == SOCKET_ERROR) after)[k]? = some c :=
                hc
              have hmem := (visited_sublist _ _).subset (List.mem_of_getElem? hc')
              have hsent := hanswer k c hc'
              rw [Nat.add_assoc, Nat.add_comm 1 k] at hsent
              simpa [hother c hmem] using hsent

/-- The results of the sends of a broadcast are always those of some sockets. -/
theorem exists_agrees (sends : Nat → Int) {w : World} (hnodup : (sockets w).Nodup) :
    ∃ answer, Agrees answer sends w.server.clients := by
  obtain ⟨answer, hanswer⟩ := exists_answer sends false w.server.clients 0 hnodup
  refine ⟨answer, fun p hp => ?_⟩
  unfold reached at hp
  rw [← visited_eq_filter, List.mem_zipIdx_iff_getElem?] at hp
  simpa using hanswer p.2 p.1 hp

/-- **A broadcast, exactly.**  Where an iterator is a position, its sends have the
results of the sockets they go to, and these determine whom it sends the data, whom it
erases, and that its iterator leaves the vector, which is when an odd number of broken
clients are at the end.  By the standard it is undefined as soon as a send fails: after
the clients up to the first such one, which it erases.  Without a failure both are the
same. -/
theorem broadcastData_exact (data : Bytes) (sends : Nat → Int) {w : World}
    (hnodup : (sockets w).Nodup) :
    (∃ answer, Agrees answer sends w.server.clients) ∧
      (∀ answer, Agrees answer sends w.server.clients →
        exec (broadcastData data sends) w =
          (if trailing (broken answer) w.server.clients % 2 = 0 then .ok (data.length : Int)
            else .error (.ub .iterator),
            ((w.record [.broadcast data]).withClients
              (remaining answer w.server.clients)).record
                ((reached answer w.server.clients).flatMap (visit data answer)))) ∧
      ((∃ u, (exec (Checked.broadcastData data sends) w).1 = .error (.ub u)) ↔
        ∃ n < w.server.clients.length, sends n = SOCKET_ERROR) ∧
      ((∀ n < w.server.clients.length, sends n ≠ SOCKET_ERROR) →
        exec (Checked.broadcastData data sends) w = exec (broadcastData data sends) w) ∧
      ∀ before it after, w.server.clients = before ++ it :: after →
        (∀ n < before.length, sends n ≠ SOCKET_ERROR) → sends before.length = SOCKET_ERROR →
        exec (Checked.broadcastData data sends) w =
          (.error (.ub .iterator),
            (w.withClients (before ++ after)).record
              (.broadcast data :: Checked.sendAll data sends 0 (before ++ [it]) ++
                [.erase it.sock])) := by
  refine ⟨exists_agrees sends hnodup, fun _ hagrees => exec_broadcastData_agrees data hagrees,
    ?_, fun hsends => (Checked.exec_broadcastData_defined data hsends).2,
    fun _ _ _ hclients hsends hfailed =>
      Checked.exec_broadcastData_fails data hclients hsends hfailed⟩
  rw [Checked.broadcastData_result]
  by_cases hfailed : ∃ n < w.server.clients.length, sends n = SOCKET_ERROR
  · simp [hfailed]
  · simp [hfailed]

/-- Four clients of which the second and the third are broken.  Where an iterator is a
position, the second is erased, the third is stepped over, and the fourth is sent the
data; by the standard the broadcast is undefined after the second. -/
theorem broadcastData_exact_sample :
    sockets (exec (broadcastData (lit "a : 1\n") fun n => if n = 1 then SOCKET_ERROR else 6)
        (serverAfter [acceptCall 6, acceptCall 7, acceptCall 8, acceptCall 9])).2 = [6, 8, 9] ∧
      (exec (Checked.broadcastData (lit "a : 1\n") fun n => if n = 1 then SOCKET_ERROR else 6)
        (serverAfter [acceptCall 6, acceptCall 7, acceptCall 8, acceptCall 9])).1 =
          .error (.ub .iterator) := by
  have hnodup : (sockets (serverAfter [acceptCall 6, acceptCall 7, acceptCall 8,
      acceptCall 9])).Nodup := by
    decide
  have hagrees : Agrees (fun s => if s = 7 ∨ s = 8 then SOCKET_ERROR else 6)
      (fun n => if n = 1 then SOCKET_ERROR else 6)
      (serverAfter [acceptCall 6, acceptCall 7, acceptCall 8, acceptCall 9]).server.clients := by
    unfold Agrees
    decide
  obtain ⟨-, hpositions, -, -, hchecked⟩ := broadcastData_exact (lit "a : 1\n")
    (fun n => if n = 1 then SOCKET_ERROR else 6) hnodup
  constructor
  · rw [hpositions _ hagrees]
    rfl
  · rw [hchecked [.ofSocket 6] (.ofSocket 7) [.ofSocket 8, .ofSocket 9] rfl (by decide) rfl]

/-! ## Broken clients over a run -/

/-- The sends of a broadcast have the results of their sockets. -/
def Call.Answers (answer : SOCKET → Int) (w : World) : Call → Prop
  | .broadcastData _ sends => Agrees answer sends w.server.clients
  | _ => True

/-- A broadcast. -/
def Call.isBroadcast : Call → Bool
  | .broadcastData .. => true
  | _ => false

/-- Clean buffers stay clean. -/
theorem clean_call {L : Lib} {w : World} (hclean : ∀ c ∈ w.server.clients, c.Clean) (c : Call) :
    ∀ d ∈ (exec (c.run L) w).2.server.clients, d.Clean := by
  have heffect := c.effect L hclean
  generalize (exec (c.run L) w).2 = w' at heffect ⊢
  cases heffect with
  | unchanged hclients _ _ =>
      rw [hclients]
      exact hclean
  | lost _ _ => exact hclean
  | @accepted env s _ _ => exact clean_push hclean s
  | broadcast hkept hclients _ _ =>
      rw [hclients]
      exact fun d hd => hclean d (hkept.sublist.subset hd)

/-- The broken ones among the clients, and among the sockets that were pushed. -/
def brokenClients (answer : SOCKET → Int) (w : World) : Nat :=
  w.server.clients.countP (broken answer)

def brokenPushes (answer : SOCKET → Int) (w : World) : Nat :=
  (pushed w.trace).countP fun s => answer s == SOCKET_ERROR

/-- The visits of a broadcast push nothing. -/
theorem pushed_visits (data : Bytes) (answer : SOCKET → Int) (clients : List Client) :
    pushed (clients.flatMap (visit data answer)) = [] := by
  induction clients with
  | nil => rfl
  | cons c clients ih =>
      rw [List.flatMap_cons, pushed_append, ih, List.append_nil]
      unfold visit
      split <;> rfl

/-- A broadcast leaves at most half of the broken clients. -/
theorem count_remaining (answer : SOCKET → Int) (clients : List Client) :
    (remaining answer clients).countP (broken answer) ≤ clients.countP (broken answer) / 2 := by
  have hcount := count_survivors (broken answer) false clients
  rw [survivors_eq_filter, Bool.toNat_false] at hcount
  unfold remaining
  omega

/-- What a call does to the number of broken clients. -/
theorem brokenClients_call {L : Lib} {answer : SOCKET → Int} {w : World}
    (hclean : ∀ c ∈ w.server.clients, c.Clean) {c : Call} (hc : c.Answers answer w) :
    brokenPushes answer w ≤ brokenPushes answer (exec (c.run L) w).2 ∧
      brokenClients answer (exec (c.run L) w).2 + brokenPushes answer w ≤
        (if c.isBroadcast then brokenClients answer w / 2 else brokenClients answer w) +
          brokenPushes answer (exec (c.run L) w).2 := by
  cases c with
  | listenForClient env =>
      rw [Call.run, exec_bind_pure_snd, exec_listenForClient]
      cases haccept : env.accept with
      | none => simp [brokenPushes, brokenClients, pushed, Call.isBroadcast]
      | some s =>
          by_cases hioctl : env.ioctlsocket = SOCKET_ERROR
          · simp [hioctl, brokenPushes, brokenClients, pushed, Call.isBroadcast]
          · have hpushed : pushed [.accept (some s),
                .send s (lit "Hello on the server\n") env.greeting,
                .ioctlsocket s env.ioctlsocket, .pushBack s] = [s] := rfl
            have hsame : List.countP (broken answer) [Client.ofSocket s] =
                List.countP (fun s => answer s == SOCKET_ERROR) [s] := rfl
            simp only [if_neg hioctl, brokenPushes, brokenClients, World.record_trace,
              World.record_server, World.withClients_clients, World.withClients_trace,
              pushed_append, List.countP_append, hpushed, hsame, Call.isBroadcast]
            simp only [Bool.false_eq_true, if_false]
            omega
  | receiveData polls =>
      obtain ⟨hserver, es, htrace, hes⟩ := handles_receiveData L polls hclean
      have hinert := inert_of_forall fun e he => Or.inl (hes e he)
      simp only [Call.run, Call.isBroadcast, brokenPushes, brokenClients, hserver, htrace,
        pushed_append, hinert.pushed, List.append_nil]
      simp
  | broadcastData data sends =>
      have hhalf := count_remaining answer w.server.clients
      rw [Call.run, exec_bind_pure_snd, exec_broadcastData_agrees data hc]
      simp only [Call.isBroadcast, brokenPushes, brokenClients, World.record_trace,
        World.record_server, World.withClients_clients, World.withClients_trace, pushed_append,
        pushed_visits, List.append_nil, if_true]
      have hmark : pushed [.broadcast data] = [] := rfl
      rw [hmark, List.append_nil]
      omega

/-- **A broken client does not stay.**  In a run in which the sends of broadcasts to a
socket always fail or never do, and iterators are positions, every broadcast takes away
half of the broken clients that were there before it, at least. -/
theorem broken_of_run {L : Lib} {answer : SOCKET → Int} {w w' : World} {calls : List Call}
    (hclean : ∀ c ∈ w.server.clients, c.Clean)
    (hrun : Run (fun w c w' => c.Answers answer w ∧ Leads (c.run L) w w') w calls w') :
    brokenClients answer w' + brokenPushes answer w ≤
      brokenClients answer w / 2 ^ calls.countP Call.isBroadcast + brokenPushes answer w' := by
  have hinduction : (∀ c ∈ w'.server.clients, c.Clean) ∧
      brokenPushes answer w ≤ brokenPushes answer w' ∧
      brokenClients answer w' + brokenPushes answer w ≤
        brokenClients answer w / 2 ^ calls.countP Call.isBroadcast + brokenPushes answer w' := by
    induction hrun with
    | nil => exact ⟨hclean, by simp⟩
    | @snoc v w' calls c hbefore hlast ih =>
        obtain ⟨hanswers, rfl, -⟩ := hlast
        obtain ⟨hclean', hpushes, hcount⟩ := ih
        obtain ⟨hpushes', hcount'⟩ := brokenClients_call (L := L) hclean' hanswers
        refine ⟨clean_call hclean' c, hpushes.trans hpushes', ?_⟩
        rw [List.countP_append, List.countP_singleton]
        cases hkind : c.isBroadcast with
        | false =>
            simp only [hkind, Bool.false_eq_true, if_false, Nat.add_zero] at hcount' ⊢
            omega
        | true =>
            simp only [hkind, if_true] at hcount' ⊢
            rw [Nat.pow_succ, ← Nat.div_div_eq_div_mul]
            omega
  exact hinduction.2.2

/-- Two connections of which the first is broken, and one broadcast. -/
theorem broken_of_run_sample :
    brokenClients (fun s => if s = 7 then SOCKET_ERROR else 6)
        (serverAfter [acceptCall 7, acceptCall 8, failingBroadcast]) +
      brokenPushes (fun s => if s = 7 then SOCKET_ERROR else 6)
        (serverAfter [acceptCall 7, acceptCall 8]) ≤ 1 / 2 ^ 1 + 1 := by
  have hclean : ∀ c ∈ (serverAfter [acceptCall 7, acceptCall 8]).server.clients, c.Clean := by
    have hclients : (serverAfter [acceptCall 7, acceptCall 8]).server.clients =
        [] ++ [Client.ofSocket 7] ++ [Client.ofSocket 8] := rfl
    rw [hclients]
    exact clean_push (clean_push (by simp) 7) 8
  have hstep : failingBroadcast.Answers (fun s => if s = 7 then SOCKET_ERROR else 6)
      (serverAfter [acceptCall 7, acceptCall 8]) ∧
      Leads (failingBroadcast.run quietLib) (serverAfter [acceptCall 7, acceptCall 8])
        (serverAfter [acceptCall 7, acceptCall 8, failingBroadcast]) := by
    refine ⟨?_, leads_of_ok (show _ = Except.ok () from rfl)⟩
    unfold failingBroadcast Call.Answers Agrees
    decide
  exact broken_of_run hclean ((Run.nil _).snoc hstep)

/-! ## Missed broadcasts -/

/-- The call is a broadcast that does not send its data to the socket. -/
def Call.misses (L : Lib) (s : SOCKET) (w : World) : Call → Bool
  | .broadcastData data sends =>
      let events := (exec (Call.run L (.broadcastData data sends)) w).2.trace.drop w.trace.length
      !(transmissions events).any fun t => t.1 = s && t.2.1 = data
  | _ => false

/-- The number of such calls. -/
def missed (L : Lib) (s : SOCKET) : World → List Call → Nat
  | _, [] => 0
  | w, c :: calls => (c.misses L s w).toNat + missed L s (exec (c.run L) w).2 calls

theorem missed_append (L : Lib) (s : SOCKET) (w : World) (calls : List Call) (c : Call) :
    missed L s w (calls ++ [c]) =
      missed L s w calls +
        (c.misses L s (calls.foldl (fun w c => (exec (c.run L) w).2) w)).toNat := by
  induction calls generalizing w with
  | nil => simp [missed]
  | cons d calls ih =>
      rw [List.cons_append, missed, missed, ih, List.foldl_cons, Nat.add_assoc]

/-- What the visits of a broadcast send. -/
theorem transmissions_visits (data : Bytes) (answer : SOCKET → Int) (clients : List Client) :
    transmissions (clients.flatMap (visit data answer)) =
      clients.map fun c => (c.sock, data, answer c.sock) := by
  induction clients with
  | nil => rfl
  | cons c clients ih =>
      rw [List.flatMap_cons, transmissions_append, ih, List.map_cons]
      unfold visit
      split <;> rfl

/-- The place of a socket behind others. -/
theorem idxOf_sock {before after : List Client} {c : Client}
    (hnew : c.sock ∉ before.map Client.sock) :
    ((before ++ c :: after).map Client.sock).idxOf c.sock = before.length := by
  rw [List.map_append, List.map_cons, List.idxOf_append_of_notMem hnew, List.idxOf_cons_self,
    List.length_map, Nat.add_zero]

/-- A broadcast sends to a client that stays, or takes one away that is before it. -/
theorem reached_or_closer (answer : SOCKET → Int) {before after : List Client} {c : Client}
    (hnodup : ((before ++ c :: after).map Client.sock).Nodup)
    (hstays : c.sock ∈ (remaining answer (before ++ c :: after)).map Client.sock) :
    (c ∈ reached answer (before ++ c :: after) ∧
        ((remaining answer (before ++ c :: after)).map Client.sock).idxOf c.sock ≤
          before.length) ∨
      ((remaining answer (before ++ c :: after)).map Client.sock).idxOf c.sock <
        before.length := by
  rw [List.map_append, List.map_cons, List.nodup_append, List.nodup_cons] at hnodup
  obtain ⟨-, ⟨hlast, -⟩, hapart⟩ := hnodup
  have hnew : c.sock ∉ before.map Client.sock := fun h =>
    hapart _ h _ List.mem_cons_self rfl
  have hnewLeft : c.sock ∉ (survivors (broken answer) false before).map Client.sock := fun h =>
    hnew (((survivors_sublist false before).map Client.sock).subset h)
  have hlength := length_survivors (broken answer) false before
  unfold remaining at hstays ⊢
  unfold reached
  rw [← survivors_eq_filter, survivors_append] at hstays ⊢
  rw [← visited_eq_filter, visited_append]
  cases hskip : overruns (broken answer) false before with
  | true =>
      right
      rw [hskip, Bool.toNat_true, Bool.toNat_false] at hlength
      rw [survivors, idxOf_sock hnewLeft]
      omega
  | false =>
      left
      refine ⟨List.mem_append_right _ List.mem_cons_self, ?_⟩
      rw [hskip, Bool.toNat_false] at hlength
      cases hbroken : broken answer c with
      | true =>
          -- it would have been erased, and no other client has its socket
          rw [hskip, survivors, hbroken, if_pos rfl, List.map_append, List.mem_append] at hstays
          rcases hstays with hleft | hright
          · exact absurd hleft hnewLeft
          · exact absurd (((survivors_sublist true after).map Client.sock).subset hright) hlast
      | false =>
          rw [survivors, hbroken, if_neg Bool.false_ne_true, idxOf_sock hnewLeft]
          exact hlength

/-- **Who is stepped over moves up**: a client that stays either is sent the data of
a broadcast, or has one client less before it. -/
theorem misses_call {L : Lib} {w : World} (h : Tidy w) {c : Call} {s : SOCKET}
    (hs : s ∈ sockets w) (hstays : s ∈ sockets (exec (c.run L) w).2) :
    (c.misses L s w).toNat + (sockets (exec (c.run L) w).2).idxOf s ≤ (sockets w).idxOf s := by
  cases c with
  | listenForClient env =>
      have hkind : Call.misses L s w (.listenForClient env) = false := rfl
      rw [hkind, Bool.toNat_false, Nat.zero_add, Call.run, exec_bind_pure_snd,
        exec_listenForClient]
      cases env.accept with
      | none => exact Nat.le_refl _
      | some client =>
          by_cases hioctl : env.ioctlsocket = SOCKET_ERROR
          · simp only [if_pos hioctl]
            exact Nat.le_refl _
          · simp only [if_neg hioctl]
            rw [sockets_push, List.idxOf_append_of_mem hs]
  | receiveData polls =>
      obtain ⟨hserver, -⟩ := handles_receiveData L polls h.clean
      have hsame : sockets (exec (receiveData L polls) w).2 = sockets w :=
        congrArg (fun server => server.clients.map Client.sock) hserver
      have hkind : Call.misses L s w (.receiveData polls) = false := rfl
      rw [hkind, Bool.toNat_false, Nat.zero_add, Call.run, hsame]
  | broadcastData data sends =>
      obtain ⟨answer, hagrees⟩ := exists_agrees sends h.nodup
      obtain ⟨c, hc, rfl⟩ := List.mem_map.mp hs
      obtain ⟨before, after, hclients⟩ := List.append_of_mem hc
      have hnodup := h.nodup
      rw [Call.misses]
      rw [Call.run, exec_bind_pure_snd, exec_broadcastData_agrees data hagrees] at hstays ⊢
      simp only [sockets, World.record_server, World.withClients_clients, World.record_trace,
        World.withClients_trace, hclients, List.append_assoc, List.drop_left] at hstays hnodup ⊢
      have hnew : c.sock ∉ before.map Client.sock := by
        rw [List.map_append, List.map_cons, List.nodup_append] at hnodup
        exact fun hin => hnodup.2.2 _ hin _ List.mem_cons_self rfl
      rw [idxOf_sock hnew, transmissions_append, transmissions_visits]
      rcases reached_or_closer answer hnodup hstays with ⟨hreached, hle⟩ | hlt
      · have hsent : (transmissions [.broadcast data] ++
            (reached answer (before ++ c :: after)).map
              fun c => (c.sock, data, answer c.sock)).any
              (fun t => t.1 = c.sock && t.2.1 = data) = true := by
          rw [List.any_eq_true]
          refine ⟨(c.sock, data, answer c.sock), ?_, by simp⟩
          exact List.mem_append_right _ (List.mem_map_of_mem hreached)
        rw [hsent]
        simpa using hle
      · have hone := Bool.toNat_le (!(transmissions [.broadcast data] ++
            (reached answer (before ++ c :: after)).map
              fun c => (c.sock, data, answer c.sock)).any
              (fun t => t.1 = c.sock && t.2.1 = data))
        omega

/-- An open socket stays open over every call. -/
theorem opened_call {L : Lib} {w : World} (h : Tidy w) {c : Call} {s : SOCKET}
    (hs : s ∈ openSockets w.trace) : s ∈ openSockets (exec (c.run L) w).2.trace := by
  have heffect := c.effect L h.clean
  generalize (exec (c.run L) w).2 = w' at heffect ⊢
  cases heffect with
  | unchanged _ htrace hinert =>
      rw [htrace, openSockets_append, hinert.opened]
      exact hs
  | lost _ _ =>
      rw [World.record_trace, openSockets_append]
      exact List.mem_cons_of_mem _ hs
  | accepted _ _ =>
      rw [World.record_trace, openSockets_append]
      exact List.mem_cons_of_mem _ hs
  | @broadcast data _ _ es _ hkept _ htrace _ =>
      have hinert := inert_of_forall fun e he => Or.inr (hkept.sending e he)
      rw [htrace, openSockets_append, List.foldl_cons, hinert.opened]
      exact hs

/-- A client that is gone does not come back. -/
theorem stayed_call {L : Lib} {w : World} (h : Tidy w) {c : Call} (hfresh : c.Fresh w)
    {s : SOCKET} (hs : s ∈ openSockets w.trace) (hstays : s ∈ sockets (exec (c.run L) w).2) :
    s ∈ sockets w := by
  have heffect := c.effect L h.clean
  generalize (exec (c.run L) w).2 = w' at heffect hstays
  cases heffect with
  | unchanged hclients _ _ =>
      rw [sockets, hclients] at hstays
      exact hstays
  | lost _ _ => exact hstays
  | @accepted env s' haccept _ =>
      rw [sockets_push, List.mem_append, List.mem_singleton] at hstays
      rcases hstays with hold | rfl
      · exact hold
      · exact absurd hs (hfresh s haccept)
  | broadcast hkept hclients _ _ =>
      rw [sockets, hclients] at hstays
      exact (hkept.sublist.map Client.sock).subset hstays

/-- **A client that stays misses no more broadcasts than clients were before it**, where
iterators are positions. -/
theorem missed_of_run {L : Lib} {w w' : World} {calls : List Call} {s : SOCKET} (h : Tidy w)
    (hs : s ∈ sockets w) (hrun : Run (Call.Step L) w calls w') (hstays : s ∈ sockets w') :
    missed L s w calls + (sockets w').idxOf s ≤ (sockets w).idxOf s := by
  have hinduction : w' = calls.foldl (fun w c => (exec (c.run L) w).2) w ∧ Tidy w' ∧
      s ∈ openSockets w'.trace ∧ (s ∈ sockets w' →
        missed L s w calls + (sockets w').idxOf s ≤ (sockets w).idxOf s) := by
    clear hstays
    induction hrun with
    | nil => exact ⟨rfl, h, h.opened hs, fun _ => by simp [missed]⟩
    | @snoc v w' calls c hbefore hlast ih =>
        obtain ⟨hfresh, rfl, -⟩ := hlast
        obtain ⟨hfold, htidy, hopened, hmissed⟩ := ih
        refine ⟨?_, htidy.call L c hfresh, opened_call htidy hopened, fun hstays => ?_⟩
        · rw [List.foldl_append, ← hfold]
          rfl
        · have hs' := stayed_call htidy hfresh hopened hstays
          have hstep := misses_call htidy hs' hstays
          have hprefix := hmissed hs'
          rw [missed_append, ← hfold]
          omega
  exact hinduction.2.2.2 hstays

/-- The second of two clients misses one broadcast, and is the first one then. -/
theorem missed_of_run_sample :
    missed quietLib 8 (serverAfter [acceptCall 7, acceptCall 8]) [failingBroadcast, broadcastCall] +
      (sockets (serverAfter [acceptCall 7, acceptCall 8, failingBroadcast,
        broadcastCall])).idxOf 8 ≤ 1 := by
  have hfirst : (acceptCall 7).Fresh .started := fun s _ => by
    simp [(idle_of_started started_started).opened]
  have hsecond : (acceptCall 8).Fresh (serverAfter [acceptCall 7]) := fun s hs => by
    have hopened : openSockets (serverAfter [acceptCall 7]).trace = [7] := rfl
    rw [hopened, ← Option.some.inj hs]
    decide
  have htidy : Tidy (serverAfter [acceptCall 7, acceptCall 8]) :=
    ((idle_of_started started_started).tidy.call quietLib _ hfirst).call quietLib _ hsecond
  have hfailing : Call.Step quietLib (serverAfter [acceptCall 7, acceptCall 8]) failingBroadcast
      (serverAfter [acceptCall 7, acceptCall 8, failingBroadcast]) :=
    ⟨trivial, leads_of_ok (show _ = Except.ok () from rfl)⟩
  have hbroadcast : Call.Step quietLib (serverAfter [acceptCall 7, acceptCall 8, failingBroadcast])
      broadcastCall (serverAfter [acceptCall 7, acceptCall 8, failingBroadcast, broadcastCall]) :=
    ⟨trivial, leads_of_ok (show _ = Except.ok () from rfl)⟩
  have hs : 8 ∈ sockets (serverAfter [acceptCall 7, acceptCall 8]) := by decide
  have hstays : 8 ∈ sockets (serverAfter [acceptCall 7, acceptCall 8, failingBroadcast,
      broadcastCall]) := by decide
  exact missed_of_run htidy hs (((Run.nil _).snoc hfailing).snoc hbroadcast) hstays

end XplaneServer.Networking
