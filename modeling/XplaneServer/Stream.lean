/-
  Stream.lean --- what is sent to a client over a run of ticks.

  A client sees neither ticks nor messages, but what is passed to `send` for it, as far
  as the network brings it: the greeting, and then pieces, which are replies and
  snapshots (`served_of_run`).  A snapshot shows the registry after its tick
  (`history`), a tick sends a client one snapshot at most, and no snapshot takes back
  what an earlier one showed.  Where no send fails and every tick returns, no snapshot
  is missing either (`delivered_of_run`).  Iterators are positions, as in
  `Networking.TCPServer`.
-/
import XplaneServer.Service

set_option autoImplicit false

namespace XplaneServer

open Foundation Json Datas Networking

/-! ## Pieces -/

/-- What is sent to a client after the greeting. -/
inductive Piece where
  | reply (text : Bytes)
  | snapshot (t : TickEnv) (registry : DatarefMap)

namespace Piece

def text : Piece → Bytes
  | .reply text => text
  | .snapshot t m => snapshotText t.sim m

/-- The tick whose snapshot it is, and the registry it shows. -/
def shown : Piece → Option (TickEnv × DatarefMap)
  | .reply _ => none
  | .snapshot t m => some (t, m)

end Piece

/-- The ticks of a run, each with the registry it leaves. -/
def history (L : Lib) : World → List TickEnv → List (TickEnv × DatarefMap)
  | _, [] => []
  | w, t :: ticks =>
      let w' := (exec (mainCallBack L t) w).2
      (t, w'.datarefMap) :: history L w' ticks

/-- The texts that are passed to `send` for a socket, whatever it returns. -/
def passed (s : SOCKET) (sent : List (SOCKET × Bytes × Int)) : List Bytes :=
  sent.filterMap fun m => if m.1 = s then some m.2.1 else none

/-- Everything registered stays registered, for the same dataref. -/
def Extends (m m' : DatarefMap) : Prop :=
  ∀ (name : Bytes) (d : Dataref), m[name]? = some d → m'[name]? = some d

/-- The replies of the plugin. -/
def replyTexts : List Bytes := [lit "SUCESS", lit "INVALID JSON"]

/-- The pieces that ticks may send to one client: known replies, and one snapshot of
each tick at most, in order, which shows the registry that the tick left. -/
structure Sent (past : List (TickEnv × DatarefMap)) (pieces : List Piece) : Prop where
  replies : ∀ text, Piece.reply text ∈ pieces → text ∈ replyTexts
  shown : (pieces.filterMap Piece.shown).Sublist past

theorem passed_append (s : SOCKET) (sent sent' : List (SOCKET × Bytes × Int)) :
    passed s (sent ++ sent') = passed s sent ++ passed s sent' :=
  List.filterMap_append

theorem Extends.refl (m : DatarefMap) : Extends m m := fun _ _ h => h

theorem Extends.trans {m m' m'' : DatarefMap} (h : Extends m m') (h' : Extends m' m'') :
    Extends m m'' := fun name d hd => h' name d (h name d hd)

/-- Registrations extend a registry. -/
theorem extends_firstWins (m : DatarefMap) (bindings : List (Bytes × Dataref)) :
    Extends m (firstWins m bindings) := by
  intro name d hd
  rw [getElem?_firstWins, hd]
  rfl

namespace Sent

/-- A tick goes on. -/
theorem append {past past' : List (TickEnv × DatarefMap)} {pieces pieces' : List Piece}
    (h : Sent past pieces) (h' : Sent past' pieces') :
    Sent (past ++ past') (pieces ++ pieces') := by
  refine ⟨fun text htext => ?_, ?_⟩
  · exact (List.mem_append.mp htext).elim (h.replies text) (h'.replies text)
  · rw [List.filterMap_append]
    exact h.shown.append h'.shown

theorem mono {past past' : List (TickEnv × DatarefMap)} {pieces : List Piece}
    (h : Sent past pieces) (hpast : past.Sublist past') : Sent past' pieces :=
  ⟨h.replies, h.shown.trans hpast⟩

/-- Replies, and a snapshot or none, are the pieces of one tick. -/
theorem exists_pieces {texts : List Bytes} (h : ∀ text ∈ texts, text ∈ replyTexts)
    (t : TickEnv) (m : DatarefMap) (broadcast : Bool) :
    ∃ pieces, pieces.map Piece.text =
        texts ++ (if broadcast then [snapshotText t.sim m] else []) ∧
      Sent [(t, m)] pieces ∧ (texts = [] ∧ broadcast = false → pieces = []) ∧
      (broadcast = true → pieces.filterMap Piece.shown = [(t, m)]) := by
  have hreplies : (texts.map Piece.reply).map Piece.text = texts := by
    rw [List.map_map]
    exact List.map_id texts
  have hshown : (texts.map Piece.reply).filterMap Piece.shown = [] := by
    simp [List.filterMap_map, Function.comp_def, Piece.shown]
  have htexts : ∀ text, Piece.reply text ∈ texts.map Piece.reply → text ∈ replyTexts := by
    intro text htext
    obtain ⟨text', htext', heq⟩ := List.mem_map.mp htext
    cases heq
    exact h text htext'
  cases broadcast with
  | false =>
      refine ⟨texts.map .reply, ?_, ⟨htexts, ?_⟩, fun hnone => ?_, by simp⟩
      · simp [hreplies]
      · simp [hshown]
      · simp [hnone.1]
  | true =>
      refine ⟨texts.map .reply ++ [.snapshot t m], ?_, ⟨fun text htext => ?_, ?_⟩, by simp,
        fun _ => ?_⟩
      · simp [hreplies, Piece.text]
      · exact htexts text ((List.mem_append.mp htext).resolve_right (by simp))
      · simp [hshown, Piece.shown]
      · simp [hshown, Piece.shown]

end Sent

/-! ## What one tick sends to a client -/

/-- A reply goes to the client of its message. -/
theorem Message.reply_cases {J : JsonCpp} {m : Message} {sent : SOCKET × Bytes × Int}
    (h : m.reply J = some sent) : sent.1 = m.client.sock ∧ sent.2.1 ∈ replyTexts := by
  unfold Message.reply at h
  split at h
  · cases h
  · split at h
    · split at h
      · cases h
      · cases h
        exact ⟨rfl, List.mem_cons_of_mem _ List.mem_cons_self⟩
      · cases h
        exact ⟨rfl, List.mem_cons_self⟩
    · cases h

/-- A broadcast is sent to a client once. -/
theorem passed_broadcast {s : SOCKET} {clients : List SOCKET} (hnodup : clients.Nodup)
    (data : Bytes) (answer : SOCKET → Int) :
    passed s (clients.map fun s => (s, data, answer s)) = if s ∈ clients then [data] else [] := by
  induction clients with
  | nil => rfl
  | cons c clients ih =>
      rw [List.nodup_cons] at hnodup
      have hrest := ih hnodup.2
      unfold passed at hrest ⊢
      rw [List.map_cons, List.filterMap_cons, hrest]
      by_cases hc : c = s
      · subst hc
        simp [hnodup.1]
      · simp [hc, Ne.symm hc]

namespace Service

/-- The replies to a client. -/
theorem passed_replies (J : JsonCpp) (polls : Nat → PollEnv) (a : Service) (s : SOCKET) :
    (∀ text ∈ passed s ((a.handled J polls).filterMap (Message.reply J)), text ∈ replyTexts) ∧
      (s ∉ a.clients → passed s ((a.handled J polls).filterMap (Message.reply J)) = []) := by
  have hsent : ∀ sent ∈ (a.handled J polls).filterMap (Message.reply J),
      sent.1 ∈ a.clients ∧ sent.2.1 ∈ replyTexts := by
    intro sent hsent
    obtain ⟨m, hm, hreply⟩ := List.mem_filterMap.mp hsent
    obtain ⟨hsock, htext⟩ := m.reply_cases hreply
    have hreceived : m ∈ a.received polls := (List.takeWhile_sublist _).subset hm
    obtain ⟨p, hp, hmessage⟩ := List.mem_filterMap.mp hreceived
    have hclient : m.client.sock = p.1 := by
      unfold PollEnv.message at hmessage
      split at hmessage
      · cases hmessage
        rfl
      · cases hmessage
    rw [hsock, hclient]
    exact ⟨List.fst_mem_of_mem_zipIdx hp, htext⟩
  constructor
  · intro text htext
    obtain ⟨sent, hmem, heq⟩ := List.mem_filterMap.mp htext
    split at heq
    · cases heq
      exact (hsent sent hmem).2
    · cases heq
  · intro hs
    apply List.filterMap_eq_nil_iff.mpr
    intro sent hmem
    have hother : sent.1 ≠ s := fun h => hs (h ▸ (hsent sent hmem).1)
    rw [if_neg hother]

/-- The greeting of a client. -/
theorem passed_greeting (env : AcceptEnv) (s : SOCKET) :
    passed s (greeting env) =
      if env.accept = some s then [lit "Hello on the server\n"] else [] := by
  unfold greeting passed
  cases env.accept with
  | none => rfl
  | some s' =>
      by_cases hs : s' = s <;> simp [hs]

/-- What a tick sends, and the registry it leaves. -/
theorem tick_sent (J : JsonCpp) (t : TickEnv) (answer : SOCKET → Int) (a : Service) :
    (a.tick J t answer).1.sent = greeting t.accept ++
        ((a.accept t.accept).handled J t.polls).filterMap (Message.reply J) ++
        (if ((a.accept t.accept).received t.polls).findSome? (Message.thrown J) = none then
          ((a.accept t.accept).register J t.polls).broadcast t.sim answer else []) ∧
      (a.tick J t answer).2.registry = ((a.accept t.accept).register J t.polls).registry := by
  cases hthrown : ((a.accept t.accept).received t.polls).findSome? (Message.thrown J) <;>
    simp [tick, hthrown]

/-- A tick takes nothing from the registry. -/
theorem extends_tick (J : JsonCpp) (t : TickEnv) (answer : SOCKET → Int) (a : Service) :
    Extends a.registry (a.tick J t answer).2.registry := by
  have hsame : (a.accept t.accept).registry = a.registry := by
    unfold accept
    split
    · split <;> rfl
    · rfl
  rw [(tick_sent J t answer a).2, register, hsame]
  exact extends_firstWins _ _

/-- The clients after the accept. -/
theorem mem_accept_iff {env : AcceptEnv} {a : Service} {s : SOCKET} :
    s ∈ (a.accept env).clients ↔
      s ∈ a.clients ∨ env.accept = some s ∧ env.ioctlsocket ≠ SOCKET_ERROR := by
  unfold accept
  cases env.accept with
  | none => simp
  | some s' =>
      by_cases hioctl : env.ioctlsocket = SOCKET_ERROR
      · simp [hioctl]
      · simp [hioctl, eq_comm]

/-- After the accept, a tick takes clients away at most. -/
theorem mem_tick {J : JsonCpp} {t : TickEnv} {answer : SOCKET → Int} {a : Service} {s : SOCKET}
    (hs : s ∈ (a.tick J t answer).2.clients) : s ∈ (a.accept t.accept).clients := by
  cases hthrown : ((a.accept t.accept).received t.polls).findSome? (Message.thrown J) with
  | some e =>
      simpa [tick, hthrown, register] using hs
  | none =>
      simp only [tick, hthrown] at hs
      exact (selectBy_sublist _ _).subset hs

/-- A tick that throws nothing and in which no send fails sends to everyone, and keeps
everyone. -/
theorem tick_lossless {J : JsonCpp} {t : TickEnv} {answer : SOCKET → Int} {a : Service}
    (hanswers : a.Answers answer t) (hsends : ∀ n, t.sends n ≠ SOCKET_ERROR)
    (hok : ∀ e, (a.tick J t answer).1.result ≠ .error e) :
    ((a.accept t.accept).received t.polls).findSome? (Message.thrown J) = none ∧
      (a.accept t.accept).reached answer = (a.accept t.accept).clients ∧
      (a.tick J t answer).2.clients = (a.accept t.accept).clients := by
  have hquiet : ((a.accept t.accept).received t.polls).findSome? (Message.thrown J) = none := by
    cases hthrown : ((a.accept t.accept).received t.polls).findSome? (Message.thrown J) with
    | none => rfl
    | some e => exact absurd (by simp [tick, hthrown]) (hok (.exn e))
  have hsound : ∀ s ∈ visited (failing answer) false (a.accept t.accept).clients,
      failing answer s = false := by
    intro s hs
    rw [visited_eq_filter] at hs
    obtain ⟨n, hat⟩ := List.mem_iff_getElem?.mp hs
    have hsent := hanswers (s, n) (List.mem_zipIdx_iff_getElem?.mpr hat)
    exact beq_false_of_ne (hsent ▸ hsends n)
  obtain ⟨hvisited, hsurvivors⟩ := visited_of_sound hsound
  rw [visited_eq_filter] at hvisited
  rw [survivors_eq_filter] at hsurvivors
  refine ⟨hquiet, hvisited, ?_⟩
  simp only [tick, hquiet]
  exact hsurvivors

/-- **What one tick sends to one client**: the greeting if it is accepted in it, and
then pieces, with a snapshot if the broadcast reaches it. -/
theorem passed_tick (J : JsonCpp) (t : TickEnv) (answer : SOCKET → Int) {a : Service}
    (hnodup : (a.accept t.accept).clients.Nodup) (s : SOCKET) :
    ∃ pieces, passed s (a.tick J t answer).1.sent =
        (if t.accept.accept = some s then [lit "Hello on the server\n"] else []) ++
          pieces.map Piece.text ∧
      Sent [(t, (a.tick J t answer).2.registry)] pieces ∧
      (s ∉ (a.accept t.accept).clients → pieces = []) ∧
      (((a.accept t.accept).received t.polls).findSome? (Message.thrown J) = none →
        s ∈ (a.accept t.accept).reached answer →
          pieces.filterMap Piece.shown = [(t, (a.tick J t answer).2.registry)]) := by
  obtain ⟨hsent, hregistry⟩ := tick_sent J t answer a
  obtain ⟨htexts, hnobody⟩ := passed_replies J t.polls (a.accept t.accept) s
  have hserved : ((a.accept t.accept).reached answer).Sublist (a.accept t.accept).clients :=
    selectBy_sublist _ _
  have hbroadcast := passed_broadcast (s := s) (hserved.nodup hnodup)
    (snapshotText t.sim (a.tick J t answer).2.registry) answer
  obtain ⟨broadcast, hreaches, hspares, hbroadcasts⟩ : ∃ broadcast : Bool,
      (((a.accept t.accept).received t.polls).findSome? (Message.thrown J) = none →
        s ∈ (a.accept t.accept).reached answer → broadcast = true) ∧
      (s ∉ (a.accept t.accept).clients → broadcast = false) ∧
      passed s (if ((a.accept t.accept).received t.polls).findSome? (Message.thrown J) = none then
        ((a.accept t.accept).register J t.polls).broadcast t.sim answer else []) =
          if broadcast then [snapshotText t.sim (a.tick J t answer).2.registry] else [] := by
    by_cases hthrown :
        ((a.accept t.accept).received t.polls).findSome? (Message.thrown J) = none
    · refine ⟨decide (s ∈ (a.accept t.accept).reached answer), fun _ => decide_eq_true,
        fun hs => decide_eq_false fun h => hs (hserved.subset h), ?_⟩
      rw [hregistry] at hbroadcast ⊢
      simp only [decide_eq_true_eq]
      rw [if_pos hthrown, ← hbroadcast]
      rfl
    · refine ⟨false, fun hnone => absurd hnone hthrown, fun _ => rfl, ?_⟩
      rw [if_neg hthrown]
      rfl
  obtain ⟨pieces, htext, hpieces, hnone, hsnapshot⟩ :=
    Sent.exists_pieces htexts t (a.tick J t answer).2.registry broadcast
  refine ⟨pieces, ?_, hpieces, fun hs => hnone ⟨hnobody hs, hspares hs⟩,
    fun hquiet hs => hsnapshot (hreaches hquiet hs)⟩
  rw [hsent, passed_append, passed_append, passed_greeting, hbroadcasts, htext,
    List.append_assoc]

end Service

/-! ## Runs -/

/-- The accept and the polls: what was open is open, and what was accepted. -/
theorem opened_receivePhase {L : Lib} {w : World} (htidy : Tidy w) {t : TickEnv}
    (hfresh : t.Fresh w) :
    Tidy (exec (receivePhase L t) w).2 ∧ ∀ s,
      s ∈ openSockets w.trace ∨ t.accept.accept = some s →
        s ∈ openSockets (exec (receivePhase L t) w).2.trace := by
  have haccepted := htidy.accept hfresh
  have hopen : ∀ s, s ∈ openSockets w.trace ∨ t.accept.accept = some s →
      s ∈ openSockets (exec (listenForClient t.accept) w).2.trace := by
    intro s hs
    rw [exec_listenForClient]
    cases haccept : t.accept.accept with
    | none =>
        simpa [haccept, openSockets_append, openStep] using hs
    | some s' =>
        rw [haccept, Option.some.injEq] at hs
        have hhead : s = s' ∨ s ∈ openSockets w.trace := hs.symm.imp_left Eq.symm
        by_cases hioctl : t.accept.ioctlsocket = SOCKET_ERROR <;>
          simpa [hioctl, openSockets_append, openStep] using hhead
  obtain ⟨n, hok⟩ := Service.exec_listenForClient_ok t.accept w
  rw [receivePhase, exec_bind]
  rcases hlisten : exec (listenForClient t.accept) w with ⟨res, w'⟩
  rw [hlisten] at hok haccepted hopen
  obtain rfl : res = .ok n := hok
  have hreceived := haccepted.call L (.receiveData t.polls) trivial
  exact ⟨hreceived, fun s hs =>
    opened_call (L := L) (c := .receiveData t.polls) haccepted (hopen s hs)⟩

/-- A socket that is open, or accepted in a tick, is open after it. -/
theorem opened_mainCallBack {L : Lib} {w : World} (htidy : Tidy w)
    (hfaithful : Faithful L.json w) {t : TickEnv} (hfresh : t.Fresh w) {s : SOCKET}
    (hs : s ∈ openSockets w.trace ∨ t.accept.accept = some s) :
    s ∈ openSockets (exec (mainCallBack L t) w).2.trace := by
  obtain ⟨hreceived, hopen⟩ := opened_receivePhase (L := L) htidy hfresh
  obtain ⟨hfaithful₁, -⟩ := phase_receivePhase L t w hfaithful
  rw [exec_mainCallBack]
  rcases hreceive : exec (receivePhase L t) w with ⟨e | u, w₁⟩ <;>
    rw [hreceive] at hreceived hopen hfaithful₁
  · exact hopen s hs
  · by_cases hclients : w₁.server.clients = []
    · simp only [if_pos hclients]
      exact hopen s hs
    · simp only [if_neg hclients]
      have hinert := inert_snapshotCalls t.sim w₁.datarefMap
      have hread : Tidy (w₁.record (snapshotCalls t.sim w₁.datarefMap)) :=
        hreceived.shrink_inert (List.Sublist.refl _) rfl hinert
      have hopened : s ∈ openSockets (w₁.record (snapshotCalls t.sim w₁.datarefMap)).trace := by
        rw [World.record_trace, openSockets_append, hinert.opened]
        exact hopen s hs
      have hkept := opened_call (L := L)
        (c := .broadcastData (snapshotText t.sim w₁.datarefMap) t.sends) hread hopened
      rw [Call.run, exec_bind_pure_snd] at hkept
      rwa [broadcastSnapshot, exec_bind_ok (exec_snapshot t.sim hfaithful₁.readable),
        exec_bind_pure_snd]

/-- Nothing was passed to `send` for a socket and it is no client's, or it is open, and
the greeting was and what the ticks may send. -/
def Served (s : SOCKET) (past : List (TickEnv × DatarefMap)) (w : World) : Prop :=
  passed s (transmissions w.trace) = [] ∧ s ∉ sockets w ∨
    s ∈ openSockets w.trace ∧ ∃ pieces, Sent past pieces ∧
      passed s (transmissions w.trace) =
        lit "Hello on the server\n" :: pieces.map Piece.text

/-- What a tick of the plugin sends to a socket. -/
theorem tick_pieces {L : Lib} {w : World} {t : TickEnv} (htidy : Tidy w)
    (hfaithful : Faithful L.json w) (hfresh : t.Fresh w) (s : SOCKET) :
    ∃ pieces, passed s (transmissions (exec (mainCallBack L t) w).2.trace) =
        passed s (transmissions w.trace) ++
          ((if t.accept.accept = some s then [lit "Hello on the server\n"] else []) ++
            pieces.map Piece.text) ∧
      Sent [(t, (exec (mainCallBack L t) w).2.datarefMap)] pieces ∧
      (s ∉ ((Service.of w).accept t.accept).clients →
        pieces = [] ∧ s ∉ sockets (exec (mainCallBack L t) w).2) ∧
      ((∀ n, t.sends n ≠ SOCKET_ERROR) → (∀ e, (exec (mainCallBack L t) w).1 ≠ .error e) →
        s ∈ ((Service.of w).accept t.accept).clients →
          s ∈ sockets (exec (mainCallBack L t) w).2 ∧
            pieces.filterMap Piece.shown =
              [(t, (exec (mainCallBack L t) w).2.datarefMap)]) := by
  obtain ⟨answer, hanswers⟩ := exists_answers htidy hfresh
  obtain ⟨sent, htrace, hrefines⟩ := tick_refines (L := L) htidy.clean hfaithful hanswers
  have haccepted := htidy.accept hfresh
  have hclients : ((Service.of w).accept t.accept).clients =
      sockets (exec (listenForClient t.accept) w).2 := by
    rw [← Service.accept_of]
    rfl
  obtain ⟨pieces, hpassed, hsent, hnobody, hsnapshot⟩ :=
    Service.passed_tick L.json t answer (hclients ▸ haccepted.nodup) s
  have hleft : s ∈ ((Service.of w).tick L.json t answer).2.clients →
      s ∈ ((Service.of w).accept t.accept).clients := Service.mem_tick
  have hlossless := Service.tick_lossless (J := L.json) hanswers
  rw [hrefines] at hpassed hsent hsnapshot hleft hlossless
  refine ⟨pieces, ?_, hsent, fun hs => ⟨hnobody hs, fun h => hs (hleft h)⟩,
    fun hsends hok hs => ?_⟩
  · rw [htrace, passed_append, hpassed]
  · obtain ⟨hquiet, hreached, hkept⟩ := hlossless hsends hok
    have hsockets : sockets (exec (mainCallBack L t) w).2 =
        ((Service.of w).accept t.accept).clients := hkept
    exact ⟨hsockets ▸ hs, hsnapshot hquiet (hreached ▸ hs)⟩

theorem Served.tick {L : Lib} {s : SOCKET} {past : List (TickEnv × DatarefMap)} {w : World}
    {t : TickEnv} (h : Served s past w) (htidy : Tidy w) (hfaithful : Faithful L.json w)
    (hfresh : t.Fresh w) :
    Served s (past ++ [(t, (exec (mainCallBack L t) w).2.datarefMap)])
      (exec (mainCallBack L t) w).2 := by
  obtain ⟨pieces, hpassed, hsent, hnobody, -⟩ :=
    tick_pieces (L := L) htidy hfaithful hfresh s
  have hopen := fun hs => opened_mainCallBack (L := L) htidy hfaithful hfresh (s := s) hs
  unfold Served
  rw [hpassed]
  rcases h with ⟨hnothing, hs⟩ | ⟨hs, before, hbefore, htext⟩
  · rw [hnothing, List.nil_append]
    by_cases haccept : t.accept.accept = some s
    · right
      refine ⟨hopen (Or.inr haccept), pieces, hsent.mono (List.sublist_append_right _ _), ?_⟩
      rw [if_pos haccept]
      rfl
    · left
      have hnot : s ∉ ((Service.of w).accept t.accept).clients := fun h =>
        (Service.mem_accept_iff.mp h).elim hs fun hnew => haccept hnew.1
      obtain ⟨hnone, hgone⟩ := hnobody hnot
      rw [if_neg haccept, hnone]
      exact ⟨rfl, hgone⟩
  · right
    have haccept : t.accept.accept ≠ some s := fun h => hfresh s h hs
    refine ⟨hopen (Or.inl hs), before ++ pieces, hbefore.append hsent, ?_⟩
    rw [htext, if_neg haccept, List.map_append]
    rfl

/-- Nothing is sent before the first tick. -/
theorem Started.served {w : World} (h : Started w) (s : SOCKET) : Served s [] w := by
  obtain ⟨hclients, -, -, htrace⟩ := h.tables
  have hnone : transmissions w.trace = [] := by
    apply List.filterMap_eq_nil_iff.mpr
    intro e he
    have hstartup := htrace e he
    cases e <;> first | rfl | cases hstartup
  left
  rw [hnone]
  exact ⟨rfl, by simp [sockets, hclients]⟩

/-- One more tick, behind those before it. -/
theorem history_concat (L : Lib) (w : World) (ticks : List TickEnv) (t : TickEnv) :
    history L w (ticks ++ [t]) =
      history L w ticks ++
        [(t, (exec (mainCallBack L t)
          (ticks.foldl (fun w t => (exec (mainCallBack L t) w).2) w)).2.datarefMap)] := by
  induction ticks generalizing w with
  | nil => rfl
  | cons t' ticks ih =>
      rw [List.cons_append, history, history, ih, List.foldl_cons, List.cons_append]

theorem length_history (L : Lib) (w : World) (ticks : List TickEnv) :
    (history L w ticks).length = ticks.length := by
  induction ticks generalizing w with
  | nil => rfl
  | cons t ticks ih => rw [history, List.length_cons, ih, List.length_cons]

/-- Where a run ends. -/
theorem end_of_run {L : Lib} {w₀ w : World} {ticks : List TickEnv}
    (hrun : Run (fun w t w' => t.Fresh w ∧ Tick L w t w') w₀ ticks w) :
    ticks.foldl (fun w t => (exec (mainCallBack L t) w).2) w₀ = w := by
  induction hrun with
  | nil => rfl
  | snoc hbefore hlast ih =>
      rw [List.foldl_append, ih]
      exact hlast.2.1

/-- One more tick of a run. -/
theorem history_of_run {L : Lib} {w₀ w : World} {ticks : List TickEnv}
    (hrun : Run (fun w t w' => t.Fresh w ∧ Tick L w t w') w₀ ticks w) (t : TickEnv) :
    history L w₀ (ticks ++ [t]) =
      history L w₀ ticks ++ [(t, (exec (mainCallBack L t) w).2.datarefMap)] := by
  rw [history_concat, end_of_run hrun]

/-- **What a run sends to a socket.** -/
theorem served_of_run {L : Lib} {w₀ w : World} {ticks : List TickEnv} (hstart : Started w₀)
    (hrun : Run (fun w t w' => t.Fresh w ∧ Tick L w t w') w₀ ticks w) (s : SOCKET) :
    Served s (history L w₀ ticks) w := by
  induction hrun with
  | nil => exact hstart.served s
  | @snoc v w' ticks t hbefore hlast ih =>
      obtain ⟨htracked, hfaithful⟩ := tracked_of_run hstart hbefore
      obtain ⟨hfresh, rfl, -⟩ := hlast
      rw [history_of_run hbefore]
      exact ih.tick htracked.tidy hfaithful hfresh

/-- A tick takes nothing from the registry. -/
theorem extends_mainCallBack {L : Lib} {w : World} {t : TickEnv} (htidy : Tidy w)
    (hfaithful : Faithful L.json w) (hfresh : t.Fresh w) :
    Extends w.datarefMap (exec (mainCallBack L t) w).2.datarefMap := by
  obtain ⟨answer, hanswers⟩ := exists_answers htidy hfresh
  obtain ⟨sent, -, hrefines⟩ := tick_refines (L := L) htidy.clean hfaithful hanswers
  have hextends := Service.extends_tick L.json t answer (Service.of w)
  rwa [hrefines] at hextends

/-- **Nothing is taken back**: the registries of a run extend each other, up to the one
in the end. -/
theorem extends_of_run {L : Lib} {w₀ w : World} {ticks : List TickEnv} (hstart : Started w₀)
    (hrun : Run (fun w t w' => t.Fresh w ∧ Tick L w t w') w₀ ticks w) :
    ((history L w₀ ticks).map Prod.snd ++ [w.datarefMap]).Pairwise Extends := by
  induction hrun with
  | nil => exact List.pairwise_singleton _ _
  | @snoc v w' ticks t hbefore hlast ih =>
      obtain ⟨htracked, hfaithful⟩ := tracked_of_run hstart hbefore
      obtain ⟨hfresh, rfl, -⟩ := hlast
      have hgrows := extends_mainCallBack (L := L) htracked.tidy hfaithful hfresh
      rw [List.pairwise_append] at ih
      obtain ⟨hpast, -, hlater⟩ := ih
      have hnew : ∀ m ∈ (history L w₀ ticks).map Prod.snd,
          Extends m (exec (mainCallBack L t) v).2.datarefMap := fun m hm =>
        (hlater m hm _ (List.mem_singleton_self _)).trans hgrows
      rw [history_of_run hbefore, List.map_append, List.map_singleton, List.append_assoc,
        List.pairwise_append]
      refine ⟨hpast, List.pairwise_pair.mpr (Extends.refl _), fun m hm m' hm' => ?_⟩
      rcases List.mem_pair.mp hm' with rfl | rfl
      · exact hnew m hm
      · exact hnew m hm

/-! ## Delivery -/

/-- A tick that returns. -/
def Returns (L : Lib) (w : World) (t : TickEnv) (w' : World) : Prop :=
  t.Fresh w ∧ ∃ interval, exec (mainCallBack L t) w = (.ok interval, w')

theorem Returns.tick {L : Lib} {w w' : World} {t : TickEnv} (h : Returns L w t w') :
    t.Fresh w ∧ Tick L w t w' := by
  obtain ⟨hfresh, interval, hend⟩ := h
  exact ⟨hfresh, by rw [hend], by simp [hend]⟩

/-- What a client was sent since it was accepted: the greeting, replies, and in this
order the snapshots of all these ticks, with the registry that each of them left. -/
def Delivered (s : SOCKET) (since : List (TickEnv × DatarefMap)) (w : World) : Prop :=
  s ∈ sockets w ∧ ∃ pieces : List Piece, (∀ text, Piece.reply text ∈ pieces → text ∈ replyTexts) ∧
    passed s (transmissions w.trace) = lit "Hello on the server\n" :: pieces.map Piece.text ∧
    pieces.filterMap Piece.shown = since

/-- A client is accepted. -/
theorem Delivered.accept {L : Lib} {s : SOCKET} {past : List (TickEnv × DatarefMap)}
    {w w' : World} {t : TickEnv} (h : Served s past w) (htidy : Tidy w)
    (hfaithful : Faithful L.json w) (hstep : Returns L w t w')
    (haccept : t.accept.accept = some s) (hioctl : t.accept.ioctlsocket ≠ SOCKET_ERROR)
    (hsends : ∀ n, t.sends n ≠ SOCKET_ERROR) : Delivered s [(t, w'.datarefMap)] w' := by
  obtain ⟨hfresh, interval, hend⟩ := hstep
  obtain ⟨pieces, hpassed, hsent, -, hdelivered⟩ :=
    tick_pieces (L := L) htidy hfaithful hfresh s
  rw [hend] at hpassed hdelivered
  obtain ⟨hs, hshown⟩ := hdelivered hsends (by simp)
    (Service.mem_accept_iff.mpr (Or.inr ⟨haccept, hioctl⟩))
  have hnothing : passed s (transmissions w.trace) = [] := by
    rcases h with ⟨hnothing, -⟩ | ⟨hopen, -⟩
    · exact hnothing
    · exact absurd hopen (hfresh s haccept)
  refine ⟨hs, pieces, hsent.replies, ?_, hshown⟩
  rw [hpassed, hnothing, if_pos haccept]
  rfl

/-- A client stays. -/
theorem Delivered.tick {L : Lib} {s : SOCKET} {since : List (TickEnv × DatarefMap)}
    {w w' : World} {t : TickEnv} (h : Delivered s since w) (htidy : Tidy w)
    (hfaithful : Faithful L.json w) (hstep : Returns L w t w')
    (hsends : ∀ n, t.sends n ≠ SOCKET_ERROR) :
    Delivered s (since ++ [(t, w'.datarefMap)]) w' := by
  obtain ⟨hclient, before, hreplies, htext, hsince⟩ := h
  obtain ⟨hfresh, interval, hend⟩ := hstep
  obtain ⟨pieces, hpassed, hsent, -, hdelivered⟩ :=
    tick_pieces (L := L) htidy hfaithful hfresh s
  rw [hend] at hpassed hdelivered
  obtain ⟨hs, hshown⟩ := hdelivered hsends (by simp) (Service.mem_accept_iff.mpr (Or.inl hclient))
  have haccept : t.accept.accept ≠ some s := fun h => hfresh s h (htidy.opened hclient)
  refine ⟨hs, before ++ pieces, fun text h => ?_, ?_, ?_⟩
  · exact (List.mem_append.mp h).elim (hreplies text) (hsent.replies text)
  · rw [hpassed, htext, if_neg haccept, List.map_append]
    rfl
  · rw [List.filterMap_append, hsince, hshown]

/-- **Nothing is lost.**  In a run whose ticks return, a client that is accepted in a
tick has been sent one snapshot of that tick and of every later one, in order, each
with the registry that its tick left, if no send of these ticks fails. -/
theorem delivered_of_run {L : Lib} {w₀ w : World} {before after : List TickEnv} {t : TickEnv}
    {s : SOCKET} (hstart : Started w₀) (hrun : Run (Returns L) w₀ (before ++ t :: after) w)
    (haccept : t.accept.accept = some s) (hioctl : t.accept.ioctlsocket ≠ SOCKET_ERROR)
    (hsends : ∀ t' ∈ t :: after, ∀ n, t'.sends n ≠ SOCKET_ERROR) :
    Delivered s ((history L w₀ (before ++ t :: after)).drop before.length) w := by
  induction after using List.reverseRecOn generalizing w with
  | nil =>
      obtain ⟨v, hbefore, hstep⟩ := hrun.last
      have hticks := hbefore.mono fun _ _ _ => Returns.tick
      obtain ⟨htracked, hfaithful⟩ := tracked_of_run hstart hticks
      have hend : (exec (mainCallBack L t) v).2 = w := (Returns.tick hstep).2.1
      rw [history_of_run hticks, hend, List.drop_left' (length_history L w₀ before)]
      exact Delivered.accept (served_of_run hstart hticks s) htracked.tidy hfaithful hstep
        haccept hioctl (hsends t List.mem_cons_self)
  | append_singleton after t' ih =>
      have hlabels : before ++ t :: (after ++ [t']) = (before ++ t :: after) ++ [t'] := by simp
      rw [hlabels] at hrun ⊢
      obtain ⟨v, hbefore, hstep⟩ := hrun.last
      have hticks := hbefore.mono fun _ _ _ => Returns.tick
      obtain ⟨htracked, hfaithful⟩ := tracked_of_run hstart hticks
      have hend : (exec (mainCallBack L t') v).2 = w := (Returns.tick hstep).2.1
      have hle : before.length ≤ (history L w₀ (before ++ t :: after)).length := by
        rw [length_history, List.length_append]
        omega
      rw [← List.cons_append, List.forall_mem_append] at hsends
      rw [history_of_run hticks, hend, List.drop_append_of_le_length hle]
      exact (ih hbefore hsends.1).tick htracked.tidy hfaithful hstep
        (hsends.2 t' (List.mem_singleton_self t'))

/-- A tick in which nobody is accepted. -/
def laterTick : TickEnv := { registerTick with accept := ⟨none, 0, 0⟩ }

/-- A client that is accepted in the first of two ticks. -/
theorem delivered_of_run_laterTick :
    ∃ w, Run (Returns (.ofJson registrationJson)) .started [registerTick, laterTick] w ∧
      Delivered 7 (history (.ofJson registrationJson) .started [registerTick, laterTick]) w := by
  have hfirst : Returns (.ofJson registrationJson) .started registerTick
      (exec (mainCallBack (.ofJson registrationJson) registerTick) .started).2 :=
    ⟨registerTick_step.1, 1 / 2, rfl⟩
  have hsecond : Returns (.ofJson registrationJson)
      (exec (mainCallBack (.ofJson registrationJson) registerTick) .started).2 laterTick
      (exec (mainCallBack (.ofJson registrationJson) laterTick)
        (exec (mainCallBack (.ofJson registrationJson) registerTick) .started).2).2 := by
    refine ⟨fun s hs => ?_, 1 / 2, rfl⟩
    cases hs
  have hrun : Run (Returns (.ofJson registrationJson)) .started
      ([] ++ registerTick :: [laterTick]) _ := ((Run.nil _).snoc hfirst).snoc hsecond
  have hsends : ∀ t ∈ [registerTick, laterTick], ∀ n, t.sends n ≠ SOCKET_ERROR := by
    simp [registerTick, laterTick, SOCKET_ERROR]
  exact ⟨_, hrun, delivered_of_run started_started hrun rfl (by decide) hsends⟩

end XplaneServer
