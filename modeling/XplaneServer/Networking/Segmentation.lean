/-
  Networking/Segmentation.lean --- how the cutting of a byte stream into received
  chunks decides which callbacks run.

  The server has no framing: a chunk is handed to the parser as it was received,
  and nothing is carried over to the next one.  The callbacks that run are a
  function of the single chunks (`invocations_receiveAll`), the parser stops
  after the first command of a chunk, and so a stream of commands is handled one
  callback a command exactly when it is cut into its commands
  (`receiveAll_segmentation`).  Chunks may fill the buffer, where `Client.memory` says
  what is read; the standard defines this for shorter ones.
-/
import Mathlib.Data.List.Flatten
import XplaneServer.Networking.Connections
import XplaneServer.Registry

set_option autoImplicit false

namespace XplaneServer.Networking

open Foundation Json

/-! ## The callback a chunk runs -/

/-- The call of a callback that a message makes. -/
def dispatch (J : JsonCpp) (callbacks : StringMap ServerCallbacks) (emiter : SOCKET)
    (data : Bytes) : Option (ServerCallbacks × Bytes × SOCKET) :=
  match operationOf J data with
  | .ok key => callbacks[key]?.map fun callback => (callback, data, emiter)
  | .error _ => none

theorem invocations_replies (sock : SOCKET) (result : Int) (replies : List Bytes) :
    invocations (replies.map (Event.send sock · result)) = [] := by
  unfold invocations
  simp

/-- The call of a callback is noted once, and no callback calls another. -/
theorem invocations_runCallback (L : Lib) (env : MsgEnv) (cli : Client) (data : Bytes)
    (callback : ServerCallbacks) (w : World) :
    invocations (exec (runCallback L env cli data callback) w).2.trace =
      invocations w.trace ++ [(callback, data, cli.sock)] := by
  obtain ⟨-, replies, htrace⟩ := exec_invoke_replies L env data cli callback
    (w.record [.invoke callback data cli.sock env])
  have hnoted : invocations (exec (invoke L env data cli callback)
      (w.record [.invoke callback data cli.sock env])).2.trace =
        invocations w.trace ++ [(callback, data, cli.sock)] := by
    rw [htrace, invocations_append, invocations_replies, List.append_nil, World.record_trace,
      invocations_append, invocations_invoke]
  rw [runCallback, exec_bind_ok (exec_log _ w), exec_bind]
  rcases hinvoke : exec (invoke L env data cli callback)
    (w.record [.invoke callback data cli.sock env]) with ⟨e | result, w'⟩ <;>
    rw [hinvoke] at hnoted
  · exact hnoted
  · simp only
    rw [exec_bind_pure_snd, exec_log, World.record_trace, invocations_append,
      invocations_returned, List.append_nil]
    exact hnoted

/-- **At most one callback a message**: the one bound to its operation. -/
theorem invocations_parseReceivedData (L : Lib) (env : MsgEnv) (cli : Client) (data : Bytes)
    (w : World) :
    invocations (exec (parseReceivedData L env cli data) w).2.trace =
      invocations w.trace ++ (dispatch L.json w.server.callbacks cli.sock data).toList := by
  rw [exec_parseReceivedData, dispatch]
  cases operationOf L.json data with
  | error e => simp
  | ok key =>
      cases hcallback : w.server.callbacks[key]? with
      | none => simp [hcallback]
      | some callback => simp [hcallback, invocations_runCallback]

/-! ## The chunks of one client -/

/-- The bytes a poll received. -/
def received (polls : Nat → PollEnv) (i : Nat) : Option Bytes :=
  match (polls i).recv with
  | .data chunk => some chunk.bytes
  | _ => none

theorem received_ne_nil {polls : Nat → PollEnv} {i : Nat} {data : Bytes}
    (h : received polls i = some data) : data ≠ [] := by
  unfold received at h
  split at h
  · rename_i chunk _
    cases h
    exact List.length_pos_iff.mp chunk.length_pos
  · cases h

/-- Clients that receive nothing are polled without effect. -/
theorem exec_pollClients_quiet (L : Lib) (polls : Nat → PollEnv) (rest : List Client) :
    ∀ (quiet : List Client) (n : Nat) (w : World),
      (∀ i, n ≤ i → i < n + quiet.length → received polls i = none) →
      ∃ es, invocations es = [] ∧
        exec (pollClients L polls n (quiet ++ rest)) w =
          exec (pollClients L polls (n + quiet.length) rest) (w.record es) := by
  intro quiet
  induction quiet with
  | nil => exact fun n w _ => ⟨[], rfl, by simp⟩
  | cons c quiet ih =>
      intro n w hquiet
      have hfirst : received polls n = none := hquiet n (Nat.le_refl n) (by simp)
      have hrest : ∀ i, n + 1 ≤ i → i < n + 1 + quiet.length → received polls i = none := by
        intro i hlow hhigh
        refine hquiet i (by omega) ?_
        rw [List.length_cons]
        omega
      obtain ⟨es, hes, hexec⟩ := ih (n + 1) (w.record [.recv c.sock (polls n).recv]) hrest
      refine ⟨.recv c.sock (polls n).recv :: es, by simpa [invocations] using hes, ?_⟩
      have hlength : n + (c :: quiet).length = n + 1 + quiet.length := by
        rw [List.length_cons]
        omega
      rw [hlength, List.cons_append, pollClients, exec_bind_ok (exec_log _ w)]
      cases hrecv : (polls n).recv with
      | data chunk => simp [received, hrecv] at hfirst
      | closed => simpa [hrecv] using hexec
      | error code => simpa [hrecv] using hexec

theorem invocations_pollClients_quiet (L : Lib) (polls : Nat → PollEnv) (quiet : List Client)
    (n : Nat) (w : World)
    (hquiet : ∀ i, n ≤ i → i < n + quiet.length → received polls i = none) :
    invocations (exec (pollClients L polls n quiet) w).2.trace = invocations w.trace := by
  obtain ⟨es, hes, hexec⟩ := exec_pollClients_quiet L polls [] quiet n w hquiet
  rw [List.append_nil] at hexec
  rw [hexec, pollClients, exec_pure, World.record_trace, invocations_append, hes, List.append_nil]

section OneClient

variable {w : World} {before after : List Client} {c : Client}

/-- One call of `receiveData` in which only one client receives. -/
theorem invocations_receiveData (L : Lib) (hclients : w.server.clients = before ++ c :: after)
    (hclean : ∀ c ∈ w.server.clients, c.Clean) (polls : Nat → PollEnv)
    (hquiet : ∀ i, i ≠ before.length → received polls i = none) :
    invocations (exec (receiveData L polls) w).2.trace =
      invocations w.trace ++ ((received polls before.length).bind fun data =>
        dispatch L.json w.server.callbacks c.sock (beforeNul data)).toList := by
  obtain ⟨es, hes, hexec⟩ := exec_pollClients_quiet L polls (c :: after) before 0 w
    fun i _ hi => hquiet i (by omega)
  rw [exec_receiveData L polls hclean, hclients, hexec, Nat.zero_add, pollClients,
    exec_bind_ok (exec_log _ _)]
  have hafter : ∀ w',
      invocations (exec (pollClients L polls (before.length + 1) after) w').2.trace =
        invocations w'.trace :=
    fun w' => invocations_pollClients_quiet L polls after _ w' fun i hi _ => hquiet i (by omega)
  have hstart : ∀ o, invocations ((w.record es).record [.recv c.sock o]).trace =
      invocations w.trace := by
    intro o
    rw [World.record_trace, invocations_append, World.record_trace, invocations_append, hes]
    simp [invocations]
  cases hrecv : (polls before.length).recv with
  | data chunk =>
      have hparse := invocations_parseReceivedData L (polls before.length).msg c
        (beforeNul chunk.bytes) ((w.record es).record [.recv c.sock (.data chunk)])
      rw [hstart] at hparse
      simp only [received, hrecv, Option.bind_some]
      rw [exec_bind]
      rcases hexec : exec (parseReceivedData L (polls before.length).msg c
        (beforeNul chunk.bytes)) ((w.record es).record [.recv c.sock (.data chunk)])
        with ⟨e | result, w'⟩ <;> rw [hexec] at hparse
      · exact hparse
      · exact (hafter w').trans hparse
  | closed =>
      simp only [received, hrecv, Option.bind_none, Option.toList_none, List.append_nil]
      exact (hafter _).trans (hstart _)
  | error code =>
      simp only [received, hrecv, Option.bind_none, Option.toList_none, List.append_nil]
      exact (hafter _).trans (hstart _)

/-- Call `receiveData` several times. -/
def receiveAll (L : Lib) (calls : List (Nat → PollEnv)) (w : World) : World :=
  calls.foldl (fun w polls => (exec (receiveData L polls) w).2) w

/-- **The callbacks that run are a function of the single chunks.** -/
theorem invocations_receiveAll (L : Lib) (calls : List (Nat → PollEnv)) :
    ∀ w : World, w.server.clients = before ++ c :: after →
      (∀ c ∈ w.server.clients, c.Clean) →
      (∀ polls ∈ calls, ∀ i, i ≠ before.length → received polls i = none) →
      invocations (receiveAll L calls w).trace =
        invocations w.trace ++ (calls.filterMap (received · before.length)).filterMap
          fun data => dispatch L.json w.server.callbacks c.sock (beforeNul data) := by
  induction calls with
  | nil => intro w _ _ _; simp [receiveAll]
  | cons polls calls ih =>
      intro w hclients hclean hquiet
      have hserver := (handles_receiveData L polls hclean).server
      have hone := invocations_receiveData L hclients hclean polls (hquiet polls List.mem_cons_self)
      have hrest := ih (exec (receiveData L polls) w).2 (by rw [hserver, hclients])
        (by rw [hserver]; exact hclean) fun p hp => hquiet p (List.mem_cons_of_mem polls hp)
      rw [receiveAll, List.foldl_cons]
      rw [receiveAll, hserver, hone] at hrest
      rw [hrest]
      cases hreceived : received polls before.length with
      | none => simp [hreceived]
      | some data =>
          cases hdispatch : dispatch L.json w.server.callbacks c.sock (beforeNul data) <;>
            simp [hreceived, hdispatch]

end OneClient

/-! ## Streams of commands -/

/-- A JSON command object: a text without NUL that the parser reads whole, and
after which it stops. -/
structure Command (J : JsonCpp) where
  text : Bytes
  members : List (Bytes × Value)
  ne_nil : text ≠ []
  noNul : 0 ∉ text
  parses : ∀ rest, J.parse (text ++ rest) = .ok (true, .object members)

/-- The bytes of a list of commands. -/
def stream {J : JsonCpp} (commands : List (Command J)) : Bytes := commands.flatMap Command.text

/-- The callback bound to the operation of a command. -/
def Command.callback {J : JsonCpp} (callbacks : StringMap ServerCallbacks) (cmd : Command J) :
    Option ServerCallbacks :=
  match (Value.object cmd.members).text J (lit "Ops") with
  | .ok key => callbacks[key]?
  | .error _ => none

section Commands

variable {J : JsonCpp} (callbacks : StringMap ServerCallbacks) (emiter : SOCKET)

/-- What follows the first command of a text is part of its message, and decides
nothing. -/
theorem Command.dispatch_append (cmd : Command J) (rest : Bytes) :
    dispatch J callbacks emiter (cmd.text ++ rest) =
      (cmd.callback callbacks).map fun callback => (callback, cmd.text ++ rest, emiter) := by
  rw [dispatch, operationOf_eq J (cmd.parses rest), Command.callback]
  cases (Value.object cmd.members).text J (lit "Ops") <;> rfl

theorem Command.dispatch_text (cmd : Command J) :
    dispatch J callbacks emiter cmd.text =
      (cmd.callback callbacks).map fun callback => (callback, cmd.text, emiter) := by
  simpa using cmd.dispatch_append callbacks emiter []

theorem noNul_stream (commands : List (Command J)) : 0 ∉ stream commands := by
  intro h
  obtain ⟨cmd, -, hcmd⟩ := List.mem_flatMap.mp h
  exact cmd.noNul hcmd

/-- The messages of the callbacks that run are the chunks that run one. -/
theorem messages_filterMap_dispatch (chunks : List Bytes) :
    (chunks.filterMap (dispatch J callbacks emiter)).map (fun i => i.2.1) =
      chunks.filter fun data => (dispatch J callbacks emiter data).isSome := by
  induction chunks with
  | nil => rfl
  | cons data chunks ih =>
      cases hdispatch : dispatch J callbacks emiter data with
      | none => simpa [hdispatch] using ih
      | some call =>
          have hmessage : call.2.1 = data := by
            unfold dispatch at hdispatch
            split at hdispatch
            · obtain ⟨callback, -, rfl⟩ := Option.map_eq_some_iff.mp hdispatch
              rfl
            · cases hdispatch
          simpa [hdispatch, hmessage] using ih

end Commands

/-- Parts of a list of non-empty pieces have less text, unless they are all of
them. -/
theorem eq_of_sublist_of_flatten_eq {α : Type} {l l' : List (List α)} (h : l'.Sublist l)
    (hne : ∀ piece ∈ l, piece ≠ []) (htext : l'.flatten = l.flatten) : l' = l := by
  induction h with
  | slnil => rfl
  | @cons l' l piece hsub ih =>
      have hpiece : 0 < piece.length :=
        List.length_pos_iff.mpr (hne piece List.mem_cons_self)
      have hle : l'.flatten.length ≤ l.flatten.length := hsub.flatten.length_le
      have hlength := congrArg List.length htext
      rw [List.flatten_cons, List.length_append] at hlength
      omega
  | @cons_cons l' l piece hsub ih =>
      rw [List.flatten_cons, List.flatten_cons, List.append_cancel_left_eq] at htext
      rw [ih (fun p hp => hne p (List.mem_cons_of_mem piece hp)) htext]

/-- **What the cutting of a stream decides.**  The callbacks that run are those
of the single chunks; a chunk of whole commands runs the callback of its first
one, with all of them as the message; and when every command has a callback, each
command is handled once, in order, exactly when the stream is cut into its
commands. -/
theorem receiveAll_segmentation (L : Lib) {w : World} {before after : List Client} {c : Client}
    (commands : List (Command L.json)) {calls : List (Nat → PollEnv)} {chunks : List Bytes}
    (hclients : w.server.clients = before ++ c :: after)
    (hclean : ∀ c ∈ w.server.clients, c.Clean)
    (hquiet : ∀ polls ∈ calls, ∀ i, i ≠ before.length → received polls i = none)
    (hchunks : calls.filterMap (received · before.length) = chunks)
    (hstream : chunks.flatten = stream commands) :
    ∃ new, invocations (receiveAll L calls w).trace = invocations w.trace ++ new ∧
      new = chunks.filterMap (dispatch L.json w.server.callbacks c.sock) ∧
      (∀ groups : List (List (Command L.json)), chunks = groups.map stream →
        new = groups.filterMap fun group => group.head?.bind fun first =>
          (first.callback w.server.callbacks).map fun callback =>
            (callback, stream group, c.sock)) ∧
      (chunks = commands.map Command.text →
        new = commands.filterMap fun cmd => (cmd.callback w.server.callbacks).map fun callback =>
          (callback, cmd.text, c.sock)) ∧
      ((∀ cmd ∈ commands, (cmd.callback w.server.callbacks).isSome) →
        (new.map (fun i => i.2.1) = commands.map Command.text ↔
          chunks = commands.map Command.text)) := by
  have hne : ∀ data ∈ chunks, data ≠ [] := by
    intro data hdata
    rw [← hchunks] at hdata
    obtain ⟨polls, -, hreceived⟩ := List.mem_filterMap.mp hdata
    exact received_ne_nil hreceived
  have hnul : ∀ data ∈ chunks, beforeNul data = data := by
    intro data hdata
    refine beforeNul_eq_self fun hmem => noNul_stream commands ?_
    rw [← hstream]
    exact List.mem_flatten_of_mem hdata hmem
  refine ⟨_, ?_, rfl, ?_, ?_, ?_⟩
  · rw [invocations_receiveAll L calls w hclients hclean hquiet, hchunks]
    congr 1
    exact List.filterMap_congr fun data hdata => by rw [hnul data hdata]
  · rintro groups rfl
    rw [List.filterMap_map]
    refine List.filterMap_congr fun group hgroup => ?_
    cases group with
    | nil => exact absurd rfl (hne _ (List.mem_map_of_mem hgroup))
    | cons first rest => exact first.dispatch_append _ _ (stream rest)
  · rintro rfl
    rw [List.filterMap_map]
    exact List.filterMap_congr fun cmd _ => cmd.dispatch_text _ _
  · intro hbound
    rw [messages_filterMap_dispatch]
    constructor
    · intro hfilter
      rw [← hfilter]
      refine (eq_of_sublist_of_flatten_eq List.filter_sublist hne ?_).symm
      rw [hfilter, hstream]
      rfl
    · rintro rfl
      refine List.filter_eq_self.mpr fun data hdata => ?_
      obtain ⟨cmd, hcmd, rfl⟩ := List.mem_map.mp hdata
      rw [cmd.dispatch_text, Option.isSome_map]
      exact hbound cmd hcmd

/-! ## One stream, three cuttings -/

/-- A registration as a command. -/
def registerCommand : Command registrationJson where
  text := registerA
  members := [(lit "Ops", .string (lit "REGISTER_DATAREF")), (lit "Name", .string (lit "a")),
    (lit "Link", .string (lit "one"))]
  ne_nil := by decide
  noNul := by decide
  parses rest := by
    have hbegins : registerA.isPrefixOf (registerA ++ rest) = true := by simp
    simp [registrationJson, JsonCpp.ofTable, hbegins, registrationJson.request]

/-- Polls in which the first client receives a chunk. -/
def pollChunk (chunk : Chunk) (i : Nat) : PollEnv :=
  ⟨if i = 0 then .data chunk else .closed, ⟨twoDatarefs, 6⟩⟩

/-- The stream of two registrations, cut between them, not at all, and inside
the first one. -/
def cutBetween : List (Nat → PollEnv) := [pollChunk chunkA, pollChunk chunkA]
def cutNowhere : List (Nat → PollEnv) :=
  [pollChunk ⟨registerA ++ registerA, by decide, by decide⟩]
def cutInside : List (Nat → PollEnv) :=
  [pollChunk ⟨registerA.take 10, by decide, by decide⟩,
   pollChunk ⟨registerA.drop 10 ++ registerA, by decide, by decide⟩]

/-- The server with one client. -/
def oneClient : World := serverAfter [acceptCall 7]

/-- Both registrations are handled when each has a chunk of its own. -/
theorem receiveAll_segmentation_between :
    ∃ new, invocations (receiveAll (.ofJson registrationJson) cutBetween oneClient).trace =
        invocations oneClient.trace ++ new ∧
      new.map (fun i => i.2.1) = [registerA, registerA] := by
  have hclients : oneClient.server.clients = [] ++ Client.ofSocket 7 :: [] := rfl
  have hclean : ∀ c ∈ oneClient.server.clients, c.Clean := by
    intro c hc
    rw [hclients, List.nil_append, List.mem_singleton] at hc
    rw [hc]
    exact Client.clean_ofSocket 7
  have hquiet : ∀ polls ∈ cutBetween, ∀ i, i ≠ ([] : List Client).length →
      received polls i = none := by
    intro polls hpolls i hi
    have hother : i ≠ 0 := hi
    simp only [cutBetween, List.mem_cons, List.not_mem_nil, or_false, or_self] at hpolls
    simp [hpolls, received, pollChunk, hother]
  have hbound : ∀ cmd ∈ [registerCommand, registerCommand],
      (cmd.callback oneClient.server.callbacks).isSome := by
    decide
  obtain ⟨new, htrace, -, -, -, hiff⟩ :=
    receiveAll_segmentation (.ofJson registrationJson) [registerCommand, registerCommand]
      hclients hclean hquiet rfl rfl
  exact ⟨new, htrace, (hiff hbound).mpr rfl⟩

/-- One stream of two commands is handled in three ways. -/
theorem not_segmentation_independent :
    (∀ calls ∈ [cutBetween, cutNowhere, cutInside],
      (calls.filterMap (received · 0)).flatten = stream [registerCommand, registerCommand]) ∧
    invocations (receiveAll (.ofJson registrationJson) cutBetween oneClient).trace =
      [(.registerDatarefCallback, registerA, 7), (.registerDatarefCallback, registerA, 7)] ∧
    invocations (receiveAll (.ofJson registrationJson) cutNowhere oneClient).trace =
      [(.registerDatarefCallback, registerA ++ registerA, 7)] ∧
    invocations (receiveAll (.ofJson registrationJson) cutInside oneClient).trace = [] := by
  refine ⟨?_, ?_, ?_, ?_⟩ <;> decide

end XplaneServer.Networking
