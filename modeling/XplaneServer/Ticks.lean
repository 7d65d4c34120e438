/-
  Ticks.lean --- runs of the plugin: what the registry and the snapshots of a
  run owe to the registrations accepted in it.

  The trace keeps the results of the callbacks, so the registrations accepted so
  far are a function of it (`accepted`).  In every state of a run the registry is
  the first-wins fold of these (`Faithful`), which gives two results: every
  snapshot a tick broadcasts is the one the accepted registrations determine
  (`snapshot_complete`), and every dataref a tick reads is safe to read
  (`registry_safe`).

  An exception that leaves a tick or a handler is caught by its caller, and the
  run goes on from the state it left; a run does not go on after undefined
  behaviour, as far as `Networking.TCPServer` has it.
-/
import XplaneServer.Snapshot

set_option autoImplicit false

namespace XplaneServer

open Foundation Json Datas Networking

/-! ## The accepted registrations -/

/-- The bindings of the registrations that were answered with success, in the
order in which they were handled. -/
def accepted (J : JsonCpp) (trace : List Event) : List (Bytes × Dataref) :=
  trace.filterMap fun
    | .returned .registerDatarefCallback dataIn _ env result =>
        if result = 0 then (requestOf J dataIn).map (Request.binding env.sim) else none
    | _ => none

@[simp] theorem accepted_append (J : JsonCpp) (es es' : List Event) :
    accepted J (es ++ es') = accepted J es ++ accepted J es' :=
  List.filterMap_append

/-- A state in which `RegisterDataref_Callback` is the only callback, and the
registry holds the first accepted registration of each name. -/
structure Faithful (J : JsonCpp) (w : World) : Prop where
  callbacks : w.server.callbacks = startCallbacks
  datarefMap : w.datarefMap = firstWins ∅ (accepted J w.trace)

namespace Faithful

variable {J : JsonCpp} {w w' : World}

/-- What a part of a tick that accepts no registration does. -/
theorem of_same (h : Faithful J w) (hcallbacks : w'.server.callbacks = w.server.callbacks)
    (hmap : w'.datarefMap = w.datarefMap)
    (haccepted : accepted J w'.trace = accepted J w.trace) : Faithful J w' :=
  ⟨hcallbacks.trans h.callbacks, by rw [hmap, haccepted, h.datarefMap]⟩

/-- The dataref of a name is the one its first accepted registration made. -/
theorem getElem? (h : Faithful J w) (name : Bytes) :
    w.datarefMap[name]? = firstBinding name (accepted J w.trace) := by
  rw [h.datarefMap, getElem?_firstWins]
  simp

/-- The names are those of the accepted registrations. -/
theorem mem_iff (h : Faithful J w) (name : Bytes) :
    name ∈ w.datarefMap ↔ name ∈ (accepted J w.trace).map Prod.fst := by
  rw [h.datarefMap, mem_firstWins]
  simp

/-- Every dataref of the registry was made by a registration. -/
theorem readable (h : Faithful J w) : Readable w.datarefMap := by
  intro name d hd
  rw [h.getElem?] at hd
  obtain ⟨p, hfind, rfl⟩ := Option.map_eq_some_iff.mp hd
  obtain ⟨e, -, he⟩ := List.mem_filterMap.mp (List.mem_of_find?_eq_some hfind)
  split at he
  · split at he
    · obtain ⟨r, hr, rfl⟩ := Option.map_eq_some_iff.mp he
      exact Dataref.ofLink_live_or_dead _ r.link (requestOf_scalar hr)
    · cases he
  · cases he

/-- A registration that is accepted. -/
theorem accept (h : Faithful J w) {r : Request} {S : Sim} {es : List Event}
    (hes : accepted J es = [r.binding S]) :
    Faithful J ((addBinding w (r.binding S)).record es) := by
  refine ⟨h.callbacks, ?_⟩
  rw [World.record_trace, accepted_append, hes, firstWins_append]
  exact congrArg (firstWins · [r.binding S]) h.datarefMap

end Faithful

theorem Started.faithful {w : World} (h : Started w) (J : JsonCpp) : Faithful J w := by
  obtain ⟨-, hcallbacks, hmap, htrace⟩ := h.tables
  have hnone : accepted J w.trace = [] := by
    refine List.filterMap_eq_nil_iff.mpr fun e he => ?_
    have hstartup := htrace e he
    cases e <;> first | rfl | cases hstartup
  exact ⟨hcallbacks, by rw [hmap, hnone]; rfl⟩

/-! ## The phases of a tick -/

/-- A part of a tick: it keeps the registry faithful, and extends the trace by
events of a kind. -/
def Phase (J : JsonCpp) (P : Event → Prop) (w w' : World) : Prop :=
  Faithful J w → Faithful J w' ∧ ∃ es, w'.trace = w.trace ++ es ∧ ∀ e ∈ es, P e

section Phase

variable {J : JsonCpp} {P : Event → Prop}

instance : Std.Refl (Phase J P) := ⟨fun _ h => ⟨h, [], by simp, by simp⟩⟩

instance : IsTrans World (Phase J P) where
  trans := by
    intro w₁ w₂ w₃ hfirst hsecond h
    obtain ⟨h₂, es, htrace, hes⟩ := hfirst h
    obtain ⟨h₃, es', htrace', hes'⟩ := hsecond h₂
    refine ⟨h₃, es ++ es', ?_, fun e he => ?_⟩
    · rw [htrace', htrace, List.append_assoc]
    · exact (List.mem_append.mp he).elim (hes e) (hes' e)

/-- Events without an accepted registration. -/
theorem phase_record {es : List Event} (hP : ∀ e ∈ es, P e) (hnone : accepted J es = [])
    (w : World) : Phase J P w (w.record es) :=
  fun h => ⟨h.of_same rfl rfl (by simp [hnone]), es, rfl, hP⟩

theorem phase_log {e : Event} (hP : P e) (hnone : accepted J [e] = []) :
    Respects (Phase J P) (log e) :=
  phase_record (by simpa using hP) hnone

theorem phase_sendTCPData {c : Client} {data : Bytes} {result : Int}
    (hP : P (.send c.sock data result)) :
    Respects (Phase J P) (c.sendTCPData data result) :=
  phase_record (by simpa using hP) rfl

theorem phase_withClients (f : World → List Client) :
    Respects (Phase J P) (modify fun w => w.withClients (f w) : Plugin PUnit) :=
  fun _ h => ⟨h.of_same rfl rfl rfl, [], by simp, by simp⟩

end Phase

/-- The events of a tick before the snapshot is built. -/
def Event.BeforeSnapshot : Event → Prop
  | .getData _ => False
  | .broadcast _ => False
  | _ => True

theorem beforeSnapshot_of_handling {e : Event} (h : Handling e) : e.BeforeSnapshot := by
  cases e <;> trivial

theorem phase_listenForClient (J : JsonCpp) (t : AcceptEnv) :
    Respects (Phase J Event.BeforeSnapshot) (listenForClient t) := by
  unfold listenForClient
  refine Respects.bind (phase_log trivial rfl) fun _ => ?_
  cases t.accept with
  | none => exact Respects.pure _
  | some s =>
      refine Respects.bind (phase_log trivial rfl) fun _ => ?_
      refine Respects.bind (phase_log trivial rfl) fun _ => ?_
      refine Respects.ite (Respects.pure _) ?_
      refine Respects.bind (phase_log trivial rfl) fun _ => ?_
      refine Respects.bind (phase_withClients _) fun _ => ?_
      exact Respects.bind Respects.get fun _ => Respects.pure _

/-- One message: at most one registration is accepted, and it is bound. -/
theorem Faithful.parseReceivedData {L : Lib} {w : World} (h : Faithful L.json w) (env : MsgEnv)
    (cli : Client) (data : Bytes) :
    Faithful L.json (exec (parseReceivedData L env cli data) w).2 := by
  rw [exec_parseReceivedData_start h.callbacks]
  cases operationOf L.json data with
  | error e => exact h
  | ok key =>
      by_cases hkey : key = lit "REGISTER_DATAREF"
      · simp only [if_pos hkey, exec_runCallback_register]
        cases hdecode : decodeRequest L.json data with
        | error e => exact h.of_same rfl rfl (by simp [accepted])
        | ok r =>
            cases r with
            | none => exact h.of_same rfl rfl (by simp [accepted])
            | some r => exact h.accept (by simp [accepted, requestOf_of_ok hdecode])
      · simpa only [if_neg hkey] using h

theorem phase_parseReceivedData (L : Lib) (env : MsgEnv) (cli : Client) (data : Bytes) :
    Respects (Phase L.json Event.BeforeSnapshot) (parseReceivedData L env cli data) := by
  intro w h
  obtain ⟨-, es, htrace, hes⟩ := handles_parseReceivedData L env cli data w
  refine ⟨h.parseReceivedData env cli data, es, htrace, fun e he => ?_⟩
  exact beforeSnapshot_of_handling (hes e he)

theorem phase_receiveDataLoop (L : Lib) (polls : Nat → PollEnv) :
    ∀ after before : List Client,
      Respects (Phase L.json Event.BeforeSnapshot) (receiveDataLoop L polls before after) := by
  intro after
  induction after with
  | nil => exact fun before => Respects.pure _
  | cons it after ih =>
      intro before
      refine Respects.bind (phase_log trivial rfl) fun _ => ?_
      refine Respects.bind (phase_withClients _) fun _ => ?_
      refine Respects.ite ?_ (ih _)
      refine Respects.bind (Respects.lift _) fun _ => ?_
      refine Respects.bind (phase_withClients _) fun _ => ?_
      exact Respects.bind (phase_parseReceivedData L _ _ _) fun _ => ih _

theorem phase_broadcastDataLoop (J : JsonCpp) (data : Bytes) (sends : Nat → Int)
    (n : Nat) (before after : List Client) :
    Respects (Phase J Sending) (broadcastDataLoop data sends n before after) := by
  induction n, before, after using broadcastDataLoop.induct with
  | case1 n before => exact Respects.pure _
  | case2 n before it after ihskip ih =>
      have hsend : Respects (Phase J Sending) (it.sendTCPData data (sends n)) :=
        phase_sendTCPData trivial
      unfold broadcastDataLoop
      refine Respects.bind hsend fun res => ?_
      refine Respects.ite ?_ ih
      refine Respects.bind (phase_log trivial rfl) fun _ => ?_
      refine Respects.bind (phase_withClients _) fun _ => ?_
      cases after with
      | nil => exact Respects.throw _
      | cons next after => exact ihskip

/-! ## One tick -/

/-- The part of a tick before the snapshot is built. -/
def receivePhase (L : Lib) (t : TickEnv) : Plugin Unit := do
  let _ ← listenForClient t.accept
  receiveData L t.polls

theorem phase_receivePhase (L : Lib) (t : TickEnv) :
    Respects (Phase L.json Event.BeforeSnapshot) (receivePhase L t) :=
  Respects.bind (phase_listenForClient L.json t.accept) fun _ =>
    Respects.bind Respects.get fun w => phase_receiveDataLoop L t.polls w.server.clients []

/-- The part of a tick from the snapshot on. -/
def broadcastSnapshot (t : TickEnv) : Plugin Rat := do
  let data ← snapshot t.sim
  let _ ← broadcastData data t.sends
  return 1 / 2

/-- A program that asks whether a client is connected. -/
theorem exec_connected {α : Type} (x y : Plugin α) (w : World) :
    exec (do if 0 < (← connectedClients) then x else y) w =
      if w.server.clients = [] then exec y w else exec x w := by
  simp only [connectedClients, exec_bind, exec_get, exec_pure]
  by_cases hclients : w.server.clients = []
  · simp [hclients]
  · have hpos : (0 : Int) < w.server.clients.length := by
      have := List.length_pos_iff.mpr hclients
      omega
    rw [if_pos hpos, if_neg hclients]

/-- A tick goes on to the snapshot when no exception left the first part and a
client is connected. -/
theorem exec_mainCallBack (L : Lib) (t : TickEnv) (w : World) :
    exec (mainCallBack L t) w =
      match exec (receivePhase L t) w with
      | (.error e, w₁) => (.error e, w₁)
      | (.ok _, w₁) =>
          if w₁.server.clients = [] then (.ok (1 / 2), w₁)
          else exec (broadcastSnapshot t) w₁ := by
  unfold mainCallBack receivePhase
  rw [exec_bind, exec_bind]
  rcases exec (listenForClient t.accept) w with ⟨_ | n, w'⟩
  · rfl
  · simp only
    rw [exec_bind]
    rcases exec (receiveData L t.polls) w' with ⟨_ | u, w₁⟩
    · rfl
    · exact exec_connected _ _ w₁

/-- On a readable registry, it is the loop of the broadcast after the calls of
the getters. -/
theorem exec_broadcastSnapshot (t : TickEnv) {w : World} (h : Readable w.datarefMap) :
    (exec (broadcastSnapshot t) w).2 =
      (exec (broadcastDataLoop (snapshotText t.sim w.datarefMap) t.sends 0 [] w.server.clients)
        (w.record (snapshotCalls t.sim w.datarefMap ++
          [.broadcast (snapshotText t.sim w.datarefMap)]))).2 := by
  rw [broadcastSnapshot, exec_bind_ok (exec_snapshot t.sim h)]
  simp only [broadcastData, exec_bind, exec_log, exec_get, World.record_server,
    World.record_record]
  rcases exec (broadcastDataLoop _ _ _ _ _) _ with ⟨_ | u, w'⟩ <;> rfl

/-- The getters accept no registration. -/
theorem accepted_snapshotCalls (J : JsonCpp) (S : Sim) (m : DatarefMap) :
    accepted J (snapshotCalls S m) = [] := by
  refine List.filterMap_eq_nil_iff.mpr fun e he => ?_
  obtain ⟨name, d, call, -, -, rfl⟩ := mem_snapshotCalls he
  rfl

/-- From the snapshot on, a faithful state broadcasts the text of its registry. -/
theorem Faithful.broadcastSnapshot {J : JsonCpp} {w : World} (h : Faithful J w) (t : TickEnv) :
    Faithful J (exec (broadcastSnapshot t) w).2 ∧
      ∃ sent, (∀ e ∈ sent, Sending e) ∧
        (exec (XplaneServer.broadcastSnapshot t) w).2.trace =
          w.trace ++ snapshotCalls t.sim w.datarefMap ++
            .broadcast (snapshotText t.sim w.datarefMap) :: sent := by
  have hnone : accepted J (snapshotCalls t.sim w.datarefMap ++
      [.broadcast (snapshotText t.sim w.datarefMap)]) = [] := by
    rw [accepted_append, accepted_snapshotCalls]
    rfl
  have hbefore : Faithful J (w.record (snapshotCalls t.sim w.datarefMap ++
      [.broadcast (snapshotText t.sim w.datarefMap)])) :=
    h.of_same rfl rfl (by rw [World.record_trace, accepted_append, hnone, List.append_nil])
  obtain ⟨hafter, sent, htrace, hsent⟩ :=
    phase_broadcastDataLoop J (snapshotText t.sim w.datarefMap) t.sends 0 [] w.server.clients
      _ hbefore
  rw [exec_broadcastSnapshot t h.readable]
  exact ⟨hafter, sent, hsent, by simp [htrace]⟩

/-- **Everything a tick does to a faithful state.**  It ends before the snapshot,
with an exception or without a client, or it broadcasts the snapshot of the
registry after the receives. -/
theorem exec_mainCallBack_cases {L : Lib} {w : World} (h : Faithful L.json w) (t : TickEnv) :
    Faithful L.json (exec (mainCallBack L t) w).2 ∧
      ∃ w₁ es, Faithful L.json w₁ ∧ w₁.trace = w.trace ++ es ∧ (∀ e ∈ es, e.BeforeSnapshot) ∧
        ((exec (mainCallBack L t) w).2 = w₁ ∨
          ∃ sent, (∀ e ∈ sent, Sending e) ∧
            (exec (mainCallBack L t) w).2.trace =
              w₁.trace ++ snapshotCalls t.sim w₁.datarefMap ++
                .broadcast (snapshotText t.sim w₁.datarefMap) :: sent) := by
  obtain ⟨h₁, es, htrace, hes⟩ := phase_receivePhase L t w h
  rw [exec_mainCallBack]
  rcases hreceive : exec (receivePhase L t) w with ⟨e | u, w₁⟩ <;>
    rw [hreceive] at h₁ htrace
  · exact ⟨h₁, w₁, es, h₁, htrace, hes, Or.inl rfl⟩
  · by_cases hclients : w₁.server.clients = []
    · simp only [if_pos hclients]
      exact ⟨h₁, w₁, es, h₁, htrace, hes, Or.inl rfl⟩
    · simp only [if_neg hclients]
      obtain ⟨h₂, hsent⟩ := h₁.broadcastSnapshot t
      exact ⟨h₂, w₁, es, h₁, htrace, hes, Or.inr hsent⟩

/-- One tick of a run. -/
def Tick (L : Lib) (w : World) (t : TickEnv) (w' : World) : Prop := Leads (mainCallBack L t) w w'

/-- A tick keeps a state faithful and extends its trace. -/
theorem Tick.phase {L : Lib} {w w' : World} {t : TickEnv} (h : Tick L w t w') :
    Phase L.json (fun _ => True) w w' := by
  intro hw
  obtain ⟨rfl, -⟩ := h
  obtain ⟨hw', w₁, es, -, htrace, -, hend | ⟨sent, -, hend⟩⟩ := exec_mainCallBack_cases hw t
  · exact ⟨hw', es, by rw [hend, htrace], by simp⟩
  · rw [htrace, List.append_assoc, List.append_assoc] at hend
    exact ⟨hw', _, hend, by simp⟩

theorem phase_of_run {L : Lib} {w w' : World} {ticks : List TickEnv}
    (hrun : Run (Tick L) w ticks w') : Phase L.json (fun _ => True) w w' :=
  Run.respects (fun s i s' (h : Tick L s i s') => h.phase) hrun

/-! ## The snapshots of a run -/

/-- The text is a snapshot of a history of registrations: a line for each name
of the history, in ascending order of the names, with the value that the first
dataref of the name has now. -/
structure IsSnapshot (S : Sim) (history : List (Bytes × Dataref)) (names : List Bytes)
    (text : Bytes) : Prop where
  ascending : names.Pairwise fun a b => compare a b = .lt
  complete : ∀ name, name ∈ names ↔ name ∈ history.map Prod.fst
  lines : ∃ value : Bytes → Bytes,
    text = names.flatMap (fun name => name ++ lit " : " ++ value name ++ lit "\n") ∧
      ∀ name d, firstBinding name history = some d →
        (d.getValue S).2 = .ok (value name) ∧ (d.isValid = false → value name = [])

/-- A tick from a state broadcasts a text, after these events. -/
def Broadcasts (L : Lib) (t : TickEnv) (w : World) (before : List Event) (text : Bytes) : Prop :=
  ∃ new after, before = w.trace ++ new ∧
    (exec (mainCallBack L t) w).2.trace = before ++ .broadcast text :: after

/-- The text of a faithful registry is a snapshot of the accepted registrations. -/
theorem Faithful.isSnapshot {J : JsonCpp} {w : World} (h : Faithful J w) (S : Sim) :
    IsSnapshot S (accepted J w.trace) w.datarefMap.keys (snapshotText S w.datarefMap) := by
  refine ⟨Std.ExtTreeMap.ordered_keys, fun name => ?_,
    fun name => (firstBinding name (accepted J w.trace)).elim [] (Dataref.valueText S), ?_,
    fun name d hd => ?_⟩
  · rw [Std.ExtTreeMap.mem_keys]
    exact h.mem_iff name
  · rw [← Std.ExtTreeMap.map_fst_toList_eq_keys, List.flatMap_map]
    refine List.flatMap_congr fun p hp => ?_
    have hfirst : firstBinding p.1 (accepted J w.trace) = some p.2 := by
      rw [← h.getElem?]
      exact mem_toList_iff.mp hp
    simp [snapshotLine, lineEnding, hfirst]
  · have hentry : w.datarefMap[name]? = some d := (h.getElem? name).trans hd
    have hread := h.readable name d hentry
    refine ⟨by simpa [hd] using Dataref.getValue_eq_ok S hread, fun hinvalid => ?_⟩
    rcases hread with hlive | hdead
    · rw [hlive.1] at hinvalid
      cases hinvalid
    · simpa [hd] using Dataref.valueText_dead S hdead

/-- What a tick broadcasts is the snapshot of a faithful state, which has the
accepted registrations of the trace so far. -/
theorem Broadcasts.faithful {L : Lib} {t : TickEnv} {w : World} {before : List Event}
    {text : Bytes} (h : Broadcasts L t w before text) (hw : Faithful L.json w) :
    ∃ w₁, Faithful L.json w₁ ∧ accepted L.json before = accepted L.json w₁.trace ∧
      text = snapshotText t.sim w₁.datarefMap := by
  obtain ⟨new, after, rfl, htrace⟩ := h
  obtain ⟨-, w₁, es, hw₁, htrace₁, hes, hend | ⟨sent, hsent, hend⟩⟩ := exec_mainCallBack_cases hw t
  · -- the tick ended before the snapshot
    rw [hend, htrace₁, List.append_assoc, List.append_cancel_left_eq] at htrace
    have hmem : Event.broadcast text ∈ es := by simp [htrace]
    exact absurd (hes _ hmem) id
  · rw [hend, htrace₁, List.append_assoc, List.append_assoc, List.append_assoc,
      List.append_cancel_left_eq, ← List.append_assoc] at htrace
    have hbefore : Event.broadcast text ∉ es ++ snapshotCalls t.sim w₁.datarefMap := by
      intro hmem
      rcases List.mem_append.mp hmem with hmem | hmem
      · exact hes _ hmem
      · obtain ⟨_, _, _, -, -, heq⟩ := mem_snapshotCalls hmem
        cases heq
    have hafter : Event.broadcast text ∉ sent := fun hmem => hsent _ hmem
    obtain ⟨hnew, hevent⟩ := append_cons_inj htrace hbefore (Or.inr hafter)
    refine ⟨w₁, hw₁, ?_, (Event.broadcast.inj hevent).symm⟩
    rw [htrace₁, ← hnew, ← List.append_assoc, accepted_append, accepted_snapshotCalls,
      List.append_nil]

/-- A tick that throws nothing before the snapshot, with a client connected,
broadcasts. -/
theorem broadcasts_of_connected {L : Lib} (t : TickEnv) {w : World} (hw : Faithful L.json w)
    (hok : (exec (receivePhase L t) w).1 = .ok ())
    (hclients : (exec (receivePhase L t) w).2.server.clients ≠ []) :
    ∃ before text, Broadcasts L t w before text := by
  obtain ⟨hw₁, es, htrace, -⟩ := phase_receivePhase L t w hw
  rcases hreceive : exec (receivePhase L t) w with ⟨r, w₁⟩
  rw [hreceive] at hok hclients hw₁ htrace
  simp only at hok hclients hw₁ htrace
  subst hok
  obtain ⟨-, sent, -, hend⟩ := hw₁.broadcastSnapshot t
  refine ⟨_, snapshotText t.sim w₁.datarefMap, es ++ snapshotCalls t.sim w₁.datarefMap, sent,
    rfl, ?_⟩
  rw [exec_mainCallBack, hreceive]
  simp only [if_neg hclients]
  rw [hend, htrace, List.append_assoc w.trace]

/-- **Every snapshot is complete and fresh.**  The text a tick of a run passes to
`broadcastData` is a snapshot of the registrations accepted before it, and its
names are in every later one. -/
theorem snapshot_complete {L : Lib} {w₀ w : World} {ticks : List TickEnv} {t : TickEnv}
    {before : List Event} {text : Bytes} (hstart : Started w₀)
    (hrun : Run (Tick L) w₀ ticks w) (htext : Broadcasts L t w before text) :
    (∃ names, IsSnapshot t.sim (accepted L.json before) names text) ∧
      ∀ (w₁ w' : World) (ticks' : List TickEnv) (t' : TickEnv) (before' : List Event)
        (text' : Bytes) (names names' : List Bytes),
        Tick L w t w₁ → Run (Tick L) w₁ ticks' w' → Broadcasts L t' w' before' text' →
        IsSnapshot t.sim (accepted L.json before) names text →
        IsSnapshot t'.sim (accepted L.json before') names' text' → names ⊆ names' := by
  obtain ⟨hw, -⟩ := phase_of_run hrun (hstart.faithful L.json)
  constructor
  · obtain ⟨w₁, hw₁, hhistory, rfl⟩ := htext.faithful hw
    exact ⟨_, hhistory ▸ hw₁.isSnapshot t.sim⟩
  · intro w₁ w' ticks' t' before' text' names names' htick hrun' htext' hnames hnames' name hname
    obtain ⟨new, after, -, hend⟩ := htext
    obtain ⟨new', after', rfl, -⟩ := htext'
    obtain ⟨hw₁, -⟩ := htick.phase hw
    obtain ⟨-, es, htrace, -⟩ := phase_of_run hrun' hw₁
    have hmem : name ∈ (accepted L.json before).map Prod.fst := (hnames.complete name).mp hname
    rw [htick.1] at hend
    rw [hnames'.complete, htrace, hend]
    simp only [accepted_append, List.map_append, List.mem_append]
    exact Or.inl (Or.inl (Or.inl hmem))

/-- A tick that accepts a client and handles a registration from it. -/
def registerTick : TickEnv where
  accept := ⟨some 7, 20, 0⟩
  polls _ := ⟨.data chunkA, ⟨twoDatarefs, 6⟩⟩
  sim := twoDatarefs
  sends _ := 7

/-- The first tick of a run. -/
theorem snapshot_complete_registerTick :
    ∃ before text, Broadcasts (.ofJson registrationJson) registerTick .started before text ∧
      ∃ names, IsSnapshot twoDatarefs (accepted registrationJson before) names text := by
  have hfaithful : Faithful (Lib.ofJson registrationJson).json .started :=
    started_started.faithful _
  have hclients : (exec (receivePhase (.ofJson registrationJson) registerTick)
      .started).2.server.clients.map Client.sock = [7] := by rfl
  obtain ⟨before, text, htext⟩ :=
    broadcasts_of_connected registerTick hfaithful (by rfl) (fun h => by simp [h] at hclients)
  exact ⟨before, text, htext, (snapshot_complete started_started (Run.nil _) htext).1⟩

/-! ## What a run reads -/

/-- An input of the plugin: a message, or a tick. -/
inductive Input where
  | message (m : Message)
  | tick (t : TickEnv)

/-- One step of a run of messages and ticks. -/
def Input.Step (L : Lib) (w : World) : Input → World → Prop
  | .message m, w' => Leads (parseReceivedData L m.env m.client m.data) w w'
  | .tick t, w' => Leads (mainCallBack L t) w w'

/-- Every dataref of the registry is resolved and of a scalar type, or invalid
and read as the empty text without a call of the simulator. -/
def Safe (m : DatarefMap) : Prop :=
  ∀ (name : Bytes) (d : Dataref), m[name]? = some d →
    d.Live ∨ (d.Dead ∧ ∀ S, d.getValue S = ([], .ok []))

theorem Faithful.safe {J : JsonCpp} {w : World} (h : Faithful J w) : Safe w.datarefMap :=
  fun name d hd =>
    (h.readable name d hd).imp id fun hdead => ⟨hdead, fun S => Dataref.getValue_dead S hdead⟩

/-- The calls that build a snapshot of a readable registry. -/
theorem snapshotCalls_safe {S : Sim} {m : DatarefMap} (h : Readable m) {call : XPLMGet}
    (hcall : .getData call ∈ snapshotCalls S m) :
    call.dataref ≠ NULL ∧
      (call.getter = .datai ∨ call.getter = .dataf ∨ call.getter = .datad) := by
  obtain ⟨name, d, call', hd, hmem, heq⟩ := mem_snapshotCalls hcall
  cases heq
  rcases h name d hd with hlive | hdead
  · obtain ⟨getter, text, hget, hgetter⟩ := Dataref.getValue_live S hlive
    rw [hget, List.mem_singleton] at hmem
    subst hmem
    exact ⟨hlive.2.1, hgetter⟩
  · rw [Dataref.getValue_dead S hdead] at hmem
    cases hmem

/-- **What the network puts into the registry is safe to read**: in every state
of a run, and while the next tick reads it, however that tick ends. -/
theorem registry_safe {L : Lib} {w₀ w : World} {inputs : List Input} (hstart : Started w₀)
    (hrun : Run (Input.Step L) w₀ inputs w) :
    Safe w.datarefMap ∧
      ∀ t : TickEnv, Safe (exec (mainCallBack L t) w).2.datarefMap ∧
        ∃ es, (exec (mainCallBack L t) w).2.trace = w.trace ++ es ∧
          ∀ call, .getData call ∈ es → call.dataref ≠ NULL ∧
            (call.getter = .datai ∨ call.getter = .dataf ∨ call.getter = .datad) := by
  have hfaithful : Faithful L.json w := by
    refine hrun.invariant (fun s i s' hs hstep => ?_) (hstart.faithful L.json)
    cases i with
    | message m =>
        rw [← hstep.1]
        exact (phase_parseReceivedData L m.env m.client m.data s hs).1
    | tick t => exact (Tick.phase hstep hs).1
  refine ⟨hfaithful.safe, fun t => ?_⟩
  obtain ⟨hw', w₁, es, hw₁, htrace, hes, hend | ⟨sent, hsent, hend⟩⟩ :=
    exec_mainCallBack_cases hfaithful t
  · refine ⟨hw'.safe, es, by rw [hend, htrace], fun call hcall => ?_⟩
    exact absurd (hes _ hcall) id
  · rw [htrace, List.append_assoc, List.append_assoc] at hend
    refine ⟨hw'.safe, _, hend, fun call hcall => ?_⟩
    rcases List.mem_append.mp hcall with hcall | hcall
    · exact absurd (hes _ hcall) id
    · rcases List.mem_append.mp hcall with hcall | hcall
      · exact snapshotCalls_safe hw₁.readable hcall
      · rcases List.mem_cons.mp hcall with heq | hcall
        · cases heq
        · exact absurd (hsent _ hcall) id

/-- The registry after one registration, from the started server. -/
theorem registry_safe_registerA :
    Safe (exec (parseReceivedData (.ofJson registrationJson) ⟨twoDatarefs, 6⟩ (.ofSocket 7)
      registerA) .started).2.datarefMap := by
  have hstep : Input.Step (.ofJson registrationJson) .started
      (.message (sampleMessage registerA)) _ := leads_of_ok (show _ = Except.ok 0 from rfl)
  exact (registry_safe started_started (Run.snoc (Run.nil _) hstep)).1

end XplaneServer
