/-
  Start.lean --- the state in which the plugin starts to run.

  `initServer` can succeed or fail, and the failure is spoken and otherwise
  ignored; in every case in which `XPluginStart` returns, the server has no
  client, the registry no binding, and `RegisterDataref_Callback` is the only
  callback bound (`Started.tables`).
-/
import XplaneServer.Main

set_option autoImplicit false

namespace XplaneServer

open Foundation
open Networking

/-- The callback table `XPluginStart` makes. -/
def startCallbacks : StringMap ServerCallbacks :=
  (∅ : StringMap ServerCallbacks).insertIfNew (lit "REGISTER_DATAREF") .registerDatarefCallback

theorem getElem?_startCallbacks (key : Bytes) :
    startCallbacks[key]? =
      if key = lit "REGISTER_DATAREF" then some .registerDatarefCallback else none := by
  unfold startCallbacks
  rw [getElem?_insertIfNew_or]
  simp [eq_comm]

/-- The worlds `XPluginStart` can leave when it returns. -/
def Started (w : World) : Prop :=
  ∃ env uninitialized result,
    exec (xPluginStart env uninitialized) World.initial = (.ok result, w)

/-- The events of `XPluginStart`. -/
def startupEvent : Event → Prop
  | .bind .. => True
  | .listen .. => True
  | .closesocket _ => True
  | .ioctlsocket .. => True
  | .speakString _ => True
  | .registerFlightLoopCallback => True
  | _ => False

/-- What `initServer` leaves alone. -/
structure SameTables (w w' : World) : Prop where
  clients : w'.server.clients = w.server.clients
  callbacks : w'.server.callbacks = w.server.callbacks
  datarefMap : w'.datarefMap = w.datarefMap
  trace : (∀ e ∈ w.trace, startupEvent e) → ∀ e ∈ w'.trace, startupEvent e

instance : Std.Refl SameTables := ⟨fun _ => ⟨rfl, rfl, rfl, id⟩⟩

instance : IsTrans World SameTables :=
  ⟨fun _ _ _ h h' =>
    ⟨h'.clients.trans h.clients, h'.callbacks.trans h.callbacks,
      h'.datarefMap.trans h.datarefMap, h'.trace ∘ h.trace⟩⟩

theorem sameTables_log {e : Event} (he : startupEvent e) : Respects SameTables (log e) := by
  refine Respects.modify fun w => ⟨rfl, rfl, rfl, fun hw e' he' => ?_⟩
  rcases List.mem_append.mp he' with hold | hnew
  · exact hw e' hold
  · rw [List.mem_singleton.mp hnew]
    exact he

theorem sameTables_isValid :
    Respects SameTables (do return (← get).server.isValid : Plugin Bool) :=
  Respects.bind Respects.get fun _ => Respects.pure _

theorem sameTables_initServer (env : InitEnv) : Respects SameTables (initServer env) := by
  unfold initServer
  refine Respects.ite sameTables_isValid ?_
  refine Respects.bind (Respects.modify fun _ => ⟨rfl, rfl, rfl, id⟩) fun _ => ?_
  cases env.socket with
  | none => exact sameTables_isValid
  | some s =>
      refine Respects.bind Respects.get fun _ => ?_
      refine Respects.bind (sameTables_log trivial) fun _ => ?_
      refine Respects.ite sameTables_isValid ?_
      refine Respects.bind (sameTables_log trivial) fun _ => ?_
      refine Respects.ite (Respects.bind (sameTables_log trivial) fun _ => Respects.pure _) ?_
      refine Respects.bind (sameTables_log trivial) fun _ => ?_
      refine Respects.ite (Respects.ite (Respects.throw _) (Respects.pure _)) ?_
      exact Respects.bind (Respects.modify fun _ => ⟨rfl, rfl, rfl, id⟩) fun _ =>
        Respects.pure _

/-- **The plugin starts empty**: no client, no binding in the registry, the one
callback, and nothing in the trace but the events of the start. -/
theorem Started.tables {w : World} (h : Started w) :
    w.server.clients = [] ∧ w.server.callbacks = startCallbacks ∧ w.datarefMap = ∅ ∧
      ∀ e ∈ w.trace, startupEvent e := by
  obtain ⟨env, uninitialized, result, hexec⟩ := h
  unfold xPluginStart at hexec
  rw [exec_bind_ok (exec_modify _ _)] at hexec
  have hinit := sameTables_initServer env
    { World.initial with server := TCPServer.ofAddress 5505 (lit "0.0.0.0") uninitialized }
  rw [exec_bind] at hexec
  rcases hout : exec (initServer env)
    { World.initial with server := TCPServer.ofAddress 5505 (lit "0.0.0.0") uninitialized }
    with ⟨e | valid, w₁⟩ <;> rw [hout] at hexec hinit
  · cases hexec
  · obtain ⟨hclients, hcallbacks, hmap, htrace⟩ := hinit
    have hstart : ∀ e ∈ w₁.trace, startupEvent e := htrace (by simp [World.initial])
    have htables : ∀ es : List Event, (∀ e ∈ es, startupEvent e) →
        w = { w₁ with
          server := { w₁.server with
            callbacks := w₁.server.callbacks.insertIfNew (lit "REGISTER_DATAREF")
              .registerDatarefCallback }
          trace := w₁.trace ++ es } →
        w.server.clients = [] ∧ w.server.callbacks = startCallbacks ∧ w.datarefMap = ∅ ∧
          ∀ e ∈ w.trace, startupEvent e := by
      rintro es hes rfl
      refine ⟨hclients, by rw [hcallbacks]; rfl, hmap, fun e he => ?_⟩
      exact (List.mem_append.mp he).elim (hstart e) (hes e)
    cases valid with
    | false =>
        refine htables [.speakString (lit "UNABLE TO START THE SERVER"),
          .registerFlightLoopCallback] (by simp [startupEvent]) ?_
        simpa [exec_bind, exec_map, bindCallback, World.record] using
          (congrArg Prod.snd hexec).symm
    | true =>
        refine htables [.registerFlightLoopCallback] (by simp [startupEvent]) ?_
        simpa [exec_bind, exec_map, bindCallback, World.record] using
          (congrArg Prod.snd hexec).symm

/-- A start in which every call succeeds. -/
def World.started : World :=
  (exec (xPluginStart ⟨0, some 3, 0, 0, 0, 0⟩ false) World.initial).2

theorem started_started : Started World.started := ⟨⟨0, some 3, 0, 0, 0, 0⟩, false, 1, rfl⟩

end XplaneServer
