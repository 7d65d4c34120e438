/-
  Networking/Handling.lean --- one message at the server `XPluginStart` sets up.

  With `RegisterDataref_Callback` the only callback bound, everything a message
  can do is one case distinction (`exec_parseReceivedData_start`).  The second
  half of the file asks which messages are handled cleanly: an exception that
  leaves `parseReceivedData` leaves `receiveData` and `MainCallBack` too, since
  neither catches it, and a message that does not parse should reach no callback.
-/
import XplaneServer.Networking.Dispatch
import XplaneServer.Start

set_option autoImplicit false

namespace XplaneServer.Networking

open Foundation Json
open Datas

/-- The callbacks that were run, in order, with the message and the emiter. -/
def invocations (trace : List Event) : List (ServerCallbacks × Bytes × SOCKET) :=
  trace.filterMap fun
    | .invoke callback dataIn emiter _ => some (callback, dataIn, emiter)
    | _ => none

@[simp] theorem invocations_append (es es' : List Event) :
    invocations (es ++ es') = invocations es ++ invocations es' :=
  List.filterMap_append

@[simp] theorem invocations_invoke (callback : ServerCallbacks) (dataIn : Bytes)
    (emiter : SOCKET) (env : MsgEnv) :
    invocations [.invoke callback dataIn emiter env] = [(callback, dataIn, emiter)] := rfl

@[simp] theorem invocations_returned (callback : ServerCallbacks) (dataIn : Bytes)
    (emiter : SOCKET) (env : MsgEnv) (result : Int) :
    invocations [.returned callback dataIn emiter env result] = [] := rfl

/-- `RegisterDataref_Callback`, called by the server. -/
theorem exec_runCallback_register (L : Lib) (env : MsgEnv) (cli : Client) (data : Bytes)
    (w : World) :
    exec (runCallback L env cli data .registerDatarefCallback) w =
      match decodeRequest L.json data with
      | .error e =>
          (.error (.exn e), w.record [.invoke .registerDatarefCallback data cli.sock env])
      | .ok none =>
          (.ok (-2), w.record
            [.invoke .registerDatarefCallback data cli.sock env,
             .send cli.sock (lit "INVALID JSON") env.reply,
             .returned .registerDatarefCallback data cli.sock env (-2)])
      | .ok (some r) =>
          (.ok 0, (addBinding w (r.binding env.sim)).record
            [.invoke .registerDatarefCallback data cli.sock env,
             .send cli.sock (lit "SUCESS") env.reply,
             .returned .registerDatarefCallback data cli.sock env 0]) := by
  unfold runCallback
  simp only [exec_bind, exec_log, invoke, exec_registerDatarefCallback]
  rcases decodeRequest L.json data with e | _ | r <;> simp [addBinding, World.record]

/-- **Everything a message can do to the started server.** -/
theorem exec_parseReceivedData_start {L : Lib} {env : MsgEnv} {cli : Client} {data : Bytes}
    {w : World} (hw : w.server.callbacks = startCallbacks) :
    exec (parseReceivedData L env cli data) w =
      match operationOf L.json data with
      | .error e => (.error (.exn e), w)
      | .ok key =>
          if key = lit "REGISTER_DATAREF" then
            exec (runCallback L env cli data .registerDatarefCallback) w
          else (.ok (-1), w) := by
  rw [exec_parseReceivedData, hw]
  cases operationOf L.json data with
  | error e => rfl
  | ok key =>
      simp only [getElem?_startCallbacks]
      by_cases hkey : key = lit "REGISTER_DATAREF"
      · rw [if_pos hkey, if_pos hkey]
      · rw [if_neg hkey, if_neg hkey]

/-! ## Messages that are handled cleanly -/

/-- `parseReceivedData` returns, and a message that does not parse reaches no
callback and is answered with a negative result. -/
def HandledCleanly (L : Lib) (env : MsgEnv) (cli : Client) (data : Bytes) (w : World) : Prop :=
  ∃ result, (exec (parseReceivedData L env cli data) w).1 = .ok result ∧
    ∀ root, L.json.parse data = .ok (false, root) →
      result < 0 ∧
        invocations (exec (parseReceivedData L env cli data) w).2.trace = invocations w.trace

/-- The parse does not throw, and the root it leaves can be used as the two
functions use it: it is null or an object with a convertible `"Ops"`, and one
that names the registration comes from a parse that succeeded and has
convertible members. -/
def Answerable (J : JsonCpp) (data : Bytes) : Prop :=
  ∃ parsed root, J.parse data = .ok (parsed, root) ∧
    root.Indexable ∧ (root.find (lit "Ops")).Scalar ∧
    (root.text J (lit "Ops") = .ok (lit "REGISTER_DATAREF") →
      parsed = true ∧ (root.find (lit "Type")).Scalar ∧
        (root.find (lit "Link")).Scalar ∧ (root.find (lit "Name")).Scalar)

/-- A request decodes exactly when its three members convert. -/
theorem decodeRequest_isOk_iff {J : JsonCpp} {data : Bytes} {root : Value}
    (hparse : J.parse data = .ok (true, root)) (hindex : root.Indexable) :
    (∃ r, decodeRequest J data = .ok r) ↔
      (root.find (lit "Type")).Scalar ∧ (root.find (lit "Link")).Scalar ∧
        (root.find (lit "Name")).Scalar := by
  have htext : ∀ key, (∃ s, root.text J key = .ok s) ↔ (root.find key).Scalar := by
    intro key
    rw [Value.text_isOk_iff]
    exact and_iff_right hindex
  rw [← htext, ← htext, ← htext]
  unfold decodeRequest
  cases htype : root.text J (lit "Type") with
  | error e => simp [hparse, htype]
  | ok type =>
  cases hlink : root.text J (lit "Link") with
  | error e => simp [hparse, htype, hlink]
  | ok link =>
  cases hname : root.text J (lit "Name") with
  | error e => simp [hparse, htype, hlink, hname]
  | ok name => simp [hparse, htype, hlink, hname]

section Cases

variable {L : Lib} {env : MsgEnv} {cli : Client} {data : Bytes} {w : World} {parsed : Bool}
  {root : Value}

theorem operationOf_eq (J : JsonCpp) (hparse : J.parse data = .ok (parsed, root)) :
    operationOf J data = root.text J (lit "Ops") := by
  simp [operationOf, hparse]

/-- The operation cannot be read: the exception leaves `parseReceivedData`. -/
theorem not_handledCleanly_of_error (hw : w.server.callbacks = startCallbacks) {e : Exn}
    (hop : operationOf L.json data = .error e) : ¬ HandledCleanly L env cli data w := by
  rintro ⟨result, hresult, -⟩
  rw [exec_parseReceivedData_start hw, hop] at hresult
  cases hresult

/-- Another operation: no callback, and the result -1. -/
theorem handledCleanly_of_other (hw : w.server.callbacks = startCallbacks) {key : Bytes}
    (hop : operationOf L.json data = .ok key) (hkey : key ≠ lit "REGISTER_DATAREF") :
    HandledCleanly L env cli data w := by
  have hexec : exec (parseReceivedData L env cli data) w = (.ok (-1), w) := by
    rw [exec_parseReceivedData_start hw, hop]
    exact if_neg hkey
  refine ⟨-1, by rw [hexec], fun _ _ => ?_⟩
  rw [hexec]
  exact ⟨by decide, rfl⟩

/-- A registration: the second parse decides, and the callback has been called
whatever it says. -/
theorem handledCleanly_register_iff (hw : w.server.callbacks = startCallbacks)
    (hparse : L.json.parse data = .ok (parsed, root))
    (hop : operationOf L.json data = .ok (lit "REGISTER_DATAREF")) :
    HandledCleanly L env cli data w ↔
      parsed = true ∧ ∃ r, decodeRequest L.json data = .ok r := by
  have hexec : exec (parseReceivedData L env cli data) w =
      exec (runCallback L env cli data .registerDatarefCallback) w := by
    rw [exec_parseReceivedData_start hw, hop]
    exact if_pos rfl
  unfold HandledCleanly
  rw [hexec, exec_runCallback_register]
  cases parsed with
  | false =>
      have hnone : decodeRequest L.json data = .ok none := by
        simp [decodeRequest, hparse]
      simp [hnone, hparse, invocations]
  | true =>
      rcases decodeRequest L.json data with e | _ | r
      · simp
      · simp [hparse]
      · simp [hparse]

end Cases

/-- **Clean handling, exactly.** -/
theorem handledCleanly_iff (L : Lib) (env : MsgEnv) (cli : Client) (data : Bytes) (w : World)
    (hw : w.server.callbacks = startCallbacks) :
    HandledCleanly L env cli data w ↔ Answerable L.json data := by
  unfold Answerable
  cases hparse : L.json.parse data with
  | error e =>
      have hop : operationOf L.json data = .error e := by simp [operationOf, hparse]
      simp [not_handledCleanly_of_error hw hop]
  | ok result =>
      obtain ⟨parsed, root⟩ := result
      have hop := operationOf_eq L.json hparse
      have hreadable := Value.text_isOk_iff L.json root (lit "Ops")
      cases htext : root.text L.json (lit "Ops") with
      | error e =>
          rw [htext] at hop hreadable
          have hnot : ¬ (root.Indexable ∧ (root.find (lit "Ops")).Scalar) := by
            simp [← hreadable]
          refine iff_of_false (not_handledCleanly_of_error hw hop) ?_
          rintro ⟨p, r, heq, hindex, hscalar, -⟩
          cases heq
          exact hnot ⟨hindex, hscalar⟩
      | ok key =>
          rw [htext] at hop hreadable
          obtain ⟨hindex, hscalar⟩ := hreadable.mp ⟨key, rfl⟩
          by_cases hkey : key = lit "REGISTER_DATAREF"
          · subst hkey
            rw [handledCleanly_register_iff hw hparse hop]
            constructor
            · rintro ⟨rfl, hdecode⟩
              exact ⟨true, root, rfl, hindex, hscalar,
                fun _ => ⟨rfl, (decodeRequest_isOk_iff hparse hindex).mp hdecode⟩⟩
            · rintro ⟨p, r, heq, -, -, hmembers⟩
              cases heq
              obtain ⟨rfl, hscalars⟩ := hmembers htext
              exact ⟨rfl, (decodeRequest_isOk_iff hparse hindex).mpr hscalars⟩
          · refine iff_of_true (handledCleanly_of_other hw hop hkey) ?_
            refine ⟨parsed, root, rfl, hindex, hscalar, fun hregister => ?_⟩
            rw [htext] at hregister
            cases hregister
            exact absurd rfl hkey

/-- A registration cut off before its closing brace. -/
def cutOffRequest : Bytes := lit "\x7b\"Ops\":\"REGISTER_DATAREF\""

/-- jsoncpp on an empty array, which parses, and on the cut-off request, which
does not and leaves the member read before the end of the text. -/
def sampleJson : JsonCpp :=
  .ofTable
    [(lit "[]", true, .array []),
     (cutOffRequest, false, .object [(lit "Ops", .string (lit "REGISTER_DATAREF"))])]

/-- The equivalence at the started server, for an empty array. -/
theorem handledCleanly_iff_started :
    HandledCleanly (.ofJson sampleJson) ⟨.empty, 0⟩ (.ofSocket 7) (lit "[]") .started ↔
      Answerable sampleJson (lit "[]") :=
  handledCleanly_iff _ _ _ _ _ started_started.tables.2.1

/-- The array throws out of the server, and the cut-off request reaches the
callback. -/
theorem not_handledCleanly_samples :
    ¬ HandledCleanly (.ofJson sampleJson) ⟨.empty, 0⟩ (.ofSocket 7) (lit "[]") .started ∧
      ¬ HandledCleanly (.ofJson sampleJson) ⟨.empty, 0⟩ (.ofSocket 7) cutOffRequest .started := by
  constructor
  · rintro ⟨result, hresult, -⟩
    have hthrow : (exec (parseReceivedData (.ofJson sampleJson) ⟨.empty, 0⟩ (.ofSocket 7)
        (lit "[]")) World.started).1 = .error (.exn .logicError) := by rfl
    rw [hthrow] at hresult
    cases hresult
  · rintro ⟨result, -, hrefused⟩
    have hinvoked : invocations (exec (parseReceivedData (.ofJson sampleJson) ⟨.empty, 0⟩
        (.ofSocket 7) cutOffRequest) World.started).2.trace =
          [(.registerDatarefCallback, cutOffRequest, 7)] := by rfl
    have hnone := (hrefused _ rfl).2
    rw [hinvoked] at hnone
    cases hnone

end XplaneServer.Networking
