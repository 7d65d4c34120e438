/-
  Datas/Callbacks.lean --- `RegisterDataref_Callback`, and
  `SetDatarefValue_Callback` as far as it is written, from
  src/Datas/Callbacks.cpp.

  A callback reads the message a second time, so it is independent of what
  `parseReceivedData` made of it.  Everything the two can do is said once, by
  `exec_registerDatarefCallback` (it throws, refuses, or adds one binding) and by
  `exec_setDatarefValueCallback`, and what the second asks the simulator by
  `exec_notedSetDatarefValueCallback`.
-/
import XplaneServer.Plugin
import XplaneServer.Datas.SetValue

set_option autoImplicit false

namespace XplaneServer.Datas

open Foundation Json
open Networking (Client)

/-- `parseJson` -/
def parseJson (J : JsonCpp) (dataIn : Bytes) : Except Exn (Bool × Value) := J.parse dataIn

/-- The chain of comparisons that maps the `"Type"` member to a data type.  The
member is converted again for each comparison; a text that is none of the three
keeps the default. -/
def readType (J : JsonCpp) (json : Value) : Except Exn XPLMDataTypeID := do
  if (← json.text J (lit "Type")) = lit "int" then
    return .int
  else if (← json.text J (lit "Type")) = lit "float" then
    return .float
  else if (← json.text J (lit "Type")) = lit "double" then
    return .double
  else
    return .int

/-- `RegisterDataref_Callback` -/
def registerDatarefCallback (J : JsonCpp) (env : MsgEnv) (dataIn : Bytes) (emiter : Client) :
    Plugin Int := do
  let (parsed, json) ← liftExn (parseJson J dataIn)
  if !parsed then
    let _ ← emiter.sendTCPData (lit "INVALID JSON") env.reply
    return -2
  let type ← liftExn (readType J json)
  let d := Dataref.ofLink env.sim (← liftExn (json.text J (lit "Link"))) type
  let name ← liftExn (json.text J (lit "Name"))
  modify fun w => { w with datarefMap := w.datarefMap.insertIfNew name d }
  let _ ← emiter.sendTCPData (lit "SUCESS") env.reply
  return 0

/-- The reply to a request for a dataref that is taken to be read-only. -/
def readOnlyReply : Bytes :=
  lit ("SELECTED DATAREF IS READONLY; CHECK IF ANY OVERRIDE IS REQUIRED " ++
    "BEFORE TRYING TO MODIFY IT")

/-- `SetDatarefValue_Callback`, up to the declaration of `forceHoldValue`, whose
initializer is missing: `none` is that this line is reached.  For an unknown name
the reply is not followed by a return, and the end iterator is dereferenced. -/
def setDatarefValueCallback (J : JsonCpp) (env : MsgEnv) (dataIn : Bytes) (emiter : Client) :
    Plugin (Option Int) := do
  let (parsed, json) ← liftExn (parseJson J dataIn)
  if !parsed then
    let _ ← emiter.sendTCPData (lit "INVALID JSON") env.reply
    return some (-2)
  let name ← liftExn (json.text J (lit "Name"))
  match (← get).datarefMap[name]? with
  | none =>
      let _ ← emiter.sendTCPData (lit "DATAREF NOT FOUND, PLEASE REGISTER IT") env.reply
      throw (.ub .iterator)
  | some selDR =>
      if (selDR.isReadOnlyCall false).2 then
        let _ ← emiter.sendTCPData readOnlyReply env.reply
        return some (-3)
      return none

/-! ## What a registration request asks for -/

/-- The content of a registration request. -/
structure Request where
  name : Bytes
  link : Bytes
  dataType : XPLMDataTypeID
  deriving DecidableEq

/-- The data type a `"Type"` text names. -/
def typeOfText (text : Bytes) : XPLMDataTypeID :=
  if text = lit "int" then .int
  else if text = lit "float" then .float
  else if text = lit "double" then .double
  else .int

/-- Read a message as a registration request: `none` when it does not parse, an
exception when it parses and a member does not convert. -/
def decodeRequest (J : JsonCpp) (dataIn : Bytes) : Except Exn (Option Request) := do
  let (parsed, json) ← J.parse dataIn
  if parsed then
    let type ← json.text J (lit "Type")
    let link ← json.text J (lit "Link")
    let name ← json.text J (lit "Name")
    return some ⟨name, link, typeOfText type⟩
  else
    return none

/-- The request a message makes, if it makes one. -/
def requestOf (J : JsonCpp) (dataIn : Bytes) : Option Request :=
  match decodeRequest J dataIn with
  | .ok r => r
  | .error _ => none

/-- The binding a request adds, given the answers of the simulator. -/
def Request.binding (S : Sim) (r : Request) : Bytes × Dataref :=
  (r.name, Dataref.ofLink S r.link r.dataType)

theorem typeOfText_scalar (text : Bytes) : Dataref.Scalar (typeOfText text) := by
  unfold typeOfText Dataref.Scalar
  split
  · exact Or.inl rfl
  · split
    · exact Or.inr (Or.inl rfl)
    · split
      · exact Or.inr (Or.inr rfl)
      · exact Or.inl rfl

/-- The conversions the chain of comparisons repeats all give the same text. -/
theorem readType_eq (J : JsonCpp) (json : Value) :
    readType J json = (json.text J (lit "Type")).map typeOfText := by
  unfold readType
  cases json.text J (lit "Type") with
  | error e => rfl
  | ok text =>
      simp only [except_ok_bind, Except.map, typeOfText]
      by_cases hint : text = lit "int"
      · rw [if_pos hint, if_pos hint]
        rfl
      · rw [if_neg hint, if_neg hint]
        by_cases hfloat : text = lit "float"
        · rw [if_pos hfloat, if_pos hfloat]
          rfl
        · rw [if_neg hfloat, if_neg hfloat]
          by_cases hdouble : text = lit "double"
          · rw [if_pos hdouble, if_pos hdouble]
            rfl
          · rw [if_neg hdouble, if_neg hdouble]
            rfl

/-- A message makes a request exactly when it parses and its three members
convert, and the request is then made of their texts. -/
theorem requestOf_eq_some_iff {J : JsonCpp} {dataIn : Bytes} {r : Request} :
    requestOf J dataIn = some r ↔
      ∃ json type, J.parse dataIn = .ok (true, json) ∧
        json.text J (lit "Type") = .ok type ∧
        json.text J (lit "Link") = .ok r.link ∧
        json.text J (lit "Name") = .ok r.name ∧ r.dataType = typeOfText type := by
  unfold requestOf decodeRequest
  cases hparse : J.parse dataIn with
  | error e => simp
  | ok result =>
      obtain ⟨parsed, json⟩ := result
      cases parsed with
      | false => simp
      | true =>
        cases htype : json.text J (lit "Type") with
        | error e => simp [htype]
        | ok type =>
        cases hlink : json.text J (lit "Link") with
        | error e => simp [htype, hlink]
        | ok link =>
        cases hname : json.text J (lit "Name") with
        | error e => simp [htype, hlink, hname]
        | ok name =>
            obtain ⟨rname, rlink, rtype⟩ := r
            simp only [except_pure, except_ok_bind, ↓reduceIte, htype, hlink, hname,
              Option.some.injEq, Request.mk.injEq, Except.ok.injEq, Prod.mk.injEq, true_and,
              exists_and_left, exists_eq_left']
            constructor
            · rintro ⟨rfl, rfl, rfl⟩
              exact ⟨rfl, rfl, rfl⟩
            · rintro ⟨rfl, rfl, rfl⟩
              exact ⟨rfl, rfl, rfl⟩

/-- Every request has a scalar type. -/
theorem requestOf_scalar {J : JsonCpp} {dataIn : Bytes} {r : Request}
    (h : requestOf J dataIn = some r) : Dataref.Scalar r.dataType := by
  obtain ⟨json, type, -, -, -, -, htype⟩ := requestOf_eq_some_iff.mp h
  rw [htype]
  exact typeOfText_scalar type

/-- The worlds in which a request has been added. -/
def addBinding (w : World) (b : Bytes × Dataref) : World :=
  { w with datarefMap := w.datarefMap.insertIfNew b.1 b.2 }

/-- **Everything the callback does.** -/
theorem exec_registerDatarefCallback (J : JsonCpp) (env : MsgEnv) (dataIn : Bytes)
    (emiter : Client) (w : World) :
    exec (registerDatarefCallback J env dataIn emiter) w =
      match decodeRequest J dataIn with
      | .error e => (.error (.exn e), w)
      | .ok none =>
          (.ok (-2), w.record [.send emiter.sock (lit "INVALID JSON") env.reply])
      | .ok (some r) =>
          (.ok 0, (addBinding w (r.binding env.sim)).record
            [.send emiter.sock (lit "SUCESS") env.reply]) := by
  unfold registerDatarefCallback decodeRequest parseJson
  cases hparse : J.parse dataIn with
  | error e => simp [exec_bind]
  | ok result =>
      obtain ⟨parsed, json⟩ := result
      cases parsed with
      | false => simp [exec_bind, exec_map, Except.map]
      | true =>
          cases htype : json.text J (lit "Type") with
          | error e => simp [exec_bind, readType_eq, htype, Except.map]
          | ok type =>
          cases hlink : json.text J (lit "Link") with
          | error e => simp [exec_bind, readType_eq, htype, hlink, Except.map]
          | ok link =>
          cases hname : json.text J (lit "Name") with
          | error e => simp [exec_bind, readType_eq, htype, hlink, hname, Except.map]
          | ok name =>
              simp [exec_bind, exec_map, readType_eq, htype, hlink, hname, Except.map,
                addBinding, Request.binding]

/-! ## What a request for a new value names -/

/-- The name in a message: `none` when it does not parse, an exception when it
parses and the name does not convert. -/
def decodeName (J : JsonCpp) (dataIn : Bytes) : Except Exn (Option Bytes) := do
  let (parsed, json) ← J.parse dataIn
  if parsed then
    return some (← json.text J (lit "Name"))
  else
    return none

/-- The calls `SetDatarefValue_Callback` makes to the simulator, which are those
of `IsReadOnly`. -/
def setDatarefValueCalls (J : JsonCpp) (dataIn : Bytes) (w : World) : List XPLMCall :=
  match decodeName J dataIn with
  | .ok (some name) =>
      match w.datarefMap[name]? with
      | some selDR => (selDR.isReadOnlyCall false).1
      | none => []
  | _ => []

/-- **Everything `SetDatarefValue_Callback` does.** -/
theorem exec_setDatarefValueCallback (J : JsonCpp) (env : MsgEnv) (dataIn : Bytes)
    (emiter : Client) (w : World) :
    exec (setDatarefValueCallback J env dataIn emiter) w =
      match decodeName J dataIn with
      | .error e => (.error (.exn e), w)
      | .ok none =>
          (.ok (some (-2)), w.record [.send emiter.sock (lit "INVALID JSON") env.reply])
      | .ok (some name) =>
          match w.datarefMap[name]? with
          | none =>
              (.error (.ub .iterator), w.record
                [.send emiter.sock (lit "DATAREF NOT FOUND, PLEASE REGISTER IT") env.reply])
          | some selDR =>
              if selDR.isReadOnly then
                (.ok (some (-3)), w.record [.send emiter.sock readOnlyReply env.reply])
              else (.ok none, w) := by
  unfold setDatarefValueCallback decodeName parseJson
  cases hparse : J.parse dataIn with
  | error e => simp [exec_bind]
  | ok result =>
      obtain ⟨parsed, json⟩ := result
      cases parsed with
      | false => simp [exec_bind, exec_map, Except.map]
      | true =>
          cases hname : json.text J (lit "Name") with
          | error e => simp [exec_bind, hname]
          | ok name =>
              cases hfound : w.datarefMap[name]? with
              | none => simp [exec_bind, hname, hfound]
              | some selDR =>
                  cases hflag : selDR.isReadOnly <;>
                    simp [exec_bind, exec_map, Except.map, hname, hfound, hflag,
                      Dataref.isReadOnlyCall]

/-! ## What it asks the simulator -/

/-- A function of the plugin, beside a list of calls that it leaves alone. -/
def beside {α : Type} (x : Plugin α) : Exec (World × List XPLMCall) Halt α :=
  ExceptT.mk fun s => ((exec x s.1).1, (exec x s.1).2, s.2)

@[simp] theorem exec_beside {α : Type} (x : Plugin α) (w : World) (calls : List XPLMCall) :
    exec (beside x) (w, calls) = ((exec x w).1, (exec x w).2, calls) := rfl

/-- `Dataref::IsReadOnly`, with its calls noted. -/
def notedIsReadOnly (d : Dataref) (forceRecheck : Bool) :
    Exec (World × List XPLMCall) Halt Bool := do
  modify fun s => (s.1, s.2 ++ (d.isReadOnlyCall forceRecheck).1)
  return (d.isReadOnlyCall forceRecheck).2

/-- `SetDatarefValue_Callback`, with the calls it makes to the simulator noted. -/
def notedSetDatarefValueCallback (J : JsonCpp) (env : MsgEnv) (dataIn : Bytes)
    (emiter : Client) : Exec (World × List XPLMCall) Halt (Option Int) := do
  let (parsed, json) ← beside (liftExn (parseJson J dataIn))
  if !parsed then
    let _ ← beside (emiter.sendTCPData (lit "INVALID JSON") env.reply)
    return some (-2)
  let name ← beside (liftExn (json.text J (lit "Name")))
  match (← get).1.datarefMap[name]? with
  | none =>
      let _ ← beside
        (emiter.sendTCPData (lit "DATAREF NOT FOUND, PLEASE REGISTER IT") env.reply)
      throw (.ub .iterator)
  | some selDR =>
      if ← notedIsReadOnly selDR false then
        let _ ← beside (emiter.sendTCPData readOnlyReply env.reply)
        return some (-3)
      return none

/-- **The calls are those of the callback**: noting them changes nothing else, and
they are the ones of `setDatarefValueCalls`. -/
theorem exec_notedSetDatarefValueCallback (J : JsonCpp) (env : MsgEnv) (dataIn : Bytes)
    (emiter : Client) (w : World) (calls : List XPLMCall) :
    exec (notedSetDatarefValueCallback J env dataIn emiter) (w, calls) =
      ((exec (setDatarefValueCallback J env dataIn emiter) w).1,
        (exec (setDatarefValueCallback J env dataIn emiter) w).2,
        calls ++ setDatarefValueCalls J dataIn w) := by
  rw [exec_setDatarefValueCallback]
  unfold notedSetDatarefValueCallback notedIsReadOnly setDatarefValueCalls decodeName parseJson
  cases hparse : J.parse dataIn with
  | error e => simp [exec_bind]
  | ok result =>
      obtain ⟨parsed, json⟩ := result
      cases parsed with
      | false => simp [exec_bind, exec_map, Except.map]
      | true =>
          cases hname : json.text J (lit "Name") with
          | error e => simp [exec_bind, hname]
          | ok name =>
              cases hfound : w.datarefMap[name]? with
              | none => simp [exec_bind, hname, hfound]
              | some selDR =>
                  cases hflag : selDR.isReadOnly <;>
                    simp [exec_bind, exec_map, Except.map, hname, hfound, hflag,
                      Dataref.isReadOnlyCall]

end XplaneServer.Datas
