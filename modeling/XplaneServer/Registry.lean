/-
  Registry.lean --- what a sequence of messages leaves in `datarefMap`.

  The registry is a first-wins fold: of the bindings the requests ask for, when
  they are handed to `RegisterDataref_Callback` (`registerAll_datarefMap`), and
  of those the messages that name the registration ask for, when they are handed
  to the server (`handleAll_registry`).  From the fold follow which sequences are
  answered truthfully, and why their order matters only for the first request of
  each name.
-/
import XplaneServer.Networking.Handling

set_option autoImplicit false

namespace XplaneServer

open Foundation Json Datas Networking

/-- A message handed to a callback. -/
structure Message where
  env : MsgEnv
  client : Client
  data : Bytes

/-- Handle messages with `RegisterDataref_Callback`, one after the other.  An
exception is caught outside the callback. -/
def registerAll (J : JsonCpp) (messages : List Message) (w : World) : World :=
  messages.foldl (fun w m => (exec (registerDatarefCallback J m.env m.data m.client) w).2) w

/-- The binding a message asks for, if it makes a request. -/
def Message.binding (J : JsonCpp) (m : Message) : Option (Bytes × Dataref) :=
  (requestOf J m.data).map (Request.binding m.env.sim)

theorem requestOf_eq_none_of_error {J : JsonCpp} {dataIn : Bytes} {e : Exn}
    (h : decodeRequest J dataIn = .error e) : requestOf J dataIn = none := by
  simp [requestOf, h]

theorem requestOf_of_ok {J : JsonCpp} {dataIn : Bytes} {r : Option Request}
    (h : decodeRequest J dataIn = .ok r) : requestOf J dataIn = r := by
  simp [requestOf, h]

/-- One call adds the binding its message asks for. -/
theorem registerDatarefCallback_datarefMap (J : JsonCpp) (m : Message) (w : World) :
    (exec (registerDatarefCallback J m.env m.data m.client) w).2.datarefMap =
      firstWins w.datarefMap (m.binding J).toList := by
  rw [exec_registerDatarefCallback, Message.binding]
  cases hdecode : decodeRequest J m.data with
  | error e => simp [requestOf_eq_none_of_error hdecode]
  | ok r =>
      rw [requestOf_of_ok hdecode]
      cases r with
      | none => rfl
      | some r => rfl

/-- **The registry is a first-wins fold.** -/
theorem registerAll_datarefMap (J : JsonCpp) (messages : List Message) (w : World) :
    (registerAll J messages w).datarefMap =
      firstWins w.datarefMap (messages.filterMap (Message.binding J)) :=
  foldl_eq_firstWins _ World.datarefMap (Message.binding J) (fun _ => True)
    (fun _ _ _ => trivial) (fun w m _ => registerDatarefCallback_datarefMap J m w)
    messages w trivial

/-! ## Truthful replies -/

/-- The callback replied `SUCESS` to a message and returned 0. -/
def RepliedSuccess (J : JsonCpp) (m : Message) (w : World) : Prop :=
  (exec (registerDatarefCallback J m.env m.data m.client) w).1 = .ok 0 ∧
    ∃ es, (exec (registerDatarefCallback J m.env m.data m.client) w).2.trace = w.trace ++ es ∧
      .send m.client.sock (lit "SUCESS") m.env.reply ∈ es

/-- After such a reply the registry binds the name of the request to a valid
dataref with the link and the type of this very request. -/
def SuccessTruthful (J : JsonCpp) (m : Message) (w : World) : Prop :=
  RepliedSuccess J m w →
    ∃ r d, requestOf J m.data = some r ∧
      (exec (registerDatarefCallback J m.env m.data m.client) w).2.datarefMap[r.name]? = some d ∧
      d.isValid = true ∧ d.link = r.link ∧ d.dataType = r.dataType

/-- The registry can take a request at its word: the name is new and the
simulator knows the link, or the name is bound to what is asked for. -/
def Registrable (S : Sim) (m : DatarefMap) (r : Request) : Prop :=
  match m[r.name]? with
  | none => r.link ≠ [] ∧ S.findDataRef (beforeNul r.link) ≠ NULL
  | some d => d.isValid = true ∧ d.link = r.link ∧ d.dataType = r.dataType

/-- The callback succeeds exactly on the messages that make a request. -/
theorem repliedSuccess_iff {J : JsonCpp} {m : Message} {w : World} :
    RepliedSuccess J m w ↔ ∃ r, requestOf J m.data = some r := by
  unfold RepliedSuccess
  rw [exec_registerDatarefCallback]
  cases hdecode : decodeRequest J m.data with
  | error e => simp [requestOf_eq_none_of_error hdecode]
  | ok r =>
      rw [requestOf_of_ok hdecode]
      cases r with
      | none => simp
      | some r => simp [addBinding]

/-- The lookup of a name in a registry after its request. -/
theorem firstWins_request_truthful_iff (S : Sim) (m : DatarefMap) {r : Request}
    (hscalar : Dataref.Scalar r.dataType) :
    (∃ d, (firstWins m [r.binding S])[r.name]? = some d ∧
      d.isValid = true ∧ d.link = r.link ∧ d.dataType = r.dataType) ↔ Registrable S m r := by
  have hknown : r.dataType ≠ .unknown := by
    obtain h | h | h := hscalar <;> simp [h]
  unfold Registrable
  rw [getElem?_firstWins, firstBinding_cons]
  cases m[r.name]? with
  | some d => simp
  | none =>
      rw [← Dataref.ofLink_isValid_iff S r.link hknown]
      simp only [Request.binding, if_true, Option.none_or, Option.some.injEq, exists_eq_left',
        Dataref.ofLink_link, true_and]
      exact and_iff_left_of_imp Dataref.ofLink_dataType

/-- One reply is truthful exactly when the registry before it can take the
request at its word. -/
theorem successTruthful_step_iff {J : JsonCpp} {m : Message} {w : World} :
    SuccessTruthful J m w ↔
      ∀ r, requestOf J m.data = some r → Registrable m.env.sim w.datarefMap r := by
  unfold SuccessTruthful
  rw [repliedSuccess_iff, registerDatarefCallback_datarefMap, Message.binding]
  cases hrequest : requestOf J m.data with
  | none => simp
  | some r =>
      have hstep := firstWins_request_truthful_iff m.env.sim w.datarefMap
        (requestOf_scalar hrequest)
      simpa using hstep

/-- **Truthful replies, exactly.**  The replies of a run are truthful exactly
when every request can be taken at its word over the bindings of the requests
before it. -/
theorem successTruthful_iff (J : JsonCpp) (messages : List Message) (w : World) :
    (∀ before m after, messages = before ++ m :: after →
      SuccessTruthful J m (registerAll J before w)) ↔
    ∀ before m after, messages = before ++ m :: after →
      ∀ r, requestOf J m.data = some r →
        Registrable m.env.sim
          (firstWins w.datarefMap (before.filterMap (Message.binding J))) r := by
  constructor
  · intro h before m after hsplit
    rw [← registerAll_datarefMap]
    exact successTruthful_step_iff.mp (h before m after hsplit)
  · intro h before m after hsplit
    rw [successTruthful_step_iff, registerAll_datarefMap]
    exact h before m after hsplit

/-- The text of a registration. -/
def requestText (name link : String) : Bytes :=
  lit "\x7b\"Ops\":\"REGISTER_DATAREF\",\"Name\":\"" ++ lit name ++ lit "\",\"Link\":\"" ++
    lit link ++ lit "\"\x7d"

/-- The names `a` and `b`, and one name that is the line of `a`, a newline and
`b`. -/
def registerA : Bytes := requestText "a" "one"
def registerB : Bytes := requestText "b" "two"
def registerLines : Bytes := requestText "a : 1\\nb" "two"

/-- The registration of `a` as one received chunk. -/
def chunkA : Chunk := ⟨registerA, by decide, by decide⟩

/-- The name `a` with another link, and with one no simulator knows. -/
def registerAgain : Bytes := requestText "a" "two"
def registerLost : Bytes := requestText "a" "lost"

/-- jsoncpp on these registrations, and on an empty array. -/
def registrationJson : JsonCpp :=
  .ofTable
    [(registerA, true, request (lit "a") (lit "one")),
     (registerB, true, request (lit "b") (lit "two")),
     (registerLines, true, request (lit "a : 1\nb") (lit "two")),
     (registerAgain, true, request (lit "a") (lit "two")),
     (registerLost, true, request (lit "a") (lit "lost")),
     (lit "[]", true, .array [])]
where
  request (name link : Bytes) : Value :=
    .object [(lit "Ops", .string (lit "REGISTER_DATAREF")), (lit "Name", .string name),
      (lit "Link", .string link)]

/-- A simulator with two datarefs, each holding its handle. -/
def twoDatarefs : Sim :=
  { Sim.empty with
    findDataRef := fun link =>
      if link = lit "one" then 1 else if link = lit "two" then 2 else NULL
    getDatai := fun dataref => Int32.ofNat dataref }

/-- A registration from the client at socket 7, before that simulator. -/
def sampleMessage (data : Bytes) : Message := ⟨⟨twoDatarefs, 6⟩, .ofSocket 7, data⟩

/-- The second registration of a name, and one of an unknown link, succeed and
bind the name to something else. -/
theorem not_successTruthful_samples :
    ¬ SuccessTruthful registrationJson (sampleMessage registerAgain)
        (registerAll registrationJson [sampleMessage registerA] .started) ∧
      ¬ SuccessTruthful registrationJson (sampleMessage registerLost) .started := by
  rw [successTruthful_step_iff, successTruthful_step_iff]
  constructor
  · intro h
    have hbound : (registerAll registrationJson [sampleMessage registerA]
        .started).datarefMap[lit "a"]? = some (Dataref.ofLink twoDatarefs (lit "one") .int) := by
      decide
    have hasked := h ⟨lit "a", lit "two", .int⟩ (by decide)
    simp only [Registrable, hbound] at hasked
    revert hasked
    decide
  · intro h
    have hnew : World.started.datarefMap[lit "a"]? = none := by decide
    have hasked := h ⟨lit "a", lit "lost", .int⟩ (by decide)
    simp only [Registrable, hnew] at hasked
    revert hasked
    decide

/-! ## The order of the requests -/

/-- The first request for a name among some messages. -/
def firstRequest (J : JsonCpp) (name : Bytes) (messages : List Message) : Option Request :=
  (messages.filterMap fun m => requestOf J m.data).find? fun r => r.name = name

/-- The first binding of a name is the one its first request asks for, when the
simulator gives every message the same answers. -/
theorem firstBinding_bindings {J : JsonCpp} {S : Sim} {messages : List Message}
    (hsim : ∀ m ∈ messages, m.env.sim.findDataRef = S.findDataRef ∧
      m.env.sim.canWriteDataRef = S.canWriteDataRef) (name : Bytes) :
    firstBinding name (messages.filterMap (Message.binding J)) =
      (firstRequest J name messages).map fun r => Dataref.ofLink S r.link r.dataType := by
  unfold firstRequest
  induction messages with
  | nil => rfl
  | cons m messages ih =>
      have hrest := ih fun m' hm' => hsim m' (List.mem_cons_of_mem m hm')
      obtain ⟨hfind, hwrite⟩ := hsim m List.mem_cons_self
      cases hrequest : requestOf J m.data with
      | none => simpa [Message.binding, hrequest] using hrest
      | some r =>
          have hlink := Dataref.ofLink_congr r.link r.dataType hfind hwrite
          simp only [List.filterMap_cons, Message.binding, hrequest, Option.map_some,
            firstBinding_cons, List.find?_cons, Request.binding, hlink]
          by_cases hname : r.name = name
          · simp [hname]
          · simpa [hname] using hrest

/-- **Only who is first matters.**  Sequences of messages in which every name
has the same first request leave the same registry. -/
theorem registerAll_datarefMap_congr {J : JsonCpp} {S : Sim} {messages₁ messages₂ : List Message}
    {w₁ w₂ : World}
    (hsim : ∀ m ∈ messages₁ ++ messages₂, m.env.sim.findDataRef = S.findDataRef ∧
      m.env.sim.canWriteDataRef = S.canWriteDataRef)
    (hfirst : ∀ name, firstRequest J name messages₁ = firstRequest J name messages₂)
    (hmap : w₁.datarefMap = w₂.datarefMap) :
    (registerAll J messages₁ w₁).datarefMap = (registerAll J messages₂ w₂).datarefMap := by
  rw [registerAll_datarefMap, registerAll_datarefMap, hmap]
  apply firstWins_congr
  intro name
  rw [firstBinding_bindings (fun m hm => hsim m (List.mem_append_left _ hm)),
    firstBinding_bindings (fun m hm => hsim m (List.mem_append_right _ hm)), hfirst name]

/-! ## Messages handled by the server -/

/-- Hand messages to the server, one after the other.  An exception is caught
outside `parseReceivedData`. -/
def handleAll (L : Lib) (messages : List Message) (w : World) : World :=
  messages.foldl (fun w m => (exec (parseReceivedData L m.env m.client m.data) w).2) w

/-- What a message should do to the registry: a parsed object that names the
registration and has three convertible members adds its binding, when the name
is new, and every other message leaves the registry as it is. -/
def registryStep (J : JsonCpp) (map : DatarefMap) (m : Message) : DatarefMap :=
  match J.parse m.data with
  | .ok (true, .object members) =>
      let json := Value.object members
      match json.text J (lit "Ops"), json.text J (lit "Type"), json.text J (lit "Link"),
          json.text J (lit "Name") with
      | .ok ops, .ok type, .ok link, .ok name =>
          if ops = lit "REGISTER_DATAREF" ∧ name ∉ map then
            map.insert name (Dataref.ofLink m.env.sim link (typeOfText type))
          else map
      | _, _, _, _ => map
  | _ => map

/-- The binding the server adds for a message. -/
def Message.accepted (J : JsonCpp) (m : Message) : Option (Bytes × Dataref) :=
  match operationOf J m.data with
  | .ok key => if key = lit "REGISTER_DATAREF" then m.binding J else none
  | .error _ => none

/-- Handling one message adds the binding the server accepts for it. -/
theorem parseReceivedData_datarefMap {L : Lib} {m : Message} {w : World}
    (hw : w.server.callbacks = startCallbacks) :
    (exec (parseReceivedData L m.env m.client m.data) w).2.datarefMap =
      firstWins w.datarefMap (m.accepted L.json).toList := by
  rw [exec_parseReceivedData_start hw, Message.accepted]
  cases operationOf L.json m.data with
  | error e => rfl
  | ok key =>
      by_cases hkey : key = lit "REGISTER_DATAREF"
      · simp only [if_pos hkey]
        rw [← registerDatarefCallback_datarefMap, exec_runCallback_register,
          exec_registerDatarefCallback]
        rcases decodeRequest L.json m.data with e | _ | r <;> rfl
      · simp only [if_neg hkey]
        rfl

/-- An operation other than the empty text comes from an object. -/
theorem eq_object_of_ops {J : JsonCpp} {root : Value}
    (h : root.text J (lit "Ops") = .ok (lit "REGISTER_DATAREF")) :
    ∃ members, root = .object members := by
  cases root with
  | object members => exact ⟨members, rfl⟩
  | null => cases h
  | _ => cases h

/-- Inserting when new is inserting, or nothing. -/
theorem insertIfNew_eq_ite (map : DatarefMap) (name : Bytes) (d : Dataref) :
    map.insertIfNew name d = if name ∉ map then map.insert name d else map := by
  refine Std.ExtTreeMap.ext_getElem? fun key => ?_
  by_cases hmem : name ∈ map
  · simp [hmem, Std.ExtTreeMap.getElem?_insertIfNew]
  · simp [hmem, Std.ExtTreeMap.getElem?_insertIfNew, Std.ExtTreeMap.getElem?_insert]

section Step

variable {J : JsonCpp} {map : DatarefMap} {m : Message}

/-- The step on a text that does not parse to an object. -/
theorem registryStep_of_not_object
    (h : ∀ members, J.parse m.data ≠ .ok (true, .object members)) :
    registryStep J map m = map := by
  unfold registryStep
  split
  · rename_i members hparse
    exact absurd hparse (h members)
  · rfl

/-- The step on an object that does not name the registration. -/
theorem registryStep_of_other {members : List (Bytes × Value)}
    (hparse : J.parse m.data = .ok (true, .object members))
    (hops : (Value.object members).text J (lit "Ops") ≠ .ok (lit "REGISTER_DATAREF")) :
    registryStep J map m = map := by
  unfold registryStep
  rw [hparse]
  simp only
  split
  · rename_i ops type link name heq _ _ _
    have hother : ops ≠ lit "REGISTER_DATAREF" := fun h => hops (h ▸ heq)
    exact if_neg fun h => hother h.1
  · rfl

/-- The step on an object that names the registration: the request decides. -/
theorem registryStep_of_register {members : List (Bytes × Value)}
    (hparse : J.parse m.data = .ok (true, .object members))
    (hops : (Value.object members).text J (lit "Ops") = .ok (lit "REGISTER_DATAREF")) :
    registryStep J map m = firstWins map (m.binding J).toList := by
  unfold registryStep Message.binding requestOf decodeRequest
  simp only [hparse, hops, except_ok_bind, if_true]
  cases htype : (Value.object members).text J (lit "Type") with
  | error e => simp
  | ok type =>
  cases hlink : (Value.object members).text J (lit "Link") with
  | error e => simp
  | ok link =>
  cases hname : (Value.object members).text J (lit "Name") with
  | error e => simp
  | ok name =>
      simp [firstWins, Request.binding, insertIfNew_eq_ite]

/-- The step of the specification is the binding the server accepts. -/
theorem registryStep_eq : registryStep J map m = firstWins map (m.accepted J).toList := by
  unfold Message.accepted
  cases hparse : J.parse m.data with
  | error e =>
      rw [registryStep_of_not_object (by simp [hparse])]
      simp [operationOf, hparse]
  | ok result =>
      obtain ⟨parsed, root⟩ := result
      rw [operationOf_eq J hparse]
      by_cases hops : root.text J (lit "Ops") = .ok (lit "REGISTER_DATAREF")
      · obtain ⟨members, rfl⟩ := eq_object_of_ops hops
        rw [hops]
        cases parsed with
        | false =>
            rw [registryStep_of_not_object (by simp [hparse])]
            simp [Message.binding, requestOf, decodeRequest, hparse]
        | true => simpa using registryStep_of_register hparse hops
      · have hnone : registryStep J map m = map := by
          by_cases hobject : ∃ members, J.parse m.data = .ok (true, .object members)
          · obtain ⟨members, hobject⟩ := hobject
            have hroot : (parsed, root) = (true, .object members) :=
              Except.ok.inj (hparse.symm.trans hobject)
            obtain ⟨-, rfl⟩ := Prod.mk.inj hroot
            exact registryStep_of_other hobject hops
          · exact registryStep_of_not_object fun members h => hobject ⟨members, h⟩
        rw [hnone]
        cases hkey : root.text J (lit "Ops") with
        | error e => rfl
        | ok key =>
            have hother : key ≠ lit "REGISTER_DATAREF" := fun h => hops (h ▸ hkey)
            simp [hother]

end Step

/-- **The registry of the server is a first-wins fold** of the messages it
handled, and a binding, once made, stays. -/
theorem handleAll_registry (L : Lib) (messages : List Message) (w : World)
    (hw : w.server.callbacks = startCallbacks) :
    (handleAll L messages w).datarefMap =
        messages.foldl (registryStep L.json) w.datarefMap ∧
      ∀ (name : Bytes) (d : Dataref), w.datarefMap[name]? = some d →
        (handleAll L messages w).datarefMap[name]? = some d := by
  have hserver : ∀ (w : World) (m : Message), w.server.callbacks = startCallbacks →
      (exec (parseReceivedData L m.env m.client m.data) w).2.server.callbacks = startCallbacks :=
    fun w m h => by rw [(handles_parseReceivedData L m.env m.client m.data w).server, h]
  have hfold : (handleAll L messages w).datarefMap =
      firstWins w.datarefMap (messages.filterMap (Message.accepted L.json)) :=
    foldl_eq_firstWins _ World.datarefMap (Message.accepted L.json)
      (fun w => w.server.callbacks = startCallbacks) hserver
      (fun _ _ h => parseReceivedData_datarefMap h) messages w hw
  have hspec : messages.foldl (registryStep L.json) w.datarefMap =
      firstWins w.datarefMap (messages.filterMap (Message.accepted L.json)) :=
    foldl_eq_firstWins (registryStep L.json) id (Message.accepted L.json) (fun _ => True)
      (fun _ _ _ => trivial) (fun _ _ _ => registryStep_eq) messages w.datarefMap trivial
  refine ⟨hfold.trans hspec.symm, fun name d hd => ?_⟩
  rw [hfold, getElem?_firstWins, hd]
  rfl

/-- A registration, a message that throws, and a second registration of the same
name, from the started server. -/
theorem handleAll_registry_samples :
    let messages := [registerA, lit "[]", registerAgain].map sampleMessage
    (handleAll (.ofJson registrationJson) messages .started).datarefMap =
        messages.foldl (registryStep registrationJson) World.started.datarefMap ∧
      ∀ (name : Bytes) (d : Dataref), World.started.datarefMap[name]? = some d →
        (handleAll (.ofJson registrationJson) messages .started).datarefMap[name]? = some d :=
  handleAll_registry (.ofJson registrationJson) _ .started started_started.tables.2.1

end XplaneServer
