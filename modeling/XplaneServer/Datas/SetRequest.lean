/-
  Datas/SetRequest.lean --- whether `SetDatarefValue_Callback` handles every name.

  The branch for an unknown name sends its reply and does not return, so the end
  iterator is dereferenced right after it.  A request is handled safely exactly
  when its name is registered (`handledSafely_iff`).
-/
import XplaneServer.Datas.Arrays
import XplaneServer.Datas.Permission

set_option autoImplicit false

namespace XplaneServer.Datas

open Foundation Json
open Networking (Client)

/-- A request that names a dataref is handled safely and answered once: the
iterator is not dereferenced at the end, an unknown name is refused without
another effect than its one reply, and no request gets more than one. -/
structure HandledSafely (J : JsonCpp) (env : MsgEnv) (dataIn : Bytes) (emiter : Client)
    (w : World) (name : Bytes) : Prop where
  dereferenced : (exec (setDatarefValueCallback J env dataIn emiter) w).1 = .error (.ub .iterator) →
    name ∈ w.datarefMap
  notFound : name ∉ w.datarefMap → ∃ code < 0,
    exec (setDatarefValueCallback J env dataIn emiter) w = (.ok (some code), w.record
      [.send emiter.sock (lit "DATAREF NOT FOUND, PLEASE REGISTER IT") env.reply]) ∧
    Dataref.after env.sim (setDatarefValueCalls J dataIn w) = env.sim
  once : ∃ replies : List Bytes, replies.length ≤ 1 ∧
    (exec (setDatarefValueCallback J env dataIn emiter) w).2 =
      w.record (replies.map (Event.send emiter.sock · env.reply))

section Request

variable {J : JsonCpp} {dataIn : Bytes} {w : World} {members : List (Bytes × Value)}
  {name : Bytes}

/-- The name of a request that is an object with a string for its name. -/
theorem decodeName_object (hparse : J.parse dataIn = .ok (true, .object members))
    (hname : members.lookup (lit "Name") = some (.string name)) :
    decodeName J dataIn = .ok (some name) := by
  have htext : (Value.object members).text J (lit "Name") = .ok name := by
    simp [Value.text, Value.member, Value.asString, hname]
  simp [decodeName, hparse, htext]

/-- An unknown name gets its reply, and then the end iterator is dereferenced. -/
theorem exec_setDatarefValueCallback_unknown (env : MsgEnv) (emiter : Client)
    (hdecode : decodeName J dataIn = .ok (some name)) (hunknown : name ∉ w.datarefMap) :
    exec (setDatarefValueCallback J env dataIn emiter) w = (.error (.ub .iterator), w.record
      [.send emiter.sock (lit "DATAREF NOT FOUND, PLEASE REGISTER IT") env.reply]) := by
  have hfound : w.datarefMap[name]? = none := getElem?_neg w.datarefMap name hunknown
  rw [exec_setDatarefValueCallback, hdecode]
  simp only [hfound]

/-- A known name gets one reply when its dataref is said to be read-only, and
none when it is not. -/
theorem exec_setDatarefValueCallback_known (env : MsgEnv) (emiter : Client)
    (hdecode : decodeName J dataIn = .ok (some name)) (hknown : name ∈ w.datarefMap) :
    ∃ (result : Option Int) (replies : List Bytes), replies.length ≤ 1 ∧
      exec (setDatarefValueCallback J env dataIn emiter) w =
        (.ok result, w.record (replies.map (Event.send emiter.sock · env.reply))) := by
  have hfound : w.datarefMap[name]? = some w.datarefMap[name] :=
    getElem?_pos w.datarefMap name hknown
  rw [exec_setDatarefValueCallback, hdecode]
  simp only [hfound]
  split
  · exact ⟨some (-3), [readOnlyReply], Nat.le_refl 1, rfl⟩
  · exact ⟨none, [], Nat.zero_le 1, by simp⟩

/-- **Safe handling, exactly**: the name is registered. -/
theorem handledSafely_iff (env : MsgEnv) (emiter : Client)
    (hparse : J.parse dataIn = .ok (true, .object members))
    (hname : members.lookup (lit "Name") = some (.string name)) :
    HandledSafely J env dataIn emiter w name ↔ name ∈ w.datarefMap := by
  have hdecode := decodeName_object hparse hname
  constructor
  · intro hsafe
    by_contra hunknown
    have hexec := exec_setDatarefValueCallback_unknown env emiter hdecode hunknown
    exact hunknown (hsafe.dereferenced (by rw [hexec]))
  · intro hknown
    obtain ⟨result, replies, hone, hexec⟩ :=
      exec_setDatarefValueCallback_known env emiter hdecode hknown
    refine ⟨fun _ => hknown, fun hunknown => absurd hknown hunknown, replies, hone, ?_⟩
    rw [hexec]

end Request

/-- The registered name of the sample world. -/
theorem handledSafely_iff_sampleWorld :
    HandledSafely namingJson ⟨answering 1, 6⟩ namingRequest (.ofSocket 7) sampleWorld
      (lit "a") := by
  have hregistered : lit "a" ∈ sampleWorld.datarefMap := by
    simp [sampleWorld]
  exact (handledSafely_iff ⟨answering 1, 6⟩ (.ofSocket 7) rfl rfl).mpr hregistered

/-- The same request before anything is registered. -/
theorem not_handledSafely_sample :
    ¬ HandledSafely namingJson ⟨answering 1, 6⟩ namingRequest (.ofSocket 7) World.initial
      (lit "a") := by
  intro h
  have hunknown : lit "a" ∉ World.initial.datarefMap := Std.ExtTreeMap.not_mem_empty
  have hfault : (exec (setDatarefValueCallback namingJson ⟨answering 1, 6⟩ namingRequest
      (.ofSocket 7)) World.initial).1 = .error (.ub .iterator) := rfl
  exact hunknown (h.dereferenced hfault)

end XplaneServer.Datas
