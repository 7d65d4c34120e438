/-
  Datas/Permission.lean --- the write permission of a dataref, over the history
  of its objects.

  `_isReadOnly` stores the last answer of `XPLMCanWriteDataRef`: the constructor
  asks for it, a copy inherits it, and only `SetValue` with its second argument
  set asks again.  `SetValue` takes the flag for what it stores, so a write needs
  that answer to be non-zero (`setValue_permitted`); `IsReadOnly` returns it under
  the opposite name (`isReadOnly_inverted`).
-/
import XplaneServer.Main
import XplaneServer.Foundation.Records

set_option autoImplicit false

namespace XplaneServer.Datas

open Foundation Json

/-! ## Histories -/

/-- An object, and the calls to the simulator that were made by it or, before it
was copied, by the object it is a copy of. -/
structure Tracked where
  dataref : Dataref
  calls : List XPLMCall

/-- The operations on objects, which are numbered in the order of their
construction. -/
inductive ObjectOp where
  | default
  | construct (link : Bytes) (dataType : XPLMDataTypeID)
  | copy (b : Nat)
  | getValue (i : Nat)
  | isReadOnly (i : Nat) (forceRecheck : Bool)
  | setValue (i : Nat) (value : Bytes) (forceReadOnly : Bool)

namespace Tracked

/-- `GetValue` leaves the object as it is. -/
def getValue (S : Sim) (o : Tracked) : Tracked :=
  { o with calls := o.calls ++ (o.dataref.getValue S).1.map .get }

/-- `IsReadOnly` leaves the object as it is. -/
def isReadOnly (o : Tracked) (forceRecheck : Bool) : Tracked :=
  { o with calls := o.calls ++ (o.dataref.isReadOnlyCall forceRecheck).1 }

/-- The object after `SetValue`. -/
def setValue (J : JsonCpp) (S : Sim) (o : Tracked) (value : Bytes) (forceReadOnly : Bool) :
    Tracked :=
  let outcome := o.dataref.setValue J S value forceReadOnly
  { dataref := outcome.dataref, calls := o.calls ++ outcome.calls }

end Tracked

/-- Operate on one object. -/
def onObject (objects : List Tracked) (i : Nat) (f : Tracked → Tracked) : Option (List Tracked) :=
  objects[i]?.map fun o => objects.set i (f o)

/-- The objects after an operation, before one simulator; none when there is no
object of that number. -/
def ObjectOp.apply (J : JsonCpp) (S : Sim) (objects : List Tracked) :
    ObjectOp → Option (List Tracked)
  | .default => some (objects ++ [⟨Dataref.default, []⟩])
  | .construct link dataType =>
      some (objects ++ [⟨Dataref.ofLink S link dataType, Dataref.ofLinkCalls S link dataType⟩])
  | .copy b => objects[b]?.map fun o => objects ++ [⟨o.dataref.copy, o.calls⟩]
  | .getValue i => onObject objects i (Tracked.getValue S)
  | .isReadOnly i forceRecheck => onObject objects i (Tracked.isReadOnly · forceRecheck)
  | .setValue i value forceReadOnly =>
      onObject objects i (Tracked.setValue J S · value forceReadOnly)

/-- A step of a history: an operation, and the simulator it meets. -/
def ObjectStep (J : JsonCpp) (objects : List Tracked) (op : Sim × ObjectOp)
    (objects' : List Tracked) : Prop :=
  op.2.apply J op.1 objects = some objects'

/-- The last answer of `XPLMCanWriteDataRef` among some calls. -/
def lastAnswer (calls : List XPLMCall) : Option Int :=
  calls.foldl
    (fun last call =>
      match call with
      | .canWriteDataRef _ answer => some answer
      | _ => last)
    none

/-- Calls that do not ask for the permission. -/
def Silent (calls : List XPLMCall) : Prop :=
  ∀ call ∈ calls, ∀ dataref answer, call ≠ .canWriteDataRef dataref answer

theorem lastAnswer_append_silent (calls : List XPLMCall) {more : List XPLMCall}
    (h : Silent more) : lastAnswer (calls ++ more) = lastAnswer calls := by
  induction more generalizing calls with
  | nil => rw [List.append_nil]
  | cons call more ih =>
      have hrest : Silent more := fun c hc => h c (List.mem_cons_of_mem call hc)
      have hfirst : lastAnswer (calls ++ [call]) = lastAnswer calls := by
        have hcall := h call List.mem_cons_self
        unfold lastAnswer
        rw [List.foldl_append]
        cases call with
        | canWriteDataRef dataref answer => exact absurd rfl (hcall dataref answer)
        | _ => rfl
      rw [List.append_cons, ih _ hrest, hfirst]

theorem lastAnswer_append_answer (calls : List XPLMCall) (dataref : XPLMDataRef) (answer : Int) :
    lastAnswer (calls ++ [.canWriteDataRef dataref answer]) = some answer := by
  unfold lastAnswer
  rw [List.foldl_append]
  rfl

/-- Reads do not ask for the permission. -/
theorem silent_of_reads {reads : List XPLMCall} (h : ∀ c ∈ reads, ∃ g, c = .get g) :
    Silent reads := by
  intro c hc dataref answer
  obtain ⟨g, rfl⟩ := h c hc
  exact nofun

/-! ## The flag is the last answer -/

/-- A valid object has a handle and has asked for its permission, and the flag
is what it was last told. -/
def Remembers (d : Dataref) (calls : List XPLMCall) : Prop :=
  d.isValid = true →
    d.dataref ≠ NULL ∧ ∃ answer, lastAnswer calls = some answer ∧
      (d.isReadOnly = true ↔ answer ≠ 0)

namespace Remembers

variable {d : Dataref} {calls : List XPLMCall}

theorem silent (h : Remembers d calls) {more : List XPLMCall} (hmore : Silent more) :
    Remembers d (calls ++ more) := by
  intro hvalid
  rw [lastAnswer_append_silent calls hmore]
  exact h hvalid

theorem ofLink (S : Sim) (link : Bytes) (t : XPLMDataTypeID) :
    Remembers (Dataref.ofLink S link t) (Dataref.ofLinkCalls S link t) := by
  unfold Remembers Dataref.ofLink Dataref.ofLinkCalls
  by_cases hguard : t = .unknown ∨ link = []
  · simp [hguard]
  · by_cases href : S.findDataRef (beforeNul link) = NULL
    · simp [hguard, href]
    · simp only [if_neg hguard, if_neg href]
      intro _
      exact ⟨href, _, rfl, by simp⟩

/-- A recheck keeps the flag up to date. -/
theorem recheck (h : Remembers d calls) (S : Sim) (forceReadOnly : Bool) :
    Remembers (d.recheck S forceReadOnly).2 (calls ++ (d.recheck S forceReadOnly).1) := by
  cases forceReadOnly with
  | false =>
      have hnone : d.recheck S false = ([], d) := rfl
      rw [hnone, List.append_nil]
      exact h
  | true =>
      intro hvalid
      obtain ⟨href, -⟩ := h hvalid
      refine ⟨href, _, lastAnswer_append_answer calls _ _, ?_⟩
      rw [Dataref.recheck_eq]
      simp

/-- `SetValue` keeps the flag up to date, however it ends. -/
theorem setValue (h : Remembers d calls) (J : JsonCpp) (S : Sim) (value : Bytes)
    (forceReadOnly : Bool) :
    Remembers (d.setValue J S value forceReadOnly).dataref
      (calls ++ (d.setValue J S value forceReadOnly).calls) := by
  have hrecheck := h.recheck S forceReadOnly
  rcases d.setValue_cases J S value forceReadOnly with ⟨-, hout⟩ | ⟨-, -, hout⟩ | ⟨-, -, hout⟩
  · have hnone : Silent [] := by simp [Silent]
    rw [hout]
    exact h.silent hnone
  · rw [hout]
    exact hrecheck
  · rw [hout, ← List.append_assoc]
    apply hrecheck.silent
    rcases hbranch : (d.recheck S forceReadOnly).2.setTyped J S value with ⟨made, result⟩
    have hshape := (d.recheck S forceReadOnly).2.setTyped_branch J S value
    rw [hbranch] at hshape
    cases hshape with
    | refused hreads _ => exact silent_of_reads hreads
    | written hreads _ _ =>
        intro c hc
        rcases List.mem_append.mp hc with hc | hc
        · exact silent_of_reads hreads c hc
        · rw [List.mem_singleton.mp hc]
          exact nofun

end Remembers

/-- Operating on one object of a list. -/
theorem onObject_forall {P : Tracked → Prop} {objects objects' : List Tracked} {i : Nat}
    {f : Tracked → Tracked} (h : ∀ o ∈ objects, P o) (hf : ∀ o, P o → P (f o))
    (happly : onObject objects i f = some objects') : ∀ o ∈ objects', P o := by
  obtain ⟨o, ho, rfl⟩ := Option.map_eq_some_iff.mp happly
  intro o' ho'
  rcases List.mem_or_eq_of_mem_set ho' with hold | rfl
  · exact h o' hold
  · exact hf o (h o (List.mem_of_getElem? ho))

/-- A new object at the end of a list. -/
theorem forall_push {P : Tracked → Prop} {objects : List Tracked} (h : ∀ o ∈ objects, P o)
    {new : Tracked} (hnew : P new) : ∀ o ∈ objects ++ [new], P o := by
  intro o ho
  rcases List.mem_append.mp ho with hold | ho
  · exact h o hold
  · rw [List.mem_singleton.mp ho]
    exact hnew

/-- Every operation keeps the flags up to date. -/
theorem remembers_step {J : JsonCpp} {objects objects' : List Tracked} {op : Sim × ObjectOp}
    (h : ∀ o ∈ objects, Remembers o.dataref o.calls) (hstep : ObjectStep J objects op objects') :
    ∀ o ∈ objects', Remembers o.dataref o.calls := by
  obtain ⟨S, op⟩ := op
  unfold ObjectStep ObjectOp.apply at hstep
  cases op with
  | default =>
      cases hstep
      exact forall_push h fun hvalid => by simp [Dataref.default] at hvalid
  | construct link t =>
      cases hstep
      exact forall_push h (Remembers.ofLink S link t)
  | copy b =>
      obtain ⟨o, ho, rfl⟩ := Option.map_eq_some_iff.mp hstep
      exact forall_push h (h o (List.mem_of_getElem? ho))
  | getValue i =>
      refine onObject_forall h (fun o ho => ho.silent ?_) hstep
      intro c hc
      obtain ⟨g, -, rfl⟩ := List.mem_map.mp hc
      exact nofun
  | isReadOnly i forceRecheck =>
      refine onObject_forall h (fun o ho => ho.silent ?_) hstep
      cases forceRecheck <;> simp [Dataref.isReadOnlyCall, Silent]
  | setValue i value forceReadOnly =>
      exact onObject_forall h (fun o ho => ho.setValue J S value forceReadOnly) hstep

/-- In every state of a history the flags are up to date. -/
theorem remembers_of_run {J : JsonCpp} {ops : List (Sim × ObjectOp)} {objects : List Tracked}
    (hrun : Run (ObjectStep J) [] ops objects) : ∀ o ∈ objects, Remembers o.dataref o.calls := by
  induction hrun with
  | nil => simp
  | snoc _ hlast ih => exact remembers_step ih hlast

/-! ## A write needs the permission -/

/-- What a call of `SetValue` on a tracked object may do: at most one write, only
with the permission and by the setter of the object's own type, and reported
truthfully. -/
structure Permitted (o : Tracked) (outcome : SetOutcome) : Prop where
  once : ∀ before s after, outcome.calls = before ++ .set s :: after →
    ∀ s', .set s' ∉ before ++ after
  valid : ∀ before s after, outcome.calls = before ++ .set s :: after →
    o.dataref.isValid = true ∧ o.dataref.dataref ≠ NULL
  answered : ∀ before s after, outcome.calls = before ++ .set s :: after →
    ∃ answer, lastAnswer (o.calls ++ before) = some answer ∧ answer ≠ 0
  setter : ∀ s, .set s ∈ outcome.calls →
    s.dataref = o.dataref.dataref ∧ s.dataType = o.dataref.dataType
  reported : outcome.result = .ok true ↔ ∃ s, .set s ∈ outcome.calls

/-- A call that writes nothing and does not return true. -/
theorem permitted_of_no_write {o : Tracked} {outcome : SetOutcome}
    (hcalls : ∀ s, .set s ∉ outcome.calls) (hresult : outcome.result ≠ .ok true) :
    Permitted o outcome := by
  have hnone : ∀ before s after, outcome.calls ≠ before ++ .set s :: after := by
    intro before s after hsplit
    exact hcalls s (hsplit ▸ List.mem_append_right before List.mem_cons_self)
  refine ⟨?_, ?_, ?_, ?_, ?_⟩
  · exact fun before s after hsplit => absurd hsplit (hnone before s after)
  · exact fun before s after hsplit => absurd hsplit (hnone before s after)
  · exact fun before s after hsplit => absurd hsplit (hnone before s after)
  · exact fun s hs => absurd hs (hcalls s)
  · exact iff_of_false hresult fun ⟨s, hs⟩ => hcalls s hs

/-- Reads after calls that write nothing. -/
theorem not_set_append {made reads : List XPLMCall} (hmade : ∀ s, .set s ∉ made)
    (hreads : ∀ c ∈ reads, ∃ g, c = .get g) : ∀ s, .set s ∉ made ++ reads := by
  intro s hs
  rcases List.mem_append.mp hs with hs | hs
  · exact hmade s hs
  · obtain ⟨g, hg⟩ := hreads _ hs
    cases hg

/-- A call that ends with its only write. -/
theorem permitted_of_write {o : Tracked} {outcome : SetOutcome} {made : List XPLMCall}
    {call : XPLMSet} (hcalls : outcome.calls = made ++ [.set call]) (hmade : ∀ s, .set s ∉ made)
    (hresult : outcome.result = .ok true)
    (hvalid : o.dataref.isValid = true ∧ o.dataref.dataref ≠ NULL)
    (hanswer : ∃ answer, lastAnswer (o.calls ++ made) = some answer ∧ answer ≠ 0)
    (hcall : call.dataref = o.dataref.dataref ∧ call.dataType = o.dataref.dataType) :
    Permitted o outcome := by
  have honly : ∀ before s after, outcome.calls = before ++ .set s :: after →
      before = made ∧ s = call ∧ after = [] := by
    intro before s after hsplit
    rw [hcalls] at hsplit
    obtain ⟨rfl, hset⟩ := append_cons_inj hsplit (hmade s) (Or.inr List.not_mem_nil)
    have hafter := List.append_cancel_left hsplit
    exact ⟨rfl, XPLMCall.set.inj hset.symm, (List.cons.inj hafter).2.symm⟩
  have hmem : ∀ s, .set s ∈ outcome.calls → s = call := by
    intro s hs
    obtain ⟨before, after, hsplit⟩ := List.append_of_mem hs
    exact (honly before s after hsplit).2.1
  refine ⟨fun before s after hsplit s' => ?_, fun _ _ _ _ => hvalid,
    fun before s after hsplit => ?_, fun s hs => ?_, ?_⟩
  · obtain ⟨rfl, -, rfl⟩ := honly before s after hsplit
    rw [List.append_nil]
    exact hmade s'
  · obtain ⟨rfl, -, -⟩ := honly before s after hsplit
    exact hanswer
  · rw [hmem s hs]
    exact hcall
  · exact iff_of_true hresult ⟨call, by simp [hcalls]⟩

/-- **A write reaches the simulator only with permission and is reported
truthfully**, for every object of every history. -/
theorem setValue_permitted {J : JsonCpp} {ops : List (Sim × ObjectOp)} {objects : List Tracked}
    (hrun : Run (ObjectStep J) [] ops objects) {o : Tracked} (ho : o ∈ objects) (S : Sim)
    (value : Bytes) (forceReadOnly : Bool) :
    Permitted o (o.dataref.setValue J S value forceReadOnly) := by
  have hremembers := remembers_of_run hrun o ho
  have hasked := o.dataref.not_set_recheck S forceReadOnly
  rcases o.dataref.setValue_cases J S value forceReadOnly with
    ⟨-, hout⟩ | ⟨-, -, hout⟩ | ⟨husable, hflag, hout⟩
  · rw [hout]
    exact permitted_of_no_write (by simp) (by simp)
  · rw [hout]
    exact permitted_of_no_write hasked (by simp)
  · have heq := o.dataref.recheck_eq S forceReadOnly
    have hrecheck := hremembers.recheck S forceReadOnly
    rw [hout]
    rcases hbranch : (o.dataref.recheck S forceReadOnly).2.setTyped J S value with ⟨made, result⟩
    have hshape := (o.dataref.recheck S forceReadOnly).2.setTyped_branch J S value
    rw [hbranch] at hshape
    cases hshape with
    | refused hreads hresult =>
        exact permitted_of_no_write (not_set_append hasked hreads) hresult
    | @written reads call hreads hdataref htype =>
        have hvalid : (o.dataref.recheck S forceReadOnly).2.isValid = true := by
          rw [heq]
          exact husable.1
        obtain ⟨-, answer, hlast, hanswer⟩ := hrecheck hvalid
        have hcalls := (List.append_assoc (o.dataref.recheck S forceReadOnly).1 reads
          [.set call]).symm
        apply permitted_of_write hcalls (not_set_append hasked hreads) rfl
          ⟨husable.1, husable.2.1⟩
        · refine ⟨answer, ?_, hanswer.mp hflag⟩
          rw [← List.append_assoc, lastAnswer_append_silent _ (silent_of_reads hreads)]
          exact hlast
        · rw [heq] at hdataref htype
          exact ⟨hdataref, htype⟩

/-- A simulator in which every name is the dataref 1, with this answer to
`XPLMCanWriteDataRef`. -/
def answering (answer : Int) : Sim :=
  { Sim.empty with findDataRef := fun _ => 1, canWriteDataRef := fun _ => answer }

/-- An object constructed while its dataref cannot be written, and written once
it can, and then copied. -/
def sampleHistory : List (Sim × ObjectOp) :=
  [(answering 0, .construct (lit "one") .int), (answering 1, .setValue 0 (lit "5") true),
    (answering 0, .copy 0)]

/-- The object of that history, and its copy. -/
def sampleObject : Tracked :=
  { dataref := ⟨true, true, lit "one", .int, 1⟩
    calls := [.findDataRef (lit "one") 1, .canWriteDataRef 1 0, .canWriteDataRef 1 1,
      .set (.datai 1 5)] }

theorem run_sampleHistory (J : JsonCpp) :
    Run (ObjectStep J) [] sampleHistory [sampleObject, sampleObject] := by
  have hconstruct : ObjectStep J [] (answering 0, .construct (lit "one") .int)
      [⟨⟨false, true, lit "one", .int, 1⟩, [.findDataRef (lit "one") 1, .canWriteDataRef 1 0]⟩] :=
    rfl
  have hset : ObjectStep J
      [⟨⟨false, true, lit "one", .int, 1⟩, [.findDataRef (lit "one") 1, .canWriteDataRef 1 0]⟩]
      (answering 1, .setValue 0 (lit "5") true) [sampleObject] := rfl
  have hcopy : ObjectStep J [sampleObject] (answering 0, .copy 0) [sampleObject, sampleObject] :=
    rfl
  exact Run.snoc (Run.snoc (Run.snoc (Run.nil _) hconstruct) hset) hcopy

/-- The copy, which inherits the permission. -/
theorem setValue_permitted_sample :
    Permitted sampleObject
      (sampleObject.dataref.setValue (.ofTable []) (answering 0) (lit "7") false) :=
  setValue_permitted (run_sampleHistory (.ofTable [])) List.mem_cons_self _ _ _

/-! ## `IsReadOnly` -/

/-- `SetValue` refuses every value, without the second argument. -/
def Refused (J : JsonCpp) (S : Sim) (d : Dataref) : Prop :=
  ∀ value, (d.setValue J S value false).result = .ok false ∧
    ∀ s, .set s ∉ (d.setValue J S value false).calls

/-- `IsReadOnly` is true exactly when `SetValue` refuses every value. -/
def AgreesWithSetValue (J : JsonCpp) (S : Sim) (d : Dataref) : Prop :=
  (d.isReadOnlyCall false).2 = true ↔ Refused J S d

/-- With a recheck, it is true exactly when the simulator denies the write. -/
def AgreesWithSimulator (S : Sim) (d : Dataref) : Prop :=
  (d.isReadOnlyCall true).2 = true ↔ S.canWriteDataRef d.dataref = 0

/-- `SetDatarefValue_Callback` answers that the dataref is read-only. -/
def TurnedAway (J : JsonCpp) (env : MsgEnv) (dataIn : Bytes) (emiter : Networking.Client)
    (w : World) : Prop :=
  exec (setDatarefValueCallback J env dataIn emiter) w =
    (.ok (some (-3)), w.record [.send emiter.sock readOnlyReply env.reply])

/-- The text `0` is a value of every scalar type. -/
theorem setTyped_zero (J : JsonCpp) (S : Sim) {d : Dataref} (h : Dataref.Scalar d.dataType) :
    (d.setTyped J S (lit "0")).2 = .ok true := by
  have hint : stoi (lit "0") = .ok 0 := by decide
  have hfloat : stof (lit "0") = .ok 0 := by decide
  have hdouble : stod (lit "0") = .ok 0 := by decide
  unfold Dataref.setTyped
  rcases h with htype | htype | htype
  · simp [htype, Dataref.setScalar, hint]
  · simp [htype, Dataref.setScalar, hfloat]
  · simp [htype, Dataref.setScalar, hdouble]

/-- `SetValue` refuses everything exactly when the flag is false. -/
theorem refused_iff (J : JsonCpp) (S : Sim) {d : Dataref} (h : d.Live) :
    Refused J S d ↔ d.isReadOnly = false := by
  obtain ⟨hvalid, href, hscalar⟩ := h
  have hnone : d.recheck S false = ([], d) := rfl
  have htyped : d.dataType ≠ .unknown := by
    rcases hscalar with htype | htype | htype <;> simp [htype]
  constructor
  · intro hrefused
    by_contra hflag
    have hresult := (hrefused (lit "0")).1
    rcases d.setValue_cases J S (lit "0") false with
      ⟨hnot, -⟩ | ⟨-, hfalse, -⟩ | ⟨-, -, hout⟩
    · exact hnot ⟨hvalid, href, htyped⟩
    · rw [hnone] at hfalse
      exact hflag hfalse
    · rw [hout, hnone, setTyped_zero J S hscalar] at hresult
      cases hresult
  · intro hflag value
    rcases d.setValue_cases J S value false with ⟨-, hout⟩ | ⟨-, -, hout⟩ | ⟨-, htrue, -⟩
    · rw [hout]
      simp
    · rw [hout, hnone]
      simp
    · rw [hnone, hflag] at htrue
      cases htrue

/-- The callback asks `IsReadOnly` for the dataref bound to the name. -/
theorem turnedAway_iff {J : JsonCpp} {env : MsgEnv} {dataIn : Bytes} {emiter : Networking.Client}
    {w : World} {json : Value} {name : Bytes} {d : Dataref}
    (hparse : J.parse dataIn = .ok (true, json)) (hname : json.text J (lit "Name") = .ok name)
    (hd : w.datarefMap[name]? = some d) :
    TurnedAway J env dataIn emiter w ↔ d.isReadOnly = true := by
  have hdecode : decodeName J dataIn = .ok (some name) := by
    simp [decodeName, hparse, hname]
  unfold TurnedAway
  rw [exec_setDatarefValueCallback, hdecode]
  simp only [hd]
  cases d.isReadOnly <;> simp

/-- **`IsReadOnly` contradicts `SetValue`.**  For every valid object of a scalar
type of every history: it is true exactly when `SetValue` does not refuse; with a
recheck it says what the simulator denies only if the permission has changed
since it was last asked for; and the callback turns away exactly the datarefs
that `SetValue` would write. -/
theorem isReadOnly_inverted {J : JsonCpp} {ops : List (Sim × ObjectOp)} {objects : List Tracked}
    (hrun : Run (ObjectStep J) [] ops objects) {o : Tracked} (ho : o ∈ objects)
    (hvalid : o.dataref.isValid = true) (hscalar : Dataref.Scalar o.dataref.dataType) (S : Sim) :
    ¬ AgreesWithSetValue J S o.dataref ∧
      (AgreesWithSimulator S o.dataref ↔
        (lastAnswer o.calls ≠ some 0 ↔ S.canWriteDataRef o.dataref.dataref = 0)) ∧
      ∀ env dataIn emiter w json name, J.parse dataIn = .ok (true, json) →
        json.text J (lit "Name") = .ok name → w.datarefMap[name]? = some o.dataref →
        (TurnedAway J env dataIn emiter w ↔ ¬ Refused J S o.dataref) := by
  obtain ⟨href, answer, hlast, hflag⟩ := remembers_of_run hrun o ho hvalid
  have hlive : o.dataref.Live := ⟨hvalid, href, hscalar⟩
  have hrefused := refused_iff J S hlive
  refine ⟨?_, ?_, fun env dataIn emiter w json name hparse hname hd => ?_⟩
  · unfold AgreesWithSetValue
    rw [hrefused]
    cases hread : o.dataref.isReadOnly <;> simp [Dataref.isReadOnlyCall, hread]
  · unfold AgreesWithSimulator
    rw [hlast, ← show answer ≠ 0 ↔ (some answer : Option Int) ≠ some 0 by simp]
    simp only [Dataref.isReadOnlyCall, hflag]
  · rw [turnedAway_iff hparse hname hd, hrefused]
    simp

/-- A world in which the copy of the sample history is registered as `a`. -/
def sampleWorld : World :=
  { World.initial with
    datarefMap := World.initial.datarefMap.insertIfNew (lit "a") sampleObject.dataref }

/-- A request that names it. -/
def namingRequest : Bytes := lit "\x7b\"Name\":\"a\"\x7d"

/-- jsoncpp on that request. -/
def namingJson : JsonCpp :=
  .ofTable [(namingRequest, true, .object [(lit "Name", .string (lit "a"))])]

/-- The copy of the sample history, and a request that names it. -/
theorem isReadOnly_inverted_sample :
    ¬ AgreesWithSetValue namingJson (answering 1) sampleObject.dataref ∧
      (TurnedAway namingJson ⟨answering 1, 6⟩ namingRequest (.ofSocket 7) sampleWorld ↔
        ¬ Refused namingJson (answering 1) sampleObject.dataref) := by
  obtain ⟨hagrees, -, hturned⟩ := isReadOnly_inverted (run_sampleHistory namingJson)
    List.mem_cons_self rfl (Or.inl rfl) (answering 1)
  have hregistered : sampleWorld.datarefMap[lit "a"]? = some sampleObject.dataref := by
    rw [sampleWorld, getElem?_insertIfNew_or, if_pos rfl]
    rfl
  exact ⟨hagrees, hturned _ _ _ _ _ _ rfl rfl hregistered⟩

/-- It may be written, and is said to be read-only, with and without a recheck. -/
theorem not_agrees_sample :
    ¬ AgreesWithSetValue (.ofTable []) (answering 1) sampleObject.dataref ∧
      ¬ AgreesWithSimulator (answering 1) sampleObject.dataref := by
  constructor
  · intro h
    have hwritten : (sampleObject.dataref.setValue (.ofTable []) (answering 1) (lit "7")
        false).result = .ok true := rfl
    have hrefused := (h.mp rfl (lit "7")).1
    rw [hwritten] at hrefused
    cases hrefused
  · intro h
    have hdenied : (answering 1).canWriteDataRef sampleObject.dataref.dataref = 0 := h.mp rfl
    cases hdenied

end XplaneServer.Datas
