/-
  Datas/Registers.lean --- what the users of scalar datarefs see of each other.

  Any number of `Dataref` objects look at the scalars of one simulator, and each
  sees a scalar as a text.  `Registers` is what they are for: a text for every
  dataref and type, which a write replaces by the text of what was written, and which
  a read returns, whichever object either of them goes through.  The objects implement
  this in every order of calls (`objects_refine`), although a float or a double
  does not survive its own text: what is read back, any number of times, is displayed
  the same (`redisplays_scalar`).

  What a write does is up to the simulator, within what its header says (`XPLMWrites`):
  it may change the texts of the other types of the dataref and of datarefs that depend
  on it, and does nothing if the dataref does not have the type of the object, which
  `SetValue` does not tell.
-/
import XplaneServer.Foundation.Printing
import XplaneServer.Datas.RoundTrip

set_option autoImplicit false

namespace XplaneServer.Datas

open Foundation Json

/-! ## Texts of scalars -/

/-- The text of a scalar, as `GetValue` prints it. -/
def display (S : Sim) (r : XPLMDataRef) : XPLMDataTypeID → Bytes
  | .int => toStringInt (S.getDatai r).toInt
  | .float => toStringFloat (S.getDataf r)
  | .double => toStringDouble (S.getDatad r)
  | _ => []

/-- The text of what a text is converted to, if it is. -/
def rendered : XPLMDataTypeID → Bytes → Except ConversionError Bytes
  | .int, value => (stoi value).map fun i => toStringInt i.toInt
  | .float, value => (stof value).map toStringFloat
  | .double, value => (stod value).map toStringDouble
  | _, _ => .error .invalidArgument

/-- The text of 0. -/
def zeroText : XPLMDataTypeID → Bytes
  | .int => lit "0"
  | .float => lit "0.000000"
  | .double => lit "0.000000"
  | _ => []

/-- The text a setter writes. -/
def writtenText : XPLMSet → Bytes
  | .datai _ x => toStringInt x.toInt
  | .dataf _ x => toStringFloat x
  | .datad _ x => toStringDouble x
  | _ => []

/-- A scalar that was kept is displayed as it was written. -/
theorem display_of_holds {S : Sim} {call : XPLMSet} (h : S.Holds call) :
    display S call.dataref call.dataType = writtenText call := by
  cases call with
  | datai r x => exact congrArg (fun y : Int32 => toStringInt y.toInt) h
  | dataf r x => exact congrArg toStringFloat h
  | datad r x => exact congrArg toStringDouble h
  | datavi r xs => rfl
  | datavf r xs => rfl

/-- The same scalars are displayed the same. -/
theorem display_of_same {S S' : Sim} {r : XPLMDataRef} (h : S.SameScalars S' r) :
    display S' r = display S r := by
  funext t
  cases t <;> simp only [display, h.int, h.float, h.double]

/-- A type that the dataref does not have is displayed as 0. -/
theorem display_of_typed {types : XPLMDataRef → XPLMDataTypeID → Bool} {S : Sim}
    (h : S.Typed types) {r : XPLMDataRef} {t : XPLMDataTypeID} (hnot : types r t = false) :
    display S r t = zeroText t := by
  have hint : toStringInt (0 : Int32).toInt = lit "0" := by decide
  have hfloat : toStringFloat 0 = lit "0.000000" := by decide
  have hdouble : toStringDouble 0 = lit "0.000000" := by decide +kernel
  cases t with
  | int => rw [display, h.int r hnot, hint, zeroText]
  | float => rw [display, h.float r hnot, hfloat, zeroText]
  | double => rw [display, h.double r hnot, hdouble, zeroText]
  | _ => rfl

namespace Dataref

/-- The simulator after some calls, where `write` is what a write does to it. -/
def afterWrites (write : Sim → XPLMSet → Sim) (S : Sim) (calls : List XPLMCall) : Sim :=
  calls.foldl
    (fun S call =>
      match call with
      | .set s => write S s
      | _ => S)
    S

/-- Asking for the permission writes nothing. -/
theorem afterWrites_recheck (write : Sim → XPLMSet → Sim) (S : Sim) (d : Dataref)
    (forceReadOnly : Bool) (calls : List XPLMCall) :
    afterWrites write S ((d.recheck S forceReadOnly).1 ++ calls) = afterWrites write S calls := by
  cases forceReadOnly <;> rfl

/-- The branch of a scalar type: a text that is converted is written, and another is
refused. -/
theorem setTyped_scalar (J : JsonCpp) (S : Sim) {d : Dataref} (htype : Scalar d.dataType)
    (value : Bytes) :
    match rendered d.dataType value with
    | .ok w =>
        ∃ call : XPLMSet, d.setTyped J S value = ([.set call], .ok true) ∧
          call.dataref = d.dataref ∧ call.dataType = d.dataType ∧ writtenText call = w
    | .error _ => d.setTyped J S value = ([], .ok false) := by
  rcases htype with htype | htype | htype
  · simp only [setTyped, htype, rendered, setScalar]
    cases stoi value with
    | error e => rfl
    | ok x => exact ⟨_, rfl, rfl, rfl, rfl⟩
  · simp only [setTyped, htype, rendered, setScalar]
    cases stof value with
    | error e => rfl
    | ok x => exact ⟨_, rfl, rfl, rfl, rfl⟩
  · simp only [setTyped, htype, rendered, setScalar]
    cases stod value with
    | error e => rfl
    | ok x => exact ⟨_, rfl, rfl, rfl, rfl⟩

/-- It does not ask the simulator. -/
theorem setTyped_congr (J : JsonCpp) (S S' : Sim) {d : Dataref} (htype : Scalar d.dataType)
    (value : Bytes) : d.setTyped J S value = d.setTyped J S' value := by
  rcases htype with htype | htype | htype <;> simp only [setTyped, htype]

/-- A live object reads the text that is displayed. -/
theorem getValue_display (S : Sim) {d : Dataref} (hd : d.Live) :
    (d.getValue S).2 = .ok (display S d.dataref d.dataType) := by
  obtain ⟨hvalid, href, htype | htype | htype⟩ := hd
  all_goals
    simp [getValue, hvalid, href, htype, display]

/-! ## Writing back what was read -/

/-- The scalar of the object is the one it was, as far as its text tells. -/
def Approximates (S S' : Sim) (d : Dataref) : Prop :=
  match d.dataType with
  | .int => S'.getDatai d.dataref = S.getDatai d.dataref
  | .float =>
      (Ieee.ofBits 8 23 (S.getDataf d.dataref).toNat).Within (1 / 10 ^ 6)
        (Ieee.ofBits 8 23 (S'.getDataf d.dataref).toNat)
  | .double =>
      (Ieee.ofBits 11 52 (S.getDatad d.dataref).toNat).Within (1 / 10 ^ 6)
        (Ieee.ofBits 11 52 (S'.getDatad d.dataref).toNat)
  | _ => True

theorem approximates_self (S : Sim) (d : Dataref) : Approximates S S d := by
  have hplace : (0 : ℚ) ≤ 1 / 10 ^ 6 := by positivity
  unfold Approximates
  cases d.dataType with
  | int => rfl
  | float => exact Ieee.within_self hplace _
  | double => exact Ieee.within_self hplace _
  | _ => trivial

/-- `SetValue(GetValue())`: the simulator after it. -/
def writeBack (J : JsonCpp) (write : Sim → XPLMSet → Sim) (d : Dataref) (forceReadOnly : Bool)
    (S : Sim) : Sim :=
  match (d.getValue S).2 with
  | .ok text => afterWrites write S (d.setValue J S text forceReadOnly).calls
  | .error _ => S

/-- Writing back what was read, any number of times, returns true and is not seen through
the object: it shows the same text, its value stays within the last place of what it was,
and every round writes the same. -/
def Redisplays (J : JsonCpp) (write : Sim → XPLMSet → Sim) (S : Sim) (d : Dataref)
    (forceReadOnly : Bool) : Prop :=
  ∃ (text : Bytes) (call : XPLMSet), call.dataref = d.dataref ∧ call.dataType = d.dataType ∧
    ∀ rounds : Nat,
      (d.getValue ((writeBack J write d forceReadOnly)^[rounds] S)).2 = .ok text ∧
      d.setValue J ((writeBack J write d forceReadOnly)^[rounds] S) text forceReadOnly =
        ⟨(d.recheck ((writeBack J write d forceReadOnly)^[rounds] S) forceReadOnly).1 ++
          [.set call], .ok true, d⟩ ∧
      Approximates S ((writeBack J write d forceReadOnly)^[rounds] S) d

/-- What the branch of a scalar type does with the text that is displayed. -/
theorem setTyped_display (J : JsonCpp) (S : Sim) {d : Dataref} (htype : Scalar d.dataType) :
    ∃ call : XPLMSet,
      d.setTyped J S (display S d.dataref d.dataType) = ([.set call], .ok true) ∧
        call.dataref = d.dataref ∧ call.dataType = d.dataType ∧
        writtenText call = display S d.dataref d.dataType ∧
        ∀ S' : Sim, S'.Holds call → Approximates S S' d := by
  rcases htype with htype | htype | htype
  · refine ⟨.datai d.dataref (S.getDatai d.dataref), ?_, rfl, htype.symm, ?_, fun S' h => ?_⟩
    · simp only [htype, display]
      exact setTyped_toStringInt J S htype _
    · simp only [htype, display, writtenText]
    · have hsame : S'.getDatai d.dataref = S.getDatai d.dataref := h
      simpa only [Approximates, htype] using hsame
  · obtain ⟨bits, hread, htext, hwithin⟩ := stof_toStringFloat (S.getDataf d.dataref)
    refine ⟨.dataf d.dataref bits, ?_, rfl, htype.symm, ?_, fun S' h => ?_⟩
    · simp only [setTyped, htype, setScalar, display, hread]
    · simp only [htype, display, writtenText, htext]
    · have hbits : S'.getDataf d.dataref = bits := h
      simpa only [Approximates, htype, hbits] using hwithin
  · obtain ⟨bits, hread, htext, hwithin⟩ := stod_toStringDouble (S.getDatad d.dataref)
    refine ⟨.datad d.dataref bits, ?_, rfl, htype.symm, ?_, fun S' h => ?_⟩
    · simp only [setTyped, htype, setScalar, display, hread]
    · simp only [htype, display, writtenText, htext]
    · have hbits : S'.getDatad d.dataref = bits := h
      simpa only [Approximates, htype, hbits] using hwithin

/-- **Writing back what was read is not seen**, in any simulator that does what its header
says, through an object of a type that its dataref has, if the dataref acts writable. -/
theorem redisplays_scalar (J : JsonCpp) {K : DatarefKinds} {write : Sim → XPLMSet → Sim}
    (hwrites : XPLMWrites K write) {S : Sim} {d : Dataref} (hd : Writable S d)
    (htype : Scalar d.dataType) (hhas : K.types d.dataref d.dataType = true)
    (hacts : K.acts d.dataref = true) (forceReadOnly : Bool) :
    Redisplays J write S d forceReadOnly := by
  have hknown : d.dataType ≠ .unknown := by
    rcases htype with htype | htype | htype <;> simp [htype]
  obtain ⟨call, hbranch, hdataref, hcallType, htext, hnear⟩ := setTyped_display J S htype
  -- every simulator of the rounds shows the text, can be written, and is close
  have hround : ∀ S' : Sim, Writable S' d →
      display S' d.dataref d.dataType = display S d.dataref d.dataType →
      (d.getValue S').2 = .ok (display S d.dataref d.dataType) ∧
        d.setValue J S' (display S d.dataref d.dataType) forceReadOnly =
          ⟨(d.recheck S' forceReadOnly).1 ++ [.set call], .ok true, d⟩ ∧
        writeBack J write d forceReadOnly S' = write S' call := by
    intro S' hd' hsame
    have hget := getValue_display S' ⟨hd'.isValid, hd'.dataref, htype⟩
    rw [hsame] at hget
    have hset := hd'.setValue J (display S d.dataref d.dataType) forceReadOnly hknown
    rw [setTyped_congr J S' S htype, hbranch] at hset
    refine ⟨hget, hset, ?_⟩
    rw [writeBack, hget]
    simp only
    rw [hset, afterWrites_recheck]
    rfl
  have hinvariant : ∀ rounds : Nat,
      Writable ((writeBack J write d forceReadOnly)^[rounds] S) d ∧
        display ((writeBack J write d forceReadOnly)^[rounds] S) d.dataref d.dataType =
          display S d.dataref d.dataType ∧
        Approximates S ((writeBack J write d forceReadOnly)^[rounds] S) d := by
    intro rounds
    induction rounds with
    | zero => exact ⟨hd, rfl, approximates_self S d⟩
    | succ rounds ih =>
        obtain ⟨hd', hsame, -⟩ := ih
        rw [Function.iterate_succ_apply', (hround _ hd' hsame).2.2]
        have hholds : (write ((writeBack J write d forceReadOnly)^[rounds] S) call).Holds call := by
          apply hwrites.kept
          · rw [hdataref]
            exact hd'.answer
          · rw [hdataref, hcallType]
            exact hhas
          · rw [hdataref]
            exact hacts
        have hshown := display_of_holds hholds
        rw [hdataref, hcallType, htext] at hshown
        refine ⟨⟨hd'.isValid, hd'.dataref, hd'.flag, ?_⟩, hshown, hnear _ hholds⟩
        rw [hwrites.canWriteDataRef]
        exact hd'.answer
  refine ⟨display S d.dataref d.dataType, call, hdataref, hcallType, fun rounds => ?_⟩
  obtain ⟨hd', hsame, hclose⟩ := hinvariant rounds
  obtain ⟨hget, hset, -⟩ := hround _ hd' hsame
  exact ⟨hget, hset, hclose⟩

/-- A third, as a double, which its text does not keep. -/
theorem redisplays_scalar_third :
    Redisplays arrayJson (typedSet ⟨fun _ _ => true, fun _ => true, (· != ·)⟩)
      { holding [] [] with getDatad := fun _ => 0x3FD5555555555555 } (arrayObject .double) true :=
  redisplays_scalar arrayJson (typedSet_writes fun _ _ => by simp)
    ⟨rfl, by decide, rfl, by decide⟩ (Or.inr (Or.inr rfl)) rfl rfl true

example : stod (toStringDouble 0x3FD5555555555555) = .ok 0x3FD55553EF6B5D46 := by decide

end Dataref

/-! ## Any number of objects -/

/-- What is done with the objects, and what it answered. -/
inductive Access where
  /-- a new object, by its link and data type -/
  | link (link : Bytes) (dataType : XPLMDataTypeID)
  | getValue (object : Nat) (text : Bytes)
  | setValue (object : Nat) (value : Bytes) (forceReadOnly accepted : Bool)
  /-- the simulator goes on, and its values change -/
  | change

/-- The simulator, and the objects that look at it. -/
structure Objects where
  sim : Sim
  datarefs : List Dataref

/-- One access to the objects, in a simulator with datarefs of these kinds. -/
inductive Objects.Step (J : JsonCpp) (K : DatarefKinds) (write : Sim → XPLMSet → Sim) :
    Objects → Access → Objects → Prop
  | link (w : Objects) (link : Bytes) {t : XPLMDataTypeID} (ht : Dataref.Scalar t) :
      Step J K write w (.link link t)
        { w with datarefs := w.datarefs ++ [.ofLink w.sim link t] }
  | getValue (w : Objects) {i : Nat} {d : Dataref} {text : Bytes} (hd : w.datarefs[i]? = some d)
      (htext : (d.getValue w.sim).2 = .ok text) : Step J K write w (.getValue i text) w
  | setValue (w : Objects) {i : Nat} {d : Dataref} {value : Bytes} {forceReadOnly accepted : Bool}
      (hd : w.datarefs[i]? = some d)
      (hresult : (d.setValue J w.sim value forceReadOnly).result = .ok accepted) :
      Step J K write w (.setValue i value forceReadOnly accepted)
        { sim := Dataref.afterWrites write w.sim (d.setValue J w.sim value forceReadOnly).calls
          datarefs := w.datarefs.set i (d.setValue J w.sim value forceReadOnly).dataref }
  /-- Names and permissions stay, and so does that a dataref reads as 0 through a type it
  does not have. -/
  | change (w : Objects) {S : Sim} (hfind : S.findDataRef = w.sim.findDataRef)
      (hwrite : S.canWriteDataRef = w.sim.canWriteDataRef) (htyped : S.Typed K.types) :
      Step J K write w .change { w with sim := S }

/-- What the objects are for: a text for every dataref and type.  An object is the name
of one of them, unless there is none under its link. -/
structure Registers where
  find : Bytes → XPLMDataRef
  writable : XPLMDataRef → Prop
  text : XPLMDataRef → XPLMDataTypeID → Bytes
  names : List (Option (XPLMDataRef × XPLMDataTypeID))

/-- What a write makes of the texts: it replaces the one it is for if the dataref has the
type and acts writable.  The other types of the dataref are left open, and so are datarefs
that are not apart from it. -/
structure Replaced (K : DatarefKinds) (text : XPLMDataRef → XPLMDataTypeID → Bytes)
    (r : XPLMDataRef) (t : XPLMDataTypeID) (w : Bytes)
    (text' : XPLMDataRef → XPLMDataTypeID → Bytes) : Prop where
  others : ∀ q, K.apart r q = true → text' q = text q
  mismatch : K.types r t = false → text' = text
  kept : K.types r t = true → K.acts r = true → text' r t = w

/-- One access to the texts. -/
inductive Registers.Step (K : DatarefKinds) : Registers → Access → Registers → Prop
  | link (m : Registers) (link : Bytes) (t : XPLMDataTypeID) :
      Step K m (.link link t)
        { m with
          names := m.names ++
            [if link = [] ∨ m.find link = NULL then none else some (m.find link, t)] }
  | getNone (m : Registers) {i : Nat} (hi : m.names[i]? = some none) :
      Step K m (.getValue i []) m
  | getSome (m : Registers) {i : Nat} {r : XPLMDataRef} {t : XPLMDataTypeID}
      (hi : m.names[i]? = some (some (r, t))) : Step K m (.getValue i (m.text r t)) m
  /-- Nothing is written: there is no scalar, it cannot be written, or the text is
  none of its type. -/
  | refuse (m : Registers) {i : Nat} (name : Option (XPLMDataRef × XPLMDataTypeID))
      (hi : m.names[i]? = some name) (value : Bytes) (forceReadOnly : Bool)
      (hnot : ∀ r t w, name = some (r, t) → m.writable r → rendered t value ≠ .ok w) :
      Step K m (.setValue i value forceReadOnly false) m
  /-- The text of what was written is the one of the scalar. -/
  | write (m : Registers) {i : Nat} {r : XPLMDataRef} {t : XPLMDataTypeID}
      (hi : m.names[i]? = some (some (r, t))) (hwrite : m.writable r) {value w : Bytes}
      (hw : rendered t value = .ok w) (forceReadOnly : Bool)
      {text : XPLMDataRef → XPLMDataTypeID → Bytes} (htext : Replaced K m.text r t w text) :
      Step K m (.setValue i value forceReadOnly true) { m with text }
  | change (m : Registers) (text : XPLMDataRef → XPLMDataTypeID → Bytes) :
      Step K m .change { m with text }

/-- The name an object stands for. -/
def Dataref.name (d : Dataref) : Option (XPLMDataRef × XPLMDataTypeID) :=
  if d.isValid then some (d.dataref, d.dataType) else none

/-- What the objects show. -/
def Objects.registers (w : Objects) : Registers where
  find link := w.sim.findDataRef (beforeNul link)
  writable r := w.sim.canWriteDataRef r ≠ 0
  text := display w.sim
  names := w.datarefs.map Dataref.name

/-- An object that was constructed from this simulator: it has no scalar, or one
whose permission it knows. -/
def Dataref.Constructed (S : Sim) (d : Dataref) : Prop :=
  d.Dead ∨ d.Live ∧ d.isReadOnly = (S.canWriteDataRef d.dataref ≠ 0 : Bool)

section Writes

variable {K : DatarefKinds} {write : Sim → XPLMSet → Sim}

/-- A write that is made replaces the text that it is for. -/
theorem replaced_write (hwrites : XPLMWrites K write) (S : Sim) {call : XPLMSet}
    (hwrite : S.canWriteDataRef call.dataref ≠ 0) :
    Replaced K (display S) call.dataref call.dataType (writtenText call)
      (display (write S call)) where
  others q hq := display_of_same (hwrites.others S call q hq)
  mismatch hnot := by rw [hwrites.mismatch S call hnot]
  kept hhas hacts := display_of_holds (hwrites.kept S call hwrite hhas hacts)

/-- Writes leave the names and the permissions, and what reads as 0. -/
theorem afterWrites_frame (hwrites : XPLMWrites K write) {S : Sim} (htyped : S.Typed K.types)
    (calls : List XPLMCall) :
    (Dataref.afterWrites write S calls).findDataRef = S.findDataRef ∧
      (Dataref.afterWrites write S calls).canWriteDataRef = S.canWriteDataRef ∧
      (Dataref.afterWrites write S calls).Typed K.types := by
  induction calls generalizing S with
  | nil => exact ⟨rfl, rfl, htyped⟩
  | cons call calls ih =>
      unfold Dataref.afterWrites at ih ⊢
      rw [List.foldl_cons]
      cases call with
      | set s =>
          rw [← hwrites.findDataRef S s, ← hwrites.canWriteDataRef S s]
          exact ih (hwrites.typed S s htyped)
      | _ => exact ih htyped

namespace Dataref

/-- The constructor finds the scalar and its permission. -/
theorem ofLink_constructed (S : Sim) (link : Bytes) {t : XPLMDataTypeID} (ht : Scalar t) :
    (ofLink S link t).Constructed S ∧
      (ofLink S link t).name =
        if link = [] ∨ S.findDataRef (beforeNul link) = NULL then none
        else some (S.findDataRef (beforeNul link), t) := by
  have hknown : t ≠ .unknown := by
    rcases ht with rfl | rfl | rfl <;> simp
  unfold ofLink
  by_cases hlink : link = []
  · simp [hlink, Constructed, Dead, name]
  · by_cases href : S.findDataRef (beforeNul link) = NULL
    · simp [hknown, hlink, href, Constructed, Dead, name]
    · simp [hknown, hlink, href, Constructed, Live, name, ht]

/-- Two simulators with the same permissions. -/
theorem Constructed.congr {S S' : Sim} {d : Dataref} (h : d.Constructed S)
    (hwrite : S'.canWriteDataRef = S.canWriteDataRef) : d.Constructed S' := by
  unfold Constructed at h ⊢
  rwa [hwrite]

/-- **What `SetValue` does through an object that was constructed**: it writes for
one text or none, and the object stays what it is. -/
theorem Constructed.setValue (hwrites : XPLMWrites K write) {S : Sim} {d : Dataref}
    (h : d.Constructed S) (J : JsonCpp) (value : Bytes) (forceReadOnly : Bool) :
    (d.setValue J S value forceReadOnly).dataref = d ∧
      ((∃ r t w, d.name = some (r, t) ∧ S.canWriteDataRef r ≠ 0 ∧ rendered t value = .ok w ∧
          (d.setValue J S value forceReadOnly).result = .ok true ∧
          Replaced K (display S) r t w
            (display (afterWrites write S (d.setValue J S value forceReadOnly).calls))) ∨
        ((∀ r t w, d.name = some (r, t) → S.canWriteDataRef r ≠ 0 → rendered t value ≠ .ok w) ∧
          (d.setValue J S value forceReadOnly).result = .ok false ∧
          display (afterWrites write S (d.setValue J S value forceReadOnly).calls) =
            display S)) := by
  rcases h with ⟨hinvalid, href, htype⟩ | ⟨⟨hvalid, href, htype⟩, hflag⟩
  · have hout : d.setValue J S value forceReadOnly = ⟨[], .ok false, d⟩ := by
      simp [Dataref.setValue, hinvalid]
    rw [hout]
    refine ⟨rfl, Or.inr ⟨?_, rfl, rfl⟩⟩
    intro r t w hname
    simp [name, hinvalid] at hname
  · have hknown : d.dataType ≠ .unknown := by
      rcases htype with htype | htype | htype <;> simp [htype]
    have hname : d.name = some (d.dataref, d.dataType) := by
      simp [name, hvalid]
    by_cases hwrite : S.canWriteDataRef d.dataref = 0
    · have hsame : (d.recheck S forceReadOnly).2 = d := by
        rw [recheck_eq, ← hflag]
        cases forceReadOnly <;> rfl
      have hout : d.setValue J S value forceReadOnly =
          ⟨(d.recheck S forceReadOnly).1 ++ [], .ok false, d⟩ := by
        rcases d.setValue_cases J S value forceReadOnly with
          ⟨hnot, -⟩ | ⟨-, -, hout⟩ | ⟨-, htrue, -⟩
        · exact absurd ⟨hvalid, href, hknown⟩ hnot
        · rw [hout, hsame, List.append_nil]
        · rw [hsame, hflag] at htrue
          simp [hwrite] at htrue
      rw [hout, afterWrites_recheck]
      refine ⟨rfl, Or.inr ⟨?_, rfl, rfl⟩⟩
      intro r t w hrt hallowed
      obtain ⟨rfl, rfl⟩ := Prod.mk.inj (Option.some.inj (hname.symm.trans hrt))
      exact absurd hwrite hallowed
    · have hd : Writable S d := ⟨hvalid, href, by simpa [hwrite] using hflag, hwrite⟩
      have hbranch := setTyped_scalar J S htype value
      rw [hd.setValue J value forceReadOnly hknown, afterWrites_recheck]
      refine ⟨rfl, ?_⟩
      cases hrendered : rendered d.dataType value with
      | ok w =>
          rw [hrendered] at hbranch
          obtain ⟨call, hcall, hdataref, hcallType, htext⟩ := hbranch
          left
          refine ⟨_, _, w, hname, hwrite, hrendered, by rw [hcall], ?_⟩
          rw [hcall, ← hdataref, ← hcallType, ← htext]
          apply replaced_write hwrites
          rw [hdataref]
          exact hwrite
      | error e =>
          rw [hrendered] at hbranch
          right
          refine ⟨?_, by rw [hbranch], by rw [hbranch]; rfl⟩
          intro r t w hrt _
          obtain ⟨rfl, rfl⟩ := Prod.mk.inj (Option.some.inj (hname.symm.trans hrt))
          simp [hrendered]

end Dataref

/-- Every object was constructed from the simulator as it is, which reads as 0 what a
dataref does not have. -/
structure Objects.Consistent (K : DatarefKinds) (w : Objects) : Prop where
  constructed : ∀ d ∈ w.datarefs, d.Constructed w.sim
  typed : w.sim.Typed K.types

/-- **Every access to the objects is one to their texts.** -/
theorem Objects.step_refines (J : JsonCpp) (hwrites : XPLMWrites K write) {w w' : Objects}
    {a : Access} (hw : w.Consistent K) (hstep : Objects.Step J K write w a w') :
    w'.Consistent K ∧ Registers.Step K w.registers a w'.registers := by
  cases hstep with
  | @link link t ht =>
      obtain ⟨hnew, hname⟩ := Dataref.ofLink_constructed w.sim link ht
      refine ⟨⟨fun d hd => ?_, hw.typed⟩, ?_⟩
      · rcases List.mem_append.mp hd with hold | hlast
        · exact hw.constructed d hold
        · rw [List.mem_singleton.mp hlast]
          exact hnew
      · have hnames : (w.datarefs ++ [Dataref.ofLink w.sim link t]).map Dataref.name =
            w.registers.names ++ [if link = [] ∨ w.registers.find link = NULL then none
              else some (w.registers.find link, t)] := by
          rw [List.map_append, List.map_singleton, hname]
          rfl
        unfold Objects.registers
        simp only [hnames]
        exact .link w.registers link t
  | @getValue i d text hd htext =>
      refine ⟨hw, ?_⟩
      have hi : w.registers.names[i]? = some d.name := by
        simp [Objects.registers, hd]
      rcases hw.constructed d (List.mem_of_getElem? hd) with hdead | ⟨hlive, -⟩
      · have hname : d.name = none := by simp [Dataref.name, hdead.1]
        rw [Dataref.getValue_dead w.sim hdead] at htext
        cases htext
        exact .getNone w.registers (hname ▸ hi)
      · have hname : d.name = some (d.dataref, d.dataType) := by simp [Dataref.name, hlive.1]
        rw [Dataref.getValue_display w.sim hlive] at htext
        cases htext
        exact .getSome w.registers (hname ▸ hi)
  | @setValue i d value forceReadOnly accepted hd hresult =>
      have hi : w.registers.names[i]? = some d.name := by
        simp [Objects.registers, hd]
      have hconstructed := hw.constructed d (List.mem_of_getElem? hd)
      obtain ⟨hsame, heffect⟩ := hconstructed.setValue hwrites J value forceReadOnly
      obtain ⟨hfind, hwritable, htyped⟩ :=
        afterWrites_frame hwrites hw.typed (d.setValue J w.sim value forceReadOnly).calls
      have hkept : w.datarefs.set i d = w.datarefs := by
        obtain ⟨hlt, hget⟩ := List.getElem?_eq_some_iff.mp hd
        rw [← hget]
        exact List.set_getElem_self hlt
      rw [hsame, hkept]
      refine ⟨⟨fun e he => (hw.constructed e he).congr hwritable, htyped⟩, ?_⟩
      have hregisters : Objects.registers
          { sim := Dataref.afterWrites write w.sim (d.setValue J w.sim value forceReadOnly).calls,
            datarefs := w.datarefs } =
          { w.registers with
            text := display (Dataref.afterWrites write w.sim
              (d.setValue J w.sim value forceReadOnly).calls) } := by
        simp only [Objects.registers, hfind, hwritable]
      rw [hregisters]
      rcases heffect with ⟨r, t, text, hname, hallowed, hrendered, hout, hreplaced⟩ |
        ⟨hnot, hout, hdisplay⟩
      · rw [hout] at hresult
        cases hresult
        exact .write w.registers (hname ▸ hi) hallowed hrendered forceReadOnly hreplaced
      · rw [hout] at hresult
        cases hresult
        rw [hdisplay]
        exact .refuse w.registers d.name hi value forceReadOnly hnot
  | @change S hfind hwritable htyped =>
      refine ⟨⟨fun d hd => (hw.constructed d hd).congr hwritable, htyped⟩, ?_⟩
      have hregisters : Objects.registers { w with sim := S } =
          { w.registers with text := display S } := by
        simp only [Objects.registers, hfind, hwritable]
      rw [hregisters]
      exact .change w.registers (display S)

/-- **The objects are no more than a text for every dataref and type**, in any simulator
that does what its header says: whatever is done with them, in any order, and however the
values change between, answers as the texts do, from those that the simulator shows at
first.  The text of a type that the dataref does not have is always that of 0, although
a write to it returns true. -/
theorem objects_refine (J : JsonCpp) (hwrites : XPLMWrites K write) {S : Sim}
    (htyped : S.Typed K.types) {accesses : List Access} {w : Objects}
    (hrun : Run (Objects.Step J K write) ⟨S, []⟩ accesses w) :
    Run (Registers.Step K) (Objects.registers ⟨S, []⟩) accesses w.registers ∧
      ∀ r t, K.types r t = false → w.registers.text r t = zeroText t := by
  have hstep : ∀ (v : Objects) (a : Access) (v' : Objects) (m : Registers),
      (v.Consistent K ∧ m = v.registers) → Objects.Step J K write v a v' →
        ∃ m', Registers.Step K m a m' ∧ v'.Consistent K ∧ m' = v'.registers := by
    rintro v a v' m ⟨hv, rfl⟩ hv'
    obtain ⟨hconsistent, hmatch⟩ := v.step_refines J hwrites hv hv'
    exact ⟨_, hmatch, hconsistent, rfl⟩
  have hstart : Objects.Consistent K ⟨S, []⟩ := ⟨fun d hd => absurd hd List.not_mem_nil, htyped⟩
  obtain ⟨m, hmatched, hconsistent, rfl⟩ := hrun.simulates hstep ⟨hstart, rfl⟩
  exact ⟨hmatched, fun r t hnot => display_of_typed hconsistent.typed hnot⟩

end Writes

/-- A simulator with one scalar that can be written. -/
def sampleSim : Sim := { Dataref.holding [] [] with findDataRef := fun _ => 1 }

/-- It is a float. -/
def sampleKinds : DatarefKinds := ⟨fun _ t => t == .float, fun _ => true, (· != ·)⟩

/-- Two objects of the float, one of them for an int: what is written through the first is
read with its six places, and what is written through the second is accepted and lost. -/
theorem objects_refine_sample :
    ∃ w : Objects, Run (Registers.Step sampleKinds) (Objects.registers ⟨sampleSim, []⟩)
      [.link (lit "a") .float, .link (lit "a") .int, .setValue 0 (lit "0.1 m") true true,
        .getValue 0 (lit "0.100000"), .setValue 1 (lit "5") true true, .getValue 1 (lit "0")]
      w.registers := by
  have hfloat : Dataref.Scalar .float := Or.inr (Or.inl rfl)
  have hint : Dataref.Scalar .int := Or.inl rfl
  have htyped : sampleSim.Typed sampleKinds.types := ⟨fun _ _ => rfl,
    fun _ hnot => absurd hnot (by simp [sampleKinds]), fun _ _ => rfl⟩
  have hnone : Run (Objects.Step Dataref.arrayJson sampleKinds (typedSet sampleKinds))
      ⟨sampleSim, []⟩ [] ⟨sampleSim, []⟩ := .nil _
  have hlinked := (hnone.snoc (.link _ (lit "a") hfloat)).snoc (.link _ (lit "a") hint)
  have hwritten := hlinked.snoc (i := .setValue 0 (lit "0.1 m") true true)
    (.setValue _ rfl (by decide))
  have hread := hwritten.snoc (i := .getValue 0 (lit "0.100000"))
    (.getValue _ rfl (by decide))
  have hlost := hread.snoc (i := .setValue 1 (lit "5") true true)
    (.setValue _ rfl (by decide))
  have hzero := hlost.snoc (i := .getValue 1 (lit "0")) (.getValue _ rfl (by decide))
  have hapart : ∀ q r, sampleKinds.apart q r = true → q ≠ r := fun q r h => by
    simpa [sampleKinds] using h
  exact ⟨_, (objects_refine Dataref.arrayJson (typedSet_writes hapart) htyped hzero).1⟩

end XplaneServer.Datas
