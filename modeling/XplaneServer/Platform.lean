/-
  Platform.lean --- what the plugin is given from outside: the ways a C++
  function can fail to return, sockets, and the simulator.

  The simulator is asked through the functions of `XPLMDataAccess.h`.  Nothing is
  assumed of its answers: `Sim` is a record of arbitrary functions, and a run of
  the plugin is given a new one whenever the simulator may have changed.  What a write
  does to it is the simulator's own too: `XPLMWrites` is what the header says of it.
-/
import XplaneServer.Foundation.Text

set_option autoImplicit false

namespace XplaneServer

open Foundation

/-! ## Leaving a function without returning -/

/-- The exceptions the modelled functions can throw. -/
inductive Exn where
  /-- `Json::LogicError`: an operation on a value of the wrong kind -/
  | logicError
  /-- `Json::RuntimeError`: a text nested beyond the reader's stack limit -/
  | runtimeError
  /-- `std::out_of_range` -/
  | outOfRange
  deriving DecidableEq, Repr

/-- The undefined behaviours the modelled functions can reach. -/
inductive Ub where
  /-- an iterator dereferenced or advanced at or past the end, or that is invalid -/
  | iterator
  /-- a read outside an allocated buffer or object -/
  | overread
  deriving DecidableEq, Repr

/-- Why a function did not return. -/
inductive Halt where
  | exn (e : Exn)
  | ub (u : Ub)
  deriving DecidableEq, Repr

/-! ## WinSock -/

/-- A socket handle.  `INVALID_SOCKET` is `none` where a call returns one. -/
abbrev SOCKET := Nat

/-- What `send`, `recv` and `ioctlsocket` return when they fail. -/
def SOCKET_ERROR : Int := -1

/-- `WSAGetLastError()` of a non-blocking `recv` without data. -/
def WSAEWOULDBLOCK : Int := 10035

/-! ## X-Plane -/

/-- `XPLMDataTypeID`, the enumerators of `XPLMDataAccess.h`. -/
inductive XPLMDataTypeID where
  | unknown
  | int
  | float
  | double
  | floatArray
  | intArray
  | data
  deriving DecidableEq, Repr

/-- An opaque handle to data of the simulator. -/
abbrev XPLMDataRef := Nat

/-- The null handle. -/
def NULL : XPLMDataRef := 0

/-- The answers of the simulator, for as long as they do not change.  Floats and
doubles are their bits, and an array dataref is the list of its elements: the
size is what `XPLMGetDatavi` and `XPLMGetDatavf` return for a null buffer. -/
structure Sim where
  /-- `XPLMFindDataRef` -/
  findDataRef : Bytes → XPLMDataRef
  /-- `XPLMCanWriteDataRef` -/
  canWriteDataRef : XPLMDataRef → Int
  /-- `XPLMGetDatai` -/
  getDatai : XPLMDataRef → Int32
  /-- `XPLMGetDataf` -/
  getDataf : XPLMDataRef → UInt32
  /-- `XPLMGetDatad` -/
  getDatad : XPLMDataRef → UInt64
  /-- `XPLMGetDatavi` -/
  getDatavi : XPLMDataRef → List Int32
  /-- `XPLMGetDatavf` -/
  getDatavf : XPLMDataRef → List UInt32

/-- A simulator without data. -/
def Sim.empty : Sim where
  findDataRef _ := NULL
  canWriteDataRef _ := 0
  getDatai _ := 0
  getDataf _ := 0
  getDatad _ := 0
  getDatavi _ := []
  getDatavf _ := []

/-- The functions of the simulator that read a dataref. -/
inductive Getter where
  | datai
  | dataf
  | datad
  | datavi
  | datavf
  deriving DecidableEq, Repr

/-- One call of such a function, with the handle it was given. -/
structure XPLMGet where
  getter : Getter
  dataref : XPLMDataRef
  deriving DecidableEq, Repr

/-- One call of a function that writes a dataref: `XPLMSetDatai` and its
siblings.  Arrays are written from offset 0. -/
inductive XPLMSet where
  | datai (dataref : XPLMDataRef) (value : Int32)
  | dataf (dataref : XPLMDataRef) (value : UInt32)
  | datad (dataref : XPLMDataRef) (value : UInt64)
  | datavi (dataref : XPLMDataRef) (values : List Int32)
  | datavf (dataref : XPLMDataRef) (values : List UInt32)
  deriving DecidableEq, Repr

namespace XPLMSet

/-- The handle a setter was given. -/
def dataref : XPLMSet → XPLMDataRef
  | datai dataref _ => dataref
  | dataf dataref _ => dataref
  | datad dataref _ => dataref
  | datavi dataref _ => dataref
  | datavf dataref _ => dataref

/-- The data type a setter is for. -/
def dataType : XPLMSet → XPLMDataTypeID
  | datai .. => .int
  | dataf .. => .float
  | datad .. => .double
  | datavi .. => .intArray
  | datavf .. => .floatArray

end XPLMSet

/-- A call of the simulator that a `Dataref` makes, with what it answered where
the answer is kept. -/
inductive XPLMCall where
  | findDataRef (name : Bytes) (answer : XPLMDataRef)
  | canWriteDataRef (dataref : XPLMDataRef) (answer : Int)
  | isDataRefGood (dataref : XPLMDataRef)
  | get (call : XPLMGet)
  | set (call : XPLMSet)
  deriving DecidableEq, Repr

/-- An array after values were written from offset 0: it keeps its size. -/
def overwrite {α : Type} (old values : List α) : List α :=
  values.take old.length ++ old.drop values.length

/-- A simulator after a write, in the simplest case: a dataref that can be written acts
so, and its types are variables of their own.  What a write does in general is left to
the simulator, within `XPLMWrites`. -/
def Sim.set (S : Sim) (call : XPLMSet) : Sim :=
  if S.canWriteDataRef call.dataref = 0 then S
  else
    match call with
    | .datai r value => { S with getDatai := fun q => if q = r then value else S.getDatai q }
    | .dataf r value => { S with getDataf := fun q => if q = r then value else S.getDataf q }
    | .datad r value => { S with getDatad := fun q => if q = r then value else S.getDatad q }
    | .datavi r values =>
        { S with
          getDatavi := fun q => if q = r then overwrite (S.getDatavi q) values else S.getDatavi q }
    | .datavf r values =>
        { S with
          getDatavf := fun q => if q = r then overwrite (S.getDatavf q) values else S.getDatavf q }

/-! ### What a write does -/

/-- What is known of datarefs beside their values. -/
structure DatarefKinds where
  /-- `XPLMGetDataRefTypes`: the types of a dataref are a set -/
  types : XPLMDataRef → XPLMDataTypeID → Bool
  /-- It acts writable: the plugin that provides it is enabled, and X-Plane does not write
  over what was written. -/
  acts : XPLMDataRef → Bool
  /-- A write to the first leaves the scalars of the second alone. -/
  apart : XPLMDataRef → XPLMDataRef → Bool

namespace Sim

/-- The scalar that a call wrote is the one that is read. -/
def Holds (S : Sim) : XPLMSet → Prop
  | .datai r value => S.getDatai r = value
  | .dataf r value => S.getDataf r = value
  | .datad r value => S.getDatad r = value
  | .datavi .. => True
  | .datavf .. => True

/-- The scalars of a dataref are the same in two simulators. -/
structure SameScalars (S S' : Sim) (r : XPLMDataRef) : Prop where
  int : S'.getDatai r = S.getDatai r
  float : S'.getDataf r = S.getDataf r
  double : S'.getDatad r = S.getDatad r

/-- A dataref reads as 0 through the getter of a type it does not have. -/
structure Typed (types : XPLMDataRef → XPLMDataTypeID → Bool) (S : Sim) : Prop where
  int : ∀ r, types r .int = false → S.getDatai r = 0
  float : ∀ r, types r .float = false → S.getDataf r = 0
  double : ∀ r, types r .double = false → S.getDatad r = 0

end Sim

/-- What `XPLMDataAccess.h` says of the functions that write a dataref, where `write S`
is the simulator after a call.  Nothing is said of the other types of the dataref that
is written, of datarefs that are not apart from it, and of its value if it does not act
writable. -/
structure XPLMWrites (K : DatarefKinds) (write : Sim → XPLMSet → Sim) : Prop where
  /-- A handle stays the one of its name. -/
  findDataRef : ∀ (S : Sim) (call : XPLMSet), (write S call).findDataRef = S.findDataRef
  /-- To be writable is a mark of the dataref, and not its value. -/
  canWriteDataRef : ∀ (S : Sim) (call : XPLMSet), (write S call).canWriteDataRef = S.canWriteDataRef
  /-- The functions will not write if there is a type mismatch. -/
  mismatch : ∀ (S : Sim) (call : XPLMSet), K.types call.dataref call.dataType = false →
    write S call = S
  /-- They write a new value to a dataref. -/
  kept : ∀ (S : Sim) (call : XPLMSet), S.canWriteDataRef call.dataref ≠ 0 →
    K.types call.dataref call.dataType = true → K.acts call.dataref = true →
      (write S call).Holds call
  /-- What is apart from the dataref that is written keeps its scalars. -/
  others : ∀ (S : Sim) (call : XPLMSet) (r : XPLMDataRef), K.apart call.dataref r = true →
    S.SameScalars (write S call) r
  /-- The functions that read will return 0 if there is a type mismatch. -/
  typed : ∀ (S : Sim) (call : XPLMSet), S.Typed K.types → (write S call).Typed K.types

/-- A write changes what is read of its dataref through its type, and nothing else. -/
theorem Sim.set_same (S : Sim) {call : XPLMSet} {r : XPLMDataRef} {t : XPLMDataTypeID}
    (hother : call.dataref ≠ r ∨ call.dataType ≠ t) :
    (t = .int → (S.set call).getDatai r = S.getDatai r) ∧
      (t = .float → (S.set call).getDataf r = S.getDataf r) ∧
      (t = .double → (S.set call).getDatad r = S.getDatad r) := by
  unfold Sim.set
  split
  · exact ⟨fun _ => rfl, fun _ => rfl, fun _ => rfl⟩
  · refine ⟨?_, ?_, ?_⟩ <;> rintro rfl <;> cases call <;>
      simp only [XPLMSet.dataref, XPLMSet.dataType, ne_eq, not_true_eq_false, or_false] at hother
    all_goals
      first | rfl | exact if_neg fun h => hother h.symm

/-- A simulator in which every dataref has the given types, and the types of one are
variables of their own. -/
def typedSet (K : DatarefKinds) (S : Sim) (call : XPLMSet) : Sim :=
  if K.types call.dataref call.dataType then S.set call else S

/-- It does what the header says. -/
theorem typedSet_writes {K : DatarefKinds} (hapart : ∀ q r, K.apart q r = true → q ≠ r) :
    XPLMWrites K (typedSet K) where
  findDataRef S call := by
    unfold typedSet Sim.set
    split
    · split
      · rfl
      · cases call <;> rfl
    · rfl
  canWriteDataRef S call := by
    unfold typedSet Sim.set
    split
    · split
      · rfl
      · cases call <;> rfl
    · rfl
  mismatch S call h := by
    simp [typedSet, h]
  kept S call hwrite htype _ := by
    rw [typedSet, if_pos htype]
    unfold Sim.set
    rw [if_neg hwrite]
    cases call <;> simp [Sim.Holds]
  others S call r hr := by
    have hother := hapart call.dataref r hr
    unfold typedSet
    split
    · exact ⟨(S.set_same (Or.inl hother)).1 rfl, (S.set_same (Or.inl hother)).2.1 rfl,
        (S.set_same (Or.inl hother)).2.2 rfl⟩
    · exact ⟨rfl, rfl, rfl⟩
  typed S call h := by
    unfold typedSet
    split
    · rename_i hhas
      have hother : ∀ r t, K.types r t = false → call.dataref ≠ r ∨ call.dataType ≠ t := by
        intro r t hnot
        by_contra hsame
        rw [not_or, not_not, not_not] at hsame
        rw [hsame.1, hsame.2, hnot] at hhas
        cases hhas
      exact ⟨fun r hr => ((S.set_same (hother r .int hr)).1 rfl).trans (h.int r hr),
        fun r hr => ((S.set_same (hother r .float hr)).2.1 rfl).trans (h.float r hr),
        fun r hr => ((S.set_same (hother r .double hr)).2.2 rfl).trans (h.double r hr)⟩
    · exact h

end XplaneServer
