/-
  Datas/SetValue.lean --- `Dataref::SetValue` and `Dataref::IsReadOnly`, from
  src/Datas/Dataref.cpp.

  Both work with the flag `_isReadOnly`, which is true for a dataref that can be
  written: `SetValue` refuses when it is false, and may ask the simulator for it
  again; `IsReadOnly` returns it as it is.  The array branches of `SetValue` fill
  a buffer of their own at a scaled index, as the array branches of `GetValue`
  read theirs.
-/
import XplaneServer.Foundation.Exec
import XplaneServer.Datas.Dataref
import XplaneServer.Json.Value

set_option autoImplicit false

namespace XplaneServer.Datas

open Foundation Json

/-- Why `SetValue` did not return. -/
inductive SetFault where
  /-- an exception escaped -/
  | exn (e : Exn)
  /-- a write outside the allocated buffer, or a use of an element of it that was
  never written -/
  | buffer
  deriving DecidableEq, Repr

/-- What a call of `SetValue` did: the calls it made to the simulator, what it
returned, and the object after it. -/
structure SetOutcome where
  calls : List XPLMCall
  result : Except SetFault Bool
  dataref : Dataref

namespace Dataref

/-- `Dataref::ParseJSON` -/
def parseJSON (J : JsonCpp) (input : Bytes) : Except Exn (Bool × Value) := J.parse input

/-! ## The scalar branches -/

/-- Convert the text, and write what it converts to. -/
def setScalar {α : Type} (convert : Bytes → Except ConversionError α) (set : α → XPLMSet)
    (value : Bytes) : List XPLMCall × Except SetFault Bool :=
  match convert value with
  | .ok val => ([.set (set val)], .ok true)
  | .error _ => ([], .ok false)

/-! ## The array branches -/

section Arrays

variable {α : Type}

/-- `jParser[i].asInt()` or `jParser[i].asFloat()`. -/
def element (asElement : Value → Except Exn α) (jParser : Value) (i : Nat) : Except Exn α := do
  asElement (← jParser.index i)

/-- Write an element of a buffer that was allocated with `new`. -/
def writeElement (values : List (Option α)) (index : Nat) (x : α) :
    Except SetFault (List (Option α)) :=
  if index < values.length then .ok (values.set index (some x)) else .error .buffer

/-- The elements of a buffer, which all have to be written. -/
def readElements (values : List (Option α)) : Except SetFault (List α) :=
  match values.mapM id with
  | some xs => .ok xs
  | none => .error .buffer

/-- One iteration of the loop over the elements.  The pointer arithmetic scales
an index that is scaled already: `values + (i * sizeof(int))` is the element
`4 * i`. -/
def fillElement (asElement : Value → Except Exn α) (jParser : Value) (values : List (Option α))
    (i : Nat) : Except SetFault (List (Option α)) := do
  let x ← (element asElement jParser i).mapError SetFault.exn
  writeElement values (i * 4) x

/-- The loop, on a new buffer of `maxSize` elements. -/
def fillElements (asElement : Value → Except Exn α) (jParser : Value) (maxSize : Nat) :
    Except SetFault (List (Option α)) :=
  (List.range maxSize).foldlM (fillElement asElement jParser) (List.replicate maxSize none)

/-- An array branch.  Both ask `XPLMGetDatavi` for the size of the array, and
neither looks at the result of `ParseJSON`. -/
def setArray (J : JsonCpp) (S : Sim) (asElement : Value → Except Exn α)
    (set : XPLMDataRef → List α → XPLMSet) (d : Dataref) (value : Bytes) :
    List XPLMCall × Except SetFault Bool :=
  let arraySize := (S.getDatavi d.dataref).length
  let asked : List XPLMCall := [.get ⟨.datavi, d.dataref⟩]
  match parseJSON J value with
  | .error e => (asked, .error (.exn e))
  | .ok (_, jParser) =>
      let maxSize := if arraySize > jParser.size then jParser.size else arraySize
      match fillElements asElement jParser maxSize >>= readElements with
      | .error fault => (asked, .error fault)
      | .ok values => (asked ++ [.set (set d.dataref values)], .ok true)

end Arrays

/-! ## The methods -/

/-- The `switch` of `SetValue`. -/
def setTyped (J : JsonCpp) (S : Sim) (d : Dataref) (value : Bytes) :
    List XPLMCall × Except SetFault Bool :=
  match d.dataType with
  | .int => setScalar stoi (.datai d.dataref) value
  | .float => setScalar stof (.dataf d.dataref) value
  | .double => setScalar stod (.datad d.dataref) value
  | .intArray => setArray J S Value.asInt .datavi d value
  | .floatArray => setArray J S Value.asFloat .datavf d value
  | .data => ([], .ok false)
  | .unknown => ([], .ok false)

/-- `_isReadOnly = (bool)XPLMCanWriteDataRef(_dataref)`, when it is forced. -/
def recheck (S : Sim) (d : Dataref) (forceReadOnly : Bool) : List XPLMCall × Dataref :=
  if forceReadOnly then
    let answer := S.canWriteDataRef d.dataref
    ([.canWriteDataRef d.dataref answer], { d with isReadOnly := answer ≠ 0 })
  else ([], d)

/-- `Dataref::SetValue` -/
def setValue (J : JsonCpp) (S : Sim) (d : Dataref) (value : Bytes) (forceReadOnly : Bool) :
    SetOutcome :=
  if d.isValid = false ∨ d.dataref = NULL ∨ d.dataType = .unknown then
    { calls := [], result := .ok false, dataref := d }
  else
    let (asked, d) := d.recheck S forceReadOnly
    if d.isReadOnly = false then { calls := asked, result := .ok false, dataref := d }
    else
      let (calls, result) := d.setTyped J S value
      { calls := asked ++ calls, result, dataref := d }

/-- `Dataref::IsReadOnly`: the calls it makes to the simulator, and what it
returns.  The answer of `XPLMIsDataRefGood` is not looked at. -/
def isReadOnlyCall (d : Dataref) (forceRecheck : Bool) : List XPLMCall × Bool :=
  (if forceRecheck then [.isDataRefGood d.dataref] else [], d.isReadOnly)

/-! ## What the loop over the elements can do -/

section Fill

variable {α : Type} {asElement : Value → Except Exn α} {jParser : Value} {maxSize : Nat}

/-- Everything an iteration that went on did. -/
theorem fillElement_eq_ok_iff {values values' : List (Option α)} {i : Nat} :
    fillElement asElement jParser values i = .ok values' ↔
      i * 4 < values.length ∧ ∃ x, element asElement jParser i = .ok x ∧
        values' = values.set (i * 4) (some x) := by
  unfold fillElement
  rw [except_bind_eq_ok]
  simp only [except_mapError_eq_ok, writeElement]
  by_cases hinside : i * 4 < values.length
  · simp [hinside, eq_comm]
  · simp [hinside]

/-- The first iterations wrote inside the buffer. -/
theorem fill_prefix (n : Nat) {values : List (Option α)}
    (h : (List.range n).foldlM (fillElement asElement jParser) (List.replicate maxSize none) =
      .ok values) : values.length = maxSize ∧ ∀ i < n, i * 4 < maxSize := by
  induction n generalizing values with
  | zero =>
      have hvalues : List.replicate maxSize none = values := Except.ok.inj h
      exact ⟨by simp [← hvalues], by simp⟩
  | succ n ih =>
      rw [List.range_succ, List.foldlM_append, except_bind_eq_ok] at h
      obtain ⟨written, hbefore, hlast⟩ := h
      obtain ⟨hlength, hinside⟩ := ih hbefore
      rw [List.foldlM_cons, except_bind_eq_ok] at hlast
      obtain ⟨final, hstep, hfinal⟩ := hlast
      obtain ⟨hn, x, -, rfl⟩ := fillElement_eq_ok_iff.mp hstep
      rw [← Except.ok.inj hfinal, List.length_set]
      refine ⟨hlength, fun i hi => ?_⟩
      rcases Nat.lt_succ_iff_lt_or_eq.mp hi with hearlier | rfl
      · exact hinside i hearlier
      · omega

/-- **The loop stays inside its buffer for at most one element.** -/
theorem fillElements_le_one {values : List (Option α)}
    (h : fillElements asElement jParser maxSize = .ok values) : maxSize ≤ 1 := by
  obtain ⟨-, hinside⟩ := fill_prefix maxSize h
  by_contra hmany
  have hlast := hinside (maxSize - 1) (by omega)
  omega

/-- The values that are handed to the setter, exactly. -/
theorem fillElements_readElements_iff {xs : List α} :
    fillElements asElement jParser maxSize >>= readElements = .ok xs ↔
      maxSize ≤ 1 ∧ xs.length = maxSize ∧
        ∀ i < maxSize, ∃ x, element asElement jParser i = .ok x ∧ xs[i]? = some x := by
  rw [except_bind_eq_ok]
  constructor
  · rintro ⟨values, hfill, hread⟩
    have hle := fillElements_le_one hfill
    refine ⟨hle, ?_⟩
    rcases Nat.le_one_iff_eq_zero_or_eq_one.mp hle with rfl | rfl
    · cases hfill
      cases hread
      exact ⟨rfl, by simp⟩
    · unfold fillElements at hfill
      rw [List.range_one, List.foldlM_cons, except_bind_eq_ok] at hfill
      obtain ⟨written, hstep, hwritten⟩ := hfill
      obtain ⟨-, x, hx, rfl⟩ := fillElement_eq_ok_iff.mp hstep
      cases hwritten
      cases hread
      refine ⟨rfl, fun i hi => ⟨x, ?_, ?_⟩⟩
      · rw [Nat.lt_one_iff.mp hi]
        exact hx
      · rw [Nat.lt_one_iff.mp hi]
        rfl
  · rintro ⟨hle, hlength, helements⟩
    rcases Nat.le_one_iff_eq_zero_or_eq_one.mp hle with rfl | rfl
    · rw [List.length_eq_zero_iff.mp hlength]
      exact ⟨[], rfl, rfl⟩
    · obtain ⟨x, hx, hfirst⟩ := helements 0 (by omega)
      obtain ⟨y, rfl⟩ := List.length_eq_one_iff.mp hlength
      cases hfirst
      refine ⟨[some x], ?_, rfl⟩
      unfold fillElements
      rw [List.range_one, List.foldlM_cons, except_bind_eq_ok]
      exact ⟨_, fillElement_eq_ok_iff.mpr ⟨by simp, x, hx, rfl⟩, rfl⟩

end Fill

/-! ## What a branch of `SetValue` can do -/

/-- A branch only reads and does not return true, or it also makes one call of
the setter of the object's own dataref and type, and returns true. -/
inductive SetBranch (d : Dataref) : List XPLMCall × Except SetFault Bool → Prop
  | refused {reads : List XPLMCall} {result : Except SetFault Bool} :
      (∀ c ∈ reads, ∃ g, c = .get g) → result ≠ .ok true → SetBranch d (reads, result)
  | written {reads : List XPLMCall} {call : XPLMSet} :
      (∀ c ∈ reads, ∃ g, c = .get g) → call.dataref = d.dataref → call.dataType = d.dataType →
        SetBranch d (reads ++ [.set call], .ok true)

section Branches

variable {α : Type} {d : Dataref}

theorem setScalar_branch {convert : Bytes → Except ConversionError α} {set : α → XPLMSet}
    (value : Bytes) (hdataref : ∀ x, (set x).dataref = d.dataref)
    (htype : ∀ x, (set x).dataType = d.dataType) : SetBranch d (setScalar convert set value) := by
  unfold setScalar
  cases convert value with
  | error e => exact .refused (by simp) (by simp)
  | ok val =>
      have hreads : ∀ c ∈ ([] : List XPLMCall), ∃ g, c = .get g := by simp
      exact .written hreads (hdataref val) (htype val)

theorem setArray_branch {J : JsonCpp} {S : Sim} {asElement : Value → Except Exn α}
    {set : XPLMDataRef → List α → XPLMSet} (value : Bytes)
    (hdataref : ∀ xs, (set d.dataref xs).dataref = d.dataref)
    (htype : ∀ xs, (set d.dataref xs).dataType = d.dataType) :
    SetBranch d (setArray J S asElement set d value) := by
  unfold setArray
  cases parseJSON J value with
  | error e => exact .refused (by simp) (by simp)
  | ok parsed =>
      simp only
      split
      · exact .refused (by simp) (by simp)
      · rename_i values _
        exact .written (by simp) (hdataref values) (htype values)

/-- Every branch of the `switch`. -/
theorem setTyped_branch (J : JsonCpp) (S : Sim) (d : Dataref) (value : Bytes) :
    SetBranch d (d.setTyped J S value) := by
  unfold setTyped
  cases htype : d.dataType with
  | unknown => exact .refused (by simp) (by simp)
  | int => exact setScalar_branch value (fun _ => rfl) fun _ => htype.symm
  | float => exact setScalar_branch value (fun _ => rfl) fun _ => htype.symm
  | double => exact setScalar_branch value (fun _ => rfl) fun _ => htype.symm
  | floatArray => exact setArray_branch value (fun _ => rfl) fun _ => htype.symm
  | intArray => exact setArray_branch value (fun _ => rfl) fun _ => htype.symm
  | data => exact .refused (by simp) (by simp)

end Branches

/-! ## The two refusals before the branches -/

/-- The object is valid, with a handle and a type. -/
def Usable (d : Dataref) : Prop :=
  d.isValid = true ∧ d.dataref ≠ NULL ∧ d.dataType ≠ .unknown

/-- A recheck changes the flag only. -/
theorem recheck_eq (S : Sim) (d : Dataref) (forceReadOnly : Bool) :
    (d.recheck S forceReadOnly).2 =
      { d with isReadOnly := if forceReadOnly then S.canWriteDataRef d.dataref ≠ 0
        else d.isReadOnly } := by
  cases forceReadOnly <;> rfl

/-- It writes nothing. -/
theorem not_set_recheck (S : Sim) (d : Dataref) (forceReadOnly : Bool) :
    ∀ s, .set s ∉ (d.recheck S forceReadOnly).1 := by
  cases forceReadOnly <;> simp [recheck]

/-- **Everything `SetValue` does.** -/
theorem setValue_cases (J : JsonCpp) (S : Sim) (d : Dataref) (value : Bytes)
    (forceReadOnly : Bool) :
    (¬ d.Usable ∧ d.setValue J S value forceReadOnly = ⟨[], .ok false, d⟩) ∨
      (d.Usable ∧ (d.recheck S forceReadOnly).2.isReadOnly = false ∧
        d.setValue J S value forceReadOnly =
          ⟨(d.recheck S forceReadOnly).1, .ok false, (d.recheck S forceReadOnly).2⟩) ∨
      (d.Usable ∧ (d.recheck S forceReadOnly).2.isReadOnly = true ∧
        d.setValue J S value forceReadOnly =
          ⟨(d.recheck S forceReadOnly).1 ++
              ((d.recheck S forceReadOnly).2.setTyped J S value).1,
            ((d.recheck S forceReadOnly).2.setTyped J S value).2,
            (d.recheck S forceReadOnly).2⟩) := by
  unfold setValue Usable
  by_cases hguard : d.isValid = false ∨ d.dataref = NULL ∨ d.dataType = .unknown
  · left
    rw [if_pos hguard]
    refine ⟨?_, rfl⟩
    rintro ⟨hvalid, href, htype⟩
    rcases hguard with hinvalid | hnull | hunknown
    · simp [hvalid] at hinvalid
    · exact href hnull
    · exact htype hunknown
  · right
    rw [if_neg hguard]
    rw [not_or, not_or, Bool.not_eq_false] at hguard
    by_cases hflag : (d.recheck S forceReadOnly).2.isReadOnly = false
    · left
      exact ⟨hguard, hflag, if_pos hflag⟩
    · right
      exact ⟨hguard, by simpa using hflag, if_neg hflag⟩

end Dataref

end XplaneServer.Datas
