/-
  Datas/Arrays.lean --- arrays through `GetValue` and `SetValue`.

  The methods walk their buffers with a pointer that is scaled twice.  Reading
  always ends outside the buffer (`arrayText_overread`), and writing stays inside
  it for at most one element, which decides when `SetValue` writes what it was
  given (`setValue_writesPrefix_iff`) and when it refuses what it should
  (`refusesBadInput_iff`).
-/
import Mathlib.Tactic.Choose
import XplaneServer.Datas.SetValue

set_option autoImplicit false

namespace XplaneServer.Datas

open Foundation Json

namespace Dataref

/-! ## Reading an array -/

/-- The types of array datarefs. -/
def IsArray (t : XPLMDataTypeID) : Prop := t = .intArray ∨ t = .floatArray

/-- The texts of the elements that the simulator holds. -/
def elementTexts (S : Sim) (d : Dataref) : List Bytes :=
  match d.dataType with
  | .intArray => (S.getDatavi d.dataref).map fun i => toStringInt i.toInt
  | .floatArray => (S.getDatavf d.dataref).map toStringFloat
  | _ => []

/-- `GetValue` stays inside its buffer, and returns the elements in brackets,
joined by commas. -/
def EncodesArray (S : Sim) (d : Dataref) : Prop :=
  (d.getValue S).2 =
    .ok (lit "[" ++ (lit ",").intercalate (d.elementTexts S) ++ lit "]")

section Text

variable {α : Type} {toText : α → Bytes} {arrayVal : List α}

/-- The loop over the elements can only fail by a read outside the buffer. -/
theorem readLoop_error (indices : List Nat) (output : Bytes) {u : Ub}
    (h : indices.foldlM
      (fun output i => do
        return output ++ toText (← readElement arrayVal (i * 4)) ++ lit ",")
      output = .error u) : u = .overread := by
  induction indices generalizing output with
  | nil => cases h
  | cons i indices ih =>
      rw [List.foldlM_cons] at h
      unfold readElement at h
      cases hread : arrayVal[i * 4]? with
      | none =>
          simp only [hread, except_error_bind] at h
          exact (Except.error.inj h).symm
      | some x =>
          simp only [hread, except_ok_bind, except_pure] at h
          exact ih _ h

/-- **The last read is outside the buffer**, for every length. -/
theorem arrayText_overread : arrayText toText arrayVal = .error .overread := by
  unfold arrayText
  rcases hloop : (List.range (arrayVal.length - 1)).foldlM
    (fun output i => do
      return output ++ toText (← readElement arrayVal (i * 4)) ++ lit ",")
    (lit "[") with u | output
  · simp only [hloop, except_error_bind, readLoop_error _ _ hloop]
  · have hlast : readElement arrayVal (arrayVal.length * 4) = .error .overread := by
      have hnone : arrayVal[arrayVal.length * 4]? = none :=
        List.getElem?_eq_none (by omega)
      simp only [readElement, hnone]
    simp only [hloop, except_ok_bind, hlast, except_error_bind]

end Text

/-- Reading a usable array dataref is undefined. -/
theorem getValue_array (S : Sim) {d : Dataref} (hvalid : d.isValid = true)
    (href : d.dataref ≠ NULL) (harray : IsArray d.dataType) :
    (d.getValue S).2 = .error .overread := by
  unfold getValue
  rcases harray with htype | htype
  · simp [hvalid, href, htype, arrayText_overread]
  · simp [hvalid, href, htype, arrayText_overread]

/-- **No array is encoded faithfully.** -/
theorem not_encodesArray (S : Sim) {d : Dataref} (hvalid : d.isValid = true)
    (href : d.dataref ≠ NULL) (harray : IsArray d.dataType) : ¬ EncodesArray S d := by
  unfold EncodesArray
  rw [getValue_array S hvalid href harray]
  exact nofun

/-- A simulator whose array dataref 1 holds some ints and floats. -/
def holding (ints : List Int32) (floats : List UInt32) : Sim :=
  { Sim.empty with
    canWriteDataRef := fun _ => 1
    getDatavi := fun _ => ints
    getDatavf := fun _ => floats }

/-- A valid object of that dataref. -/
def arrayObject (t : XPLMDataTypeID) : Dataref := ⟨true, true, lit "one", t, 1⟩

/-- The empty array. -/
theorem not_encodesArray_empty : ¬ EncodesArray (holding [] []) (arrayObject .intArray) :=
  not_encodesArray _ rfl (by decide) (Or.inl rfl)

/-- The array `[7]` is not read as `[7]`. -/
theorem not_encodesArray_sample : ¬ EncodesArray (holding [7] []) (arrayObject .intArray) := by
  intro h
  have hread : ((arrayObject .intArray).getValue (holding [7] [])).2 = .error .overread := rfl
  rw [EncodesArray, hread] at h
  cases h

/-! ## Writing an array -/

/-- A valid object of a dataref that can be written: the flag says so, and so
does the simulator. -/
structure Writable (S : Sim) (d : Dataref) : Prop where
  isValid : d.isValid = true
  dataref : d.dataref ≠ NULL
  flag : d.isReadOnly = true
  answer : S.canWriteDataRef d.dataref ≠ 0

/-- A recheck of a writable object finds what it has. -/
theorem Writable.recheck {S : Sim} {d : Dataref} (h : Writable S d) (forceReadOnly : Bool) :
    (d.recheck S forceReadOnly).2 = d := by
  obtain ⟨flag, isValid, link, dataType, dataref⟩ := d
  obtain ⟨-, -, hflag, hanswer⟩ := h
  simp only at hflag hanswer
  rw [recheck_eq]
  cases forceReadOnly <;> simp [hflag, hanswer]

/-- **A writable object writes by the branch of its type.** -/
theorem Writable.setValue {S : Sim} {d : Dataref} (h : Writable S d) (J : JsonCpp)
    (value : Bytes) (forceReadOnly : Bool) (htype : d.dataType ≠ .unknown) :
    d.setValue J S value forceReadOnly =
      ⟨(d.recheck S forceReadOnly).1 ++ (d.setTyped J S value).1,
        (d.setTyped J S value).2, d⟩ := by
  have hrecheck := h.recheck forceReadOnly
  rcases d.setValue_cases J S value forceReadOnly with
    ⟨hnot, -⟩ | ⟨-, hfalse, -⟩ | ⟨-, -, hout⟩
  · exact absurd ⟨h.isValid, h.dataref, htype⟩ hnot
  · rw [hrecheck, h.flag] at hfalse
    cases hfalse
  · rw [hout, hrecheck]

section SetArray

variable {α : Type} {J : JsonCpp} {S : Sim} {asElement : Value → Except Exn α}
  {set : XPLMDataRef → List α → XPLMSet} {d : Dataref} {value : Bytes}

/-- An array branch without its tests. -/
theorem setArray_eq {parsed : Bool} {jParser : Value}
    (hparse : J.parse value = .ok (parsed, jParser)) :
    setArray J S asElement set d value =
      match fillElements asElement jParser
        (min (S.getDatavi d.dataref).length jParser.size) >>= readElements with
      | .error fault => ([.get ⟨.datavi, d.dataref⟩], .error fault)
      | .ok values =>
          ([.get ⟨.datavi, d.dataref⟩, .set (set d.dataref values)], .ok true) := by
  have hsize : (if (S.getDatavi d.dataref).length > jParser.size then jParser.size
      else (S.getDatavi d.dataref).length) = min (S.getDatavi d.dataref).length jParser.size := by
    split <;> omega
  unfold setArray parseJSON
  simp only [hparse, hsize]
  rfl

/-- The elements an array branch reads from an array. -/
theorem element_array {els : List Value} {i : Nat} (hi : i < els.length) :
    element asElement (.array els) i = asElement els[i] := by
  simp [element, Value.index, hi]

/-- What an array branch does with elements that convert: it hands them to the
setter, as long as there is at most one. -/
theorem setArray_converted (S : Sim) (set : XPLMDataRef → List α → XPLMSet) (d : Dataref)
    {els : List Value} {xs : List α} (hparse : J.parse value = .ok (true, .array els))
    (hxs : els.map asElement = xs.map .ok) :
    (min (S.getDatavi d.dataref).length xs.length ≤ 1 →
      setArray J S asElement set d value =
        ([.get ⟨.datavi, d.dataref⟩,
          .set (set d.dataref (xs.take (min (S.getDatavi d.dataref).length xs.length)))],
          .ok true)) ∧
      ((setArray J S asElement set d value).2 = .ok true →
        min (S.getDatavi d.dataref).length xs.length ≤ 1) := by
  have hlength : els.length = xs.length := by
    simpa using congrArg List.length hxs
  have hsize : Value.size (.array els) = xs.length := hlength
  rw [setArray_eq hparse, hsize]
  constructor
  · intro hone
    have hfill : fillElements asElement (.array els)
        (min (S.getDatavi d.dataref).length xs.length) >>= readElements =
          .ok (xs.take (min (S.getDatavi d.dataref).length xs.length)) := by
      refine fillElements_readElements_iff.mpr ⟨hone, ?_, fun i hi => ?_⟩
      · rw [List.length_take]
        omega
      · have hi' : i < xs.length := by omega
        refine ⟨xs[i], ?_, ?_⟩
        · have hget := congrArg (·[i]?) hxs
          rw [element_array (by omega)]
          simpa [hi', show i < els.length by omega] using hget
        · rw [List.getElem?_take_of_lt hi, List.getElem?_eq_getElem hi']
    rw [hfill]
  · intro hok
    cases hfill : fillElements asElement (.array els)
        (min (S.getDatavi d.dataref).length xs.length) >>= readElements with
    | error fault => simp [hfill] at hok
    | ok values => exact (fillElements_readElements_iff.mp hfill).1

end SetArray

/-- The elements after a write: the values where there are both, and the old
elements elsewhere. -/
theorem getElem?_overwrite {α : Type} (old values : List α) (i : Nat) :
    (overwrite old values)[i]? =
      if i < min old.length values.length then values[i]? else old[i]? := by
  unfold overwrite
  rw [List.getElem?_append, List.length_take]
  split
  · rename_i hi
    rw [List.getElem?_take_of_lt (by omega)]
  · rename_i hi
    rw [List.getElem?_drop]
    rcases Nat.le_total old.length values.length with hlong | hshort
    · rw [List.getElem?_eq_none (by omega), List.getElem?_eq_none (by omega)]
    · congr 1
      omega

/-- Writing only the first values does the same as writing them all exactly when
the others are there already. -/
theorem overwrite_take_iff {α : Type} {old xs : List α} {j : Nat} (hj : j ≤ xs.length) :
    (∀ i, (overwrite old (xs.take j))[i]? =
        if i < min old.length xs.length then xs[i]? else old[i]?) ↔
      ∀ i, j ≤ i → i < min old.length xs.length → old[i]? = xs[i]? := by
  refine forall_congr' fun i => ?_
  rw [getElem?_overwrite, List.length_take, Nat.min_eq_left hj]
  rcases Nat.lt_or_ge i j with hi | hi
  · -- both wrote the value, or neither did
    rw [List.getElem?_take_of_lt hi]
    refine iff_of_true ?_ fun hlow => absurd hi (Nat.not_lt.mpr hlow)
    rcases Nat.lt_or_ge i old.length with hold | hold
    · rw [if_pos (by omega), if_pos (by omega)]
    · rw [if_neg (by omega), if_neg (by omega)]
  · rw [if_neg (by omega)]
    by_cases hboth : i < min old.length xs.length
    · rw [if_pos hboth]
      simp [hboth, hi]
    · rw [if_neg hboth]
      simp [hboth]

/-- The simulator after some calls. -/
def after (S : Sim) (calls : List XPLMCall) : Sim :=
  calls.foldl
    (fun S call =>
      match call with
      | .set s => S.set s
      | _ => S)
    S

theorem after_append (S : Sim) (calls calls' : List XPLMCall) :
    after S (calls ++ calls') = after (after S calls) calls' :=
  List.foldl_append

/-- What a writable object leaves is what the branch of its type does. -/
theorem Writable.after_setValue {S : Sim} {d : Dataref} (h : Writable S d) (J : JsonCpp)
    (value : Bytes) (forceReadOnly : Bool) (htype : d.dataType ≠ .unknown) :
    after S (d.setValue J S value forceReadOnly).calls = after S (d.setTyped J S value).1 := by
  have hasked : after S (d.recheck S forceReadOnly).1 = S := by
    cases forceReadOnly <;> rfl
  rw [h.setValue J value forceReadOnly htype, after_append, hasked]

/-- `SetValue` returns true, and leaves an array whose first elements are the
given ones, as far as both reach, and whose other elements are the old ones. -/
def WritesPrefix {α : Type} (stored : Sim → XPLMDataRef → List α) (J : JsonCpp) (S : Sim)
    (d : Dataref) (value : Bytes) (forceReadOnly : Bool) (xs : List α) : Prop :=
  (d.setValue J S value forceReadOnly).result = .ok true ∧
    ∀ i, (stored (after S (d.setValue J S value forceReadOnly).calls) d.dataref)[i]? =
      if i < min (stored S d.dataref).length xs.length then xs[i]?
      else (stored S d.dataref)[i]?

/-- **Writing an array, exactly**, for either type: the size that was reported
allows at most one element, and what is left out would change nothing. -/
theorem writesPrefix_iff {α : Type} {stored : Sim → XPLMDataRef → List α} {J : JsonCpp} {S : Sim}
    {asElement : Value → Except Exn α} {set : XPLMDataRef → List α → XPLMSet} {d : Dataref}
    {value : Bytes} {els : List Value} {xs : List α} (hd : Writable S d) (forceReadOnly : Bool)
    (htype : d.dataType ≠ .unknown)
    (hbranch : d.setTyped J S value = setArray J S asElement set d value)
    (hset : ∀ ys, stored (S.set (set d.dataref ys)) d.dataref =
      overwrite (stored S d.dataref) ys)
    (hparse : J.parse value = .ok (true, .array els)) (hxs : els.map asElement = xs.map .ok) :
    WritesPrefix stored J S d value forceReadOnly xs ↔
      min (S.getDatavi d.dataref).length xs.length ≤ 1 ∧
        ∀ i, min (S.getDatavi d.dataref).length xs.length ≤ i →
          i < min (stored S d.dataref).length xs.length →
          (stored S d.dataref)[i]? = xs[i]? := by
  obtain ⟨hone, hback⟩ :=
    setArray_converted S set d hparse hxs
  unfold WritesPrefix
  rw [hd.after_setValue J value forceReadOnly htype, hd.setValue J value forceReadOnly htype,
    hbranch]
  by_cases hmany : min (S.getDatavi d.dataref).length xs.length ≤ 1
  · have hwritten : stored (after S (setArray J S asElement set d value).1) d.dataref =
        overwrite (stored S d.dataref)
          (xs.take (min (S.getDatavi d.dataref).length xs.length)) := by
      rw [hone hmany]
      exact hset _
    rw [hwritten, hone hmany, overwrite_take_iff (Nat.min_le_right _ _)]
    simp [hmany]
  · exact iff_of_false (fun h => hmany (hback h.1)) fun h => hmany h.1

/-- **What `SetValue` writes of an array.**  With as many elements as
`XPLMGetDatavi` reports, which is the size of an int array, it writes the given
prefix for at most one element; of a float array it leaves out the elements
beyond that size. -/
theorem setValue_writesPrefix_iff {J : JsonCpp} {S : Sim} {d : Dataref} (hd : Writable S d)
    {value : Bytes} (forceReadOnly : Bool) {els : List Value}
    (hparse : J.parse value = .ok (true, .array els)) :
    (d.dataType = .intArray → ∀ xs : List Int32, els.map Value.asInt = xs.map .ok →
      (WritesPrefix Sim.getDatavi J S d value forceReadOnly xs ↔
        min (S.getDatavi d.dataref).length xs.length ≤ 1)) ∧
      (d.dataType = .floatArray → ∀ xs : List UInt32, els.map Value.asFloat = xs.map .ok →
        (WritesPrefix Sim.getDatavf J S d value forceReadOnly xs ↔
          min (S.getDatavi d.dataref).length xs.length ≤ 1 ∧
            ∀ i, min (S.getDatavi d.dataref).length xs.length ≤ i →
              i < min (S.getDatavf d.dataref).length xs.length →
              (S.getDatavf d.dataref)[i]? = xs[i]?)) := by
  refine ⟨fun htype xs hxs => ?_, fun htype xs hxs => ?_⟩
  · have hbranch : d.setTyped J S value = setArray J S Value.asInt .datavi d value := by
      simp only [setTyped, htype]
    have hset : ∀ ys, (S.set (.datavi d.dataref ys)).getDatavi d.dataref =
        overwrite (S.getDatavi d.dataref) ys := by
      intro ys
      simp [Sim.set, XPLMSet.dataref, hd.answer]
    rw [writesPrefix_iff hd forceReadOnly (by simp [htype]) hbranch hset hparse hxs]
    exact and_iff_left fun i hlow hhigh => by omega
  · have hbranch : d.setTyped J S value = setArray J S Value.asFloat .datavf d value := by
      simp only [setTyped, htype]
    have hset : ∀ ys, (S.set (.datavf d.dataref ys)).getDatavf d.dataref =
        overwrite (S.getDatavf d.dataref) ys := by
      intro ys
      simp [Sim.set, XPLMSet.dataref, hd.answer]
    exact writesPrefix_iff hd forceReadOnly (by simp [htype]) hbranch hset hparse hxs

/-- jsoncpp on two arrays, and on one that is cut off, which fails and leaves the
element read so far. -/
def arrayJson : JsonCpp :=
  .ofTable
    [(lit "[1,2]", true, .array [.int 1, .int 2]), (lit "[3]", true, .array [.int 3]),
      (lit "[5", false, .array [.int 5])]

/-- An int array of one element, which is written from a text of two, and a float
array that holds what it is given. -/
theorem setValue_writesPrefix_iff_sample :
    (WritesPrefix Sim.getDatavi arrayJson (holding [7] []) (arrayObject .intArray) (lit "[1,2]")
        false [1, 2] ↔
      min ((holding [7] []).getDatavi 1).length [1, 2].length ≤ 1) ∧
    (WritesPrefix Sim.getDatavf arrayJson (holding [] [0x40400000]) (arrayObject .floatArray)
        (lit "[3]") false [0x40400000] ↔
      min ((holding [] [0x40400000]).getDatavi 1).length [0x40400000].length ≤ 1 ∧
        ∀ i, min ((holding [] [0x40400000]).getDatavi 1).length [0x40400000].length ≤ i →
          i < min ((holding [] [0x40400000]).getDatavf 1).length [0x40400000].length →
          ((holding [] [0x40400000]).getDatavf 1)[i]? = [0x40400000][i]?) := by
  have hints : Writable (holding [7] []) (arrayObject .intArray) :=
    ⟨rfl, by decide, rfl, by decide⟩
  have hfloats : Writable (holding [] [0x40400000]) (arrayObject .floatArray) :=
    ⟨rfl, by decide, rfl, by decide⟩
  constructor
  · exact (setValue_writesPrefix_iff hints false rfl).1 rfl [1, 2] rfl
  · exact (setValue_writesPrefix_iff hfloats false rfl).2 rfl [0x40400000] rfl

/-- Two ints overrun the buffer, and a float is not written. -/
theorem not_writesPrefix_samples :
    ¬ WritesPrefix Sim.getDatavi arrayJson (holding [7, 8] []) (arrayObject .intArray)
        (lit "[1,2]") false [1, 2] ∧
      ¬ WritesPrefix Sim.getDatavf arrayJson (holding [] [0]) (arrayObject .floatArray)
        (lit "[3]") false [0x40400000] := by
  constructor
  · rintro ⟨hresult, -⟩
    have hoverrun : ((arrayObject .intArray).setValue arrayJson (holding [7, 8] []) (lit "[1,2]")
        false).result = .error .buffer := rfl
    rw [hoverrun] at hresult
    cases hresult
  · rintro ⟨-, hwritten⟩
    have hkept : (after (holding [] [0]) ((arrayObject .floatArray).setValue arrayJson
        (holding [] [0]) (lit "[3]") false).calls).getDatavf 1 = [0] := rfl
    have hfirst := hwritten 0
    rw [show (arrayObject .floatArray).dataref = 1 from rfl, hkept] at hfirst
    revert hfirst
    decide

/-! ## Refusing bad input -/

/-- An element that converts. -/
def Convertible {α : Type} (asElement : Value → Except Exn α) (v : Value) : Prop :=
  ∃ x, asElement v = .ok x

/-- A complete JSON array whose elements convert, as far as an array of this size
reaches. -/
def IsArrayText {α : Type} (J : JsonCpp) (asElement : Value → Except Exn α) (size : Nat)
    (value : Bytes) : Prop :=
  ∃ els, J.parse value = .ok (true, .array els) ∧ ∀ v ∈ els.take size, Convertible asElement v

/-- The text is a value of the type of the object. -/
def IsValue (J : JsonCpp) (S : Sim) (d : Dataref) (value : Bytes) : Prop :=
  match d.dataType with
  | .int => ∃ x, stoi value = .ok x
  | .float => ∃ x, stof value = .ok x
  | .double => ∃ x, stod value = .ok x
  | .intArray => IsArrayText J Value.asInt (S.getDatavi d.dataref).length value
  | .floatArray => IsArrayText J Value.asFloat (S.getDatavf d.dataref).length value
  | .data => False
  | .unknown => False

/-- `SetValue` returns, and refuses what is not a value of the type without a
write. -/
def RefusesBadInput (J : JsonCpp) (S : Sim) (d : Dataref) (value : Bytes)
    (forceReadOnly : Bool) : Prop :=
  ∃ b, (d.setValue J S value forceReadOnly).result = .ok b ∧
    (¬ IsValue J S d value → b = false ∧ ∀ s, .set s ∉ (d.setValue J S value forceReadOnly).calls)

/-- A complete JSON array whose elements convert, as far as its own size and as
far as the reported size reach, with at most one of the latter. -/
def AcceptedArray {α : Type} (J : JsonCpp) (asElement : Value → Except Exn α)
    (size reported : Nat) (value : Bytes) : Prop :=
  ∃ els, J.parse value = .ok (true, .array els) ∧
    (∀ v ∈ els.take size, Convertible asElement v) ∧
    (∀ v ∈ els.take reported, Convertible asElement v) ∧ min reported els.length ≤ 1

/-- Where `SetValue` treats a text as it should. -/
def Tolerated (J : JsonCpp) (S : Sim) (d : Dataref) (value : Bytes) : Prop :=
  match d.dataType with
  | .intArray =>
      AcceptedArray J Value.asInt (S.getDatavi d.dataref).length
        (S.getDatavi d.dataref).length value
  | .floatArray =>
      AcceptedArray J Value.asFloat (S.getDatavf d.dataref).length
        (S.getDatavi d.dataref).length value
  | _ => True

section Refusal

variable {α : Type} {J : JsonCpp} {S : Sim} {asElement : Value → Except Exn α}
  {set : XPLMDataRef → List α → XPLMSet} {d : Dataref} {value : Bytes}

/-- The values of a loop that can be filled exist when its elements convert. -/
theorem fillElements_isOk_iff {jParser : Value} {maxSize : Nat} :
    (∃ xs, fillElements asElement jParser maxSize >>= readElements = .ok xs) ↔
      maxSize ≤ 1 ∧ ∀ i < maxSize, ∃ x, element asElement jParser i = .ok x := by
  constructor
  · rintro ⟨xs, hfill⟩
    obtain ⟨hone, -, helements⟩ := fillElements_readElements_iff.mp hfill
    refine ⟨hone, fun i hi => ?_⟩
    obtain ⟨x, hx, -⟩ := helements i hi
    exact ⟨x, hx⟩
  · rintro ⟨hone, helements⟩
    choose x hx using helements
    refine ⟨List.ofFn fun i : Fin maxSize => x i i.isLt, ?_⟩
    apply fillElements_readElements_iff.mpr
    exact ⟨hone, List.length_ofFn, fun i hi => ⟨x i hi, hx i hi, by simp [hi]⟩⟩

/-- An array branch never returns false: it throws, overruns its buffer, or
writes. -/
theorem setArray_ok_iff {parsed : Bool} {jParser : Value} {b : Bool}
    (hparse : J.parse value = .ok (parsed, jParser)) :
    (setArray J S asElement set d value).2 = .ok b ↔
      b = true ∧ min (S.getDatavi d.dataref).length jParser.size ≤ 1 ∧
        ∀ i < min (S.getDatavi d.dataref).length jParser.size,
          ∃ x, element asElement jParser i = .ok x := by
  rw [setArray_eq hparse, ← fillElements_isOk_iff]
  cases fillElements asElement jParser
    (min (S.getDatavi d.dataref).length jParser.size) >>= readElements with
  | error fault => simp
  | ok values => simp [eq_comm]

/-- The elements of an array that the loop reads. -/
theorem elements_array_iff {els : List Value} {n : Nat} :
    (∀ i < min n els.length, ∃ x, element asElement (.array els) i = .ok x) ↔
      ∀ v ∈ els.take n, Convertible asElement v := by
  constructor
  · intro h v hv
    obtain ⟨i, hi, rfl⟩ := List.mem_take_iff_getElem.mp hv
    obtain ⟨x, hx⟩ := h i hi
    rw [element_array (by omega)] at hx
    exact ⟨x, hx⟩
  · intro h i hi
    rw [element_array (by omega)]
    exact h _ (List.mem_take_iff_getElem.mpr ⟨i, hi, rfl⟩)

/-- **The array branches, exactly**: a refusal would have to return false. -/
theorem setArray_refuses_iff {size : Nat} :
    (∃ b, (setArray J S asElement set d value).2 = .ok b ∧
      (¬ IsArrayText J asElement size value →
        b = false ∧ ∀ s, .set s ∉ (setArray J S asElement set d value).1)) ↔
      AcceptedArray J asElement size (S.getDatavi d.dataref).length value := by
  constructor
  · rintro ⟨b, hb, hrefuses⟩
    cases hparse : J.parse value with
    | error e => simp [setArray, parseJSON, hparse] at hb
    | ok result =>
        obtain ⟨parsed, jParser⟩ := result
        obtain ⟨rfl, hone, helements⟩ := (setArray_ok_iff hparse).mp hb
        have htext : IsArrayText J asElement size value := by
          by_contra hnot
          exact absurd (hrefuses hnot).1 (by simp)
        obtain ⟨els, harray, hconvert⟩ := htext
        rw [hparse] at harray
        cases harray
        exact ⟨els, hparse, hconvert, elements_array_iff.mp helements, hone⟩
  · rintro ⟨els, hparse, hconvert, helements, hone⟩
    refine ⟨true, (setArray_ok_iff hparse).mpr ⟨rfl, hone, elements_array_iff.mpr helements⟩, ?_⟩
    exact fun hnot => absurd ⟨els, hparse, hconvert⟩ hnot

/-- The scalar branches return, and refuse what does not convert. -/
theorem setScalar_refuses {β : Type} (convert : Bytes → Except ConversionError β)
    (write : β → XPLMSet) :
    ∃ b, (setScalar convert write value).2 = .ok b ∧
      ((¬ ∃ x, convert value = .ok x) →
        b = false ∧ ∀ s, .set s ∉ (setScalar convert write value).1) := by
  unfold setScalar
  cases convert value with
  | error e => exact ⟨false, rfl, fun _ => ⟨rfl, by simp⟩⟩
  | ok val => exact ⟨true, rfl, fun hnot => absurd ⟨val, rfl⟩ hnot⟩

end Refusal

/-- **Refusing bad input, exactly.**  A scalar branch always does; an array branch
only where there is nothing to refuse and at most one element to write. -/
theorem refusesBadInput_iff (J : JsonCpp) {S : Sim} {d : Dataref} (hd : Writable S d)
    (htype : Scalar d.dataType ∨ IsArray d.dataType) (value : Bytes) (forceReadOnly : Bool) :
    RefusesBadInput J S d value forceReadOnly ↔ Tolerated J S d value := by
  have hknown : d.dataType ≠ .unknown := by
    rcases htype with (htype | htype | htype) | (htype | htype) <;> simp [htype]
  have hasked := d.not_set_recheck S forceReadOnly
  have hbranch : RefusesBadInput J S d value forceReadOnly ↔
      ∃ b, (d.setTyped J S value).2 = .ok b ∧
        (¬ IsValue J S d value → b = false ∧ ∀ s, .set s ∉ (d.setTyped J S value).1) := by
    unfold RefusesBadInput
    rw [hd.setValue J value forceReadOnly hknown]
    simp [hasked]
  rw [hbranch]
  rcases htype with (htype | htype | htype) | (htype | htype)
  · simp only [setTyped, IsValue, Tolerated, htype, iff_true]
    exact setScalar_refuses stoi _
  · simp only [setTyped, IsValue, Tolerated, htype, iff_true]
    exact setScalar_refuses stof _
  · simp only [setTyped, IsValue, Tolerated, htype, iff_true]
    exact setScalar_refuses stod _
  · simp only [setTyped, IsValue, Tolerated, htype]
    exact setArray_refuses_iff
  · simp only [setTyped, IsValue, Tolerated, htype]
    exact setArray_refuses_iff

/-- A text for an int, which is refused. -/
theorem refusesBadInput_iff_sample :
    RefusesBadInput arrayJson (holding [] []) (arrayObject .int) (lit "seven") true ↔
      Tolerated arrayJson (holding [] []) (arrayObject .int) (lit "seven") :=
  refusesBadInput_iff arrayJson ⟨rfl, by decide, rfl, by decide⟩ (Or.inl (Or.inl rfl)) _ _

/-- A cut-off array is written as far as it was read. -/
theorem not_refusesBadInput_sample :
    ¬ RefusesBadInput arrayJson (holding [7] []) (arrayObject .intArray) (lit "[5") false := by
  rintro ⟨b, hb, hrefuses⟩
  have hwritten : ((arrayObject .intArray).setValue arrayJson (holding [7] []) (lit "[5")
      false).result = .ok true := rfl
  rw [hwritten] at hb
  have hnot : ¬ IsValue arrayJson (holding [7] []) (arrayObject .intArray) (lit "[5") := by
    rintro ⟨els, hparse, -⟩
    have hfailed : arrayJson.parse (lit "[5") = .ok (false, .array [.int 5]) := rfl
    rw [hfailed] at hparse
    cases hparse
  rw [(hrefuses hnot).1] at hb
  cases hb

end Dataref

end XplaneServer.Datas
