/-
  Datas/Dataref.lean --- `Dataref`, from src/Datas/Dataref.cpp.

  A `Dataref` is a link into the simulator with a declared data type.  The
  handle is looked up once, on construction, and never again; `GetValue` reads
  through it whatever the simulator holds at the time.
-/
import XplaneServer.Platform

set_option autoImplicit false

namespace XplaneServer.Datas

open Foundation

/-- The data members of `class Dataref`. -/
structure Dataref where
  /-- `_isReadOnly`: the answer of `XPLMCanWriteDataRef`, despite its name -/
  isReadOnly : Bool
  isValid : Bool
  link : Bytes
  dataType : XPLMDataTypeID
  dataref : XPLMDataRef
  deriving DecidableEq, Repr

namespace Dataref

/-- `Dataref()`. -/
def default : Dataref :=
  { isReadOnly := true, isValid := false, link := [], dataType := .unknown, dataref := NULL }

/-- `Dataref(const Dataref& b)`. -/
def copy (b : Dataref) : Dataref :=
  { isReadOnly := b.isReadOnly, isValid := b.isValid, link := b.link, dataType := b.dataType,
    dataref := b.dataref }

/-- `Dataref(std::string link, XPLMDataTypeID dataType)`. -/
def ofLink (S : Sim) (link : Bytes) (dataType : XPLMDataTypeID) : Dataref :=
  if dataType = .unknown ∨ link = [] then
    { isReadOnly := true, isValid := false, link, dataType := .unknown, dataref := NULL }
  else
    let dataref := S.findDataRef (beforeNul link)
    if dataref = NULL then
      { isReadOnly := true, isValid := false, link, dataType := .unknown, dataref }
    else
      { isReadOnly := S.canWriteDataRef dataref ≠ 0, isValid := true, link, dataType, dataref }

/-- The calls this constructor makes to the simulator. -/
def ofLinkCalls (S : Sim) (link : Bytes) (dataType : XPLMDataTypeID) : List XPLMCall :=
  if dataType = .unknown ∨ link = [] then []
  else
    let dataref := S.findDataRef (beforeNul link)
    if dataref = NULL then [.findDataRef (beforeNul link) dataref]
    else
      [.findDataRef (beforeNul link) dataref,
        .canWriteDataRef dataref (S.canWriteDataRef dataref)]

/-- Read an element of an array that was allocated with `new`. -/
def readElement {α : Type} (arrayVal : List α) (index : Nat) : Except Ub α :=
  match arrayVal[index]? with
  | some x => .ok x
  | none => .error .overread

/-- The text of an array dataref.  The pointer arithmetic of the source scales
an index that is scaled already: `arrayVal + (i * sizeof(int))` is the element
`4 * i`, and the last element is read at `4 * arraySize`. -/
def arrayText {α : Type} (toText : α → Bytes) (arrayVal : List α) : Except Ub Bytes := do
  let arraySize := arrayVal.length
  let output ← (List.range (arraySize - 1)).foldlM
    (fun output i => do
      return output ++ toText (← readElement arrayVal (i * 4)) ++ lit ",")
    (lit "[")
  return output ++ toText (← readElement arrayVal (arraySize * 4)) ++ lit "]"

/-- `Dataref::GetValue`: the calls it makes to the simulator, in order, and the
text it returns. -/
def getValue (S : Sim) (d : Dataref) : List XPLMGet × Except Ub Bytes :=
  if d.dataref = NULL ∨ d.isValid = false ∨ d.dataType = .unknown then ([], .ok [])
  else
    match d.dataType with
    | .int => ([⟨.datai, d.dataref⟩], .ok (toStringInt (S.getDatai d.dataref).toInt))
    | .float => ([⟨.dataf, d.dataref⟩], .ok (toStringFloat (S.getDataf d.dataref)))
    | .double => ([⟨.datad, d.dataref⟩], .ok (toStringDouble (S.getDatad d.dataref)))
    | .intArray =>
        ([⟨.datavi, d.dataref⟩, ⟨.datavi, d.dataref⟩],
          arrayText (fun i => toStringInt i.toInt) (S.getDatavi d.dataref))
    | .floatArray =>
        ([⟨.datavf, d.dataref⟩, ⟨.datavf, d.dataref⟩],
          arrayText toStringFloat (S.getDatavf d.dataref))
    | .data => ([], .ok [])
    | .unknown => ([], .ok [])

/-! ## Datarefs that are safe to read -/

/-- The scalar data types. -/
def Scalar (t : XPLMDataTypeID) : Prop := t = .int ∨ t = .float ∨ t = .double

/-- A dataref the constructor resolved: valid, with a handle and a scalar type. -/
def Live (d : Dataref) : Prop :=
  d.isValid = true ∧ d.dataref ≠ NULL ∧ Scalar d.dataType

/-- A dataref the constructor gave up on. -/
def Dead (d : Dataref) : Prop :=
  d.isValid = false ∧ d.dataref = NULL ∧ d.dataType = .unknown

/-- The constructor fails exactly on an empty link and on one the simulator does
not know. -/
theorem ofLink_isValid_iff (S : Sim) (link : Bytes) {t : XPLMDataTypeID}
    (ht : t ≠ .unknown) :
    (ofLink S link t).isValid = true ↔
      link ≠ [] ∧ S.findDataRef (beforeNul link) ≠ NULL := by
  unfold ofLink
  by_cases hlink : link = []
  · simp [hlink]
  · by_cases href : S.findDataRef (beforeNul link) = NULL <;> simp [ht, hlink, href]

@[simp] theorem ofLink_link (S : Sim) (link : Bytes) (t : XPLMDataTypeID) :
    (ofLink S link t).link = link := by
  unfold ofLink
  split
  · rfl
  · simp only
    split <;> rfl

/-- A valid dataref keeps the type it was constructed with. -/
theorem ofLink_dataType {S : Sim} {link : Bytes} {t : XPLMDataTypeID}
    (h : (ofLink S link t).isValid = true) : (ofLink S link t).dataType = t := by
  unfold ofLink at h ⊢
  split at h
  · simp at h
  · rename_i hguard
    simp only [hguard, if_false]
    simp only at h
    split at h
    · simp at h
    · rename_i href
      simp [href]

/-- Both failures of the constructor leave a dead dataref, and its success a
live one. -/
theorem ofLink_live_or_dead (S : Sim) (link : Bytes) {t : XPLMDataTypeID}
    (ht : Scalar t) : (ofLink S link t).Live ∨ (ofLink S link t).Dead := by
  unfold ofLink
  split
  · exact Or.inr ⟨rfl, rfl, rfl⟩
  · simp only
    split
    · rename_i href
      exact Or.inr ⟨rfl, href, rfl⟩
    · rename_i href
      exact Or.inl ⟨rfl, href, ht⟩

/-- The constructor sees the simulator through `XPLMFindDataRef` and
`XPLMCanWriteDataRef` only. -/
theorem ofLink_congr {S S' : Sim} (link : Bytes) (t : XPLMDataTypeID)
    (hfind : S.findDataRef = S'.findDataRef)
    (hwrite : S.canWriteDataRef = S'.canWriteDataRef) :
    ofLink S link t = ofLink S' link t := by
  unfold ofLink
  rw [hfind, hwrite]

/-- A dead dataref reads as the empty text, without asking the simulator. -/
theorem getValue_dead (S : Sim) {d : Dataref} (h : d.Dead) :
    d.getValue S = ([], .ok []) := by
  simp [getValue, h.2.1]

/-- A live dataref is read by one call of the getter of its type. -/
theorem getValue_live (S : Sim) {d : Dataref} (h : d.Live) :
    ∃ getter text, d.getValue S = ([⟨getter, d.dataref⟩], .ok text) ∧
      (getter = .datai ∨ getter = .dataf ∨ getter = .datad) := by
  obtain ⟨hvalid, href, hint | hfloat | hdouble⟩ := h
  · exact ⟨.datai, toStringInt (S.getDatai d.dataref).toInt,
      by simp [getValue, hvalid, href, hint], Or.inl rfl⟩
  · exact ⟨.dataf, toStringFloat (S.getDataf d.dataref),
      by simp [getValue, hvalid, href, hfloat], Or.inr (Or.inl rfl)⟩
  · exact ⟨.datad, toStringDouble (S.getDatad d.dataref),
      by simp [getValue, hvalid, href, hdouble], Or.inr (Or.inr rfl)⟩

/-- The text of a dataref that can be read. -/
def valueText (S : Sim) (d : Dataref) : Bytes :=
  match (d.getValue S).2 with
  | .ok text => text
  | .error _ => []

theorem valueText_dead (S : Sim) {d : Dataref} (h : d.Dead) : d.valueText S = [] := by
  simp [valueText, getValue_dead S h]

/-- A live or dead dataref has a text. -/
theorem getValue_eq_ok (S : Sim) {d : Dataref} (h : d.Live ∨ d.Dead) :
    (d.getValue S).2 = .ok (d.valueText S) := by
  unfold valueText
  rcases h with hlive | hdead
  · obtain ⟨getter, text, hvalue, -⟩ := getValue_live S hlive
    simp [hvalue]
  · simp [getValue_dead S hdead]

end Dataref

end XplaneServer.Datas
