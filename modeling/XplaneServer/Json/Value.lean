/-
  Json/Value.lean --- the part of jsoncpp the server uses.

  jsoncpp is not in the repository.  Its parser and its printing of doubles are
  a parameter (`JsonCpp`); the accessors on a parsed value are written out after
  their documentation, with the kinds on which they throw.
-/
import XplaneServer.Foundation.Numbers
import XplaneServer.Platform

set_option autoImplicit false

namespace XplaneServer.Json

open Foundation

/-- A `Json::Value`.  A real is kept as the bits of its double. -/
inductive Value where
  | null
  | int (i : Int)
  | uint (n : Nat)
  | real (bits : UInt64)
  | string (s : Bytes)
  | boolean (b : Bool)
  | array (elements : List Value)
  | object (members : List (Bytes × Value))

/-- The behaviour of jsoncpp that its users only see from outside. -/
structure JsonCpp where
  /-- `CharReader::parse` of the default `CharReaderBuilder`: its result and the
  root it leaves, which after a failure holds whatever was read before it. -/
  parse : Bytes → Except Exn (Bool × Value)
  /-- `valueToString(double)`, on the bits of the double. -/
  valueToString : UInt64 → Bytes

/-- A parser that knows the texts of a table: a text that begins with one of
them is parsed like it, and any other text is refused. -/
def JsonCpp.ofTable (table : List (Bytes × Bool × Value)) : JsonCpp where
  parse data :=
    match table.find? fun entry => entry.1.isPrefixOf data with
    | some entry => .ok entry.2
    | none => .ok (false, .null)
  valueToString _ := []

/-- `Value::operator[](const char*)`.  On a value that is not `const` it also
inserts a null member for an absent key; such a member reads like an absent
one, so the insertion is left out. -/
def Value.member (v : Value) (key : Bytes) : Except Exn Value :=
  match v with
  | .null => .ok .null
  | .object members => .ok ((members.lookup key).getD .null)
  | _ => .error .logicError

/-- `Value::asString`. -/
def Value.asString (J : JsonCpp) : Value → Except Exn Bytes
  | .null => .ok []
  | .string s => .ok s
  | .boolean b => .ok (if b then lit "true" else lit "false")
  | .int i => .ok (toStringInt i)
  | .uint n => .ok (decimal n)
  | .real bits => .ok (J.valueToString bits)
  | .array _ => .error .logicError
  | .object _ => .error .logicError

/-- `json[key].asString()`. -/
def Value.text (J : JsonCpp) (v : Value) (key : Bytes) : Except Exn Bytes := do
  (← v.member key).asString J

/-! ## Arrays and numbers -/

/-- `Value::size`. -/
def Value.size : Value → Nat
  | .array elements => elements.length
  | .object members => members.length
  | _ => 0

/-- `Value::operator[](int)`.  An index past the end inserts nulls, which is left
out like the insertion of a member. -/
def Value.index (v : Value) (i : Nat) : Except Exn Value :=
  match v with
  | .null => .ok .null
  | .array elements => .ok (elements[i]?.getD .null)
  | _ => .error .logicError

/-- A number between two bounds. -/
def inRange (low high : Int) : Ieee → Bool
  | .finite negative m e =>
      let significand : Int := if negative then -m else m
      if 0 ≤ e then low ≤ significand * 2 ^ e.toNat ∧ significand * 2 ^ e.toNat ≤ high
      else low * 2 ^ (-e).toNat ≤ significand ∧ significand ≤ high * 2 ^ (-e).toNat
  | _ => false

/-- A number without its fraction. -/
def truncate : Ieee → Int
  | .finite negative m e =>
      let whole := if 0 ≤ e then m * 2 ^ e.toNat else m / 2 ^ (-e).toNat
      if negative then -(whole : Int) else whole
  | _ => 0

/-- `Value::asInt`. -/
def Value.asInt : Value → Except Exn Int32
  | .null => .ok 0
  | .int i => if -2 ^ 31 ≤ i ∧ i < 2 ^ 31 then .ok (Int32.ofInt i) else .error .logicError
  | .uint n => if n < 2 ^ 31 then .ok (Int32.ofNat n) else .error .logicError
  | .real bits =>
      let d := Ieee.ofBits 11 52 bits.toNat
      if inRange (-2 ^ 31) (2 ^ 31 - 1) d then .ok (Int32.ofInt (truncate d))
      else .error .logicError
  | .boolean b => .ok (if b then 1 else 0)
  | .string _ => .error .logicError
  | .array _ => .error .logicError
  | .object _ => .error .logicError

/-- `Value::asFloat`, as the bits of the float. -/
def Value.asFloat : Value → Except Exn UInt32
  | .null => .ok 0
  | .int i => .ok (UInt32.ofNat ((Ieee.finite (i < 0) i.natAbs 0).toBits 8 23))
  | .uint n => .ok (UInt32.ofNat ((Ieee.finite false n 0).toBits 8 23))
  | .real bits => .ok (UInt32.ofNat ((Ieee.ofBits 11 52 bits.toNat).toBits 8 23))
  | .boolean b => .ok (if b then 0x3F800000 else 0)
  | .string _ => .error .logicError
  | .array _ => .error .logicError
  | .object _ => .error .logicError

/-! ## When the accessors throw -/

/-- The values that can be indexed by a name. -/
def Value.Indexable : Value → Prop
  | .null => True
  | .object _ => True
  | _ => False

/-- The values that convert to a string. -/
def Value.Scalar : Value → Prop
  | .array _ => False
  | .object _ => False
  | _ => True

/-- The member of that name, null when there is none. -/
def Value.find (v : Value) (key : Bytes) : Value :=
  match v with
  | .object members => (members.lookup key).getD .null
  | _ => .null

/-- Indexing throws exactly on a value that is neither null nor an object. -/
theorem Value.member_eq_ok_iff {v : Value} {key : Bytes} {m : Value} :
    v.member key = .ok m ↔ v.Indexable ∧ m = v.find key := by
  cases v <;> simp [member, Indexable, find, eq_comm]

/-- Converting to a string throws exactly on an array or an object. -/
theorem Value.asString_isOk_iff (J : JsonCpp) (v : Value) :
    (∃ s, v.asString J = .ok s) ↔ v.Scalar := by
  cases v <;> simp [asString, Scalar]

/-- Reading a member as a string throws on a value without members, and on a
member that does not convert. -/
theorem Value.text_isOk_iff (J : JsonCpp) (v : Value) (key : Bytes) :
    (∃ s, v.text J key = .ok s) ↔ v.Indexable ∧ (v.find key).Scalar := by
  rw [← Value.asString_isOk_iff J]
  unfold text
  cases hmember : v.member key with
  | error e =>
      have hnot : ¬ v.Indexable := by
        intro hindex
        rw [Value.member_eq_ok_iff.mpr ⟨hindex, rfl⟩] at hmember
        cases hmember
      simp [hnot, bind, Except.bind]
  | ok m =>
      obtain ⟨hindex, rfl⟩ := Value.member_eq_ok_iff.mp hmember
      simp [hindex, bind, Except.bind]

end XplaneServer.Json
