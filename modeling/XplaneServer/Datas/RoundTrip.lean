/-
  Datas/RoundTrip.lean --- `SetValue` on what `GetValue` returned.

  An int is printed by `std::to_string` and read by `std::stoi`, which undoes it,
  so writing it back changes nothing.  The text of an int array is never finished:
  its encoder leaves the buffer before there is anything to write back
  (`roundTrips_iff`).
-/
import XplaneServer.Datas.Arrays

set_option autoImplicit false

namespace XplaneServer

open Foundation

/-- Writing the int that a dataref holds leaves the simulator as it is. -/
theorem Sim.set_getDatai (S : Sim) (r : XPLMDataRef) : S.set (.datai r (S.getDatai r)) = S := by
  have hsame : (fun q => if q = r then S.getDatai r else S.getDatai q) = S.getDatai := by
    funext q
    by_cases hq : q = r
    · rw [if_pos hq, hq]
    · rw [if_neg hq]
  unfold Sim.set
  split
  · rfl
  · simp only [hsame]

namespace Datas.Dataref

open Json

/-- `SetValue(GetValue())` returns true and leaves the simulator as it was, and a
`GetValue` after it returns the same text. -/
def RoundTrips (J : JsonCpp) (S : Sim) (d : Dataref) (forceReadOnly : Bool) : Prop :=
  ∃ text, (d.getValue S).2 = .ok text ∧
    (d.setValue J S text forceReadOnly).result = .ok true ∧
    after S (d.setValue J S text forceReadOnly).calls = S ∧
    ((d.setValue J S text forceReadOnly).dataref.getValue
      (after S (d.setValue J S text forceReadOnly).calls)).2 = .ok text

/-- The text of an int. -/
theorem getValue_int (S : Sim) {d : Dataref} (hvalid : d.isValid = true) (href : d.dataref ≠ NULL)
    (htype : d.dataType = .int) :
    (d.getValue S).2 = .ok (toStringInt (S.getDatai d.dataref).toInt) := by
  unfold getValue
  simp [hvalid, href, htype]

/-- The branch for ints writes a printed int. -/
theorem setTyped_toStringInt (J : JsonCpp) (S : Sim) {d : Dataref} (htype : d.dataType = .int)
    (i : Int32) :
    d.setTyped J S (toStringInt i.toInt) = ([.set (.datai d.dataref i)], .ok true) := by
  have hread : stoi (toStringInt i.toInt) = .ok i := by
    rw [stoi_toStringInt ⟨i.le_toInt, i.toInt_lt⟩, Int32.ofInt_toInt]
  simp only [setTyped, htype, setScalar, hread]

/-- An int survives the round trip. -/
theorem roundTrips_int (J : JsonCpp) {S : Sim} {d : Dataref} (hd : Writable S d)
    (htype : d.dataType = .int) (forceReadOnly : Bool) : RoundTrips J S d forceReadOnly := by
  have hget := getValue_int S hd.isValid hd.dataref htype
  have hknown : d.dataType ≠ .unknown := by simp [htype]
  have hwrite := setTyped_toStringInt J S htype (S.getDatai d.dataref)
  have hkept : after S (d.setTyped J S (toStringInt (S.getDatai d.dataref).toInt)).1 = S := by
    rw [hwrite]
    exact S.set_getDatai d.dataref
  refine ⟨_, hget, ?_⟩
  rw [hd.after_setValue J _ forceReadOnly hknown, hkept, hd.setValue J _ forceReadOnly hknown,
    hwrite]
  exact ⟨rfl, rfl, hget⟩

/-- **`SetValue` undoes `GetValue`, exactly** for an int: of an array, whatever
its length, there is no text to write back. -/
theorem roundTrips_iff (J : JsonCpp) {S : Sim} {d : Dataref} (hd : Writable S d)
    (htype : d.dataType = .int ∨ d.dataType = .intArray) (forceReadOnly : Bool) :
    RoundTrips J S d forceReadOnly ↔ d.dataType = .int := by
  constructor
  · rintro ⟨text, hget, -⟩
    rcases htype with hint | harray
    · exact hint
    · rw [getValue_array S hd.isValid hd.dataref (Or.inl harray)] at hget
      cases hget
  · exact fun hint => roundTrips_int J hd hint forceReadOnly

/-- A negative int, and an array. -/
theorem roundTrips_iff_samples :
    RoundTrips arrayJson { holding [] [] with getDatai := fun _ => -5 } (arrayObject .int) true ∧
      ¬ RoundTrips arrayJson (holding [7, 8] []) (arrayObject .intArray) true := by
  constructor
  · exact (roundTrips_iff arrayJson ⟨rfl, by decide, rfl, by decide⟩ (Or.inl rfl) true).mpr rfl
  · intro h
    have htype := (roundTrips_iff arrayJson ⟨rfl, by decide, rfl, by decide⟩ (Or.inr rfl) true).mp h
    cases htype

/-- The array `[7]` is not even printed. -/
theorem not_roundTrips_sample :
    ¬ RoundTrips arrayJson (holding [7] []) (arrayObject .intArray) false := by
  rintro ⟨text, hget, -⟩
  have hread : ((arrayObject .intArray).getValue (holding [7] [])).2 = .error .overread := rfl
  rw [hread] at hget
  cases hget

end Datas.Dataref

end XplaneServer
