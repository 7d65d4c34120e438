/-
  Foundation/Scanning.lean --- reading a concatenation of named records back.

  `Foundation/Records.lean` says when the text of a list of records determines the
  list.  Here is the reader.  A parser of endings is tried at every place of the
  text, the first ending it finds ends a name, and reading goes on behind it.  It
  reads back whatever was written with endings that the parser reads (`Reads`), if
  the parser finds nothing inside a name (`Quiet`); both conditions of
  `Foundation/Records.lean` together are enough for this (`quiet_of_free`).
-/
import XplaneServer.Foundation.Records

set_option autoImplicit false

namespace XplaneServer.Foundation

section Scanning

variable {α β : Type} (ending : List α → Option (β × List α))

/-- The first ending in a text: what is before it, its value, and what follows. -/
def scan : List α → Option (List α × β × List α)
  | [] => (ending []).map fun r => ([], r)
  | x :: xs =>
      match ending (x :: xs) with
      | some r => some ([], r)
      | none => (scan xs).map fun r => (x :: r.1, r.2)

/-- At most this many records. -/
def readRecords : Nat → List α → Option (List (List α × β))
  | _, [] => some []
  | 0, _ :: _ => none
  | n + 1, x :: xs => do
      let (name, value, rest) ← scan ending (x :: xs)
      let records ← readRecords n rest
      return (name, value) :: records

/-- All the records of a text. -/
def readAll (text : List α) : Option (List (List α × β)) :=
  readRecords ending text.length text

variable (write : β → List α)

/-- The ending of a value is read, whatever follows it. -/
def Reads (value : β) : Prop := ∀ rest, ending (write value ++ rest) = some (value, rest)

/-- Before the ending of a value, none is found inside the name. -/
def Quiet (name : List α) (value : β) : Prop :=
  ∀ u rest, u ≠ [] → u <:+ name → ending (u ++ (write value ++ rest)) = none

variable {ending write}

/-- A record is found where it was written. -/
theorem scan_record {name : List α} {value : β} (hreads : Reads ending write value)
    (hquiet : Quiet ending write name value) (rest : List α) :
    scan ending (name ++ (write value ++ rest)) = some (name, value, rest) := by
  induction name with
  | nil =>
      have hread := hreads rest
      rw [List.nil_append]
      cases htext : write value ++ rest with
      | nil =>
          rw [htext] at hread
          rw [scan, hread]
          rfl
      | cons x xs =>
          rw [htext] at hread
          rw [scan, hread]
  | cons x name ih =>
      have hnone := hquiet (x :: name) rest (List.cons_ne_nil x name) (List.suffix_refl _)
      have hrest : Quiet ending write name value := fun u rest hu hsuffix =>
        hquiet u rest hu (hsuffix.trans (List.suffix_cons x name))
      rw [List.cons_append] at hnone ⊢
      rw [scan, hnone, ih hrest]
      rfl

/-- A list of records is read back, with fuel for each of them. -/
theorem readRecords_text {records : List (List α × β)}
    (hrecords : ∀ p ∈ records, write p.2 ≠ [] ∧ Reads ending write p.2 ∧
      Quiet ending write p.1 p.2) {n : Nat} (hn : records.length ≤ n) :
    readRecords ending n (records.flatMap fun p => p.1 ++ write p.2) = some records := by
  induction records generalizing n with
  | nil => cases n <;> rfl
  | cons p records ih =>
      obtain ⟨hsome, hreads, hquiet⟩ := hrecords p List.mem_cons_self
      have hrest := fun q hq => hrecords q (List.mem_cons_of_mem p hq)
      have hscan := scan_record hreads hquiet (records.flatMap fun p => p.1 ++ write p.2)
      obtain ⟨n, rfl⟩ : ∃ m, n = m + 1 := Nat.exists_eq_succ_of_ne_zero (by
        rw [List.length_cons] at hn
        omega)
      rw [List.flatMap_cons, List.append_assoc]
      cases htext : p.1 ++ (write p.2 ++ records.flatMap fun p => p.1 ++ write p.2) with
      | nil => simp [hsome] at htext
      | cons x xs =>
          rw [htext] at hscan
          rw [readRecords, hscan]
          simp only [Option.bind_eq_bind, Option.bind_some]
          rw [ih hrest (Nat.le_of_succ_le_succ hn)]
          rfl

/-- **What was written is read back.** -/
theorem readAll_text {records : List (List α × β)}
    (hrecords : ∀ p ∈ records, write p.2 ≠ [] ∧ Reads ending write p.2 ∧
      Quiet ending write p.1 p.2) :
    readAll ending (records.flatMap fun p => p.1 ++ write p.2) = some records := by
  apply readRecords_text hrecords
  induction records with
  | nil => exact Nat.zero_le _
  | cons p records ih =>
      have hpos := List.length_pos_iff.mpr (hrecords p List.mem_cons_self).1
      have hrest := ih fun q hq => hrecords q (List.mem_cons_of_mem p hq)
      rw [List.flatMap_cons, List.length_append, List.length_append, List.length_cons]
      omega

/-- Where no ending overlaps another, and a name contains none, a parser that
invents no ending is quiet. -/
theorem quiet_of_free {T : Set (List α)} (hT : NonOverlapping T)
    (hsound : ∀ xs value rest, ending xs = some (value, rest) → ∃ t ∈ T, xs = t ++ rest)
    {name : List α} {value : β} (hvalue : write value ∈ T) (hfree : Free T name) :
    Quiet ending write name value := by
  rintro u rest hu ⟨before, rfl⟩
  by_contra hfound
  obtain ⟨⟨value', rest'⟩, hfound⟩ := Option.ne_none_iff_exists'.mp hfound
  obtain ⟨t, ht, htext⟩ := hsound _ _ _ hfound
  have hsplit := record_split_of_prefix hT ht hvalue hfree htext.symm
  exact hu hsplit.1

end Scanning

end XplaneServer.Foundation
