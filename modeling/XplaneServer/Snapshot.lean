/-
  Snapshot.lean --- the text `MainCallBack` builds from the registry, and when
  it can be read back.

  The text is a line `name : value` for each entry, in key order.  Names come
  from the network unescaped, so the text is read back only when no name contains
  a complete ending of a line, ` : value` and a newline
  (`snapshot_unambiguous`).
-/
import XplaneServer.Registry
import XplaneServer.Foundation.Records

set_option autoImplicit false

namespace XplaneServer

open Foundation
open Json (JsonCpp)
open Datas

/-- Every dataref of the registry is live or dead. -/
def Readable (m : DatarefMap) : Prop :=
  ∀ (name : Bytes) (d : Dataref), m[name]? = some d → d.Live ∨ d.Dead

/-- The end of a line, after the name. -/
def lineEnding (value : Bytes) : Bytes := lit " : " ++ value ++ lit "\n"

/-- The line of one entry. -/
def snapshotLine (S : Sim) (p : Bytes × Dataref) : Bytes :=
  p.1 ++ lineEnding (p.2.valueText S)

theorem mem_toList_iff {m : DatarefMap} {name : Bytes} {d : Dataref} :
    (name, d) ∈ m.toList ↔ m[name]? = some d :=
  Std.ExtTreeMap.mem_toList_iff_getElem?_eq_some

/-! ## What the loop computes -/

/-- On readable entries the loop appends their lines, and its only effects are
calls of the getters. -/
theorem exec_snapshotLoop (S : Sim) :
    ∀ (entries : List (Bytes × Dataref)) (data : Bytes) (w : World),
      (∀ p ∈ entries, p.2.Live ∨ p.2.Dead) →
      exec (snapshotLoop S entries data) w =
        (.ok (data ++ entries.flatMap (snapshotLine S)),
          w.record (entries.flatMap fun p => (p.2.getValue S).1.map .getData)) := by
  intro entries
  induction entries with
  | nil => intro data w _; simp [snapshotLoop]
  | cons p entries ih =>
      intro data w hreadable
      have hvalue := Dataref.getValue_eq_ok S (hreadable p List.mem_cons_self)
      have hrest : ∀ q ∈ entries, q.2.Live ∨ q.2.Dead :=
        fun q hq => hreadable q (List.mem_cons_of_mem p hq)
      obtain ⟨first, second⟩ := p
      rcases hget : second.getValue S with ⟨calls, value⟩
      simp only [hget] at hvalue
      subst hvalue
      rw [snapshotLoop, hget]
      simp only [exec_bind, exec_modify, exec_liftUb_ok, ih _ _ hrest]
      simp [snapshotLine, lineEnding, hget]

/-- The text of the snapshot. -/
def snapshotText (S : Sim) (m : DatarefMap) : Bytes := m.toList.flatMap (snapshotLine S)

/-- The calls of the getters that build it. -/
def snapshotCalls (S : Sim) (m : DatarefMap) : List Event :=
  m.toList.flatMap fun p => (p.2.getValue S).1.map .getData

theorem mem_snapshotCalls {S : Sim} {m : DatarefMap} {e : Event} (he : e ∈ snapshotCalls S m) :
    ∃ (name : Bytes) (d : Dataref) (call : XPLMGet),
      m[name]? = some d ∧ call ∈ (d.getValue S).1 ∧ e = .getData call := by
  obtain ⟨⟨name, d⟩, hentry, hcall⟩ := List.mem_flatMap.mp he
  obtain ⟨call, hmem, rfl⟩ := List.mem_map.mp hcall
  exact ⟨name, d, call, mem_toList_iff.mp hentry, hmem, rfl⟩

/-- The snapshot of a readable registry. -/
theorem exec_snapshot (S : Sim) {w : World} (hreadable : Readable w.datarefMap) :
    exec (snapshot S) w =
      (.ok (snapshotText S w.datarefMap), w.record (snapshotCalls S w.datarefMap)) := by
  have hentries : ∀ p ∈ w.datarefMap.toList, p.2.Live ∨ p.2.Dead :=
    fun p hp => hreadable p.1 p.2 (mem_toList_iff.mp hp)
  have hloop := exec_snapshotLoop S w.datarefMap.toList [] w hentries
  rw [List.nil_append] at hloop
  rw [snapshot, exec_bind_ok (exec_get w), hloop]
  rfl

/-- What the loop returns does not depend on the rest of the world. -/
theorem exec_snapshotLoop_fst (S : Sim) :
    ∀ (entries : List (Bytes × Dataref)) (data : Bytes) (w w' : World),
      (exec (snapshotLoop S entries data) w).1 = (exec (snapshotLoop S entries data) w').1 := by
  intro entries
  induction entries with
  | nil => intro data w w'; rfl
  | cons p entries ih =>
      intro data w w'
      obtain ⟨first, second⟩ := p
      rcases hget : second.getValue S with ⟨calls, value⟩
      rw [snapshotLoop, hget]
      cases value with
      | error u => rfl
      | ok text => simpa only [exec_bind, exec_modify, exec_liftUb_ok] using ih _ _ _

/-- Equal registries give equal texts. -/
theorem snapshot_congr (S : Sim) {w w' : World} (h : w.datarefMap = w'.datarefMap) :
    (exec (snapshot S) w).1 = (exec (snapshot S) w').1 := by
  rw [snapshot, exec_bind_ok (exec_get w), exec_bind_ok (exec_get w'), h]
  exact exec_snapshotLoop_fst S _ _ w w'

/-- **Registration order.**  Sequences of requests in which every name has the
same first request leave the same registry, and the same text is built from it.
The simulator gives every request the same answers; that the sequences are
permutations of each other is not needed. -/
theorem registerAll_order {J : JsonCpp} {S : Sim} {messages₁ messages₂ : List Message}
    {w₁ w₂ : World}
    (hsim : ∀ m ∈ messages₁ ++ messages₂, m.env.sim.findDataRef = S.findDataRef ∧
      m.env.sim.canWriteDataRef = S.canWriteDataRef)
    (hfirst : ∀ name, firstRequest J name messages₁ = firstRequest J name messages₂)
    (hmap : w₁.datarefMap = w₂.datarefMap) :
    (registerAll J messages₁ w₁).datarefMap = (registerAll J messages₂ w₂).datarefMap ∧
      ∀ S' : Sim, (exec (snapshot S') (registerAll J messages₁ w₁)).1 =
        (exec (snapshot S') (registerAll J messages₂ w₂)).1 := by
  have hmaps := registerAll_datarefMap_congr hsim hfirst hmap
  exact ⟨hmaps, fun S' => snapshot_congr S' hmaps⟩

/-- Three requests with a repeated name, in two orders. -/
theorem registerAll_order_samples :
    let messages₁ := [registerA, registerAgain, registerB].map sampleMessage
    let messages₂ := [registerB, registerA, registerAgain].map sampleMessage
    (registerAll registrationJson messages₁ .started).datarefMap =
        (registerAll registrationJson messages₂ .started).datarefMap ∧
      ∀ S : Sim, (exec (snapshot S) (registerAll registrationJson messages₁ .started)).1 =
        (exec (snapshot S) (registerAll registrationJson messages₂ .started)).1 := by
  have hfirst : ∀ name : Bytes,
      firstRequest registrationJson name
          ([registerA, registerAgain, registerB].map sampleMessage) =
        firstRequest registrationJson name
          ([registerB, registerA, registerAgain].map sampleMessage) := by
    intro name
    have hrequests : ([registerA, registerAgain, registerB].map sampleMessage).filterMap
        (fun m => requestOf registrationJson m.data) =
          [⟨lit "a", lit "one", .int⟩, ⟨lit "a", lit "two", .int⟩, ⟨lit "b", lit "two", .int⟩] := by
      decide
    have hrequests' : ([registerB, registerA, registerAgain].map sampleMessage).filterMap
        (fun m => requestOf registrationJson m.data) =
          [⟨lit "b", lit "two", .int⟩, ⟨lit "a", lit "one", .int⟩, ⟨lit "a", lit "two", .int⟩] := by
      decide
    have hdistinct : lit "a" ≠ lit "b" := by decide
    unfold firstRequest
    rw [hrequests, hrequests']
    by_cases hname : name = lit "b"
    · simp [hname, hdistinct]
    · simp [List.find?_cons, Ne.symm hname]
  have hsim : ∀ data : List Bytes, ∀ m ∈ data.map sampleMessage,
      m.env.sim.findDataRef = twoDatarefs.findDataRef ∧
        m.env.sim.canWriteDataRef = twoDatarefs.canWriteDataRef := by
    intro data m hm
    obtain ⟨text, -, rfl⟩ := List.mem_map.mp hm
    exact ⟨rfl, rfl⟩
  exact registerAll_order (fun m hm => (List.mem_append.mp hm).elim (hsim _ m) (hsim _ m))
    hfirst rfl

/-! ## Reading the text back -/

/-- A text without the bytes that delimit a line: newline, space and colon. -/
def Plain (value : Bytes) : Prop := ∀ b ∈ value, b ≠ 10 ∧ b ≠ 32 ∧ b ≠ 58

/-- The texts `GetValue` gives for an integer dataref: an integer, or nothing. -/
def IntText (value : Bytes) : Prop := value = [] ∨ ∃ i : Int32, value = toStringInt i.toInt

/-- The endings of the lines of integer datarefs. -/
def intEndings : Set Bytes := {t | ∃ value, IntText value ∧ t = lineEnding value}

/-- An entry a registration with the type `int` can make. -/
def IntEntry (d : Dataref) : Prop := (d.Live ∧ d.dataType = .int) ∨ d.Dead

/-- The names of a registry with the texts of their values, in key order. -/
def snapshotPairs (S : Sim) (m : DatarefMap) : List (Bytes × Bytes) :=
  m.toList.map fun p => (p.1, p.2.valueText S)

theorem IntText.plain {value : Bytes} (h : IntText value) : Plain value := by
  intro b hb
  obtain rfl | ⟨i, rfl⟩ := h
  · cases hb
  · rcases mem_toStringInt hb with rfl | ⟨hlow, hhigh⟩
    · decide
    · refine ⟨?_, ?_, ?_⟩ <;> rintro rfl <;> revert hlow hhigh <;> decide

theorem lineEnding_eq (value : Bytes) : lineEnding value = 32 :: 58 :: 32 :: (value ++ [10]) := by
  have hsep : lit " : " = [32, 58, 32] := by decide
  have hend : lit "\n" = [10] := by decide
  simp [lineEnding, hsep, hend]

/-- An ending that starts inside another one with a plain value is that one: the
second byte of an ending is a colon, and after the third none is a space. -/
theorem lineEnding_overlap {v v' c r r' : Bytes} (hv : Plain v) (hv' : Plain v')
    (heq : 32 :: 58 :: 32 :: (v ++ 10 :: r) = c ++ 32 :: 58 :: 32 :: (v' ++ 10 :: r'))
    (hlt : c.length < v.length + 4) : c = [] ∧ v = v' := by
  rcases c with _ | ⟨a, _ | ⟨b, _ | ⟨d, c⟩⟩⟩
  · simp only [List.nil_append, List.cons.injEq, true_and] at heq
    have hnewline : (10 : UInt8) ∉ v := fun h => (hv 10 h).1 rfl
    have hnewline' : (10 : UInt8) ∉ v' := fun h => (hv' 10 h).1 rfl
    exact ⟨rfl, (append_cons_inj heq hnewline (Or.inl hnewline')).1⟩
  · simp at heq
  · simp only [List.cons_append, List.nil_append, List.cons.injEq] at heq
    obtain ⟨-, -, -, hcolon⟩ := heq
    cases v with
    | nil => simp at hcolon
    | cons x v =>
        simp only [List.cons_append, List.cons.injEq] at hcolon
        exact absurd hcolon.1 (hv x List.mem_cons_self).2.2
  · simp only [List.cons_append, List.cons.injEq] at heq
    obtain ⟨-, -, -, hspace⟩ := heq
    simp only [List.length_cons] at hlt
    have hat : (v ++ 10 :: r)[c.length]? = some 32 := by simp [hspace]
    rcases Nat.lt_or_ge c.length v.length with hin | hout
    · rw [List.getElem?_append_left hin] at hat
      exact absurd rfl (hv 32 (List.mem_of_getElem? hat)).2.1
    · have hend : c.length - v.length = 0 := by omega
      rw [List.getElem?_append_right hout, hend] at hat
      simp at hat

theorem lineEnding_injective : Function.Injective lineEnding := by
  intro v v' h
  simpa [lineEnding_eq] using h

/-- Endings with plain values do not overlap. -/
theorem nonOverlapping_lineEnding {V : Bytes → Prop} (hV : ∀ v, V v → Plain v) :
    NonOverlapping {t | ∃ v, V v ∧ t = lineEnding v} := by
  rintro t ⟨v, hv, rfl⟩ t' ⟨v', hv', rfl⟩ c r r' heq hlt
  rw [lineEnding_eq] at heq hlt
  rw [lineEnding_eq] at heq
  have hlength : c.length < v.length + 4 := by
    simp only [List.length_cons, List.length_append, List.length_nil] at hlt
    omega
  obtain ⟨hc, hvalue⟩ :=
    lineEnding_overlap (hV v hv) (hV v' hv') (by simpa using heq) hlength
  exact ⟨hc, by rw [hvalue]⟩

theorem IntEntry.live_or_dead {d : Dataref} (h : IntEntry d) : d.Live ∨ d.Dead :=
  h.imp And.left id

theorem IntEntry.intText {d : Dataref} (h : IntEntry d) (S : Sim) : IntText (d.valueText S) := by
  obtain ⟨⟨hvalid, href, -⟩, hint⟩ | hdead := h
  · right
    refine ⟨S.getDatai d.dataref, ?_⟩
    simp [Dataref.valueText, Dataref.getValue, hvalid, href, hint]
  · exact Or.inl (Dataref.valueText_dead S hdead)

/-- A registry of integer datarefs whose names contain no ending of a line. -/
structure Delimited (m : DatarefMap) : Prop where
  entries : ∀ (name : Bytes) (d : Dataref), m[name]? = some d → IntEntry d
  names : ∀ name ∈ m, Free intEndings name

theorem Delimited.readable {m : DatarefMap} (h : Delimited m) : Readable m :=
  fun name d hd => (h.entries name d hd).live_or_dead

/-- The pairs as records: each value with the separators around it. -/
def pairRecords (pairs : List (Bytes × Bytes)) : List (Bytes × Bytes) :=
  pairs.map fun p => (p.1, lineEnding p.2)

theorem pairRecords_injective : Function.Injective pairRecords :=
  List.map_injective_iff.mpr fun _ _ h =>
    Prod.ext (Prod.mk.inj h).1 (lineEnding_injective (Prod.mk.inj h).2)

/-- The text of a readable registry is the text of its records. -/
theorem exec_snapshot_records (S : Sim) {w : World} (h : Readable w.datarefMap) :
    (exec (snapshot S) w).1 =
      .ok (recordsText (pairRecords (snapshotPairs S w.datarefMap))) := by
  rw [exec_snapshot S h]
  simp only [snapshotText, recordsText, pairRecords, snapshotPairs, List.flatMap_map]
  rfl

theorem Delimited.records {m : DatarefMap} (h : Delimited m) (S : Sim) :
    ∀ p ∈ pairRecords (snapshotPairs S m), p.2 ∈ intEndings ∧ Free intEndings p.1 := by
  intro p hp
  simp only [pairRecords, snapshotPairs, List.map_map, List.mem_map] at hp
  obtain ⟨⟨name, d⟩, hmem, rfl⟩ := hp
  have hget : m[name]? = some d := mem_toList_iff.mp hmem
  have hname : name ∈ m :=
    Std.ExtTreeMap.isSome_getElem?_iff_mem.mp (by simp [hget])
  exact ⟨⟨d.valueText S, (h.entries name d hget).intText S, rfl⟩, h.names name hname⟩

/-- **The snapshot text can be read back**, when no name contains the ending of
a line. -/
theorem snapshot_unambiguous {S₁ S₂ : Sim} {w₁ w₂ : World}
    (h₁ : Delimited w₁.datarefMap) (h₂ : Delimited w₂.datarefMap)
    (htext : (exec (snapshot S₁) w₁).1 = (exec (snapshot S₂) w₂).1) :
    snapshotPairs S₁ w₁.datarefMap = snapshotPairs S₂ w₂.datarefMap := by
  rw [exec_snapshot_records S₁ h₁.readable, exec_snapshot_records S₂ h₂.readable] at htext
  have hplain : NonOverlapping intEndings := nonOverlapping_lineEnding fun _ => IntText.plain
  have hrecords := records_injective hplain (h₁.records S₁) (h₂.records S₂)
    (Except.ok.inj htext)
  exact pairRecords_injective hrecords

/-! ## A text with two readings -/

/-- Handle sample registrations at the started server. -/
def registered (messages : List Bytes) : World :=
  registerAll registrationJson (messages.map sampleMessage) .started

/-- The datarefs behind the two links. -/
def datarefOne : Dataref := Dataref.ofLink twoDatarefs (lit "one") .int
def datarefTwo : Dataref := Dataref.ofLink twoDatarefs (lit "two") .int

theorem toList_ab :
    (registered [registerA, registerB]).datarefMap.toList =
      [(lit "a", datarefOne), (lit "b", datarefTwo)] ∧
    (registered [registerB, registerA]).datarefMap.toList =
      [(lit "a", datarefOne), (lit "b", datarefTwo)] := by
  decide

theorem toList_lines :
    (registered [registerLines]).datarefMap.toList = [(lit "a : 1\nb", datarefTwo)] := by
  decide

/-- The entries of a registry with both datarefs. -/
theorem intEntry_of_toList {m : DatarefMap}
    (hm : ∀ p ∈ m.toList, p.2 = datarefOne ∨ p.2 = datarefTwo)
    (name : Bytes) (d : Dataref) (hd : m[name]? = some d) : IntEntry d := by
  have hone : IntEntry datarefOne := Or.inl ⟨⟨rfl, by decide, Or.inl rfl⟩, rfl⟩
  have htwo : IntEntry datarefTwo := Or.inl ⟨⟨rfl, by decide, Or.inl rfl⟩, rfl⟩
  obtain rfl | rfl := hm (name, d) (mem_toList_iff.mpr hd)
  · exact hone
  · exact htwo

/-- A name shorter than every ending contains none. -/
theorem free_of_length {name : Bytes} (h : name.length < 4) : Free intEndings name := by
  rintro t ⟨value, -, rfl⟩ hinfix
  have hle := hinfix.length_le
  simp only [lineEnding_eq, List.length_cons, List.length_append] at hle
  omega

theorem delimited_ab {m : DatarefMap}
    (hm : m.toList = [(lit "a", datarefOne), (lit "b", datarefTwo)]) : Delimited m := by
  refine ⟨intEntry_of_toList (by simp [hm]), fun name hname => free_of_length ?_⟩
  have hkey : name = lit "a" ∨ name = lit "b" := by
    rw [← Std.ExtTreeMap.mem_keys, ← Std.ExtTreeMap.map_fst_toList_eq_keys, hm] at hname
    simpa using hname
  obtain rfl | rfl := hkey <;> decide

/-- Registering `a` and `b` in either order gives texts that read alike. -/
theorem snapshot_unambiguous_ab :
    snapshotPairs twoDatarefs (registered [registerA, registerB]).datarefMap =
      snapshotPairs twoDatarefs (registered [registerB, registerA]).datarefMap :=
  snapshot_unambiguous (delimited_ab toList_ab.1) (delimited_ab toList_ab.2) (by
    rw [exec_snapshot_records _ (delimited_ab toList_ab.1).readable,
      exec_snapshot_records _ (delimited_ab toList_ab.2).readable, snapshotPairs, snapshotPairs,
      toList_ab.1, toList_ab.2])

/-- The registries of `a` and `b`, and of the one name made of both lines. -/
theorem snapshot_ambiguous :
    (exec (snapshot twoDatarefs) (registered [registerA, registerB])).1 =
        (exec (snapshot twoDatarefs) (registered [registerLines])).1 ∧
      snapshotPairs twoDatarefs (registered [registerA, registerB]).datarefMap ≠
        snapshotPairs twoDatarefs (registered [registerLines]).datarefMap := by
  have hab : Readable (registered [registerA, registerB]).datarefMap :=
    (delimited_ab toList_ab.1).readable
  have hlines : Readable (registered [registerLines]).datarefMap :=
    fun name d hd => (intEntry_of_toList (by simp [toList_lines]) name d hd).live_or_dead
  rw [exec_snapshot_records _ hab, exec_snapshot_records _ hlines, snapshotPairs, snapshotPairs,
    toList_ab.1, toList_lines]
  constructor <;> decide

end XplaneServer
