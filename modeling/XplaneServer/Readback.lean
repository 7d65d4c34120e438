/-
  Readback.lean --- what a client learns from a snapshot.

  `readSnapshot` is a reader for the text of a snapshot.  It looks for endings of
  lines, ` : value` and a newline, with a value in which nothing delimits a line;
  every printed scalar is one.  As long as no name that is registered contains such
  an ending, it finds the names of the registry with their texts (`readSnapshot_text`),
  and over a run the texts tell what the simulator holds: an integer exactly, and a
  float or a double up to its last printed place (`readSnapshot_of_run`).
-/
import XplaneServer.Datas.Registers
import XplaneServer.Foundation.Scanning
import XplaneServer.Ticks

set_option autoImplicit false

namespace XplaneServer

open Foundation Json Datas Networking

/-! ## Endings of lines -/

/-- The end of a line with a value that is accepted, at the start of a text: the
value, and what follows. -/
def lineEnd (accept : Bytes → Bool) : Bytes → Option (Bytes × Bytes)
  | 32 :: 58 :: 32 :: body =>
      match body.dropWhile (· ≠ 10) with
      | _ :: rest =>
          if accept (body.takeWhile (· ≠ 10)) then some (body.takeWhile (· ≠ 10), rest) else none
      | [] => none
  | _ => none

/-- It reads what was written. -/
theorem lineEnd_lineEnding {accept : Bytes → Bool} {value : Bytes} (haccept : accept value = true)
    (hline : (10 : UInt8) ∉ value) : Reads (lineEnd accept) lineEnding value := by
  intro rest
  have hkeep : ∀ b ∈ value, decide (b ≠ 10) = true := fun b hb =>
    decide_eq_true (ne_of_mem_of_not_mem hb hline)
  have htake : (value ++ 10 :: rest).takeWhile (· ≠ 10) = value := by
    rw [List.takeWhile_append_of_pos hkeep]
    simp
  have hdrop : (value ++ 10 :: rest).dropWhile (· ≠ 10) = 10 :: rest := by
    rw [List.dropWhile_append_of_pos hkeep]
    simp
  have htext : lineEnding value ++ rest = 32 :: 58 :: 32 :: (value ++ 10 :: rest) := by
    rw [lineEnding_eq]
    simp
  rw [htext, lineEnd, hdrop, htake]
  exact if_pos haccept

/-- And nothing else. -/
theorem lineEnd_sound {accept : Bytes → Bool} {xs value rest : Bytes}
    (h : lineEnd accept xs = some (value, rest)) :
    accept value = true ∧ (10 : UInt8) ∉ value ∧ xs = lineEnding value ++ rest := by
  unfold lineEnd at h
  split at h
  · rename_i body
    cases hdrop : body.dropWhile (· ≠ 10) with
    | nil =>
        simp only [hdrop] at h
        cases h
    | cons b after =>
        obtain rfl : b = 10 := by
          have hhead := List.head?_dropWhile_not (· ≠ (10 : UInt8)) body
          rw [hdrop] at hhead
          simpa using hhead
        have hsplit := List.takeWhile_append_dropWhile (p := (· ≠ (10 : UInt8))) (l := body)
        simp only [hdrop] at h
        split at h
        · rename_i haccept
          obtain ⟨rfl, rfl⟩ := Prod.mk.inj (Option.some.inj h)
          refine ⟨haccept, fun hmem => ?_, ?_⟩
          · simpa using List.mem_takeWhile_imp hmem
          · rw [lineEnding_eq]
            simp only [List.cons_append, List.append_assoc, List.nil_append]
            rw [← hdrop, hsplit]
        · cases h
  · cases h

/-! ## Values -/

/-- A byte that delimits nothing. -/
def plainByte (b : UInt8) : Bool := b ≠ 10 && b ≠ 32 && b ≠ 58

theorem all_plainByte {value : Bytes} : value.all plainByte = true ↔ Plain value := by
  simp [plainByte, Plain, and_assoc]

/-- The endings of the lines of scalar datarefs, and some more. -/
def plainEndings : Set Bytes := {t | ∃ value, Plain value ∧ t = lineEnding value}

theorem Plain.append {value value' : Bytes} (h : Plain value) (h' : Plain value') :
    Plain (value ++ value') := by
  intro b hb
  exact (List.mem_append.mp hb).elim (h b) (h' b)

theorem plain_decimal (n : Nat) : Plain (decimal n) := by
  intro b hb
  obtain ⟨hlow, hhigh⟩ := mem_decimal hb
  refine ⟨?_, ?_, ?_⟩ <;> rintro rfl <;> revert hlow hhigh <;> decide

/-- A number is printed without a delimiter. -/
theorem plain_formatFixed (x : Ieee) : Plain (formatFixed x) := by
  have hsign : ∀ negative : Bool, Plain (if negative then lit "-" else []) := by
    intro negative
    apply all_plainByte.mp
    cases negative <;> decide
  cases x with
  | infinity negative => exact (hsign negative).append (all_plainByte.mp (by decide))
  | nan negative => exact (hsign negative).append (all_plainByte.mp (by decide))
  | finite negative m e =>
      have hzeros : ∀ n, Plain (List.replicate n 48) := by
        intro n b hb
        rw [List.eq_of_mem_replicate hb]
        decide
      have hpoint : Plain (lit ".") := all_plainByte.mp (by decide)
      exact ((((hsign negative).append (plain_decimal _)).append hpoint).append (hzeros _)).append
        (plain_decimal _)

theorem plain_display (S : Sim) (r : XPLMDataRef) {t : XPLMDataTypeID}
    (ht : Dataref.Scalar t) : Plain (display S r t) := by
  rcases ht with rfl | rfl | rfl
  · have hint : IntText (toStringInt (S.getDatai r).toInt) := Or.inr ⟨_, rfl⟩
    exact hint.plain
  · exact plain_formatFixed _
  · exact plain_formatFixed _

/-- A live dataref has the text that is displayed. -/
theorem Datas.Dataref.valueText_live (S : Sim) {d : Dataref} (hd : d.Live) :
    d.valueText S = display S d.dataref d.dataType := by
  unfold Dataref.valueText
  rw [Dataref.getValue_display S hd]

/-- What `GetValue` gives for what a registration makes. -/
theorem plain_valueText (S : Sim) {d : Dataref} (hd : d.Live ∨ d.Dead) :
    Plain (d.valueText S) := by
  rcases hd with hlive | hdead
  · rw [Dataref.valueText_live S hlive]
    exact plain_display S d.dataref hlive.2.2
  · rw [Dataref.valueText_dead S hdead]
    exact fun b hb => absurd hb List.not_mem_nil

/-! ## Reading a snapshot -/

/-- The names in the text of a snapshot, with the texts of their values. -/
def readSnapshot (text : Bytes) : Option (List (Bytes × Bytes)) :=
  readAll (lineEnd (·.all plainByte)) text

/-- A registry whose names contain no ending of a line. -/
structure Legible (m : DatarefMap) : Prop where
  entries : XplaneServer.Readable m
  names : ∀ name ∈ m, Free plainEndings name

/-- A name without a newline contains no ending of a line. -/
theorem free_of_oneLine {name : Bytes} (h : (10 : UInt8) ∉ name) : Free plainEndings name := by
  rintro _ ⟨value, -, rfl⟩ hinfix
  apply h
  apply hinfix.subset
  rw [lineEnding_eq]
  simp

/-- Lines with plain values and names without the ending of a line are read back. -/
theorem readSnapshot_lines {pairs : List (Bytes × Bytes)}
    (hpairs : ∀ p ∈ pairs, Plain p.2 ∧ Free plainEndings p.1) :
    readSnapshot (pairs.flatMap fun p => p.1 ++ lineEnding p.2) = some pairs := by
  have hsound : ∀ xs value rest,
      lineEnd (·.all plainByte) xs = some (value, rest) → ∃ t ∈ plainEndings, xs = t ++ rest := by
    intro xs value rest hread
    obtain ⟨hplain, -, hxs⟩ := lineEnd_sound hread
    exact ⟨lineEnding value, ⟨value, all_plainByte.mp hplain, rfl⟩, hxs⟩
  rw [readSnapshot]
  apply readAll_text
  intro p hp
  obtain ⟨hplain, hfree⟩ := hpairs p hp
  have hnewline : (10 : UInt8) ∉ p.2 := fun hmem => (hplain 10 hmem).1 rfl
  refine ⟨by simp [lineEnding_eq], lineEnd_lineEnding (all_plainByte.mpr hplain) hnewline, ?_⟩
  exact quiet_of_free (nonOverlapping_lineEnding fun _ hv => hv) hsound ⟨_, hplain, rfl⟩ hfree

/-- The text of a registry, by its pairs. -/
theorem snapshotText_eq (S : Sim) (m : DatarefMap) :
    snapshotText S m = (snapshotPairs S m).flatMap fun p => p.1 ++ lineEnding p.2 := by
  rw [snapshotPairs, List.flatMap_map]
  rfl

/-- The pairs of a legible registry. -/
theorem Legible.pairs {m : DatarefMap} (h : Legible m) (S : Sim) :
    ∀ p ∈ snapshotPairs S m, Plain p.2 ∧ Free plainEndings p.1 := by
  intro p hp
  obtain ⟨⟨name, d⟩, hentry, rfl⟩ := List.mem_map.mp hp
  have hget : m[name]? = some d := mem_toList_iff.mp hentry
  have hname : name ∈ m := Std.ExtTreeMap.isSome_getElem?_iff_mem.mp (by simp [hget])
  exact ⟨plain_valueText S (h.entries name d hget), h.names name hname⟩

/-- **The text of a registry is read back.** -/
theorem readSnapshot_text {m : DatarefMap} (h : Legible m) (S : Sim) :
    readSnapshot (snapshotText S m) = some (snapshotPairs S m) := by
  rw [snapshotText_eq]
  exact readSnapshot_lines (h.pairs S)

/-! ## What the texts tell -/

/-- A text tells what the simulator holds for a dataref: an integer as it is, a
float or a double up to its last printed place, and nothing for a dataref that is
not valid. -/
def Tells (S : Sim) (d : Dataref) (value : Bytes) : Prop :=
  (d.Dead ∧ value = []) ∨
    (d.Live ∧ match d.dataType with
      | .int => stoi value = .ok (S.getDatai d.dataref)
      | .float => ∃ bits, stof value = .ok bits ∧
          (Ieee.ofBits 8 23 (S.getDataf d.dataref).toNat).Within (1 / 10 ^ 6)
            (Ieee.ofBits 8 23 bits.toNat)
      | .double => ∃ bits, stod value = .ok bits ∧
          (Ieee.ofBits 11 52 (S.getDatad d.dataref).toNat).Within (1 / 10 ^ 6)
            (Ieee.ofBits 11 52 bits.toNat)
      | _ => False)

theorem tells_valueText (S : Sim) {d : Dataref} (hd : d.Live ∨ d.Dead) :
    Tells S d (d.valueText S) := by
  rcases hd with hlive | hdead
  · right
    refine ⟨hlive, ?_⟩
    rw [Dataref.valueText_live S hlive]
    rcases hlive.2.2 with htype | htype | htype
    · have hread := stoi_toStringInt
        ⟨(S.getDatai d.dataref).le_toInt, (S.getDatai d.dataref).toInt_lt⟩
      rw [Int32.ofInt_toInt] at hread
      simpa only [htype, display] using hread
    · obtain ⟨bits, hread, -, hwithin⟩ := stof_toStringFloat (S.getDataf d.dataref)
      simpa only [htype, display] using ⟨bits, hread, hwithin⟩
    · obtain ⟨bits, hread, -, hwithin⟩ := stod_toStringDouble (S.getDatad d.dataref)
      simpa only [htype, display] using ⟨bits, hread, hwithin⟩
  · exact Or.inl ⟨hdead, Dataref.valueText_dead S hdead⟩

/-- **A client learns the values from the wire.**  Every text that a tick of a run
broadcasts is read back, if no name accepted before it contains the ending of a
line: each of these names is found once, in order, with a text that tells what the
simulator holds in this tick for the dataref that the name was registered for. -/
theorem readSnapshot_of_run {L : Lib} {w₀ w : World} {ticks : List TickEnv} {t : TickEnv}
    {before : List Event} {text : Bytes} (hstart : Started w₀) (hrun : Run (Tick L) w₀ ticks w)
    (htext : Broadcasts L t w before text)
    (hnames : ∀ name ∈ (accepted L.json before).map Prod.fst, Free plainEndings name) :
    ∃ pairs, readSnapshot text = some pairs ∧
      (pairs.map Prod.fst).Pairwise (fun a b => compare a b = .lt) ∧
      (∀ name, name ∈ pairs.map Prod.fst ↔ name ∈ (accepted L.json before).map Prod.fst) ∧
      ∀ name value, (name, value) ∈ pairs →
        ∃ d, firstBinding name (accepted L.json before) = some d ∧ Tells t.sim d value := by
  obtain ⟨hw, -⟩ := phase_of_run hrun (hstart.faithful L.json)
  obtain ⟨w₁, hw₁, hhistory, rfl⟩ := htext.faithful hw
  have hmem : ∀ name, name ∈ w₁.datarefMap ↔ name ∈ (accepted L.json before).map Prod.fst := by
    intro name
    rw [hhistory]
    exact hw₁.mem_iff name
  have hkeys : (snapshotPairs t.sim w₁.datarefMap).map Prod.fst = w₁.datarefMap.keys := by
    rw [snapshotPairs, List.map_map, ← Std.ExtTreeMap.map_fst_toList_eq_keys]
    rfl
  refine ⟨_, readSnapshot_text ⟨hw₁.readable, fun name h => hnames name ((hmem name).mp h)⟩ t.sim,
    ?_, fun name => ?_, fun name value hpair => ?_⟩
  · rw [hkeys]
    exact Std.ExtTreeMap.ordered_keys
  · rw [hkeys, Std.ExtTreeMap.mem_keys]
    exact hmem name
  · obtain ⟨⟨name', d⟩, hentry, heq⟩ := List.mem_map.mp hpair
    obtain ⟨rfl, rfl⟩ := Prod.mk.inj heq
    have hget : w₁.datarefMap[name']? = some d := mem_toList_iff.mp hentry
    exact ⟨d, by rw [hhistory, ← hw₁.getElem?, hget],
      tells_valueText t.sim (hw₁.readable name' d hget)⟩

/-- The first tick of a run, in which `a` is registered. -/
theorem readSnapshot_of_run_registerTick :
    ∃ before text, Broadcasts (.ofJson registrationJson) registerTick .started before text ∧
      ∃ pairs, readSnapshot text = some pairs ∧
        ∀ name value, (name, value) ∈ pairs →
          ∃ d, firstBinding name (accepted registrationJson before) = some d ∧
            Tells twoDatarefs d value := by
  have hclients : (exec (receivePhase (.ofJson registrationJson) registerTick)
      .started).2.server.clients.map Client.sock = [7] := by rfl
  obtain ⟨before, text, htext⟩ := broadcasts_of_connected (L := .ofJson registrationJson)
    registerTick (started_started.faithful _) (by rfl) (fun h => by simp [h] at hclients)
  have hnames : (accepted registrationJson (exec (mainCallBack (.ofJson registrationJson)
      registerTick) .started).2.trace).map Prod.fst = [lit "a"] := by
    decide
  have hfree : ∀ name ∈ (accepted registrationJson before).map Prod.fst,
      Free plainEndings name := by
    intro name hname
    obtain ⟨new, after, -, htrace⟩ := htext
    rw [htrace, accepted_append, List.map_append] at hnames
    have hin : name ∈ [lit "a"] := hnames ▸ List.mem_append_left _ hname
    rw [List.mem_singleton.mp hin]
    exact free_of_oneLine (by decide)
  obtain ⟨pairs, hpairs, -, -, htells⟩ :=
    readSnapshot_of_run started_started (Run.nil _) htext hfree
  exact ⟨before, text, htext, pairs, hpairs, htells⟩

end XplaneServer
