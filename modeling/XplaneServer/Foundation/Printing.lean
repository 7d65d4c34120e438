/-
  Foundation/Printing.lean --- what `std::stof` and `std::stod` read of a number
  that `std::to_string` printed.

  A finite number is printed with six decimal places, which keeps little of a
  small number and too much of a large one.  Reading the text gives a nearest
  number of the format (`Formats`), so the text that is printed for it is the same
  again (`stringToReal_formatFixed`), and for a number of any size what is lost is
  at most the last place.
-/
import XplaneServer.Foundation.Formats

set_option autoImplicit false

namespace XplaneServer.Foundation

/-! ## Digits in a row -/

/-- A text of digits begins with one and goes on with them. -/
theorem takeDigits_cons {base : Nat} {b : UInt8} {s : Bytes} {ds : List Nat}
    (h : takeDigits base (b :: s) = (ds, [])) :
    ∃ d es, digitValue b = some d ∧ d < base ∧ takeDigits base s = (es, []) ∧ ds = d :: es := by
  rw [takeDigits] at h
  cases hdigit : digitValue b with
  | none => simp [hdigit] at h
  | some d =>
      by_cases hlt : d < base
      · simp only [hdigit, if_pos hlt] at h
        obtain ⟨rfl, hrest⟩ := Prod.mk.inj h
        exact ⟨d, _, rfl, hlt, Prod.ext rfl hrest, rfl⟩
      · simp [hdigit, hlt] at h

/-- Digits are taken to the end of a text of digits, and on into what follows. -/
theorem takeDigits_append {base : Nat} {s : Bytes} {ds : List Nat}
    (h : takeDigits base s = (ds, [])) (t : Bytes) :
    takeDigits base (s ++ t) = (ds ++ (takeDigits base t).1, (takeDigits base t).2) := by
  induction s generalizing ds with
  | nil =>
      obtain rfl : ds = [] := by simpa [takeDigits] using h.symm
      rfl
  | cons b s ih =>
      obtain ⟨d, es, hdigit, hlt, hrest, rfl⟩ := takeDigits_cons h
      rw [List.cons_append, takeDigits, hdigit]
      simp only [if_pos hlt, ih hrest, List.cons_append]

/-- As many digits as bytes. -/
theorem length_takeDigits {base : Nat} {s : Bytes} {ds : List Nat}
    (h : takeDigits base s = (ds, [])) : ds.length = s.length := by
  induction s generalizing ds with
  | nil =>
      obtain rfl : ds = [] := by simpa [takeDigits] using h.symm
      rfl
  | cons b s ih =>
      obtain ⟨d, es, -, -, hrest, rfl⟩ := takeDigits_cons h
      rw [List.length_cons, List.length_cons, ih hrest]

/-- Zeros. -/
theorem takeDigits_zeros (k : Nat) :
    takeDigits 10 (List.replicate k 48) = (List.replicate k 0, []) := by
  induction k with
  | zero => rfl
  | succ k ih =>
      have hzero : digitValue 48 = some 0 := by decide
      rw [List.replicate_succ, takeDigits, hzero]
      simp [ih, List.replicate_succ]

/-- Digits before others count for their places. -/
theorem ofDigits_append (base : Nat) (ds es : List Nat) :
    ofDigits base (ds ++ es) = ofDigits base ds * base ^ es.length + ofDigits base es := by
  have hstart : ∀ (es : List Nat) (n : Nat), es.foldl (fun n d => n * base + d) n =
      n * base ^ es.length + es.foldl (fun n d => n * base + d) 0 := by
    intro es
    induction es with
    | nil => simp
    | cons e es ih =>
        intro n
        rw [List.foldl_cons, List.foldl_cons, ih, ih (0 * base + e), List.length_cons, pow_succ]
        ring
  unfold ofDigits
  rw [List.foldl_append, hstart]

/-- Zeros count for nothing. -/
theorem ofDigits_zeros (base k : Nat) : ofDigits base (List.replicate k 0) = 0 := by
  induction k with
  | zero => rfl
  | succ k ih =>
      rw [List.replicate_succ', ofDigits_append, ih]
      simp [ofDigits]

/-! ## The text of a fixed number of places -/

/-- The digits of the fraction, filled up with zeros. -/
def sixPlaces (n : Nat) : Bytes := List.replicate (6 - (decimal n).length) 48 ++ decimal n

/-- What is printed after the sign. -/
def fixedText (micros : Nat) : Bytes :=
  decimal (micros / 10 ^ 6) ++ 46 :: sixPlaces (micros % 10 ^ 6)

/-- The bytes of a printed number are digits and the point. -/
theorem mem_fixedText {micros : Nat} {b : UInt8} (h : b ∈ fixedText micros) :
    b = 46 ∨ 48 ≤ b ∧ b ≤ 57 := by
  unfold fixedText sixPlaces at h
  simp only [List.mem_append, List.mem_cons, List.mem_replicate] at h
  rcases h with hwhole | rfl | ⟨-, rfl⟩ | hfraction
  · exact Or.inr (mem_decimal hwhole)
  · exact Or.inl rfl
  · exact Or.inr (by decide)
  · exact Or.inr (mem_decimal hfraction)

/-- Six places are six digits. -/
theorem takeDigits_sixPlaces {n : Nat} (hn : n < 10 ^ 6) :
    ∃ ds, takeDigits 10 (sixPlaces n) = (ds, []) ∧ ds.length = 6 ∧ ofDigits 10 ds = n := by
  obtain ⟨ds, hdigits, hne, hvalue⟩ := takeDigits_decimal n
  have hread := takeDigits_append (takeDigits_zeros (6 - (decimal n).length)) (decimal n)
  rw [hdigits] at hread
  have hshort : (decimal n).length ≤ 6 := by
    unfold decimal
    rw [List.length_map]
    exact (Nat.length_toDigits_le_iff (by decide) (by decide)).mpr hn
  refine ⟨_, hread, ?_, ?_⟩
  · rw [List.length_append, List.length_replicate, length_takeDigits hdigits]
    omega
  · rw [ofDigits_append, ofDigits_zeros, Nat.zero_mul, Nat.zero_add, hvalue]

/-- The mantissa that is scanned counts the last place. -/
theorem scanMantissa_fixedText (micros : Nat) :
    scanMantissa 10 (fixedText micros) = some (micros, 6, []) := by
  obtain ⟨ws, hwhole, hne, hwholeValue⟩ := takeDigits_decimal (micros / 10 ^ 6)
  obtain ⟨fs, hfraction, hlength, hfractionValue⟩ :=
    takeDigits_sixPlaces (Nat.mod_lt micros (by decide : 0 < 10 ^ 6))
  have hpoint : takeDigits 10 (46 :: sixPlaces (micros % 10 ^ 6)) =
      ([], 46 :: sixPlaces (micros % 10 ^ 6)) := rfl
  have hread := takeDigits_append hwhole (46 :: sixPlaces (micros % 10 ^ 6))
  rw [hpoint, List.append_nil] at hread
  have hvalue : ofDigits 10 (ws ++ fs) = micros := by
    rw [ofDigits_append, hlength, hwholeValue, hfractionValue]
    exact Nat.div_add_mod' micros _
  unfold scanMantissa fixedText
  simp only [hread, hfraction, List.append_eq_nil_iff, hne, false_and, if_false, hvalue, hlength]

/-- None of its bytes is a letter. -/
theorem toLower_le {micros : Nat} {b : UInt8} (h : b ∈ fixedText micros) : toLower b ≤ 57 := by
  have hbyte : b ≤ 57 := by
    rcases mem_fixedText h with rfl | ⟨-, hhigh⟩
    · decide
    · exact hhigh
  have hcase : ¬ 65 ≤ b := fun hlow => absurd (UInt8.le_trans hlow hbyte) (by decide)
  simpa [toLower, hcase] using hbyte

/-- It is no word. -/
theorem word_fixedText (micros : Nat) :
    ((fixedText micros).take 3).map toLower ≠ lit "inf" ∧
      ((fixedText micros).take 3).map toLower ≠ lit "nan" := by
  have hletter : (110 : UInt8) ∉ ((fixedText micros).take 3).map toLower := by
    intro hmem
    obtain ⟨b, hb, hn⟩ := List.mem_map.mp hmem
    exact absurd (hn ▸ toLower_le (List.mem_of_mem_take hb)) (by decide)
  constructor
  · intro hword
    exact hletter (hword ▸ by decide)
  · intro hword
    exact hletter (hword ▸ by decide)

/-- It is no hexadecimal numeral. -/
theorem scanHexadecimal_fixedText (micros : Nat) : scanHexadecimal (fixedText micros) = none := by
  unfold scanHexadecimal
  split
  · rename_i x s htext
    have hx : x ∈ fixedText micros := by
      rw [htext]
      exact List.mem_cons_of_mem _ List.mem_cons_self
    have hmark : toLower x ≠ 120 := by
      intro h
      exact absurd (h ▸ toLower_le hx) (by decide)
    rw [if_neg hmark]
  · rfl

/-- The numeral of a printed number. -/
theorem scanNumeral_fixedText (micros : Nat) :
    scanNumeral (fixedText micros) = some (.finite micros 10 (-6)) := by
  obtain ⟨hinf, hnan⟩ := word_fixedText micros
  unfold scanNumeral
  simp only [if_neg hinf, if_neg hnan, scanHexadecimal_fixedText, scanMantissa_fixedText]
  rfl

/-- The sign before a number. -/
def signText (negative : Bool) : Bytes := if negative then lit "-" else []

/-- The sign is taken off. -/
theorem takeSign_fixedText (negative : Bool) (micros : Nat) :
    takeSign ((signText negative ++ fixedText micros).dropWhile isSpace) =
      (negative, fixedText micros) := by
  cases negative with
  | true => rfl
  | false =>
      have hsign : signText false ++ fixedText micros = fixedText micros := rfl
      rw [hsign]
      cases htext : fixedText micros with
      | nil => rfl
      | cons b s =>
          have hb : b ∈ fixedText micros := htext ▸ List.mem_cons_self
          have hlow : 46 ≤ b := by
            rcases mem_fixedText hb with rfl | ⟨hlow, -⟩
            · decide
            · exact UInt8.le_trans (by decide) hlow
          have hspace : isSpace b = false := by
            have hblank : b ≠ 32 ∧ ¬ b ≤ 13 :=
              ⟨fun h => absurd (h ▸ hlow) (by decide),
                fun h => absurd (UInt8.le_trans hlow h) (by decide)⟩
            simp [isSpace, hblank]
          rw [List.dropWhile_cons, hspace]
          simp only [Bool.false_eq_true, if_false]
          unfold takeSign
          split
          · rename_i hplus
            cases hplus
            exact absurd hlow (by decide)
          · rename_i hminus
            cases hminus
            exact absurd hlow (by decide)
          · rfl

/-! ## Values and their patterns -/

/-- A finite number is printed as the text of its nearest six places. -/
theorem formatFixed_finite (negative : Bool) (m : Nat) (e : Int) :
    ∃ micros, IsHalfEven ((m : ℚ) * 2 ^ e * 10 ^ 6) micros ∧
      formatFixed (.finite negative m e) = signText negative ++ fixedText micros := by
  refine ⟨if 0 ≤ e then m * 2 ^ e.toNat * 10 ^ 6
    else roundHalfEven (m * 10 ^ 6) (2 ^ (-e).toNat), ?_, ?_⟩
  · split
    · rename_i he
      have hexact : (m : ℚ) * 2 ^ e * 10 ^ 6 = (m * 2 ^ e.toNat * 10 ^ 6 : ℕ) := by
        rw [(zpow_split e).1 he]
        push_cast
        rfl
      rw [hexact]
      exact IsHalfEven.natCast _
    · rename_i he
      have hround := isHalfEven_roundHalfEven (m * 10 ^ 6) (Nat.two_pow_pos (-e).toNat)
      have hscale : (m : ℚ) * 2 ^ e * 10 ^ 6 =
          (m * 10 ^ 6 : ℕ) / (2 ^ (-e).toNat : ℕ) := by
        rw [(zpow_split e).2 he]
        push_cast
        ring
      rwa [hscale]
  · unfold formatFixed fixedText sixPlaces signText
    have hpoint : lit "." = [46] := by decide
    simp [hpoint]

section Format

variable {expBits manBits : Nat}

/-- The fields of a pattern with its sign. -/
theorem ofBits_fields (negative : Bool) {b : Nat} (hb : b < 2 ^ (expBits + manBits)) :
    ((signBit expBits manBits negative + b) / 2 ^ (expBits + manBits) % 2 == 1) = negative ∧
      (signBit expBits manBits negative + b) / 2 ^ manBits % 2 ^ expBits = b / 2 ^ manBits ∧
      (signBit expBits manBits negative + b) % 2 ^ manBits = b % 2 ^ manBits := by
  have hpos : 0 < 2 ^ (expBits + manBits) := Nat.two_pow_pos _
  have hman : 0 < 2 ^ manBits := Nat.two_pow_pos _
  have hfield : b / 2 ^ manBits < 2 ^ expBits := by
    rw [Nat.div_lt_iff_lt_mul hman, ← pow_add]
    exact hb
  cases negative with
  | false =>
      have hsign : signBit expBits manBits false = 0 := rfl
      rw [hsign, Nat.zero_add, Nat.div_eq_of_lt hb, Nat.mod_eq_of_lt hfield]
      exact ⟨rfl, rfl, rfl⟩
  | true =>
      have hsign : signBit expBits manBits true + b = b + 2 ^ expBits * 2 ^ manBits := by
        rw [← pow_add, Nat.add_comm]
        rfl
      have htop : (b + 2 ^ expBits * 2 ^ manBits) / 2 ^ (expBits + manBits) = 1 := by
        rw [← pow_add, Nat.add_div_right _ hpos, Nat.div_eq_of_lt hb]
      rw [hsign, htop, Nat.add_mul_div_right _ _ hman, Nat.add_mod_right, Nat.mod_eq_of_lt hfield,
        Nat.add_mul_mod_self_right]
      exact ⟨rfl, rfl, rfl⟩

/-- The patterns of finite values are below those of the others. -/
theorem lt_infinityBits_iff {b : Nat} :
    b < infinityBits expBits manBits ↔ b / 2 ^ manBits < 2 ^ expBits - 1 := by
  unfold infinityBits
  exact (Nat.div_lt_iff_lt_mul (Nat.two_pow_pos manBits)).symm

theorem infinityBits_lt : infinityBits expBits manBits < 2 ^ (expBits + manBits) := by
  have hman : 0 < 2 ^ manBits := Nat.two_pow_pos manBits
  unfold infinityBits
  rw [pow_add]
  apply Nat.mul_lt_mul_of_pos_right _ hman
  exact Nat.sub_lt (Nat.two_pow_pos expBits) Nat.one_pos

/-- The pattern of a finite value, with its sign. -/
theorem ofBits_finite (negative : Bool) {b : Nat} (hb : b < infinityBits expBits manBits) :
    ∃ m e, Ieee.ofBits expBits manBits (signBit expBits manBits negative + b) =
        .finite negative m e ∧ (m : ℚ) * 2 ^ e = patternValue expBits manBits b := by
  obtain ⟨hsign, hfield, hmantissa⟩ := ofBits_fields negative (hb.trans infinityBits_lt)
  have hfinite : b / 2 ^ manBits ≠ 2 ^ expBits - 1 := (lt_infinityBits_iff.mp hb).ne
  unfold Ieee.ofBits patternValue
  simp only [hsign, hfield, hmantissa, if_neg hfinite]
  split
  · rename_i hzero
    have hsmall : b < 2 ^ manBits := (Nat.div_eq_zero_iff_lt (Nat.two_pow_pos _)).mp hzero
    refine ⟨_, _, rfl, ?_⟩
    rw [Nat.mod_eq_of_lt hsmall]
    congr 2
    unfold lowestExponent
    ring
  · rename_i hzero
    refine ⟨_, _, rfl, ?_⟩
    congr 2
    rw [Nat.cast_pred (Nat.pos_of_ne_zero hzero)]
    unfold lowestExponent
    ring

/-- Every pattern is finite with a sign, or has no value. -/
theorem ofBits_cases {bits : Nat} (hbits : bits < 2 ^ (expBits + manBits + 1)) :
    (∃ negative b, b < infinityBits expBits manBits ∧
        bits = signBit expBits manBits negative + b) ∨
      (∃ negative, Ieee.ofBits expBits manBits bits = .infinity negative) ∨
      ∃ negative, Ieee.ofBits expBits manBits bits = .nan negative := by
  have hsplit : ∃ negative b, b < 2 ^ (expBits + manBits) ∧
      bits = signBit expBits manBits negative + b := by
    rw [pow_succ] at hbits
    rcases Nat.lt_or_ge bits (2 ^ (expBits + manBits)) with hlow | hhigh
    · exact ⟨false, bits, hlow, by simp [signBit]⟩
    · refine ⟨true, bits - 2 ^ (expBits + manBits), by omega, ?_⟩
      simp only [signBit, if_true]
      omega
  obtain ⟨negative, b, hb, rfl⟩ := hsplit
  rcases Nat.lt_or_ge b (infinityBits expBits manBits) with hfinite | hbeyond
  · exact Or.inl ⟨negative, b, hfinite, rfl⟩
  · right
    obtain ⟨-, hfield, hmantissa⟩ := ofBits_fields negative hb
    have hall : b / 2 ^ manBits = 2 ^ expBits - 1 := by
      have hlt : b / 2 ^ manBits < 2 ^ expBits := by
        rw [Nat.div_lt_iff_lt_mul (Nat.two_pow_pos _), ← pow_add]
        exact hb
      have hge := mt lt_infinityBits_iff.mpr (Nat.not_lt.mpr hbeyond)
      omega
    unfold Ieee.ofBits
    simp only [hfield, if_pos hall]
    split
    · exact Or.inl ⟨_, rfl⟩
    · exact Or.inr ⟨_, rfl⟩

/-- What is read of a number that was printed. -/
theorem stringToReal_fixedText (hexp : 5 ≤ expBits) (negative : Bool) (micros : Nat) :
    stringToReal expBits manBits (signText negative ++ fixedText micros) =
      if micros = 0 then .ok (signBit expBits manBits negative)
      else if roundFraction expBits manBits micros (10 ^ 6) = 0 ∨
          infinityBits expBits manBits ≤ roundFraction expBits manBits micros (10 ^ 6) then
        .error .outOfRange
      else
        .ok (signBit expBits manBits negative +
          roundFraction expBits manBits micros (10 ^ 6)) := by
  have hrange : (32 : Int) ≤ 2 ^ expBits := by
    calc
      (32 : Int) = 2 ^ 5 := by norm_num
      _ ≤ 2 ^ expBits := pow_le_pow_right₀ (by norm_num) hexp
  unfold stringToReal
  rw [takeSign_fixedText]
  simp only [scanNumeral_fixedText, if_true]
  split
  · rfl
  · have hinside : ¬ ((0 ≤ (-6 : Int) ∧ (2 : Int) ^ expBits < micros.log2 + 3 * -6) ∨
        (micros.log2 : Int) + 3 * -6 < -2 ^ expBits) := by
      omega
    rw [if_neg hinside]
    rfl

/-- **A number that was printed is read as a nearest one of the format**, and as
a finite one. -/
theorem stringToReal_nearest (hexp : 5 ≤ expBits) (hman : manBits < 2 ^ (expBits - 1))
    (negative : Bool) {b micros : Nat} (hb : b < infinityBits expBits manBits)
    (hmicros : IsHalfEven (patternValue expBits manBits b * 10 ^ 6) micros) :
    ∃ b' < infinityBits expBits manBits,
      stringToReal expBits manBits (signText negative ++ fixedText micros) =
        .ok (signBit expBits manBits negative + b') ∧
      IsNearest (Set.range (patternValue expBits manBits)) (micros / 10 ^ 6 : ℚ)
        (patternValue expBits manBits b') := by
  have hplaces : (0 : ℚ) < 10 ^ 6 := by positivity
  rw [stringToReal_fixedText hexp]
  by_cases hzero : micros = 0
  · refine ⟨0, Nat.zero_lt_of_lt hb, by rw [if_pos hzero, Nat.add_zero], ⟨0, rfl⟩, ?_⟩
    rw [hzero]
    simp
  · have hnearest : IsNearest (Set.range (patternValue expBits manBits)) (micros / 10 ^ 6 : ℚ)
        (patternValue expBits manBits (roundFraction expBits manBits micros (10 ^ 6))) := by
      refine ⟨⟨_, rfl⟩, ?_⟩
      rintro _ ⟨b', rfl⟩
      have hround := roundFraction_nearest expBits manBits
        (Nat.pos_of_ne_zero hzero) (by decide : 0 < 10 ^ 6) b'
      exact_mod_cast hround
    have hfinite : roundFraction expBits manBits micros (10 ^ 6) <
        infinityBits expBits manBits := by
      by_contra hbeyond
      have hgap := patternValue_add_one_le (by omega) hman hb
      have hmono := patternValue_strictMono.monotone (Nat.le_of_not_lt hbeyond)
        (β := ℚ) (f := patternValue expBits manBits)
      have hclose := hmicros.close hplaces (Set.mem_range_self b) hnearest
      have habs := le_abs_self (patternValue expBits manBits
        (roundFraction expBits manBits micros (10 ^ 6)) - patternValue expBits manBits b)
      linarith
    have hsome : roundFraction expBits manBits micros (10 ^ 6) ≠ 0 := by
      intro h
      have hstable := hmicros.stable hplaces (Set.mem_range_self b) hnearest
      rw [h, patternValue_zero, zero_mul] at hstable
      apply hzero
      exact hstable.unique (by exact_mod_cast IsHalfEven.natCast (α := ℚ) 0)
    refine ⟨_, hfinite, ?_, hnearest⟩
    rw [if_neg hzero, if_neg (not_or.mpr ⟨hsome, Nat.not_le.mpr hfinite⟩)]

/-- A pattern with its sign fits the width of the format. -/
theorem signBit_add_lt (negative : Bool) {b : Nat} (hb : b < 2 ^ (expBits + manBits)) :
    signBit expBits manBits negative + b < 2 ^ (expBits + manBits + 1) := by
  rw [pow_succ]
  cases negative with
  | false => simp only [signBit, Bool.false_eq_true, if_false]; omega
  | true => simp only [signBit, if_true]; omega

/-- The patterns that are written for values that are not finite. -/
theorem ofBits_beyond (expBits : Nat) (negative : Bool) {payload : Nat}
    (hpayload : payload < 2 ^ manBits) :
    infinityBits expBits manBits + payload < 2 ^ (expBits + manBits) ∧
      Ieee.ofBits expBits manBits
          (signBit expBits manBits negative + (infinityBits expBits manBits + payload)) =
        if payload = 0 then .infinity negative else .nan negative := by
  have hman : 0 < 2 ^ manBits := Nat.two_pow_pos manBits
  have hexp : 0 < 2 ^ expBits := Nat.two_pow_pos expBits
  have hlt : infinityBits expBits manBits + payload < 2 ^ (expBits + manBits) := by
    unfold infinityBits
    rw [pow_add]
    calc
      (2 ^ expBits - 1) * 2 ^ manBits + payload
          < (2 ^ expBits - 1) * 2 ^ manBits + 2 ^ manBits := by omega
      _ = (2 ^ expBits - 1 + 1) * 2 ^ manBits := by ring
      _ = 2 ^ expBits * 2 ^ manBits := by rw [Nat.sub_add_cancel hexp]
  refine ⟨hlt, ?_⟩
  obtain ⟨hsign, hfield, hmantissa⟩ := ofBits_fields negative hlt
  have hall : (infinityBits expBits manBits + payload) / 2 ^ manBits = 2 ^ expBits - 1 := by
    unfold infinityBits
    rw [Nat.mul_comm, Nat.mul_add_div hman, Nat.div_eq_of_lt hpayload, Nat.add_zero]
  have hrest : (infinityBits expBits manBits + payload) % 2 ^ manBits = payload := by
    unfold infinityBits
    rw [Nat.mul_comm, Nat.mul_add_mod, Nat.mod_eq_of_lt hpayload]
  unfold Ieee.ofBits
  simp only [hsign, hfield, hmantissa, hall, hrest, if_true]

/-- The same kind of value with the same sign, and no further apart than this. -/
def Ieee.Within (δ : ℚ) : Ieee → Ieee → Prop
  | .infinity negative, .infinity negative' => negative = negative'
  | .nan negative, .nan negative' => negative = negative'
  | .finite negative m e, .finite negative' m' e' =>
      negative = negative' ∧ |(m' : ℚ) * 2 ^ e' - m * 2 ^ e| ≤ δ
  | _, _ => False

/-- A value is no distance from itself. -/
theorem Ieee.within_self {δ : ℚ} (hδ : 0 ≤ δ) (x : Ieee) : x.Within δ x := by
  cases x with
  | infinity negative => rfl
  | nan negative => rfl
  | finite negative m e => exact ⟨rfl, by simpa using hδ⟩

/-- **Printing what was read of what was printed**: the same text, and a value
that is off by the last place at most. -/
theorem stringToReal_formatFixed (expBits manBits : Nat) (hexp : 5 ≤ expBits)
    (hman : manBits < 2 ^ (expBits - 1)) (hpayload : 0 < manBits) {bits : Nat}
    (hbits : bits < 2 ^ (expBits + manBits + 1)) :
    ∃ bits' < 2 ^ (expBits + manBits + 1),
      stringToReal expBits manBits (formatFixed (.ofBits expBits manBits bits)) = .ok bits' ∧
      formatFixed (.ofBits expBits manBits bits') = formatFixed (.ofBits expBits manBits bits) ∧
      (Ieee.ofBits expBits manBits bits).Within (1 / 10 ^ 6)
        (Ieee.ofBits expBits manBits bits') := by
  have hplaces : (0 : ℚ) < 10 ^ 6 := by positivity
  rcases ofBits_cases hbits with ⟨negative, b, hb, rfl⟩ | ⟨negative, hinf⟩ | ⟨negative, hnan⟩
  · obtain ⟨m, e, hfields, hvalue⟩ := ofBits_finite negative hb
    obtain ⟨micros, hmicros, htext⟩ := formatFixed_finite negative m e
    rw [hvalue] at hmicros
    obtain ⟨b', hb', hread, hnearest⟩ := stringToReal_nearest hexp hman negative hb hmicros
    obtain ⟨m', e', hfields', hvalue'⟩ := ofBits_finite negative hb'
    obtain ⟨micros', hmicros', htext'⟩ := formatFixed_finite negative m' e'
    rw [hvalue'] at hmicros'
    have hsame : micros' = micros :=
      hmicros'.unique (hmicros.stable hplaces (Set.mem_range_self b) hnearest)
    have hclose := hmicros.close hplaces (Set.mem_range_self b) hnearest
    refine ⟨signBit expBits manBits negative + b', ?_, ?_, ?_, ?_⟩
    · exact signBit_add_lt negative (hb'.trans infinityBits_lt)
    · rw [hfields, htext]
      exact hread
    · rw [hfields, hfields', htext, htext', hsame]
    · rw [hfields, hfields']
      refine ⟨rfl, ?_⟩
      rw [hvalue, hvalue', le_div_iff₀ hplaces]
      exact hclose
  · have hzero : 0 < 2 ^ manBits := Nat.two_pow_pos manBits
    obtain ⟨hlt, hfields⟩ := ofBits_beyond expBits negative hzero
    rw [if_pos rfl, Nat.add_zero] at hfields
    refine ⟨_, signBit_add_lt negative infinityBits_lt, ?_, ?_, ?_⟩
    · rw [hinf]
      cases negative <;> rfl
    · rw [hinf, hfields]
    · rw [hinf, hfields]
      rfl
  · have hhalf : 2 ^ (manBits - 1) < 2 ^ manBits :=
      Nat.pow_lt_pow_right (by decide) (Nat.sub_lt hpayload Nat.one_pos)
    obtain ⟨hlt, hfields⟩ := ofBits_beyond expBits negative hhalf
    rw [if_neg (Nat.two_pow_pos _).ne'] at hfields
    refine ⟨_, signBit_add_lt negative hlt, ?_, ?_, ?_⟩
    · rw [hnan, ← Nat.add_assoc]
      cases negative <;> rfl
    · rw [hnan, hfields]
    · rw [hnan, hfields]
      rfl

end Format

/-- `stof` reads what is printed for a float. -/
theorem stof_toStringFloat (bits : UInt32) :
    ∃ bits', stof (toStringFloat bits) = .ok bits' ∧
      toStringFloat bits' = toStringFloat bits ∧
      (Ieee.ofBits 8 23 bits.toNat).Within (1 / 10 ^ 6) (Ieee.ofBits 8 23 bits'.toNat) := by
  obtain ⟨n, hn, hread, htext, hwithin⟩ :=
    stringToReal_formatFixed 8 23 (by decide) (by decide) (by decide) bits.toNat_lt
  have hround : (UInt32.ofNat n).toNat = n := UInt32.toNat_ofNat_of_lt hn
  refine ⟨UInt32.ofNat n, ?_, ?_, ?_⟩
  · unfold stof toStringFloat
    rw [hread]
    rfl
  · unfold toStringFloat
    rw [hround]
    exact htext
  · rw [hround]
    exact hwithin

/-- `stod` reads what is printed for a double. -/
theorem stod_toStringDouble (bits : UInt64) :
    ∃ bits', stod (toStringDouble bits) = .ok bits' ∧
      toStringDouble bits' = toStringDouble bits ∧
      (Ieee.ofBits 11 52 bits.toNat).Within (1 / 10 ^ 6) (Ieee.ofBits 11 52 bits'.toNat) := by
  obtain ⟨n, hn, hread, htext, hwithin⟩ :=
    stringToReal_formatFixed 11 52 (by decide) (by decide) (by decide) bits.toNat_lt
  have hround : (UInt64.ofNat n).toNat = n := UInt64.toNat_ofNat_of_lt hn
  refine ⟨UInt64.ofNat n, ?_, ?_, ?_⟩
  · unfold stod toStringDouble
    rw [hread]
    rfl
  · unfold toStringDouble
    rw [hround]
    exact htext
  · rw [hround]
    exact hwithin

end XplaneServer.Foundation
