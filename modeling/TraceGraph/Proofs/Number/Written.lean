import TraceGraph.Literal
import TraceGraph.Proofs.Number.Shortest

/-!
# Numbers in source text read back

A double without a sign is written as digits, with a point and more digits where
it needs them.  `write_parts` cuts the text at the point and says that the reader
makes the same double of the two parts.
-/

namespace TraceGraph.Number

/-! ## Digits -/

private theorem ofDigits_eq (digits : List Char) : ofDigits digits = Nat.ofDigitChars 10 digits 0 :=
  rfl

/-- The digits of a number stand for it. -/
theorem ofDigits_digitsOf (n : Nat) : ofDigits (digitsOf n) = n := by
  rw [ofDigits_eq, digitsOf, Nat.ofDigitChars_ten_toDigits]

/-- Zeros at the end multiply by ten. -/
theorem ofDigits_append_zeros (digits : List Char) (count : Nat) :
    ofDigits (digits ++ List.replicate count '0') = ofDigits digits * 10 ^ count := by
  rw [ofDigits_eq, Nat.ofDigitChars_append, Nat.ofDigitChars_replicate_zero, ← ofDigits_eq,
    Nat.mul_comm]

/-- Zeros in front change nothing. -/
theorem ofDigits_zeros_append (count : Nat) (digits : List Char) :
    ofDigits (List.replicate count '0' ++ digits) = ofDigits digits := by
  rw [ofDigits_eq, Nat.ofDigitChars_append, Nat.ofDigitChars_replicate_zero, Nat.mul_zero,
    ← ofDigits_eq]

private theorem isDigit_of_mem_digitsOf {n : Nat} {c : Char} (h : c ∈ digitsOf n) :
    c.isDigit = true :=
  Nat.isDigit_of_mem_toDigits (by decide) (by decide) h

private theorem isDigit_of_mem_zeros {count : Nat} {c : Char}
    (h : c ∈ List.replicate count '0') : c.isDigit = true := by
  rw [List.eq_of_mem_replicate h]
  rfl

/-! ## Texts of digits around a point -/

/-- The point and the digits after it, or nothing if there are none. -/
def pointed (places : List Char) : List Char :=
  if places.isEmpty then [] else '.' :: places

/-- A text of digits with an optional point, and the number that it stands for. -/
structure WrittenAs (text : List Char) (whole places : List Char) (value : ℚ) : Prop where
  text_eq : text = whole ++ pointed places
  whole_ne_nil : whole ≠ []
  isDigit_whole : ∀ c ∈ whole, c.isDigit = true
  isDigit_places : ∀ c ∈ places, c.isDigit = true
  value_eq : Decimal.value ⟨ofDigits (whole ++ places), 0 - places.length⟩ = value

/-- Digits without an exponent, cut at the point. -/
private theorem plain_writtenAs (n : Nat) (exponent : Int) :
    ∃ whole places, WrittenAs (Literal.numberLayout.plain (digitsOf n) exponent).toList
      whole places (Decimal.value ⟨n, exponent⟩) := by
  rw [Layout.plain]
  dsimp only
  split
  · rename_i hexp
    refine ⟨digitsOf n ++ List.replicate exponent.toNat '0', [], ?_, ?_, ?_, ?_, ?_⟩
    · simp [pointed, Literal.numberLayout]
    · simp [digitsOf, Nat.toDigits_ne_nil]
    · intro c hc
      rcases List.mem_append.1 hc with hc | hc
      · exact isDigit_of_mem_digitsOf hc
      · exact isDigit_of_mem_zeros hc
    · simp
    · rw [List.append_nil, ofDigits_append_zeros, ofDigits_digitsOf, Decimal.value, Decimal.value]
      push_cast
      rw [← zpow_natCast, show (exponent.toNat : Int) = exponent by omega]
      simp
  split
  · rename_i hexp hplaces
    have hcut := List.take_append_drop ((digitsOf n).length - (-exponent).toNat) (digitsOf n)
    refine ⟨(digitsOf n).take ((digitsOf n).length - (-exponent).toNat),
      (digitsOf n).drop ((digitsOf n).length - (-exponent).toNat), ?_, ?_,
      fun c hc => isDigit_of_mem_digitsOf (List.mem_of_mem_take hc),
      fun c hc => isDigit_of_mem_digitsOf (List.mem_of_mem_drop hc), ?_⟩
    · rw [String.toList_ofList, pointed, if_neg]
      rw [List.isEmpty_iff, List.drop_eq_nil_iff]
      omega
    · rw [Ne, ← List.length_eq_zero_iff, List.length_take]
      omega
    · rw [hcut, ofDigits_digitsOf, List.length_drop]
      congr 2
      omega
  · rename_i hexp hplaces
    refine ⟨['0'], List.replicate ((-exponent).toNat - (digitsOf n).length) '0' ++ digitsOf n,
      ?_, by simp, ?_, ?_, ?_⟩
    · rw [String.toList_ofList, pointed, if_neg]
      · rfl
      · simp [digitsOf, Nat.toDigits_ne_nil]
    · intro c hc
      rw [List.mem_singleton.1 hc]
      rfl
    · intro c hc
      rcases List.mem_append.1 hc with hc | hc
      · exact isDigit_of_mem_zeros hc
      · exact isDigit_of_mem_digitsOf hc
    · rw [← List.append_assoc, ← List.replicate_one, ← List.replicate_add, ofDigits_zeros_append,
        ofDigits_digitsOf, List.length_append, List.length_replicate]
      congr 2
      omega

/-! ## The text of a double -/

/-- A finite double without a sign is written as digits around an optional
point, and these digits are read as the same double. -/
theorem write_parts {x : Float} (h : x.toBits.toNat < infinityBits) :
    ∃ whole places, (Literal.numberLayout.write x).toList = whole ++ pointed places ∧
      whole ≠ [] ∧ (∀ c ∈ whole, c.isDigit = true) ∧ (∀ c ∈ places, c.isDigit = true) ∧
      ofParts whole places 0 = x := by
  have hinfinity : infinityBits = 2047 * 2 ^ 52 := rfl
  have hmod : x.toBits.toNat % 2 ^ 63 = x.toBits.toNat := by omega
  have htext : Literal.numberLayout.write x = Literal.numberLayout.plain
      (digitsOf ((Binary.ofFloat x).shortest .up).digits)
      ((Binary.ofFloat x).shortest .up).exponent := by
    have hnan : x.isNaN = false := by
      rw [isNaN_eq, hmod]
      simpa using h.le
    have hinf : x.isInf = false := by
      rw [isInf_eq, hmod]
      simpa using h.ne
    have hsign : signBit x = false := by
      rw [signBit_eq]
      simp
      omega
    rw [Layout.write, hnan, hinf, hsign]
    simp [Layout.decimal, Literal.numberLayout]
  obtain ⟨whole, places, hwritten⟩ := plain_writtenAs
    ((Binary.ofFloat x).shortest .up).digits ((Binary.ofFloat x).shortest .up).exponent
  refine ⟨whole, places, htext ▸ hwritten.text_eq, hwritten.whole_ne_nil, hwritten.isDigit_whole,
    hwritten.isDigit_places, ?_⟩
  rw [ofParts]
  obtain ⟨m, k, hb, hm, hnormal, hbits⟩ := ofFloat_eq (x := x) (by omega)
  have hhidden : hiddenBit = 2 ^ 52 := rfl
  rcases Nat.eq_zero_or_pos x.toBits.toNat with hzero | hpos
  · have hvalue := hwritten.value_eq
    have hshortest : (Binary.ofFloat x).shortest .up = ⟨0, 0⟩ := by
      rw [hb, Binary.shortest, if_pos]
      show m = 0
      omega
    have hdigits : ofDigits (whole ++ places) = 0 := by
      rw [hshortest] at hvalue
      simpa [Decimal.value] using hvalue
    rw [hdigits, ofDecimal, if_pos rfl]
    exact eq_of_toBits_toNat_eq hzero.symm
  · apply ofDecimal_eq h hpos
    rw [hwritten.value_eq]
    apply shortest_roundsTo
    rw [hb]
    show m ≠ 0
    intro hzero
    rw [hhidden] at hbits hnormal
    omega

/-- Infinity is written as a word. -/
theorem write_infinity {x : Float} (h : x.toBits.toNat = infinityBits) :
    Literal.numberLayout.write x = "Infinity" := by
  have hx : x = infinity := eq_of_toBits_toNat_eq (h.trans (by decide))
  rw [hx]
  decide

/-- What stands for no number is written as a word. -/
theorem write_nan {x : Float} (h : x.isNaN = true) : Literal.numberLayout.write x = "NaN" := by
  rw [Layout.write, if_pos h]
  rfl

/-- A double with a sign is written as a sign and its absolute value. -/
theorem write_signed {x : Float} (hnan : x.isNaN = false) (hsign : signBit x = true) :
    Literal.numberLayout.write x = "-" ++ Literal.numberLayout.write x.abs := by
  have hb := x.toBits.toNat_lt
  have habs := toBits_abs hnan
  have hnanAbs : x.abs.isNaN = false := by
    rw [isNaN_eq, habs, Nat.mod_mod, ← isNaN_eq, hnan]
  have hinfAbs : x.abs.isInf = x.isInf := by
    rw [isInf_eq, habs, Nat.mod_mod, ← isInf_eq]
  have hsignAbs : signBit x.abs = false := by
    rw [signBit_eq, habs]
    simp
    omega
  have hbinary : Binary.ofFloat x.abs = Binary.ofFloat x := by
    have hfraction : x.toBits.toNat % 2 ^ 63 % hiddenBit = x.toBits.toNat % hiddenBit := by
      rw [hiddenBit]
      omega
    have hbiased : x.toBits.toNat % 2 ^ 63 / hiddenBit % 0x800
        = x.toBits.toNat / hiddenBit % 0x800 := by
      rw [hiddenBit]
      omega
    simp only [Binary.ofFloat, habs, hfraction, hbiased]
  rw [Layout.write, Layout.write, hnan, hnanAbs, hsign, hsignAbs, hinfAbs, hbinary]
  cases x.isInf <;> simp

/-- Numbers that are read have no sign and stand for something. -/
theorem toBits_ofParts_le (whole places : List Char) (exponent : Int) :
    (ofParts whole places exponent).toBits.toNat ≤ infinityBits := by
  rw [ofParts, ofDecimal]
  split
  · decide
  split
  · decide
  split
  · decide
  · have hle : ∀ num den, nearestBits num den ≤ infinityBits := fun _ _ => Nat.min_le_right _ _
    rw [nearest, toBits_ofBits (hle _ _)]
    exact hle _ _

end TraceGraph.Number
