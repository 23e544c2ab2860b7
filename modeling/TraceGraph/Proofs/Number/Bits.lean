import Mathlib
import TraceGraph.Number.Binary

/-!
# Doubles and their bits

A double is its 64 bits, up to the payload of a NaN.  The lemmas do two things.

* They take a double to its bits and back: `ofBits_toBits` and `toBits_ofBits`.
* They read the kind of a double off its bits without the sign: `isNaN_eq` and
  `isInf_eq`.
-/

namespace TraceGraph.Number

open Float.Model Float.Model.UnpackedFloat

/-! ## The three fields -/

private abbrev mantissaOf (b : BitVec 64) : BitVec 52 :=
  @unpackMantissa Format.binary64 b

private abbrev exponentOf (b : BitVec 64) : BitVec 11 :=
  @unpackExponent Format.binary64 b

private abbrev signOf (b : BitVec 64) : BitVec 1 :=
  @unpackSign Format.binary64 b

private theorem mantissaOf_toNat (b : BitVec 64) :
    (mantissaOf b).toNat = b.toNat % 2 ^ 52 := by
  simp [mantissaOf, unpackMantissa]

private theorem exponentOf_toNat (b : BitVec 64) :
    (exponentOf b).toNat = b.toNat / 2 ^ 52 % 2 ^ 11 := by
  simp [exponentOf, unpackExponent, Nat.shiftRight_eq_div_pow]

private theorem exponentOf_eq_ones_iff (b : BitVec 64) :
    exponentOf b = -1#11 ↔ b.toNat / 2 ^ 52 % 2 ^ 11 = 2047 := by
  rw [← BitVec.toNat_inj, exponentOf_toNat]
  rfl

private theorem mantissaOf_eq_zero_iff (b : BitVec 64) :
    mantissaOf b = 0#52 ↔ b.toNat % 2 ^ 52 = 0 := by
  rw [← BitVec.toNat_inj, mantissaOf_toNat]
  rfl

/-- The sign, the exponent and the mantissa make up the word again. -/
private theorem packComponents_fields (b : BitVec 64) :
    packComponents Format.binary64 (.ofBitVec (signOf b)) (exponentOf b) (mantissaOf b) = b := by
  have hsign : ∀ v : BitVec 1, (Sign.ofBitVec v).toBitVec = v := by decide
  rw [packComponents, hsign]
  apply BitVec.eq_of_getLsbD_eq
  intro i hi
  have hi : i < 64 := hi
  simp only [signOf, exponentOf, mantissaOf, unpackSign, unpackExponent, unpackMantissa,
    BitVec.extractLsb, BitVec.getLsbD_append, BitVec.getLsbD_cast, BitVec.getLsbD_extractLsb']
  split
  · rename_i h
    simp [h]
  · split
    · rename_i hlow h
      simp [h, show 52 + (i - 52) = i by omega]
    · rename_i hlow hmid
      obtain rfl : i = 63 := by omega
      rfl

private theorem toNat_hidden_append (m : BitVec 52) :
    (1#1 ++ m).toNat = 2 ^ 52 + m.toNat := by
  rw [BitVec.toNat_append, ← Nat.shiftLeft_add_eq_or_of_lt m.isLt]
  rfl

/-! ## From words to doubles and back -/

/-- Unpacking a word and packing it again changes only the payload of a NaN. -/
private theorem pack_unpack {b : BitVec 64} (hvalid : Format.binary64.Valid b) :
    UnpackedFloat.pack Format.binary64 (UnpackedFloat.unpack Format.binary64 b) = b := by
  have hfields := packComponents_fields b
  have hm := (mantissaOf b).isLt
  have he := (exponentOf b).isLt
  have hbias : Format.binary64.exponentBias = 1023 := rfl
  rw [UnpackedFloat.unpack]
  by_cases hones : exponentOf b = -1#11
  · rw [if_pos hones]
    by_cases hzero : mantissaOf b = 0#52
    · rw [hones, hzero] at hfields
      rw [if_pos hzero]
      exact hfields
    · rw [if_neg hzero]
      exact (hvalid.eq_packedNaN hones hzero).symm
  rw [if_neg hones]
  by_cases hsub : exponentOf b = 0#11
  · rw [if_pos hsub]
    by_cases hzero : mantissaOf b = 0#52
    · rw [hsub, hzero] at hfields
      rw [dif_pos hzero]
      exact hfields
    · -- a mantissa without the hidden bit is too short for a normal number
      rw [dif_neg hzero, UnpackedFloat.pack]
      have hlog : ¬(mantissaOf b).toNat.log2 + 1 = Format.binary64.mantissaBits := by
        intro hlog
        have hlog : (mantissaOf b).toNat.log2 = 52 := by
          simpa [Format.mantissaBits] using hlog
        have hpos : (mantissaOf b).toNat ≠ 0 := fun h => hzero (BitVec.eq_of_toNat_eq h)
        have := (Nat.log2_eq_iff hpos).1 hlog
        omega
      rw [hsub] at hfields
      rw [if_neg (by simp [hsub, hbias]), if_neg hlog]
      simpa using hfields
  · rw [if_neg hsub, UnpackedFloat.pack]
    have hne : (exponentOf b).toNat ≠ 2047 := fun h => hones (BitVec.eq_of_toNat_eq h)
    have hlog : (1#1 ++ mantissaOf b).toNat.log2 + 1 = Format.binary64.mantissaBits := by
      have hlog : (1#1 ++ mantissaOf b).toNat.log2 = 52 := by
        rw [toNat_hidden_append, Nat.log2_eq_iff (by omega)]
        omega
      rw [hlog]
      rfl
    have hbiased : (((exponentOf b).toNat : Int) - (Format.binary64.exponentBias + (52 : Nat))
        + Format.binary64.exponentBias + (52 : Nat)).toNat = (exponentOf b).toNat := by
      rw [hbias]
      omega
    have hmantissa : BitVec.ofNat 52 (1#1 ++ mantissaOf b).toNat = mantissaOf b := by
      apply BitVec.eq_of_toNat_eq
      rw [toNat_hidden_append, BitVec.toNat_ofNat]
      omega
    simp only [hbiased, hmantissa]
    rw [if_neg (by omega), if_pos hlog]
    simpa using hfields

/-- A word that encodes no NaN needs no other payload. -/
private theorem valid_of_not_nan {b : BitVec 64}
    (h : ¬(b.toNat / 2 ^ 52 % 2 ^ 11 = 2047 ∧ b.toNat % 2 ^ 52 ≠ 0)) :
    Format.binary64.Valid b :=
  ⟨fun hones hne => absurd
    ⟨(exponentOf_eq_ones_iff b).1 hones, fun hzero => hne ((mantissaOf_eq_zero_iff b).2 hzero)⟩ h⟩

/-- The bits of a double stand for that double. -/
theorem ofBits_toBits (x : Float) : Float.ofBits x.toBits = x := by
  obtain ⟨⟨bits, hvalid⟩⟩ := x
  simp only [Float.ofBits, Float.toBits, Float.Model.ofBits, Float.Model.pack, pack_unpack hvalid]

/-- Two doubles with the same bits are the same double. -/
theorem eq_of_toBits_toNat_eq {x y : Float} (h : x.toBits.toNat = y.toBits.toNat) : x = y := by
  rw [← ofBits_toBits x, ← ofBits_toBits y, UInt64.toNat.inj h]

/-- A word without a sign that encodes no NaN is the word of its double. -/
theorem toBits_ofBits {n : Nat} (h : n ≤ infinityBits) :
    (Float.ofBits n.toUInt64).toBits.toNat = n := by
  rw [infinityBits] at h
  have hn : n.toUInt64.toBitVec.toNat = n := Nat.mod_eq_of_lt (by omega)
  have hvalid : Format.binary64.Valid n.toUInt64.toBitVec := by
    apply valid_of_not_nan
    rw [hn]
    omega
  simp only [Float.ofBits, Float.toBits, Float.Model.ofBits, Float.Model.pack, pack_unpack hvalid]
  exact hn

/-! ## Kinds of doubles -/

private theorem unpack_isNaN_iff (b : BitVec 64) :
    (UnpackedFloat.unpack Format.binary64 b).isNaN = true ↔
      exponentOf b = -1#11 ∧ mantissaOf b ≠ 0#52 := by
  rw [UnpackedFloat.unpack]
  split <;> split <;> (try split) <;> simp_all [UnpackedFloat.isNaN]

private theorem unpack_isInf_iff (b : BitVec 64) :
    (UnpackedFloat.unpack Format.binary64 b).isInf = true ↔
      exponentOf b = -1#11 ∧ mantissaOf b = 0#52 := by
  rw [UnpackedFloat.unpack]
  split <;> split <;> (try split) <;> simp_all [UnpackedFloat.isInf]

/-- A double is a NaN when its bits without the sign are above those of
infinity. -/
theorem isNaN_eq (x : Float) :
    x.isNaN = decide (infinityBits < x.toBits.toNat % 2 ^ 63) := by
  have hb := x.toBits.toNat_lt
  rw [Bool.eq_iff_iff, decide_eq_true_iff, infinityBits]
  show (UnpackedFloat.unpack Format.binary64 x.toBits.toBitVec).isNaN = true ↔ _
  rw [unpack_isNaN_iff, exponentOf_eq_ones_iff, Ne, mantissaOf_eq_zero_iff, UInt64.toNat_toBitVec]
  omega

/-- A double is infinite when its bits without the sign are those of
infinity. -/
theorem isInf_eq (x : Float) :
    x.isInf = decide (x.toBits.toNat % 2 ^ 63 = infinityBits) := by
  have hb := x.toBits.toNat_lt
  rw [Bool.eq_iff_iff, decide_eq_true_iff, infinityBits]
  show (UnpackedFloat.unpack Format.binary64 x.toBits.toBitVec).isInf = true ↔ _
  rw [unpack_isInf_iff, exponentOf_eq_ones_iff, mantissaOf_eq_zero_iff, UInt64.toNat_toBitVec]
  omega

/-- The sign bit is the highest one. -/
theorem signBit_eq (x : Float) : signBit x = decide (2 ^ 63 ≤ x.toBits.toNat) := by
  have hb := x.toBits.toNat_lt
  rw [signBit, Nat.testBit_eq_decide_div_mod_eq]
  congr 1
  rw [eq_iff_iff]
  omega

/-! ## Absolute values -/

/-- Clearing the sign of a word takes the absolute value of its double. -/
private theorem unpack_abs {b c : BitVec 64} (h : c.toNat = b.toNat % 2 ^ 63) :
    (UnpackedFloat.unpack Format.binary64 b).abs = UnpackedFloat.unpack Format.binary64 c := by
  have hm : mantissaOf c = mantissaOf b := by
    apply BitVec.eq_of_toNat_eq
    rw [mantissaOf_toNat, mantissaOf_toNat, h]
    omega
  have he : exponentOf c = exponentOf b := by
    apply BitVec.eq_of_toNat_eq
    rw [exponentOf_toNat, exponentOf_toNat, h]
    omega
  have hs : signOf c = 0#1 := by
    apply BitVec.eq_of_toNat_eq
    simp [signOf, unpackSign, Nat.shiftRight_eq_div_pow]
    omega
  simp only [UnpackedFloat.unpack, hm, he, hs]
  split <;> split <;> (try split) <;> rfl

/-- The absolute value has the same bits without the sign. -/
theorem toBits_abs {x : Float} (h : x.isNaN = false) :
    x.abs.toBits.toNat = x.toBits.toNat % 2 ^ 63 := by
  rw [isNaN_eq, decide_eq_false_iff_not, Nat.not_lt] at h
  have hword : (x.toBits.toNat % 2 ^ 63).toUInt64.toBitVec.toNat = x.toBits.toNat % 2 ^ 63 :=
    Nat.mod_eq_of_lt (by omega)
  have habs : x.abs = Float.ofBits (x.toBits.toNat % 2 ^ 63).toUInt64 := by
    show Float.ofModel (.pack (UnpackedFloat.unpack Format.binary64 x.toBits.toBitVec).abs) = _
    rw [unpack_abs (c := (x.toBits.toNat % 2 ^ 63).toUInt64.toBitVec) hword]
    rfl
  rw [habs, toBits_ofBits h]

end TraceGraph.Number
