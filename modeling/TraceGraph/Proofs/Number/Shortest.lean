import TraceGraph.Number.Shortest
import TraceGraph.Number.Reading
import TraceGraph.Proofs.Number.Nearest

/-!
# The shortest digits read back

The reals that round to a double are an interval of rational ends.  Both the
search for the fewest digits and the reader are compared with it.

* `readsBack_iff`: the test of the search is membership in the interval.
* `shortest_roundsTo`: what the search returns lies in the interval.
* `ofDecimal_eq`: what lies in the interval is read as the double.
-/

namespace TraceGraph.Number

/-- The rational number that a decimal stands for. -/
def Decimal.value (d : Decimal) : ℚ :=
  d.digits * 10 ^ d.exponent

/-- Whether `q` lies among the reals that round to the double.  The ends of the
interval belong to the double with the even mantissa. -/
def Binary.RoundsTo (b : Binary) (q : ℚ) : Prop :=
  let low : ℚ := (if b.narrowBelow then 4 * b.mantissa - 1 else 4 * b.mantissa - 2 : Nat)
    * 2 ^ (b.exponent - 2)
  let high : ℚ := (4 * b.mantissa + 2 : Nat) * 2 ^ (b.exponent - 2)
  (low < q ∨ b.mantissa % 2 = 0 ∧ low = q) ∧ (q < high ∨ b.mantissa % 2 = 0 ∧ high = q)

/-! ## Comparing scaled numbers -/

private theorem pow_toNat {base : ℚ} (hbase : base ≠ 0) (i : Int) :
    base ^ i.toNat = base ^ i * base ^ (-i).toNat := by
  rw [← zpow_natCast, ← zpow_natCast, ← zpow_add₀ hbase]
  congr 1
  omega

/-- Cross-multiplication compares the numbers themselves. -/
theorem compareScaled_eq (a : Nat) (i : Int) (n : Nat) (j : Int) :
    compareScaled a i n j = compare ((a : ℚ) * 10 ^ i) ((n : ℚ) * 2 ^ j) := by
  have hscale : (0 : ℚ) < 10 ^ (-i).toNat * 2 ^ (-j).toNat := by positivity
  have hleft : (((a * tenPow i.toNat) <<< (-j).toNat : Nat) : ℚ)
      = (a : ℚ) * 10 ^ i * (10 ^ (-i).toNat * 2 ^ (-j).toNat) := by
    rw [Nat.shiftLeft_eq, tenPow, Nat.pow_eq]
    push_cast
    rw [pow_toNat (by norm_num) i]
    ring
  have hright : (((n * tenPow (-i).toNat) <<< j.toNat : Nat) : ℚ)
      = (n : ℚ) * 2 ^ j * (10 ^ (-i).toNat * 2 ^ (-j).toNat) := by
    rw [Nat.shiftLeft_eq, tenPow, Nat.pow_eq]
    push_cast
    rw [pow_toNat (by norm_num) j]
    ring
  rw [compareScaled, ← cmp_eq_compare, ← cmp_eq_compare, ← cmp_mul_pos_right hscale,
    ← hleft, ← hright]
  exact (Nat.strictMono_cast.cmp_map_eq _ _).symm

/-- The search tests for membership in the interval. -/
theorem readsBack_iff (b : Binary) (d : Decimal) :
    b.readsBack d = true ↔ b.RoundsTo d.value := by
  simp only [Binary.readsBack, Binary.RoundsTo, Decimal.value, compareScaled_eq, Bool.and_eq_true,
    Bool.or_eq_true, beq_iff_eq, compare_gt_iff_gt, compare_lt_iff_lt, compare_eq_iff_eq]
  rw [eq_comm (a := (d.digits : ℚ) * 10 ^ d.exponent),
    eq_comm (a := (d.digits : ℚ) * 10 ^ d.exponent)]

/-! ## What the search returns -/

private theorem nearest?_roundsTo {b : Binary} {tie : Tie} {grid : Int} {d : Decimal}
    (h : b.nearest? tie grid = some d) : b.RoundsTo d.value := by
  rw [← readsBack_iff]
  rw [Binary.nearest?] at h
  split at h
  · rename_i hlow hhigh
    split at h
    · cases h
      exact hlow
    · cases h
      cases tie with
      | up => exact hhigh
      | even =>
        rw [Tie.choose]
        split
        · exact hlow
        · exact hhigh
    · cases h
      exact hhigh
  · rename_i hlow _
    cases h
    exact hlow
  · rename_i _ hhigh
    cases h
    exact hhigh
  · cases h

private theorem value_exact (b : Binary) : b.exact.value = b.mantissa * 2 ^ b.exponent := by
  rw [Binary.exact]
  split
  · rename_i h
    rw [Decimal.value, Nat.shiftLeft_eq]
    push_cast
    rw [mul_one, pow_toNat (by norm_num) b.exponent,
      show (-b.exponent).toNat = 0 by omega, pow_zero, mul_one]
  · rename_i h
    rw [Decimal.value, Nat.pow_eq]
    push_cast
    rw [show (10 : ℚ) = 5 * 2 by norm_num, mul_zpow, ← zpow_natCast,
      show ((-b.exponent).toNat : Int) = -b.exponent by omega, zpow_neg]
    field_simp

private theorem exact_roundsTo {b : Binary} (h : b.mantissa ≠ 0) : b.RoundsTo b.exact.value := by
  have hpow : (0 : ℚ) < 2 ^ (b.exponent - 2) := by positivity
  have hvalue : b.exact.value = (4 * b.mantissa : Nat) * 2 ^ (b.exponent - 2) := by
    rw [value_exact, zpow_sub₀ (by norm_num)]
    push_cast
    ring
  rw [Binary.RoundsTo, hvalue]
  refine ⟨Or.inl (mul_lt_mul_of_pos_right ?_ hpow), Or.inl (mul_lt_mul_of_pos_right ?_ hpow)⟩
  · rw [Nat.cast_lt]
    split <;> omega
  · rw [Nat.cast_lt]
    omega

/-- The digits end in as many zeros as the number has factors of ten. -/
private theorem tenPow_zeros_dvd (n : Nat) :
    10 ^ ((digitsOf n).reverse.takeWhile (· == '0')).length ∣ n := by
  induction n using Nat.strongRecOn with
  | ind n ih =>
    by_cases hn : n < 10
    · rw [digitsOf, Nat.toDigits_of_lt_base hn]
      by_cases hzero : n = 0
      · rw [hzero]
        exact Nat.dvd_zero _
      · simp [hzero]
    · rw [digitsOf, Nat.toDigits_of_base_le (by decide) (by omega), List.reverse_append]
      by_cases hzero : n % 10 = 0
      · obtain ⟨c, hc⟩ := ih (n / 10) (by omega)
        rw [digitsOf] at hc
        refine ⟨c, ?_⟩
        simp only [List.reverse_singleton, List.singleton_append, hzero]
        rw [List.takeWhile_cons_of_pos (by rfl), List.length_cons, Nat.pow_succ', Nat.mul_assoc,
          ← hc]
        omega
      · simp [hzero]

/-- Moving trailing zeros into the exponent keeps the number. -/
private theorem value_trim (d : Decimal) : d.trim.value = d.value := by
  obtain ⟨c, hc⟩ := tenPow_zeros_dvd d.digits
  rw [Decimal.trim, Decimal.value, Decimal.value, tenPow, Nat.pow_eq]
  dsimp only
  generalize ((digitsOf d.digits).reverse.takeWhile (· == '0')).length = zeros at *
  rw [hc, Nat.mul_div_cancel_left _ (by positivity), zpow_add₀ (by norm_num), zpow_natCast]
  push_cast
  ring

/-- What the search returns rounds to the double. -/
theorem shortest_roundsTo {b : Binary} (tie : Tie) (h : b.mantissa ≠ 0) :
    b.RoundsTo (b.shortest tie).value := by
  rw [Binary.shortest, if_neg h]
  dsimp only
  rw [value_trim]
  cases hfound : (List.range 17).findSome?
      fun i : Nat => b.nearest? tie (b.magnitude - (i + 1)) with
  | none => exact exact_roundsTo h
  | some d =>
    obtain ⟨i, -, hi⟩ := List.exists_of_findSome?_eq_some hfound
    exact nearest?_roundsTo hi

/-! ## Reading in the interval -/

/-- The mantissa and the exponent of a finite double, and how the bits are made
of them. -/
theorem ofFloat_eq {x : Float} (h : x.toBits.toNat % 2 ^ 63 < infinityBits) :
    ∃ m k : Nat, Binary.ofFloat x = ⟨m, (k : Int) - unitBits⟩ ∧ m < 2 * hiddenBit ∧
      (k = 0 ∨ hiddenBit ≤ m) ∧ k * hiddenBit + m = x.toBits.toNat % 2 ^ 63 := by
  have hb := x.toBits.toNat_lt
  rw [Binary.ofFloat]
  rw [infinityBits] at h
  rw [hiddenBit, leastExponent]
  split
  · rename_i hzero
    refine ⟨x.toBits.toNat % 0x10000000000000, 0, ?_, ?_, Or.inl rfl, ?_⟩
    · congr 1
    · omega
    · omega
  · rename_i hbiased
    refine ⟨0x10000000000000 + x.toBits.toNat % 0x10000000000000,
      x.toBits.toNat / 0x10000000000000 % 0x800 - 1, ?_, ?_, ?_, ?_⟩
    · congr 1
      omega
    · omega
    · omega
    · omega

private theorem narrowBelow_iff (m k : Nat) :
    (⟨m, (k : Int) - unitBits⟩ : Binary).narrowBelow = true ↔ m = hiddenBit ∧ 0 < k := by
  rw [Binary.narrowBelow, Bool.and_eq_true, beq_iff_eq, decide_eq_true_iff, leastExponent]
  refine and_congr_right fun _ => ?_
  show -(unitBits : Int) < (k : Int) - unitBits ↔ 0 < k
  omega

/-- A fraction in the interval rounds to the double. -/
private theorem nearestBits_of_roundsTo {m k num den : Nat} (hden : 0 < den)
    (hm : m < 2 * hiddenBit) (hnormal : k = 0 ∨ hiddenBit ≤ m)
    (hfinite : k * hiddenBit + m ≤ infinityBits)
    (h : (⟨m, (k : Int) - unitBits⟩ : Binary).RoundsTo ((num : ℚ) / den)) :
    nearestBits num den = k * hiddenBit + m := by
  -- multiplied by `scale`, both sides of each comparison are whole numbers
  have hdenRat : (0 : ℚ) < den := by exact_mod_cast hden
  obtain ⟨scale, hscale⟩ : ∃ scale : ℚ, scale = den * (4 * 2 ^ unitBits) := ⟨_, rfl⟩
  have hscalePos : 0 < scale := by rw [hscale]; positivity
  have hq : (num : ℚ) / den * scale = (4 * (num <<< unitBits) : Nat) := by
    rw [hscale, Nat.shiftLeft_eq]
    push_cast
    field_simp
  have hend : ∀ c : Nat, (c : ℚ) * 2 ^ ((k : Int) - unitBits - 2) * scale
      = (c * (2 ^ k * den) : Nat) := by
    intro c
    rw [hscale, zpow_sub₀ (by norm_num), zpow_sub₀ (by norm_num), zpow_natCast, zpow_natCast]
    push_cast
    field_simp
  have hlt : ∀ c : Nat, (num : ℚ) / den < c * 2 ^ ((k : Int) - unitBits - 2) ↔
      4 * (num <<< unitBits) < c * (2 ^ k * den) := by
    intro c
    rw [← mul_lt_mul_iff_left₀ hscalePos, hq, hend, Nat.cast_lt]
  have hgt : ∀ c : Nat, (c : ℚ) * 2 ^ ((k : Int) - unitBits - 2) < (num : ℚ) / den ↔
      c * (2 ^ k * den) < 4 * (num <<< unitBits) := by
    intro c
    rw [← mul_lt_mul_iff_left₀ hscalePos, hq, hend, Nat.cast_lt]
  have heq : ∀ c : Nat, (c : ℚ) * 2 ^ ((k : Int) - unitBits - 2) = (num : ℚ) / den ↔
      c * (2 ^ k * den) = 4 * (num <<< unitBits) := by
    intro c
    rw [← mul_left_inj' hscalePos.ne', hq, hend, Nat.cast_inj]
  obtain ⟨hlow, hhigh⟩ := h
  dsimp only at hlow hhigh
  rw [hgt, heq] at hlow
  rw [hlt, heq] at hhigh
  have hm4 : (4 * m + 2) * (2 ^ k * den) = 4 * (m * (2 ^ k * den)) + 2 * (2 ^ k * den) := by
    rw [Nat.add_mul, Nat.mul_assoc]
  rw [hm4] at hhigh
  have hfour : 4 * m * (2 ^ k * den) = 4 * (m * (2 ^ k * den)) := Nat.mul_assoc 4 m _
  have hnarrow : m = hiddenBit → 0 < k →
      4 * (m * (2 ^ k * den)) ≤ 4 * (num <<< unitBits) + 2 ^ k * den := by
    intro hleast hk
    rw [if_pos ((narrowBelow_iff m k).2 ⟨hleast, hk⟩), Nat.sub_mul] at hlow
    omega
  have hwide : 4 * (m * (2 ^ k * den)) ≤ 4 * (num <<< unitBits) + 2 * (2 ^ k * den) ∧
      (4 * (m * (2 ^ k * den)) = 4 * (num <<< unitBits) + 2 * (2 ^ k * den) → m % 2 = 0) := by
    have hunit : 0 < 2 ^ k * den := Nat.mul_pos (Nat.two_pow_pos k) hden
    split at hlow
    · rw [Nat.sub_mul] at hlow
      omega
    · rw [Nat.sub_mul] at hlow
      omega
  exact nearestBits_eq hden rfl hm hnormal hfinite hnarrow (by omega) (by omega) (by omega)
    (by omega)

private theorem tenPow_neg_lt : (10 : ℚ) ^ (-331 : Int) < 2 * 2 ^ (-1076 : Int) := by
  have hlt : (2 : Nat) ^ 1075 < 10 ^ 331 := by decide +kernel
  have hlt : (2 : ℚ) ^ 1075 < 10 ^ 331 := by exact_mod_cast hlt
  have hten : (10 : ℚ) ^ (-331 : Int) = (10 ^ 331)⁻¹ := zpow_neg _ _
  have htwo : (2 : ℚ) * 2 ^ (-1076 : Int) = (2 ^ 1075)⁻¹ := by
    rw [← zpow_one_add₀ (by norm_num)]
    exact zpow_neg (2 : ℚ) 1075
  rw [hten, htwo]
  exact inv_strictAnti₀ (by positivity) hlt

private theorem lt_tenPow : (2 : ℚ) ^ 55 * 2 ^ (969 : Int) < 10 ^ (310 : Int) := by
  have hlt : (2 : Nat) ^ 55 * 2 ^ 969 < 10 ^ 310 := by decide +kernel
  exact_mod_cast hlt

/-- Everything in the interval of a finite double is within the range that the
reader takes seriously. -/
private theorem roundsTo_range {m k : Nat} {q : ℚ} (hm : m < 2 * hiddenBit) (hpos : 0 < m)
    (hk : k ≤ 2045) (h : (⟨m, (k : Int) - unitBits⟩ : Binary).RoundsTo q) :
    (10 : ℚ) ^ (-331 : Int) < q ∧ q < 10 ^ (310 : Int) := by
  have hj : (k : Int) - unitBits - 2 = (k : Int) - 1076 := by simp [unitBits]; omega
  have hpow : (0 : ℚ) < 2 ^ ((k : Int) - 1076) := by positivity
  obtain ⟨hlow, hhigh⟩ := h
  dsimp only at hlow hhigh
  rw [hj] at hlow hhigh
  constructor
  · have htwo : (2 : ℚ) * 2 ^ ((k : Int) - 1076) ≤ q := by
      refine le_trans (mul_le_mul_of_nonneg_right ?_ hpow.le)
        (hlow.elim le_of_lt fun heq => heq.2.le)
      rw [show (2 : ℚ) = ((2 : Nat) : ℚ) by norm_num, Nat.cast_le]
      split <;> omega
    calc (10 : ℚ) ^ (-331 : Int) < 2 * 2 ^ (-1076 : Int) := tenPow_neg_lt
      _ ≤ 2 * 2 ^ ((k : Int) - 1076) :=
        mul_le_mul_of_nonneg_left (zpow_le_zpow_right₀ (by norm_num) (by omega)) (by norm_num)
      _ ≤ q := htwo
  · have hm : ((4 * m + 2 : Nat) : ℚ) ≤ 2 ^ 55 := by
      rw [hiddenBit] at hm
      exact_mod_cast (by omega : 4 * m + 2 ≤ 2 ^ 55)
    calc q ≤ (4 * m + 2 : Nat) * 2 ^ ((k : Int) - 1076) :=
          hhigh.elim le_of_lt fun heq => heq.2.ge
      _ ≤ 2 ^ 55 * 2 ^ (969 : Int) :=
        mul_le_mul hm (zpow_le_zpow_right₀ (by norm_num) (by omega)) hpow.le (by norm_num)
      _ < 10 ^ (310 : Int) := lt_tenPow

/-- The number of digits bounds the number. -/
private theorem pow_length_digits {n : Nat} (hn : n ≠ 0) :
    10 ^ ((Nat.toDigits 10 n).length - 1) ≤ n ∧ n < 10 ^ (Nat.toDigits 10 n).length := by
  have hlen : 0 < (Nat.toDigits 10 n).length := Nat.length_toDigits_pos
  refine ⟨?_, (Nat.length_toDigits_le_iff (by decide) hlen).1 (Nat.le_refl _)⟩
  by_contra hlt
  rcases Nat.eq_zero_or_pos ((Nat.toDigits 10 n).length - 1) with hzero | hpos
  · rw [hzero] at hlt
    omega
  · have := (Nat.length_toDigits_le_iff (by decide) hpos).2 (Nat.not_le.1 hlt)
    omega

/-- A decimal in the interval of a finite positive double is read as it. -/
theorem ofDecimal_eq {x : Float} {digits : Nat} {exponent : Int}
    (hfinite : x.toBits.toNat < infinityBits) (hpos : 0 < x.toBits.toNat)
    (h : (Binary.ofFloat x).RoundsTo (Decimal.value ⟨digits, exponent⟩)) :
    ofDecimal digits exponent = x := by
  have hmod : x.toBits.toNat % 2 ^ 63 = x.toBits.toNat := by
    rw [infinityBits] at hfinite
    omega
  obtain ⟨m, k, hb, hm, hnormal, hbits⟩ := ofFloat_eq (x := x) (by omega)
  rw [hmod] at hbits
  rw [hb] at h
  have hhidden : hiddenBit = 2 ^ 52 := rfl
  have hinfinity : infinityBits = 2047 * 2 ^ 52 := rfl
  rw [hhidden] at hm hnormal hbits
  rw [hinfinity] at hfinite
  obtain ⟨hsmall, hlarge⟩ := roundsTo_range (by omega) (by omega) (by omega) h
  rw [Decimal.value] at hsmall hlarge
  have hdigits : digits ≠ 0 := by
    rintro rfl
    rw [Nat.cast_zero, zero_mul] at hsmall
    exact absurd hsmall (not_lt.2 (by positivity))
  obtain ⟨hge, hlt⟩ := pow_length_digits hdigits
  have hlen : 0 < (Nat.toDigits 10 digits).length := Nat.length_toDigits_pos
  have hge : (10 : ℚ) ^ ((Nat.toDigits 10 digits).length - 1 : Int) ≤ digits := by
    rw [show ((Nat.toDigits 10 digits).length - 1 : Int)
      = ((Nat.toDigits 10 digits).length - 1 : Nat) by omega, zpow_natCast]
    exact_mod_cast hge
  have hlt : (digits : ℚ) < 10 ^ ((Nat.toDigits 10 digits).length : Int) := by
    rw [zpow_natCast]
    exact_mod_cast hlt
  have hpow : (0 : ℚ) < 10 ^ exponent := by positivity
  have hfraction : Decimal.value ⟨digits, exponent⟩
      = ((digits * tenPow exponent.toNat : Nat) : ℚ) / (tenPow (-exponent).toNat : Nat) := by
    rw [Decimal.value, tenPow, tenPow, Nat.pow_eq, Nat.pow_eq]
    push_cast
    rw [pow_toNat (by norm_num) exponent]
    field_simp
  rw [ofDecimal, if_neg hdigits, if_neg, if_neg]
  · rw [hfraction] at h
    have hden : 0 < tenPow (-exponent).toNat := Nat.pow_pos (by decide)
    rw [nearest, nearestBits_of_roundsTo hden hm hnormal (by rw [hhidden]; omega) h, hhidden,
      hbits]
    exact (congrArg Float.ofBits UInt64.ofNat_toNat).trans (ofBits_toBits x)
  · intro hsize
    refine absurd hsmall (not_lt.2 ?_)
    calc (digits : ℚ) * 10 ^ exponent
        ≤ 10 ^ ((Nat.toDigits 10 digits).length : Int) * 10 ^ exponent :=
          mul_le_mul_of_nonneg_right hlt.le hpow.le
      _ = 10 ^ ((Nat.toDigits 10 digits).length + exponent) := (zpow_add₀ (by norm_num) _ _).symm
      _ ≤ 10 ^ (-331 : Int) := zpow_le_zpow_right₀ (by norm_num) (by omega)
  · intro hsize
    refine absurd hlarge (not_lt.2 ?_)
    calc (10 : ℚ) ^ (310 : Int)
        ≤ 10 ^ ((Nat.toDigits 10 digits).length - 1 + exponent) :=
          zpow_le_zpow_right₀ (by norm_num) (by omega)
      _ = 10 ^ ((Nat.toDigits 10 digits).length - 1 : Int) * 10 ^ exponent :=
          zpow_add₀ (by norm_num) _ _
      _ ≤ digits * 10 ^ exponent := mul_le_mul_of_nonneg_right hge hpow.le

end TraceGraph.Number
