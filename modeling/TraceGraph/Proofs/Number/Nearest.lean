import TraceGraph.Proofs.Number.Bits

/-!
# The nearest double

Rounding is described by what rounds to a given result, not by how it is
computed.

* `roundDiv_eq` says which quotients round to a whole number.
* `nearestBits_eq` says which fractions round to a double with mantissa `m` and
  `k` bits below its last one.  Everything is counted in units of the least
  positive double, and `unit` is the distance `2 ^ k` between such doubles, times
  the denominator.
-/

namespace TraceGraph.Number

/-- A quotient within half of `m` rounds to `m`.  At a distance of exactly one
half this holds only if `m` is even. -/
theorem roundDiv_eq {n d m : Nat} (hd : 0 < d)
    (hlow : 2 * (m * d) ≤ 2 * n + d) (hlowEven : 2 * (m * d) = 2 * n + d → m % 2 = 0)
    (hhigh : 2 * n ≤ 2 * (m * d) + d) (hhighEven : 2 * n = 2 * (m * d) + d → m % 2 = 0) :
    roundDiv n d = m := by
  have hr : n % d < d := Nat.mod_lt n hd
  have hn : n / d * d + n % d = n := Nat.div_add_mod' n d
  have hle : m ≤ n / d + 1 := by
    by_contra hgt
    have : (n / d + 2) * d ≤ m * d := Nat.mul_le_mul_right d (by omega)
    rw [Nat.add_mul] at this
    omega
  have hge : n / d ≤ m := by
    by_contra hgt
    have : (m + 1) * d ≤ n / d * d := Nat.mul_le_mul_right d (by omega)
    rw [Nat.add_mul] at this
    omega
  rw [roundDiv]
  rcases Nat.lt_or_eq_of_le hge with hlt | heq
  · have hm : m = n / d + 1 := by omega
    have hmd : m * d = n / d * d + d := by rw [hm, Nat.add_mul, Nat.one_mul]
    rw [if_neg (by omega), hm]
  · rw [← heq] at hlow hhigh hhighEven ⊢
    rw [if_pos (by omega)]

/-- How many bits are dropped, from the size of the count. -/
private theorem log2_div_eq {n d k : Nat} (hd : 0 < d) (hlow : 2 ^ k * d ≤ n)
    (hhigh : n < 2 ^ (k + 1) * d) : (n / d).log2 = k := by
  have hle : 2 ^ k ≤ n / d := (Nat.le_div_iff_mul_le hd).2 hlow
  have hpos : 0 < 2 ^ k := Nat.two_pow_pos k
  rw [Nat.log2_eq_iff (by omega)]
  exact ⟨hle, (Nat.div_lt_iff_lt_mul hd).2 hhigh⟩

/-- A count just below `2 ^ (52 + k)` units that rounds up to it has one dropped
bit less, and the carry goes into the exponent. -/
private theorem round_carry {n d k unit : Nat} (hd : 0 < d) (hk : 0 < k)
    (hunit : unit = 2 ^ k * d) (hlow : 4 * (hiddenBit * unit) ≤ 4 * n + unit)
    (hbelow : n < hiddenBit * unit) :
    ((n / d).log2 - fractionBits) * hiddenBit + roundDiv n (d <<< ((n / d).log2 - fractionBits))
      = k * hiddenBit + hiddenBit := by
  obtain ⟨j, rfl⟩ : ∃ j, k = j + 1 := ⟨k - 1, by omega⟩
  have hhidden : hiddenBit = 2 ^ 52 := rfl
  have hhalf : unit = 2 * (2 ^ j * d) := by rw [hunit, Nat.pow_succ', Nat.mul_assoc]
  have hjd : 0 < 2 ^ j * d := Nat.mul_pos (Nat.two_pow_pos j) hd
  have hlog : (n / d).log2 = 52 + j := by
    rw [hhidden] at hlow hbelow
    apply log2_div_eq hd
    · rw [Nat.pow_add, Nat.mul_assoc]
      omega
    · rw [show 52 + j + 1 = 53 + j by omega, Nat.pow_add, Nat.mul_assoc]
      omega
  have hround : roundDiv n (2 ^ j * d) = 2 * hiddenBit := by
    rw [hhalf, Nat.mul_left_comm hiddenBit 2] at hlow hbelow
    refine roundDiv_eq hjd ?_ (fun _ => Nat.mul_mod_right 2 _) ?_ (fun _ => Nat.mul_mod_right 2 _)
    · rw [Nat.mul_assoc]
      omega
    · rw [Nat.mul_assoc]
      omega
  rw [hlog, fractionBits, Nat.add_sub_cancel_left, Nat.shiftLeft_eq, Nat.mul_comm d, hround,
    Nat.add_mul]
  omega

/-- A count that is at least `2 ^ (52 + k)` units, or any count at `k = 0`, is
rounded at `k` dropped bits. -/
private theorem round_plain {n d m k unit : Nat} (hd : 0 < d) (hunit : unit = 2 ^ k * d)
    (hm : m < 2 * hiddenBit) (hk : k = 0 ∨ hiddenBit * unit ≤ n)
    (hlow : 2 * (m * unit) ≤ 2 * n + unit) (hlowEven : 2 * (m * unit) = 2 * n + unit → m % 2 = 0)
    (hhigh : 2 * n ≤ 2 * (m * unit) + unit)
    (hhighEven : 2 * n = 2 * (m * unit) + unit → m % 2 = 0) :
    ((n / d).log2 - fractionBits) * hiddenBit + roundDiv n (d <<< ((n / d).log2 - fractionBits))
      = k * hiddenBit + m := by
  have hunitPos : 0 < unit := by
    rw [hunit]
    exact Nat.mul_pos (Nat.two_pow_pos k) hd
  rw [hiddenBit] at hm hk ⊢
  have hbound : n < 2 ^ 53 * unit := by
    have : (m + 1) * unit ≤ 2 ^ 53 * unit := Nat.mul_le_mul_right unit (by omega)
    rw [Nat.add_mul] at this
    omega
  have hdropped : (n / d).log2 - fractionBits = k := by
    rw [fractionBits]
    rcases hk with rfl | hge
    · rw [Nat.pow_zero, Nat.one_mul] at hunit
      have hlt : n / d < 2 ^ 53 := (Nat.div_lt_iff_lt_mul hd).2 (hunit ▸ hbound)
      rcases Nat.eq_zero_or_pos (n / d) with hzero | hpos
      · rw [hzero]
        rfl
      · have := (Nat.log2_lt (by omega)).2 hlt
        omega
    · have hlog : (n / d).log2 = 52 + k := by
        apply log2_div_eq hd
        · rw [Nat.pow_add, Nat.mul_assoc, ← hunit]
          omega
        · rw [show 52 + k + 1 = 53 + k by omega, Nat.pow_add, Nat.mul_assoc, ← hunit]
          omega
      rw [hlog]
      omega
  rw [hdropped, Nat.shiftLeft_eq, Nat.mul_comm d, ← hunit,
    roundDiv_eq hunitPos hlow hlowEven hhigh hhighEven]

/-- The fractions that round to the double with mantissa `m` and `k` bits below
its last one.  They reach halfway to the next double on either side.  Below the
least mantissa with the hidden bit the next double is only half as far. -/
theorem nearestBits_eq {num den m k unit : Nat} (hden : 0 < den) (hunit : unit = 2 ^ k * den)
    (hm : m < 2 * hiddenBit) (hnormal : k = 0 ∨ hiddenBit ≤ m)
    (hfinite : k * hiddenBit + m ≤ infinityBits)
    (hnarrow : m = hiddenBit → 0 < k → 4 * (m * unit) ≤ 4 * (num <<< unitBits) + unit)
    (hlow : 2 * (m * unit) ≤ 2 * (num <<< unitBits) + unit)
    (hlowEven : 2 * (m * unit) = 2 * (num <<< unitBits) + unit → m % 2 = 0)
    (hhigh : 2 * (num <<< unitBits) ≤ 2 * (m * unit) + unit)
    (hhighEven : 2 * (num <<< unitBits) = 2 * (m * unit) + unit → m % 2 = 0) :
    nearestBits num den = k * hiddenBit + m := by
  rw [nearestBits, droppedBits]
  generalize num <<< unitBits = n at *
  suffices h : ((n / den).log2 - fractionBits) * hiddenBit
      + roundDiv n (den <<< ((n / den).log2 - fractionBits)) = k * hiddenBit + m by
    rw [h]
    exact Nat.min_eq_left hfinite
  by_cases hcarry : (m = hiddenBit ∧ 0 < k) ∧ n < m * unit
  · obtain ⟨⟨rfl, hk⟩, hbelow⟩ := hcarry
    exact round_carry hden hk hunit (hnarrow rfl hk) hbelow
  · refine round_plain hden hunit hm ?_ hlow hlowEven hhigh hhighEven
    rcases Nat.eq_zero_or_pos k with hzero | hk
    · exact Or.inl hzero
    · right
      rcases Nat.eq_or_lt_of_le (hnormal.resolve_left (by omega)) with heq | hlt
      · rw [heq]
        exact Nat.not_lt.1 fun hbelow => hcarry ⟨⟨heq.symm, hk⟩, hbelow⟩
      · have : (hiddenBit + 1) * unit ≤ m * unit := Nat.mul_le_mul_right unit hlt
        rw [Nat.add_mul] at this
        omega

end TraceGraph.Number
