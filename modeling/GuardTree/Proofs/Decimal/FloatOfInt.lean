import GuardTree.Proofs.Decimal.NearestWhole

/-! # Integers as floating-point numbers

An integer becomes the floating-point number of the nearest integer of 53 binary digits, and two
such numbers are ordered as these integers are.
-/

namespace GuardTree.Decimal

set_option autoImplicit false

open Float.Model (Format UnpackedFloat totalExponent)
open Float.Model.UnpackedFloat

/-! ## Shifting -/

theorem shiftRight_succ (m k : Nat) :
    ExtendedMantissa.ofMantissaAndAccuracy m .exact >>> (k + 1) =
      ⟨m / 2 ^ (k + 1), m / 2 ^ k % 2 != 0, m % 2 ^ k != 0⟩ := by
  induction k with
  | zero =>
    show (ExtendedMantissa.ofMantissaAndAccuracy m .exact).shiftRightOne = _
    simp [ExtendedMantissa.shiftRightOne, ExtendedMantissa.ofMantissaAndAccuracy, Nat.mod_one]
  | succ k ih =>
    show (ExtendedMantissa.ofMantissaAndAccuracy m .exact >>> (k + 1)).shiftRightOne = _
    have hsticky : (m / 2 ^ k % 2 != 0 || m % 2 ^ k != 0) = (m % 2 ^ (k + 1) != 0) := by
      rw [Nat.mod_pow_succ]
      obtain h | h := Nat.mod_two_eq_zero_or_one (m / 2 ^ k) <;> simp [h]
    rw [ih, ExtendedMantissa.shiftRightOne, hsticky]
    simp only [Nat.div_div_eq_div_mul, ← pow_succ]

/-- Shifting keeps of what is shifted out all that rounding needs to know. -/
theorem roundedMantissa_shiftRight (m k : Nat) :
    (ExtendedMantissa.ofMantissaAndAccuracy m .exact >>> k).roundedMantissa =
      roundHalfEven m (2 ^ k) := by
  cases k with
  | zero =>
    rw [pow_zero, ← mul_one m, roundHalfEven_mul_right m one_pos, mul_one]
    rfl
  | succ k =>
    rw [shiftRight_succ]
    have hmod : m % 2 ^ (k + 1) = m % 2 ^ k + 2 ^ k * (m / 2 ^ k % 2) := Nat.mod_pow_succ
    have hlt : m % 2 ^ k < 2 ^ k := Nat.mod_lt m (Nat.two_pow_pos k)
    have hpow : 2 ^ (k + 1) = 2 * 2 ^ k := pow_succ' 2 k
    rw [roundHalfEven]
    obtain hround | hround := Nat.mod_two_eq_zero_or_one (m / 2 ^ k)
    · -- What is shifted out is less than half of a unit.
      rw [hround] at hmod ⊢
      rw [if_pos (by omega)]
      cases m % 2 ^ k != 0 <;> rfl
    · rw [hround] at hmod ⊢
      rw [if_neg (by omega)]
      cases hsticky : m % 2 ^ k != 0 with
      | false =>
        -- It is one half.
        have hzero : m % 2 ^ k = 0 := by simpa using hsticky
        rw [if_neg (by omega)]
        show m / 2 ^ (k + 1) + m / 2 ^ (k + 1) % 2 = _
        split_ifs <;> omega
      | true =>
        have hpos : m % 2 ^ k ≠ 0 := by simpa using hsticky
        rw [if_pos (by omega)]
        rfl

/-! ## Numbers with a significand of 53 digits -/

/-- The leading 53 digits of a number, with zeros after it if it has fewer. -/
def significand (m : Nat) : Nat := m * 2 ^ 52 / 2 ^ m.log2

theorem significand_pos {m : Nat} (h : m ≠ 0) : 0 < significand m :=
  Nat.div_pos ((Nat.log2_self_le h).trans (Nat.le_mul_of_pos_right m (Nat.two_pow_pos 52)))
    (Nat.two_pow_pos m.log2)

theorem log2_significand {m : Nat} (hm : m ≠ 0) : (significand m).log2 = 52 := by
  rw [Nat.log2_eq_iff (significand_pos hm).ne', significand]
  constructor
  · rw [Nat.le_div_iff_mul_le (Nat.two_pow_pos _), Nat.mul_comm]
    exact Nat.mul_le_mul_right _ (Nat.log2_self_le hm)
  · rw [Nat.div_lt_iff_lt_mul (Nat.two_pow_pos _)]
    calc m * 2 ^ 52 < 2 ^ (m.log2 + 1) * 2 ^ 52 :=
        Nat.mul_lt_mul_of_pos_right Nat.lt_log2_self (Nat.two_pow_pos 52)
      _ = 2 ^ (52 + 1) * 2 ^ m.log2 := by
        rw [← pow_add, ← pow_add]
        congr 1
        omega

theorem significand_of_log2_eq {m : Nat} (h : m.log2 = 52) : significand m = m := by
  rw [significand, h, Nat.mul_div_cancel _ (Nat.two_pow_pos 52)]

theorem significand_mul_two_pow {m : Nat} (hm : m ≠ 0) (k : Nat) :
    significand (m * 2 ^ k) = significand m := by
  rw [significand, significand, log2_mul_two_pow hm, pow_add, Nat.mul_right_comm,
    Nat.mul_div_mul_right _ _ (Nat.two_pow_pos k)]

/-- The finite number `m * 2 ^ e`, its digits after the first 53 cut off. -/
def normal (s : Sign) (m : Nat) (e : Int) : UnpackedFloat :=
  if h : m = 0 then .zero s
  else .finite s (significand m) (e + m.log2 - 52) (significand_pos h)

theorem normal_of_ne_zero (s : Sign) {m : Nat} (hm : m ≠ 0) (e : Int) :
    normal s m e = .finite s (significand m) (e + m.log2 - 52) (significand_pos hm) :=
  dif_neg hm

theorem normal_mul_two_pow (s : Sign) (m k : Nat) (e : Int) :
    normal s (m * 2 ^ k) e = normal s m (e + k) := by
  by_cases hm : m = 0
  · simp [normal, hm]
  · have hmk : m * 2 ^ k ≠ 0 := Nat.mul_ne_zero hm (Nat.two_pow_pos k).ne'
    rw [normal_of_ne_zero s hm, normal_of_ne_zero s hmk]
    simp only [log2_mul_two_pow hm, significand_mul_two_pow hm, UnpackedFloat.finite.injEq,
      true_and]
    omega

theorem normal_of_log2_eq (s : Sign) {m : Nat} (h : m.log2 = 52) (e : Int) (hm : 0 < m) :
    normal s m e = .finite s m e hm := by
  rw [normal_of_ne_zero s hm.ne']
  simp only [h, significand_of_log2_eq h, UnpackedFloat.finite.injEq, true_and]
  omega

theorem neg_normal (m : Nat) (e : Int) :
    UnpackedFloat.neg (normal .positive m e) = normal .negative m e := by
  by_cases hm : m = 0
  · rw [normal, normal, dif_pos hm, dif_pos hm]
    rfl
  · rw [normal_of_ne_zero _ hm, normal_of_ne_zero _ hm]
    rfl

/-! ## Rounding to 53 digits -/

theorem targetExponent_eq (m : Nat) {e : Int} (he : -1074 ≤ m.log2 + e - 52) :
    Format.binary64.targetExponent (totalExponent m e) = m.log2 + e - 52 := by
  have hmin : Format.binary64.minExponent = -1074 := by decide
  have hbits : (Format.binary64.mantissaBits : Int) = 53 := by decide
  rw [Format.targetExponent, totalExponent, hmin, hbits]
  omega

theorem shiftToTargetExponent_eq {m k : Nat} {e : Int} (hk : m.log2 = 52 + k) (he : -1074 ≤ e) :
    shiftToTargetExponent Format.binary64 m e .exact =
      (ExtendedMantissa.ofMantissaAndAccuracy m .exact >>> k, e + k) := by
  have hamount : (Format.binary64.targetExponent (totalExponent m e) - e).toNat = k := by
    rw [targetExponent_eq m (by omega), hk]
    omega
  rw [shiftToTargetExponent, shiftToExponent, hamount]

/-- A significand that has become `2 ^ 53` by rounding is shifted once more. -/
theorem shiftToTargetExponent_of_le {m : Nat} {e : Int} (hlow : 2 ^ 52 ≤ m) (hhigh : m ≤ 2 ^ 53)
    (he : -1074 ≤ e) :
    (shiftToTargetExponent Format.binary64 m e .exact).1.mantissa = significand m ∧
      (shiftToTargetExponent Format.binary64 m e .exact).2 = e + m.log2 - 52 := by
  obtain hlt | rfl := hhigh.lt_or_eq
  · have hlog : m.log2 = 52 := (Nat.log2_eq_iff (by omega)).2 ⟨hlow, hlt⟩
    rw [shiftToTargetExponent_eq (k := 0) hlog he, significand_of_log2_eq hlog, hlog]
    exact ⟨rfl, by omega⟩
  · have hhalf : significand (2 ^ 53) = 2 ^ 53 / 2 := by
      rw [significand, Nat.log2_two_pow]
      norm_num
    rw [shiftToTargetExponent_eq (k := 1) Nat.log2_two_pow he, hhalf, Nat.log2_two_pow]
    exact ⟨rfl, by omega⟩

theorem roundWithAccuracy_eq (s : Sign) {m k : Nat} {e : Int} (hk : m.log2 = 52 + k)
    (he : -1074 ≤ e) :
    roundWithAccuracy Format.binary64 s m e .exact =
      normal s (roundHalfEven m (2 ^ k)) (e + k) := by
  obtain ⟨hlow, hhigh⟩ : 2 ^ 52 ≤ roundHalfEven m (2 ^ k) ∧ roundHalfEven m (2 ^ k) ≤ 2 ^ 53 := by
    have h := rounded_bounds (n := m) (by omega)
    rwa [hk, Nat.add_sub_cancel_left] at h
  obtain ⟨hsig, hexp⟩ := shiftToTargetExponent_of_le hlow hhigh (e := e + k) (by omega)
  have hne : roundHalfEven m (2 ^ k) ≠ 0 := by omega
  rw [roundWithAccuracy, shiftToTargetExponent_eq hk he, normal_of_ne_zero s hne]
  simp only [roundedMantissa_shiftRight, hsig, hexp]
  rw [dif_neg (significand_pos hne).ne']

/-! ## Bits -/

/-- The leading digit of a significand, which has no bit. -/
theorem one_append_ofNat_toNat {m : Nat} (hlog : m.log2 = 52) :
    (1#1 ++ BitVec.ofNat 52 m).toNat = m := by
  have hm : m ≠ 0 := by
    rintro rfl
    exact absurd hlog (by decide)
  obtain ⟨hlow, hhigh⟩ := (Nat.log2_eq_iff hm).1 hlog
  rw [BitVec.toNat_append, ← Nat.shiftLeft_add_eq_or_of_lt (BitVec.isLt _), BitVec.toNat_ofNat,
    BitVec.toNat_ofNat, Nat.shiftLeft_eq]
  omega

theorem unpack_pack_finite (s : Sign) {m : Nat} {e : Int} (hlog : m.log2 = 52) (hlow : -1074 ≤ e)
    (hhigh : e ≤ 971) (hm : 0 < m) :
    (Float.Model.pack (.finite s m e hm)).unpack = .finite s m e hm := by
  obtain ⟨b, rfl⟩ : ∃ b : Nat, e = b - 1075 := ⟨(e + 1075).toNat, by omega⟩
  have hpack : UnpackedFloat.pack Format.binary64 (.finite s m (b - 1075) hm) =
      packComponents Format.binary64 s (BitVec.ofNat 11 b) (BitVec.ofNat 52 m) := by
    have hbiased : ((b - 1075 : Int) + Format.binary64.exponentBias +
        Format.binary64.mantissaBitsWithoutImplicit).toNat = b := by
      have hbias : Format.binary64.exponentBias = 1023 := by decide
      have hwidth : Format.binary64.mantissaBitsWithoutImplicit = 52 := rfl
      omega
    unfold UnpackedFloat.pack
    dsimp only
    rw [hbiased, if_neg, if_pos]
    · rw [hlog]
      decide
    · show ¬2 ^ 11 ≤ b + 1
      omega
  have hexp : (BitVec.ofNat 11 b).toNat = b := by
    rw [BitVec.toNat_ofNat, Nat.mod_eq_of_lt (by omega)]
  have hne : ∀ v : BitVec 11, v.toNat ≠ b → BitVec.ofNat 11 b ≠ v := by
    rintro v hv rfl
    exact hv hexp
  show UnpackedFloat.unpack Format.binary64 (UnpackedFloat.pack Format.binary64 _) = _
  rw [hpack, UnpackedFloat.unpack]
  simp only [unpackMantissa_packComponents, unpackExponent_packComponents,
    unpackSign_packComponents, Sign.ofBitVec_toBitVec]
  rw [if_neg (hne (-1#11) (show 2047 ≠ b by omega)), if_neg (hne 0#11 (show 0 ≠ b by omega))]
  simp only [UnpackedFloat.finite.injEq, true_and]
  exact ⟨one_append_ofNat_toNat hlog, by rw [hexp]; rfl⟩

/-- Numbers that are neither too large nor too close to zero have their own bits. -/
theorem unpack_pack_normal (s : Sign) (m : Nat) {e : Int} (hlow : -1022 ≤ e + m.log2)
    (hhigh : e + m.log2 ≤ 1023) : (Float.Model.pack (normal s m e)).unpack = normal s m e := by
  by_cases hm : m = 0
  · rw [normal, dif_pos hm]
    exact unpack_packedZero
  · rw [normal_of_ne_zero s hm]
    exact unpack_pack_finite s (log2_significand hm) (by omega) (by omega) _

/-! ## Integers -/

theorem round_eq_normal (s : Sign) {n : Nat} (hn : n ≠ 0) (h : n.log2 ≤ 52) :
    UnpackedFloat.round Format.binary64 s n 0 = normal s n 0 := by
  have htarget := targetExponent_eq n (e := 0) (by omega)
  have hshift : (0 - ((n.log2 : Int) + 0 - 52)).toNat = 52 - n.log2 := by omega
  have hlog : (n * 2 ^ (52 - n.log2)).log2 = 52 + 0 := by
    rw [log2_mul_two_pow hn]
    omega
  rw [UnpackedFloat.round, htarget, decreaseExponent, hshift]
  simp only [Nat.shiftLeft_eq]
  rw [roundWithAccuracy_eq s hlog (by omega), pow_zero]
  have hexact := roundHalfEven_mul_right (n * 2 ^ (52 - n.log2)) one_pos
  rw [mul_one] at hexact
  rw [hexact, normal_mul_two_pow]
  congr 1
  omega

theorem mul_one_normal (m : Nat) {e : Int} (he : -970 ≤ e + m.log2) :
    UnpackedFloat.mul Format.binary64 (normal .positive m e)
      (.finite .positive (2 ^ 52) (-52) (Nat.two_pow_pos 52)) = normal .positive m e := by
  by_cases hm : m = 0
  · rw [normal, dif_pos hm]
    rfl
  · have hlog : (significand m * 2 ^ 52).log2 = 52 + 52 := by
      rw [log2_mul_two_pow (significand_pos hm).ne', log2_significand hm]
    rw [normal_of_ne_zero _ hm]
    show roundWithAccuracy Format.binary64 .positive (significand m * 2 ^ 52)
      (e + m.log2 - 52 + -52) .exact = _
    rw [roundWithAccuracy_eq _ hlog (by omega), roundHalfEven_mul_right _ (Nat.two_pow_pos 52),
      normal_of_log2_eq _ (log2_significand hm) _ (significand_pos hm)]
    congr 1
    omega

theorem unpack_toFloat {n : Nat} (hn : n ≠ 0) (h : n.log2 ≤ 52) :
    n.toUInt64.toFloat.toModel.unpack = normal .positive n 0 := by
  have hlt : n < 2 ^ 53 := (Nat.log2_lt hn).1 (by omega)
  have hnat : n.toUInt64.toNat = n := Nat.mod_eq_of_lt (by omega)
  have hpos : compare (n : Int) 0 = .gt := compare_gt_iff_gt.2 (by omega)
  show (Float.Model.pack (UnpackedFloat.ofNat Format.binary64 n.toUInt64.toNat)).unpack = _
  rw [hnat, UnpackedFloat.ofNat, UnpackedFloat.ofInt, UnpackedFloat.normalize, hpos]
  show (Float.Model.pack (UnpackedFloat.round Format.binary64 .positive n 0)).unpack = _
  rw [round_eq_normal _ hn h]
  exact unpack_pack_normal _ n (by omega) (by omega)

theorem unpack_ofNat_of_log2_le {n : Nat} (hn : n ≠ 0) (h : n.log2 ≤ 52) :
    (Float.ofNat n).toModel.unpack = normal .positive n 0 := by
  have hlt : n < 2 ^ 53 := (Nat.log2_lt hn).1 (by omega)
  have hone : (Float.ofBits 0x3FF0000000000000).toModel.unpack =
      .finite .positive (2 ^ 52) (-52) (Nat.two_pow_pos 52) := by
    rfl
  rw [Float.ofNat]
  show (Float.ofScientific n false 0).toModel.unpack = _
  rw [Float.ofScientific, dif_pos ⟨hlt, by omega⟩]
  show (Float.Model.pack (UnpackedFloat.mul Format.binary64 n.toUInt64.toFloat.toModel.unpack
    (Float.ofBits 0x3FF0000000000000).toModel.unpack)).unpack = _
  rw [hone, unpack_toFloat hn h, mul_one_normal n (by omega)]
  exact unpack_pack_normal _ n (by omega) (by omega)

theorem ofScientific_eq_normal {n : Nat} (h : 52 < n.log2) :
    UnpackedFloat.ofScientific Format.binary64 n 0 = normal .positive (nearestNat n) 0 := by
  have hne : n ≠ 0 := by
    rintro rfl
    exact absurd h (by decide)
  have hlog : (n * 2 ^ 53).log2 = 52 + (n.log2 + 1) := by
    rw [log2_mul_two_pow hne]
    omega
  have hround : roundHalfEven (n * 2 ^ 53) (2 ^ (n.log2 + 1)) =
      roundHalfEven n (2 ^ (n.log2 - 52)) := by
    have hpow : 2 ^ (n.log2 + 1) = 2 ^ (n.log2 - 52) * 2 ^ 53 := by
      rw [← pow_add]
      congr 1
      omega
    rw [hpow, roundHalfEven_mul_mul_right (Nat.two_pow_pos 53)]
  have hexponents : (2 ^ Format.binary64.exponentBits : Int) = 2048 := by decide
  have hbits : Format.binary64.mantissaBits = 53 := rfl
  have hsign : Sign.positive * Sign.positive = .positive := rfl
  rw [UnpackedFloat.ofScientific, dif_neg hne, hexponents, if_neg (by omega), if_neg (by omega),
    if_pos le_rfl, UnpackedFloat.mul, hsign, hbits, Nat.shiftLeft_eq, Int.toNat_zero, pow_zero,
    mul_one, roundWithAccuracy_eq _ hlog (by omega), hround, nearestNat, normal_mul_two_pow]
  congr 1
  omega

theorem unpack_ofNat_of_lt {n : Nat} (h : 52 < n.log2) (hn : n.log2 < 1023) :
    (Float.ofNat n).toModel.unpack = normal .positive (nearestNat n) 0 := by
  have hge : ¬(n < 2 ^ 53 ∧ 0 ≤ 22) := by
    rintro ⟨hlt, -⟩
    have hlog := (Nat.log2_lt (k := 53) (n := n) (by rintro rfl; exact absurd h (by decide))).2 hlt
    omega
  have hnear := log2_nearestNat_le n
  show (Float.ofScientific n false 0).toModel.unpack = _
  rw [Float.ofScientific, dif_neg hge]
  show (Float.Model.pack (UnpackedFloat.ofScientific Format.binary64 n 0)).unpack = _
  rw [ofScientific_eq_normal h]
  exact unpack_pack_normal _ _ (by omega) (by omega)

/-- A natural number becomes the nearest one of 53 digits. -/
theorem unpack_ofNat {n : Nat} (h : n.log2 < 1023) :
    (Float.ofNat n).toModel.unpack = normal .positive (nearestNat n) 0 := by
  obtain hle | hlt := le_or_gt n.log2 52
  · rw [nearestNat_of_log2_le hle]
    by_cases hn : n = 0
    · subst hn
      rfl
    · exact unpack_ofNat_of_log2_le hn hle
  · exact unpack_ofNat_of_lt hlt h

/-- An integer as a floating-point number, if it has at most 53 digits. -/
def ofShort (n : Int) : UnpackedFloat := normal (if n < 0 then .negative else .positive) n.natAbs 0

theorem ofShort_natCast (n : Nat) : ofShort n = normal .positive n 0 := by
  rw [ofShort, if_neg (by omega), Int.natAbs_natCast]

theorem ofShort_neg_natCast {n : Nat} (hn : n ≠ 0) : ofShort (-n) = normal .negative n 0 := by
  rw [ofShort, if_pos (by omega), Int.natAbs_neg, Int.natAbs_natCast]

/-- An integer becomes the nearest one of 53 digits. -/
theorem unpack_ofInt {n : Int} (h : n.natAbs.log2 < 1023) :
    (Float.ofInt n).toModel.unpack = ofShort (nearestInt n) := by
  cases n with
  | ofNat n => exact (unpack_ofNat h).trans (ofShort_natCast _).symm
  | negSucc n =>
    have hne : n + 1 ≠ 0 := n.succ_ne_zero
    have hnear := log2_nearestNat_le (n + 1)
    have hlog : (n + 1).log2 < 1023 := h
    show (Float.Model.pack (Float.ofNat (n + 1)).toModel.unpack.neg).unpack = _
    rw [unpack_ofNat hlog, neg_normal, unpack_pack_normal _ _ (by omega) (by omega)]
    exact (ofShort_neg_natCast (nearestNat_pos hne).ne').symm

/-! ## Order -/

theorem short_natAbs_nearestInt (n : Int) : Short (nearestInt n).natAbs := by
  cases n with
  | ofNat n => exact short_nearestNat n
  | negSucc n =>
    rw [nearestInt, Int.natAbs_neg]
    exact short_nearestNat (n + 1)

/-- A smaller short number has fewer digits, or as many and a smaller significand. -/
theorem log2_lt_or_significand_lt {m n : Nat} (hm : m ≠ 0) (hn : Short n) (h : m < n) :
    m.log2 < n.log2 ∨
      m.log2 = n.log2 ∧ significand m < significand n := by
  have hle : m.log2 ≤ n.log2 := (Nat.le_log2 (by omega)).2 ((Nat.log2_self_le hm).trans h.le)
  obtain hlt | heq := hle.lt_or_eq
  · exact .inl hlt
  · refine .inr ⟨heq, ?_⟩
    have hdvd : 2 ^ n.log2 ∣ n * 2 ^ 52 := by
      have hshort : 2 ^ (n.log2 - 52) * 2 ^ 52 ∣ n * 2 ^ 52 := Nat.mul_dvd_mul_right hn _
      rw [← pow_add] at hshort
      exact (Nat.pow_dvd_pow 2 (by omega)).trans hshort
    rw [significand, significand, heq, Nat.div_lt_iff_lt_mul (Nat.two_pow_pos _),
      Nat.div_mul_cancel hdvd]
    exact Nat.mul_lt_mul_of_pos_right h (Nat.two_pow_pos 52)

/-- Exponents first, then significands: the order of the numbers. -/
theorem compare_exponent_then_significand {m n : Nat} (hm : m ≠ 0) (hn : n ≠ 0) (hsm : Short m)
    (hsn : Short n) :
    (compare ((0 : Int) + m.log2 - 52) (0 + n.log2 - 52)).then
      (compare (significand m) (significand n)) = compare m n := by
  obtain h | rfl | h := lt_trichotomy m n
  · rw [compare_lt_iff_lt.2 h]
    obtain hlog | ⟨hlog, hsig⟩ := log2_lt_or_significand_lt hm hsn h
    · rw [compare_lt_iff_lt.2 (by omega)]
      rfl
    · rw [compare_eq_iff_eq.2 (by omega), compare_lt_iff_lt.2 hsig]
      rfl
  · simp
  · rw [compare_gt_iff_gt.2 h]
    obtain hlog | ⟨hlog, hsig⟩ := log2_lt_or_significand_lt hn hsm h
    · rw [compare_gt_iff_gt.2 (by omega)]
      rfl
    · rw [compare_eq_iff_eq.2 (by omega), compare_gt_iff_gt.2 hsig]
      rfl

theorem ofShort_of_pos {n : Int} (h : 0 < n) :
    ofShort n = .finite .positive (significand n.natAbs) (0 + n.natAbs.log2 - 52)
      (significand_pos (by omega)) := by
  rw [ofShort, if_neg (by omega), normal_of_ne_zero _ (by omega)]

theorem ofShort_of_neg {n : Int} (h : n < 0) :
    ofShort n = .finite .negative (significand n.natAbs) (0 + n.natAbs.log2 - 52)
      (significand_pos (by omega)) := by
  rw [ofShort, if_pos h, normal_of_ne_zero _ (by omega)]

theorem compare_natAbs {a b : Int} (ha : 0 < a) (hb : 0 < b) :
    compare a.natAbs b.natAbs = compare a b := by
  obtain h | rfl | h := lt_trichotomy a b
  · rw [compare_lt_iff_lt.2 h, compare_lt_iff_lt.2 (by omega)]
  · simp
  · rw [compare_gt_iff_gt.2 h, compare_gt_iff_gt.2 (by omega)]

theorem swap_compare_natAbs {a b : Int} (ha : a < 0) (hb : b < 0) :
    (compare a.natAbs b.natAbs).swap = compare a b := by
  obtain h | rfl | h := lt_trichotomy a b
  · rw [compare_lt_iff_lt.2 h, compare_gt_iff_gt.2 (by omega)]
    rfl
  · simp
  · rw [compare_gt_iff_gt.2 h, compare_lt_iff_lt.2 (by omega)]
    rfl

/-- Short integers are ordered alike as floating-point numbers. -/
theorem compare_ofShort {a b : Int} (ha : Short a.natAbs) (hb : Short b.natAbs) :
    (ofShort a).compare (ofShort b) = some (compare a b) := by
  have hzero : ofShort 0 = .zero .positive := rfl
  obtain hn | rfl | hp := lt_trichotomy a 0
  · rw [ofShort_of_neg hn]
    obtain hn' | rfl | hp' := lt_trichotomy b 0
    · rw [ofShort_of_neg hn', UnpackedFloat.compare,
        compare_exponent_then_significand (by omega) (by omega) ha hb, swap_compare_natAbs hn hn']
    · rw [hzero, compare_lt_iff_lt.2 hn]
      rfl
    · rw [ofShort_of_pos hp', compare_lt_iff_lt.2 (hn.trans hp')]
      rfl
  · rw [hzero]
    obtain hn' | rfl | hp' := lt_trichotomy b 0
    · rw [ofShort_of_neg hn', compare_gt_iff_gt.2 hn']
      rfl
    · rfl
    · rw [ofShort_of_pos hp', compare_lt_iff_lt.2 hp']
      rfl
  · rw [ofShort_of_pos hp]
    obtain hn' | rfl | hp' := lt_trichotomy b 0
    · rw [ofShort_of_neg hn', compare_gt_iff_gt.2 (hn'.trans hp)]
      rfl
    · rw [hzero, compare_gt_iff_gt.2 hp]
      rfl
    · rw [ofShort_of_pos hp', UnpackedFloat.compare,
        compare_exponent_then_significand (by omega) (by omega) ha hb, compare_natAbs hp hp']

/-- Integers as floating-point numbers are compared as the nearest ones of 53 digits. -/
theorem compare_ofInt {a b : Int} (ha : a.natAbs.log2 < 1023) (hb : b.natAbs.log2 < 1023) :
    (Float.ofInt a).toModel.unpack.compare (Float.ofInt b).toModel.unpack =
      some (compare (nearestInt a) (nearestInt b)) := by
  rw [unpack_ofInt ha, unpack_ofInt hb]
  exact compare_ofShort (short_natAbs_nearestInt a) (short_natAbs_nearestInt b)

theorem ofInt_lt_iff {a b : Int} (ha : a.natAbs.log2 < 1023) (hb : b.natAbs.log2 < 1023) :
    Float.ofInt a < Float.ofInt b ↔ nearestInt a < nearestInt b := by
  have h := compare_ofInt ha hb
  have hlt : Float.ofInt a < Float.ofInt b ↔
      ((Float.ofInt a).toModel.unpack.compare (Float.ofInt b).toModel.unpack == some .lt) = true :=
    decide_eq_true_iff
  rw [hlt, h, beq_iff_eq, Option.some.injEq, compare_lt_iff_lt]

theorem ofInt_beq_iff {a b : Int} (ha : a.natAbs.log2 < 1023) (hb : b.natAbs.log2 < 1023) :
    (Float.ofInt a == Float.ofInt b) = true ↔ nearestInt a = nearestInt b := by
  have h := compare_ofInt ha hb
  have hbeq : (Float.ofInt a == Float.ofInt b) =
    ((Float.ofInt a).toModel.unpack.compare (Float.ofInt b).toModel.unpack == some .eq) := rfl
  rw [hbeq, h, beq_iff_eq, Option.some.injEq, compare_eq_iff_eq]

end GuardTree.Decimal
