/-
Widening and narrowing again.

A number of a narrower format is a number of the wider one, so that
widening it loses nothing and narrowing it again gives back its bits
(`narrow_widen`). NaNs are the exception: all of them become the one quiet
NaN. Hence a number that is rounded to a format has there the bits that it
had before (`narrow_roundTo`).

# The route

Widening moves the leading one of a significand into the hidden place and
the rest to the left end of the fraction (`ofBits_wideBits`). Rounding
there moves it back: the unit in the last place is the one that the number
had in its format, and in that unit it is a whole number (`roundBits_wide`).
-/
import Mathlib
import KnnOracle.Decimal.Narrow
import KnnOracle.Proofs.Decimal.Nearest

namespace KnnOracle.Decimal

open Float.Model Float.Model.UnpackedFloat

-- ========================================================== wide bits

/-- Bits that are not a NaN are those of the number that they make. The bits of
a NaN are not kept. -/
theorem toBits_ofBits {bits : UInt64} (h : Magnitude.ofBits bits ≠ .nan) :
    (Float.ofBits bits).toBits = bits := by
  have hnumber : ¬@isNaNBits Format.binary64 bits.toBitVec = true := by
    unfold isNaNBits
    rw [decide_eq_true_eq]
    rintro ⟨hexponent, hmantissa⟩
    have hfield : bits.toNat / 2 ^ 52 % 2 ^ 11 = 2047 :=
      (toNat_unpackExponent bits.toBitVec).symm.trans
        (congrArg BitVec.toNat hexponent)
    have hfraction : bits.toNat % 2 ^ 52 ≠ 0 := fun hzero =>
      hmantissa
        (BitVec.toNat_inj.mp
          ((toNat_unpackMantissa bits.toBitVec).trans hzero))
    unfold Magnitude.ofBits at h
    dsimp only at h
    rw [if_pos hfield, if_neg hfraction] at h
    exact h rfl
  apply UInt64.toBitVec_inj.mp
  exact (@pack_unpack Format.binary64 bits.toBitVec (by decide)).trans
    (if_neg hnumber)

theorem ofBits_fields {s field fraction : Nat} (hs : s < 2)
    (hfield : field < 2 ^ 11) (hfraction : fraction < 2 ^ 52) :
    Magnitude.ofBits (UInt64.ofNat (s * 2 ^ 63 + (field * 2 ^ 52 + fraction)))
      = if field = 2047 then if fraction = 0 then .infinite else .nan
        else if field = 0 then .finite ⟨fraction, -1074⟩
        else .finite ⟨fraction + 2 ^ 52, (field : Int) - 1075⟩ := by
  have hnat : (UInt64.ofNat (s * 2 ^ 63 + (field * 2 ^ 52 + fraction))).toNat
      = s * 2 ^ 63 + (field * 2 ^ 52 + fraction) :=
        UInt64.toNat_ofNat_of_lt' (by
    change _ < 2 ^ 64
    omega)
  have hlow : (s * 2 ^ 63 + (field * 2 ^ 52 + fraction)) % 2 ^ 52
      = fraction := by omega
  have hhigh : (s * 2 ^ 63 + (field * 2 ^ 52 + fraction)) / 2 ^ 52 % 2 ^ 11
      = field := by omega
  unfold Magnitude.ofBits
  simp only [hnat, hlow, hhigh]

theorem isNegative_ofBits {s rest : Nat} (hs : s < 2) (hrest : rest < 2 ^ 63)
    (h : Magnitude.ofBits (UInt64.ofNat (s * 2 ^ 63 + rest)) ≠ .nan) :
    isNegative (Float.ofBits (UInt64.ofNat (s * 2 ^ 63 + rest)))
      = decide (s = 1) := by
  have hnat : (UInt64.ofNat (s * 2 ^ 63 + rest)).toNat = s * 2 ^ 63 + rest :=
    UInt64.toNat_ofNat_of_lt' (by
      change _ < 2 ^ 64
      omega)
  unfold isNegative
  rw [toBits_ofBits h]
  apply decide_eq_decide.mpr
  show (9223372036854775808 : UInt64) ≤ _ ↔ _
  rw [UInt64.le_iff_toNat_le, hnat]
  change 2 ^ 63 ≤ _ ↔ _
  omega

namespace BinaryFormat

variable {f : BinaryFormat}

/-- The format has fewer bits for the fraction and fewer for the exponent
than a binary64. -/
structure IsNarrower (f : BinaryFormat) : Prop where
  fraction_pos : 0 < f.fractionBits
  fraction : f.fractionBits < 52
  exponent_pos : 0 < f.exponentBits
  exponent : f.exponentBits ≤ 10

/-- All that is used of binary32 is that it is narrower. The argument is the
same for 16 bits. -/
theorem isNarrower_binary32 : binary32.IsNarrower :=
  ⟨by decide, by decide, by decide, by decide⟩

/-- The bits of a NaN of the format. -/
def IsNaNBits (f : BinaryFormat) (bits : Nat) : Prop :=
  bits / 2 ^ f.fractionBits % 2 ^ f.exponentBits = f.topField ∧
    bits % 2 ^ f.fractionBits ≠ 0

private theorem widen_of_isNaNBits {bits : Nat} (h : f.IsNaNBits bits) :
    f.widen bits = notANumber := by
  unfold widen
  dsimp only
  rw [if_pos h.1, if_neg h.2]

-- =================================================== one number, twice

/-- The leading one of a significand goes into the hidden place, so that a
subnormal number is a normal one in the wider format. -/
theorem ofBits_wideBits {s m : Nat} {e : Int} (hs : s < 2) (hpos : 0 < m)
    (hlt : m < 2 ^ 53) (hlow : -1022 ≤ e + m.log2)
    (hhigh : e + m.log2 ≤ 1023) :
    wideBits m e < 2 ^ 63 ∧ Magnitude.ofBits
      (UInt64.ofNat (s * 2 ^ 63 + wideBits m e))
      = .finite ⟨m * 2 ^ (52 - m.log2), e + m.log2 - 52⟩ := by
  have hlog : m.log2 < 53 := (Nat.log2_lt hpos.ne').mpr hlt
  have hfirst : 2 ^ m.log2 ≤ m := Nat.log2_self_le hpos.ne'
  have hwhole : 2 ^ m.log2 * 2 ^ (52 - m.log2) = 2 ^ 52 := by
    rw [← pow_add]
    congr 1
    omega
  have hsplit : (m - 2 ^ m.log2) * 2 ^ (52 - m.log2) + 2 ^ 52
      = m * 2 ^ (52 - m.log2) := by
    rw [← hwhole, ← Nat.add_mul, Nat.sub_add_cancel hfirst]
  have hfraction : m * 2 ^ (52 - m.log2) < 2 ^ 53 :=
    (canonical_wholeDyadic hpos hlt).1.small
  have hbits : wideBits m e
      = (e + m.log2 + 1023).toNat * 2 ^ 52 + (m - 2 ^ m.log2)
        * 2 ^ (52 - m.log2) := by
    unfold wideBits
    rw [if_neg hpos.ne']
  rw [hbits]
  generalize (m - 2 ^ m.log2) * 2 ^ (52 - m.log2) = fraction at hsplit ⊢
  refine ⟨by omega, ?_⟩
  rw [ofBits_fields hs (by omega) (by omega), if_neg (by omega),
    if_neg (by omega), hsplit]
  congr 2
  omega

/-- Rounded to its format, a widened number has the significand and the
exponent that it had there. -/
theorem roundBits_wide (hf : f.IsNarrower) {m : Nat} {e : Int} (hpos : 0 < m)
    (hlog : m.log2 ≤ f.fractionBits) (hleast : f.leastExponent ≤ e)
    (hfull : m.log2 = f.fractionBits ∨ e = f.leastExponent) :
    f.roundBits ⟨m * 2 ^ (52 - m.log2), e + m.log2 - 52⟩
      = min ((e - f.leastExponent).toNat * 2 ^ f.fractionBits + m)
        f.infinityBits := by
  have hfraction := hf.fraction
  have hlt : m < 2 ^ 53 := (Nat.log2_lt hpos.ne').mp (by omega)
  obtain ⟨hwhole, hlow⟩ := canonical_wholeDyadic hpos hlt
  have hwide : (m * 2 ^ (52 - m.log2)).log2 = 52 :=
    (Nat.log2_eq_iff hwhole.pos.ne').mpr ⟨hlow, hwhole.small⟩
  have hunit :
      max (e + m.log2 - 52 + ((52 : Nat) : Int) - (f.fractionBits : Int))
        f.leastExponent
      = e := by omega
  have hshift : (e - (e + m.log2 - 52)).toNat = 52 - m.log2 := by omega
  have hround : Fraction.round .toEven
      ⟨m * 2 ^ (52 - m.log2), 2 ^ (52 - m.log2)⟩ = m := by
    have hpower : 0 < 2 ^ (52 - m.log2) := by positivity
    generalize 2 ^ (52 - m.log2) = power at hpower ⊢
    rw [Nat.mul_comm m]
    exact Fraction.round_toEven_eq hpower (by omega) (by omega) fun _ => by
      omega
  unfold roundBits
  dsimp only
  rw [hwide, hunit, if_neg (by omega), hshift, hround]

/-- The bits of the nearest number of the format, without its sign. -/
def sizeBits (f : BinaryFormat) : Magnitude → Nat
  | .nan => f.quietBits
  | .infinite => f.infinityBits
  | .finite d => if d.significand = 0 then 0 else f.roundBits d

private theorem narrow_eq {x : Float} (h : Magnitude.ofFloat x ≠ .nan) :
    f.narrow x
      = (if isNegative x then 2 ^ (f.fractionBits + f.exponentBits) else 0)
      + f.sizeBits (Magnitude.ofFloat x) := by
  unfold narrow
  cases hx : Magnitude.ofFloat x with
  | nan => exact absurd hx h
  | infinite => rfl
  | finite d =>
      unfold sizeBits
      by_cases hzero : d.significand = 0
      · simp only [if_pos hzero, Nat.add_zero]
      · simp only [if_neg hzero]

/-- What a number is narrowed to, from its bits. -/
theorem narrow_ofBits {s rest : Nat} {size : Magnitude} (hs : s < 2)
    (hrest : rest < 2 ^ 63)
    (hsize : Magnitude.ofBits (UInt64.ofNat (s * 2 ^ 63 + rest)) = size)
    (hne : size ≠ .nan) :
    f.narrow (Float.ofBits (UInt64.ofNat (s * 2 ^ 63 + rest)))
      = s * 2 ^ (f.fractionBits + f.exponentBits) + f.sizeBits size := by
  subst hsize
  have hsame : Magnitude.ofFloat
      (Float.ofBits (UInt64.ofNat (s * 2 ^ 63 + rest)))
      = Magnitude.ofBits (UInt64.ofNat (s * 2 ^ 63 + rest)) :=
    congrArg Magnitude.ofBits (toBits_ofBits hne)
  have hsign :
      (if decide (s = 1) = true then
      2 ^ (f.fractionBits + f.exponentBits) else 0)
      = s * 2 ^ (f.fractionBits + f.exponentBits) := by
    obtain rfl | rfl : s = 0 ∨ s = 1 := by omega
    · simp
    · simp
  rw [narrow_eq (by rwa [hsame]), hsame, isNegative_ofBits hs hrest hne, hsign]

/-- The bias of a narrower format is less than that of the wider one. -/
private theorem two_pow_exponentBits (hf : f.IsNarrower) :
    2 ^ f.exponentBits = 2 * 2 ^ (f.exponentBits - 1) ∧
      2 ^ (f.exponentBits - 1) ≤ 2 ^ 9 := by
  have hpos := hf.exponent_pos
  have hle := hf.exponent
  constructor
  · rw [← Nat.pow_succ']
    congr 1
    omega
  · exact Nat.pow_le_pow_right (by omega) (by omega)

theorem fields_eq (f : BinaryFormat) (bits : Nat) :
    bits / 2 ^ (f.fractionBits + f.exponentBits)
      * 2 ^ (f.fractionBits + f.exponentBits)
      + (bits / 2 ^ f.fractionBits % 2 ^ f.exponentBits * 2 ^ f.fractionBits
        + bits % 2 ^ f.fractionBits) = bits := by
  have hlow := Nat.div_add_mod bits (2 ^ f.fractionBits)
  have hhigh :=
    Nat.div_add_mod (bits / 2 ^ f.fractionBits) (2 ^ f.exponentBits)
  rw [Nat.div_div_eq_div_mul, ← pow_add] at hhigh
  rw [pow_add] at hhigh ⊢
  calc _ = 2 ^ f.fractionBits * (2 ^ f.exponentBits
          * (bits / (2 ^ f.fractionBits * 2 ^ f.exponentBits))
          + bits / 2 ^ f.fractionBits % 2 ^ f.exponentBits) + bits
            % 2 ^ f.fractionBits := by ring
    _ = bits := by rw [hhigh, hlow]

private theorem narrow_infinity {s : Nat} (hs : s < 2) :
    f.narrow (Float.ofBits (UInt64.ofNat (s * 2 ^ 63 + 0x7FF0000000000000)))
      = s * 2 ^ (f.fractionBits + f.exponentBits) + f.infinityBits := by
  have hsize := @ofBits_fields s 2047 0 hs (by omega) (by omega)
  have hnumber : 2047 * 2 ^ 52 + 0 = 0x7FF0000000000000 := by norm_num
  rw [if_pos rfl, if_pos rfl, hnumber] at hsize
  exact narrow_ofBits hs (by omega) hsize (by simp)

private theorem narrow_zero {s : Nat} (hs : s < 2) (e : Int) :
    f.narrow (Float.ofBits (UInt64.ofNat (s * 2 ^ 63 + wideBits 0 e)))
      = s * 2 ^ (f.fractionBits + f.exponentBits) := by
  have hsize := @ofBits_fields s 0 0 hs (by omega) (by omega)
  rw [if_neg (by omega), if_pos rfl, Nat.zero_mul] at hsize
  rw [wideBits, if_pos rfl, narrow_ofBits hs (by omega) hsize (by simp),
    sizeBits, if_pos rfl, Nat.add_zero]

/-- A number that came from the narrower format is found again: its unit there
is the one that it is rounded to, so nothing is cut off. -/
private theorem narrow_wideBits (hf : f.IsNarrower) {s m : Nat} {e : Int}
    (hs : s < 2) (hpos : 0 < m) (hlog : m.log2 ≤ f.fractionBits)
    (hleast : f.leastExponent ≤ e)
    (hfull : m.log2 = f.fractionBits ∨ e = f.leastExponent)
    (hlow : -1022 ≤ e + m.log2) (hhigh : e + m.log2 ≤ 1023) :
    f.narrow (Float.ofBits (UInt64.ofNat (s * 2 ^ 63 + wideBits m e)))
      = s * 2 ^ (f.fractionBits + f.exponentBits)
        + min ((e - f.leastExponent).toNat * 2 ^ f.fractionBits + m)
          f.infinityBits := by
  have hfraction := hf.fraction
  obtain ⟨hrest, hsize⟩ :=
    ofBits_wideBits hs hpos ((Nat.log2_lt hpos.ne').mp (by omega)) hlow hhigh
  have hsignificand : m * 2 ^ (52 - m.log2) ≠ 0 := by positivity
  rw [narrow_ofBits hs hrest hsize (by simp), sizeBits, if_neg hsignificand,
    roundBits_wide hf hpos hlog hleast hfull]

/-- The significand that fields stand for: without a hidden one in the
lowest field, and with it in every other. -/
theorem significand_cases {p field fraction : Nat}
    (hfraction : fraction < 2 ^ p) (hpos : ¬(field = 0 ∧ fraction = 0)) :
    ∃ m, (if field = 0 then fraction else fraction + 2 ^ p) = m ∧ 0 < m ∧
      m.log2 ≤ p ∧
      (m.log2 = p ∨ field = 0) ∧
      (field - 1) * 2 ^ p + m = field * 2 ^ p + fraction := by
  by_cases hfield : field = 0
  · refine ⟨fraction, if_pos hfield, by omega, ?_, Or.inr hfield,
      by rw [hfield]⟩
    exact ((Nat.log2_lt (by omega)).mpr hfraction).le
  · have hlog : (fraction + 2 ^ p).log2 = p :=
      (Nat.log2_eq_iff (by omega)).mpr ⟨by omega, by rw [pow_succ]; omega⟩
    refine ⟨fraction + 2 ^ p, if_neg hfield, by omega, hlog.le,
      Or.inl hlog, ?_⟩
    obtain ⟨k, rfl⟩ : ∃ k, field = k + 1 := ⟨field - 1, by omega⟩
    rw [Nat.add_sub_cancel, Nat.succ_mul]
    omega

/-- A number of the format is narrowed to the bits that it was widened from. So
nothing is lost by computing with wider numbers in between. -/
theorem narrow_widen (hf : f.IsNarrower) {bits : Nat}
    (hlt : bits < 2 * 2 ^ (f.fractionBits + f.exponentBits))
    (h : ¬f.IsNaNBits bits) :
    f.narrow (f.widen bits) = bits := by
  have hs : bits / 2 ^ (f.fractionBits + f.exponentBits) < 2 :=
    (Nat.div_lt_iff_lt_mul (by positivity)).mpr hlt
  have hfields := fields_eq f bits
  have hfield : bits / 2 ^ f.fractionBits % 2 ^ f.exponentBits
      < 2 ^ f.exponentBits :=
    Nat.mod_lt _ (by positivity)
  have hfraction : bits % 2 ^ f.fractionBits < 2 ^ f.fractionBits :=
    Nat.mod_lt _ (by positivity)
  unfold IsNaNBits at h
  unfold widen
  dsimp only
  rw [Nat.mod_eq_of_lt hs]
  generalize bits / 2 ^ (f.fractionBits + f.exponentBits) = s at hs hfields ⊢
  generalize bits / 2 ^ f.fractionBits % 2 ^ f.exponentBits = field
    at hfield h hfields ⊢
  generalize bits % 2 ^ f.fractionBits = fraction at hfraction h hfields ⊢
  subst hfields
  have htop : f.topField = 2 ^ f.exponentBits - 1 := rfl
  have hinfinity : f.infinityBits = f.topField * 2 ^ f.fractionBits := rfl
  by_cases hspecial : field = f.topField
  · have hzero : fraction = 0 := by
      by_contra hne
      exact h ⟨hspecial, hne⟩
    rw [if_pos hspecial, if_pos hzero, narrow_infinity hs, hinfinity,
      hspecial, hzero, Nat.add_zero]
  rw [if_neg hspecial]
  by_cases hzero : field = 0 ∧ fraction = 0
  · obtain ⟨rfl, rfl⟩ := hzero
    rw [if_pos rfl, narrow_zero hs, Nat.zero_mul]
    rfl
  obtain ⟨m, hm, hpos, hlog, hfull, hunits⟩ :=
    significand_cases hfraction hzero
  obtain ⟨hpower, hhalf⟩ := two_pow_exponentBits hf
  have hleast : f.leastExponent
      = 2 - ((2 ^ (f.exponentBits - 1) : Nat) : Int)
        - (f.fractionBits : Int) := rfl
  have hbits := hf.fraction
  have hplace :
      (f.leastExponent + ((field - 1 : Nat) : Int) - f.leastExponent).toNat
        = field - 1 := by
    omega
  -- below the infinity, nothing is cut off
  have hfinite : field * 2 ^ f.fractionBits + fraction ≤ f.infinityBits := by
    have hnext :=
      Nat.mul_le_mul_right (2 ^ f.fractionBits)
        (show field + 1 ≤ f.topField by omega)
    rw [Nat.succ_mul] at hnext
    omega
  rw [hm, narrow_wideBits hf hs hpos hlog (by omega) (by omega) (by omega)
    (by omega), hplace, hunits, Nat.min_eq_left hfinite]

-- ============================================================= rounding

private theorem sizeBits_le {size : Magnitude} (h : size ≠ .nan) :
    f.sizeBits size ≤ f.infinityBits := by
  cases size with
  | nan => exact absurd rfl h
  | infinite => exact le_rfl
  | finite d =>
      by_cases hzero : d.significand = 0
      · rw [sizeBits, if_pos hzero]
        exact Nat.zero_le _
      · rw [sizeBits, if_neg hzero]
        exact Nat.min_le_right _ _

private theorem infinityBits_lt (f : BinaryFormat) :
    f.infinityBits < 2 ^ (f.fractionBits + f.exponentBits) := by
  have htop : f.topField < 2 ^ f.exponentBits :=
    Nat.sub_lt (by positivity) Nat.one_pos
  rw [infinityBits, pow_add, Nat.mul_comm]
  exact Nat.mul_lt_mul_of_pos_left htop (by positivity)

private theorem narrow_lt {x : Float} (h : Magnitude.ofFloat x ≠ .nan) :
    f.narrow x < 2 * 2 ^ (f.fractionBits + f.exponentBits) := by
  have hsize : f.sizeBits (Magnitude.ofFloat x) ≤ f.infinityBits :=
    sizeBits_le h
  have hinfinity := f.infinityBits_lt
  rw [narrow_eq h]
  split <;> omega

/-- What is narrowed has the bits of a NaN only if it is one: rounding up may
end at the infinity, and goes no further. -/
theorem not_isNaNBits_narrow {x : Float} (h : Magnitude.ofFloat x ≠ .nan) :
    ¬f.IsNaNBits (f.narrow x) := by
  have hsize : f.sizeBits (Magnitude.ofFloat x) ≤ f.infinityBits :=
    sizeBits_le h
  have hpower : 0 < 2 ^ f.fractionBits := by positivity
  have htop : f.topField < 2 ^ f.exponentBits :=
    Nat.sub_lt (by positivity) Nat.one_pos
  obtain ⟨s, hs⟩ : ∃ s,
    (if isNegative x then 2 ^ (f.fractionBits + f.exponentBits) else 0)
      = s * 2 ^ f.exponentBits * 2 ^ f.fractionBits := by
    by_cases hsign : isNegative x = true
    · exact ⟨1, by rw [if_pos hsign, pow_add]; ring⟩
    · exact ⟨0, by rw [if_neg hsign]; ring⟩
  rw [narrow_eq h, hs]
  generalize f.sizeBits (Magnitude.ofFloat x) = size at hsize
  rintro ⟨hfield, hfraction⟩
  have hquotient : size / 2 ^ f.fractionBits ≤ f.topField :=
    Nat.div_le_of_le_mul (by rwa [Nat.mul_comm])
  rw [Nat.add_comm, Nat.add_mul_div_right _ _ hpower,
    Nat.add_mul_mod_self_right, Nat.mod_eq_of_lt (by omega)] at hfield
  rw [Nat.add_comm, Nat.add_mul_mod_self_right] at hfraction
  -- the fields of all ones are those of the infinity
  have hsplit := Nat.div_add_mod size (2 ^ f.fractionBits)
  have hinfinity : f.infinityBits = 2 ^ f.fractionBits * f.topField :=
    Nat.mul_comm _ _
  rw [hfield] at hsplit
  omega

private theorem isNaNBits_quietBits (hf : f.IsNarrower) :
    f.IsNaNBits f.quietBits := by
  have hpower : 2 ^ f.fractionBits = 2 * 2 ^ (f.fractionBits - 1) := by
    have hpos := hf.fraction_pos
    rw [← Nat.pow_succ']
    congr 1
    omega
  have hhalf : 0 < 2 ^ (f.fractionBits - 1) := by positivity
  have htop : f.topField < 2 ^ f.exponentBits :=
    Nat.sub_lt (by positivity) Nat.one_pos
  have hbits : f.quietBits
      = 2 ^ (f.fractionBits - 1) + f.topField * 2 ^ f.fractionBits :=
    Nat.add_comm _ _
  constructor
  · rw [hbits, Nat.add_mul_div_right _ _ (by omega),
      Nat.div_eq_of_lt (by omega), Nat.zero_add, Nat.mod_eq_of_lt htop]
  · rw [hbits, Nat.add_mul_mod_self_right, Nat.mod_eq_of_lt (by omega)]
    omega

/-- Rounding to the format does not change the bits there. A file that was read
and written again is the same by this. -/
theorem narrow_roundTo (hf : f.IsNarrower) (x : Float) :
    f.narrow (f.roundTo x) = f.narrow x := by
  unfold roundTo
  by_cases h : Magnitude.ofFloat x = .nan
  · have hquiet : f.narrow x = f.quietBits := by
      unfold narrow
      rw [h]
    have hnan : Magnitude.ofFloat notANumber = .nan := by decide
    rw [hquiet, widen_of_isNaNBits (isNaNBits_quietBits hf)]
    unfold narrow
    rw [hnan]
  · exact narrow_widen hf (narrow_lt h) (not_isNaNBits_narrow h)

/-- Bits of a NaN are widened to a NaN. -/
theorem isNaN_widen {bits : Nat} (h : f.IsNaNBits bits) :
    (f.widen bits).isNaN = true := by
  rw [widen_of_isNaNBits h]
  decide

end BinaryFormat

end KnnOracle.Decimal
