/-
The parts of a number.

A binary64 is opened in two ways: into a sign, a significand and an
exponent by what computes with it, and into a dyadic by what prints it.
Both find the same parts (`unpack_of_finite`), and those of a finite
number are canonical. Put together again, canonical parts make a number
with just these parts (`unpack_pack`), so that negating a number changes
its sign alone (`neg_pack`).
-/
import Mathlib
import KnnOracle.Proofs.Decimal.Rounding

namespace KnnOracle.Decimal

open Float.Model Float.Model.UnpackedFloat

-- =============================================================== fields

/-- The bits of a number are cut into three fields. The fraction is the lowest
of them. -/
theorem toNat_unpackMantissa (b : BitVec 64) :
    (@unpackMantissa Format.binary64 b).toNat = b.toNat % 2 ^ 52 := by
  simp [unpackMantissa_def]

/-- The exponent stands over the fraction and has eleven bits. -/
theorem toNat_unpackExponent (b : BitVec 64) :
    (@unpackExponent Format.binary64 b).toNat = b.toNat / 2 ^ 52 % 2 ^ 11 := by
  simp [unpackExponent_def, Nat.shiftRight_eq_div_pow]

private theorem toNat_unpackSign (b : BitVec 64) :
    (@unpackSign Format.binary64 b).toNat = b.toNat / 2 ^ 63 := by
  have hlt : b.toNat < 2 ^ 64 := b.isLt
  simp [unpackSign_def, Nat.shiftRight_eq_div_pow]
  omega

/-- The hidden one stands in front of the fraction, and adds the power of two
of its place. -/
theorem toNat_hidden_append (v : BitVec 52) :
    (1#1 ++ v).toNat = v.toNat + 2 ^ 52 := by
  rw [BitVec.toNat_append, ← Nat.shiftLeft_add_eq_or_of_lt v.isLt,
    Nat.add_comm]
  rfl

/-- The sign of a number, zeros included. -/
def signOf (x : Float) : Sign := if isNegative x then .negative else .positive

private theorem ofBitVec_unpackSign (x : Float) :
    Sign.ofBitVec (@unpackSign Format.binary64 x.toBits.toBitVec)
      = signOf x := by
  have hsign := toNat_unpackSign x.toBits.toBitVec
  have hlt := x.toBits.toNat_lt
  have hzero : @unpackSign Format.binary64 x.toBits.toBitVec = 0#1
      ↔ ¬x.toBits ≥ 0x8000000000000000 := by
    rw [← BitVec.toNat_inj, hsign]
    simp [UInt64.le_iff_toNat_le]
  unfold Sign.ofBitVec signOf isNegative
  by_cases h : x.toBits ≥ 0x8000000000000000
  · simp [hzero, h]
  · simp [hzero, h]

-- ========================================================= finite numbers

/-- Two finite numbers are equal if their parts are. The proof that a
significand is not zero does not count. -/
theorem finite_congr {s s' : Sign} {m m' : Nat} {e e' : Int} {h : 0 < m}
    {h' : 0 < m'} (hs : s = s') (hm : m = m') (he : e = e') :
    UnpackedFloat.finite s m e h = UnpackedFloat.finite s' m' e' h' := by
  subst hs hm he
  rfl

/-- What a number is made of, read off its bits. The library defines it with
bit vectors, and everything that follows uses the arithmetic form. -/
theorem unpack_eq (x : Float) :
    x.toModel.unpack
      = match Magnitude.ofFloat x with
        | .nan => .notANumber
        | .infinite => .infinity (signOf x)
        | .finite d =>
            if h : 0 < d.significand then
              .finite (signOf x) d.significand d.exponent h
            else .zero (signOf x) := by
  have hmantissa : (@unpackMantissa Format.binary64 x.toBits.toBitVec).toNat
      = x.toBits.toNat % 2 ^ 52 := toNat_unpackMantissa x.toBits.toBitVec
  have hexponent : (@unpackExponent Format.binary64 x.toBits.toBitVec).toNat
      = x.toBits.toNat / 2 ^ 52 % 2 ^ 11 :=
        toNat_unpackExponent x.toBits.toBitVec
  have htop : @unpackExponent Format.binary64 x.toBits.toBitVec = -1#11
      ↔ x.toBits.toNat / 2 ^ 52 % 2 ^ 11 = 2047 := by
    rw [← BitVec.toNat_inj, hexponent]
    rfl
  have hbottom : @unpackExponent Format.binary64 x.toBits.toBitVec = 0#11
      ↔ x.toBits.toNat / 2 ^ 52 % 2 ^ 11 = 0 := by
    rw [← BitVec.toNat_inj, hexponent]
    rfl
  have hnone : @unpackMantissa Format.binary64 x.toBits.toBitVec = 0#52
      ↔ x.toBits.toNat % 2 ^ 52 = 0 := by
    rw [← BitVec.toNat_inj, hmantissa]
    rfl
  have hsign := ofBitVec_unpackSign x
  change UnpackedFloat.unpack Format.binary64 x.toBits.toBitVec = _
  unfold Magnitude.ofFloat Magnitude.ofBits
  dsimp only
  fun_cases UnpackedFloat.unpack Format.binary64 x.toBits.toBitVec with
  | case1 mantissa exponent _ _ hfield hfraction =>
      rw [if_pos (htop.mp hfield), if_pos (hnone.mp hfraction)]
      exact congrArg UnpackedFloat.infinity hsign
  | case2 mantissa exponent hfield hfraction =>
      rw [if_pos (htop.mp hfield), if_neg (mt hnone.mpr hfraction)]
  | case3 mantissa exponent _ _ hfield hfield' hfraction =>
      have hzero := hnone.mp hfraction
      rw [if_neg (mt htop.mpr hfield), if_pos (hbottom.mp hfield'), hzero]
      exact congrArg UnpackedFloat.zero hsign
  | case4 mantissa exponent power _ _ hfield hfield' hfraction =>
      have hpos : 0 < x.toBits.toNat % 2 ^ 52 :=
        Nat.pos_of_ne_zero (mt hnone.mpr hfraction)
      have hpower : power + 1 = -1074 := by
        have hnat : exponent.toNat = 0 := congrArg BitVec.toNat hfield'
        show (exponent.toNat : Int) - 1075 + 1 = -1074
        omega
      rw [if_neg (mt htop.mpr hfield), if_pos (hbottom.mp hfield')]
      exact (finite_congr hsign hmantissa hpower).trans (dif_pos hpos).symm
  | case5 mantissa exponent power _ _ hfield hfield' =>
      have hpos : 0 < x.toBits.toNat % 2 ^ 52 + 2 ^ 52 := by omega
      have hlong : (1#1 ++ mantissa).toNat = x.toBits.toNat
          % 2 ^ 52 + 2 ^ 52 :=
        (toNat_hidden_append mantissa).trans (congrArg (· + 2 ^ 52) hmantissa)
      have hpower : power = ((x.toBits.toNat / 2 ^ 52 % 2 ^ 11 : Nat) : Int)
          - 1075 := by
        rw [← hexponent]
        rfl
      rw [if_neg (mt htop.mpr hfield), if_neg (mt hbottom.mpr hfield')]
      exact (finite_congr hsign hlong hpower).trans (dif_pos hpos).symm

/-- The parts of a finite number. -/
theorem unpack_of_finite {x : Float} {d : Dyadic}
    (h : Magnitude.ofFloat x = .finite d) (hpos : 0 < d.significand) :
    x.toModel.unpack = .finite (signOf x) d.significand d.exponent hpos := by
  rw [unpack_eq, h]
  exact dif_pos hpos

/-- What counts as finite has a dyadic for its size. -/
theorem finite_of_isFinite {x : Float} (h : x.isFinite = true) :
    ∃ d, Magnitude.ofFloat x = .finite d := by
  change x.toModel.unpack.isFinite = true at h
  rw [unpack_eq] at h
  cases hm : Magnitude.ofFloat x with
  | finite d => exact ⟨d, rfl⟩
  | nan =>
      rw [hm] at h
      cases h
  | infinite =>
      rw [hm] at h
      cases h

/-- The parts of a finite number are canonical, and its exponent is not too
large. This is what the laws of rounding ask for. -/
theorem canonical_of_finite {x : Float} {d : Dyadic}
    (h : Magnitude.ofFloat x = .finite d) (hpos : 0 < d.significand) :
    d.Canonical ∧ d.exponent ≤ 971 := by
  unfold Magnitude.ofFloat Magnitude.ofBits at h
  dsimp only at h
  split at h
  · split at h <;> cases h
  split at h
  · cases h
    exact ⟨⟨hpos, by dsimp only; omega, le_rfl, .inr rfl⟩,
      by dsimp only; omega⟩
  · cases h
    refine ⟨⟨hpos, ?_, ?_, .inl ?_⟩, ?_⟩ <;> dsimp only <;> omega

-- ============================================================== packing

/-- A full significand loses its leading one when it is packed and gets it back
when it is opened. -/
private theorem unpack_packed_normal (s : Sign) {m : Nat} {e : Int}
    (hlow : 2 ^ 52 ≤ m) (hhigh : m < 2 ^ 53) (he : -1074 ≤ e) (he' : e ≤ 971) :
    UnpackedFloat.unpack Format.binary64
        (packComponents Format.binary64 s (.ofNat 11 (e + 1075).toNat)
          (.ofNat 52 m))
      = .finite s m e (by omega) := by
  have hexponent : (BitVec.ofNat 11 (e + 1075).toNat).toNat
      = (e + 1075).toNat :=
    Nat.mod_eq_of_lt (by omega)
  have hmantissa : (BitVec.ofNat 52 m).toNat = m - 2 ^ 52 := by
    rw [BitVec.toNat_ofNat]
    omega
  have htop : BitVec.ofNat 11 (e + 1075).toNat ≠ -1#11 := by
    rw [ne_eq, ← BitVec.toNat_inj, hexponent]
    change ¬(e + 1075).toNat = 2047
    omega
  have hbottom : BitVec.ofNat 11 (e + 1075).toNat ≠ 0#11 := by
    rw [ne_eq, ← BitVec.toNat_inj, hexponent]
    change ¬(e + 1075).toNat = 0
    omega
  unfold UnpackedFloat.unpack
  simp only [unpackExponent_packComponents, unpackMantissa_packComponents,
    unpackSign_packComponents, Sign.ofBitVec_toBitVec]
  rw [if_neg htop, if_neg hbottom]
  refine finite_congr rfl ?_ ?_
  · have := toNat_hidden_append (.ofNat 52 m)
    omega
  · change ((BitVec.ofNat 11 (e + 1075).toNat).toNat : Int) - 1075 = e
    omega

/-- A significand that is not full has the least exponent, for which nothing is
hidden. -/
private theorem unpack_packed_subnormal (s : Sign) {m : Nat} (hpos : 0 < m)
    (hlt : m < 2 ^ 52) :
    UnpackedFloat.unpack Format.binary64
      (packComponents Format.binary64 s 0#11 (.ofNat 52 m))
      = .finite s m (-1074) hpos := by
  have hmantissa : (BitVec.ofNat 52 m).toNat = m := Nat.mod_eq_of_lt hlt
  have htop : (0#11 : BitVec 11) ≠ -1#11 := by decide
  have hne : BitVec.ofNat 52 m ≠ 0#52 := by
    rw [ne_eq, ← BitVec.toNat_inj, hmantissa]
    change ¬m = 0
    omega
  unfold UnpackedFloat.unpack
  simp only [unpackExponent_packComponents, unpackMantissa_packComponents,
    unpackSign_packComponents, Sign.ofBitVec_toBitVec]
  rw [if_neg htop, if_pos trivial, dif_neg hne]
  exact finite_congr rfl hmantissa rfl

/-- Canonical parts make a number with these parts. So the result of an
operation is known as soon as its rounded parts are. -/
theorem unpack_pack {d : Dyadic} (hd : d.Canonical) (hle : d.exponent ≤ 971)
    (s : Sign) :
    (Float.Model.pack (.finite s d.significand d.exponent hd.pos)).unpack
      = .finite s d.significand d.exponent hd.pos := by
  have hleast := hd.least
  have hsmall := hd.small
  have hfield : (d.exponent + (Format.binary64.exponentBias : Int)
      + (Format.binary64.mantissaBitsWithoutImplicit : Int)).toNat
        = (d.exponent + 1075).toNat := by
    change (d.exponent + 1023 + 52).toNat = _
    omega
  have hbound : ¬2 ^ Format.binary64.exponentBits
      ≤ (d.exponent + 1075).toNat + 1 := by
    change ¬2 ^ 11 ≤ _
    omega
  change UnpackedFloat.unpack Format.binary64
    (UnpackedFloat.pack Format.binary64 _) = _
  unfold UnpackedFloat.pack
  simp only [hfield]
  rw [if_neg hbound]
  by_cases hfull : 2 ^ 52 ≤ d.significand
  · have hlog : d.significand.log2 + 1 = Format.binary64.mantissaBits := by
      have : d.significand.log2 = 52 :=
        (Nat.log2_eq_iff hd.pos.ne').mpr ⟨hfull, hsmall⟩
      rw [this]
      rfl
    rw [if_pos hlog]
    exact unpack_packed_normal s hfull hsmall hleast hle
  · have hlog : ¬d.significand.log2 + 1 = Format.binary64.mantissaBits := by
      have : d.significand.log2 < 52 := (Nat.log2_lt hd.pos.ne').mpr (by omega)
      change ¬d.significand.log2 + 1 = 53
      omega
    rw [if_neg hlog]
    exact (unpack_packed_subnormal s hd.pos (by omega)).trans
      (finite_congr rfl rfl (hd.full.resolve_left hfull).symm)

/-- Negating a number changes its sign and no other part. -/
theorem neg_pack {d : Dyadic} (hd : d.Canonical) (hle : d.exponent ≤ 971)
    (s : Sign) :
    -Float.ofModel
      (Float.Model.pack (.finite s d.significand d.exponent hd.pos))
      = .ofModel
        (Float.Model.pack (.finite (-s) d.significand d.exponent hd.pos)) := by
  change Float.ofModel (Float.Model.pack (Float.Model.pack _).unpack.neg) = _
  rw [unpack_pack hd hle]
  rfl

end KnnOracle.Decimal
