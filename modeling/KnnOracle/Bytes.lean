/-
Little-endian bytes of words.

A word is written least significant byte first. `littleEndian` writes a
given number of bytes and `ofLittleEndian` reads any number of them.
-/
import KnnOracle.Powers

namespace KnnOracle

/-- The `count` low bytes of a number, least significant first. -/
def littleEndian : Nat → Nat → List UInt8
  | 0, _ => []
  | count + 1, n => UInt8.ofNat (n % 256) :: littleEndian count (n / 256)

/-- The number that the bytes spell, least significant first. -/
def ofLittleEndian : List UInt8 → Nat
  | [] => 0
  | b :: rest => b.toNat + 256 * ofLittleEndian rest

-- ============================================================ the laws

/-- As many bytes are written as were asked for. -/
theorem length_littleEndian (count n : Nat) :
    (littleEndian count n).length = count := by
  induction count generalizing n with
  | zero => rfl
  | succ count ih => rw [littleEndian, List.length_cons, ih]

/-- A number that fits is read back. -/
theorem ofLittleEndian_littleEndian {count n : Nat} (h : n < 256 ^ count) :
    ofLittleEndian (littleEndian count n) = n := by
  induction count generalizing n with
  | zero =>
      have : n = 0 := by simpa using h
      subst this
      rfl
  | succ count ih =>
      have hdiv : n / 256 < 256 ^ count := by
        rw [Nat.pow_succ] at h
        exact Nat.div_lt_of_lt_mul (by omega)
      rw [littleEndian, ofLittleEndian, ih hdiv, UInt8.toNat_ofNat']
      omega

/-- Bytes spell a number that fits into them. -/
theorem ofLittleEndian_lt (bytes : List UInt8) :
    ofLittleEndian bytes < 256 ^ bytes.length := by
  induction bytes with
  | nil => decide
  | cons b rest ih =>
      have hb := b.toNat_lt
      rw [ofLittleEndian, List.length_cons, Nat.pow_succ]
      omega

/-- The number that bytes spell is written as these bytes. -/
theorem littleEndian_ofLittleEndian {count : Nat} {bytes : List UInt8}
    (h : bytes.length = count) :
    littleEndian count (ofLittleEndian bytes) = bytes := by
  subst h
  induction bytes with
  | nil => rfl
  | cons b rest ih =>
      have hb := b.toNat_lt
      have hlow : (b.toNat + 256 * ofLittleEndian rest) % 256 = b.toNat := by
        omega
      have hhigh : (b.toNat + 256 * ofLittleEndian rest) / 256
          = ofLittleEndian rest := by omega
      rw [ofLittleEndian, List.length_cons, littleEndian, hlow, hhigh, ih,
        UInt8.ofNat_toNat]

/-- A 64-bit word as eight bytes. -/
def wordBytes (w : UInt64) : List UInt8 := littleEndian 8 w.toNat

end KnnOracle
