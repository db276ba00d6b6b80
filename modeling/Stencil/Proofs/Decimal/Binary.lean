import Mathlib
import Stencil.Decimal.Binary

/-!
# The values of doubles

A double that is not infinite has a rational number for its value. The equality of doubles is that of their
values (`beq_iff`), with the zeros of both signs equal and what is not a number equal to nothing: parts that are
in lowest form are told by their value (`Binary.IsLowest.eq_of_value_eq`), and the parts of a double are. A whole
number equals a double if it is its value (`intEq_iff`).
-/

namespace Stencil.Decimal

open Float.Model

/-- The value of a number: a rational one, or one beyond them all. -/
inductive Value where
  | rational (q : ℚ)
  | infinite (negative : Bool)

namespace Binary

/-- The value of a finite double. -/
def rational (negative : Bool) (mantissa : Nat) (exponent : Int) : ℚ :=
  (if negative then -1 else 1) * (mantissa * 2 ^ exponent)

/-- The value of a double, if it is a number. -/
def value? : Binary → Option Value
  | nan => none
  | infinite negative => some (.infinite negative)
  | finite negative m e => some (.rational (rational negative m e))

/-! ### The parts of a double -/

/-- The parts of a double that is taken apart. -/
def ofUnpacked : UnpackedFloat → Binary
  | .notANumber => nan
  | .infinity s => infinite (s == .negative)
  | .zero s => finite (s == .negative) 0 (-1074)
  | .finite s m e _ => finite (s == .negative) m e

section Bits

variable (b : BitVec Format.binary64.numBits)

theorem toNat_unpackMantissa : (UnpackedFloat.unpackMantissa b).toNat = b.toNat % 2 ^ 52 := by
  simp [UnpackedFloat.unpackMantissa]

theorem toNat_unpackExponent : (UnpackedFloat.unpackExponent b).toNat = b.toNat / 2 ^ 52 % 2 ^ 11 := by
  simp [UnpackedFloat.unpackExponent, Nat.shiftRight_eq_div_pow]

theorem unpackMantissa_eq_zero_iff : UnpackedFloat.unpackMantissa b = 0#52 ↔ b.toNat % 2 ^ 52 = 0 := by
  rw [← toNat_unpackMantissa, ← BitVec.toNat_inj]
  rfl

theorem unpackExponent_eq_zero_iff : UnpackedFloat.unpackExponent b = 0#11 ↔ b.toNat / 2 ^ 52 % 2 ^ 11 = 0 := by
  rw [← toNat_unpackExponent, ← BitVec.toNat_inj]
  rfl

theorem unpackExponent_eq_ones_iff :
    UnpackedFloat.unpackExponent b = -1#11 ↔ b.toNat / 2 ^ 52 % 2 ^ 11 = 2047 := by
  rw [← toNat_unpackExponent, ← BitVec.toNat_inj]
  rfl

theorem toNat_normal : (1#1 ++ UnpackedFloat.unpackMantissa b).toNat = 2 ^ 52 + b.toNat % 2 ^ 52 := by
  rw [BitVec.toNat_append, ← Nat.shiftLeft_add_eq_or_of_lt (UnpackedFloat.unpackMantissa b).isLt,
    toNat_unpackMantissa]
  rfl

theorem sign_eq_negative :
    (UnpackedFloat.Sign.ofBitVec (UnpackedFloat.unpackSign b) == .negative) = decide (b.toNat ≥ 2 ^ 63) := by
  have hlt : b.toNat < 2 ^ 64 := b.isLt
  have hsign : (UnpackedFloat.unpackSign b).toNat = b.toNat / 2 ^ 63 := by
    simp [UnpackedFloat.unpackSign, Nat.shiftRight_eq_div_pow]
    omega
  by_cases hb : b.toNat ≥ 2 ^ 63
  · have hne : UnpackedFloat.unpackSign b ≠ 0#1 := by
      intro h
      rw [h] at hsign
      have : (0#1).toNat = 0 := rfl
      omega
    rw [UnpackedFloat.Sign.ofBitVec, if_neg hne, decide_eq_true hb]
    rfl
  · have heq : UnpackedFloat.unpackSign b = 0#1 := by
      refine BitVec.eq_of_toNat_eq (hsign.trans ?_)
      have : (0#1).toNat = 0 := rfl
      omega
    rw [UnpackedFloat.Sign.ofBitVec, if_pos heq, decide_eq_false hb]
    rfl

end Bits

/-- A double is taken apart by its bits. -/
theorem of_eq (x : Float) : Binary.of x = ofUnpacked x.toModel.unpack := by
  have hbits : x.toBits.toNat = x.toModel.toBits.toBitVec.toNat := rfl
  rw [Float.Model.unpack, Binary.of, hbits]
  generalize x.toModel.toBits.toBitVec = b
  have hbias : (Format.binary64.exponentBias : Int) = 1023 := rfl
  have hlow := toNat_unpackMantissa b
  have hfield := toNat_unpackExponent b
  have hneg := sign_eq_negative b
  dsimp only [UnpackedFloat.unpack, Nat.pow_eq]
  by_cases hones : b.toNat / 2 ^ 52 % 2 ^ 11 = 2047
  · rw [if_pos hones, if_pos ((unpackExponent_eq_ones_iff b).2 hones)]
    by_cases hzero : b.toNat % 2 ^ 52 = 0
    · rw [if_pos hzero, if_pos ((unpackMantissa_eq_zero_iff b).2 hzero), ofUnpacked, hneg]
    · rw [if_neg hzero, if_neg ((unpackMantissa_eq_zero_iff b).not.2 hzero), ofUnpacked]
  · rw [if_neg hones, if_neg ((unpackExponent_eq_ones_iff b).not.2 hones)]
    by_cases hsmall : b.toNat / 2 ^ 52 % 2 ^ 11 = 0
    · rw [if_pos hsmall, if_pos ((unpackExponent_eq_zero_iff b).2 hsmall)]
      by_cases hzero : b.toNat % 2 ^ 52 = 0
      · rw [dif_pos ((unpackMantissa_eq_zero_iff b).2 hzero), ofUnpacked, hneg, hzero]
      · rw [dif_neg ((unpackMantissa_eq_zero_iff b).not.2 hzero), ofUnpacked, hneg, hlow, hfield, hsmall, hbias]
        rfl
    · rw [if_neg hsmall, if_neg ((unpackExponent_eq_zero_iff b).not.2 hsmall), ofUnpacked, hneg, hfield, hbias,
        toNat_normal]
      rfl

/-- The parts of a finite double: of all parts with the same value those with the least exponent that a mantissa
of 53 bits allows. -/
def IsLowest : Binary → Prop
  | finite _ m e => m < 2 ^ 53 ∧ -1074 ≤ e ∧ (-1074 < e → 2 ^ 52 ≤ m)
  | _ => True

theorem isLowest_of (x : Float) : (Binary.of x).IsLowest := by
  unfold Binary.of
  dsimp only [Nat.pow_eq]
  have hlow : x.toBits.toNat % 2 ^ 52 < 2 ^ 52 := Nat.mod_lt _ (by decide)
  split
  · split <;> trivial
  · split
    · exact ⟨by omega, Int.le_refl _, fun h => absurd h (Int.lt_irrefl _)⟩
    · exact ⟨by omega, by omega, fun _ => Nat.le_add_right _ _⟩

/-- Of two finite doubles with the same value neither has the greater exponent. -/
theorem exponent_le {m m' : Nat} {e e' : Int} (hm : m < 2 ^ 53) (he : -1074 ≤ e) (hm' : -1074 < e' → 2 ^ 52 ≤ m')
    (h : (m : ℚ) * 2 ^ e = m' * 2 ^ e') : e' ≤ e := by
  by_contra hlt
  obtain ⟨k, rfl⟩ := Int.le.dest (Int.add_one_le_of_lt (Int.not_le.1 hlt))
  have hshifted : (m : ℚ) = (m' * 2 ^ (1 + k) : Nat) := by
    rw [Int.add_assoc, zpow_add₀ two_ne_zero, mul_comm ((2 : ℚ) ^ e), ← mul_assoc] at h
    rw [mul_right_cancel₀ (zpow_ne_zero e two_ne_zero) h]
    push_cast
    norm_cast
  have hle : 2 ^ 52 * 2 ≤ m' * 2 ^ (1 + k) :=
    Nat.mul_le_mul (hm' (by omega)) (Nat.le_self_pow (by omega) 2)
  rw [← Nat.cast_inj.1 hshifted] at hle
  omega

theorem rational_eq_zero_iff {n : Bool} {m : Nat} {e : Int} : rational n m e = 0 ↔ m = 0 := by
  rw [rational, mul_eq_zero, mul_eq_zero, or_iff_right (by split <;> decide),
    or_iff_left (zpow_ne_zero e two_ne_zero), Nat.cast_eq_zero]

theorem rational_ne_zero_of_pos {n n' : Bool} {m : Nat} {e : Int} (h : 0 < m) :
    rational n m e ≠ rational n' 0 (-1074) := by
  rw [rational_eq_zero_iff.2 (rfl : 0 = 0), Ne, rational_eq_zero_iff]
  exact h.ne'

theorem rational_eq_of_value?_eq {n n' : Bool} {m m' : Nat} {e e' : Int}
    (h : (finite n m e).value? = (finite n' m' e').value?) : rational n m e = rational n' m' e' :=
  Value.rational.inj (Option.some.inj h)

/-- Two finite doubles that are not zero have the same value only if they have the same parts. -/
theorem IsLowest.eq_of_rational_eq {n n' : Bool} {m m' : Nat} {e e' : Int} (h : (finite n m e).IsLowest)
    (h' : (finite n' m' e').IsLowest) (hm : m ≠ 0) (hvalue : rational n m e = rational n' m' e') :
    n = n' ∧ m = m' ∧ e = e' := by
  have hpos : (0 : ℚ) < m * 2 ^ e := mul_pos (Nat.cast_pos.2 (Nat.pos_of_ne_zero hm)) (zpow_pos two_pos e)
  have hpos' : (0 : ℚ) ≤ m' * 2 ^ e' := mul_nonneg m'.cast_nonneg (zpow_pos two_pos e').le
  have hsize : n = n' ∧ (m : ℚ) * 2 ^ e = m' * 2 ^ e' := by
    unfold rational at hvalue
    cases n <;> cases n' <;> simp only [if_true, if_false, Bool.false_eq_true] at hvalue
    · exact ⟨rfl, by linarith⟩
    · linarith
    · linarith
    · exact ⟨rfl, by linarith⟩
  obtain ⟨rfl, hsize⟩ := hsize
  obtain rfl : e = e' :=
    Int.le_antisymm (exponent_le h'.1 h'.2.1 h.2.2 hsize.symm) (exponent_le h.1 h.2.1 h'.2.2 hsize)
  exact ⟨rfl, Nat.cast_inj.1 (mul_right_cancel₀ (zpow_ne_zero e two_ne_zero) hsize), rfl⟩

/-! ### Equality -/

/-- Doubles that are equal have the same parts, the signs of zeros apart. -/
theorem beq_unpacked_iff {u v : UnpackedFloat} :
    u.beq v = true ↔ (∃ s, u = .infinity s ∧ v = .infinity s) ∨ (∃ s t, u = .zero s ∧ v = .zero t) ∨
      ∃ s m e h, u = .finite s m e h ∧ v = .finite s m e h := by
  cases u with
  | notANumber => cases v <;> simp [UnpackedFloat.beq, UnpackedFloat.compare]
  | infinity s =>
    cases v with
    | infinity t => cases s <;> cases t <;> simp [UnpackedFloat.beq, UnpackedFloat.compare, compare]
    | _ => cases s <;> simp [UnpackedFloat.beq, UnpackedFloat.compare]
  | zero s =>
    cases v with
    | zero t => simp [UnpackedFloat.beq, UnpackedFloat.compare]
    | infinity t => cases t <;> simp [UnpackedFloat.beq, UnpackedFloat.compare]
    | finite t m e h => cases t <;> simp [UnpackedFloat.beq, UnpackedFloat.compare]
    | notANumber => simp [UnpackedFloat.beq, UnpackedFloat.compare]
  | finite s m e h =>
    cases v with
    | zero t => cases s <;> simp [UnpackedFloat.beq, UnpackedFloat.compare]
    | infinity t => cases t <;> simp [UnpackedFloat.beq, UnpackedFloat.compare]
    | notANumber => simp [UnpackedFloat.beq, UnpackedFloat.compare]
    | finite t m' e' h' =>
      cases s <;> cases t <;> simp [UnpackedFloat.beq, UnpackedFloat.compare, Ordering.then_eq_eq] <;> omega

theorem eq_of_beq_negative {s t : UnpackedFloat.Sign} (h : (s == .negative) = (t == .negative)) : s = t := by
  cases s <;> cases t <;> first | rfl | exact absurd h (by decide)

/-- Doubles are equal if they are numbers of the same value. -/
theorem value?_ofUnpacked_iff {u v : UnpackedFloat} (hu : (ofUnpacked u).IsLowest) (hv : (ofUnpacked v).IsLowest) :
    u.beq v = true ↔ ∃ value, (ofUnpacked u).value? = some value ∧ (ofUnpacked v).value? = some value := by
  rw [beq_unpacked_iff]
  constructor
  · rintro (⟨s, rfl, rfl⟩ | ⟨s, t, rfl, rfl⟩ | ⟨s, m, e, h, rfl, rfl⟩)
    · exact ⟨_, rfl, rfl⟩
    · have hzero : ∀ n, rational n 0 (-1074) = 0 := fun n => rational_eq_zero_iff.2 rfl
      exact ⟨.rational 0, by rw [ofUnpacked, value?, hzero], by rw [ofUnpacked, value?, hzero]⟩
    · exact ⟨_, rfl, rfl⟩
  · rintro ⟨value, hvalue, hvalue'⟩
    have hsame := hvalue.trans hvalue'.symm
    cases u with
    | notANumber => cases hvalue
    | infinity s =>
      cases v with
      | infinity t =>
        obtain rfl : s = t := eq_of_beq_negative (by simpa [ofUnpacked, value?] using hsame)
        exact Or.inl ⟨s, rfl, rfl⟩
      | notANumber => cases hvalue'
      | zero t => cases hsame
      | finite t m e h => cases hsame
    | zero s =>
      cases v with
      | zero t => exact Or.inr (Or.inl ⟨s, t, rfl, rfl⟩)
      | finite t m e h => exact absurd (rational_eq_of_value?_eq hsame).symm (rational_ne_zero_of_pos h)
      | notANumber => cases hvalue'
      | infinity t => cases hsame
    | finite s m e h =>
      cases v with
      | zero t => exact absurd (rational_eq_of_value?_eq hsame) (rational_ne_zero_of_pos h)
      | finite t m' e' h' =>
        obtain ⟨hs, rfl, rfl⟩ := hu.eq_of_rational_eq hv h.ne' (rational_eq_of_value?_eq hsame)
        obtain rfl := eq_of_beq_negative hs
        exact Or.inr (Or.inr ⟨s, m, e, h, rfl, rfl⟩)
      | notANumber => cases hvalue'
      | infinity t => cases hsame

end Binary

theorem beq_iff {x y : Float} :
    (x == y) = true ↔ ∃ value, (Binary.of x).value? = some value ∧ (Binary.of y).value? = some value := by
  have hx := Binary.isLowest_of x
  have hy := Binary.isLowest_of y
  rw [Binary.of_eq] at hx hy
  rw [Binary.of_eq, Binary.of_eq]
  exact Binary.value?_ofUnpacked_iff hx hy

theorem twoPow_div (e : Int) : ((twoPow e).1 : ℚ) / (twoPow e).2 = 2 ^ e := by
  have he : (e.toNat : Int) - ((-e).toNat : Int) = e := by omega
  rw [twoPow, Nat.pow_eq, Nat.pow_eq, Nat.cast_pow, Nat.cast_pow, Nat.cast_two, ← zpow_natCast, ← zpow_natCast,
    ← zpow_sub₀ two_ne_zero, he]

/-- A whole number equals a double if it is its value. -/
theorem intEq_iff {i : Int} {x : Float} : intEq i x = true ↔ (Binary.of x).value? = some (.rational i) := by
  unfold intEq ratio?
  cases Binary.of x with
  | nan => simp [Binary.value?]
  | infinite n => simp [Binary.value?]
  | finite n m e =>
    have hden : ((twoPow e).2 : ℚ) ≠ 0 := Nat.cast_ne_zero.2 (Nat.pow_pos (by decide)).ne'
    have hvalue : Binary.rational n m e =
        ((if n then -((m * (twoPow e).1 : Nat) : Int) else (m * (twoPow e).1 : Nat) : Int) : ℚ) / (twoPow e).2 := by
      rw [Binary.rational, ← twoPow_div, ← mul_div_assoc, ← mul_div_assoc]
      cases n <;> simp
    rw [beq_iff_eq, Binary.value?, Option.some.injEq, Value.rational.injEq, hvalue, div_eq_iff hden]
    norm_cast

end Stencil.Decimal
