import Mathlib
import Formulary.Numeral

/-!
# Which floats are numbers

Arithmetic on floats unpacks the operands, computes, rounds and packs. Rounding keeps what is a
number a number (`isNaN_roundWithAccuracy`), and so does packing, which makes a result infinite at
worst (`isNaN_pack`). Hence a sign or an absolute value is a number just if the operand is
(`isNaN_neg`, `isNaN_abs`), and so is every decimal, however long and however large
(`Numeral.isNaN_decimal`) : it is computed as a quotient of two numbers, the second of which is
neither zero nor infinite (`isNaN_div`).

The two zeros are the only floats that compare equal to zero (`beq_zero_iff`).
-/

namespace Formulary

open Float.Model (UnpackedFloat)
open Float.Model.UnpackedFloat

/-! ## Packing -/

/-- What is no number has the largest exponent there is. -/
theorem isNaN_unpack_packComponents {exponent : BitVec 11} (h : exponent ≠ -1#_) (sign : Sign)
    (mantissa : BitVec 52) :
    (unpack .binary64 (packComponents .binary64 sign exponent mantissa)).isNaN = false := by
  simp only [unpack, unpackExponent_packComponents, unpackMantissa_packComponents]
  rw [if_neg h]
  split
  · split <;> rfl
  · rfl

/-- So has infinity, but it has no mantissa. -/
theorem isNaN_unpack_packedInfinity (sign : Sign) :
    (unpack .binary64 (packedInfinity .binary64 sign)).isNaN = false := by
  cases sign <;> decide

theorem isNaN_unpack_pack (u : UnpackedFloat) :
    (unpack .binary64 (u.pack .binary64)).isNaN = u.isNaN := by
  fun_cases pack .binary64 u with
  | case1 => decide
  | case2 sign => exact isNaN_unpack_packedInfinity sign
  | case3 sign => exact isNaN_unpack_packComponents (by decide) sign _
  | case4 sign => exact isNaN_unpack_packedInfinity sign
  | case5 sign mantissa exponent hmantissa bits biased hsmall hnormal =>
    -- a normal float, which is packed with an exponent below the largest
    refine isNaN_unpack_packComponents (fun hlargest => ?_) sign _
    have htoNat := congrArg BitVec.toNat hlargest
    rw [BitVec.toNat_ofNat] at htoNat
    change biased % 2048 = 2047 at htoNat
    change ¬2048 ≤ biased + 1 at hsmall
    omega
  | case6 sign => exact isNaN_unpack_packComponents (by decide) sign _

/-- Packing neither makes nor mends what is no number. -/
theorem isNaN_pack (u : UnpackedFloat) : (Float.ofModel (.pack u)).isNaN = u.isNaN :=
  isNaN_unpack_pack u

/-! ## Signs -/

theorem isNaN_neg (value : Float) : (-value).isNaN = value.isNaN := by
  have hunpacked : value.toModel.unpack.neg.isNaN = value.toModel.unpack.isNaN := by
    cases value.toModel.unpack <;> rfl
  exact (isNaN_pack _).trans hunpacked

theorem isNaN_abs (value : Float) : value.abs.isNaN = value.isNaN := by
  have hunpacked : value.toModel.unpack.abs.isNaN = value.toModel.unpack.isNaN := by
    cases value.toModel.unpack <;> rfl
  exact (isNaN_pack _).trans hunpacked

/-- What is finite is a number. -/
theorem isNaN_of_isFinite {value : Float} (h : value.isFinite = true) : value.isNaN = false := by
  change value.toModel.unpack.isFinite = true at h
  change value.toModel.unpack.isNaN = false
  generalize value.toModel.unpack = u at h ⊢
  cases u with
  | notANumber => cases h
  | _ => rfl

/-! ## Zeros -/

/-- Two floats compare equal to zero, which differ in their signs. -/
theorem beq_zero_iff {value : Float} : (value == 0) = true ↔ value = 0 ∨ value = -0 := by
  constructor
  · intro h
    obtain ⟨-, -, hzero | ⟨hzero, -⟩ | ⟨hzero, -⟩⟩ := Float.beq_iff_ne_nan_and_eq.mp h
    · exact .inl hzero
    · exact .inl hzero
    · exact .inr hzero
  · rintro (rfl | rfl) <;> decide

/-! ## Decimals -/

theorem isNaN_roundWithAccuracy (sign : Sign) (mantissa : Nat) (exponent : Int)
    (accuracy : Accuracy) :
    (roundWithAccuracy .binary64 sign mantissa exponent accuracy).isNaN = false := by
  unfold roundWithAccuracy
  dsimp only
  split <;> rfl

theorem isNaN_toFloat (n : UInt64) : n.toFloat.isNaN = false := by
  refine (isNaN_pack _).trans ?_
  unfold ofUInt64 ofNat ofInt UnpackedFloat.normalize
  split
  · exact isNaN_roundWithAccuracy ..
  · rfl
  · exact isNaN_roundWithAccuracy ..

/-- A number divided by one that is neither zero nor infinite is a number. -/
theorem isNaN_div {left right : Float} (hleft : left.isNaN = false)
    (hfinite : right.isFinite = true) (hzero : (right == 0) = false) :
    (left / right).isNaN = false := by
  refine (isNaN_pack _).trans ?_
  change left.toModel.unpack.isNaN = false at hleft
  change right.toModel.unpack.isFinite = true at hfinite
  change right.toModel.unpack.beq (.zero .positive) = false at hzero
  generalize left.toModel.unpack = u at hleft ⊢
  generalize right.toModel.unpack = v at hfinite hzero ⊢
  cases v with
  | notANumber => cases hfinite
  | infinity sign => cases hfinite
  | zero sign => cases hzero
  | finite sign mantissa exponent hmantissa =>
    cases u with
    | notANumber => cases hleft
    | infinity sign => rfl
    | zero sign => rfl
    | finite sign mantissa exponent hmantissa => exact isNaN_roundWithAccuracy ..

/-- The powers of ten that floats have exactly are neither zero nor infinite. -/
theorem powerOfTen_ne_zero (e : Nat) (h : e < 23) :
    Float.exactlyRepresentablePowersOfTen[e].isFinite = true ∧
      (Float.exactlyRepresentablePowersOfTen[e] == 0) = false := by
  decide +revert

theorem isNaN_ofScientific_unpacked (m : Nat) (e : Int) :
    (ofScientific .binary64 m e).isNaN = false := by
  unfold ofScientific
  split
  · rfl
  split
  · rfl
  split
  · rfl
  split
  · exact isNaN_roundWithAccuracy ..
  · exact isNaN_roundWithAccuracy ..

namespace Numeral

theorem isNaN_decimal (whole fraction : List Char) : (decimal whole fraction).isNaN = false := by
  unfold decimal Float.ofScientific
  split
  · rename_i hexact
    obtain ⟨hfinite, hzero⟩ := powerOfTen_ne_zero fraction.length (Nat.lt_succ_of_le hexact.2)
    exact isNaN_div (isNaN_toFloat _) hfinite hzero
  · exact (isNaN_pack _).trans (isNaN_ofScientific_unpacked _ _)

/-- Whatever a run of digits and points writes is a number. -/
theorem isNaN_of_value? {run : List Char} {value : Float} (h : value? run = some value) :
    value.isNaN = false := by
  unfold value? at h
  split at h
  · exact Option.some.inj h ▸ isNaN_decimal _ _
  · split at h
    · cases h
    · exact Option.some.inj h ▸ isNaN_decimal _ _

end Numeral

end Formulary
