import Mathlib
import Scriptlet.Proofs.Number.Digits
import Scriptlet.Value

/-!
Floats by sign and pattern, and their texts.

A float is stored as a sign, an exponent and a fraction. Numbers are stored in one way only, so
unpacking a stored number and packing it again changes nothing, and negating it flips the sign.
Hence a float that is a number is given by its sign and its pattern, and its text shows both.

* `Binary64.pack_unpack_number`, `Binary64.neg_unpack`: a stored number packed again, and negated.
* `Binary64.HasParts`: the sign, exponent and fraction of a float.
* `Binary64.eq_of_pattern`, `Binary64.eq_ofPattern`: a float is given by sign and pattern.
* `Binary64.isNaN_iff`, `Binary64.isFinite_iff`: what a float is, told by its pattern.
* `Decimal.toFloat_read_shortest`: the digits that are written denote the float.
* `Value.text_number`: the shortest decimal has no fraction of zero to leave out.
* `NumberFormat.eq_of_text`: floats with one text are equal.
-/

namespace Scriptlet

namespace Binary64

open Float.Model Float.Model.UnpackedFloat

/-! ### Stored floats -/

lemma toNat_packComponents (sign : Sign) (exponent : BitVec 11) (fraction : BitVec 52) :
    (packComponents Format.binary64 sign exponent fraction).toNat =
      (sign.toBitVec.toNat * 2 ^ 11 + exponent.toNat) * 2 ^ 52 + fraction.toNat := by
  rw [packComponents, BitVec.toNat_append, BitVec.toNat_append,
    ← Nat.shiftLeft_add_eq_or_of_lt exponent.isLt,
    ← Nat.shiftLeft_add_eq_or_of_lt fraction.isLt, Nat.shiftLeft_eq, Nat.shiftLeft_eq]

lemma exists_packComponents (bits : BitVec 64) :
    ∃ sign exponent fraction, bits = packComponents Format.binary64 sign exponent fraction :=
  ⟨_, _, _, (@packComponents_unpackSign_unpackExponent_unpackMantissa Format.binary64 bits).symm⟩

/-- What has the largest exponent has no fraction; else it is not a number. -/
def IsNumber (exponent : BitVec 11) (fraction : BitVec 52) : Prop :=
  exponent = -1#11 → fraction = 0#52

lemma infinity_eq : infinity = 2047 * 2 ^ 52 := rfl

lemma isNumber_iff {exponent : BitVec 11} {fraction : BitVec 52} :
    IsNumber exponent fraction ↔ exponent.toNat * 2 ^ 52 + fraction.toNat ≤ infinity := by
  have hexponent : exponent = -1#11 ↔ exponent.toNat = 2047 := BitVec.toNat_eq
  have hfraction : fraction = 0#52 ↔ fraction.toNat = 0 := BitVec.toNat_eq
  have he := exponent.isLt
  have hf := fraction.isLt
  rw [IsNumber, hexponent, hfraction, infinity_eq]
  omega

/-- **Packing undoes unpacking** of a stored number. -/
lemma pack_unpack_number (sign : Sign) {exponent : BitVec 11} {fraction : BitVec 52}
    (h : IsNumber exponent fraction) :
    UnpackedFloat.pack Format.binary64 (UnpackedFloat.unpack Format.binary64
      (packComponents Format.binary64 sign exponent fraction)) =
      packComponents Format.binary64 sign exponent fraction := by
  rw [UnpackedFloat.pack_unpack, if_neg]
  rw [isNaNBits, unpackExponent_packComponents, unpackMantissa_packComponents, decide_eq_true_iff]
  exact fun hnan => hnan.2 (h hnan.1)

lemma neg_unpack (sign : Sign) (exponent : BitVec 11) (fraction : BitVec 52) :
    (UnpackedFloat.unpack Format.binary64
      (packComponents Format.binary64 sign exponent fraction)).neg =
      UnpackedFloat.unpack Format.binary64
        (packComponents Format.binary64 (-sign) exponent fraction) := by
  simp only [UnpackedFloat.unpack, unpackMantissa_packComponents, unpackExponent_packComponents,
    unpackSign_packComponents, Sign.ofBitVec_toBitVec]
  split
  case isTrue => split <;> rfl
  case isFalse =>
      split
      case isTrue => split <;> rfl
      case isFalse => rfl

/-- What a stored float is, told by its exponent and fraction. -/
lemma isNaN_isFinite_unpack (sign : Sign) (exponent : BitVec 11) (fraction : BitVec 52) :
    let float := UnpackedFloat.unpack Format.binary64
      (packComponents Format.binary64 sign exponent fraction)
    (float.isNaN = true ↔ ¬ IsNumber exponent fraction) ∧
      (float.isFinite = true ↔ exponent ≠ -1#11) := by
  simp only [UnpackedFloat.unpack, unpackMantissa_packComponents, unpackExponent_packComponents]
  split
  case isTrue he =>
      have hfinite : ¬ exponent ≠ -1#11 := not_not.2 he
      split
      case isTrue hf =>
          have hnumber : ¬ ¬ IsNumber exponent fraction := not_not.2 fun _ => hf
          exact ⟨iff_of_false Bool.false_ne_true hnumber, iff_of_false Bool.false_ne_true hfinite⟩
      case isFalse hf =>
          exact ⟨iff_of_true rfl fun h => hf (h he), iff_of_false Bool.false_ne_true hfinite⟩
  case isFalse he =>
      have hnumber : ¬ ¬ IsNumber exponent fraction := not_not.2 fun h => absurd h he
      split
      case isTrue =>
          split <;> exact ⟨iff_of_false Bool.false_ne_true hnumber, iff_of_true rfl he⟩
      case isFalse => exact ⟨iff_of_false Bool.false_ne_true hnumber, iff_of_true rfl he⟩

/-! ### The parts of a float -/

/-- The sign, exponent and fraction of a float. -/
def HasParts (x : Float) (sign : Sign) (exponent : BitVec 11) (fraction : BitVec 52) : Prop :=
  x.toBits.toBitVec = packComponents Format.binary64 sign exponent fraction

lemma exists_hasParts (x : Float) : ∃ sign exponent fraction, HasParts x sign exponent fraction :=
  exists_packComponents x.toBits.toBitVec

lemma pattern_eq_mod (x : Float) : pattern x = x.toBits.toNat % 2 ^ 63 := rfl

lemma isNegative_iff {x : Float} : isNegative x = true ↔ 2 ^ 63 ≤ x.toBits.toNat :=
  decide_eq_true_iff

namespace HasParts

variable {x : Float} {sign : Sign} {exponent : BitVec 11} {fraction : BitVec 52}

lemma toNat_toBits (h : HasParts x sign exponent fraction) :
    x.toBits.toNat =
      (sign.toBitVec.toNat * 2 ^ 11 + exponent.toNat) * 2 ^ 52 + fraction.toNat := by
  rw [← toNat_packComponents, ← h]
  rfl

lemma pattern_eq (h : HasParts x sign exponent fraction) :
    pattern x = exponent.toNat * 2 ^ 52 + fraction.toNat := by
  have he := exponent.isLt
  have hf := fraction.isLt
  rw [pattern_eq_mod, h.toNat_toBits]
  omega

lemma isNegative_iff (h : HasParts x sign exponent fraction) :
    isNegative x = true ↔ sign = .negative := by
  have he := exponent.isLt
  have hf := fraction.isLt
  rw [Binary64.isNegative_iff, h.toNat_toBits]
  cases sign with
  | negative =>
      have hbit : Sign.negative.toBitVec.toNat = 1 := rfl
      exact iff_of_true (by omega) rfl
  | positive =>
      have hbit : Sign.positive.toBitVec.toNat = 0 := rfl
      exact iff_of_false (by omega) Sign.noConfusion

lemma isNumber_iff (h : HasParts x sign exponent fraction) :
    IsNumber exponent fraction ↔ pattern x ≤ infinity := by
  rw [h.pattern_eq, Binary64.isNumber_iff]

lemma unpack_eq (h : HasParts x sign exponent fraction) :
    x.toModel.unpack =
      UnpackedFloat.unpack Format.binary64
        (packComponents Format.binary64 sign exponent fraction) := by
  rw [← h]
  rfl

lemma neg (h : HasParts x sign exponent fraction) (hnumber : IsNumber exponent fraction) :
    HasParts (-x) (-sign) exponent fraction := by
  have hbits : (-x).toBits.toBitVec =
      UnpackedFloat.pack Format.binary64 x.toModel.unpack.neg := rfl
  rw [HasParts, hbits, h.unpack_eq, neg_unpack, pack_unpack_number (-sign) hnumber]

end HasParts

/-! ### Sign and pattern -/

/-- **A float is given by its sign and its pattern.** -/
theorem eq_of_pattern {x y : Float} (hpattern : pattern x = pattern y)
    (hsign : isNegative x = isNegative y) : x = y := by
  have hx := x.toBits.toNat_lt
  have hy := y.toBits.toNat_lt
  rw [pattern_eq_mod, pattern_eq_mod] at hpattern
  rw [Bool.eq_iff_iff, isNegative_iff, isNegative_iff] at hsign
  exact Float.toBits_inj.1 (UInt64.toNat_inj.1 (by omega))

lemma toBits_ofBits {bits : UInt64} (h : bits.toNat % 2 ^ 63 ≤ infinity) :
    (Float.ofBits bits).toBits = bits := by
  obtain ⟨sign, exponent, fraction, hbits⟩ := exists_packComponents bits.toBitVec
  have hnumber : IsNumber exponent fraction := by
    have htoNat : bits.toNat = _ := congrArg BitVec.toNat hbits
    rw [htoNat, toNat_packComponents] at h
    have he := exponent.isLt
    have hf := fraction.isLt
    rw [isNumber_iff]
    omega
  have hpack := pack_unpack_number sign hnumber
  rw [← hbits] at hpack
  exact UInt64.toBitVec_inj.1 hpack

lemma toNat_toBits_ofPattern {p : Nat} (h : p ≤ infinity) : (ofPattern p).toBits.toNat = p := by
  rw [infinity_eq] at h
  have hofNat : (UInt64.ofNat p).toNat = p := by
    rw [UInt64.toNat_ofNat', Nat.mod_eq_of_lt (by omega)]
  rw [ofPattern, toBits_ofBits, hofNat]
  rw [hofNat, infinity_eq]
  omega

lemma pattern_ofPattern {p : Nat} (h : p ≤ infinity) : pattern (ofPattern p) = p := by
  rw [pattern_eq_mod, toNat_toBits_ofPattern h]
  rw [infinity_eq] at h
  omega

lemma isNegative_ofPattern {p : Nat} (h : p ≤ infinity) : isNegative (ofPattern p) = false := by
  rw [Bool.eq_false_iff, ne_eq, isNegative_iff, toNat_toBits_ofPattern h]
  rw [infinity_eq] at h
  omega

lemma pattern_neg {x : Float} (h : pattern x ≤ infinity) : pattern (-x) = pattern x := by
  obtain ⟨sign, exponent, fraction, hx⟩ := exists_hasParts x
  rw [(hx.neg (hx.isNumber_iff.2 h)).pattern_eq, hx.pattern_eq]

lemma isNegative_neg {x : Float} (h : pattern x ≤ infinity) :
    isNegative (-x) = !isNegative x := by
  obtain ⟨sign, exponent, fraction, hx⟩ := exists_hasParts x
  have hneg := hx.neg (hx.isNumber_iff.2 h)
  rw [Bool.eq_not_iff, ne_eq, Bool.eq_iff_iff, hneg.isNegative_iff, hx.isNegative_iff]
  cases sign with
  | negative => exact fun h => Sign.noConfusion (h.2 rfl)
  | positive => exact fun h => Sign.noConfusion (h.1 rfl)

/-- A number is the float of its pattern, negated where its sign is set. -/
theorem eq_ofPattern {x : Float} (h : pattern x ≤ infinity) :
    x = if isNegative x then -ofPattern (pattern x) else ofPattern (pattern x) := by
  have hpattern := pattern_ofPattern h
  have hsign := isNegative_ofPattern h
  split
  case isTrue hx =>
      refine eq_of_pattern ?_ ?_
      · rw [pattern_neg (hpattern.trans_le h), hpattern]
      · rw [isNegative_neg (hpattern.trans_le h), hsign, hx, Bool.not_false]
  case isFalse hx =>
      refine eq_of_pattern hpattern.symm ?_
      rw [hsign, Bool.eq_false_of_not_eq_true hx]

lemma isNaN_iff {x : Float} : x.isNaN = true ↔ infinity < pattern x := by
  obtain ⟨sign, exponent, fraction, hx⟩ := exists_hasParts x
  have hunpack : x.isNaN = x.toModel.unpack.isNaN := rfl
  rw [← not_le, ← hx.isNumber_iff, hunpack, hx.unpack_eq,
    (isNaN_isFinite_unpack sign exponent fraction).1]

lemma isFinite_iff {x : Float} : x.isFinite = true ↔ pattern x < infinity := by
  obtain ⟨sign, exponent, fraction, hx⟩ := exists_hasParts x
  have hunpack : x.isFinite = x.toModel.unpack.isFinite := rfl
  have hexponent : exponent = -1#11 ↔ exponent.toNat = 2047 := BitVec.toNat_eq
  have he := exponent.isLt
  have hf := fraction.isLt
  rw [hunpack, hx.unpack_eq, (isNaN_isFinite_unpack sign exponent fraction).2, hx.pattern_eq,
    infinity_eq, ne_eq, hexponent]
  omega

end Binary64

/-! ### Texts -/

/-- The digits that are written for a pattern denote the float of this pattern. -/
theorem Decimal.toFloat_read_shortest {pattern : Nat} (h : pattern ≤ Binary64.infinity) :
    (read (shortest pattern).chars).toFloat = Binary64.ofPattern pattern :=
  congrArg Binary64.ofPattern (nearest_read_shortest h)

lemma Decimal.eq_of_chars_shortest {p q : Nat} (hp : p ≤ Binary64.infinity)
    (hq : q ≤ Binary64.infinity) (h : (shortest p).chars = (shortest q).chars) : p = q := by
  rw [← nearest_read_shortest hp, h, nearest_read_shortest hq]

lemma Decimal.exists_cons_chars (d : Decimal) :
    ∃ c rest, d.chars = c :: rest ∧ c.isDigit = true := by
  obtain ⟨c, rest, hwhole⟩ := List.exists_cons_of_ne_nil d.wholeDigits_ne_nil
  refine ⟨c, _, by rw [chars_eq, hwhole, List.cons_append], ?_⟩
  exact d.isDigit_of_mem_wholeDigits c (hwhole ▸ List.mem_cons_self)

namespace NumberFormat

/-- The text of a pattern without a sign. -/
def magnitude (format : NumberFormat) (pattern : Nat) : List Char :=
  if pattern = Binary64.infinity then format.infinity.toList else (Decimal.shortest pattern).chars

lemma toList_text (format : NumberFormat) {x : Float}
    (h : Binary64.pattern x ≤ Binary64.infinity) :
    (format.text x).toList =
      if Binary64.isNegative x then '-' :: format.magnitude (Binary64.pattern x)
      else format.magnitude (Binary64.pattern x) := by
  have hmagnitude : (if Binary64.pattern x = Binary64.infinity then format.infinity
      else (Decimal.shortest (Binary64.pattern x)).text).toList =
      format.magnitude (Binary64.pattern x) := by
    rw [magnitude, apply_ite String.toList, Decimal.text, String.toList_ofList]
  simp only [text, if_neg (Nat.not_lt.2 h)]
  split
  case isTrue => rw [String.toList_append, hmagnitude]; rfl
  case isFalse => exact hmagnitude

lemma magnitude_of_lt (format : NumberFormat) {pattern : Nat} (h : pattern < Binary64.infinity) :
    format.magnitude pattern = (Decimal.shortest pattern).chars := if_neg h.ne

/-- The text of a finite float never ends in a fraction of zero. -/
lemma withoutZeroFraction_text (format : NumberFormat) {x : Float}
    (h : Binary64.pattern x < Binary64.infinity) :
    withoutZeroFraction (format.text x) = format.text x := by
  have hdigits := (Decimal.shortest (Binary64.pattern x)).not_zeroFraction_suffix
  rw [withoutZeroFraction, if_neg]
  rw [List.isSuffixOf_iff_suffix, toList_text format h.le, magnitude_of_lt format h]
  split
  case isTrue =>
      rw [List.suffix_cons_iff]
      rintro (hsign | hsuffix)
      · cases hsign
      · exact hdigits hsuffix
  case isFalse => exact hdigits

variable {format : NumberFormat}

/-- No magnitude starts with a minus. -/
lemma magnitude_ne_minus (hword : format.infinity.toList.all fun c => !c.isDigit && c != '-')
    (pattern : Nat) (rest : List Char) : format.magnitude pattern ≠ '-' :: rest := by
  intro h
  rw [magnitude] at h
  split at h
  case isTrue =>
      rw [h, List.all_cons] at hword
      cases hword
  case isFalse =>
      obtain ⟨c, digits, hchars, hc⟩ := (Decimal.shortest pattern).exists_cons_chars
      rw [hchars, List.cons.injEq] at h
      rw [h.1] at hc
      exact absurd hc (by decide)

lemma chars_ne_infinity (hword : format.infinity.toList.all fun c => !c.isDigit && c != '-')
    (d : Decimal) : d.chars ≠ format.infinity.toList := by
  intro h
  obtain ⟨c, rest, hchars, hc⟩ := d.exists_cons_chars
  rw [← h, hchars, List.all_cons, hc] at hword
  cases hword

lemma eq_of_magnitude (hword : format.infinity.toList.all fun c => !c.isDigit && c != '-')
    {p q : Nat} (hp : p ≤ Binary64.infinity) (hq : q ≤ Binary64.infinity)
    (h : format.magnitude p = format.magnitude q) : p = q := by
  rw [magnitude, magnitude] at h
  split at h
  case isTrue hpinf =>
      split at h
      case isTrue hqinf => rw [hpinf, hqinf]
      case isFalse => exact absurd h.symm (chars_ne_infinity hword _)
  case isFalse =>
      split at h
      case isTrue => exact absurd h (chars_ne_infinity hword _)
      case isFalse => exact Decimal.eq_of_chars_shortest hp hq h

/-- **Floats with one text are equal**, unless they are not numbers. -/
theorem eq_of_text (hword : format.infinity.toList.all fun c => !c.isDigit && c != '-')
    {x y : Float} (hx : Binary64.pattern x ≤ Binary64.infinity)
    (hy : Binary64.pattern y ≤ Binary64.infinity) (h : format.text x = format.text y) : x = y := by
  have htext := congrArg String.toList h
  rw [toList_text format hx, toList_text format hy] at htext
  split at htext
  case isTrue hxsign =>
      split at htext
      case isTrue hysign =>
          exact Binary64.eq_of_pattern (eq_of_magnitude hword hx hy (List.cons.inj htext).2)
            (hxsign.trans hysign.symm)
      case isFalse => exact absurd htext.symm (magnitude_ne_minus hword _ _)
  case isFalse hxsign =>
      split at htext
      case isTrue => exact absurd htext (magnitude_ne_minus hword _ _)
      case isFalse hysign =>
          refine Binary64.eq_of_pattern (eq_of_magnitude hword hx hy htext) ?_
          rw [Bool.eq_false_of_not_eq_true hxsign, Bool.eq_false_of_not_eq_true hysign]

end NumberFormat

/-- What programs print has no fraction to leave out. -/
lemma Value.text_number (x : Float) : (number x).text = numberFormat.text x := by
  rw [text, numberText]
  split
  case isTrue h => exact numberFormat.withoutZeroFraction_text h
  case isFalse => rfl

end Scriptlet
