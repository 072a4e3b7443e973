import Mathlib.Data.List.TakeWhile
import Scriptlet.Number.Shortest
import Scriptlet.Proofs.Number.Rounding

/-!
What is written for a float is read back.

A decimal is written without the zeros at the end of its fraction, so what is read back is not
the same decimal but one of the same value: numerator and denominator have lost a power of ten.
Rounding sees only the value. The decimal that is written for a float has been chosen among those
that round to this float, or is the float itself.

* `Decimal.fractionDigits_value`: the digits behind the point, and the zeros left out.
* `Decimal.chars_eq`: the two ways in which a decimal is written.
* `Decimal.not_zeroFraction_suffix`: no writing ends in a fraction of zero.
* `Decimal.read?_whole`, `Decimal.read?_pointed`: digits with at most one point are read.
* `Decimal.read_chars`: what is read back, and how it differs.
* `Decimal.reads_coarsest`: the chosen decimal rounds to the float.
* `Decimal.nearest_read_shortest`: what is written for a float is read as this float.
-/

namespace Scriptlet.Decimal

/-! ### Rows of digits -/

/-- The value of a row of digits is the one of the standard library. -/
lemma digitsValue_eq (digits : List Char) : digitsValue digits = Nat.ofDigitChars 10 digits 0 :=
  rfl

lemma digitsValue_append (first second : List Char) :
    digitsValue (first ++ second) =
      digitsValue first * 10 ^ second.length + digitsValue second := by
  rw [digitsValue_eq, Nat.ofDigitChars_append, Nat.ofDigitChars_eq_ofDigitChars_zero, Nat.mul_comm]
  rfl

lemma digitsValue_digitChar {n : Nat} (h : n < 10) : digitsValue [n.digitChar] = n := by
  rw [digitsValue_eq, Nat.ofDigitChars_cons_digitChar_of_lt_ten h, Nat.ofDigitChars_nil]
  omega

lemma isDigit_digitChar {n : Nat} (h : n < 10) : n.digitChar.isDigit = true := by
  have hmem : n.digitChar ∈ Nat.toDigits 10 n := by simp [Nat.toDigits_of_lt_base h]
  exact Nat.isDigit_of_mem_toDigits (by decide) (by decide) hmem

/-! ### Fractions -/

lemma fractionDigits_zero (n : Nat) : fractionDigits 0 n = [] := rfl

lemma fractionDigits_succ (places n : Nat) :
    fractionDigits (places + 1) n =
      if n = 0 then []
      else (n / 10 ^ places).digitChar :: fractionDigits places (n % 10 ^ places) := rfl

/-- The first digit of a fraction is a digit. -/
lemma div_pow_lt_ten {places n : Nat} (h : n < 10 ^ (places + 1)) : n / 10 ^ places < 10 := by
  rwa [Nat.div_lt_iff_lt_mul (Nat.pow_pos (by decide)), Nat.mul_comm, ← Nat.pow_succ]

lemma isDigit_of_mem_fractionDigits {places n : Nat} (h : n < 10 ^ places) :
    ∀ c ∈ fractionDigits places n, c.isDigit = true := by
  induction places generalizing n with
  | zero => simp [fractionDigits_zero]
  | succ places ih =>
      rw [fractionDigits_succ]
      split
      · simp
      · exact List.forall_mem_cons.2
          ⟨isDigit_digitChar (div_pow_lt_ten h), ih (Nat.mod_lt n (Nat.pow_pos (by decide)))⟩

/-- The digits of a fraction are its value without some zeros at the end. -/
lemma fractionDigits_value {places n : Nat} (h : n < 10 ^ places) :
    ∃ zeros, places = (fractionDigits places n).length + zeros ∧
      n = digitsValue (fractionDigits places n) * 10 ^ zeros := by
  induction places generalizing n with
  | zero => exact ⟨0, rfl, by simpa [fractionDigits_zero, digitsValue] using h⟩
  | succ places ih =>
      rw [fractionDigits_succ]
      split
      case isTrue hn => exact ⟨places + 1, by simp, by simp [hn, digitsValue]⟩
      case isFalse =>
          obtain ⟨zeros, hplaces, hrest⟩ := ih (Nat.mod_lt n (Nat.pow_pos (by decide)))
          refine ⟨zeros, by rw [List.length_cons]; omega, ?_⟩
          generalize fractionDigits places (n % 10 ^ places) = digits at hplaces hrest ⊢
          have hwhole : digitsValue ((n / 10 ^ places).digitChar :: digits) =
              n / 10 ^ places * 10 ^ digits.length + digitsValue digits := by
            rw [← List.singleton_append, digitsValue_append,
              digitsValue_digitChar (div_pow_lt_ten h)]
          calc n
              = n / 10 ^ places * 10 ^ places + n % 10 ^ places := (Nat.div_add_mod' _ _).symm
            _ = n / 10 ^ places * 10 ^ places + digitsValue digits * 10 ^ zeros := by rw [← hrest]
            _ = n / 10 ^ places * 10 ^ (digits.length + zeros) +
                digitsValue digits * 10 ^ zeros := by rw [← hplaces]
            _ = digitsValue ((n / 10 ^ places).digitChar :: digits) * 10 ^ zeros := by
                rw [hwhole, Nat.pow_add]
                ring

/-- Only zero has no digits behind the point. -/
lemma eq_zero_of_fractionDigits_eq_nil {places n : Nat} (h : n < 10 ^ places)
    (hdigits : fractionDigits places n = []) : n = 0 := by
  obtain ⟨zeros, -, hvalue⟩ := fractionDigits_value h
  rw [hdigits] at hvalue
  exact hvalue.trans (Nat.zero_mul _)

/-- A fraction has no zeros at its end. -/
lemma getLast?_fractionDigits {places n : Nat} (h : n < 10 ^ places) :
    (fractionDigits places n).getLast? ≠ some '0' := by
  induction places generalizing n with
  | zero => simp [fractionDigits_zero]
  | succ places ih =>
      have hrest : n % 10 ^ places < 10 ^ places := Nat.mod_lt n (Nat.pow_pos (by decide))
      rw [fractionDigits_succ]
      split
      case isTrue => simp
      case isFalse hn =>
          rw [List.getLast?_cons, ne_eq, Option.some.injEq]
          cases hlast : (fractionDigits places (n % 10 ^ places)).getLast? with
          | some c =>
              rintro rfl
              exact ih hrest hlast
          | none =>
              -- No digits are left, so it is the first digit that is not zero.
              have hzero : n % 10 ^ places = 0 :=
                eq_zero_of_fractionDigits_eq_nil hrest (List.getLast?_eq_none_iff.1 hlast)
              have hfirst : n / 10 ^ places ≠ 0 := by
                intro hfirst
                have hdivision := Nat.div_add_mod' n (10 ^ places)
                rw [hfirst, hzero, Nat.zero_mul] at hdivision
                exact hn hdivision.symm
              have hdigit : ∀ digit < 10, digit ≠ 0 → digit.digitChar ≠ '0' := by decide
              exact hdigit _ (div_pow_lt_ten h) hfirst

/-! ### Decimals -/

/-- The digits before the point. -/
def wholeDigits (d : Decimal) : List Char := Nat.toDigits 10 (d.unscaled / 10 ^ d.places)

/-- The digits behind the point, which may be none. -/
def pointDigits (d : Decimal) : List Char := fractionDigits d.places (d.unscaled % 10 ^ d.places)

/-- A decimal is written as digits, with a point and further digits if there are any. -/
lemma chars_eq (d : Decimal) :
    d.chars = d.wholeDigits ++ if d.pointDigits = [] then [] else '.' :: d.pointDigits := by
  rw [chars]
  split
  case h_1 hnone =>
      have hpoint : d.pointDigits = [] := hnone
      rw [if_pos hpoint, List.append_nil]
      rfl
  case h_2 hsome =>
      have hpoint : d.pointDigits ≠ [] := hsome
      rw [if_neg hpoint]
      rfl

lemma wholeDigits_ne_nil (d : Decimal) : d.wholeDigits ≠ [] := Nat.toDigits_ne_nil

lemma isDigit_of_mem_wholeDigits (d : Decimal) : ∀ c ∈ d.wholeDigits, c.isDigit = true :=
  fun _ hc => Nat.isDigit_of_mem_toDigits (by decide) (by decide) hc

lemma isDigit_of_mem_pointDigits (d : Decimal) : ∀ c ∈ d.pointDigits, c.isDigit = true :=
  isDigit_of_mem_fractionDigits (Nat.mod_lt _ (Nat.pow_pos (by decide)))

/-- The writing of a decimal never ends in a fraction of zero. -/
lemma not_zeroFraction_suffix (d : Decimal) : ¬ ['.', '0'] <:+ d.chars := by
  rw [chars_eq]
  split
  case isTrue =>
      intro hsuffix
      rw [List.append_nil] at hsuffix
      have hdigit := d.isDigit_of_mem_wholeDigits '.' (hsuffix.mem List.mem_cons_self)
      exact absurd hdigit (by decide)
  case isFalse hpoint =>
      rintro ⟨before, hbefore⟩
      have hlast := congrArg List.getLast? hbefore
      rw [List.getLast?_append_of_ne_nil _ (List.cons_ne_nil _ _),
        List.getLast?_append_of_ne_nil _ (List.cons_ne_nil _ _),
        List.getLast?_cons_of_ne_nil hpoint] at hlast
      exact getLast?_fractionDigits (Nat.mod_lt _ (Nat.pow_pos (by decide))) hlast.symm

lemma read_whole {whole : List Char} (h : ∀ c ∈ whole, c.isDigit = true) :
    read whole = ⟨digitsValue whole, 0⟩ := by
  rw [read, List.takeWhile_eq_self_iff.2 h, List.dropWhile_eq_nil_iff.2 h]
  simp

lemma read_pointed {whole : List Char} (h : ∀ c ∈ whole, c.isDigit = true)
    (fraction : List Char) :
    read (whole ++ '.' :: fraction) = ⟨digitsValue (whole ++ fraction), fraction.length⟩ := by
  have hpoint : ¬ Char.isDigit '.' = true := by decide
  rw [read, List.takeWhile_append_of_pos h, List.dropWhile_append_of_pos h,
    List.takeWhile_cons_of_neg hpoint, List.dropWhile_cons_of_neg hpoint]
  simp

lemma count_point {digits : List Char} (h : ∀ c ∈ digits, c.isDigit = true) :
    digits.count '.' = 0 :=
  List.count_eq_zero.2 fun hmem => absurd (h _ hmem) (by decide)

/-- A text is read if it has a digit, and beside digits at most one point. -/
lemma read?_of_digits {text : List Char} (hdigit : ∃ c ∈ text, c.isDigit = true)
    (hall : ∀ c ∈ text, c.isDigit = true ∨ c = '.') (hpoints : text.count '.' ≤ 1) :
    read? text = some (read text) := by
  have hnumeral : isNumeral text = true := by
    simp only [isNumeral, Bool.and_eq_true, List.any_eq_true, List.all_eq_true, Bool.or_eq_true,
      beq_iff_eq, decide_eq_true_eq]
    exact ⟨⟨hdigit, hall⟩, hpoints⟩
  rw [read?, if_pos hnumeral]

/-- Digits are a numeral. -/
lemma read?_whole {whole : List Char} (h : ∀ c ∈ whole, c.isDigit = true) (hne : whole ≠ []) :
    read? whole = some (read whole) := by
  obtain ⟨c, hc⟩ := List.exists_mem_of_ne_nil whole hne
  refine read?_of_digits ⟨c, hc, h c hc⟩ (fun c hc => .inl (h c hc)) ?_
  rw [count_point h]
  exact Nat.zero_le 1

/-- Digits, a point and digits are a numeral. -/
lemma read?_pointed {whole fraction : List Char} (h : ∀ c ∈ whole, c.isDigit = true)
    (hne : whole ≠ []) (h' : ∀ c ∈ fraction, c.isDigit = true) :
    read? (whole ++ '.' :: fraction) = some (read (whole ++ '.' :: fraction)) := by
  obtain ⟨c, hc⟩ := List.exists_mem_of_ne_nil whole hne
  refine read?_of_digits ⟨c, List.mem_append_left _ hc, h c hc⟩ ?_ ?_
  · refine List.forall_mem_append.2 ⟨fun c hc => .inl (h c hc), ?_⟩
    exact List.forall_mem_cons.2 ⟨.inr rfl, fun c hc => .inl (h' c hc)⟩
  · rw [List.count_append, count_point h, List.count_cons_self, count_point h']

/-- What is written for a decimal is a numeral. -/
lemma read?_chars (d : Decimal) : read? d.chars = some (read d.chars) := by
  rw [chars_eq]
  split
  case isTrue =>
      rw [List.append_nil]
      exact read?_whole d.isDigit_of_mem_wholeDigits d.wholeDigits_ne_nil
  case isFalse =>
      exact read?_pointed d.isDigit_of_mem_wholeDigits d.wholeDigits_ne_nil
        d.isDigit_of_mem_pointDigits

/-- **A decimal is read back with its value.** Only zeros at the end of the fraction are lost. -/
theorem read_chars (d : Decimal) :
    ∃ zeros, d.places = (read d.chars).places + zeros ∧
      d.unscaled = (read d.chars).unscaled * 10 ^ zeros := by
  have hread : read d.chars =
      ⟨digitsValue (d.wholeDigits ++ d.pointDigits), d.pointDigits.length⟩ := by
    rw [chars_eq]
    split
    case isTrue hpoint =>
        rw [hpoint, List.append_nil, List.length_nil]
        exact read_whole d.isDigit_of_mem_wholeDigits
    case isFalse => exact read_pointed d.isDigit_of_mem_wholeDigits d.pointDigits
  have hwhole : digitsValue d.wholeDigits = d.unscaled / 10 ^ d.places :=
    Nat.ofDigitChars_ten_toDigits
  obtain ⟨zeros, hplaces, hfraction⟩ :=
    fractionDigits_value (Nat.mod_lt d.unscaled (Nat.pow_pos (by decide) : 0 < 10 ^ d.places))
  refine ⟨zeros, by rw [hread]; exact hplaces, ?_⟩
  calc d.unscaled
      = d.unscaled / 10 ^ d.places * 10 ^ d.places + d.unscaled % 10 ^ d.places :=
        (Nat.div_add_mod' _ _).symm
    _ = digitsValue d.wholeDigits * 10 ^ (d.pointDigits.length + zeros) +
          digitsValue d.pointDigits * 10 ^ zeros := by
        rw [hwhole, pointDigits, ← hplaces, ← hfraction]
    _ = (read d.chars).unscaled * 10 ^ zeros := by
        rw [hread, digitsValue_append, Nat.pow_add]
        ring

/-- What is read back is rounded alike. -/
lemma nearest_read_chars (d : Decimal) :
    Binary64.nearest (read d.chars).unscaled (10 ^ (read d.chars).places) =
      Binary64.nearest d.unscaled (10 ^ d.places) := by
  obtain ⟨zeros, hplaces, hunscaled⟩ := read_chars d
  rw [hplaces, hunscaled, Nat.pow_add, Nat.mul_comm _ (10 ^ zeros), Nat.mul_comm _ (10 ^ zeros),
    Binary64.nearest_mul (Nat.pow_pos (by decide))]

/-! ### The shortest decimal -/

lemma readsAs_iff {pattern count : Nat} :
    readsAs pattern count = true ↔ Binary64.nearest count (10 ^ finestPlaces) = pattern :=
  beq_iff_eq

/-- A float itself rounds to this float. -/
lemma readsAs_exact {pattern : Nat} (h : pattern ≤ Binary64.infinity) :
    readsAs pattern (exact pattern) = true := by
  have hten : 10 ^ finestPlaces = Binary64.unitsPerOne * 5 ^ finestPlaces :=
    Nat.mul_pow 2 5 finestPlaces
  rw [readsAs_iff, hten]
  exact Binary64.nearest_units h (Nat.pow_pos (by decide))

/-- A neighbour that is chosen has been tried. -/
lemma reads_of_onGrid? {reads : Nat → Bool} {count step chosen : Nat}
    (h : onGrid? reads count step = some chosen) : reads chosen = true := by
  rw [onGrid?] at h
  split at h
  case h_1 hlow hhigh =>
      cases h
      split
      · exact hlow
      · exact hhigh
  case h_2 hlow _ => cases h; exact hlow
  case h_3 _ hhigh => cases h; exact hhigh
  case h_4 => cases h

/-- What is chosen reads back, however coarse the grid is. -/
lemma reads_coarsest {reads : Nat → Bool} {count : Nat} (h : reads count = true) (zeros : Nat) :
    reads (coarsest reads count zeros) = true := by
  induction zeros with
  | zero => exact h
  | succ zeros ih =>
      rw [coarsest]
      split
      case h_1 hgrid => exact reads_of_onGrid? hgrid
      case h_2 => exact ih

/-- **What is written for a float is read as this float.** -/
theorem nearest_read_shortest {pattern : Nat} (h : pattern ≤ Binary64.infinity) :
    Binary64.nearest (read (shortest pattern).chars).unscaled
      (10 ^ (read (shortest pattern).chars).places) = pattern := by
  rw [nearest_read_chars]
  exact readsAs_iff.1 (reads_coarsest (readsAs_exact h) _)

end Scriptlet.Decimal
