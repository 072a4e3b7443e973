import Mathlib.Algebra.Order.Field.Basic
import Mathlib.Algebra.Order.Field.Rat
import Mathlib.Data.Nat.Dist
import Mathlib.Order.Monotone.Basic
import Mathlib.Tactic.FieldSimp
import Mathlib.Tactic.Lemma
import Mathlib.Tactic.Ring
import Scriptlet.Number.Binary64

/-!
Rounding goes to the nearest float.

A pattern is `s * 2 ^ 52 + r` with a significand `r` of at most 53 binary digits, and stands for
`r * 2 ^ s` least units. The same holds for the `r` just above, where the carry has moved into the
exponent, so patterns are ordered as the numbers they stand for. A quotient is rounded to a
significand first. What is nearest among the multiples of `2 ^ s` is then nearest among all
patterns, because finer multiples lie below all significands of full length.

* `units_significand`, `exists_significand`: patterns by exponent and significand.
* `units_strictMono`: patterns are ordered as their numbers.
* `roundHalfEven_nearest`: the nearest integer, the even one of two.
* `IsNearest`, `isNearest_nearest`: the nearest pattern, the even one of two. Infinity stands for
  the first number that is too large for a pattern.
* `nearest_units`: a float is the nearest one to itself.
-/

namespace Scriptlet.Binary64

/-! ### Patterns by their significands -/

lemma units_eq (pattern : Nat) :
    units pattern = if pattern / 2 ^ 52 = 0 then pattern
      else (2 ^ 52 + pattern % 2 ^ 52) * 2 ^ (pattern / 2 ^ 52 - 1) := rfl

/-- A significand with an exponent. Only the least exponent has significands that are not of full
length. A significand may be one above the largest, when it has been rounded up. -/
lemma units_significand {s r : Nat} (hr : s = 0 ∨ 2 ^ 52 ≤ r) (hr' : r ≤ 2 ^ 53) :
    units (s * 2 ^ 52 + r) = r * 2 ^ s := by
  rw [units_eq]
  by_cases hshort : r < 2 ^ 52
  · obtain rfl : s = 0 := by omega
    rw [if_pos (by omega), Nat.zero_mul, Nat.zero_add, Nat.pow_zero, Nat.mul_one]
  rw [if_neg (by omega)]
  by_cases hcarry : r = 2 ^ 53
  · have hexponent : (s * 2 ^ 52 + r) / 2 ^ 52 - 1 = s + 1 := by omega
    have hfraction : (s * 2 ^ 52 + r) % 2 ^ 52 = 0 := by omega
    rw [hexponent, hfraction, hcarry]
    ring
  · have hexponent : (s * 2 ^ 52 + r) / 2 ^ 52 - 1 = s := by omega
    have hfraction : 2 ^ 52 + (s * 2 ^ 52 + r) % 2 ^ 52 = r := by omega
    rw [hexponent, hfraction]

/-- Every pattern is a significand with an exponent. -/
lemma exists_significand (pattern : Nat) :
    ∃ s r, pattern = s * 2 ^ 52 + r ∧ (s = 0 ∨ 2 ^ 52 ≤ r) ∧ r < 2 ^ 53 :=
  ⟨pattern / 2 ^ 52 - 1, pattern - (pattern / 2 ^ 52 - 1) * 2 ^ 52, by omega, by omega, by omega⟩

/-- **Patterns are ordered as the numbers they stand for.** -/
theorem units_strictMono : StrictMono units := by
  refine strictMono_nat_of_lt_succ ?_
  intro pattern
  obtain ⟨s, r, rfl, hr, hr'⟩ := exists_significand pattern
  have hnext : units (s * 2 ^ 52 + (r + 1)) = (r + 1) * 2 ^ s :=
    units_significand (by omega) (by omega)
  rw [units_significand hr (by omega), Nat.add_assoc, hnext]
  exact Nat.mul_lt_mul_of_pos_right (Nat.lt_succ_self r) (Nat.two_pow_pos s)

/-! ### The nearest integer -/

lemma roundHalfEven_mul {c : Nat} (hc : 0 < c) (n d : Nat) :
    roundHalfEven (c * n) (c * d) = roundHalfEven n d := by
  have hlt : 2 * (c * (n % d)) < c * d ↔ 2 * (n % d) < d := by
    rw [Nat.mul_left_comm, Nat.mul_lt_mul_left hc]
  have heq : 2 * (c * (n % d)) = c * d ↔ 2 * (n % d) = d := by
    rw [Nat.mul_left_comm, Nat.mul_right_inj hc.ne']
  simp only [roundHalfEven, Nat.mul_div_mul_left n d hc, Nat.mul_mod_mul_left, hlt, heq]

lemma le_roundHalfEven (n d : Nat) : n / d ≤ roundHalfEven n d := by
  rw [roundHalfEven]
  split <;> omega

lemma roundHalfEven_le (n d : Nat) : roundHalfEven n d ≤ n / d + 1 := by
  rw [roundHalfEven]
  split <;> omega

/-- **The nearest multiple**, and of two equally near the even one. -/
theorem roundHalfEven_nearest (n : Nat) {d : Nat} (hd : 0 < d) (q : Nat) :
    Nat.dist n (roundHalfEven n d * d) ≤ Nat.dist n (q * d) ∧
      (Nat.dist n (q * d) = Nat.dist n (roundHalfEven n d * d) →
        q = roundHalfEven n d ∨ roundHalfEven n d % 2 = 0) := by
  have hdivision : n / d * d + n % d = n := Nat.div_add_mod' n d
  have hrest : n % d < d := Nat.mod_lt n hd
  -- The multiples of `d` next to `n` are those of `n / d` and of `n / d + 1`.
  have hnext : (n / d + 1) * d = n / d * d + d := Nat.succ_mul _ _
  have hplace : q * d + d ≤ n / d * d ∨ q = n / d ∨ q = n / d + 1 ∨ n / d * d + 2 * d ≤ q * d := by
    rcases Nat.lt_trichotomy q (n / d) with hq | hq | hq
    · exact .inl (by rw [← Nat.succ_mul]; exact Nat.mul_le_mul_right d hq)
    · exact .inr (.inl hq)
    · by_cases hq' : q = n / d + 1
      · exact .inr (.inr (.inl hq'))
      · refine .inr (.inr (.inr ?_))
        rw [← Nat.add_mul]
        exact Nat.mul_le_mul_right d (by omega)
  rw [roundHalfEven]
  simp only [Nat.dist]
  split
  · rcases hplace with hq | rfl | rfl | hq <;> omega
  · rw [hnext]
    rcases hplace with hq | rfl | rfl | hq <;> omega

/-! ### The nearest pattern -/

/-- The pattern nearest to `n / d` least units, with an exponent of any size. -/
def rounded (n d : Nat) : Nat :=
  excess (n / d) * 2 ^ 52 + roundHalfEven n (d * 2 ^ excess (n / d))

lemma nearest_eq (n d : Nat) : nearest n d = min (rounded (n * unitsPerOne) d) infinity := rfl

/-- Rounding depends on nothing but the quotient. -/
lemma nearest_mul {c : Nat} (hc : 0 < c) (n d : Nat) : nearest (c * n) (c * d) = nearest n d := by
  rw [nearest_eq, nearest_eq, rounded, rounded, Nat.mul_assoc, Nat.mul_div_mul_left _ _ hc,
    Nat.mul_assoc, roundHalfEven_mul hc]

/-- What lies below all significands of full length is farther away than the least of them. -/
lemma dist_lt_of_lt {n near far : Nat} (hfar : far < near) (hnear : near ≤ n) :
    Nat.dist n near < Nat.dist n far := by
  simp only [Nat.dist]
  omega

/-- The quotient of a count by its step has 53 binary digits, or fewer for the least step. -/
lemma div_excess (count : Nat) :
    count / 2 ^ excess count < 2 ^ 53 ∧ (excess count = 0 ∨ 2 ^ 52 ≤ count / 2 ^ excess count) := by
  have hlog : excess count = count.log2 - 52 := rfl
  constructor
  · rw [Nat.div_lt_iff_lt_mul (Nat.two_pow_pos _), ← Nat.pow_add]
    exact Nat.lt_of_lt_of_le Nat.lt_log2_self (Nat.pow_le_pow_right (by decide) (by omega))
  · by_cases hexcess : excess count = 0
    · exact .inl hexcess
    · have hcount : count ≠ 0 := by
        rintro rfl
        exact hexcess rfl
      right
      rw [Nat.le_div_iff_mul_le (Nat.two_pow_pos _), ← Nat.pow_add]
      exact Nat.le_trans (Nat.pow_le_pow_right (by decide) (by omega)) (Nat.log2_self_le hcount)

/-- A smaller exponent gives less than the least significand of full length. -/
lemma significand_lt_full {d r s t : Nat} (hd : 0 < d) (hr : r < 2 ^ 53) (hts : t < s) :
    r * 2 ^ t * d < 2 ^ 52 * (d * 2 ^ s) := by
  have hpow : 2 ^ t * 2 ≤ 2 ^ s := by
    rw [← Nat.pow_succ]
    exact Nat.pow_le_pow_right (by decide) hts
  calc r * 2 ^ t * d
      < 2 ^ 53 * 2 ^ t * d :=
        Nat.mul_lt_mul_of_pos_right (Nat.mul_lt_mul_of_pos_right hr (Nat.two_pow_pos t)) hd
    _ = 2 ^ 52 * (d * (2 ^ t * 2)) := by ring
    _ ≤ 2 ^ 52 * (d * 2 ^ s) := by gcongr

/-- **Without a bound on exponents**, the significand that is rounded to gives the nearest
pattern. -/
theorem rounded_nearest (n : Nat) {d : Nat} (hd : 0 < d) (q : Nat) :
    Nat.dist n (units (rounded n d) * d) ≤ Nat.dist n (units q * d) ∧
      (Nat.dist n (units q * d) = Nat.dist n (units (rounded n d) * d) →
        q = rounded n d ∨ rounded n d % 2 = 0) := by
  obtain ⟨hlt, hle⟩ := div_excess (n / d)
  rw [Nat.div_div_eq_div_mul] at hlt hle
  rw [rounded]
  generalize excess (n / d) = s at hlt hle ⊢
  have hstep : 0 < d * 2 ^ s := Nat.mul_pos hd (Nat.two_pow_pos s)
  have hround := roundHalfEven_nearest n hstep
  have hlow := le_roundHalfEven n (d * 2 ^ s)
  have hhigh := roundHalfEven_le n (d * 2 ^ s)
  generalize roundHalfEven n (d * 2 ^ s) = m at hround hlow hhigh ⊢
  have hm : units (s * 2 ^ 52 + m) = m * 2 ^ s := units_significand (by omega) (by omega)
  have hmd : units (s * 2 ^ 52 + m) * d = m * (d * 2 ^ s) := by
    rw [hm]
    ring
  rw [hmd]
  obtain ⟨t, r, rfl, hr, hr'⟩ := exists_significand q
  rcases Nat.lt_or_ge t s with hts | hst
  · have hfull : 2 ^ 52 * (d * 2 ^ s) ≤ n := by
      rw [← Nat.le_div_iff_mul_le hstep]
      omega
    have hfar := dist_lt_of_lt (significand_lt_full hd hr' hts) hfull
    rw [units_significand hr (by omega)]
    have hnear := (hround (2 ^ 52)).1
    exact ⟨by omega, fun heq => absurd heq (by omega)⟩
  · -- Otherwise the pattern is a multiple of the same step, though not always a significand of it.
    obtain ⟨k, rfl⟩ := Nat.exists_eq_add_of_le hst
    have hq : units ((s + k) * 2 ^ 52 + r) * d = r * 2 ^ k * (d * 2 ^ s) := by
      rw [units_significand hr (by omega)]
      ring
    rw [hq]
    obtain ⟨hnear, heven⟩ := hround (r * 2 ^ k)
    refine ⟨hnear, ?_⟩
    intro heq
    rcases heven heq with hsame | htie
    · left
      apply units_strictMono.injective
      rw [hm, ← hsame, units_significand hr (by omega)]
      ring
    · right
      omega

/-- If a pattern above a bound is nearer than the bound, then the bound is the nearest up to it. -/
lemma clamped_nearest {n d p q bound : Nat} (hd : 0 < d) (hp : bound < p)
    (h : Nat.dist n (units p * d) ≤ Nat.dist n (units bound * d)) (hq : q ≤ bound) :
    Nat.dist n (units bound * d) ≤ Nat.dist n (units q * d) ∧
      (Nat.dist n (units q * d) = Nat.dist n (units bound * d) → q = bound) := by
  have habove : units bound * d < units p * d :=
    Nat.mul_lt_mul_of_pos_right (units_strictMono hp) hd
  have hreached : units bound * d ≤ n := by
    simp only [Nat.dist] at h
    omega
  rcases Nat.lt_or_eq_of_le hq with hlt | rfl
  · have hbelow : units q * d < units bound * d :=
      Nat.mul_lt_mul_of_pos_right (units_strictMono hlt) hd
    have hfar := dist_lt_of_lt hbelow hreached
    exact ⟨hfar.le, fun heq => absurd heq hfar.ne'⟩
  · exact ⟨Nat.le_refl _, fun _ => rfl⟩

/-- The number that a finite pattern stands for. Infinity stands for the number that would come
next. -/
def value (pattern : Nat) : ℚ := units pattern / unitsPerOne

/-- No pattern is nearer to the number, and of two equally near ones it is the even one. -/
structure IsNearest (x : ℚ) (pattern : Nat) : Prop where
  le_infinity : pattern ≤ infinity
  abs_sub_le : ∀ other ≤ infinity, |x - value pattern| ≤ |x - value other|
  even_of_tie : ∀ other ≤ infinity, |x - value other| = |x - value pattern| →
    other = pattern ∨ pattern % 2 = 0

lemma unitsPerOne_pos : 0 < unitsPerOne := by
  unfold unitsPerOne
  generalize finestPlaces = places
  exact Nat.pow_pos (by decide)

lemma cast_dist (m n : Nat) : ((Nat.dist m n : Nat) : ℚ) = |(m : ℚ) - n| := by
  rcases Nat.le_total m n with h | h
  · rw [Nat.dist_eq_sub_of_le h, Nat.cast_sub h, abs_sub_comm, abs_of_nonneg]
    exact sub_nonneg.2 (Nat.cast_le.2 h)
  · rw [Nat.dist_eq_sub_of_le_right h, Nat.cast_sub h, abs_of_nonneg]
    exact sub_nonneg.2 (Nat.cast_le.2 h)

/-- Distances of a quotient to patterns are those of naturals. -/
lemma abs_sub_value (n : Nat) {d : Nat} (hd : 0 < d) (pattern : Nat) :
    |(n : ℚ) / d - value pattern| =
      (Nat.dist (n * unitsPerOne) (units pattern * d) : Nat) / ((d : ℚ) * unitsPerOne) := by
  have hd' : (0 : ℚ) < d := Nat.cast_pos.2 hd
  have hone : (0 : ℚ) < unitsPerOne := Nat.cast_pos.2 unitsPerOne_pos
  have hquotient : (n : ℚ) / d - value pattern =
      ((n * unitsPerOne : Nat) - (units pattern * d : Nat) : ℚ) / (d * unitsPerOne) := by
    rw [value]
    push_cast
    field_simp
  rw [hquotient, abs_div, abs_of_pos (mul_pos hd' hone), cast_dist]

/-- **Rounding gives the nearest pattern.** -/
theorem isNearest_nearest (n : Nat) {d : Nat} (hd : 0 < d) :
    IsNearest ((n : ℚ) / d) (nearest n d) := by
  have hscale : (0 : ℚ) < (d : ℚ) * unitsPerOne :=
    mul_pos (Nat.cast_pos.2 hd) (Nat.cast_pos.2 unitsPerOne_pos)
  have hall := rounded_nearest (n * unitsPerOne) hd
  have hclamp := nearest_eq n d
  generalize rounded (n * unitsPerOne) d = p at hall hclamp
  have hnearest : ∀ q ≤ infinity,
      Nat.dist (n * unitsPerOne) (units (nearest n d) * d) ≤
        Nat.dist (n * unitsPerOne) (units q * d) ∧
      (Nat.dist (n * unitsPerOne) (units q * d) =
          Nat.dist (n * unitsPerOne) (units (nearest n d) * d) →
        q = nearest n d ∨ nearest n d % 2 = 0) := by
    intro q hq
    rcases Nat.lt_or_ge infinity p with hp | hp
    · rw [hclamp, Nat.min_eq_right hp.le]
      obtain ⟨hle, heq⟩ := clamped_nearest hd hp (hall infinity).1 hq
      exact ⟨hle, fun htie => .inl (heq htie)⟩
    · rw [hclamp, Nat.min_eq_left hp]
      exact hall q
  refine ⟨by rw [hclamp]; exact Nat.min_le_right _ _, ?_, ?_⟩
  · intro q hq
    rw [abs_sub_value n hd, abs_sub_value n hd]
    have := Nat.cast_le (α := ℚ).2 (hnearest q hq).1
    exact div_le_div_of_nonneg_right this hscale.le
  · intro q hq heq
    rw [abs_sub_value n hd, abs_sub_value n hd, div_left_inj' hscale.ne', Nat.cast_inj] at heq
    exact (hnearest q hq).2 heq

/-- **A float is the nearest one to itself.** -/
theorem nearest_units {pattern d : Nat} (h : pattern ≤ infinity) (hd : 0 < d) :
    nearest (units pattern * d) (unitsPerOne * d) = pattern := by
  have hscale : 0 < unitsPerOne * d := Nat.mul_pos unitsPerOne_pos hd
  have hvalue : ((units pattern * d : Nat) : ℚ) / (unitsPerOne * d : Nat) = value pattern := by
    rw [value, Nat.cast_mul, Nat.cast_mul, mul_div_mul_right _ _ (Nat.cast_pos.2 hd).ne']
  have hnearest := isNearest_nearest (units pattern * d) hscale
  rw [hvalue] at hnearest
  have hzero := hnearest.abs_sub_le pattern h
  rw [sub_self, abs_zero, abs_nonpos_iff, sub_eq_zero, value, value,
    div_left_inj' (Nat.cast_pos.2 unitsPerOne_pos).ne', Nat.cast_inj] at hzero
  exact (units_strictMono.injective hzero).symm

end Scriptlet.Binary64
