import Mathlib.Algebra.Order.Field.Power
import Mathlib.Data.Nat.Log
import Mathlib.Data.Rat.Cast.Order
import Mathlib.Tactic.FieldSimp
import Mathlib.Tactic.Linarith
import Mathlib.Tactic.Positivity
import Mathlib.Tactic.Ring
import ServerDeploy.World.Clock

/-! The magnitudes of doubles as rational numbers. Rounding goes to a multiple of a power of two, so it
never falls below a double that is there to be reached, and what is too large becomes infinite. A
difference is the double nearest to the difference of the magnitudes. -/

namespace ServerDeploy

namespace Binary64

/-- The magnitude that a code stands for. Infinity counts as the next power of two. -/
def magnitude (x : Binary64) : ℚ := (x.toQuotient.1 : ℚ) / x.toQuotient.2

def value (x : Binary64) : ℚ := (x.signedQuotient.1 : ℚ) / x.signedQuotient.2

/-- The power of two that infinity counts as. -/
def limit : ℚ := 2 ^ 53 * 2 ^ (971 : Int)

theorem scaleBinary_ratio (num den : Nat) (e : Int) :
    ((scaleBinary num den e).1 : ℚ) / (scaleBinary num den e).2 = num / den * 2 ^ e := by
  unfold scaleBinary
  by_cases he : 0 ≤ e
  · obtain ⟨n, rfl⟩ := Int.eq_ofNat_of_zero_le he
    simp [mul_div_right_comm]
  · obtain ⟨n, hn⟩ : ∃ n : Nat, e = -n := ⟨(-e).toNat, by omega⟩
    rw [if_neg he]
    subst hn
    simp only [neg_neg, Int.toNat_natCast, zpow_neg, zpow_natCast, Nat.cast_mul]
    rw [← div_eq_mul_inv, div_div]
    exact congrArg (fun d => (num : ℚ) / (den * d)) (Nat.cast_pow 2 n)

theorem scaleBinary_den_pos {den : Nat} (hden : 0 < den) (num : Nat) (e : Int) :
    0 < (scaleBinary num den e).2 := by
  unfold scaleBinary
  split
  · exact hden
  · exact Nat.mul_pos hden (Nat.pow_pos (by decide))

theorem toQuotient_den_pos (x : Binary64) : 0 < x.toQuotient.2 := scaleBinary_den_pos one_pos _ _

theorem magnitude_eq (x : Binary64) : x.magnitude = x.decode.1 * 2 ^ x.decode.2 := by
  have h := scaleBinary_ratio x.decode.1 1 x.decode.2
  rwa [Nat.cast_one, div_one] at h

theorem magnitude_nonneg (x : Binary64) : 0 ≤ x.magnitude := by
  unfold magnitude
  positivity

theorem value_eq (x : Binary64) : x.value = if x.negative then -x.magnitude else x.magnitude := by
  unfold value signedQuotient magnitude
  dsimp only
  split
  · push_cast
    exact neg_div _ _
  · rfl

/-- The codes of one binary exponent, and of the start of the next, by their significands. -/
theorem magnitude_code (negative : Bool) {exponent significand : Nat}
    (hle : significand ≤ 2 ^ 53) (hge : 2 ^ 52 ≤ significand ∨ exponent = 0) :
    magnitude ⟨negative, exponent * Nat.pow 2 52 + significand⟩ =
      significand * 2 ^ ((exponent : Int) - 1074) := by
  have hbinade : Nat.pow 2 52 = 4503599627370496 := rfl
  rw [magnitude_eq, hbinade]
  unfold decode
  rw [hbinade]
  dsimp only
  by_cases hsmall : significand < 2 ^ 52
  · obtain rfl : exponent = 0 := by omega
    rw [if_pos (by omega)]
    simp
  rw [if_neg (by omega)]
  dsimp only
  by_cases hnext : significand = 2 ^ 53
  · -- the significand of the next exponent, which is the first one there
    subst hnext
    have hdiv : (exponent * 4503599627370496 + 2 ^ 53) / 4503599627370496 = exponent + 2 := by omega
    have hmod : (exponent * 4503599627370496 + 2 ^ 53) % 4503599627370496 = 0 := by omega
    have hexponent : ((exponent + 2 : Nat) : Int) - 1075 = (exponent : Int) - 1074 + 1 := by
      push_cast
      ring
    rw [hdiv, hmod, hexponent, zpow_add_one₀ two_ne_zero]
    push_cast
    ring
  · have hdiv : (exponent * 4503599627370496 + significand) / 4503599627370496 = exponent + 1 := by
      omega
    have hsignificand : 4503599627370496 +
        (exponent * 4503599627370496 + significand) % 4503599627370496 = significand := by omega
    have hexponent : ((exponent + 1 : Nat) : Int) - 1075 = (exponent : Int) - 1074 := by
      push_cast
      ring
    rw [hdiv, hsignificand, hexponent]

theorem magnitude_infinity (negative : Bool) :
    (infinity negative).magnitude = limit := by
  have h := magnitude_code negative (le_refl (2 ^ 53)) (.inl (by decide : 2 ^ 52 ≤ 2 ^ 53) : _ ∨ 2045 = 0)
  have hexponent : ((2045 : Nat) : Int) - 1074 = 971 := rfl
  rw [hexponent, Nat.cast_pow] at h
  exact h

/-- Every finite magnitude is a significand of fifty-three digits at an exponent that there is. -/
theorem magnitude_of_finite {x : Binary64} (h : x.isFinite = true) :
    ∃ (m : Nat) (e : Int), x.magnitude = m * 2 ^ e ∧ m < 2 ^ 53 ∧ -1074 ≤ e ∧ e ≤ 971 := by
  have hcode : x.code < infinityCode := of_decide_eq_true h
  have hbound : infinityCode = 9218868437227405312 := rfl
  have hbinade : Nat.pow 2 52 = 4503599627370496 := rfl
  rw [hbound] at hcode
  refine ⟨_, _, magnitude_eq x, ?_⟩
  unfold decode
  rw [hbinade]
  split
  · dsimp only
    omega
  · dsimp only
    omega

/-- What is rounded to a natural number lies no farther from it than a half. -/
theorem roundQuotient_near (num : Nat) {den : Nat} (hden : 0 < den) :
    (num : ℚ) / den ≤ roundQuotient num den + 1 / 2 ∧
      (roundQuotient num den : ℚ) - 1 / 2 ≤ num / den := by
  have hsplit : num = den * (num / den) + num % den := (Nat.div_add_mod num den).symm
  have hmod := Nat.mod_lt num hden
  have hden' : (0 : ℚ) < den := by exact_mod_cast hden
  have hq : (num : ℚ) / den = (num / den : Nat) + ((num % den : Nat) : ℚ) / den := by
    field_simp
    exact_mod_cast hsplit
  unfold roundQuotient
  dsimp only
  rw [hq]
  split
  · next hdown =>
    have htwice : num % den * 2 ≤ 1 * den := by
      simp only [Bool.or_eq_true, decide_eq_true_eq, Bool.and_eq_true, beq_iff_eq] at hdown
      omega
    have hhalf : ((num % den : Nat) : ℚ) / den ≤ 1 / 2 := by
      rw [div_le_div_iff₀ hden' two_pos]
      exact_mod_cast htwice
    have hnonneg : (0 : ℚ) ≤ ((num % den : Nat) : ℚ) / den := by positivity
    constructor <;> linarith
  · next hup =>
    have htwice : 1 * den ≤ num % den * 2 := by
      simp only [Bool.or_eq_true, decide_eq_true_eq, Bool.and_eq_true, beq_iff_eq] at hup
      omega
    have hhalf : 1 / 2 ≤ ((num % den : Nat) : ℚ) / den := by
      rw [div_le_div_iff₀ two_pos hden']
      exact_mod_cast htwice
    have hone : ((num % den : Nat) : ℚ) / den ≤ 1 := by
      rw [div_le_one hden']
      exact_mod_cast hmod.le
    push_cast
    constructor <;> linarith

/-- A quotient is rounded to a significand at the exponent that gives it fifty-three digits, or at the
least exponent there is. -/
structure RoundedAt (q : ℚ) (e : Int) (significand : Nat) : Prop where
  least : -1074 ≤ e
  below : q < 2 ^ 53 * 2 ^ e
  full : 2 ^ 52 * 2 ^ e ≤ q ∨ e = -1074
  down : q ≤ (significand + 1 / 2) * 2 ^ e
  up : (significand - 1 / 2) * 2 ^ e ≤ q

namespace RoundedAt

variable {q : ℚ} {e : Int} {significand : Nat}

theorem significand_le (h : RoundedAt q e significand) : significand ≤ 2 ^ 53 := by
  have hpow : (0 : ℚ) < 2 ^ e := by positivity
  have hlt : ((significand : ℚ) - 1 / 2) < 2 ^ 53 := lt_of_mul_lt_mul_right (h.up.trans_lt h.below) hpow.le
  have hlt' : (significand : ℚ) < (2 ^ 53 + 1 : Nat) := by
    push_cast
    linarith
  exact Nat.lt_succ_iff.mp (by exact_mod_cast hlt')

theorem significand_ge (h : RoundedAt q e significand) : 2 ^ 52 ≤ significand ∨ e = -1074 := by
  refine h.full.imp_left fun hfull => ?_
  have hpow : (0 : ℚ) < 2 ^ e := by positivity
  have hle : (2 ^ 52 : ℚ) ≤ significand + 1 / 2 := le_of_mul_le_mul_right (hfull.trans h.down) hpow
  have hlt : ((2 ^ 52 : Nat) : ℚ) < (significand + 1 : Nat) := by
    push_cast
    linarith
  exact Nat.lt_succ_iff.mp (by exact_mod_cast hlt)

end RoundedAt

/-- The binary logarithms place a quotient within two binary exponents. -/
theorem quotient_between {num den : Nat} (hnum : 0 < num) (hden : 0 < den) :
    (2 : ℚ) ^ 51 * 2 ^ ((num.log2 : Int) - den.log2 - 52) < num / den ∧
      (num : ℚ) / den < 2 ^ 53 * 2 ^ ((num.log2 : Int) - den.log2 - 52) := by
  have hden' : (0 : ℚ) < den := by exact_mod_cast hden
  have hnum_ge : (2 : ℚ) ^ num.log2 ≤ num := by exact_mod_cast Nat.log2_self_le hnum.ne'
  have hnum_lt : (num : ℚ) < 2 ^ (num.log2 + 1) := by exact_mod_cast Nat.lt_log2_self
  have hden_ge : (2 : ℚ) ^ den.log2 ≤ den := by exact_mod_cast Nat.log2_self_le hden.ne'
  have hden_lt : (den : ℚ) < 2 ^ (den.log2 + 1) := by exact_mod_cast Nat.lt_log2_self
  have hpow : (2 : ℚ) ^ ((num.log2 : Int) - den.log2 - 52) = 2 ^ num.log2 / 2 ^ den.log2 / 2 ^ 52 := by
    rw [zpow_sub₀ two_ne_zero, zpow_sub₀ two_ne_zero, zpow_natCast, zpow_natCast]
    rfl
  rw [hpow]
  constructor
  · calc (2 : ℚ) ^ 51 * (2 ^ num.log2 / 2 ^ den.log2 / 2 ^ 52)
        = 2 ^ num.log2 / 2 ^ (den.log2 + 1) := by ring
      _ < 2 ^ num.log2 / den := div_lt_div_of_pos_left (by positivity) hden' hden_lt
      _ ≤ num / den := by gcongr
  · calc (num : ℚ) / den < 2 ^ (num.log2 + 1) / den := by gcongr
      _ ≤ 2 ^ (num.log2 + 1) / 2 ^ den.log2 := by gcongr
      _ = 2 ^ 53 * (2 ^ num.log2 / 2 ^ den.log2 / 2 ^ 52) := by ring

theorem ofQuotient_rounded (negative : Bool) {num den : Nat} (hnum : 0 < num) (hden : 0 < den) :
    ∃ (e : Int) (significand : Nat), RoundedAt ((num : ℚ) / den) e significand ∧
      ofQuotient negative num den =
        ⟨negative, min ((e + 1074).toNat * Nat.pow 2 52 + significand) infinityCode⟩ := by
  obtain ⟨habove, hbelow⟩ := quotient_between hnum hden
  unfold ofQuotient
  rw [if_neg (by simp; omega)]
  extract_lets guess
  change 2 ^ 51 * 2 ^ guess < _ at habove
  change _ < 2 ^ 53 * 2 ^ guess at hbelow
  generalize guess = guess at habove hbelow
  -- the guess is one too high where it leaves less than fifty-three digits
  have hguess : (scaleBinary num den (-guess)).1 / (scaleBinary num den (-guess)).2 < Nat.pow 2 52 ↔
      (num : ℚ) / den < 2 ^ 52 * 2 ^ guess := by
    have hpos := scaleBinary_den_pos hden num (-guess)
    have hratio := scaleBinary_ratio num den (-guess)
    rw [Nat.div_lt_iff_lt_mul hpos, ← @Nat.cast_lt ℚ, Nat.cast_mul, ← div_lt_iff₀ (by exact_mod_cast hpos),
      hratio, zpow_neg, ← div_eq_mul_inv, div_lt_iff₀ (by positivity)]
    rfl
  dsimp only
  generalize hchosen : (if (scaleBinary num den (-guess)).1 / (scaleBinary num den (-guess)).2 <
    Nat.pow 2 52 then guess - 1 else guess) = chosen
  have hplaced : (2 : ℚ) ^ 52 * 2 ^ chosen ≤ num / den ∧ (num : ℚ) / den < 2 ^ 53 * 2 ^ chosen := by
    rw [← hchosen]
    split
    · next hlow =>
      have hhalf : (2 : ℚ) ^ (guess - 1) = 2 ^ guess / 2 := zpow_sub_one₀ two_ne_zero _
      have hlow' := hguess.mp hlow
      rw [hhalf]
      constructor <;> linarith
    · next hlow =>
      exact ⟨not_lt.mp fun h => hlow (hguess.mpr h), hbelow⟩
  refine ⟨max chosen (-1074), _, ⟨le_max_right _ _, ?_, ?_, ?_, ?_⟩, rfl⟩
  · have hmono : (2 : ℚ) ^ chosen ≤ 2 ^ max chosen (-1074) :=
      zpow_le_zpow_right₀ one_le_two (le_max_left _ _)
    exact hplaced.2.trans_le (by gcongr)
  · rcases le_total chosen (-1074) with h | h
    · exact .inr (max_eq_right h)
    · rw [max_eq_left h]
      exact .inl hplaced.1
  all_goals
    have hpos := scaleBinary_den_pos hden num (-max chosen (-1074))
    have hnear := roundQuotient_near (scaleBinary num den (-max chosen (-1074))).1 hpos
    have hpow : (0 : ℚ) < 2 ^ max chosen (-1074) := by positivity
    rw [scaleBinary_ratio, zpow_neg, ← div_eq_mul_inv] at hnear
  · exact (div_le_iff₀ hpow).mp hnear.1
  · exact (le_div_iff₀ hpow).mp hnear.2

theorem limit_le {e : Int} {significand : Nat} (he : 971 < e) (hs : 2 ^ 52 ≤ significand) :
    limit ≤ significand * 2 ^ e := by
  have hs' : (2 ^ 52 : ℚ) ≤ significand := by exact_mod_cast hs
  have hpow : (2 : ℚ) ^ (971 + 1 : Int) ≤ 2 ^ e := zpow_le_zpow_right₀ one_le_two he
  calc limit = 2 ^ 52 * 2 ^ (971 + 1 : Int) := by
        unfold limit
        rw [zpow_add_one₀ two_ne_zero]
        ring
    _ ≤ significand * 2 ^ e := mul_le_mul hs' hpow (zpow_pos two_pos _).le (Nat.cast_nonneg _)

/-- Rounding gives the significand at its exponent, as far as there are doubles. -/
theorem magnitude_ofQuotient (negative : Bool) {num den : Nat} (hnum : 0 < num) (hden : 0 < den) :
    ∃ (e : Int) (significand : Nat), RoundedAt ((num : ℚ) / den) e significand ∧
      (ofQuotient negative num den).magnitude = min ((significand : ℚ) * 2 ^ e) limit := by
  obtain ⟨e, significand, hrounded, hcode⟩ := ofQuotient_rounded negative hnum hden
  refine ⟨e, significand, hrounded, ?_⟩
  have hleast := hrounded.least
  have hle := hrounded.significand_le
  have hge : 2 ^ 52 ≤ significand ∨ (e + 1074).toNat = 0 :=
    hrounded.significand_ge.imp_right fun h => by omega
  have hmagnitude := magnitude_code negative hle hge
  have hexponent : (((e + 1074).toNat : Int)) - 1074 = e := by omega
  rw [hexponent] at hmagnitude
  have hbound : infinityCode = 9218868437227405312 := rfl
  have hbinade : Nat.pow 2 52 = 4503599627370496 := rfl
  rw [hcode]
  rcases lt_or_ge ((e + 1074).toNat * Nat.pow 2 52 + significand) infinityCode with h | h
  · rw [min_eq_left h.le, hmagnitude, min_eq_left]
    rw [hbound, hbinade] at h
    have hlast : e ≤ 971 := by omega
    have hle' : (significand : ℚ) ≤ 2 ^ 53 := by exact_mod_cast hle
    have hpow : (2 : ℚ) ^ e ≤ 2 ^ (971 : Int) := zpow_le_zpow_right₀ one_le_two hlast
    exact mul_le_mul hle' hpow (by positivity) (by positivity)
  · have hinfinite : (⟨negative, infinityCode⟩ : Binary64) = infinity negative := rfl
    rw [min_eq_right h, hinfinite, magnitude_infinity, min_eq_right]
    rw [hbound, hbinade] at h
    rcases lt_or_ge 971 e with hlarge | hlast
    · exact limit_le hlarge (by omega)
    · obtain rfl : e = 971 := by omega
      obtain rfl : significand = 2 ^ 53 := by omega
      rw [Nat.cast_pow]
      exact le_rfl

theorem magnitude_lt_limit {x : Binary64} (h : x.isFinite = true) : x.magnitude < limit := by
  obtain ⟨m, e, hmagnitude, hm, -, he⟩ := magnitude_of_finite h
  have hm' : (m : ℚ) < 2 ^ 53 := by exact_mod_cast hm
  have hpow : (2 : ℚ) ^ e ≤ 2 ^ (971 : Int) := zpow_le_zpow_right₀ one_le_two he
  rw [hmagnitude]
  exact mul_lt_mul hm' hpow (by positivity) (by positivity)

/-- A finite double that a quotient reaches is reached by its rounding too. -/
theorem le_magnitude_ofQuotient {x : Binary64} (hx : x.isFinite = true) (negative : Bool) {num den : Nat}
    (hnum : 0 < num) (hden : 0 < den) (h : x.magnitude ≤ num / den) :
    x.magnitude ≤ (ofQuotient negative num den).magnitude := by
  obtain ⟨e, significand, hrounded, hmagnitude⟩ := magnitude_ofQuotient negative hnum hden
  rw [hmagnitude]
  refine le_min ?_ (magnitude_lt_limit hx).le
  obtain ⟨m, f, hx', hm, hleast, -⟩ := magnitude_of_finite hx
  have hpow : (0 : ℚ) < 2 ^ e := by positivity
  rw [hx'] at h ⊢
  rcases le_or_gt e f with hfine | hcoarse
  · -- the double is a whole number of steps, so rounding does not pass it
    obtain ⟨n, rfl⟩ : ∃ n : Nat, f = e + n := ⟨(f - e).toNat, by omega⟩
    have hsteps : (m : ℚ) * 2 ^ (e + n : Int) = (m * 2 ^ n : Nat) * 2 ^ e := by
      rw [zpow_add₀ two_ne_zero, zpow_natCast]
      push_cast
      ring
    rw [hsteps] at h ⊢
    have hle : ((m * 2 ^ n : Nat) : ℚ) ≤ significand + 1 / 2 :=
      le_of_mul_le_mul_right (h.trans hrounded.down) hpow
    have hlt : ((m * 2 ^ n : Nat) : ℚ) < (significand + 1 : Nat) := by
      push_cast at hle ⊢
      linarith
    have hwhole : m * 2 ^ n ≤ significand := Nat.lt_succ_iff.mp (by exact_mod_cast hlt)
    have hwhole' : ((m * 2 ^ n : Nat) : ℚ) ≤ significand := by exact_mod_cast hwhole
    exact mul_le_mul_of_nonneg_right hwhole' hpow.le
  · -- the double has a lesser exponent, and all that are rounded at this one are above it
    have hm' : (m : ℚ) ≤ 2 ^ 53 := by exact_mod_cast hm.le
    have hge : (2 ^ 52 : ℚ) ≤ significand := by
      have hfull := hrounded.significand_ge.resolve_right (by omega)
      exact_mod_cast hfull
    have hpow' : (2 : ℚ) ^ f ≤ 2 ^ (e - 1) := zpow_le_zpow_right₀ one_le_two (by omega)
    calc (m : ℚ) * 2 ^ f ≤ 2 ^ 53 * 2 ^ (e - 1) := mul_le_mul hm' hpow' (by positivity) (by positivity)
      _ = 2 ^ 52 * 2 ^ e := by
        rw [zpow_sub_one₀ two_ne_zero]
        ring
      _ ≤ significand * 2 ^ e := mul_le_mul_of_nonneg_right hge hpow.le

theorem magnitude_ofQuotient_le (negative : Bool) {num den : Nat} (hnum : 0 < num) (hden : 0 < den) :
    (ofQuotient negative num den).magnitude ≤ 2 * (num / den) + 1 := by
  obtain ⟨e, significand, hrounded, hmagnitude⟩ := magnitude_ofQuotient negative hnum hden
  have hup := hrounded.up
  have hstep : (2 : ℚ) ^ e / 2 ≤ num / den + 1 := by
    have hpos : (0 : ℚ) < 2 ^ e := by positivity
    have hquotient : (0 : ℚ) ≤ num / den := by positivity
    rcases hrounded.full with hfull | rfl
    · linarith
    · have hone : (2 : ℚ) ^ (-1074 : Int) ≤ 1 := zpow_le_one_of_nonpos₀ one_le_two (by decide)
      linarith
  rw [hmagnitude]
  refine (min_le_left _ _).trans ?_
  linarith

/-- The last two exponents by the quarter of a step at the last one. -/
theorem last_exponents : (2 : ℚ) ^ (970 : Int) = 2 ^ (969 : Int) * 2 ∧
    (2 : ℚ) ^ (971 : Int) = 2 ^ (969 : Int) * 2 * 2 := by
  have hhalf : (2 : ℚ) ^ (970 : Int) = 2 ^ (969 : Int) * 2 := zpow_add_one₀ two_ne_zero 969
  have hwhole : (2 : ℚ) ^ (971 : Int) = 2 ^ (970 : Int) * 2 := zpow_add_one₀ two_ne_zero 970
  exact ⟨hhalf, hhalf ▸ hwhole⟩

theorem limit_eq_mul : limit = 2 ^ 53 * (2 ^ (969 : Int) * 2 * 2) := by
  rw [limit, last_exponents.2]

theorem limit_pos : 0 < limit := mul_pos (by positivity) (zpow_pos two_pos _)

theorem pos_of_le_div {q : ℚ} {num den : Nat} (hq : 0 < q) (h : q ≤ num / den) : 0 < num := by
  by_contra hzero
  obtain rfl : num = 0 := by omega
  rw [Nat.cast_zero, zero_div] at h
  exact absurd h (not_le.mpr hq)

/-- What comes that near to the limit is rounded to it. -/
theorem magnitude_ofQuotient_huge (negative : Bool) {num den : Nat} (hnum : 0 < num) (hden : 0 < den)
    (h : limit - 2 ^ (969 : Int) ≤ num / den) : (ofQuotient negative num den).magnitude = limit := by
  obtain ⟨e, significand, hrounded, hmagnitude⟩ := magnitude_ofQuotient negative hnum hden
  rw [hmagnitude, min_eq_right]
  have hsmall : 0 < (2 : ℚ) ^ (969 : Int) := zpow_pos two_pos _
  obtain ⟨hhalf, hwhole⟩ := last_exponents
  have hlarge : 971 ≤ e := by
    by_contra hless
    have hle : (2 : ℚ) ^ e ≤ 2 ^ (970 : Int) := zpow_le_zpow_right₀ one_le_two (by omega)
    have hbelow := hrounded.below
    rw [hhalf] at hle
    rw [limit_eq_mul] at h
    generalize (2 : ℚ) ^ (969 : Int) = p at h hle hsmall
    generalize (2 : ℚ) ^ e = unit at hle hbelow
    clear * - h hle hbelow hsmall
    linarith
  rcases eq_or_lt_of_le hlarge with rfl | hlarger
  · -- at the last exponent the quarter of a step that may be missing is rounded up
    have hdown := hrounded.down
    have hge : (2 ^ 53 : ℚ) - 1 / 4 ≤ significand + 1 / 2 := by
      rw [limit_eq_mul] at h
      rw [hwhole] at hdown
      generalize (2 : ℚ) ^ (969 : Int) = p at h hdown hsmall
      refine le_of_mul_le_mul_right (a := p * 2 * 2) ?_ (by positivity)
      linarith
    have hlt : ((2 ^ 53 : Nat) : ℚ) < (significand + 1 : Nat) := by
      clear * - hge
      push_cast
      linarith
    have hfull : 2 ^ 53 ≤ significand := Nat.lt_succ_iff.mp (by exact_mod_cast hlt)
    have hfull' : (2 ^ 53 : ℚ) ≤ significand := by exact_mod_cast hfull
    exact mul_le_mul_of_nonneg_right hfull' (zpow_pos two_pos _).le
  · exact limit_le hlarger (hrounded.significand_ge.resolve_right (by omega))

theorem negative_ofQuotient (negative : Bool) (num den : Nat) :
    (ofQuotient negative num den).negative = negative := by
  unfold ofQuotient
  split <;> rfl

theorem magnitude_ofQuotient_zero (negative : Bool) (den : Nat) :
    (ofQuotient negative 0 den).magnitude = 0 := by
  have hzero : ofQuotient negative 0 den = ⟨negative, 0 * Nat.pow 2 52 + 0⟩ := rfl
  rw [hzero, magnitude_code negative (Nat.zero_le _) (.inr rfl), Nat.cast_zero, zero_mul]

theorem value_of_positive {x : Binary64} (h : x.negative = false) : x.value = x.magnitude := by
  rw [value_eq, h]
  rfl

theorem value_le_magnitude (x : Binary64) : x.value ≤ x.magnitude := by
  have hnonneg := x.magnitude_nonneg
  rw [value_eq]
  split
  · linarith
  · exact le_rfl

theorem signedQuotient_den_pos (x : Binary64) : 0 < x.signedQuotient.2 := x.toQuotient_den_pos

theorem sub_eq {x y : Binary64} (hx : x.negative = false) (hy : y.negative = false)
    (h : y.magnitude ≤ x.magnitude) :
    ∃ num den, 0 < den ∧ x.sub y = ofQuotient false num den ∧
      (num : ℚ) / den = x.magnitude - y.magnitude := by
  have hden : (0 : ℚ) < x.toQuotient.2 := by exact_mod_cast x.toQuotient_den_pos
  have hden' : (0 : ℚ) < y.toQuotient.2 := by exact_mod_cast y.toQuotient_den_pos
  have hle : y.toQuotient.1 * x.toQuotient.2 ≤ x.toQuotient.1 * y.toQuotient.2 := by
    unfold magnitude at h
    rw [div_le_div_iff₀ hden' hden] at h
    exact_mod_cast h
  refine ⟨x.toQuotient.1 * y.toQuotient.2 - y.toQuotient.1 * x.toQuotient.2,
    x.toQuotient.2 * y.toQuotient.2, Nat.mul_pos x.toQuotient_den_pos y.toQuotient_den_pos, ?_, ?_⟩
  · have hsigned : (x.toQuotient.1 : Int) * y.toQuotient.2 - y.toQuotient.1 * x.toQuotient.2 =
        (x.toQuotient.1 * y.toQuotient.2 - y.toQuotient.1 * x.toQuotient.2 : Nat) := by
      rw [Nat.cast_sub hle]
      push_cast
      rfl
    unfold sub signedQuotient ofSignedQuotient
    simp only [hx, hy, Bool.false_eq_true, if_false, hsigned, Int.natAbs_natCast]
    rw [decide_eq_false (Int.not_lt.mpr (Int.natCast_nonneg _))]
  · unfold magnitude
    rw [Nat.cast_sub hle]
    push_cast
    field_simp

end Binary64

end ServerDeploy
