import ServerDeploy.Proofs.Decimal.Magnitude
import ServerDeploy.Proofs.World.Run

/-! How long a condition is waited for. A clock that only goes on reaches every finite duration, so the
checks of a condition come to an end, and every check but the first begins one interval after the time
was seen not to be up. -/

namespace ServerDeploy

open Binary64

theorem Binary64.limit_eq : limit = (2 ^ 1024 : Nat) := by
  have hpow : (2 : ℚ) ^ (971 : Int) = 2 ^ (971 : Nat) := zpow_natCast 2 971
  unfold limit
  rw [hpow, ← pow_add, Nat.cast_pow, Nat.cast_ofNat]

namespace Seconds

/-- A duration as a number. -/
def value : Seconds → ℚ
  | .whole n => n
  | .real x => x.value

theorem isReached_iff {s : Seconds} (hs : s.toBinary64.isFinite = true) (elapsed : Binary64) :
    s.isReached elapsed = true ↔ s.value ≤ elapsed.value := by
  have hden : (0 : ℚ) < elapsed.signedQuotient.2 := by exact_mod_cast elapsed.signedQuotient_den_pos
  cases s with
  | whole n =>
    have hwhole : isReached elapsed (.whole n) =
        decide (n * elapsed.signedQuotient.2 ≤ elapsed.signedQuotient.1) := rfl
    rw [hwhole, decide_eq_true_iff]
    change _ ↔ (n : ℚ) ≤ elapsed.signedQuotient.1 / elapsed.signedQuotient.2
    rw [le_div_iff₀ hden]
    exact_mod_cast Iff.rfl
  | real x =>
    have hx : (0 : ℚ) < x.signedQuotient.2 := by exact_mod_cast x.signedQuotient_den_pos
    have hcode : x.code < infinityCode := of_decide_eq_true hs
    have hnumber : x.isNaN = false := decide_eq_false (by omega)
    have hbounded : x.isInfinite = false := beq_false_of_ne (by omega)
    have hreal : isReached elapsed (.real x) = decide (x.signedQuotient.1 * elapsed.signedQuotient.2 ≤
        elapsed.signedQuotient.1 * x.signedQuotient.2) := by
      unfold isReached
      dsimp only
      rw [hnumber, hbounded]
      rfl
    rw [hreal, decide_eq_true_iff]
    change _ ↔ (x.signedQuotient.1 : ℚ) / x.signedQuotient.2 ≤
      elapsed.signedQuotient.1 / elapsed.signedQuotient.2
    rw [div_le_div_iff₀ hx hden]
    exact_mod_cast Iff.rfl

theorem value_lt_limit {s : Seconds} (hs : s.toBinary64.isFinite = true) : s.value < limit := by
  cases s with
  | real x => exact x.value_le_magnitude.trans_lt (magnitude_lt_limit hs)
  | whole n =>
    by_contra hge
    have hn : limit ≤ (n : ℚ) := not_lt.mp hge
    have hpos : 0 < n := by exact_mod_cast limit_pos.trans_le hn
    obtain ⟨m, rfl⟩ := Int.eq_ofNat_of_zero_le hpos.le
    have hround : (ofInt m).magnitude = limit := by
      refine magnitude_ofQuotient_huge _ (by simpa using hpos) one_pos ?_
      have hquarter : (0 : ℚ) < 2 ^ (969 : Int) := zpow_pos two_pos _
      simp only [Int.natAbs_natCast, Nat.cast_one, div_one]
      simp only [Int.cast_natCast] at hn
      exact (sub_le_self _ hquarter.le).trans hn
    exact absurd (magnitude_lt_limit hs) (not_lt.mpr hround.ge)

/-- The duration is one of the numbers that a double can hold. -/
def IsExact (s : Seconds) : Prop := s.toBinary64.value = s.value

variable {timeout : Seconds} {start now : Nat}

theorem magnitude_reading_le (hstart : start < 2 ^ 960) :
    (ofQuotient false start 1000).magnitude ≤ 2 ^ (969 : Int) := by
  by_cases hzero : start = 0
  · subst hzero
    rw [magnitude_ofQuotient_zero]
    exact (zpow_pos two_pos _).le
  have hthousand : 0 < 1000 := by decide
  have hle := magnitude_ofQuotient_le false (Nat.pos_of_ne_zero hzero) hthousand
  have hstart' : (start : ℚ) < (2 ^ 960 : Nat) := by exact_mod_cast hstart
  have hpow : (2 : ℚ) ^ (969 : Int) = 2 ^ (960 : Nat) * 2 ^ (9 : Nat) := by
    rw [← pow_add]
    exact zpow_natCast 2 969
  have hone : (1 : ℚ) ≤ 2 ^ (960 : Nat) := one_le_pow₀ one_le_two
  rw [Nat.cast_pow, Nat.cast_ofNat] at hstart'
  rw [hpow]
  generalize (2 : ℚ) ^ (960 : Nat) = p at hstart' hone
  refine hle.trans ?_
  push_cast
  linarith

/-- A clock that has gone on past all that a double can hold has reached every finite duration. -/
theorem isReached_late (hfinite : timeout.toBinary64.isFinite = true) (hstart : start < 2 ^ 960)
    (hnow : 1000 * 2 ^ 1024 ≤ now) : timeout.isReached (elapsedSeconds start now) = true := by
  have hquarter : (0 : ℚ) < 2 ^ (969 : Int) := zpow_pos two_pos _
  have hroom : 2 ^ (969 : Int) < limit - 2 ^ (969 : Int) := by
    rw [limit_eq_mul]
    generalize (2 : ℚ) ^ (969 : Int) = p at hquarter
    linarith
  have hlong : limit ≤ (now : ℚ) / (1000 : Nat) := by
    rw [limit_eq, le_div_iff₀ (by norm_num)]
    exact_mod_cast (Nat.mul_comm _ _).trans_le hnow
  -- the reading is infinite, and taking an early reading from it leaves it so
  have hlate : (ofQuotient false now 1000).magnitude = limit :=
    magnitude_ofQuotient_huge false (pos_of_le_div limit_pos hlong) (by decide)
      ((sub_le_self _ hquarter.le).trans hlong)
  have hearly := magnitude_reading_le hstart
  obtain ⟨num, den, hden, hsub, hdifference⟩ := sub_eq (negative_ofQuotient false now 1000)
    (negative_ofQuotient false start 1000) (hlate ▸ hearly.trans (hroom.le.trans (sub_le_self _ hquarter.le)))
  have hlarge : limit - 2 ^ (969 : Int) ≤ num / den := by
    rw [hdifference, hlate]
    exact sub_le_sub_left hearly _
  have helapsed : (elapsedSeconds start now).value = limit := by
    unfold elapsedSeconds
    rw [hsub, value_of_positive (negative_ofQuotient _ _ _)]
    exact magnitude_ofQuotient_huge false (pos_of_le_div (hquarter.trans hroom) hlarge) hden hlarge
  rw [isReached_iff hfinite, helapsed]
  exact (value_lt_limit hfinite).le

/-- From the start of the clock on, rounding does not hide that a duration is over. -/
theorem isReached_of_le (hfinite : timeout.toBinary64.isFinite = true) (hexact : timeout.IsExact)
    (h : timeout.value ≤ (now : ℚ) / 1000) : timeout.isReached (elapsedSeconds 0 now) = true := by
  have hstart : (ofQuotient false 0 1000).magnitude = 0 := magnitude_ofQuotient_zero false 1000
  obtain ⟨num, den, hden, hsub, hsame⟩ := sub_eq (negative_ofQuotient false now 1000)
    (negative_ofQuotient false 0 1000) (hstart ▸ magnitude_nonneg _)
  rw [hstart, sub_zero] at hsame
  rw [isReached_iff hfinite, elapsedSeconds, hsub, value_of_positive (negative_ofQuotient _ _ _),
    ← hexact]
  rw [← hexact] at h
  by_cases hpos : timeout.toBinary64.value ≤ 0
  · exact hpos.trans (magnitude_nonneg _)
  replace hpos := not_le.mp hpos
  have hsame' : timeout.toBinary64.value = timeout.toBinary64.magnitude := by
    refine value_of_positive (Bool.eq_false_iff.mpr fun hnegative => ?_)
    rw [value_eq, hnegative, if_pos rfl] at hpos
    exact absurd hpos (not_lt.mpr (neg_nonpos.mpr (magnitude_nonneg _)))
  rw [hsame'] at h hpos ⊢
  -- the double is not passed over when the reading is rounded, nor when the difference is
  have hthousand : 0 < 1000 := by decide
  have hnow : 0 < now := @pos_of_le_div _ now 1000 hpos h
  have hreading := hsame ▸ le_magnitude_ofQuotient hfinite false hnow hthousand h
  exact le_magnitude_ofQuotient hfinite false (pos_of_le_div hpos hreading) hden hreading

end Seconds

variable {σ : Type}

/-- The clock has not been turned back. -/
def World.Onward (w w' : World σ) : Prop := w.now ≤ w'.now

theorem World.onward_refl (w : World σ) : w.Onward w := Nat.le_refl _

theorem World.Onward.trans {w w₁ w₂ : World σ} (h : w.Onward w₁) (h' : w₁.Onward w₂) : w.Onward w₂ :=
  Nat.le_trans h h'

namespace Run

/-- How a condition is checked: until it holds, or is broken off, or the time since a clock reading is up.
The worlds in which the checks begin are listed. -/
inductive Polls (condition : Run σ Bool) (timeout interval : Seconds) (start : Nat) :
    World σ → List (World σ) → Except Fault Bool → World σ → Prop
  | broken {w w' : World σ} {e : Fault} (h : condition w = (.error e, w')) :
      Polls condition timeout interval start w [w] (.error e) w'
  | held {w w' : World σ} (h : condition w = (.ok true, w')) :
      Polls condition timeout interval start w [w] (.ok true) w'
  | expired {w w' : World σ} (h : condition w = (.ok false, w'))
      (hover : timeout.isReached (elapsedSeconds start w'.now) = true) :
      Polls condition timeout interval start w [w] (.ok false) w'
  | again {w w₁ w' : World σ} {checks : List (World σ)} {answer : Except Fault Bool}
      (h : condition w = (.ok false, w₁))
      (hleft : timeout.isReached (elapsedSeconds start w₁.now) = false)
      (hrest : Polls condition timeout interval start (w₁.sleep interval.milliseconds) checks answer w') :
      Polls condition timeout interval start w (w :: checks) answer w'

variable {condition : Run σ Bool} {timeout interval : Seconds} {start : Nat} {w w' : World σ}
  {checks : List (World σ)} {answer : Except Fault Bool}

theorem Polls.begins (h : Polls condition timeout interval start w checks answer w') :
    ∃ later, checks = w :: later ∧ ∀ v ∈ later, ∃ reading, v.now = reading + interval.milliseconds ∧
      timeout.isReached (elapsedSeconds start reading) = false := by
  have none : ∀ v ∈ ([] : List (World σ)), ∃ reading, v.now = reading + interval.milliseconds ∧
      timeout.isReached (elapsedSeconds start reading) = false := List.forall_mem_nil _
  induction h with
  | broken h => exact ⟨[], rfl, none⟩
  | held h => exact ⟨[], rfl, none⟩
  | expired h hover => exact ⟨[], rfl, none⟩
  | @again w w₁ w' checks answer h hleft hrest ih =>
    obtain ⟨later, rfl, hlater⟩ := ih
    refine ⟨_, rfl, fun v hv => ?_⟩
    rcases List.mem_cons.mp hv with rfl | hv
    · exact ⟨w₁.now, rfl, hleft⟩
    · exact hlater v hv

/-- While a condition does not hold and the time is not up, it is checked again. -/
theorem Polls.rest {w₁ : World σ} (h : Polls condition timeout interval start w checks answer w')
    (hc : condition w = (.ok false, w₁))
    (hleft : timeout.isReached (elapsedSeconds start w₁.now) = false) :
    ∃ later, checks = w :: later ∧
      Polls condition timeout interval start (w₁.sleep interval.milliseconds) later answer w' := by
  cases h with
  | broken h =>
    rw [hc] at h
    cases h
  | held h =>
    rw [hc] at h
    cases h
  | expired h hover =>
    rw [hc] at h
    cases h
    rw [hleft] at hover
    cases hover
  | again h hleft' hrest =>
    rw [hc] at h
    cases h
    exact ⟨_, rfl, hrest⟩

/-- A condition that held did so when it was checked last. -/
theorem Polls.last (h : Polls condition timeout interval start w checks answer w')
    (hanswer : answer = .ok true) :
    ∃ v, checks.getLast? = some v ∧ condition v = (.ok true, w') := by
  induction h with
  | broken h => cases hanswer
  | held h => exact ⟨_, rfl, h⟩
  | expired h hover => cases hanswer
  | again h hleft hrest ih =>
    obtain ⟨v, hv, hheld⟩ := ih hanswer
    exact ⟨v, List.mem_getLast?_cons hv, hheld⟩

theorem Polls.fault {e : Fault} (h : Polls condition timeout interval start w checks answer w')
    (hanswer : answer = .error e) : ∃ v, condition v = (.error e, w') := by
  induction h with
  | broken h =>
    cases hanswer
    exact ⟨_, h⟩
  | held h => cases hanswer
  | expired h hover => cases hanswer
  | again h hleft hrest ih => exact ih hanswer

theorem pollFrom_succ (checks : Nat) (w : World σ) :
    pollFrom condition timeout interval start (checks + 1) w =
      match condition w with
      | (.error e, w₁) => (.error e, w₁)
      | (.ok true, w₁) => (.ok true, w₁)
      | (.ok false, w₁) =>
        if timeout.isReached (elapsedSeconds start w₁.now) then (.ok false, w₁)
        else pollFrom condition timeout interval start checks (w₁.sleep interval.milliseconds) := by
  rw [pollFrom, bind_apply]
  rcases condition w with ⟨e | holds, w₁⟩
  · rfl
  cases holds with
  | true => rfl
  | false =>
    have helapsed : (hasElapsed start timeout : Run σ Bool) w₁ =
        (.ok (timeout.isReached (elapsedSeconds start w₁.now)), w₁) := rfl
    dsimp only
    rw [if_neg Bool.false_ne_true, bind_of_ok helapsed]
    split
    · rfl
    · exact bind_of_ok rfl

/-- Checks enough for a clock that goes on with every wait are never used up. -/
theorem pollFrom_polls (honward : Along World.Onward condition)
    (hinterval : 0 < interval.milliseconds) {latest : Nat}
    (hlatest : ∀ now, latest ≤ now → timeout.isReached (elapsedSeconds start now) = true) (left : Nat)
    (w : World σ) (hleft : latest ≤ w.now + left) :
    ∃ checks, Polls condition timeout interval start w checks
      (pollFrom condition timeout interval start (left + 1) w).1
      (pollFrom condition timeout interval start (left + 1) w).2 := by
  -- every wait moves the clock on, so what is left of the checks falls with what is left of the time
  induction left using Nat.strong_induction_on generalizing w with
  | _ left ih =>
    have hnow : w.now ≤ (condition w).2.now := honward w
    rw [pollFrom_succ]
    rcases hc : condition w with ⟨e | holds, w₁⟩
    · exact ⟨_, .broken hc⟩
    cases holds with
    | true => exact ⟨_, .held hc⟩
    | false =>
      rw [hc] at hnow
      dsimp only at hnow ⊢
      by_cases hover : timeout.isReached (elapsedSeconds start w₁.now) = true
      · rw [if_pos hover]
        exact ⟨_, .expired hc hover⟩
      · have hearlier : w₁.now < latest := not_le.mp fun hle => hover (hlatest _ hle)
        obtain ⟨fewer, rfl⟩ := Nat.exists_eq_succ_of_ne_zero (n := left) (by omega)
        have hslept : (w₁.sleep interval.milliseconds).now = w₁.now + interval.milliseconds := rfl
        obtain ⟨checks, hrest⟩ := ih fewer (Nat.lt_succ_self fewer) (w₁.sleep interval.milliseconds)
          (by omega)
        rw [if_neg hover]
        exact ⟨_, .again hc (Bool.eq_false_iff.mpr hover) hrest⟩

/-- Waiting for a condition checks it until it holds or the time is up, and comes to an end. -/
theorem waitUntil_polls (honward : Along World.Onward condition)
    (hinterval : 0 < interval.milliseconds) (hfinite : timeout.toBinary64.isFinite = true)
    (hnow : w.now < 2 ^ 960) :
    ∃ checks, Polls condition timeout interval w.now w checks (waitUntil condition timeout interval w).1
      (waitUntil condition timeout interval w).2 := by
  have hstart : waitUntil condition timeout interval w =
      pollFrom condition timeout interval w.now mostChecks w := bind_of_ok (get_apply w)
  have hchecks : mostChecks = 1000 * 2 ^ 1024 + 1 := by
    -- the power is kept from being evaluated
    unfold mostChecks
    generalize 1024 = n
    rfl
  rw [hstart, hchecks]
  exact pollFrom_polls honward hinterval (fun _ => Seconds.isReached_late hfinite hnow) _ w
    (Nat.le_add_left _ _)

end Run

end ServerDeploy
