import AccelPpp.Triton.Timers

/-!
# The periods of timers, and of interim accounting

A caller of `triton_timer_mod` gives the period of a timer in milliseconds. Its part below a second
is multiplied by 1000 instead of 1000000 on the way to `tv_nsec`, so only whole seconds are armed as
they are (`intervalNs_eq_iff`); what is armed instead is shorter, but never by a whole second.

`rad_acct_interim_update` draws the period between the larger of `interval - jitter` and
`INTERIM_SAFE_TIME`, and `interval + jitter`, in whole seconds. What leads out of these bounds is an
upper bound below `INTERIM_SAFE_TIME`, or one that is too large for an `int` in milliseconds.
-/

namespace AccelPpp.Radius

open Int Triton

/-- The interval in nanoseconds that `triton_timer_mod` gives to the kernel for a period. With
`acct-delay-start`, `expire_tv` stays set in the interim timer and decides when it fires first. -/
def intervalNs (period : ℤ) : ℤ :=
  let itInterval := TimerSetting.ts { period := period } |>.itInterval
  itInterval.tvSec * 10 ^ 9 + itInterval.tvNsec

/-- `INTERIM_SAFE_TIME` -/
def interimSafeTime : ℤ := 10

/-- `RAND_MAX` -/
def randMax : ℤ := 2 ^ 31 - 1

/-- A value that an `int` can have. -/
def IsInt (x : ℤ) : Prop := -2 ^ 31 ≤ x ∧ x < 2 ^ 31

instance (x : ℤ) : Decidable (IsInt x) := inferInstanceAs (Decidable (_ ∧ _))

/-- The period in `rad_acct_interim_update` and in `rad_acct_start_recv`, where `random()` returns
`rnd`; none if an `int` overflows. -/
def interimPeriod (interval jitter : ℤ) (rnd : Fin (2 ^ 31)) : Option ℤ :=
  let low := max (interval - jitter) interimSafeTime * 1000
  let high := (interval + jitter) * 1000
  -- The product is a `long`.
  let period := low + ((high - low) * rnd).tdiv randMax
  if IsInt (interval - jitter) ∧ IsInt low ∧ IsInt (interval + jitter) ∧ IsInt high ∧
      IsInt (high - low) ∧ IsInt period then some period
  else none

lemma intervalNs_eq (period : ℤ) :
    intervalNs period = period * 10 ^ 6 - period.tmod 1000 * 999000 := by
  have hsplit := mul_tdiv_add_tmod period 1000
  show period.tdiv 1000 * 10 ^ 9 + period.tmod 1000 * 1000 = _
  omega

/-- **A period is armed as it is** if it is a whole number of seconds. -/
theorem intervalNs_eq_iff (period : ℤ) :
    intervalNs period = period * 10 ^ 6 ↔ period.tmod 1000 = 0 := by
  rw [intervalNs_eq]
  omega

/-- The part of a width that is drawn. -/
lemma tdiv_randMax_mem {width : ℤ} (h : 0 ≤ width) (rnd : Fin (2 ^ 31)) :
    0 ≤ (width * rnd).tdiv randMax ∧ (width * rnd).tdiv randMax ≤ width := by
  have hpos : (0 : ℤ) < randMax := by decide
  have hrnd : (rnd : ℤ) ≤ randMax := Int.le_sub_one_of_lt (by exact_mod_cast rnd.isLt)
  have hprod : 0 ≤ width * (rnd : ℤ) := Int.mul_nonneg h (Int.natCast_nonneg _)
  rw [Int.tdiv_eq_ediv_of_nonneg hprod]
  refine ⟨Int.ediv_nonneg hprod (Int.le_of_lt hpos), Int.ediv_le_of_le_mul hpos ?_⟩
  exact Int.mul_le_mul_of_nonneg_left hrnd h

/-- What is armed is within `interval` plus or minus `jitter` seconds. -/
def InterimWithin (interval jitter period : ℤ) : Prop :=
  (interval - jitter) * 10 ^ 9 ≤ intervalNs period ∧
    intervalNs period ≤ (interval + jitter) * 10 ^ 9

/-- **The intervals that are armed.** A period is exact if it is a whole number of seconds. An
interim interval is within the jitter, whatever `random()` returns, if the largest one is no less
than `INTERIM_SAFE_TIME` and nothing overflows. -/
theorem armed_iff (period interval : ℤ) (jitter : ℕ) :
    (intervalNs period = period * 10 ^ 6 ↔ period.tmod 1000 = 0) ∧
    ((∀ rnd, ∃ p, interimPeriod interval jitter rnd = some p ∧ InterimWithin interval jitter p) ↔
      interimSafeTime ≤ interval + jitter ∧ (interval + jitter) * 1000 < 2 ^ 31 ∧
        -2 ^ 31 ≤ interval - jitter) := by
  refine ⟨intervalNs_eq_iff period, fun h ↦ ?_, fun ⟨hsafe, hhigh, hlow⟩ rnd ↦ ?_⟩
  · -- where `random()` returns zero, the lower bound is what is armed
    obtain ⟨p, hp, -, hle⟩ := h 0
    rw [interimPeriod] at hp
    split at hp
    · next hint =>
      simp only [IsInt] at hint
      have hzero : p = max (interval - jitter) interimSafeTime * 1000 := by
        rw [← Option.some.inj hp]
        simp
      rw [hzero, intervalNs_eq, mul_tmod_left] at hle
      omega
    · nomatch hp
  · have hten : interimSafeTime = 10 := rfl
    generalize hm : max (interval - jitter) interimSafeTime = m
    have hdrawn := tdiv_randMax_mem (show 0 ≤ (interval + jitter) * 1000 - m * 1000 by omega) rnd
    rw [interimPeriod, hm]
    generalize (((interval + jitter) * 1000 - m * 1000) * rnd).tdiv randMax = d at hdrawn ⊢
    refine ⟨m * 1000 + d, if_pos ?_, ?_⟩
    · simp only [IsInt]
      omega
    · have hsplit := mul_tdiv_add_tmod (m * 1000 + d) 1000
      have hmod := tmod_nonneg 1000 (show 0 ≤ m * 1000 + d by omega)
      have hlt := tmod_lt_of_pos (m * 1000 + d) (show (0 : ℤ) < 1000 by decide)
      rw [InterimWithin, intervalNs_eq]
      omega

/-- A period of one and a half seconds is armed as one second and half a millisecond; with an
interval of three seconds and a jitter of two, ten seconds may be armed. -/
theorem armed_otherwise :
    intervalNs 1500 = 1000500000 ∧ intervalNs 1500 ≠ 1500 * 10 ^ 6 ∧
      interimPeriod 3 2 0 = some 10000 ∧ ¬ InterimWithin 3 2 10000 :=
  ⟨by decide, by decide, by decide, fun h ↦ absurd h.2 (by decide)⟩

end AccelPpp.Radius
