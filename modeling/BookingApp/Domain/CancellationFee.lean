import Mathlib.Tactic.Linarith
import BookingApp.Money

/-!
# The cancellation split (`domain/pricing/cancellation-fee.ts`)

The fee of a policy as a number, with its bounds and its monotonicity, and what
the source's computation makes of it: an amount to retain and one to refund.
-/

set_option autoImplicit false

namespace BookingApp

namespace CancellationFeeSettings

/-- What `organization_settings_ranges_check` and the integer column admit. -/
structure Admitted (settings : CancellationFeeSettings) : Prop where
  hours : 0 ≤ settings.freeCancellationHours ∧ settings.freeCancellationHours ≤ 720
  amount : 0 ≤ settings.cancellationFeeAmountCents ∧
    settings.cancellationFeeAmountCents ≤ 2147483647
  percent : 0 ≤ settings.cancellationFeePercent ∧ settings.cancellationFeePercent ≤ 100

/-- The fee that a late cancellation costs of `paid` cents. -/
def fee (settings : CancellationFeeSettings) (paid : Int) : Int :=
  match settings.cancellationFeePolicy with
  | .NONE => 0
  | .FIXED_AMOUNT => min settings.cancellationFeeAmountCents paid
  | .PERCENTAGE => paid * settings.cancellationFeePercent / 100

/-- The cancellation at `now` comes after the free-of-charge deadline. -/
def Late (settings : CancellationFeeSettings) (startsAt now : Int) : Prop :=
  startsAt - settings.freeCancellationHours * 3600000 < now

instance (settings : CancellationFeeSettings) (startsAt now : Int) :
    Decidable (settings.Late startsAt now) :=
  inferInstanceAs (Decidable (_ < _))

/-- What a cancellation at `now` retains of `paid` cents. -/
def retained (settings : CancellationFeeSettings) (startsAt now paid : Int) : Int :=
  if settings.Late startsAt now then settings.fee paid else 0

variable {settings : CancellationFeeSettings} {paid more : Int}

theorem Admitted.fee_bounds (h : settings.Admitted) (hpaid : 0 ≤ paid) :
    0 ≤ settings.fee paid ∧ settings.fee paid ≤ paid := by
  obtain ⟨-, ⟨hamount, -⟩, hpercent, hhundred⟩ := h
  unfold fee
  cases settings.cancellationFeePolicy with
  | NONE => exact ⟨le_refl 0, hpaid⟩
  | FIXED_AMOUNT => exact ⟨le_min hamount hpaid, min_le_right _ _⟩
  | PERCENTAGE =>
    have hproduct : paid * settings.cancellationFeePercent ≤ paid * 100 :=
      mul_le_mul_of_nonneg_left hhundred hpaid
    have hnonneg := mul_nonneg hpaid hpercent
    dsimp only
    omega

/-- Of more the fee is no less. -/
theorem Admitted.fee_mono (h : settings.Admitted) (hle : paid ≤ more) :
    settings.fee paid ≤ settings.fee more := by
  obtain ⟨-, -, hpercent, -⟩ := h
  unfold fee
  cases settings.cancellationFeePolicy with
  | NONE => exact le_refl 0
  | FIXED_AMOUNT => exact min_le_min_left _ hle
  | PERCENTAGE =>
    exact Int.ediv_le_ediv (by omega) (mul_le_mul_of_nonneg_right hle hpercent)

/-- What is left after the fee is no less either: a cent more costs at most a cent more. -/
theorem Admitted.rest_mono (h : settings.Admitted) (hle : paid ≤ more) :
    paid - settings.fee paid ≤ more - settings.fee more := by
  obtain ⟨-, -, -, hhundred⟩ := h
  unfold fee
  cases settings.cancellationFeePolicy with
  | NONE => simpa using hle
  | FIXED_AMOUNT => dsimp only; omega
  | PERCENTAGE =>
    obtain ⟨extra, hextra, rfl⟩ : ∃ extra, 0 ≤ extra ∧ more = paid + extra :=
      ⟨more - paid, by omega, by omega⟩
    have hstep : extra * settings.cancellationFeePercent ≤ extra * 100 :=
      mul_le_mul_of_nonneg_left hhundred hextra
    dsimp only
    rw [add_mul]
    omega

theorem Admitted.retained_bounds (h : settings.Admitted) (startsAt now : Int) (hpaid : 0 ≤ paid) :
    0 ≤ settings.retained startsAt now paid ∧ settings.retained startsAt now paid ≤ paid := by
  unfold retained
  split
  · exact h.fee_bounds hpaid
  · exact ⟨le_refl 0, hpaid⟩

theorem Admitted.retained_mono (h : settings.Admitted) (startsAt now : Int) (hle : paid ≤ more) :
    settings.retained startsAt now paid ≤ settings.retained startsAt now more ∧
      paid - settings.retained startsAt now paid ≤ more - settings.retained startsAt now more := by
  unfold retained
  split
  · exact ⟨h.fee_mono hle, h.rest_mono hle⟩
  · exact ⟨le_refl 0, by simpa using hle⟩

/-- A cancellation that waits costs no less. -/
theorem Admitted.retained_mono_now (h : settings.Admitted) (startsAt : Int) {now later : Int}
    (hlater : now ≤ later) (hpaid : 0 ≤ paid) :
    settings.retained startsAt now paid ≤ settings.retained startsAt later paid := by
  have hbounds := h.fee_bounds hpaid
  by_cases hlate : settings.Late startsAt now
  · have hstill : settings.Late startsAt later := lt_of_lt_of_le hlate hlater
    simp only [retained, if_pos hlate, if_pos hstill, le_refl]
  · rw [retained, if_neg hlate]
    exact (h.retained_bounds startsAt later hpaid).1

theorem late_of_retained_pos {startsAt now : Int} (h : 0 < settings.retained startsAt now paid) :
    settings.Late startsAt now := by
  by_contra hlate
  rw [retained, if_neg hlate] at h
  exact absurd h (lt_irrefl 0)

end CancellationFeeSettings

variable {settings : CancellationFeeSettings} {paid more : Money}

/-- The source's fee is the policy's, as long as the paid amount is an amount at all. -/
theorem retainedFor_eq_ok (h : settings.Admitted) (hpaid : 0 ≤ paid.amountCents)
    (hsafe : Money.isSafeInteger paid.amountCents = true) :
    retainedFor paid settings = .ok ⟨settings.fee paid.amountCents, paid.currency⟩ := by
  obtain ⟨hlo, hhi⟩ := h.fee_bounds hpaid
  simp only [Money.isSafeInteger, Bool.and_eq_true, decide_eq_true_eq] at hsafe
  unfold retainedFor
  split
  · -- nothing was paid, and no policy retains anything
    rw [show settings.fee paid.amountCents = 0 by omega]
    rfl
  · obtain ⟨-, hamount, hpercent⟩ := h
    unfold CancellationFeeSettings.fee at hlo hhi ⊢
    generalize settings.cancellationFeePolicy = policy at hlo hhi ⊢
    cases policy with
    | NONE => rfl
    | FIXED_AMOUNT =>
      dsimp only at hlo hhi ⊢
      rw [Money.fromCents_of_range (by omega) (by omega), max_eq_right hamount.1]
      unfold Money.cappedAt Money.assertSameCurrency
      simp only [bind, Except.bind, pure, Except.pure, if_true, Except.ok.injEq]
      split
      · rw [min_eq_right (by omega)]
      · rw [min_eq_left (by omega)]
    | PERCENTAGE =>
      have hnonneg := mul_nonneg hpaid hpercent.1
      dsimp only at hlo hhi ⊢
      unfold Money.percent
      rw [if_neg (by omega), Int.tdiv_eq_ediv_of_nonneg hnonneg,
        Money.fromCents_of_range (by omega) (by omega)]

/-- The source splits what was paid into the amount retained and the rest. -/
theorem computeSuggestedRetainedAmount_eq_ok (h : settings.Admitted) (hpaid : 0 ≤ paid.amountCents)
    (hsafe : Money.isSafeInteger paid.amountCents = true) (startsAt now : Int) :
    computeSuggestedRetainedAmount paid startsAt now settings = .ok {
      feeApplies := decide (settings.Late startsAt now),
      suggestedRetained := ⟨settings.retained startsAt now paid.amountCents, paid.currency⟩,
      suggestedRefund :=
        ⟨paid.amountCents - settings.retained startsAt now paid.amountCents, paid.currency⟩ } := by
  obtain ⟨hlo, hhi⟩ := h.retained_bounds startsAt now hpaid
  have hretained := retainedFor_eq_ok h hpaid hsafe
  have hlate : decide (startsAt - now < settings.freeCancellationHours * 3600000) =
      decide (settings.Late startsAt now) := by
    unfold CancellationFeeSettings.Late
    exact decide_eq_decide.mpr (by omega)
  simp only [Money.isSafeInteger, Bool.and_eq_true, decide_eq_true_eq] at hsafe
  have hminus : ∀ cents : Int, 0 ≤ cents → cents ≤ paid.amountCents →
      paid.minus ⟨cents, paid.currency⟩ = .ok ⟨paid.amountCents - cents, paid.currency⟩ := by
    intro cents hcents hle
    unfold Money.minus Money.assertSameCurrency
    rw [if_pos rfl]
    exact Money.fromCents_of_range (n := paid.amountCents - cents) (by omega) (by omega)
  unfold computeSuggestedRetainedAmount
  unfold CancellationFeeSettings.retained at hlo hhi ⊢
  dsimp only
  rw [hlate]
  by_cases hl : settings.Late startsAt now
  · rw [if_pos hl] at hlo hhi ⊢
    simp only [hl, decide_true, if_true, hretained, hminus _ hlo hhi, bind, Except.bind, pure,
      Except.pure]
  · rw [if_neg hl] at hlo hhi ⊢
    simp only [hl, decide_false, Bool.false_eq_true, if_false, Money.zero, hminus 0 hlo hhi, bind,
      Except.bind, pure, Except.pure]

/-- What is retained and what is refunded make up what was paid; both grow with it, the retained
amount grows as the appointment comes closer, and before the deadline nothing is retained. -/
theorem cancellation_split (h : settings.Admitted) {startsAt now later : Int}
    (hpaid : 0 ≤ paid.amountCents) (hmore : paid.amountCents ≤ more.amountCents)
    (hsafe : Money.isSafeInteger more.amountCents = true) (hlater : now ≤ later) :
    ∃ outcome ofMore atLater,
      computeSuggestedRetainedAmount paid startsAt now settings = .ok outcome ∧
      computeSuggestedRetainedAmount more startsAt now settings = .ok ofMore ∧
      computeSuggestedRetainedAmount paid startsAt later settings = .ok atLater ∧
      outcome.suggestedRetained.amountCents + outcome.suggestedRefund.amountCents =
        paid.amountCents ∧
      (0 ≤ outcome.suggestedRetained.amountCents ∧
        outcome.suggestedRetained.amountCents ≤ paid.amountCents) ∧
      outcome.suggestedRetained.amountCents ≤ ofMore.suggestedRetained.amountCents ∧
      outcome.suggestedRefund.amountCents ≤ ofMore.suggestedRefund.amountCents ∧
      outcome.suggestedRetained.amountCents ≤ atLater.suggestedRetained.amountCents ∧
      (0 < outcome.suggestedRetained.amountCents →
        startsAt - settings.freeCancellationHours * 3600000 < now) := by
  have hpaidSafe : Money.isSafeInteger paid.amountCents = true := by
    simp only [Money.isSafeInteger, Bool.and_eq_true, decide_eq_true_eq] at hsafe ⊢
    omega
  have hgrow := h.retained_mono startsAt now hmore
  refine ⟨_, _, _, computeSuggestedRetainedAmount_eq_ok h hpaid hpaidSafe startsAt now,
    computeSuggestedRetainedAmount_eq_ok h (hpaid.trans hmore) hsafe startsAt now,
    computeSuggestedRetainedAmount_eq_ok h hpaid hpaidSafe startsAt later, ?_,
    h.retained_bounds startsAt now hpaid, hgrow.1, hgrow.2,
    h.retained_mono_now startsAt hlater hpaid, CancellationFeeSettings.late_of_retained_pos⟩
  dsimp only
  omega

/-- Half of 99.99 is asked for a minute past the deadline. -/
theorem cancellation_split_half :
    ∃ outcome,
      computeSuggestedRetainedAmount ⟨9999, "EUR"⟩ 259200000 60000 ⟨72, .PERCENTAGE, 0, 50⟩ =
        .ok outcome ∧
      outcome.suggestedRetained.amountCents + outcome.suggestedRefund.amountCents = 9999 := by
  obtain ⟨outcome, -, -, h, -, -, hsum, -⟩ := @cancellation_split ⟨72, .PERCENTAGE, 0, 50⟩
    ⟨9999, "EUR"⟩ ⟨10000, "EUR"⟩ ⟨by decide, by decide, by decide⟩ 259200000 60000 120000
    (by decide) (by decide) (by decide) (by decide)
  exact ⟨outcome, h, hsum⟩

end BookingApp
