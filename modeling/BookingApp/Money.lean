import BookingApp.Errors

/-!
# Money and cancellation fees (`domain/money`, `domain/pricing`)

Amounts are integer cents in a currency. Adding amounts of two currencies, a
percentage out of range and an amount past the safe integers are errors.
-/

set_option autoImplicit false

namespace BookingApp

structure Money where
  amountCents : Int
  currency : String
  deriving DecidableEq, Repr

namespace Money

/-- `Number.isSafeInteger` -/
def isSafeInteger (n : Int) : Bool :=
  decide (-9007199254740991 ≤ n) && decide (n ≤ 9007199254740991)

def fromCents (amountCents : Int) (currency : String) : Except Failure Money :=
  if isSafeInteger amountCents then return { amountCents, currency }
  else throw (.app {
    code := "INVALID_MONEY", status := some 500,
    message := s!"Money amount {amountCents} exceeds the safe integer range." })

def zero (currency : String) : Money :=
  { amountCents := 0, currency }

def assertSameCurrency (left right : Money) : Except Failure Unit :=
  if right.currency = left.currency then return ()
  else throw (.app {
    code := "CURRENCY_MISMATCH", status := some 500,
    message := s!"Cannot combine {left.currency} with {right.currency}.",
    details := [("left", left.currency), ("right", right.currency)] })

def plus (left right : Money) : Except Failure Money := do
  assertSameCurrency left right
  fromCents (left.amountCents + right.amountCents) left.currency

def minus (left right : Money) : Except Failure Money := do
  assertSameCurrency left right
  fromCents (left.amountCents - right.amountCents) left.currency

/-- A whole-number percentage, truncated toward zero. -/
def percent (amount : Money) (percent : Int) : Except Failure Money :=
  if percent < 0 ∨ percent > 100 then throw (.app {
    code := "INVALID_PERCENTAGE", status := some 500,
    message := s!"Percentage must be a whole number between 0 and 100, received {percent}." })
  else fromCents ((amount.amountCents * percent).tdiv 100) amount.currency

def cappedAt (amount ceiling : Money) : Except Failure Money := do
  assertSameCurrency amount ceiling
  return if amount.amountCents > ceiling.amountCents then ceiling else amount

def lessThan (left right : Money) : Except Failure Bool := do
  assertSameCurrency left right
  return decide (left.amountCents < right.amountCents)

variable {a b c : Money}

theorem fromCents_eq_ok {n : Int} {currency : String} (h : fromCents n currency = .ok a) :
    a = { amountCents := n, currency } := by
  unfold fromCents at h
  split at h
  · cases h; rfl
  · cases h

theorem fromCents_of_range {n : Int} {currency : String} (hlo : -9007199254740991 ≤ n)
    (hhi : n ≤ 9007199254740991) : fromCents n currency = .ok { amountCents := n, currency } := by
  simp [fromCents, isSafeInteger, hlo, hhi, pure, Except.pure]

theorem plus_eq_ok (h : plus a b = .ok c) :
    c.amountCents = a.amountCents + b.amountCents ∧ c.currency = a.currency := by
  unfold plus assertSameCurrency at h
  split at h
  · rw [fromCents_eq_ok h]
    exact ⟨rfl, rfl⟩
  · cases h

theorem minus_eq_ok (h : minus a b = .ok c) :
    c.amountCents = a.amountCents - b.amountCents ∧ c.currency = a.currency := by
  unfold minus assertSameCurrency at h
  split at h
  · rw [fromCents_eq_ok h]
    exact ⟨rfl, rfl⟩
  · cases h

end Money

inductive CancellationFeePolicy where
  | NONE
  | FIXED_AMOUNT
  | PERCENTAGE
  deriving DecidableEq, Repr

structure CancellationFeeSettings where
  freeCancellationHours : Int
  cancellationFeePolicy : CancellationFeePolicy
  cancellationFeeAmountCents : Int
  cancellationFeePercent : Int
  deriving DecidableEq, Repr

/-- The outcome a cancellation branches on; the countdown shown to the customer is left out. -/
structure CancellationFeeOutcome where
  feeApplies : Bool
  suggestedRetained : Money
  suggestedRefund : Money
  deriving DecidableEq, Repr

/-- The fee a policy retains of what was paid. -/
def retainedFor (paid : Money) (settings : CancellationFeeSettings) : Except Failure Money :=
  if paid.amountCents ≤ 0 then return Money.zero paid.currency
  else
    match settings.cancellationFeePolicy with
    | .NONE => return Money.zero paid.currency
    | .FIXED_AMOUNT => do
      let fee ← Money.fromCents (max 0 settings.cancellationFeeAmountCents) paid.currency
      fee.cappedAt paid
    | .PERCENTAGE => paid.percent settings.cancellationFeePercent

/-- Whether a cancellation is late, and what it would retain. The limit itself is free. -/
def computeSuggestedRetainedAmount (paid : Money) (startsAt now : Int)
    (settings : CancellationFeeSettings) : Except Failure CancellationFeeOutcome := do
  let feeApplies := decide (startsAt - now < settings.freeCancellationHours * 3600000)
  let retained ← if feeApplies then retainedFor paid settings else pure (Money.zero paid.currency)
  let suggestedRefund ← paid.minus retained
  return { feeApplies, suggestedRetained := retained, suggestedRefund }

end BookingApp
