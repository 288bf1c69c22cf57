import BookingApp.Messaging.Leases

/-!
# The effect of a keyed operation

A handler commits its effect before its response is stored, and nothing ties the two
together. As long as an effect is committed under a grant that has not been used, and
no key is granted again while its effect stands, a key leads to one effect until it is
retired (`recorded_once`). A crash between the two commits is enough for a second one
(`recorded_twice`).
-/

set_option autoImplicit false

namespace BookingApp

open ReadCommitted ReadCommitted.Proto

/-- The creation of manual payments, among any other attempts. -/
inductive PaymentOperation : Tx Unit → Prop where
  | keyed {code : Tx Unit} (h : KeyedOperation code) : PaymentOperation code
  | create (api : Api) (request : KeyedRequest) (rounds : Nat) (bookingId : String)
      (input : CreateManualPaymentRequest) : PaymentOperation
      (discard (createManualPayment api request rounds bookingId input))

theorem PaymentOperation.safe {c : Conditions store} {code : Tx Unit} (h : PaymentOperation code) :
    (keyProtocol c).Safe code := by
  cases h with
  | keyed h => exact h.safe
  | create api request rounds bookingId input =>
    exact fun d _ => (wp_map _ _).mpr (wp_intercept fun _ _ _ _ => wp_recordManualPayment)

/-- Who may commit the effect of the key from here on: the attempt it is granted to, and nobody
once there is an effect. -/
def AttemptEvent.entitles (key : String) : AttemptEvent → Option (Option Nat)
  | .granted attempt key' _ _ _ _ => if key' = key then some (some attempt) else none
  | .recorded _ key' => if key' = key then some none else none
  | _ => none

/-- The attempt with a grant of the key that has not been used. -/
def entitledTo (key : String) (notes : List AttemptEvent) : Option Nat :=
  (History.last (AttemptEvent.entitles key) notes).join

/-- Whether the key has had its effect from here on. A key that was retired is as good as new. -/
def AttemptEvent.affects (key : String) : AttemptEvent → Option Bool
  | .recorded _ key' => if key' = key then some true else none
  | .retired key' => if key' = key then some false else none
  | _ => none

/-- The key has had its effect. -/
def EffectStands (key : String) (notes : List AttemptEvent) : Prop :=
  History.last (AttemptEvent.affects key) notes = some true

instance (key : String) (notes : List AttemptEvent) : Decidable (EffectStands key notes) :=
  inferInstanceAs (Decidable (_ = _))

/-- An effect is committed when none stands. -/
def Single (before : List AttemptEvent) : AttemptEvent → Prop
  | .recorded _ key => ¬ EffectStands key before
  | _ => True

/-- The attempt whose effect the statement commits, and its key. -/
def Point.effects : Point → Option (Nat × String)
  | .keyed .effect attempt key _ _ => some (attempt, key)
  | _ => none

/-- Whether the statement takes this row from its holder: by a takeover, by giving the key up, or
by the sweep. -/
def Point.takes (p : Point) (row : IdempotencyKey) : Bool :=
  match p with
  | .keyed .takeover _ key _ _ => decide (row.key = key)
  | .keyed .abandonment _ key _ _ => decide (row.key = key)
  | .keySweep ids => ids.contains row.id
  | _ => false

/-- An effect is committed under a grant that has not been used, while the key's row is there; and
no row in progress is taken from its holder while the key's effect stands. -/
def guardedEffects : Conditions store where
  Assume p d := (∀ a ∈ p.effects, entitledTo a.2 d.attempts = some a.1 ∧
      ∃ row ∈ d.idempotencyKeys, row.key = a.2) ∧
    ∀ row ∈ d.idempotencyKeys, p.takes row = true → row.state = .IN_PROGRESS →
      ¬ EffectStands row.key d.attempts
  Stable _ _ _ := True
  Fault _ _ := True

instance : guardedEffects.Checkable where
  assume _ _ := inferInstanceAs (Decidable ((∀ _ ∈ _, _) ∧ ∀ _ ∈ _, _))
  stable _ _ _ := .isTrue trivial
  fault _ _ := .isTrue trivial

/-- A key whose effect stands has its row, and nobody may commit another one. -/
structure Effects (d : Db) : Prop where
  single : History.Lawful Single d.attempts
  guarded : ∀ key, EffectStands key d.attempts →
    entitledTo key d.attempts = none ∧ ∃ row ∈ d.idempotencyKeys, row.key = key

section Notes

variable {key : String} {notes more : List AttemptEvent}

theorem effectStands_append (h : ∀ e ∈ more, e.affects key = none) :
    EffectStands key (notes ++ more) ↔ EffectStands key notes := by
  rw [EffectStands, History.last_append_of_forall h, EffectStands]

theorem entitledTo_append (h : ∀ e ∈ more, e.entitles key = none) :
    entitledTo key (notes ++ more) = entitledTo key notes := by
  rw [entitledTo, History.last_append_of_forall h, entitledTo]

/-- An effect stands until the key is retired. -/
theorem effectStands_of_recorded {before after : List AttemptEvent} {attempt : Nat}
    (h : .retired key ∉ after) : EffectStands key (before ++ .recorded attempt key :: after) := by
  induction after using List.reverseRecOn with
  | nil => exact History.last_concat_of_some (by simp [AttemptEvent.affects])
  | append_singleton after e ih =>
    have hrest := ih fun hmem => h (List.mem_append_left _ hmem)
    rw [← List.cons_append, ← List.append_assoc]
    cases he : e.affects key with
    | none => exact (effectStands_append (by simpa using he)).mpr hrest
    | some stands =>
      rw [EffectStands, History.last_concat_of_some he]
      cases e with
      | recorded name key' => simp_all [AttemptEvent.affects]
      | retired key' =>
        simp only [AttemptEvent.affects, Option.ite_none_right_eq_some] at he
        exact absurd (by simp [he.1]) h
      | _ => cases he

end Notes

section Move

variable {d d' : Db}

/-- What stands after keys were retired stood before, for a key that was not among them. -/
theorem effectStands_of_retired {key : String} {notes : List AttemptEvent} {ids : List String}
    (h : EffectStands key (notes ++ retiredKeys ids d)) : EffectStands key notes ∧
      ∀ row ∈ d.idempotencyKeys, row.id ∈ ids → row.state = .COMPLETED → row.key ≠ key := by
  rw [EffectStands, History.last_append, Option.or_eq_some_iff, History.last_eq_none] at h
  obtain hnew | ⟨hnone, hold⟩ := h
  · obtain ⟨e, he, hstands⟩ := History.exists_mem_of_last hnew
    obtain ⟨row, -, -, -, rfl⟩ := mem_retiredKeys.mp he
    simp [AttemptEvent.affects] at hstands
  · refine ⟨hold, fun row hrow hid hstate hkey => ?_⟩
    have := hnone _ (mem_retiredKeys.mpr ⟨row, hrow, hid, hstate, rfl⟩)
    simp [AttemptEvent.affects, hkey] at this

/-- Notes of neither grants nor effects keep the effects if the rows are kept. -/
theorem Effects.append (h : Effects d) {more : List AttemptEvent}
    (hnotes : d'.attempts = d.attempts ++ more)
    (hmore : ∀ e ∈ more, ∀ key, e.entitles key = none ∧ e.affects key ≠ some true)
    (hrows : ∀ row ∈ d.idempotencyKeys, EffectStands row.key d'.attempts →
      ∃ row' ∈ d'.idempotencyKeys, row'.key = row.key) : Effects d' where
  single := hnotes ▸ h.single.append_of_forall fun e he before => by
    cases e with
    | recorded name key =>
      have := (hmore _ he key).1
      simp [AttemptEvent.entitles] at this
    | _ => trivial
  guarded key hstands := by
    have hold : EffectStands key d.attempts := by
      rw [EffectStands, hnotes, History.last_append, Option.or_eq_some_iff] at hstands
      obtain hnew | ⟨-, hold⟩ := hstands
      · obtain ⟨e, he, hstands⟩ := History.exists_mem_of_last hnew
        exact absurd hstands (hmore e he key).2
      · exact hold
    obtain ⟨hnone, row, hrow, rfl⟩ := h.guarded key hold
    refine ⟨?_, hrows row hrow hstands⟩
    rw [hnotes, entitledTo_append fun e he => (hmore e he _).1]
    exact hnone

/-- A grant keeps the effects if none stands for its key. -/
theorem Effects.grant (h : Effects d) {attempt : Attempt} {expiresAt : Int}
    (hnotes : d'.attempts = d.attempts ++ attempt.granted expiresAt d.clock)
    (hnone : ¬ EffectStands attempt.key d.attempts)
    (hrows : ∀ row ∈ d.idempotencyKeys, ∃ row' ∈ d'.idempotencyKeys, row'.key = row.key) :
    Effects d' where
  single := hnotes ▸ History.lawful_concat.mpr ⟨h.single, trivial⟩
  guarded key hstands := by
    rw [hnotes, effectStands_append (by simp [Attempt.granted, AttemptEvent.affects])] at hstands
    have hne : attempt.key ≠ key := fun he => hnone (he ▸ hstands)
    obtain ⟨hentitled, row, hrow, rfl⟩ := h.guarded key hstands
    refine ⟨?_, hrows row hrow⟩
    rw [hnotes, entitledTo_append (by simp [Attempt.granted, AttemptEvent.entitles, hne])]
    exact hentitled

/-- The rows that an update leaves have the keys they had. -/
theorem exists_key_update {ids : List String} {f : IdempotencyKey → IdempotencyKey}
    {t : List IdempotencyKey} {row : IdempotencyKey} (hrow : row ∈ t) (hf : ∀ k, (f k).key = k.key) :
    ∃ row' ∈ Table.update ids f t, row'.key = row.key := by
  refine ⟨_, Table.mem_update.mpr ⟨row, hrow, rfl⟩, ?_⟩
  split
  · exact hf row
  · rfl

theorem Effects.move (h : Effects d) (hlegal : Legal d) (hlegal' : Legal d')
    (hmove : KeyMove guardedEffects d d') : Effects d' := by
  cases hmove with
  | quiet hkeys hnotes hclock =>
    exact h.append (hnotes.trans (List.append_nil _).symm) (by simp)
      fun row hrow _ => ⟨row, hkeys ▸ hrow, rfl⟩
  | begun request hkeys hnotes =>
    exact h.append hnotes (by simp [AttemptEvent.entitles, AttemptEvent.affects])
      fun row hrow _ => ⟨row, hkeys ▸ hrow, rfl⟩
  | claimed attempt new hkey hscope hhash hstate hkeys hnotes =>
    refine h.grant hnotes (fun hstands => ?_) fun row hrow => ⟨row, by simp [hkeys, hrow], rfl⟩
    obtain ⟨-, row, hrow, hsame⟩ := h.guarded _ hstands
    exact hlegal'.key_ne_new hkeys hrow (hsame.trans hkey.symm)
  | tookOver attempt ids expiresAt hassume hsome hrows hkeys hnotes =>
    obtain ⟨id, hid⟩ := List.exists_mem_of_ne_nil ids hsome
    obtain ⟨held, hfind, hown, hstate, -⟩ := hrows id hid
    refine h.grant hnotes ?_ fun row hrow => ?_
    · rw [← hown]
      exact hassume.2 held (Table.mem_of_find hfind) (decide_eq_true hown) hstate
    · rw [hkeys]
      exact exists_key_update hrow fun _ => rfl
  | deleted ids hrows hkeys hnotes =>
    refine h.append hnotes (fun e he key => ?_) fun row hrow hstands => ?_
    · obtain ⟨row, -, -, -, rfl⟩ := mem_retiredKeys.mp he
      simp [AttemptEvent.entitles, AttemptEvent.affects]
    · by_cases hid : row.id ∈ ids
      · rw [hnotes] at hstands
        obtain ⟨hold, hnot⟩ := effectStands_of_retired hstands
        obtain ⟨-, hcompleted | hassume⟩ := hrows.of_mem hlegal hrow hid
        · exact absurd rfl (hnot row hrow hid hcompleted)
        · cases hstate : row.state with
          | COMPLETED => exact absurd rfl (hnot row hrow hid hstate)
          | IN_PROGRESS => exact absurd hold (hassume.2 row hrow (by simpa [Point.takes] using hid) hstate)
      · exact ⟨row, by simp [hkeys, hrow, hid], rfl⟩
  | completed attempt ids statusCode body expiresAt f hassume hgranted hrows hf hkeys hnotes =>
    refine h.append hnotes (by simp [AttemptEvent.entitles, AttemptEvent.affects])
      fun row hrow _ => ?_
    rw [hkeys]
    exact exists_key_update hrow fun k => (hf k).key
  | abandoned attempt unbound bound expiresAt hassume hrows hkeys hnotes =>
    refine h.append hnotes (by simp [AttemptEvent.entitles, AttemptEvent.affects])
      fun row hrow hstands => ?_
    rw [hnotes, effectStands_append (by simp [AttemptEvent.affects])] at hstands
    -- a row in progress is not given up while the effect stands
    have hkept : row.id ∉ unbound := by
      intro hid
      obtain ⟨hown, hstate⟩ := hrows.of_mem hlegal hrow (List.mem_append_left _ hid)
      exact hassume.2 row hrow (decide_eq_true hown) hstate hstands
    rw [hkeys]
    exact exists_key_update (List.mem_filter.mpr ⟨hrow, by simpa using hkept⟩) fun _ => rfl
  | bound ids bookingId hkeys hnotes =>
    refine h.append (hnotes.trans (List.append_nil _).symm) (by simp) fun row hrow _ => ?_
    rw [hkeys]
    exact exists_key_update hrow fun _ => rfl
  | recorded attempt hassume hkeys hnotes =>
    obtain ⟨hentitled, row, hrow, hown⟩ := hassume.1 _ rfl
    refine ⟨hnotes ▸ History.lawful_concat.mpr ⟨h.single, fun hstands => ?_⟩, fun key hstands => ?_⟩
    · rw [(h.guarded _ hstands).1] at hentitled
      cases hentitled
    by_cases hkey : attempt.key = key
    · refine ⟨?_, row, hkeys ▸ hrow, hown.trans hkey⟩
      rw [hnotes, entitledTo, History.last_concat_of_some (b := none) (by simp [AttemptEvent.entitles, hkey])]
      rfl
    · rw [hnotes, effectStands_append (by simp [AttemptEvent.affects, hkey])] at hstands
      rw [hnotes, entitledTo_append (by simp [AttemptEvent.entitles, hkey]), hkeys]
      exact h.guarded key hstands
  | replayed key scope requestHash statusCode body hstored hkeys hnotes =>
    exact h.append hnotes (by simp [AttemptEvent.entitles, AttemptEvent.affects])
      fun row hrow _ => ⟨row, hkeys ▸ hrow, rfl⟩

end Move

/-- With no attempt noted, no key has had its effect. -/
theorem Effects.of_none {d : Db} (hnone : d.attempts = []) : Effects d where
  single := hnone ▸ History.lawful_nil
  guarded key hstands := by
    rw [EffectStands, hnone] at hstands
    cases hstands

/-- In every run in which effects are committed under unused grants, and no key is granted again
while its effect stands. -/
theorem recorded_once {d : Db} (hd : Legal d) (hs : Stored d) (he : Effects d) {s : Sys store}
    (hrun : Sys.Reach PaymentOperation guardedEffects { db := d } s)
    {before between after : List AttemptEvent} {first second : Nat} {key : String}
    (hnotes : s.db.attempts =
      (before ++ .recorded first key :: between) ++ .recorded second key :: after) :
    .retired key ∈ between := by
  have hinv := (Sys.Reach.invariant (P := keyProtocol guardedEffects) (I := Effects)
    (fun _ h => h.safe) (fun _ _ hinv hinv' hmove h => h.move hinv.1 hinv'.1 hmove) ⟨hd, hs⟩ he hrun).2
  by_contra hnone
  exact hinv.single _ _ _ hnotes (effectStands_of_recorded hnone)

/-- A manual payment of 40 for the booking "b", with the key "k". -/
def payForty : Tx Unit :=
  discard (createManualPayment .sample { key := "k", scope := "manual-payment.create", requestHash := "h" }
    3 "b" { amountCents := 40 })

/-- The handler of the client `i` commits the payment. -/
def recordsPayment (i : Nat) (id : String) : List (Action store) :=
  [.run i, .run i, .run i, .answer i { id }, .run i, .run i, .run i]

/-- The response of the client `i` is stored. -/
def storesResponse (i : Nat) : List (Action store) :=
  [.run i, .run i, .run i, .run i]

/-- The client `i` finds a completed key whose replay window is over, and claims it anew. -/
def retiresAndClaims (i : Nat) (id : String) : List (Action store) :=
  findsKey i ++ [.run i, .run i, .run i] ++ [.run i, .answer i { id }, .run i, .run i, .run i]

/-- A payment, and another one with the same key a day later. -/
def paidTwoDays : List (Action store) :=
  [.start payForty] ++ claims 0 "1" ++ recordsPayment 0 "m1" ++ storesResponse 0 ++ waits 1 86400000 ++
    [.start payForty] ++ retiresAndClaims 2 "2" ++ recordsPayment 2 "m2"

theorem starts_paidTwoDays : ∀ a ∈ paidTwoDays, Sys.Starts PaymentOperation a := by
  simp [paidTwoDays, claims, recordsPayment, storesResponse, waits, retiresAndClaims, findsKey,
    payForty, Sys.Starts, PaymentOperation.create, PaymentOperation.keyed, KeyedOperation.wait]

/-- What happens between the two payments. -/
def notesOfRetirement : List AttemptEvent :=
  [.completed 0 "k" 201 "m1" (some ("manual-payment.create", "h")),
    .begun "k" "manual-payment.create" "h", .retired "k",
    .granted 4 "k" "manual-payment.create" "h" 86400000 86520000]

theorem recorded_once_sample : ∃ s : Sys store, ∃ before : List AttemptEvent,
    s.db.attempts = (before ++ .recorded 0 "k" :: notesOfRetirement) ++ [.recorded 4 "k"] ∧
      .retired "k" ∈ notesOfRetirement := by
  have hexec : (Sys.exec guardedEffects { db := Db.sample [.sample] } paidTwoDays).map (fun s =>
      s.db.attempts) = some (([.begun "k" "manual-payment.create" "h",
        .granted 0 "k" "manual-payment.create" "h" 0 120000] ++ .recorded 0 "k" ::
          notesOfRetirement) ++ [.recorded 4 "k"]) := by rfl
  obtain ⟨s, hs, hnotes⟩ := Option.map_eq_some_iff.mp hexec
  have hrun := Sys.Reach.exec (fun _ _ => trivial) .refl starts_paidTwoDays hs
  exact ⟨s, _, hnotes, recorded_once (by decide) (fun row hrow => by cases hrow) (.of_none rfl) hrun hnotes⟩

/-- The first attempt crashes after its payment has committed, and its client retries. -/
def paidTwice : List (Action store) :=
  [.start payForty] ++ claims 0 "1" ++ recordsPayment 0 "m1" ++ [.crash 0] ++ waits 1 120001 ++
    [.start payForty] ++ takesOver 2 ++ recordsPayment 2 "m2"

theorem starts_paidTwice : ∀ a ∈ paidTwice, Sys.Starts PaymentOperation a := by
  simp [paidTwice, claims, recordsPayment, waits, takesOver, findsKey, payForty, Sys.Starts,
    PaymentOperation.create, PaymentOperation.keyed, KeyedOperation.wait]

/-- What happens between the two payments, whose key has not been retired. -/
def notesOfTakeover : List AttemptEvent :=
  [.begun "k" "manual-payment.create" "h", .granted 3 "k" "manual-payment.create" "h" 120001 240001]

/-- The retry takes over the key of an attempt that has had its effect. -/
theorem recorded_twice : ¬ ∀ (d : Db) (s : Sys store), Legal d → Stored d → Effects d →
    Sys.Reach PaymentOperation .none { db := d } s →
    ∀ (before between after : List AttemptEvent) (first second : Nat) (key : String),
      s.db.attempts = (before ++ .recorded first key :: between) ++ .recorded second key :: after →
      .retired key ∈ between := by
  intro h
  have hexec : (Sys.exec .none { db := Db.sample [.sample] } paidTwice).map (fun s => s.db.attempts) =
      some (([.begun "k" "manual-payment.create" "h",
        .granted 0 "k" "manual-payment.create" "h" 0 120000] ++ .recorded 0 "k" ::
          notesOfTakeover) ++ [.recorded 3 "k"]) := by rfl
  obtain ⟨s, hs, hnotes⟩ := Option.map_eq_some_iff.mp hexec
  have hrun := Sys.Reach.exec (fun _ _ => trivial) .refl starts_paidTwice hs
  have hretired := h _ s (by decide) (fun row hrow => by cases hrow) (.of_none rfl) hrun _ _ _ _ _ _ hnotes
  simp [notesOfTakeover] at hretired

end BookingApp
