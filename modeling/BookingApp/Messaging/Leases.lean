import BookingApp.Messaging.Replays

/-!
# Whose lease it is

A key's row knows when its lease ends, but an attempt gives a key up by the key alone.
As long as no attempt gives up a key that was granted to another since and is still
leased, and no completion shortens a lease, an attempt has its key to itself until its
lease ends (`lease_exclusive`). The attempt whose lease was taken over gives the key
away otherwise (`lease_given_away`).
-/

set_option autoImplicit false

namespace BookingApp

open ReadCommitted ReadCommitted.Proto

/-- The attempt to which the key is granted here. -/
def AttemptEvent.grants (key : String) : AttemptEvent → Option Nat
  | .granted attempt key' _ _ _ _ => if key' = key then some attempt else none
  | _ => none

/-- The attempt to which the key was granted last. -/
def holderOf (key : String) (notes : List AttemptEvent) : Option Nat :=
  History.last (AttemptEvent.grants key) notes

/-- The attempt gives its key up, or completes it. -/
def AttemptEvent.Ends (attempt : Nat) (key : String) (e : AttemptEvent) : Prop :=
  e = .abandoned attempt key ∨ ∃ statusCode body stored,
    e = .completed attempt key statusCode body stored

/-- The attempt was granted the key until `expiresAt`, and has not ended since. -/
def Leased (attempt : Nat) (key : String) (expiresAt : Int) (notes : List AttemptEvent) : Prop :=
  ∃ before scope requestHash time after,
    notes = before ++ .granted attempt key scope requestHash time expiresAt :: after ∧
      ∀ e ∈ after, ¬ e.Ends attempt key

/-- A key is granted once every lease that has not been ended is over. -/
def Exclusive (before : List AttemptEvent) : AttemptEvent → Prop
  | .granted _ key _ _ time _ => ∀ attempt expiresAt, Leased attempt key expiresAt before →
      expiresAt ≤ time
  | _ => True

/-- The attempt whose giving up of its key the statement commits, and the key. -/
def Point.abandons : Point → Option (Nat × String)
  | .keyed .abandonment attempt key _ _ => some (attempt, key)
  | _ => none

/-- The key whose completion the statement commits, and until when its row is kept. -/
def Point.keeps : Point → Option (String × Int)
  | .keyed (.completion expiresAt) _ key _ _ => some (key, expiresAt)
  | _ => none

/-- No attempt gives up a key that is leased to another, and no completion shortens a lease. -/
def ownLeases : Conditions store where
  Assume p d := (∀ a ∈ p.abandons, ∀ row ∈ d.idempotencyKeys, row.key = a.2 →
      row.state = .IN_PROGRESS → holderOf a.2 d.attempts = some a.1 ∨ row.expiresAt ≤ d.clock) ∧
    ∀ k ∈ p.keeps, ∀ row ∈ d.idempotencyKeys, row.key = k.1 → row.state = .IN_PROGRESS →
      row.expiresAt ≤ k.2
  Stable _ _ _ := True
  Fault _ _ := True

instance : ownLeases.Checkable where
  assume _ _ := inferInstanceAs (Decidable ((∀ _ ∈ _, _) ∧ ∀ _ ∈ _, _))
  stable _ _ _ := .isTrue trivial
  fault _ _ := .isTrue trivial

/-- A lease that has not been ended is over, or the key's row is kept as long as it lasts. -/
structure Leases (d : Db) : Prop where
  exclusive : History.Lawful Exclusive d.attempts
  past : ∀ attempt key scope requestHash time expiresAt,
    .granted attempt key scope requestHash time expiresAt ∈ d.attempts → time ≤ d.clock
  kept : ∀ attempt key expiresAt, Leased attempt key expiresAt d.attempts →
    expiresAt ≤ d.clock ∨ ∃ row ∈ d.idempotencyKeys, row.key = key ∧ expiresAt ≤ row.expiresAt

section Leased

variable {attempt : Nat} {key : String} {expiresAt : Int} {notes more : List AttemptEvent}
  {e : AttemptEvent}

/-- A lease that was not ended by an entry stood before it, unless the entry is its grant. -/
theorem Leased.of_concat (h : Leased attempt key expiresAt (notes ++ [e])) :
    (Leased attempt key expiresAt notes ∧ ¬ e.Ends attempt key) ∨
      ∃ scope requestHash time, e = .granted attempt key scope requestHash time expiresAt := by
  obtain ⟨before, scope, requestHash, time, after, hnotes, hopen⟩ := h
  rcases List.eq_nil_or_concat after with rfl | ⟨rest, last, rfl⟩
  · obtain ⟨rfl, hlast⟩ := List.append_inj' hnotes rfl
    exact .inr ⟨scope, requestHash, time, List.head_eq_of_cons_eq hlast⟩
  · rw [List.concat_eq_append, ← List.cons_append, ← List.append_assoc] at hnotes
    obtain ⟨rfl, hlast⟩ := List.append_inj' hnotes rfl
    obtain rfl := List.head_eq_of_cons_eq hlast
    refine .inl ⟨⟨before, scope, requestHash, time, rest, rfl, fun e he => hopen e ?_⟩, hopen _ ?_⟩
    · simp [he]
    · simp

/-- Entries that grant nothing and end nothing leave the leases alone. -/
theorem Leased.of_append (h : Leased attempt key expiresAt (notes ++ more))
    (hmore : ∀ e ∈ more, e.grants key = none) : Leased attempt key expiresAt notes := by
  induction more using List.reverseRecOn with
  | nil => simpa using h
  | append_singleton more e ih =>
    rw [← List.append_assoc] at h
    obtain ⟨hrest, -⟩ | ⟨scope, requestHash, time, rfl⟩ := h.of_concat
    · exact ih hrest fun e he => hmore e (List.mem_append_left _ he)
    · have := hmore _ (List.mem_append_right _ List.mem_cons_self)
      simp [AttemptEvent.grants] at this

/-- Only the last grant of a key can still be open: the others are over. -/
theorem Leased.over {d : Db} (hd : Leases d) (h : Leased attempt key expiresAt d.attempts)
    {holder : Nat} (hholder : holderOf key d.attempts = some holder) (hne : attempt ≠ holder) :
    expiresAt ≤ d.clock := by
  obtain ⟨before, scope, requestHash, time, after, hnotes, hopen⟩ := h
  obtain ⟨between, next, rest, rfl, hnext⟩ := History.exists_of_last_eq_some hholder hnotes
    (by simp [AttemptEvent.grants]) (by simpa [AttemptEvent.grants] using hne)
  cases next with
  | granted name key' scope' requestHash' time' expiresAt' =>
    simp only [AttemptEvent.grants, Option.ite_none_right_eq_some, Option.some.injEq] at hnext
    obtain ⟨rfl, rfl⟩ := hnext
    have hbefore : Leased attempt key' expiresAt
        (before ++ .granted attempt key' scope requestHash time expiresAt :: between) :=
      ⟨before, scope, requestHash, time, between, rfl, fun e he => hopen e (by simp [he])⟩
    have hexclusive := hd.exclusive _ (.granted name key' scope' requestHash' time' expiresAt') rest
      (by rw [hnotes]; simp) attempt expiresAt hbefore
    exact hexclusive.trans
      (hd.past name key' scope' requestHash' time' expiresAt' (by rw [hnotes]; simp))
  | _ => cases hnext

end Leased

section Move

variable {d d' : Db}

/-- Notes that grant nothing keep the leases if the rows are kept that the open ones need. -/
theorem Leases.append (h : Leases d) {more : List AttemptEvent}
    (hnotes : d'.attempts = d.attempts ++ more) (hmore : ∀ e ∈ more, ∀ key, e.grants key = none)
    (hclock : d.clock ≤ d'.clock)
    (hrows : ∀ attempt key expiresAt, Leased attempt key expiresAt d'.attempts →
      ∀ row ∈ d.idempotencyKeys, row.key = key → expiresAt ≤ row.expiresAt →
        expiresAt ≤ d'.clock ∨
          ∃ row' ∈ d'.idempotencyKeys, row'.key = key ∧ expiresAt ≤ row'.expiresAt) :
    Leases d' where
  exclusive := hnotes ▸ h.exclusive.append_of_forall fun e he before => by
    cases e with
    | granted name key scope requestHash time expiresAt =>
      have := hmore _ he key
      simp [AttemptEvent.grants] at this
    | _ => trivial
  past name key scope requestHash time expiresAt hmem := by
    rcases List.mem_append.mp (hnotes ▸ hmem) with hold | hnew
    · exact (h.past _ _ _ _ _ _ hold).trans hclock
    · have := hmore _ hnew key
      simp [AttemptEvent.grants] at this
  kept name key expiresAt hleased := by
    have hold := (hnotes ▸ hleased).of_append fun e he => hmore e he key
    rcases h.kept name key expiresAt hold with hover | ⟨row, hrow, hkey, hkept⟩
    · exact .inl (hover.trans hclock)
    · exact hrows name key expiresAt hleased row hrow hkey hkept

/-- A grant keeps the leases if the earlier ones of its key are over. -/
theorem Leases.grant (h : Leases d) {attempt : Attempt} {expiresAt : Int}
    (hnotes : d'.attempts = d.attempts ++ attempt.granted expiresAt d.clock)
    (hclock : d'.clock = d.clock)
    (hover : ∀ name stop, Leased name attempt.key stop d.attempts → stop ≤ d.clock)
    (hrow : ∃ row ∈ d'.idempotencyKeys, row.key = attempt.key ∧ expiresAt ≤ row.expiresAt)
    (hothers : ∀ row ∈ d.idempotencyKeys, row.key ≠ attempt.key → row ∈ d'.idempotencyKeys) :
    Leases d' where
  exclusive := hnotes ▸ History.lawful_concat.mpr ⟨h.exclusive, hover⟩
  past name key scope requestHash time stop hmem := by
    rw [hclock]
    rcases List.mem_append.mp (hnotes ▸ hmem) with hold | hnew
    · exact h.past _ _ _ _ _ _ hold
    · simp only [Attempt.granted, List.mem_singleton, AttemptEvent.granted.injEq] at hnew
      exact hnew.2.2.2.2.1.le
  kept name key stop hleased := by
    rw [hclock]
    rcases (hnotes ▸ hleased).of_concat with ⟨hold, -⟩ | ⟨scope, requestHash, time, hgrant⟩
    · by_cases hkey : key = attempt.key
      · exact .inl (hover name stop (hkey ▸ hold))
      · rcases h.kept name key stop hold with hover | ⟨row, hmem, rfl, hkept⟩
        · exact .inl hover
        · exact .inr ⟨row, hothers row hmem hkey, rfl, hkept⟩
    · obtain ⟨-, rfl, -, -, -, rfl⟩ := AttemptEvent.granted.inj hgrant
      exact .inr hrow

theorem Leases.move (h : Leases d) (hlegal : Legal d) (hlegal' : Legal d')
    (hmove : KeyMove ownLeases d d') : Leases d' := by
  cases hmove with
  | quiet hkeys hnotes hclock =>
    exact h.append (hnotes.trans (List.append_nil _).symm) (by simp) hclock
      fun _ _ _ _ row hrow hkey hkept => .inr ⟨row, hkeys ▸ hrow, hkey, hkept⟩
  | begun request hkeys hnotes hclock =>
    exact h.append hnotes (by simp [AttemptEvent.grants]) hclock.ge
      fun _ _ _ _ row hrow hkey hkept => .inr ⟨row, hkeys ▸ hrow, hkey, hkept⟩
  | claimed attempt new hkey hscope hhash hstate hkeys hnotes hclock =>
    refine h.grant hnotes hclock (fun name stop hleased => ?_)
      ⟨new, by simp [hkeys], hkey, le_rfl⟩ fun row hrow _ => by simp [hkeys, hrow]
    rcases h.kept name _ stop hleased with hover | ⟨row, hrow, hsame, -⟩
    · exact hover
    · exact absurd (hsame.trans hkey.symm) (hlegal'.key_ne_new hkeys hrow)
  | tookOver attempt ids expiresAt hassume hsome hrows hkeys hnotes hclock =>
    obtain ⟨id, hid⟩ := List.exists_mem_of_ne_nil ids hsome
    obtain ⟨held, hfind, hown, -, hexpired⟩ := hrows id hid
    have hheld := Table.mem_of_find hfind
    refine h.grant hnotes hclock (fun name stop hleased => ?_)
      ⟨{ held with expiresAt }, ?_, hown, le_rfl⟩ fun row hrow hother => ?_
    · rcases h.kept name _ stop hleased with hover | ⟨row, hrow, hsame, hkept⟩
      · exact hover
      · obtain rfl := hlegal.key_unique hrow hheld (hsame.trans hown.symm)
        exact hkept.trans hexpired
    · rw [hkeys]
      exact Table.mem_update.mpr ⟨held, hheld, if_pos (Table.key_of_find hfind ▸ hid)⟩
    · rw [hkeys]
      exact Table.mem_update.mpr ⟨row, hrow,
        if_neg fun hmem => hother (hrows.of_mem hlegal hrow hmem).1⟩
  | deleted ids hrows hkeys hnotes hclock =>
    refine h.append hnotes (fun e he key => ?_) hclock.ge fun _ _ _ _ row hrow hkey hkept => ?_
    · obtain ⟨row, -, -, -, rfl⟩ := mem_retiredKeys.mp he
      rfl
    · by_cases hid : row.id ∈ ids
      · exact .inl (hclock ▸ hkept.trans (hrows.of_mem hlegal hrow hid).1)
      · exact .inr ⟨row, by simp [hkeys, hrow, hid], hkey, hkept⟩
  | completed attempt ids statusCode body expiresAt f hassume hgranted hrows hf hkeys hnotes hclock =>
    refine h.append hnotes (by simp [AttemptEvent.grants]) hclock.ge
      fun _ _ _ _ row hrow hkey hkept => .inr ?_
    by_cases hid : row.id ∈ ids
    · obtain ⟨hown, hstate⟩ := hrows.of_mem hlegal hrow hid
      refine ⟨f row, ?_, (hf row).key.trans hkey, ?_⟩
      · rw [hkeys]
        exact Table.mem_update.mpr ⟨row, hrow, if_pos hid⟩
      · rw [(hf row).expiresAt]
        exact hkept.trans (hassume.2 _ rfl row hrow hown hstate)
    · refine ⟨row, ?_, hkey, hkept⟩
      rw [hkeys]
      exact Table.mem_update.mpr ⟨row, hrow, if_neg hid⟩
  | abandoned attempt unbound bound expiresAt hassume hrows hkeys hnotes hclock =>
    refine h.append hnotes (by simp [AttemptEvent.grants]) hclock.ge
      fun name key stop hleased row hrow hkey hkept => ?_
    by_cases hid : row.id ∈ unbound ++ bound
    · obtain ⟨hown, hstate⟩ := hrows.of_mem hlegal hrow hid
      rcases hassume.1 _ rfl row hrow hown hstate with hholder | hexpired
      -- the holder has ended its lease, and the others are over
      · obtain ⟨hold, hopen⟩ | ⟨scope, requestHash, time, hgrant⟩ := (hnotes ▸ hleased).of_concat
        · obtain rfl : key = attempt.key := hkey.symm.trans hown
          have hne : name ≠ attempt.name := fun he => hopen (.inl (by rw [he]))
          exact .inl (hclock ▸ hold.over h hholder hne)
        · cases hgrant
      · exact .inl (hclock ▸ hkept.trans hexpired)
    · simp only [List.mem_append, not_or] at hid
      refine .inr ⟨row, ?_, hkey, hkept⟩
      rw [hkeys]
      exact Table.mem_update.mpr ⟨row, by simp [hrow, hid.1], if_neg hid.2⟩
  | bound ids bookingId hkeys hnotes hclock =>
    refine h.append (hnotes.trans (List.append_nil _).symm) (by simp) hclock.ge
      fun _ _ _ _ row hrow hkey hkept => .inr ?_
    refine ⟨_, hkeys ▸ Table.mem_update.mpr ⟨row, hrow, rfl⟩, ?_⟩
    split
    · exact ⟨hkey, hkept⟩
    · exact ⟨hkey, hkept⟩
  | recorded attempt hassume hkeys hnotes hclock =>
    exact h.append hnotes (by simp [AttemptEvent.grants]) hclock.ge
      fun _ _ _ _ row hrow hkey hkept => .inr ⟨row, hkeys ▸ hrow, hkey, hkept⟩
  | replayed key scope requestHash statusCode body hstored hkeys hnotes hclock =>
    exact h.append hnotes (by simp [AttemptEvent.grants]) hclock.ge
      fun _ _ _ _ row hrow hkey hkept => .inr ⟨row, hkeys ▸ hrow, hkey, hkept⟩

end Move

/-- With no attempt noted, nothing is leased. -/
theorem Leases.of_none {d : Db} (hnone : d.attempts = []) : Leases d where
  exclusive := hnone ▸ History.lawful_nil
  past _ _ _ _ _ _ hmem := by
    rw [hnone] at hmem
    cases hmem
  kept _ _ _ := by
    rintro ⟨before, scope, requestHash, time, after, hnotes, -⟩
    rw [hnone] at hnotes
    simp at hnotes

/-- In every run in which attempts give up their own leases only. -/
theorem lease_exclusive {d : Db} (hd : Legal d) (hs : Stored d) (hl : Leases d) {s : Sys store}
    (hrun : Sys.Reach KeyedOperation ownLeases { db := d } s)
    {before between after : List AttemptEvent} {attempt next : Nat}
    {key scope requestHash scope' requestHash' : String} {time expiresAt time' expiresAt' : Int}
    (hnotes : s.db.attempts =
      (before ++ .granted attempt key scope requestHash time expiresAt :: between) ++
        .granted next key scope' requestHash' time' expiresAt' :: after)
    (hopen : ∀ e ∈ between, ¬ e.Ends attempt key) : expiresAt ≤ time' := by
  have hinv := (Sys.Reach.invariant (P := keyProtocol ownLeases) (I := Leases)
    (fun _ h => h.safe) (fun _ _ hinv hinv' hmove h => h.move hinv.1 hinv'.1 hmove) ⟨hd, hs⟩ hl hrun).2
  exact hinv.exclusive _ _ _ hnotes attempt expiresAt
    ⟨before, scope, requestHash, time, between, rfl, hopen⟩

/-- The client `i` takes over the lease it has found to be over. -/
def takesOver (i : Nat) : List (Action store) :=
  findsKey i ++ [.run i, .run i, .run i]

/-- The handler of the client `i` fails, and its key is given up. -/
def givesUp (i : Nat) : List (Action store) :=
  [.answer i {}, .answer i { choice := 1 }, .run i, .run i, .run i, .run i, .run i]

/-- A lease runs out, and the retry takes it over. -/
def takenOver : List (Action store) :=
  [.start (attemptWith "h")] ++ claims 0 "1" ++ waits 1 120001 ++ [.start (attemptWith "h")] ++
    takesOver 2

theorem starts_takenOver : ∀ a ∈ takenOver, Sys.Starts KeyedOperation a := by
  simp [takenOver, claims, waits, takesOver, findsKey, attemptWith, Sys.Starts,
    KeyedOperation.attempt, KeyedOperation.wait]

/-- The first lease, and the beginning of the second attempt. -/
def notesOfFirstLease : List AttemptEvent :=
  [.begun "k" "booking.create" "h", .granted 0 "k" "booking.create" "h" 0 120000,
    .begun "k" "booking.create" "h"]

theorem lease_exclusive_sample : ∃ s : Sys store,
    s.db.attempts = notesOfFirstLease ++ [.granted 2 "k" "booking.create" "h" 120001 240001] ∧
      (120000 : Int) ≤ 120001 := by
  have hexec : (Sys.exec ownLeases { db := Db.sample [] } takenOver).map (fun s => s.db.attempts) =
      some (notesOfFirstLease ++ [.granted 2 "k" "booking.create" "h" 120001 240001]) := by rfl
  obtain ⟨s, hs, hnotes⟩ := Option.map_eq_some_iff.mp hexec
  have hrun := Sys.Reach.exec (fun _ _ => trivial) .refl starts_takenOver hs
  have hsplit : s.db.attempts = ([.begun "k" "booking.create" "h"] ++
      .granted 0 "k" "booking.create" "h" 0 120000 :: [.begun "k" "booking.create" "h"]) ++
        .granted 2 "k" "booking.create" "h" 120001 240001 :: [] := hnotes
  refine ⟨s, hnotes, lease_exclusive (by decide) (fun row hrow => by cases hrow) (.of_none rfl) hrun
    hsplit (by simp [AttemptEvent.Ends])⟩

/-- The first attempt outlives its lease, fails, and gives up the key that was taken over. -/
def givenAway : List (Action store) :=
  takenOver ++ givesUp 0 ++ [.start (attemptWith "h")] ++ claims 3 "2"

theorem starts_givenAway : ∀ a ∈ givenAway, Sys.Starts KeyedOperation a := by
  simp [givenAway, takenOver, claims, waits, takesOver, findsKey, givesUp, attemptWith, Sys.Starts,
    KeyedOperation.attempt, KeyedOperation.wait]

/-- What happens during the second lease. -/
def notesOfSecondLease : List AttemptEvent :=
  [.abandoned 0 "k", .begun "k" "booking.create" "h"]

/-- A third attempt is granted the key while the second has the lease. -/
theorem lease_given_away : ¬ ∀ (d : Db) (s : Sys store), Legal d → Stored d → Leases d →
    Sys.Reach KeyedOperation .none { db := d } s →
    ∀ (before between after : List AttemptEvent) (attempt next : Nat)
      (key scope requestHash scope' requestHash' : String) (time expiresAt time' expiresAt' : Int),
      s.db.attempts =
        (before ++ .granted attempt key scope requestHash time expiresAt :: between) ++
          .granted next key scope' requestHash' time' expiresAt' :: after →
      (∀ e ∈ between, ¬ e.Ends attempt key) → expiresAt ≤ time' := by
  intro h
  have hexec : (Sys.exec .none { db := Db.sample [] } givenAway).map (fun s => s.db.attempts) =
      some ((notesOfFirstLease ++ .granted 2 "k" "booking.create" "h" 120001 240001 ::
        notesOfSecondLease) ++ [.granted 5 "k" "booking.create" "h" 120001 240001]) := by rfl
  obtain ⟨s, hs, hnotes⟩ := Option.map_eq_some_iff.mp hexec
  have hrun := Sys.Reach.exec (fun _ _ => trivial) .refl starts_givenAway hs
  have := h _ s (by decide) (fun row hrow => by cases hrow) (.of_none rfl) hrun _ _ _ _ _ _ _ _ _ _
    _ _ _ _ hnotes (by simp [notesOfSecondLease, AttemptEvent.Ends])
  omega

end BookingApp
