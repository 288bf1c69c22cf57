import BookingApp.Messaging.Attempts

/-!
# What a replay repeats

A key's row does not say to which attempt it was given, so a completion that comes
late may land in the row of another request (`replay_of_another`). As long as every
completion finds the row of its own request, a replay repeats the response of an
attempt at the same request (`replays_faithful`).
-/

set_option autoImplicit false

namespace BookingApp

open ReadCommitted ReadCommitted.Proto

/-- Attempts with any handler, the sweep, and the passing of time. -/
inductive KeyedOperation : Tx Unit → Prop where
  | attempt (api : Api) (request : KeyedRequest) (rounds statusCode : Nat) : KeyedOperation
      (discard (intercept api request rounds statusCode someHandler))
  | sweep (batches : Nat) : KeyedOperation (sweepKeys batches)
  | wait (milliseconds : Nat) : KeyedOperation (tick milliseconds)

theorem KeyedOperation.safe {c : Conditions store} {code : Tx Unit} (h : KeyedOperation code) :
    (keyProtocol c).Safe code := by
  intro d _
  cases h with
  | attempt api request rounds statusCode =>
    exact (wp_map _ _).mpr (wp_intercept fun _ _ _ _ => wp_someHandler)
  | sweep batches => exact wp_sweepKeys
  | wait milliseconds => exact wp_tick

/-- The request whose completion the statement commits. -/
def Point.completes : Point → Option KeyedRequest
  | .keyed (.completion _) _ key scope requestHash => some { key, scope, requestHash }
  | _ => none

/-- A completion finds no row in progress but that of its own request. -/
def matchingCompletions : Conditions store where
  Assume p d := ∀ request ∈ p.completes, ∀ row ∈ d.idempotencyKeys, row.key = request.key →
    row.state = .IN_PROGRESS → row.scope = request.scope ∧ row.requestHash = request.requestHash
  Stable _ _ _ := True
  Fault _ _ := True

instance : matchingCompletions.Checkable where
  assume _ _ := inferInstanceAs (Decidable (∀ _ ∈ _, _))
  stable _ _ _ := .isTrue trivial
  fault _ _ := .isTrue trivial

/-- The attempt `name` was granted its key for this request. -/
def GrantedFor (name : Nat) (key scope requestHash : String) (notes : List AttemptEvent) : Prop :=
  ∃ time expiresAt, .granted name key scope requestHash time expiresAt ∈ notes

/-- A replay repeats the response of an attempt that was granted the key for the same request. -/
def Faithful (before : List AttemptEvent) : AttemptEvent → Prop
  | .replayed key scope requestHash statusCode body => ∃ name stored,
      GrantedFor name key scope requestHash before ∧
        .completed name key statusCode body stored ∈ before
  | _ => True

/-- What is stored was stored by attempts at the request that it is stored for, and so were the
replays. -/
structure Replayable (d : Db) : Prop where
  stored : Stored d
  matched : ∀ name key statusCode body scope requestHash,
    .completed name key statusCode body (some (scope, requestHash)) ∈ d.attempts →
      GrantedFor name key scope requestHash d.attempts
  faithful : History.Lawful Faithful d.attempts

/-- With no attempt noted, only rows in progress can be there. -/
theorem Replayable.of_none {d : Db} (hnone : d.attempts = [])
    (hrows : ∀ row ∈ d.idempotencyKeys, row.state ≠ .COMPLETED) : Replayable d where
  stored row hrow hstate := absurd hstate (hrows row hrow)
  matched _ _ _ _ _ _ hmem := by
    rw [hnone] at hmem
    cases hmem
  faithful := hnone ▸ History.lawful_nil

theorem GrantedFor.append {name : Nat} {key scope requestHash : String}
    {notes more : List AttemptEvent} (h : GrantedFor name key scope requestHash notes) :
    GrantedFor name key scope requestHash (notes ++ more) := by
  obtain ⟨time, expiresAt, hmem⟩ := h
  exact ⟨time, expiresAt, List.mem_append_left _ hmem⟩

section Move

variable {d d' : Db}

/-- Notes that are neither completions nor replays keep what is replayable. -/
theorem Replayable.append (h : Replayable d) {more : List AttemptEvent} (hstored : Stored d')
    (hnotes : d'.attempts = d.attempts ++ more)
    (hmore : ∀ e ∈ more, (∀ name key statusCode body stored,
      e ≠ .completed name key statusCode body stored) ∧ ∀ before, Faithful before e) :
    Replayable d' where
  stored := hstored
  matched name key statusCode body scope requestHash hmem := by
    rw [hnotes] at hmem ⊢
    rcases List.mem_append.mp hmem with hold | hnew
    · exact (h.matched _ _ _ _ _ _ hold).append
    · exact absurd rfl ((hmore _ hnew).1 _ _ _ _ _)
  faithful := hnotes ▸ h.faithful.append_of_forall fun e he => (hmore e he).2

theorem Replayable.move (h : Replayable d) (hlegal : Legal d)
    (hmove : KeyMove matchingCompletions d d') : Replayable d' := by
  have hstored := h.stored.move hlegal hmove
  cases hmove with
  | quiet hkeys hnotes => exact h.append hstored (hnotes.trans (List.append_nil _).symm) (by simp)
  | begun request hkeys hnotes => exact h.append hstored hnotes (by simp [Faithful])
  | claimed attempt row hkey hscope hhash hstate hkeys hnotes =>
    exact h.append hstored hnotes (by simp [Attempt.granted, Faithful])
  | tookOver attempt ids expiresAt hassume hsome hrows hkeys hnotes =>
    exact h.append hstored hnotes (by simp [Attempt.granted, Faithful])
  | deleted ids hrows hkeys hnotes =>
    refine h.append hstored hnotes fun e he => ?_
    obtain ⟨row, -, -, -, rfl⟩ := mem_retiredKeys.mp he
    simp [Faithful]
  | completed attempt ids statusCode body expiresAt f hassume hgranted hrows hf hkeys hnotes =>
    refine ⟨hstored, fun name key statusCode' body' scope requestHash hmem => ?_, ?_⟩
    · rw [hnotes] at hmem ⊢
      rcases List.mem_append.mp hmem with hold | hnew
      · exact (h.matched _ _ _ _ _ _ hold).append
      -- the row it is stored in is one of its own request
      · simp only [List.mem_singleton, AttemptEvent.completed.injEq] at hnew
        obtain ⟨rfl, rfl, rfl, rfl, hfor⟩ := hnew
        obtain ⟨row, hrow, he⟩ := Option.map_eq_some_iff.mp hfor.symm
        have hmem := List.mem_of_find?_eq_some hrow
        have hid : row.id ∈ ids := by simpa using List.find?_some hrow
        obtain ⟨hkey, hstate⟩ := hrows.of_mem hlegal hmem hid
        obtain ⟨hscope, hhash⟩ := hassume attempt.toKeyedRequest rfl row hmem hkey hstate
        obtain ⟨rfl, rfl⟩ := Prod.mk.inj he
        rw [hscope, hhash]
        exact GrantedFor.append hgranted
    · exact hnotes ▸ h.faithful.append_of_forall (by simp [Faithful])
  | abandoned attempt unbound bound expiresAt hassume hrows hkeys hnotes =>
    exact h.append hstored hnotes (by simp [Faithful])
  | bound ids bookingId hkeys hnotes => exact h.append hstored (hnotes.trans (List.append_nil _).symm) (by simp)
  | recorded attempt hassume hkeys hnotes => exact h.append hstored hnotes (by simp [Faithful])
  | replayed key scope requestHash statusCode body hfor hkeys hnotes =>
    refine ⟨hstored, fun name key statusCode' body' scope requestHash hmem => ?_, ?_⟩
    · rw [hnotes] at hmem ⊢
      rcases List.mem_append.mp hmem with hold | hnew
      · exact (h.matched _ _ _ _ _ _ hold).append
      · simp at hnew
    · obtain ⟨name, hcompleted⟩ := hfor
      refine hnotes ▸ History.lawful_concat.mpr ⟨h.faithful, name, _, ?_, hcompleted⟩
      exact h.matched _ _ _ _ _ _ hcompleted

end Move

/-- In every run in which each completion finds the row of its own request. -/
theorem replays_faithful {d : Db} (hd : Legal d) (hr : Replayable d) {s : Sys store}
    (hrun : Sys.Reach KeyedOperation matchingCompletions { db := d } s)
    {before after : List AttemptEvent} {key scope requestHash body : String} {statusCode : Nat}
    (hreplayed : s.db.attempts =
      before ++ .replayed key scope requestHash statusCode body :: after) :
    ∃ name stored, GrantedFor name key scope requestHash before ∧
      .completed name key statusCode body stored ∈ before := by
  have hinv := (Sys.Reach.invariant (P := keyProtocol matchingCompletions) (I := Replayable)
    (fun _ h => h.safe) (fun _ _ hinv _ hmove h => h.move hinv.1 hmove) ⟨hd, hr.stored⟩ hr hrun).2
  exact hinv.faithful _ _ _ hreplayed

/-- What the database answers to the row of a key that is there. -/
def keyTaken : Failure :=
  .database { sqlState := some "23505", message := "Unique constraint failed", fields := ["key"] }

/-- A request with the key "k" and a body that hashes to this. -/
def KeyedRequest.sample (requestHash : String) : KeyedRequest where
  key := "k"
  scope := "booking.create"
  requestHash := requestHash

/-- An attempt that a client makes at the request. -/
def attemptWith (requestHash : String) : Tx Unit :=
  discard (intercept .sample (.sample requestHash) 2 201 someHandler)

/-- The client `i` claims a key that has no row. -/
def claims (i : Nat) (id : String) : List (Action store) :=
  [.run i, .run i, .answer i { id }, .run i, .run i, .run i]

/-- The client `i` finds the row of its key. -/
def findsKey (i : Nat) : List (Action store) :=
  [.run i, .run i, .answer i {}, .run i, .run i, .fail i keyTaken, .run i, .run i, .run i]

/-- The handler of the client `i` answers, and the answer is stored. -/
def answersWith (i : Nat) (body : String) : List (Action store) :=
  [.answer i {}, .answer i { random := body }, .run i, .run i, .run i, .run i]

/-- Another client starts as the `i`th, and waits for this long. -/
def waits (i : Nat) (milliseconds : Nat) : List (Action store) :=
  [.start (tick milliseconds), .run i]

/-- Another client starts as the `i`th, and sweeps one expired key. -/
def sweepsOne (i : Nat) : List (Action store) :=
  [.start (sweepKeys 1), .run i, .run i, .run i, .run i, .run i, .run i]

/-- An attempt completes, and its retry is answered from what is stored. -/
def replayedOnce : List (Action store) :=
  [.start (attemptWith "h1")] ++ claims 0 "1" ++ answersWith 0 "first" ++
    [.start (attemptWith "h1")] ++ findsKey 1 ++ [.run 1]

theorem starts_replayedOnce : ∀ a ∈ replayedOnce, Sys.Starts KeyedOperation a := by
  simp [replayedOnce, claims, answersWith, findsKey, attemptWith, Sys.Starts, KeyedOperation.attempt]

/-- The notes before the replay. -/
def notesOfFirst : List AttemptEvent :=
  [.begun "k" "booking.create" "h1", .granted 0 "k" "booking.create" "h1" 0 120000,
    .completed 0 "k" 201 "first" (some ("booking.create", "h1")), .begun "k" "booking.create" "h1"]

theorem replays_faithful_sample : ∃ s : Sys store, ∃ name stored,
    s.db.attempts = notesOfFirst ++ [.replayed "k" "booking.create" "h1" 201 "first"] ∧
      GrantedFor name "k" "booking.create" "h1" notesOfFirst ∧
        .completed name "k" 201 "first" stored ∈ notesOfFirst := by
  have hexec : (Sys.exec matchingCompletions { db := Db.sample [] } replayedOnce).map (fun s =>
      s.db.attempts) =
        some (notesOfFirst ++ [.replayed "k" "booking.create" "h1" 201 "first"]) := by rfl
  obtain ⟨s, hs, hnotes⟩ := Option.map_eq_some_iff.mp hexec
  have hrun := Sys.Reach.exec (fun _ _ => trivial) .refl starts_replayedOnce hs
  obtain ⟨name, stored, hgranted, hcompleted⟩ :=
    replays_faithful (by decide) (.of_none rfl (by simp [Db.sample])) hrun hnotes
  exact ⟨s, name, stored, hnotes, hgranted, hcompleted⟩

/-- The attempt at the first request outlives its lease, and its row. -/
def completedLate : List (Action store) :=
  [.start (attemptWith "h1")] ++ claims 0 "1" ++ waits 1 120001 ++ sweepsOne 2 ++
    [.start (attemptWith "h2")] ++ claims 3 "2" ++ answersWith 0 "first" ++
    [.start (attemptWith "h2")] ++ findsKey 4 ++ [.run 4]

theorem starts_completedLate : ∀ a ∈ completedLate, Sys.Starts KeyedOperation a := by
  simp [completedLate, claims, waits, sweepsOne, answersWith, findsKey, attemptWith, Sys.Starts,
    KeyedOperation.attempt, KeyedOperation.sweep, KeyedOperation.wait]

/-- The notes before that replay. -/
def notesOfBoth : List AttemptEvent :=
  [.begun "k" "booking.create" "h1", .granted 0 "k" "booking.create" "h1" 0 120000,
    .begun "k" "booking.create" "h2", .granted 2 "k" "booking.create" "h2" 120001 240001,
    .completed 0 "k" 201 "first" (some ("booking.create", "h2")), .begun "k" "booking.create" "h2"]

/-- The retry of the second request is answered with the response to the first. -/
theorem replay_of_another : ¬ ∀ (d : Db) (s : Sys store), Legal d → Replayable d →
    Sys.Reach KeyedOperation .none { db := d } s →
    ∀ (before after : List AttemptEvent) (key scope requestHash body : String) (statusCode : Nat),
      s.db.attempts = before ++ .replayed key scope requestHash statusCode body :: after →
      ∃ name stored, GrantedFor name key scope requestHash before ∧
        .completed name key statusCode body stored ∈ before := by
  intro h
  have hexec : (Sys.exec .none { db := Db.sample [] } completedLate).map (fun s => s.db.attempts) =
      some (notesOfBoth ++ [.replayed "k" "booking.create" "h2" 201 "first"]) := by rfl
  obtain ⟨s, hs, hnotes⟩ := Option.map_eq_some_iff.mp hexec
  have hrun := Sys.Reach.exec (fun _ _ => trivial) .refl starts_completedLate hs
  obtain ⟨name, stored, ⟨time, expiresAt, hgranted⟩, hcompleted⟩ :=
    h _ s (by decide) (.of_none rfl (by simp [Db.sample])) hrun _ _ _ _ _ _ _ hnotes
  simp [notesOfBoth] at hgranted hcompleted
  omega

end BookingApp
