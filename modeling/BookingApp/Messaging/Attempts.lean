import BookingApp.Messaging.Idempotency
import BookingApp.ReadCommitted.History
import BookingApp.Store.Rules

/-!
# The protocol of the idempotency keys

What one committed change does to the rows of the keys and to the notes on the
attempts (`KeyMove`), and that every call of the service makes such changes only.
A move says under which condition on the run it was made.
-/

set_option autoImplicit false

namespace BookingApp

open ReadCommitted ReadCommitted.Proto

/-- The rows with these ids are there, and satisfy `p`. -/
def KeyRows (p : IdempotencyKey → Prop) (ids : List String) (d : Db) : Prop :=
  ∀ id ∈ ids, ∃ row, Table.find id d.idempotencyKeys = some row ∧ p row

/-- A key's row that exists stays as it is. -/
def SameKeyRow (id : String) (d d' : Db) : Prop :=
  ∀ row, Table.find id d.idempotencyKeys = some row → Table.find id d'.idempotencyKeys = some row

/-- The attempt was granted its key. -/
def Granted (attempt : Attempt) (d : Db) : Prop :=
  ∃ time expiresAt, .granted attempt.name attempt.key attempt.scope attempt.requestHash time
    expiresAt ∈ d.attempts

/-- An attempt stored this response, in a row with this scope and hash. -/
def StoredFor (key scope requestHash : String) (statusCode : Nat) (body : String) (d : Db) : Prop :=
  ∃ name, .completed name key statusCode body (some (scope, requestHash)) ∈ d.attempts

/-- The responses in completed rows are ones that were stored there. -/
def Stored (d : Db) : Prop :=
  ∀ row ∈ d.idempotencyKeys, row.state = .COMPLETED →
    StoredFor row.key row.scope row.requestHash (row.statusCode.getD 200)
      (row.responseSnapshot.getD "null") d

/-- The row after a completion with this response. -/
structure CompletedAs (k : IdempotencyKey) (statusCode : Nat) (body : String) (expiresAt : Int)
    (k' : IdempotencyKey) : Prop where
  id : k'.id = k.id
  key : k'.key = k.key
  scope : k'.scope = k.scope
  requestHash : k'.requestHash = k.requestHash
  statusCode : k'.statusCode = some statusCode
  responseSnapshot : k'.responseSnapshot = some body
  expiresAt : k'.expiresAt = expiresAt

/-- One committed change of the keys, under the conditions `c`. -/
inductive KeyMove (c : Conditions store) (d d' : Db) : Prop where
  | quiet (hkeys : d'.idempotencyKeys = d.idempotencyKeys) (hnotes : d'.attempts = d.attempts)
      (hclock : d.clock ≤ d'.clock)
  | begun (request : KeyedRequest) (hkeys : d'.idempotencyKeys = d.idempotencyKeys)
      (hnotes : d'.attempts = d.attempts ++ [.begun request.key request.scope request.requestHash])
      (hclock : d'.clock = d.clock)
  | claimed (attempt : Attempt) (row : IdempotencyKey) (hkey : row.key = attempt.key)
      (hscope : row.scope = attempt.scope) (hhash : row.requestHash = attempt.requestHash)
      (hstate : row.state = .IN_PROGRESS) (hkeys : d'.idempotencyKeys = d.idempotencyKeys ++ [row])
      (hnotes : d'.attempts = d.attempts ++ attempt.granted row.expiresAt d.clock)
      (hclock : d'.clock = d.clock)
  | tookOver (attempt : Attempt) (ids : List String) (expiresAt : Int)
      (hassume : c.Assume (attempt.at .takeover) d) (hsome : ids ≠ [])
      (hrows : KeyRows (fun k => k.key = attempt.key ∧ k.state = .IN_PROGRESS ∧
        k.expiresAt ≤ d.clock) ids d)
      (hkeys : d'.idempotencyKeys =
        Table.update ids (fun k => { k with expiresAt }) d.idempotencyKeys)
      (hnotes : d'.attempts = d.attempts ++ attempt.granted expiresAt d.clock)
      (hclock : d'.clock = d.clock)
  | deleted (ids : List String)
      (hrows : KeyRows (fun k => k.expiresAt ≤ d.clock ∧
        (k.state = .COMPLETED ∨ c.Assume (.keySweep ids) d)) ids d)
      (hkeys : d'.idempotencyKeys = d.idempotencyKeys.filter fun k => !ids.contains k.id)
      (hnotes : d'.attempts = d.attempts ++ retiredKeys ids d) (hclock : d'.clock = d.clock)
  | completed (attempt : Attempt) (ids : List String) (statusCode : Nat) (body : String)
      (expiresAt : Int) (f : IdempotencyKey → IdempotencyKey)
      (hassume : c.Assume (attempt.at (.completion expiresAt)) d) (hgranted : Granted attempt d)
      (hrows : KeyRows (fun k => k.key = attempt.key ∧ k.state = .IN_PROGRESS) ids d)
      (hf : ∀ k, CompletedAs k statusCode body expiresAt (f k))
      (hkeys : d'.idempotencyKeys = Table.update ids f d.idempotencyKeys)
      (hnotes : d'.attempts = d.attempts ++
        [.completed attempt.name attempt.key statusCode body (storedFor ids d)])
      (hclock : d'.clock = d.clock)
  | abandoned (attempt : Attempt) (unbound bound : List String) (expiresAt : Int)
      (hassume : c.Assume (attempt.at .abandonment) d)
      (hrows : KeyRows (fun k => k.key = attempt.key ∧ k.state = .IN_PROGRESS) (unbound ++ bound) d)
      (hkeys : d'.idempotencyKeys = Table.update bound (fun k => { k with expiresAt })
        (d.idempotencyKeys.filter fun k => !unbound.contains k.id))
      (hnotes : d'.attempts = d.attempts ++ [.abandoned attempt.name attempt.key])
      (hclock : d'.clock = d.clock)
  | bound (ids : List String) (bookingId : String)
      (hkeys : d'.idempotencyKeys =
        Table.update ids (fun k => { k with bookingId := some bookingId }) d.idempotencyKeys)
      (hnotes : d'.attempts = d.attempts) (hclock : d'.clock = d.clock)
  | recorded (attempt : Attempt) (hassume : c.Assume (attempt.at .effect) d)
      (hkeys : d'.idempotencyKeys = d.idempotencyKeys)
      (hnotes : d'.attempts = d.attempts ++ [.recorded attempt.name attempt.key])
      (hclock : d'.clock = d.clock)
  | replayed (key scope requestHash : String) (statusCode : Nat) (body : String)
      (hstored : StoredFor key scope requestHash statusCode body d)
      (hkeys : d'.idempotencyKeys = d.idempotencyKeys)
      (hnotes : d'.attempts = d.attempts ++ [.replayed key scope requestHash statusCode body])
      (hclock : d'.clock = d.clock)

section Moves

variable {c : Conditions store} {d d' : Db}

/-- The notes only grow. -/
theorem KeyMove.notes (h : KeyMove c d d') : ∃ more, d'.attempts = d.attempts ++ more := by
  cases h with
  | quiet hkeys hnotes => exact ⟨[], by simp [hnotes]⟩
  | begun request hkeys hnotes => exact ⟨_, hnotes⟩
  | claimed attempt row hkey hscope hhash hstate hkeys hnotes => exact ⟨_, hnotes⟩
  | tookOver attempt ids expiresAt hassume hsome hrows hkeys hnotes => exact ⟨_, hnotes⟩
  | deleted ids hrows hkeys hnotes => exact ⟨_, hnotes⟩
  | completed attempt ids statusCode body expiresAt f hassume hgranted hrows hf hkeys hnotes =>
    exact ⟨_, hnotes⟩
  | abandoned attempt unbound bound expiresAt hassume hrows hkeys hnotes => exact ⟨_, hnotes⟩
  | bound ids bookingId hkeys hnotes => exact ⟨[], by simp [hnotes]⟩
  | recorded attempt hassume hkeys hnotes => exact ⟨_, hnotes⟩
  | replayed key scope requestHash statusCode body hstored hkeys hnotes => exact ⟨_, hnotes⟩

/-- The clock does not go back. -/
theorem KeyMove.clock (h : KeyMove c d d') : d.clock ≤ d'.clock := by
  cases h with
  | quiet hkeys hnotes hclock => exact hclock
  | begun request hkeys hnotes hclock => exact hclock.ge
  | claimed attempt row hkey hscope hhash hstate hkeys hnotes hclock => exact hclock.ge
  | tookOver attempt ids expiresAt hassume hsome hrows hkeys hnotes hclock => exact hclock.ge
  | deleted ids hrows hkeys hnotes hclock => exact hclock.ge
  | completed attempt ids statusCode body expiresAt f hassume hgranted hrows hf hkeys hnotes hclock =>
    exact hclock.ge
  | abandoned attempt unbound bound expiresAt hassume hrows hkeys hnotes hclock => exact hclock.ge
  | bound ids bookingId hkeys hnotes hclock => exact hclock.ge
  | recorded attempt hassume hkeys hnotes hclock => exact hclock.ge
  | replayed key scope requestHash statusCode body hstored hkeys hnotes hclock => exact hclock.ge

theorem Granted.move {attempt : Attempt} (hg : Granted attempt d) (h : KeyMove c d d') :
    Granted attempt d' := by
  obtain ⟨more, hmore⟩ := h.notes
  obtain ⟨time, expiresAt, hmem⟩ := hg
  exact ⟨time, expiresAt, hmore ▸ List.mem_append_left _ hmem⟩

theorem StoredFor.move {key scope requestHash : String} {statusCode : Nat} {body : String}
    (hs : StoredFor key scope requestHash statusCode body d) (h : KeyMove c d d') :
    StoredFor key scope requestHash statusCode body d' := by
  obtain ⟨more, hmore⟩ := h.notes
  obtain ⟨name, hmem⟩ := hs
  exact ⟨name, hmore ▸ List.mem_append_left _ hmem⟩

/-- A key has one row. -/
theorem Legal.key_unique (h : Legal d) {row row' : IdempotencyKey} (hrow : row ∈ d.idempotencyKeys)
    (hrow' : row' ∈ d.idempotencyKeys) (hkey : row.key = row'.key) : row = row' :=
  List.inj_on_of_nodup_map h.requests.idempotency_key hrow hrow' hkey

/-- The row of a key that was claimed is the first. -/
theorem Legal.key_ne_new (h : Legal d') {row new : IdempotencyKey}
    (hkeys : d'.idempotencyKeys = d.idempotencyKeys ++ [new]) (hrow : row ∈ d.idempotencyKeys) :
    row.key ≠ new.key := by
  have hnodup := h.requests.idempotency_key
  rw [hkeys, List.map_append, List.nodup_append] at hnodup
  exact hnodup.2.2 _ (List.mem_map_of_mem hrow) _ (by simp)

/-- What an update of rows leaves. -/
theorem mem_updateKeys {ids : List String} {f : IdempotencyKey → IdempotencyKey} {t : List IdempotencyKey}
    {row' : IdempotencyKey} (h : row' ∈ Table.update ids f t) :
    (row' ∈ t ∧ row'.id ∉ ids) ∨ ∃ row ∈ t, row.id ∈ ids ∧ row' = f row := by
  obtain ⟨row, hrow, rfl⟩ := Table.mem_update.mp h
  by_cases hid : Keyed.key row ∈ ids
  · rw [if_pos hid]
    exact .inr ⟨row, hrow, hid, rfl⟩
  · rw [if_neg hid]
    exact .inl ⟨hrow, hid⟩

/-- The rows that `KeyRows` speaks about, as rows. -/
theorem KeyRows.of_mem (hlegal : Legal d) {p : IdempotencyKey → Prop} {ids : List String}
    (h : KeyRows p ids d) {row : IdempotencyKey} (hrow : row ∈ d.idempotencyKeys)
    (hid : row.id ∈ ids) : p row := by
  obtain ⟨row', hfind, hp⟩ := h row.id hid
  have hself := Table.find_of_mem hlegal.requests.idempotency_pkey hrow
  obtain rfl : row = row' := Option.some.inj (hself.symm.trans hfind)
  exact hp

theorem mem_retiredKeys {ids : List String} {e : AttemptEvent} : e ∈ retiredKeys ids d ↔
    ∃ row ∈ d.idempotencyKeys, row.id ∈ ids ∧ row.state = .COMPLETED ∧ .retired row.key = e := by
  simp [retiredKeys, and_assoc]

/-- The row that a completion is stored in. -/
theorem storedFor_eq (hlegal : Legal d) {p : IdempotencyKey → Prop} {ids : List String} {key : String}
    (h : KeyRows (fun k => k.key = key ∧ p k) ids d) {row : IdempotencyKey}
    (hrow : row ∈ d.idempotencyKeys) (hid : row.id ∈ ids) :
    storedFor ids d = some (row.scope, row.requestHash) := by
  unfold storedFor
  cases hfind : d.idempotencyKeys.find? fun k => ids.contains k.id with
  | none =>
    have hnone := List.find?_eq_none.mp hfind row hrow
    simp [hid] at hnone
  | some found =>
    have hmem := List.mem_of_find?_eq_some hfind
    have hfound : found.id ∈ ids := by simpa using List.find?_some hfind
    obtain rfl := hlegal.key_unique hmem hrow
      ((h.of_mem hlegal hmem hfound).1.trans (h.of_mem hlegal hrow hid).1.symm)
    rfl

theorem Stored.move (hs : Stored d) (hlegal : Legal d) (h : KeyMove c d d') : Stored d' := by
  have hkeep : ∀ row ∈ d.idempotencyKeys, row.state = .COMPLETED → StoredFor row.key row.scope
      row.requestHash (row.statusCode.getD 200) (row.responseSnapshot.getD "null") d' :=
    fun row hrow hstate => (hs row hrow hstate).move h
  intro row' hrow' hstate
  cases h with
  | quiet hkeys => exact hkeep row' (hkeys ▸ hrow') hstate
  | begun request hkeys => exact hkeep row' (hkeys ▸ hrow') hstate
  | claimed attempt row hkey hscope hhash hprogress hkeys =>
    rcases List.mem_append.mp (hkeys ▸ hrow') with hold | hnew
    · exact hkeep row' hold hstate
    · rw [List.mem_singleton.mp hnew, hprogress] at hstate
      cases hstate
  | tookOver attempt ids expiresAt hassume hsome hrows hkeys =>
    rcases mem_updateKeys (hkeys ▸ hrow') with ⟨hold, -⟩ | ⟨row, hold, hid, rfl⟩
    · exact hkeep row' hold hstate
    · have hprogress := (hrows.of_mem hlegal hold hid).2.1
      exact absurd (hprogress.symm.trans hstate) (by decide)
  | deleted ids hrows hkeys =>
    exact hkeep row' (List.mem_filter.mp (hkeys ▸ hrow')).1 hstate
  | completed attempt ids statusCode body expiresAt f hassume hgranted hrows hf hkeys hnotes =>
    rcases mem_updateKeys (hkeys ▸ hrow') with ⟨hold, -⟩ | ⟨row, hold, hid, rfl⟩
    · exact hkeep row' hold hstate
    · rw [(hf row).key, (hf row).scope, (hf row).requestHash, (hf row).statusCode,
        (hf row).responseSnapshot, (hrows.of_mem hlegal hold hid).1]
      refine ⟨attempt.name, ?_⟩
      rw [hnotes, storedFor_eq hlegal hrows hold hid]
      simp
  | abandoned attempt unbound bound expiresAt hassume hrows hkeys =>
    rcases mem_updateKeys (hkeys ▸ hrow') with ⟨hold, -⟩ | ⟨row, hold, hid, rfl⟩
    · exact hkeep row' (List.mem_filter.mp hold).1 hstate
    · have hprogress := (hrows.of_mem hlegal (List.mem_filter.mp hold).1 (by simp [hid])).2
      exact absurd (hprogress.symm.trans hstate) (by decide)
  | bound ids bookingId hkeys =>
    rcases mem_updateKeys (hkeys ▸ hrow') with ⟨hold, -⟩ | ⟨row, hold, hid, rfl⟩
    · exact hkeep row' hold hstate
    · exact hkeep row hold hstate
  | recorded attempt hassume hkeys => exact hkeep row' (hkeys ▸ hrow') hstate
  | replayed key scope requestHash statusCode body hstored hkeys =>
    exact hkeep row' (hkeys ▸ hrow') hstate

end Moves

/-- The protocol of the keys: the lock of a row covers that row. -/
def keyProtocol (c : Conditions store) : Proto store where
  toConditions := c
  Inv d := Legal d ∧ Stored d
  Act := KeyMove c
  Same l := match l with
    | .idempotencyKey id => SameKeyRow id
    | _ => fun _ _ => True
  same_refl l d := by
    cases l with
    | idempotencyKey id => exact fun _ h => h
    | _ => trivial
  same_trans {l _ _ _} := by
    cases l with
    | idempotencyKey id => exact fun h₁ h₂ row h => h₂ row (h₁ row h)
    | _ => exact fun _ _ => trivial

section Calls

variable {c : Conditions store} {d d' : Db} {held : List Lock} {δ : Db → Db}

/-- A change of the keys respects the protocol when it touches rows that are locked only. -/
theorem key_guarantee (hinv : (keyProtocol c).Inv d) (hmove : KeyMove c d d') (hlegal : Legal d')
    (hsame : ∀ id, .idempotencyKey id ∉ held → SameKeyRow id d d') :
    (keyProtocol c).Guarantee held d d' := by
  refine ⟨hmove, ⟨hlegal, hinv.2.move hinv.1 hmove⟩, fun l hl => ?_⟩
  cases l with
  | idempotencyKey id => exact hsame id hl
  | _ => trivial

theorem sameKeyRow_of_eq {id : String} (h : d'.idempotencyKeys = d.idempotencyKeys) :
    SameKeyRow id d d' :=
  fun row hrow => by rw [h]; exact hrow

theorem sameKeyRow_filter {id : String} {ids : List String} (hid : id ∉ ids)
    (h : d'.idempotencyKeys = d.idempotencyKeys.filter fun k => !ids.contains k.id) :
    SameKeyRow id d d' := by
  intro row hrow
  rw [h]
  revert hrow
  induction d.idempotencyKeys with
  | nil => exact fun hrow => hrow
  | cons k t ih =>
    rw [List.filter_cons, Table.find_cons]
    split
    · rename_i hk
      intro hrow
      obtain rfl := Option.some.inj hrow
      have hkey : k.id = id := hk
      simp [hkey, hid, Table.find_cons, hk]
    · rename_i hk
      intro hrow
      split
      · rw [Table.find_cons, if_neg hk]
        exact ih hrow
      · exact ih hrow

theorem sameKeyRow_deleteKeys {id : String} {ids : List String} (hid : id ∉ ids) (d : Db) :
    SameKeyRow id d (deleteKeys ids d) :=
  sameKeyRow_filter hid rfl

theorem sameKeyRow_update {id : String} {ids : List String} {f : IdempotencyKey → IdempotencyKey}
    (h : d'.idempotencyKeys = Table.update ids f d.idempotencyKeys) (hid : id ∉ ids)
    (hf : ∀ k, (f k).id = k.id) : SameKeyRow id d d' := by
  intro row hrow
  rw [h, Table.find_update_of_notMem hf hid]
  exact hrow

theorem elapse_granted {attempt : Attempt} (r : (keyProtocol c).Elapse held d d')
    (hg : Granted attempt d) : Granted attempt d' :=
  r.keeps (J := Granted attempt) (fun _ _ hmove h => Granted.move h hmove) hg

theorem elapse_storedFor {key scope requestHash : String} {statusCode : Nat} {body : String}
    (r : (keyProtocol c).Elapse held d d')
    (hs : StoredFor key scope requestHash statusCode body d) :
    StoredFor key scope requestHash statusCode body d' :=
  r.keeps (J := StoredFor key scope requestHash statusCode body)
    (fun _ _ hmove h => StoredFor.move h hmove) hs

theorem elapse_clock (r : (keyProtocol c).Elapse held d d') : d.clock ≤ d'.clock :=
  r.keeps (J := fun x : Db => d.clock ≤ x.clock)
    (fun _ _ hmove h => h.trans (KeyMove.clock hmove)) le_rfl

/-- The rows that a condition finds are the ones to which it applies. -/
theorem keyRows_keysWhere (hlegal : Legal d) (p : IdempotencyKey → Bool) :
    KeyRows (fun k => p k = true) (keysWhere p d) d := by
  intro id hid
  obtain ⟨row, hrow, rfl⟩ := List.mem_map.mp hid
  obtain ⟨hmem, hp⟩ := List.mem_filter.mp hrow
  exact ⟨row, Table.find_of_mem hlegal.requests.idempotency_pkey hmem, hp⟩

/-- Rows whose locks are held stay. -/
theorem KeyRows.elapse {p : IdempotencyKey → Prop} {ids : List String} (h : KeyRows p ids d)
    (r : (keyProtocol c).Elapse held d d') (hheld : ∀ id ∈ ids, .idempotencyKey id ∈ held) :
    KeyRows p ids d' := by
  intro id hid
  obtain ⟨row, hrow, hp⟩ := h id hid
  have hsame : SameKeyRow id d d' := r.same (hheld id hid)
  exact ⟨row, hsame row hrow, hp⟩

theorem KeyRows.mono {p q : IdempotencyKey → Prop} {ids : List String} (h : KeyRows p ids d)
    (hpq : ∀ k, p k → q k) : KeyRows q ids d := by
  intro id hid
  obtain ⟨row, hrow, hp⟩ := h id hid
  exact ⟨row, hrow, hpq row hp⟩

theorem wp_clockNow {Q : Int → List Lock → (Db → Db) → Db → Prop} {R : Failure → Db → Prop}
    (h : ∀ d', (keyProtocol c).Elapse held d d' → (keyProtocol c).Inv d' → Q d'.clock held δ d') :
    (keyProtocol c).wp clockNow Q R held δ d := by
  refine (wp_map _ _).mpr (wp_call fun d' r i => ⟨?_, h d' r.elapse i⟩)
  exact key_guarantee i (.quiet rfl rfl le_rfl) i.1 fun id _ => sameKeyRow_of_eq rfl

theorem wp_changeKeys {p : Point} {condition : IdempotencyKey → Bool}
    {change : List String → Db → Db} {Q : List String → List Lock → (Db → Db) → Db → Prop}
    (h : ∀ ids d', (keyProtocol c).Elapse [] d d' → Legal d' → c.Assume p d' →
      KeyRows (fun k => condition k = true) ids d' → KeyMove c d' (change ids d') ∧
        (∀ id ∉ ids, SameKeyRow id d' (change ids d')) ∧ Q ids [] id (change ids d')) :
    (keyProtocol c).wp (changeKeys p condition change) Q (fun _ _ => True) held δ d := by
  refine wp_transaction (fun _ _ _ => trivial) (fun _ _ _ _ _ => trivial) fun d₁ r₁ _ => ?_
  refine wp_modify (fun _ _ _ => trivial) fun d₂ r₂ i₂ _ => ?_
  intro d₃ r₃ i₃ ha hl
  have hrows := (keyRows_keysWhere i₂.1 condition).elapse r₃.elapse (by simp)
  obtain ⟨hmove, hsame, hQ⟩ := h _ d₃
    (r₁.elapse.trans (r₂.elapse.trans (r₃.elapse.weaken (by simp)))) i₃.1 ha hrows
  refine ⟨key_guarantee i₃ hmove (of_decide_eq_true hl) fun id hid => hsame id ?_, hQ⟩
  simpa using hid

/-- What an attempt knows once it has begun. -/
def Began (attempt : Attempt) (result : BeginResult) (d : Db) : Prop :=
  match result with
  | .NEW => Granted attempt d
  | .REPLAY statusCode body =>
    StoredFor attempt.key attempt.scope attempt.requestHash statusCode body d
  | .IN_PROGRESS => True
  | .MISMATCH => True

theorem granted_noting {attempt : Attempt} {expiresAt : Int} :
    Granted attempt (d.noting (attempt.granted expiresAt)) :=
  ⟨d.clock, expiresAt, by simp [Attempt.granted]⟩

theorem wp_retireKey {key : String} {instant : Int} (hinstant : instant ≤ d.clock)
    {Q : List String → List Lock → (Db → Db) → Db → Prop} (hQ : ∀ ids d', Q ids [] id d') :
    (keyProtocol c).wp (retireKey key instant) Q (fun _ _ => True) held δ d := by
  refine wp_changeKeys fun ids d' r hlegal _ hrows => ⟨?_, fun id hid => ?_, hQ _ _⟩
  · refine .deleted ids (hrows.mono fun k hk => ?_) rfl rfl rfl
    obtain ⟨-, hstate, hexpired⟩ := of_decide_eq_true hk
    exact ⟨hexpired.trans (hinstant.trans (elapse_clock r)), .inl hstate⟩
  · exact sameKeyRow_filter hid rfl

theorem wp_takeOverExpiredLease {attempt : Attempt} {instant : Int} (hinstant : instant ≤ d.clock) :
    (keyProtocol c).wp (takeOverExpiredLease attempt instant) (fun r _ _ d => Began attempt r d)
      (fun _ _ => True) held δ d := by
  refine (wp_bind _ _).mpr (wp_changeKeys fun ids d' r hlegal ha hrows => ?_)
  by_cases hids : ids = []
  · subst hids
    refine ⟨.quiet ?_ ?_ le_rfl, fun id hid => sameKeyRow_update rfl hid fun _ => rfl, trivial⟩
    · simp [Table.update]
    · simp
  · refine ⟨.tookOver attempt ids (instant + IDEMPOTENCY_LEASE_MS) ha hids
      (hrows.mono fun k hk => ?_) rfl ?_ rfl, fun id hid => sameKeyRow_update rfl hid fun _ => rfl, ?_⟩
    · obtain ⟨hkey, hstate, hexpired⟩ := of_decide_eq_true hk
      exact ⟨hkey, hstate, hexpired.trans (hinstant.trans (elapse_clock r))⟩
    · simp [hids]
    · simp only [hids, if_false]
      exact granted_noting

theorem wp_claimKey {attempt : Attempt} {instant : Int} :
    (keyProtocol c).wp (claimKey attempt instant) (fun r _ _ d => Began attempt r d)
      (fun _ _ => True) held δ d := by
  refine (wp_bind _ _).mpr (wp_freshId fun d₁ _ _ id => ?_)
  refine (wp_bind _ _).mpr (wp_transaction (fun _ _ _ => trivial) (fun _ _ _ _ _ => trivial)
    fun d₂ _ _ => wp_insertAt (fun _ _ _ => trivial) fun d₃ _ _ d₄ _ i₄ _ hl => ?_)
  refine ⟨key_guarantee i₄ (.claimed attempt _ rfl rfl rfl rfl rfl rfl rfl) (of_decide_eq_true hl)
    fun id _ row hrow => Table.find_append_of_some hrow, granted_noting⟩

theorem wp_inspectKey {attempt : Attempt} {instant : Int} {again : Tx BeginResult}
    (hinstant : instant ≤ d.clock)
    (hagain : ∀ held δ d, (keyProtocol c).wp again (fun r _ _ d => Began attempt r d)
      (fun _ _ => True) held δ d) :
    (keyProtocol c).wp (inspectKey attempt instant again) (fun r _ _ d => Began attempt r d)
      (fun _ _ => True) held δ d := by
  refine (wp_bind _ _).mpr (wp_query (fun _ _ _ => trivial) fun d₁ r₁ i₁ => ?_)
  have hclock := hinstant.trans (elapse_clock r₁)
  cases hrow : rowOfKey attempt.key d₁ with
  | none => exact trivial
  | some row =>
    have hmem := List.mem_of_find?_eq_some hrow
    have hkey : row.key = attempt.key := by simpa using List.find?_some hrow
    dsimp only
    split
    · refine (wp_bind _ _).mpr (wp_retireKey hclock fun ids d₂ => ?_)
      split
      · exact trivial
      · exact hagain _ _ _
    split
    · exact trivial
    rename_i hsame
    split
    · obtain ⟨hscope, hhash⟩ := not_or.mp hsame
      have hstored := i₁.2 row hmem ‹_›
      rw [hkey, not_not.mp hscope, not_not.mp hhash] at hstored
      exact hstored
    split
    · exact trivial
    · exact wp_takeOverExpiredLease hclock

/-- An attempt that begins is granted its key, or told what was stored for it. -/
theorem wp_begin {attempt : Attempt} (rounds : Nat) :
    (keyProtocol c).wp (begin attempt rounds) (fun r _ _ d => Began attempt r d)
      (fun _ _ => True) held δ d := by
  induction rounds generalizing held δ d with
  | zero => exact trivial
  | succ rounds ih =>
    refine (wp_bind _ _).mpr (wp_clockNow fun d₁ _ _ => ?_)
    -- the time that was read stays in the past, wherever the claim fails
    refine wp_tryCatch (wp_mono (wp_frame (J := fun d : Db => d₁.clock ≤ d.clock)
      (fun _ _ (hmove : KeyMove c _ _) h => h.trans hmove.clock) le_rfl wp_claimKey)
      (fun _ _ _ _ h => h.1) fun _ _ h => h) fun e held δ d he => ?_
    split
    · exact wp_inspectKey he.2 fun _ _ _ => ih
    · exact trivial

theorem wp_completeKey {api : Api} {attempt : Attempt} {statusCode : Nat} {response : Response}
    (hgranted : Granted attempt d) :
    (keyProtocol c).wp (completeKey api attempt statusCode response) (fun _ _ _ _ => True)
      (fun _ _ => True) held δ d := by
  refine (wp_bind _ _).mpr (wp_clockNow fun d₁ r₁ _ => ?_)
  refine (wp_map _ _).mpr (wp_changeKeys fun ids d₂ r₂ hlegal ha hrows => ?_)
  refine ⟨.completed attempt ids statusCode response.body _ _ ha
    (elapse_granted r₂ (elapse_granted r₁ hgranted)) (hrows.mono fun k hk => of_decide_eq_true hk)
    ?_ rfl rfl rfl, fun id hid => sameKeyRow_update rfl hid fun _ => rfl, trivial⟩
  exact fun _ => ⟨rfl, rfl, rfl, rfl, rfl, rfl, rfl⟩

/-- Rows that are left after others were deleted. -/
theorem mem_keysWhere_deleteKeys {p : IdempotencyKey → Bool} {ids : List String} {id : String}
    (h : id ∈ keysWhere p (deleteKeys ids d)) : id ∈ keysWhere p d := by
  obtain ⟨row, hrow, rfl⟩ := List.mem_map.mp h
  obtain ⟨hmem, hp⟩ := List.mem_filter.mp hrow
  exact List.mem_map.mpr ⟨row, List.mem_filter.mpr ⟨(List.mem_filter.mp hmem).1, hp⟩, rfl⟩

theorem wp_abandonKey {attempt : Attempt} :
    (keyProtocol c).wp (abandonKey attempt) (fun _ _ _ _ => True) (fun _ _ => True) held δ d := by
  refine (wp_bind _ _).mpr (wp_clockNow fun d₁ _ _ => ?_)
  refine wp_transaction (fun _ _ _ => trivial) (fun _ _ _ _ _ => trivial) fun d₂ _ _ => ?_
  refine (wp_bind _ _).mpr (wp_updateMany (fun _ _ _ => trivial) fun d₃ r₃ i₃ => ?_)
  refine wp_updateMany (fun _ _ _ => trivial) fun d₄ r₄ i₄ => ?_
  intro d₅ r₅ i₅ ha hl
  have hunbound := (keyRows_keysWhere i₃.1 _).elapse
    (r₄.elapse.trans (r₅.elapse.weaken fun _ => List.mem_append_left _))
    fun _ hid => List.mem_map_of_mem hid
  have hbound := KeyRows.elapse (d := d₄)
    (fun id hid => keyRows_keysWhere i₄.1 _ id (mem_keysWhere_deleteKeys hid)) r₅.elapse
    fun _ hid => List.mem_append_right _ (List.mem_map_of_mem hid)
  refine ⟨key_guarantee i₅ (.abandoned attempt _ _ d₁.clock ha (fun id hid => ?_) rfl rfl rfl)
    (of_decide_eq_true hl) fun id hid => ?_, trivial⟩
  · rcases List.mem_append.mp hid with hid | hid
    · exact hunbound.mono (fun k hk => ⟨(of_decide_eq_true hk).1, (of_decide_eq_true hk).2.1⟩) id hid
    · exact hbound.mono (fun k hk => ⟨(of_decide_eq_true hk).1, (of_decide_eq_true hk).2.1⟩) id hid
  · simp only [List.nil_append, List.mem_append, List.mem_map, Lock.idempotencyKey.injEq,
      exists_eq_right, not_or] at hid
    intro row hrow
    have hrest := sameKeyRow_deleteKeys hid.1 d₅ row hrow
    exact sameKeyRow_update (d := deleteKeys _ d₅) (f := fun k => { k with expiresAt := d₁.clock }) rfl
      hid.2 (fun _ => rfl) row hrest

theorem wp_sweepKeysBatch {instant : Int} (hinstant : instant ≤ d.clock) :
    (keyProtocol c).wp (sweepKeysBatch instant) (fun _ _ _ d => instant ≤ d.clock)
      (fun _ _ => True) held δ d := by
  refine (wp_bind _ _).mpr (wp_query (fun _ _ _ => trivial) fun d₁ r₁ _ => ?_)
  have hclock₁ := hinstant.trans (elapse_clock r₁)
  dsimp only
  split
  · exact hclock₁
  refine (wp_bind _ _).mpr ((wp_map _ _).mpr (wp_transactionBy (fun _ _ _ _ => trivial)
    (fun _ _ _ _ _ => trivial) fun d₂ r₂ _ => wp_modify (fun _ _ _ => trivial) fun d₃ r₃ i₃ _ => ?_))
  intro d₄ r₄ i₄ ha hl
  have hclock₄ := hclock₁.trans
    (elapse_clock (r₂.elapse.trans (r₃.elapse.trans (r₄.elapse.weaken (by simp)))))
  have hrows := (keyRows_keysWhere i₃.1 _).elapse r₄.elapse fun _ hid =>
    List.mem_append_right _ (List.mem_map_of_mem hid)
  refine ⟨key_guarantee i₄ (.deleted _ (hrows.mono fun k hk => ?_) rfl rfl rfl)
    (of_decide_eq_true hl) fun id hid => sameKeyRow_filter (fun hmem => hid ?_) rfl, hclock₄⟩
  · have hexpired := of_decide_eq_true (Bool.and_eq_true_iff.mp hk).2
    exact ⟨(Int.le_of_lt hexpired).trans hclock₄, .inr ha⟩
  · exact List.mem_append_right _ (List.mem_map_of_mem hmem)

theorem wp_sweepKeys {batches : Nat} :
    (keyProtocol c).wp (sweepKeys batches) (fun _ _ _ _ => True) (fun _ _ => True) held δ d := by
  refine (wp_bind _ _).mpr (wp_clockNow fun d₁ _ _ => ?_)
  suffices h : ∀ held δ d, d₁.clock ≤ d.clock → (keyProtocol c).wp (sweepBatches d₁.clock batches)
      (fun _ _ _ _ => True) (fun _ _ => True) held δ d from h _ _ _ le_rfl
  induction batches with
  | zero => exact fun _ _ _ _ => trivial
  | succ batches ih =>
    intro held δ d hclock
    refine (wp_bind _ _).mpr (wp_mono (wp_sweepKeysBatch hclock) (fun more held δ d hd => ?_)
      fun _ _ h => h)
    split
    · exact ih held δ d hd
    · exact trivial

theorem wp_note_replayed {attempt : Attempt} {statusCode : Nat} {body : String}
    (hstored : StoredFor attempt.key attempt.scope attempt.requestHash statusCode body d) :
    (keyProtocol c).wp
      (note (.replayed attempt.key attempt.scope attempt.requestHash statusCode body))
      (fun _ _ _ _ => True) (fun _ _ => True) held δ d := by
  intro d' r i
  refine ⟨key_guarantee i ?_ (i.1.noting _) fun id _ => sameKeyRow_of_eq rfl, trivial⟩
  exact .replayed _ _ _ _ _ (elapse_storedFor r.elapse hstored) rfl rfl rfl

theorem wp_enter {request : KeyedRequest} {Q : Attempt → List Lock → (Db → Db) → Db → Prop}
    {R : Failure → Db → Prop} (h : ∀ attempt d', Q attempt held δ d') :
    (keyProtocol c).wp (enter request) Q R held δ d := by
  intro d' _ i
  refine ⟨key_guarantee i (.begun request rfl rfl rfl) (i.1.noting _) fun id _ => ?_, h _ _⟩
  exact sameKeyRow_of_eq rfl

/-- An attempt is granted its key, runs a handler that follows the protocol, and gives the key up or
completes it. -/
theorem wp_intercept {api : Api} {request : KeyedRequest} {rounds statusCode : Nat}
    {handler : Attempt → Tx Response}
    (hhandler : ∀ attempt held δ d, (keyProtocol c).wp (handler attempt) (fun _ _ _ _ => True)
      (fun _ _ => True) held δ d) :
    (keyProtocol c).wp (intercept api request rounds statusCode handler) (fun _ _ _ _ => True)
      (fun _ _ => True) held δ d := by
  refine (wp_bind _ _).mpr (wp_enter fun attempt d => ?_)
  refine (wp_bind _ _).mpr (wp_mono (wp_begin rounds) (fun result held δ d hbegan => ?_)
    fun _ _ h => h)
  cases result with
  | REPLAY statusCode body =>
    exact (wp_bind _ _).mpr (wp_mono (wp_note_replayed hbegan) (fun _ _ _ _ h => h) fun _ _ h => h)
  | MISMATCH => exact trivial
  | IN_PROGRESS => exact trivial
  | NEW =>
    -- the grant outlives the handler
    refine (wp_bind _ _).mpr (wp_tryCatch (wp_mono (wp_frame (J := Granted attempt)
      (fun _ _ hmove h => Granted.move h hmove) hbegan (hhandler _ held δ d))
      (fun response held δ d h => ?_) fun _ _ _ => trivial) fun e held δ d _ => ?_)
    · exact (wp_bind _ _).mpr (wp_mono (wp_completeKey h.2) (fun _ _ _ _ h => h) fun _ _ h => h)
    · exact (wp_bind _ _).mpr (wp_mono wp_abandonKey (fun _ _ _ _ _ => trivial) fun _ _ h => h)

/-- A change of bookings only, and of which booking a key is bound to. -/
theorem wp_bindIdempotencyKey {keyId : Option String} {bookingId : String} {change : Db → Db}
    (hchange : ∀ d, (change d).idempotencyKeys = d.idempotencyKeys ∧ (change d).attempts = d.attempts ∧
      (change d).clock = d.clock) :
    (keyProtocol c).wp (bindIdempotencyKey keyId bookingId)
      ((keyProtocol c).Commits .plain fun _ _ _ _ => True) (fun _ _ => True) held change d := by
  have hquiet : ∀ d, KeyMove c d (change d) := fun d =>
    .quiet (hchange d).1 (hchange d).2.1 (hchange d).2.2.ge
  cases keyId with
  | none =>
    intro d₁ _ i₁ _ hl
    exact ⟨key_guarantee i₁ (hquiet d₁) (of_decide_eq_true hl)
      fun id _ => sameKeyRow_of_eq (hchange d₁).1, trivial⟩
  | some id =>
    refine (wp_bind _ _).mpr (wp_modify (fun _ _ _ => trivial) fun d₁ _ _ _ => ?_)
    refine (wp_map _ _).mpr (wp_orThrow (fun row _ => ?_) fun _ => trivial)
    intro d₂ _ i₂ _ hl
    refine ⟨key_guarantee i₂ (.bound [id] bookingId ?_ (hchange d₂).2.1 (hchange d₂).2.2)
      (of_decide_eq_true hl) fun id' hid => ?_, trivial⟩
    · rw [← (hchange d₂).1]
      rfl
    · refine sameKeyRow_update (f := fun k => { k with bookingId := some bookingId }) ?_
        (fun hmem : id' ∈ [id] => hid ?_) fun _ => rfl
      · rw [← (hchange d₂).1]
        rfl
      · rw [List.mem_singleton.mp hmem]
        simp

theorem wp_someBinding {attempt : Attempt} :
    (keyProtocol c).wp (someBinding attempt) (fun _ _ _ _ => True) (fun _ _ => True) held δ d := by
  refine (wp_bind _ _).mpr (wp_answer fun d₁ _ _ a => ?_)
  split
  · exact trivial
  refine wp_transaction (fun _ _ _ => trivial) (fun _ _ _ _ _ => trivial) fun d₂ _ _ => ?_
  refine (wp_bind _ _).mpr ((wp_bind _ _).mpr (wp_read (fun _ _ _ => trivial) fun d₃ _ _ => ?_))
  split
  · exact trivial
  · refine (wp_bind _ _).mpr (wp_updateMany (fun _ _ _ => trivial) fun d₄ _ _ => ?_)
    exact wp_bindIdempotencyKey fun _ => ⟨rfl, rfl, rfl⟩

theorem wp_someHandler {attempt : Attempt} :
    (keyProtocol c).wp (someHandler attempt) (fun _ _ _ _ => True) (fun _ _ => True) held δ d := by
  refine (wp_bind _ _).mpr (wp_mono wp_someBinding (fun _ held δ d _ => ?_) fun _ _ h => h)
  refine (wp_bind _ _).mpr (wp_answer fun d₁ _ _ a => ?_)
  split <;> exact trivial

theorem wp_recordManualPayment {api : Api} {attempt : Attempt} {bookingId : String}
    {input : CreateManualPaymentRequest} :
    (keyProtocol c).wp (recordManualPayment api attempt bookingId input) (fun _ _ _ _ => True)
      (fun _ _ => True) held δ d := by
  refine (wp_bind _ _).mpr (wp_query (fun _ _ _ => trivial) fun d₁ _ _ => ?_)
  split
  · exact trivial
  split
  · exact trivial
  refine (wp_bind _ _).mpr (wp_ofExcept (fun amount _ => ?_) fun _ _ => trivial)
  refine (wp_bind _ _).mpr ((wp_bind _ _).mpr (wp_read (fun _ _ _ => trivial) fun d₂ _ _ => ?_))
  split
  · exact trivial
  refine (wp_bind _ _).mpr (wp_freshId fun d₃ _ _ id => ?_)
  refine (wp_bind _ _).mpr (wp_transaction (fun _ _ _ => trivial) (fun _ _ _ _ _ => trivial)
    fun d₄ _ _ => wp_insertAt (fun _ _ _ => trivial) fun d₅ _ _ d₆ _ i₆ ha hl => ?_)
  exact ⟨key_guarantee i₆ (.recorded attempt ha rfl rfl rfl) (of_decide_eq_true hl)
    fun id _ => sameKeyRow_of_eq rfl, trivial⟩

theorem wp_tick {milliseconds : Nat} :
    (keyProtocol c).wp (tick milliseconds) (fun _ _ _ _ => True) (fun _ _ => True) held δ d := by
  intro d' _ i
  refine ⟨key_guarantee i (.quiet rfl rfl ?_) (i.1.onClock _) fun id _ => sameKeyRow_of_eq rfl, trivial⟩
  simp

end Calls

end BookingApp
