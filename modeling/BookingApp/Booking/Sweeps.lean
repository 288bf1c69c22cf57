import BookingApp.Booking.Histories
import BookingApp.Draining

/-!
# The sweep of the lapsed holds

`ExpirySweeper.sweepOverdue` looks the holds up whose time has passed, the first ones first and a batch
at most, and begins to expire each; what fails with one does not stop the others. The rows are read
without a lock, so anything can become of them before their turn. A hold that fails keeps its
place at the front: a sweep gets as much further as its batch has others.
-/

set_option autoImplicit false

namespace BookingApp

open ReadCommitted ReadCommitted.Proto

/-- One tick looks at so many holds. -/
def EXPIRY_SWEEP_BATCH : Nat := 200

/-- The bookings that are pending, with the time each is held until. -/
def holds (bookings : List Booking) : List (String × Int) :=
  bookings.filterMap fun b =>
    if b.status = .PENDING_PAYMENT then b.expiresAt.map fun due => (b.id, due) else none

/-- `WHERE status = 'PENDING_PAYMENT' AND expires_at < now ORDER BY expires_at` -/
def inOrder (instant : Int) (d : Db) : List (String × Int) :=
  ((holds d.bookings).filter fun hold => decide (hold.2 < instant)).mergeSort fun a b => decide (a.2 ≤ b.2)

/-- `LIMIT 200` -/
def overdue (instant : Int) (d : Db) : List (String × Int) :=
  (inOrder instant d).take EXPIRY_SWEEP_BATCH

/-- What a sweep has read of the clock, and what came of each row it found. An error is only logged. -/
structure SweepReport where
  instant : Int
  attempts : List (String × Except Failure BeginExpiryOutcome)

/-- The number that `sweepOverdue` answers with. -/
def SweepReport.began (report : SweepReport) : Nat :=
  report.attempts.countP fun attempt => attempt.2.toOption == some .BEGAN

/-- Begins to expire one row, and goes on when that fails. -/
def attemptExpiry (bookingId : String) : Tx (Except Failure BeginExpiryOutcome) :=
  tryCatch (Except.ok <$> beginExpiry bookingId) fun error => pure (.error error)

def attemptAll : List String → Tx (List (String × Except Failure BeginExpiryOutcome))
  | [] => pure []
  | bookingId :: due => do
    let outcome ← attemptExpiry bookingId
    let others ← attemptAll due
    return (bookingId, outcome) :: others

/-- Starts phase one for every reservation whose time has passed. -/
def sweepOverdue : Tx SweepReport := do
  let instant ← now
  let due ← query (overdue instant)
  let attempts ← attemptAll (due.map Prod.fst)
  return { instant, attempts }

/-- One tick after the other. -/
def sweeps : Nat → Tx (List SweepReport)
  | 0 => pure []
  | n + 1 => do
    let report ← sweepOverdue
    let later ← sweeps n
    return report :: later

/-- The attempt found that the hold has begun to expire, or begins to. -/
def Settles (outcome : Except Failure BeginExpiryOutcome) : Prop :=
  outcome = .ok .BEGAN ∨ outcome = .ok .NOT_APPLICABLE

instance (outcome : Except Failure BeginExpiryOutcome) : Decidable (Settles outcome) := by
  unfold Settles
  cases outcome with
  | ok outcome => exact decidable_of_iff (outcome = .BEGAN ∨ outcome = .NOT_APPLICABLE) (by simp)
  | error error => exact .isFalse (by simp)

/-- The rows that a sweep has got nowhere with. -/
def SweepReport.missed (report : SweepReport) : List String :=
  (report.attempts.filter fun attempt => decide (¬ Settles attempt.2)).map Prod.fst

/-- The booking is there, and is not waiting to be paid for. -/
def NotPending (id : String) (d : Db) : Prop :=
  ∃ b, Table.find id d.bookings = some b ∧ b.status ≠ .PENDING_PAYMENT

/-- The holds that wait. -/
def waiting (d : Db) : Finset (String × Int) :=
  (holds d.bookings).toFinset

/-- No hold is made whose time has passed by the deadline. -/
def Punctual (deadline : Int) (d d' : Db) : Prop :=
  ∀ b ∈ d'.bookings, b.status = .PENDING_PAYMENT → (∃ due ∈ b.expiresAt, due ≤ deadline) → Exists b.id d

/-- The protocol of the bookings, among clients whose holds end after the deadline. -/
def punctual (rules : BookingRules) (deadline : Int) : Proto store :=
  { lifecycle rules with Act := fun d d' => Commit rules d d' ∧ Punctual deadline d d' }

section Drain

variable {rules : BookingRules} {deadline : Int} {d d' : Db} {id : String}

section Waiting

theorem mem_holds {bookings : List Booking} {due : Int} : (id, due) ∈ holds bookings ↔
    ∃ b ∈ bookings, b.id = id ∧ b.status = .PENDING_PAYMENT ∧ b.expiresAt = some due := by
  unfold holds
  rw [List.mem_filterMap]
  constructor
  · rintro ⟨b, hb, h⟩
    split at h
    · obtain ⟨due', hdue, heq⟩ := Option.map_eq_some_iff.mp h
      obtain ⟨rfl, rfl⟩ := Prod.mk.inj heq
      exact ⟨b, hb, rfl, ‹_›, hdue⟩
    · cases h
  · rintro ⟨b, hb, rfl, hstatus, hdue⟩
    exact ⟨b, hb, by rw [if_pos hstatus, hdue, Option.map_some]⟩

theorem mem_waiting {due : Int} : (id, due) ∈ waiting d ↔
    ∃ b ∈ d.bookings, b.id = id ∧ b.status = .PENDING_PAYMENT ∧ b.expiresAt = some due := by
  unfold waiting
  rw [List.mem_toFinset, mem_holds]

/-- A hold is a row, and waits once. -/
theorem holds_fst_nodup (hlegal : Legal d) : ((holds d.bookings).map Prod.fst).Nodup := by
  have hsub : ((holds d.bookings).map Prod.fst).Sublist (d.bookings.map Keyed.key) := by
    unfold holds
    induction d.bookings with
    | nil => exact .slnil
    | cons b bookings ih =>
      rw [List.filterMap_cons]
      split
      · exact ih.cons _
      · next hold hhold =>
        split at hhold
        · obtain ⟨due, -, rfl⟩ := Option.map_eq_some_iff.mp hhold
          exact ih.cons_cons _
        · cases hhold
  exact hsub.nodup hlegal.bookings.pkey

theorem holds_nodup (hlegal : Legal d) : (holds d.bookings).Nodup :=
  (holds_fst_nodup hlegal).of_map _

theorem NotPending.not_waiting (hlegal : Legal d) (h : NotPending id d) (due : Int) : (id, due) ∉ waiting d := by
  intro hwaiting
  obtain ⟨b, hb, hid, hstatus, -⟩ := mem_waiting.mp hwaiting
  obtain ⟨b', hfind, hleft⟩ := h
  have hfound : Table.find b.id d.bookings = some b := Table.find_of_mem hlegal.bookings.pkey hb
  rw [hid, hfind] at hfound
  obtain rfl := Option.some.inj hfound
  exact hleft hstatus

end Waiting

section Steps

/-- What is not pending does not become it. -/
theorem Commit.notPending (h : Commit rules d d') (hleft : NotPending id d) : NotPending id d' := by
  obtain ⟨b, hb, hstatus⟩ := hleft
  obtain ⟨b', hb'⟩ := (h.life id).stays hb
  refine ⟨b', hb', fun hpending => ?_⟩
  obtain ⟨-, hsame | hmove | ⟨-, hcanceled⟩⟩ := (h.life id).between hb hb'
  · exact hstatus (hsame.symm.trans hpending)
  · rw [hpending] at hmove
    revert hmove
    cases b.status <;> decide
  · cases hpending.symm.trans hcanceled

/-- A hold that still waits is held as long as it was. -/
theorem Commit.held (h : Commit rules d d') {b b' : Booking} (hb : Table.find id d.bookings = some b)
    (hb' : Table.find id d'.bookings = some b') (hpending : b'.status = .PENDING_PAYMENT) :
    b.status = .PENDING_PAYMENT ∧ b.expiresAt = b'.expiresAt := by
  have hkept : d'.bookings = d.bookings → b.status = .PENDING_PAYMENT ∧ b.expiresAt = b'.expiresAt := by
    intro hsame
    rw [hsame, hb] at hb'
    obtain rfl := Option.some.inj hb'
    exact ⟨hpending, rfl⟩
  have hchanged : ∀ {ids : List String} {f : Booking → Booking} {more : List Booking},
      d'.bookings = Table.update ids f d.bookings ++ more → (∀ x, (f x).id = x.id) →
      (id ∈ ids → (f b).status = .PENDING_PAYMENT →
        b.status = .PENDING_PAYMENT ∧ b.expiresAt = (f b).expiresAt) →
      b.status = .PENDING_PAYMENT ∧ b.expiresAt = b'.expiresAt := by
    intro ids f more hd' hkey hf
    by_cases hid : id ∈ ids
    · have hfind : Table.find id (Table.update ids f d.bookings) = some (f b) := by
        rw [Table.find_update_of_mem hkey hid, hb, Option.map_some]
      rw [hd', Table.find_append_of_some hfind] at hb'
      obtain rfl := Option.some.inj hb'
      exact hf hid hpending
    · have hfind : Table.find id (Table.update ids f d.bookings) = some b := by
        rw [Table.find_update_of_notMem hkey hid, hb]
      rw [hd', Table.find_append_of_some hfind] at hb'
      obtain rfl := Option.some.inj hb'
      exact ⟨hpending, rfl⟩
  have hupdated : ∀ {ids : List String} {f : Booking → Booking}, d'.bookings = Table.update ids f d.bookings →
      (∀ x, (f x).id = x.id) →
      (id ∈ ids → (f b).status = .PENDING_PAYMENT →
        b.status = .PENDING_PAYMENT ∧ b.expiresAt = (f b).expiresAt) →
      b.status = .PENDING_PAYMENT ∧ b.expiresAt = b'.expiresAt := by
    intro ids f hd' hkey hf
    have hrows : d'.bookings = Table.update ids f d.bookings ++ [] := by rw [hd', List.append_nil]
    exact hchanged hrows hkey hf
  have hmoved : ∀ {b₀ : Booking} {f : Booking → Booking}, Table.find b₀.id d.bookings = some b₀ →
      (f b₀).status ≠ .PENDING_PAYMENT → id ∈ [b₀.id] → (f b).status = .PENDING_PAYMENT →
        b.status = .PENDING_PAYMENT ∧ b.expiresAt = (f b).expiresAt := by
    intro b₀ f hfound hstatus hid hleft
    obtain rfl := List.mem_singleton.mp hid
    obtain rfl := Option.some.inj (hfound.symm.trans hb)
    exact absurd hleft hstatus
  cases h.change with
  | reserved b₀ ids keys row tokens events hcreated hsold hclear hfirst hroot hd =>
    exact hchanged (congrArg Db.bookings hd) (fun _ => rfl) fun _ hstatus => ⟨hstatus, rfl⟩
  | attached b₀ sessionId bookings payments hassume hfound hattaches hopens hpayment hd =>
    cases hattaches with
    | again => exact hkept (by rw [hd])
    | first => exact hupdated (congrArg Db.bookings hd) (fun _ => rfl) fun _ hstatus => ⟨hstatus, rfl⟩
  | confirmed input b₀ f row token event payments hassume hmoves hhold hstatus hsession htoken hcaptures hpays hd =>
    exact hupdated (congrArg Db.bookings hd) hmoves.id (hmoved hmoves.found (by simp [hstatus]))
  | failed input b₀ f row event ids hassume hmoves hhold hstatus hsession hids hd =>
    exact hupdated (congrArg Db.bookings hd) hmoves.id (hmoved hmoves.found (by simp [hstatus]))
  | lapsing b₀ f row event hmoves hhold hstatus hsession hd =>
    exact hupdated (congrArg Db.bookings hd) hmoves.id (hmoved hmoves.found (by simp [hstatus]))
  | released b₀ f row sessionId hassume hmoves hhold hstatus hsession hended hd =>
    exact hupdated (congrArg Db.bookings hd) hmoves.id (hmoved hmoves.found (by simp [hstatus]))
  | ended b₀ f row events refunds cancellations reschedules g h hmoves hstatus hends hsession hrefunds
      hcancellations hreschedules hcloses hd =>
    refine hupdated (congrArg Db.bookings hd) hmoves.id (hmoved hmoves.found fun hpending => ?_)
    rw [hpending] at hends
    exact absurd hends (by decide)
  | replaced b₀ created f canceled row requestId h revoked revoke token events hfound hread hassume hpaid hkey
      hterms hsession hstatus hhistory hcreated hsilent hsold hclear hconfirmed hreplaces hdecides hrevoke
      hsucceeds hd =>
    have hrows : d'.bookings = Table.update [b₀.id] f d.bookings ++ Table.update [b₀.id] f [created] := by
      rw [hd]
      exact List.map_append
    exact hchanged hrows hkey (hmoved hfound (by simp [hstatus]))
  | _ => exact hkept (by subst_vars; rfl)

/-- An update makes no booking. -/
theorem Punctual.of_update {ids : List String} {f : Booking → Booking} (hf : ∀ b, (f b).id = b.id)
    (h : d'.bookings = Table.update ids f d.bookings) : Punctual deadline d d' := by
  intro b' hb' _ _
  rw [h] at hb'
  obtain ⟨b, hb, rfl⟩ := Table.mem_update.mp hb'
  have hid : (if Keyed.key b ∈ ids then f b else b).id = b.id := by
    split
    · exact hf b
    · rfl
  rw [hid]
  cases hfind : Table.find b.id d.bookings with
  | none => exact absurd rfl (Table.find_eq_none.mp hfind b hb)
  | some found => exact ⟨found, hfind⟩

theorem Punctual.refl : Punctual deadline d d :=
  .of_update (f := fun b => b) (fun _ => rfl) Table.update_none.symm

/-- No hold comes before the deadline, or along with it. -/
theorem Commit.ages (h : Commit rules d d') (hpunctual : Punctual deadline d d') :
    Draining.Ages (id, deadline) (waiting d) (waiting d') := by
  rintro ⟨id', due⟩ hwaiting hle
  obtain ⟨b', hb', rfl, hpending, hdue⟩ := mem_waiting.mp hwaiting
  obtain ⟨b, hb⟩ := hpunctual b' hb' hpending ⟨due, hdue, hle⟩
  have hfind : Table.find b'.id d'.bookings = some b' := Table.find_of_mem h.after.bookings.pkey hb'
  obtain ⟨hstatus, hexpires⟩ := h.held hb hfind hpending
  exact mem_waiting.mpr ⟨b, Table.mem_of_find hb, Table.key_of_find hb, hstatus, hexpires.trans hdue⟩

end Steps

section Elapse

variable {held : List Lock}

theorem punctual_elapse (r : (punctual rules deadline).Elapse held d d') :
    (lifecycle rules).Elapse held d d' :=
  Relation.ReflTransGen.mono (fun _ _ h => ⟨h.1.1, h.2⟩) _ _ r

theorem elapse_ages (id : String) (r : (punctual rules deadline).Elapse held d d') :
    Draining.Ages (id, deadline) (waiting d) (waiting d') :=
  r.keeps (J := fun x => Draining.Ages (id, deadline) (waiting d) (waiting x))
    (fun _ _ hact h => h.trans (hact.1.ages hact.2)) .refl

theorem elapse_notPending (r : (punctual rules deadline).Elapse held d d') (h : NotPending id d) :
    NotPending id d' :=
  r.keeps (J := NotPending id) (fun _ _ hact hleft => hact.1.notPending hleft) h

/-- A change that follows the protocol of the bookings, and makes no hold. -/
theorem punctual_guarantee (h : (lifecycle rules).Guarantee held d d') (hpunctual : Punctual deadline d d') :
    (punctual rules deadline).Guarantee held d d' :=
  ⟨⟨h.1, hpunctual⟩, h.2⟩

end Elapse

section Runs

/-- An attempt that settles leaves the booking in a status that is not pending. -/
theorem runs_beginExpiry_settled (hrules : rules.Sound) {held : List Lock} {δ : Db → Db} (hexists : Exists id d) :
    Runs (punctual rules deadline) (beginExpiry id)
      (fun outcome _ _ d' => Settles (.ok outcome) → NotPending id d') held δ d := by
  have hkept : ∀ {d d' : Db}, (punctual rules deadline).Elapse [] d d' → Exists id d → Exists id d' :=
    fun r h => elapse_exists (punctual_elapse r) h
  refine .withSerializationRetry fun _ held δ d₀ r₀ => .now fun d₁ r₁ _ instant => .transaction fun d₂ r₂ _ =>
    .lockRow (fun d₃ r₃ _ hnone => ?_) fun d₃ b r₃ _ hb => ?_
  · have hthere := hkept (r₀.trans ((r₁.weaken (by simp)).trans (r₂.trans r₃))) hexists
    obtain ⟨b, hb⟩ := hthere
    cases hnone.symm.trans hb
  obtain rfl : b.id = id := Table.key_of_find hb
  dsimp only
  have hlocked : ∀ {d' : Db}, (punctual rules deadline).Elapse [.booking b.id] d₃ d' →
      Table.find b.id d'.bookings = some b :=
    fun r => (locked_booking (punctual_elapse r) (by simp)).row b hb
  split
  · next hleft =>
    refine .ret fun d' r i _ _ => ⟨punctual_guarantee (lifecycle_unchanged hrules i) .refl, fun _ => ?_⟩
    exact ⟨b, hlocked r.elapse, hleft⟩
  next hpending =>
  have hhold : b.status = .PENDING_PAYMENT := not_not.mp hpending
  split
  · exact .ret fun d' r i _ _ => ⟨punctual_guarantee (lifecycle_unchanged hrules i) .refl, fun h => by
      rcases h with h | h <;> cases h⟩
  refine .read fun d₄ r₄ _ => .orThrow fun row hrow => ?_
  obtain rfl : b = row := Option.some.inj ((hlocked r₄).symm.trans hrow)
  refine .ensure fun htransition => .updateBookingAt fun d₅ r₅ _ _ _ _ => ?_
  refine .insertAt fun d₆ r₆ _ => .insertAt fun d₇ r₇ _ => .ret fun d' r i ha hl => ?_
  have hb' : Table.find b.id d'.bookings = some b := by
    have hsince : (punctual rules deadline).Elapse [.booking b.id] d₄ d' :=
      r₅.trans ((r₆.trans (r₇.trans r.elapse)).weaken (by simp))
    exact hlocked (r₄.trans hsince)
  refine ⟨punctual_guarantee (lifecycle_guarantee hrules i (.lapsing b _ _ _ ?_ hhold ?_ ?_ rfl)
    (of_decide_eq_true hl) ?_) (.of_update (f := fun x => { x with status := .EXPIRING }) (fun _ => rfl) rfl),
    fun _ => ⟨{ b with status := .EXPIRING }, ?_, ?_⟩⟩
  · exact {
      found := hb'
      id := fun _ => rfl
      terms := rfl
      status := htransition
      history := ⟨rfl, rfl, rfl⟩
      announced := .inl rfl }
  · rfl
  · rfl
  · exact {
      booking := frame_booking rfl (fun _ => rfl) (by simp)
      created := frame_created rfl fun _ => rfl }
  · have hfind := Table.find_update_of_mem (t := d'.bookings) (f := fun x : Booking => { x with status := .EXPIRING })
      (fun _ => rfl) (List.mem_singleton_self b.id)
    exact hfind.trans (congrArg _ hb')
  · simp

theorem runs_attemptExpiry (hrules : rules.Sound) {held : List Lock} {δ : Db → Db} (hexists : Exists id d) :
    Runs (punctual rules deadline) (attemptExpiry id)
      (fun outcome _ _ d' => Settles outcome → NotPending id d') held δ d :=
  .tryCatch (.map (runs_beginExpiry_settled hrules hexists)) fun e _ _ _ => .ret fun h => by
    rcases h with h | h <;> cases h

/-- Every row that was found is attempted, whatever becomes of the others. -/
theorem runs_attemptAll (hrules : rules.Sound) {due : List String} {held : List Lock} {δ : Db → Db} {d : Db}
    (hexists : ∀ id ∈ due, Exists id d) :
    Runs (punctual rules deadline) (attemptAll due) (fun attempts _ _ d' => attempts.map Prod.fst = due ∧
      ∀ attempt ∈ attempts, Settles attempt.2 → NotPending attempt.1 d') held δ d := by
  induction due generalizing held δ d with
  | nil => exact .ret ⟨rfl, fun _ h => absurd h List.not_mem_nil⟩
  | cons id due ih =>
    refine .bind (.mono (.since (runs_attemptExpiry hrules (hexists id List.mem_cons_self)))
      fun outcome _ _ d₁ ⟨hfirst, r₁⟩ => ?_)
    have hlater : ∀ id ∈ due, Exists id d₁ := fun id hid =>
      elapse_exists (punctual_elapse r₁) (hexists id (List.mem_cons_of_mem _ hid))
    refine .bind (.mono (.since (ih hlater)) fun others _ _ d₂ ⟨⟨hids, hothers⟩, r₂⟩ => .ret ⟨?_, ?_⟩)
    · rw [List.map_cons, hids]
    · intro attempt hattempt hsettles
      rcases List.mem_cons.mp hattempt with rfl | hattempt
      · exact elapse_notPending r₂ (hfirst hsettles)
      · exact hothers attempt hattempt hsettles

end Runs

section Sweep

theorem inOrder_perm (instant : Int) (d : Db) :
    (inOrder instant d).Perm ((holds d.bookings).filter fun hold => decide (hold.2 < instant)) :=
  List.mergeSort_perm _ _

theorem mem_inOrder {instant : Int} {hold : String × Int} :
    hold ∈ inOrder instant d ↔ hold ∈ waiting d ∧ hold.2 < instant := by
  rw [(inOrder_perm instant d).mem_iff, List.mem_filter, decide_eq_true_iff]
  exact and_congr_left fun _ => List.mem_toFinset.symm

theorem inOrder_fst_nodup (hlegal : Legal d) (instant : Int) : ((inOrder instant d).map Prod.fst).Nodup := by
  rw [((inOrder_perm instant d).map _).nodup_iff]
  exact (List.filter_sublist.map _).nodup (holds_fst_nodup hlegal)

/-- A sweep looks at the first holds of those that are due. -/
theorem overdue_batch (hlegal : Legal d) (instant : Int) :
    Draining.Batch EXPIRY_SWEEP_BATCH (inOrder instant d).toFinset (overdue instant d).toFinset := by
  have hsorted : (inOrder instant d).Pairwise fun a b => decide (a.2 ≤ b.2) = true := by
    apply List.pairwise_mergeSort
    · intro a b c h h'
      exact decide_eq_true ((of_decide_eq_true h).trans (of_decide_eq_true h'))
    · intro a b
      simp [Int.le_total]
  apply Draining.batch_take
  · exact (inOrder_fst_nodup hlegal instant).of_map _
  · exact hsorted.imp fun h => of_decide_eq_true h

/-- A hold that two hundred others wait before is not looked at. -/
theorem not_overdue (hlegal : Legal d) {due instant : Int}
    (h : EXPIRY_SWEEP_BATCH ≤ ((waiting d).filter fun hold => hold.2 < due).card) :
    (id, due) ∉ overdue instant d := by
  intro hmem
  have hbatch := overdue_batch hlegal instant
  have hdue : due < instant := (mem_inOrder.mp (List.mem_of_mem_take hmem)).2
  have hearlier : (waiting d).filter (fun hold => hold.2 < due) ⊆ (overdue instant d).toFinset.erase (id, due) := by
    intro hold hhold
    obtain ⟨hwaiting, hlt⟩ := Finset.mem_filter.mp hhold
    refine Finset.mem_erase.mpr ⟨fun heq => ?_, ?_⟩
    · rw [heq] at hlt
      exact lt_irrefl _ hlt
    · by_contra hlate
      have hle := hbatch.first (id, due) (List.mem_toFinset.mpr hmem) hold
        (List.mem_toFinset.mpr (mem_inOrder.mpr ⟨hwaiting, hlt.trans hdue⟩)) hlate
      exact absurd hlt (not_lt.mpr hle)
  have hcard := Finset.card_le_card hearlier
  rw [Finset.card_erase_of_mem (List.mem_toFinset.mpr hmem)] at hcard
  have hsize : (overdue instant d).toFinset.card ≤ EXPIRY_SWEEP_BATCH :=
    (List.toFinset_card_le _).trans (List.length_take_le _ _)
  have hpos : 0 < (overdue instant d).toFinset.card := Finset.card_pos.mpr ⟨_, List.mem_toFinset.mpr hmem⟩
  omega

/-- What a sweep has found of a batch that still waits after it, it has missed. -/
theorem card_missed (hlegal : Legal d) (instant : Int) (missed : List String) :
    ((overdue instant d).toFinset.filter fun hold => hold.1 ∈ missed).card ≤ missed.length := by
  have hnodup : ((overdue instant d).map Prod.fst).Nodup :=
    ((List.take_sublist _ _).map _).nodup (inOrder_fst_nodup hlegal instant)
  refine (Finset.card_le_card_of_injOn Prod.fst (t := missed.toFinset) (fun hold hhold => ?_) ?_).trans
    (List.toFinset_card_le _)
  · exact List.mem_toFinset.mpr (Finset.mem_filter.mp hhold).2
  · intro a ha b hb heq
    refine List.inj_on_of_nodup_map hnodup ?_ ?_ heq
    · exact List.mem_toFinset.mp (Finset.mem_filter.mp ha).1
    · exact List.mem_toFinset.mp (Finset.mem_filter.mp hb).1

/-- One sweep: a hold that waits after it has moved forward by the rest of the batch. -/
theorem runs_sweepOverdue (hrules : rules.Sound) (id : String) {held : List Lock} {δ : Db → Db} :
    Runs (punctual rules deadline) sweepOverdue (fun report _ _ d' =>
      deadline < report.instant → id ∉ report.missed → (id, deadline) ∈ waiting d' →
        (Draining.ahead (id, deadline) (waiting d')).card + (EXPIRY_SWEEP_BATCH - report.missed.length) ≤
          (Draining.ahead (id, deadline) (waiting d)).card) held δ d := by
  refine .now fun d₁ r₁ _ instant => .query fun d₂ r₂ i₂ => ?_
  have hlegal : Legal d₂ := i₂.1
  have hexists : ∀ id ∈ (overdue instant d₂).map Prod.fst, Exists id d₂ := by
    intro id hid
    obtain ⟨hold, hhold, rfl⟩ := List.mem_map.mp hid
    obtain ⟨b, hb, hid, -⟩ := mem_waiting.mp (mem_inOrder.mp (List.mem_of_mem_take hhold)).1
    exact ⟨b, hid ▸ Table.find_of_mem hlegal.bookings.pkey hb⟩
  refine .bind (.mono (.since (runs_attemptAll hrules hexists)) fun attempts _ _ d₃ ⟨⟨hids, hsettled⟩, r₃⟩ =>
    .ret fun hinstant hmissed hwaiting => ?_)
  have hlegal₃ : Legal d₃ := r₃.keeps (J := Legal) (fun _ _ hact _ => hact.1.after) hlegal
  have hages : Draining.Ages (id, deadline) (inOrder instant d₂).toFinset (waiting d₃) := fun other hother hle =>
    List.mem_toFinset.mpr (mem_inOrder.mpr ⟨elapse_ages id r₃ other hother hle, hle.trans_lt hinstant⟩)
  have hserved : ∀ other ∈ (overdue instant d₂).toFinset, other ∈ waiting d₃ →
      other ∈ (overdue instant d₂).toFinset.filter fun hold =>
        hold.1 ∈ (SweepReport.mk instant attempts).missed := by
    intro other hother hstays
    obtain ⟨attempt, hattempt, hid⟩ : ∃ attempt ∈ attempts, attempt.1 = other.1 := by
      refine List.mem_map.mp (hids ▸ List.mem_map_of_mem ?_)
      exact List.mem_toFinset.mp hother
    refine Finset.mem_filter.mpr ⟨hother, List.mem_map.mpr ⟨attempt, ?_, hid⟩⟩
    refine List.mem_filter.mpr ⟨hattempt, decide_eq_true fun hsettles => ?_⟩
    exact (hsettled attempt hattempt hsettles).not_waiting hlegal₃ other.2 (hid ▸ hstays)
  have hprogress := (overdue_batch hlegal instant).progress hages hserved hwaiting
    fun h => hmissed (Finset.mem_filter.mp h).2
  have hsince : (punctual rules deadline).Elapse [] d d₂ := (r₁.weaken (by simp)).trans r₂
  have hahead : Draining.ahead (id, deadline) (inOrder instant d₂).toFinset =
      Draining.ahead (id, deadline) (waiting d₂) :=
    Draining.ahead_congr fun other hle => by
      rw [List.mem_toFinset, mem_inOrder]
      exact and_iff_left (hle.trans_lt hinstant)
  rw [hahead] at hprogress
  have hbefore := Finset.card_le_card (elapse_ages id hsince).ahead_subset
  have hcard := card_missed hlegal instant (SweepReport.mk instant attempts).missed
  omega

/-- Some sweeps: each that goes well enough moves the hold forward. -/
theorem runs_sweeps (hrules : rules.Sound) (id : String) (failing n : Nat) {held : List Lock} {δ : Db → Db} {d : Db} :
    Runs (punctual rules deadline) (sweeps n) (fun reports _ _ d' =>
      (∀ report ∈ reports, deadline < report.instant ∧ id ∉ report.missed ∧ report.missed.length ≤ failing) →
        (id, deadline) ∈ waiting d' →
          (Draining.ahead (id, deadline) (waiting d')).card + n * (EXPIRY_SWEEP_BATCH - failing) ≤
            (Draining.ahead (id, deadline) (waiting d)).card) held δ d := by
  induction n generalizing held δ d with
  | zero => exact .ret fun _ _ => by rw [Nat.zero_mul, Nat.add_zero]
  | succ n ih =>
    refine .bind (.mono (runs_sweepOverdue hrules id) fun report _ _ d₁ hfirst => ?_)
    refine .bind (.mono (.since ih) fun later _ _ d₂ ⟨hlater, r₂⟩ => .ret fun hgood hwaiting => ?_)
    obtain ⟨hinstant, hmissed, hfew⟩ := hgood report List.mem_cons_self
    have hlate := hlater (fun r hr => hgood r (List.mem_cons_of_mem _ hr)) hwaiting
    have hsoon := hfirst hinstant hmissed (elapse_ages id r₂ _ hwaiting le_rfl)
    rw [Nat.succ_mul]
    omega

end Sweep

/-- While clients do what they do to the bookings, each hold they make ending after the deadline, and the
sweeps go over the rows, whatever fails: a hold whose time has passed waits no longer than the
sweeps take for those before it. Each sweep gets through its batch, less what fails of it; what
fails keeps its place, and a batch of it leaves those behind it where they are. -/
theorem overdue_drained (hrules : rules.Sound) (hlegal : Legal d) (failing n : Nat) {held : List Lock} {δ : Db → Db}
    (hahead : (Draining.ahead (id, deadline) (waiting d)).card < n * (EXPIRY_SWEEP_BATCH - failing)) :
    Runs (punctual rules deadline) (sweeps n) (fun reports _ _ d' =>
      (∀ report ∈ reports, deadline < report.instant ∧ id ∉ report.missed ∧ report.missed.length ≤ failing) →
        (id, deadline) ∉ waiting d') held δ d ∧
    ∀ instant, EXPIRY_SWEEP_BATCH ≤ ((waiting d).filter fun hold => hold.2 < deadline).card →
      (id, deadline) ∉ overdue instant d := by
  refine ⟨.mono (runs_sweeps hrules id failing n) fun reports _ _ d' h hgood hwaiting => ?_,
    fun instant hfull => not_overdue hlegal hfull⟩
  have hle := h hgood hwaiting
  omega

end Drain

/-- A hold until the instant 5. -/
def Db.oneHold : Db :=
  .sample [{ Booking.sample with status := .PENDING_PAYMENT, expiresAt := some 5 }]

theorem overdue_drained_one : ("b", 5) ∈ waiting Db.oneHold ∧
    Runs (punctual everyRun 5) (sweeps 1) (fun reports _ _ d' =>
      (∀ report ∈ reports, 5 < report.instant ∧ "b" ∉ report.missed ∧ report.missed.length ≤ 199) →
        ("b", 5) ∉ waiting d') [] id Db.oneHold := by
  have hlegal : Legal Db.oneHold := by decide
  have hahead : (Draining.ahead ("b", 5) (waiting Db.oneHold)).card < 1 * (EXPIRY_SWEEP_BATCH - 199) := by
    decide
  exact ⟨by decide, (overdue_drained everyRun_sound hlegal 199 1 hahead).1⟩

end BookingApp
