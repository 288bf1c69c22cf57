import BookingApp.Booking.Changes

/-!
# The protocol of the bookings

What the holder of a lock can count on: the row of a booking stays, and no request is
opened for it (`SameBooking`); nothing more occupies the employee of a locked calendar
(`SameCalendar`). A commit keeps to it when it touches rows that are locked only
(`Frame`).
-/

set_option autoImplicit false

namespace BookingApp

open ReadCommitted ReadCommitted.Proto

/-- A row that exists stays as it is. -/
def SameRow {ρ : Type} [Keyed ρ String] (table : Db → List ρ) (id : String) (d d' : Db) : Prop :=
  ∀ r, Table.find id (table d) = some r → Table.find id (table d') = some r

/-- A booking that exists stays as it is, and no request is opened for it. -/
structure SameBooking (id : String) (d d' : Db) : Prop where
  row : SameRow Db.bookings id d d'
  cancellations : ∀ r ∈ d'.cancellationRequests, r.bookingId = id → r.decision = .PENDING →
    r ∈ d.cancellationRequests
  reschedules : ∀ r ∈ d'.rescheduleRequests, r.bookingId = id → r.decision = .PENDING →
    r ∈ d.rescheduleRequests

/-- Nothing more occupies the employee, whose leave stays as it is. -/
structure SameCalendar (employeeId : String) (d d' : Db) : Prop where
  blockedTimes : ∀ t ∈ d'.blockedTimes, t.employeeId = employeeId → t ∈ d.blockedTimes
  timeOff : ∀ t ∈ d'.timeOff, t.employeeId = employeeId → t ∈ d.timeOff
  bookings : ∀ b' ∈ d'.bookings, b'.employeeId = employeeId → b'.Blocks →
    ∃ b ∈ d.bookings, b.Blocks ∧ b.terms = b'.terms

/-- A change from one legal state to another. -/
structure Commit (rules : BookingRules) (d d' : Db) : Prop where
  before : Legal d
  after : Legal d'
  change : Change rules d d'

/-- The protocol of the bookings. -/
def lifecycle (rules : BookingRules) : Proto store where
  toConditions := rules.conditions
  Inv d := Legal d ∧ rules.invariant d
  Act := Commit rules
  Same l := match l with
    | .booking id => SameBooking id
    | .payment id => SamePayment id
    | .refund id => SameRefund id
    | .cancellationRequest id => SameRow Db.cancellationRequests id
    | .rescheduleRequest id => SameRow Db.rescheduleRequests id
    | .calendar employeeId => SameCalendar employeeId
    | _ => fun _ _ => True
  same_refl l d := by
    cases l with
    | booking id => exact ⟨fun _ h => h, fun _ h _ _ => h, fun _ h _ _ => h⟩
    | payment id => exact .refl id d
    | refund id => exact .refl id d
    | cancellationRequest id => exact fun _ h => h
    | rescheduleRequest id => exact fun _ h => h
    | calendar employeeId => exact ⟨fun _ h _ => h, fun _ h _ => h, fun b h _ hb => ⟨b, h, hb, rfl⟩⟩
    | _ => trivial
  same_trans {l d₁ d₂ d₃} h₁ h₂ := by
    cases l with
    | booking id =>
      exact {
        row := fun r h => h₂.row r (h₁.row r h)
        cancellations := fun r h hid hopen => h₁.cancellations r (h₂.cancellations r h hid hopen) hid hopen
        reschedules := fun r h hid hopen => h₁.reschedules r (h₂.reschedules r h hid hopen) hid hopen }
    | payment id => exact h₁.trans h₂
    | refund id => exact h₁.trans h₂
    | cancellationRequest id => exact fun r h => h₂ r (h₁ r h)
    | rescheduleRequest id => exact fun r h => h₂ r (h₁ r h)
    | calendar employeeId =>
      refine ⟨fun t h he => h₁.blockedTimes t (h₂.blockedTimes t h he) he,
        fun t h he => h₁.timeOff t (h₂.timeOff t h he) he, fun b₃ h he hb => ?_⟩
      obtain ⟨b₂, hmem₂, hblocks₂, hterms₂⟩ := h₂.bookings b₃ h he hb
      have he₂ : b₂.employeeId = employeeId := (congrArg Booking.employeeId hterms₂).trans he
      obtain ⟨b₁, hmem₁, hblocks₁, hterms₁⟩ := h₁.bookings b₂ hmem₂ he₂ hblocks₂
      exact ⟨b₁, hmem₁, hblocks₁, hterms₁.trans hterms₂⟩
    | _ => trivial

/-- What has to be shown of the rules: the changes keep their invariant, and the events that are
stored report the right amounts. -/
structure BookingRules.Sound (rules : BookingRules) : Prop where
  kept : ∀ d d', Commit rules d d' → rules.invariant d → rules.invariant d'
  reports : ∀ d, rules.invariant d → ∀ e ∈ d.stripeWebhookEvents, rules.Reports e.payload

/-- A change that touches rows that are locked only. -/
structure Frame (held : List Lock) (d d' : Db) : Prop where
  booking : ∀ id, .booking id ∉ held → SameRow Db.bookings id d d' := by exact fun _ _ _ h => h
  created : ∀ b ∈ d'.bookings, (∃ b₀ ∈ d.bookings, b₀.id = b.id) ∨ .calendar b.employeeId ∈ held := by
    exact fun b h => .inl ⟨b, h, rfl⟩
  blockedTimes : ∀ t ∈ d'.blockedTimes, t ∈ d.blockedTimes ∨ .calendar t.employeeId ∈ held := by
    exact fun _ h => .inl h
  timeOff : ∀ t ∈ d'.timeOff, t ∈ d.timeOff ∨ .calendar t.employeeId ∈ held := by
    exact fun _ h => .inl h
  openCancellations : ∀ r ∈ d'.cancellationRequests, r.decision = .PENDING →
    r ∈ d.cancellationRequests ∨ .booking r.bookingId ∈ held := by exact fun _ h _ => .inl h
  openReschedules : ∀ r ∈ d'.rescheduleRequests, r.decision = .PENDING →
    r ∈ d.rescheduleRequests ∨ .booking r.bookingId ∈ held := by exact fun _ h _ => .inl h
  payment : ∀ id, .payment id ∉ held → SamePayment id d d' := by exact fun _ _ _ h => ⟨h, rfl⟩
  refund : ∀ id, .refund id ∉ held → SameRefund id d d' := by exact fun _ _ _ h => h
  cancellation : ∀ id, .cancellationRequest id ∉ held → SameRow Db.cancellationRequests id d d' := by
    exact fun _ _ _ h => h
  reschedule : ∀ id, .rescheduleRequest id ∉ held → SameRow Db.rescheduleRequests id d d' := by
    exact fun _ _ _ h => h

section Frame

variable {rules : BookingRules} {held : List Lock} {d d' : Db}

/-- What becomes of one booking, whatever an approval has read. -/
theorem Commit.life (h : Commit rules d d') (id : String) : LifeStep False (lifeOf id d) (lifeOf id d') :=
  h.change.life h.after (fun h => h.elim) id

/-- What becomes of the bookings that occupy an employee. -/
theorem Commit.blocks (h : Commit rules d d') {b b' : Booking}
    (hb : b ∈ d.bookings) (hb' : b' ∈ d'.bookings) (hid : b.id = b'.id) (hblocks : b'.Blocks) :
    b.Blocks ∧ b.terms = b'.terms := by
  have hfind : (lifeOf b'.id d).row = some b := hid ▸ Table.find_of_mem h.before.bookings.pkey hb
  have hfind' : (lifeOf b'.id d').row = some b' := Table.find_of_mem h.after.bookings.pkey hb'
  exact ⟨(h.life _).blocks hfind hfind' hblocks, ((h.life _).between hfind hfind').1.symm⟩

/-- A booking that a commit leaves comes from one that was there, or is new. -/
theorem Commit.booking (h : Commit rules d d') {b' : Booking} (hb' : b' ∈ d'.bookings) :
    (∃ b ∈ d.bookings, b.id = b'.id) ∨ NewBooking rules d d' b' := by
  cases hb : Table.find b'.id d.bookings with
  | none => exact .inr (h.change.new_booking hb' hb)
  | some b => exact .inl ⟨b, Table.mem_of_find hb, Table.key_of_find hb⟩

theorem Commit.terms (h : Commit rules d d') {b b' : Booking} (hb : b ∈ d.bookings)
    (hb' : b' ∈ d'.bookings) (hid : b.id = b'.id) : b.terms = b'.terms := by
  have hfind : (lifeOf b'.id d).row = some b := hid ▸ Table.find_of_mem h.before.bookings.pkey hb
  have hfind' : (lifeOf b'.id d').row = some b' := Table.find_of_mem h.after.bookings.pkey hb'
  exact ((h.life _).between hfind hfind').1.symm

theorem lifecycle_guarantee (hrules : rules.Sound) (hinv : (lifecycle rules).Inv d)
    (hchange : Change rules d d') (hlegal : Legal d') (hframe : Frame held d d') :
    (lifecycle rules).Guarantee held d d' := by
  have hcommit : Commit rules d d' := ⟨hinv.1, hlegal, hchange⟩
  refine ⟨hcommit, ⟨hlegal, hrules.kept d d' hcommit hinv.2⟩, fun l hl => ?_⟩
  cases l with
  | booking id =>
    refine ⟨hframe.booking id hl, fun r hr hid hopen => ?_, fun r hr hid hopen => ?_⟩
    · exact (hframe.openCancellations r hr hopen).resolve_right (hid ▸ hl)
    · exact (hframe.openReschedules r hr hopen).resolve_right (hid ▸ hl)
  | payment id => exact hframe.payment id hl
  | refund id => exact hframe.refund id hl
  | cancellationRequest id => exact hframe.cancellation id hl
  | rescheduleRequest id => exact hframe.reschedule id hl
  | calendar employeeId =>
    refine ⟨fun t ht he => (hframe.blockedTimes t ht).resolve_right (he ▸ hl),
      fun t ht he => (hframe.timeOff t ht).resolve_right (he ▸ hl), fun b' hb' he hblocks => ?_⟩
    obtain ⟨b, hb, hid⟩ := (hframe.created b' hb').resolve_right (he ▸ hl)
    exact ⟨b, hb, hcommit.blocks hb hb' hid hblocks⟩
  | _ => trivial

/-- A commit of nothing. -/
theorem lifecycle_unchanged (hrules : rules.Sound) (hinv : (lifecycle rules).Inv d) :
    (lifecycle rules).Guarantee held d d :=
  lifecycle_guarantee hrules hinv
    (.quiet d.idempotencyKeys d.attempts d.clock d.manualPayments (fun _ hm => .inl hm) rfl) hinv.1 {}

/-- A transaction that has written nothing. -/
theorem Runs.unchanged (hrules : rules.Sound) {α : Type} {a : α} {label : α → Point}
    {Q : α → List Lock → (Db → Db) → Db → Prop}
    (hQ : ∀ d', (lifecycle rules).Elapse held d d' → Q a [] id d') :
    Runs (lifecycle rules) (pure a) ((lifecycle rules).CommitsBy label Q) held id d :=
  .ret fun d' r i _ _ => ⟨lifecycle_unchanged hrules i, hQ d' r.elapse⟩

theorem sameRow_append {ρ : Type} [Keyed ρ String] {table : Db → List ρ} {more : List ρ} (id : String)
    (h : table d' = table d ++ more) : SameRow table id d d' :=
  fun r hr => by rw [h]; exact Table.find_append_of_some hr

/-- The rows that an update does not name stay as they are. -/
theorem sameRow_update {ρ : Type} [Keyed ρ String] {table : Db → List ρ} {ids : List String} {f : ρ → ρ}
    (hf : ∀ r, Keyed.key (f r) = Keyed.key r) (h : table d' = Table.update ids f (table d))
    {id : String} (hid : id ∉ ids) : SameRow table id d d' :=
  fun r hr => by rw [h, Table.find_update_of_notMem hf hid]; exact hr

/-- The update of a booking whose row is locked. -/
theorem frame_booking {f : Booking → Booking} {id : String}
    (h : d'.bookings = Table.update [id] f d.bookings) (hf : ∀ b, (f b).id = b.id)
    (hl : .booking id ∈ held) : ∀ i, .booking i ∉ held → SameRow Db.bookings i d d' :=
  fun _ hi => sameRow_update hf h fun he => hi (List.mem_singleton.mp he ▸ hl)

/-- No booking is new after an update. -/
theorem frame_created {f : Booking → Booking} {ids : List String}
    (h : d'.bookings = Table.update ids f d.bookings) (hf : ∀ b, (f b).id = b.id) :
    ∀ b ∈ d'.bookings, (∃ b₀ ∈ d.bookings, b₀.id = b.id) ∨ .calendar b.employeeId ∈ held := by
  intro b hb
  obtain ⟨b₀, hb₀, rfl⟩ := Table.mem_update.mp (h ▸ hb)
  refine .inl ⟨b₀, hb₀, ?_⟩
  split
  · exact (hf b₀).symm
  · rfl

/-- A request that is pending after others were decided. -/
theorem cancellation_of_update {f : CancellationRequest → CancellationRequest} {ids : List String}
    {t : List CancellationRequest} (hf : DecidesCancellation f) {r : CancellationRequest}
    (hr : r ∈ Table.update ids f t) (hopen : r.decision = .PENDING) : r ∈ t ∧ r.id ∉ ids := by
  obtain ⟨r₀, hr₀, rfl⟩ := Table.mem_update.mp hr
  by_cases hid : Keyed.key r₀ ∈ ids
  · rw [if_pos hid] at hopen
    exact absurd hopen (hf r₀).2.2
  · rw [if_neg hid]
    exact ⟨hr₀, hid⟩

theorem reschedule_of_update {f : RescheduleRequest → RescheduleRequest} {ids : List String}
    {t : List RescheduleRequest} (hf : DecidesReschedule f) {r : RescheduleRequest}
    (hr : r ∈ Table.update ids f t) (hopen : r.decision = .PENDING) : r ∈ t ∧ r.id ∉ ids := by
  obtain ⟨r₀, hr₀, rfl⟩ := Table.mem_update.mp hr
  by_cases hid : Keyed.key r₀ ∈ ids
  · rw [if_pos hid] at hopen
    exact absurd hopen (hf r₀).2.2
  · rw [if_neg hid]
    exact ⟨hr₀, hid⟩

end Frame

/-! What a client that has locked a row knows of it later. -/

section Locked

variable {rules : BookingRules} {held : List Lock} {d d' : Db} {id : String}

theorem locked_booking (r : (lifecycle rules).Elapse held d d') (hl : .booking id ∈ held) :
    SameBooking id d d' :=
  r.same hl

theorem locked_payment (r : (lifecycle rules).Elapse held d d') (hl : .payment id ∈ held) :
    SamePayment id d d' :=
  r.same hl

theorem locked_refund (r : (lifecycle rules).Elapse held d d') (hl : .refund id ∈ held) :
    SameRefund id d d' :=
  r.same hl

theorem locked_calendar (r : (lifecycle rules).Elapse held d d') (hl : .calendar id ∈ held) :
    SameCalendar id d d' :=
  r.same hl

theorem locked_reschedule (r : (lifecycle rules).Elapse held d d') (hl : .rescheduleRequest id ∈ held) :
    SameRow Db.rescheduleRequests id d d' :=
  r.same hl

/-- Bookings stay. -/
def Exists (id : String) (d : Db) : Prop :=
  ∃ b, Table.find id d.bookings = some b

theorem elapse_exists (r : (lifecycle rules).Elapse held d d') (h : Exists id d) : Exists id d' :=
  r.keeps (J := Exists id) (fun _ _ hcommit ⟨_, hb⟩ => (Commit.life hcommit id).stays hb) h

/-- A booking keeps the terms it was sold with. -/
theorem elapse_terms (r : (lifecycle rules).Elapse held d d') {b : Booking}
    (hb : Table.find id d.bookings = some b) :
    ∃ b', Table.find id d'.bookings = some b' ∧ b'.terms = b.terms := by
  refine r.keeps (J := fun x : Db => ∃ b', Table.find id x.bookings = some b' ∧ b'.terms = b.terms)
    (fun x y hcommit ⟨b₁, hb₁, hterms⟩ => ?_) ⟨b, hb, rfl⟩
  have hlife := Commit.life hcommit id
  obtain ⟨b₂, hb₂⟩ := hlife.stays hb₁
  exact ⟨b₂, hb₂, (hlife.between hb₁ hb₂).1.trans hterms⟩

/-- A booking that was paid for stays so. -/
theorem elapse_paid (r : (lifecycle rules).Elapse held d d') {b b' : Booking}
    (hb : Table.find id d.bookings = some b) (hb' : Table.find id d'.bookings = some b')
    (hpaid : b.status ∉ UNPAID_BOOKING_STATUSES) : b'.status ∉ UNPAID_BOOKING_STATUSES := by
  have hkept : ∃ x, Table.find id d'.bookings = some x ∧ x.status ∉ UNPAID_BOOKING_STATUSES := by
    refine r.keeps (J := fun x : Db => ∃ y, Table.find id x.bookings = some y ∧
      y.status ∉ UNPAID_BOOKING_STATUSES) (fun x y hcommit ⟨b₁, hb₁, hpaid₁⟩ => ?_) ⟨b, hb, hpaid⟩
    have hlife := Commit.life hcommit id
    obtain ⟨b₂, hb₂⟩ := hlife.stays hb₁
    exact ⟨b₂, hb₂, fun h => hpaid₁ (hlife.unpaid hb₁ hb₂ h)⟩
  obtain ⟨x, hx, hpaid'⟩ := hkept
  obtain rfl := Option.some.inj (hb'.symm.trans hx)
  exact hpaid'

/-- A request stays as it is until it is decided. -/
theorem Change.reschedule (h : Change rules d d') {r : RescheduleRequest}
    (hr : Table.find id d.rescheduleRequests = some r) :
    ∃ r', Table.find id d'.rescheduleRequests = some r' ∧ (r'.decision = .PENDING → r' = r) := by
  have hkept : d'.rescheduleRequests = d.rescheduleRequests →
      ∃ r', Table.find id d'.rescheduleRequests = some r' ∧ (r'.decision = .PENDING → r' = r) :=
    fun he => ⟨r, by rw [he]; exact hr, fun _ => rfl⟩
  have hupdate : ∀ (ids : List String) (f : RescheduleRequest → RescheduleRequest), DecidesReschedule f →
      d'.rescheduleRequests = Table.update ids f d.rescheduleRequests →
      ∃ r', Table.find id d'.rescheduleRequests = some r' ∧ (r'.decision = .PENDING → r' = r) := by
    intro ids f hf he
    rw [he, Table.find_update fun r => (hf r).1, hr]
    refine ⟨_, rfl, fun hopen => ?_⟩
    split at hopen
    · exact absurd hopen (hf r).2.2
    · exact if_neg ‹_›
  cases h with
  | ended b f row events refunds cancellations reschedules g h hmoves hstatus hends hsession hrefunds
      hcancellations hreschedules hcloses hd => exact hupdate reschedules h hreschedules (by rw [hd])
  | asked b cancellations reschedules hb hstatus hcancellations hreschedules hd =>
    exact ⟨r, by rw [hd]; exact Table.find_append_of_some hr, fun _ => rfl⟩
  | decided cancellations reschedules g h hcancellations hreschedules hd =>
    exact hupdate reschedules h hreschedules (by rw [hd])
  | replaced b created f canceled row requestId h revoked revoke token events hx hread hassume hpaid hid
      hterms hsession hstatus hhistory hcreated hsilent hsold hclear hconfirmed hreplaces hdecides hrevoke
      hsucceeds hd => exact hupdate [requestId] h hdecides (by rw [hd])
  | _ =>
    rename_i hd
    exact hkept (by rw [hd])

/-- A request that is still open is the one that was read before. -/
theorem elapse_open (r : (lifecycle rules).Elapse held d d') {q q' : RescheduleRequest}
    (hq : Table.find id d.rescheduleRequests = some q)
    (hq' : Table.find id d'.rescheduleRequests = some q') (hopen : q'.decision = .PENDING) : q' = q := by
  have hkept : ∃ x, Table.find id d'.rescheduleRequests = some x ∧ (x.decision = .PENDING → x = q) := by
    refine r.keeps (J := fun x : Db => ∃ y, Table.find id x.rescheduleRequests = some y ∧
      (y.decision = .PENDING → y = q)) (fun x y hcommit ⟨q₁, hq₁, hsame⟩ => ?_) ⟨q, hq, fun _ => rfl⟩
    obtain ⟨q₂, hq₂, hsame₂⟩ := Change.reschedule (Commit.change hcommit) hq₁
    exact ⟨q₂, hq₂, fun hopen => (hsame₂ hopen).trans (hsame (hsame₂ hopen ▸ hopen))⟩
  obtain ⟨x, hx, hsame⟩ := hkept
  obtain rfl := Option.some.inj (hq'.symm.trans hx)
  exact hsame hopen

/-- The booking names the session, unless it was paid for. -/
def Names (id sessionId : String) (d : Db) : Prop :=
  ∃ b, Table.find id d.bookings = some b ∧
    (b.stripeCheckoutSessionId = some sessionId ∨ b.status ∉ UNPAID_BOOKING_STATUSES)

/-- The booking names a session if it was paid for. -/
def Attachable (id : String) (d : Db) : Prop :=
  ∃ b, Table.find id d.bookings = some b ∧
    (b.stripeCheckoutSessionId = none → b.status ∈ UNPAID_BOOKING_STATUSES)

/-- A session that a booking names stays named until the booking is paid for. -/
theorem Commit.names {sessionId : String} (h : Commit rules d d') (hn : Names id sessionId d) :
    Names id sessionId d' := by
  obtain ⟨b, hb, hnamed⟩ := hn
  obtain ⟨b', hb'⟩ := (h.life id).stays hb
  refine ⟨b', hb', ?_⟩
  by_cases hunpaid' : b'.status ∈ UNPAID_BOOKING_STATUSES
  · have hunpaid := (h.life id).unpaid hb hb' hunpaid'
    have hsome := hnamed.resolve_right (not_not.mpr hunpaid)
    cases h.change.session hb hb' with
    | kept hsession => exact .inl (hsession.trans hsome)
    | attached other hnone => simp [hnone] at hsome
    | confirmed other hhold hstatus => simp [hstatus, UNPAID_BOOKING_STATUSES] at hunpaid'
  · exact .inr hunpaid'

theorem Commit.attachable (h : Commit rules d d') (ha : Attachable id d) : Attachable id d' := by
  obtain ⟨b, hb, hunpaid⟩ := ha
  obtain ⟨b', hb'⟩ := (h.life id).stays hb
  refine ⟨b', hb', fun hnone => ?_⟩
  cases h.change.session hb hb' with
  | kept hsession hstays => exact hstays (hunpaid (hsession.symm.trans hnone))
  | attached sessionId _ _ _ hsession => simp [hnone] at hsession
  | confirmed sessionId hhold hstatus hsession => simp [hnone] at hsession

theorem elapse_names {sessionId : String} (r : (lifecycle rules).Elapse held d d')
    (h : Names id sessionId d) : Names id sessionId d' :=
  r.keeps (J := Names id sessionId) (fun _ _ hcommit h => Commit.names hcommit h) h

theorem elapse_attachable (r : (lifecycle rules).Elapse held d d') (h : Attachable id d) :
    Attachable id d' :=
  r.keeps (J := Attachable id) (fun _ _ hcommit h => Commit.attachable hcommit h) h

/-- A session that has ended stays so. -/
theorem Change.ended_session (h : Change rules d d') (he : d.provider.Ended id) :
    d'.provider.Ended id := by
  cases h with
  | called state hended hd => rw [hd]; exact hended id he
  | _ => simp_all

theorem elapse_ended (r : (lifecycle rules).Elapse held d d') (h : d.provider.Ended id) :
    d'.provider.Ended id :=
  r.keeps (J := fun x : Db => x.provider.Ended id)
    (fun _ _ hcommit h => Change.ended_session (Commit.change hcommit) h) h

/-- The session has a payment, which is the booking's. -/
def HasPayment (sessionId bookingId : String) (d : Db) : Prop :=
  ∃ p ∈ d.payments, p.stripeCheckoutSessionId = some sessionId ∧ p.bookingId = bookingId

theorem Commit.hasPayment {sessionId : String} (h : Commit rules d d') (hp : HasPayment sessionId id d) :
    HasPayment sessionId id d' := by
  obtain ⟨p, hmem, hsession, hbooking⟩ := hp
  obtain ⟨p', hp', hstep⟩ := h.change.payment (Table.find_of_mem h.before.payments.pkey hmem)
  obtain ⟨hbooking', hsession', -⟩ := hstep.stays
  exact ⟨p', Table.mem_of_find hp', hsession'.trans hsession, hbooking'.trans hbooking⟩

theorem elapse_hasPayment {sessionId : String} (r : (lifecycle rules).Elapse held d d')
    (h : HasPayment sessionId id d) : HasPayment sessionId id d' :=
  r.keeps (J := HasPayment sessionId id) (fun _ _ hcommit h => Commit.hasPayment hcommit h) h

end Locked

end BookingApp
