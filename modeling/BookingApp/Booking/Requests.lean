import BookingApp.Booking.Histories

/-!
# Open requests

A request that is open is about a confirmed booking, as long as an operation that ends
a booking finds no request open on it but the one it decides itself. A business
cancellation closes them all.
-/

set_option autoImplicit false

namespace BookingApp

open ReadCommitted ReadCommitted.Proto

/-- The booking that an operation ends at this commit, and the request it decides. -/
def Point.left : Point → Option (String × Option Lock)
  | .leaving bookingId own _ => some (bookingId, own)
  | _ => none

/-- Who ends a booking finds no request open on it but the one that is decided. -/
def onlyOwnRequest : Conditions store where
  Assume p d := ∀ l ∈ p.left,
    (∀ r ∈ d.cancellationRequests, r.bookingId = l.1 → r.decision = .PENDING →
      l.2 = some (.cancellationRequest r.id)) ∧
    ∀ r ∈ d.rescheduleRequests, r.bookingId = l.1 → r.decision = .PENDING →
      l.2 = some (.rescheduleRequest r.id)
  Stable _ _ _ := True
  Fault _ _ := True

instance : onlyOwnRequest.Checkable where
  assume p d := inferInstanceAs (Decidable (∀ l ∈ p.left,
    (∀ r ∈ d.cancellationRequests, r.bookingId = l.1 → r.decision = .PENDING →
      l.2 = some (.cancellationRequest r.id)) ∧
    ∀ r ∈ d.rescheduleRequests, r.bookingId = l.1 → r.decision = .PENDING →
      l.2 = some (.rescheduleRequest r.id)))
  stable _ _ _ := .isTrue trivial
  fault _ _ := .isTrue trivial

/-- The rules under which requests are looked at. -/
def requestRules : BookingRules where
  conditions := onlyOwnRequest
  refunds := True

theorem requestRules_sound : requestRules.Sound where
  kept _ _ _ _ := trivial
  reports _ _ _ _ _ _ _ _ _ := trivial

theorem requestRules_handles (h : requestRules.refunds) : requestRules.Handles :=
  .of_forall requestRules_sound h fun _ _ => trivial

/-- The booking is confirmed. -/
def Live (id : String) (d : Db) : Prop :=
  ∃ b ∈ Table.find id d.bookings, b.status = .CONFIRMED

/-- A request that is open is about a confirmed booking. -/
structure PendingLive (d : Db) : Prop where
  cancellation : ∀ r ∈ d.cancellationRequests, r.decision = .PENDING → Live r.bookingId d
  reschedule : ∀ r ∈ d.rescheduleRequests, r.decision = .PENDING → Live r.bookingId d

variable {rules : BookingRules} {d d' : Db} {id : String} {b b' : Booking}

/-- The row after an update of another one, or of itself. -/
theorem row_of_update {x : Booking} {f : Booking → Booking} (hf : ∀ y, (f y).id = y.id)
    (hx : Table.find x.id d.bookings = some x) (hb : Table.find id d.bookings = some b)
    (hb' : Table.find id (Table.update [x.id] f d.bookings) = some b') :
    b' = b ∨ id = x.id ∧ b = x ∧ b' = f b := by
  rw [Table.find_update hf, hb, Option.map_some, Option.some.injEq] at hb'
  by_cases hid : id = x.id
  · subst hid
    rw [if_pos (by simp)] at hb'
    exact .inr ⟨rfl, Option.some.inj (hb.symm.trans hx), hb'.symm⟩
  · rw [if_neg (by simpa using hid)] at hb'
    exact .inl hb'.symm

/-- What takes a booking out of CONFIRMED decides requests of the booking. -/
theorem Change.leaving (h : Change rules d d') (hb : Table.find id d.bookings = some b)
    (hconfirmed : b.status = .CONFIRMED) (hb' : Table.find id d'.bookings = some b')
    (hleft : b'.status ≠ .CONFIRMED) : ∃ cancellations reschedules g h',
      DecidesCancellation g ∧ DecidesReschedule h' ∧
      Closes rules.conditions id cancellations reschedules d ∧
      d'.cancellationRequests = Table.update cancellations g d.cancellationRequests ∧
      d'.rescheduleRequests = Table.update reschedules h' d.rescheduleRequests := by
  have hkept : d'.bookings = d.bookings → b' = b := by
    intro he
    rw [he, hb] at hb'
    exact (Option.some.inj hb').symm
  -- a hold is not a confirmed booking
  have hheld : ∀ (x : Booking) (f : Booking → Booking), (∀ y, (f y).id = y.id) →
      Table.find x.id d.bookings = some x → x.status ≠ .CONFIRMED →
      d'.bookings = Table.update [x.id] f d.bookings → b' = b := by
    intro x f hf hx hstatus he
    rw [he] at hb'
    refine (row_of_update hf hx hb hb').resolve_right ?_
    rintro ⟨-, rfl, -⟩
    exact hstatus hconfirmed
  have habsurd : b' = b → False := fun he => hleft (he ▸ hconfirmed)
  cases h with
  | reserved x ids keys row tokens events hcreated hsold hclear hfirst hroot hd =>
    rw [hd, Table.find_append, Table.find_update (by exact fun _ => rfl), hb, Option.map_some,
      Option.some_or, Option.some.injEq] at hb'
    refine absurd ?_ hleft
    rw [← hb']
    split <;> exact hconfirmed
  | attached x sessionId bookings payments hassume hx hattaches hopens hpayment hd =>
    rw [hd] at hb'
    cases hattaches with
    | again hsession => exact (habsurd (Option.some.inj (hb'.symm.trans hb))).elim
    | first hnone hunpaid =>
      rcases row_of_update (by exact fun _ => rfl) hx hb hb' with he | ⟨-, -, rfl⟩
      · exact (habsurd he).elim
      · exact absurd hconfirmed hleft
  | confirmed input x f row token event payments hassume hmoves hhold hstatus hsession htoken
      hcaptures hpays hd =>
    refine (habsurd (hheld x f hmoves.id hmoves.found (fun h => ?_) (by rw [hd]))).elim
    rcases hhold with hhold | hhold <;> simp [hhold] at h
  | failed input x f row event ids hassume hmoves hhold hstatus hsession hids hd =>
    exact (habsurd (hheld x f hmoves.id hmoves.found (by simp [hhold]) (by rw [hd]))).elim
  | lapsing x f row event hmoves hhold hstatus hsession hd =>
    exact (habsurd (hheld x f hmoves.id hmoves.found (by simp [hhold]) (by rw [hd]))).elim
  | released x f row sessionId hassume hmoves hhold hstatus hsession hended hd =>
    exact (habsurd (hheld x f hmoves.id hmoves.found (by simp [hhold]) (by rw [hd]))).elim
  | ended x f row events refunds cancellations reschedules g h hmoves hstatus hends hsession hrefunds
      hcancellations hreschedules hcloses hd =>
    rw [hd] at hb'
    rcases row_of_update hmoves.id hmoves.found hb hb' with he | ⟨rfl, -, -⟩
    · exact (habsurd he).elim
    · exact ⟨cancellations, reschedules, g, h, hcancellations, hreschedules, hcloses, by rw [hd], by rw [hd]⟩
  | replaced x created f canceled row requestId h revoked revoke token events hx hread hassume hpaid hid
      hterms hsession hstatus hhistory hcreated hsilent hsold hclear hconfirmed' hreplaces hdecides hrevoke
      hsucceeds hd =>
    have hsame : id = x.id := by
      by_contra hne
      rw [hd, Table.find_update_of_notMem hid (by simpa using hne), Table.find_append_of_some hb] at hb'
      exact habsurd (Option.some.inj hb').symm
    subst hsame
    refine ⟨[], [requestId], fun r => { r with decision := .REJECTED }, h, fun _ => ⟨rfl, rfl, nofun⟩,
      hdecides, .inl ⟨_, _, hassume, fun _ he => ?_, fun _ he => ?_⟩, by rw [hd, Table.update_none], by rw [hd]⟩
    · cases he
    · cases he
      exact List.mem_singleton_self _
  | _ =>
    rename_i hd
    exact (habsurd (hkept (by rw [hd]))).elim

/-- An open request was open before and is not among the ones a change decides, or it is opened now for a
confirmed booking, whose row stays. -/
theorem Change.openCancellation (h : Change rules d d') {r : CancellationRequest}
    (hr : r ∈ d'.cancellationRequests) (hopen : r.decision = .PENDING) :
    r ∈ d.cancellationRequests ∨ Live r.bookingId d ∧ d'.bookings = d.bookings := by
  cases h with
  | asked b cancellations reschedules hb hstatus hcancellations hreschedules hd =>
    rw [hd] at hr
    refine (List.mem_append.mp hr).imp_right fun hnew => ⟨?_, by rw [hd]⟩
    rw [hcancellations r hnew]
    exact ⟨b, hb, hstatus⟩
  | ended x f row events refunds cancellations reschedules g h hmoves hstatus hends hsession hrefunds
      hcancellations hreschedules hcloses hd =>
    rw [hd] at hr
    exact .inl (cancellation_of_update hcancellations hr hopen).1
  | decided cancellations reschedules g h hcancellations hreschedules hd =>
    rw [hd] at hr
    exact .inl (cancellation_of_update hcancellations hr hopen).1
  | _ =>
    rename_i hd
    exact .inl (by rwa [hd] at hr)

theorem Change.openReschedule (h : Change rules d d') {r : RescheduleRequest}
    (hr : r ∈ d'.rescheduleRequests) (hopen : r.decision = .PENDING) :
    r ∈ d.rescheduleRequests ∨ Live r.bookingId d ∧ d'.bookings = d.bookings := by
  cases h with
  | asked b cancellations reschedules hb hstatus hcancellations hreschedules hd =>
    rw [hd] at hr
    refine (List.mem_append.mp hr).imp_right fun hnew => ⟨?_, by rw [hd]⟩
    rw [hreschedules r hnew]
    exact ⟨b, hb, hstatus⟩
  | ended x f row events refunds cancellations reschedules g h hmoves hstatus hends hsession hrefunds
      hcancellations hreschedules hcloses hd =>
    rw [hd] at hr
    exact .inl (reschedule_of_update hreschedules hr hopen).1
  | decided cancellations reschedules g h hcancellations hreschedules hd =>
    rw [hd] at hr
    exact .inl (reschedule_of_update hreschedules hr hopen).1
  | replaced x created f canceled row requestId h revoked revoke token events hx hread hassume hpaid hid
      hterms hsession hstatus hhistory hcreated hsilent hsold hclear hconfirmed hreplaces hdecides hrevoke
      hsucceeds hd =>
    rw [hd] at hr
    exact .inl (reschedule_of_update hdecides hr hopen).1
  | _ =>
    rename_i hd
    exact .inl (by rwa [hd] at hr)

/-- A confirmed booking stays so, or the requests that are open on it are decided. -/
theorem Commit.live (h : Commit requestRules d d') (hlive : Live id d) : Live id d' ∨
    ∃ cancellations reschedules g h', DecidesCancellation g ∧ DecidesReschedule h' ∧
      d'.cancellationRequests = Table.update cancellations g d.cancellationRequests ∧
      d'.rescheduleRequests = Table.update reschedules h' d.rescheduleRequests ∧
      (∀ r ∈ d.cancellationRequests, r.bookingId = id → r.decision = .PENDING → r.id ∈ cancellations) ∧
      ∀ r ∈ d.rescheduleRequests, r.bookingId = id → r.decision = .PENDING → r.id ∈ reschedules := by
  obtain ⟨b, hb, hconfirmed⟩ := hlive
  obtain ⟨b', hb'⟩ := (h.life id).stays hb
  by_cases hstatus : b'.status = .CONFIRMED
  · exact .inl ⟨b', hb', hstatus⟩
  obtain ⟨cancellations, reschedules, g, h', hg, hh, hcloses, hcancellations, hreschedules⟩ :=
    h.change.leaving hb hconfirmed hb' hstatus
  refine .inr ⟨cancellations, reschedules, g, h', hg, hh, hcancellations, hreschedules, ?_⟩
  rcases hcloses with ⟨own, revoked, hassume, hcanceled, hmoved⟩ | hall
  · obtain ⟨honly, honly'⟩ := hassume (id, own) rfl
    exact ⟨fun r hr hid hopen => hcanceled r.id (honly r hr hid hopen),
      fun r hr hid hopen => hmoved r.id (honly' r hr hid hopen)⟩
  · exact hall

/-- Requests that are open stay about confirmed bookings. -/
theorem PendingLive.commit (hp : PendingLive d) (h : Commit requestRules d d') : PendingLive d' := by
  constructor
  · intro r hr hopen
    rcases h.change.openCancellation hr hopen with hold | ⟨⟨b, hb, hstatus⟩, hsame⟩
    · refine (h.live (hp.cancellation r hold hopen)).resolve_right ?_
      rintro ⟨cancellations, reschedules, g, h', hg, -, hcancellations, -, hall, -⟩
      exact (cancellation_of_update hg (hcancellations ▸ hr) hopen).2 (hall r hold rfl hopen)
    · exact ⟨b, by rw [hsame]; exact hb, hstatus⟩
  · intro r hr hopen
    rcases h.change.openReschedule hr hopen with hold | ⟨⟨b, hb, hstatus⟩, hsame⟩
    · refine (h.live (hp.reschedule r hold hopen)).resolve_right ?_
      rintro ⟨cancellations, reschedules, g, h', -, hh, -, hreschedules, -, hall⟩
      exact (reschedule_of_update hh (hreschedules ▸ hr) hopen).2 (hall r hold rfl hopen)
    · exact ⟨b, by rw [hsame]; exact hb, hstatus⟩

/-- An open request is about a confirmed booking, in every run in which whoever ends a booking finds
no request open on it but the one that is decided. -/
theorem pending_live {d : Db} (hd : Legal d) (hp : PendingLive d) {s : Sys store}
    (hrun : Sys.Reach (BookingOperation requestRules) onlyOwnRequest { db := d } s) : PendingLive s.db :=
  BookingOperation.invariant requestRules_sound requestRules_handles (fun _ _ h hp => hp.commit h)
    ⟨hd, trivial⟩ hp hrun

theorem pendingLive_moving : PendingLive .moving where
  cancellation r hr := by cases hr
  reschedule r hr hopen := by
    obtain rfl := List.mem_singleton.mp hr
    exact ⟨.sample, rfl, rfl⟩

theorem pending_live_sample : ∃ s : Sys store,
    s.db.rescheduleRequests.map RescheduleRequest.decision = [.APPROVED] ∧ PendingLive s.db := by
  have hexec : (Sys.exec onlyOwnRequest { db := Db.moving } (replacedFirst ++ replacedThen)).map (fun s =>
      s.db.rescheduleRequests.map RescheduleRequest.decision) = some [.APPROVED] := by rfl
  obtain ⟨s, hs, hdecision⟩ := Option.map_eq_some_iff.mp hexec
  exact ⟨s, hdecision, pending_live legal_moving pendingLive_moving
    (.exec (fun _ _ => trivial) .refl (starts_someMove ⟨trivial, nofun, fun _ => trivial⟩) hs)⟩

/-- A customer who has asked for another time cancels: the request stays open. -/
theorem pending_not_live : ¬ ∀ (d : Db) (s : Sys store), Legal d → PendingLive d →
    Sys.Reach (BookingOperation requestRules) .none { db := d } s → PendingLive s.db := by
  intro h
  have hexec : (Sys.exec .none { db := Db.moving } (.start someMove :: canceledMeanwhile)).map (fun s =>
      (s.db.rescheduleRequests.map fun r => (r.bookingId, r.decision),
        (Table.find "b" s.db.bookings).map Booking.status)) =
      some ([("b", .PENDING)], some .CANCELED_BY_CUSTOMER) := by rfl
  obtain ⟨s, hs, he⟩ := Option.map_eq_some_iff.mp hexec
  obtain ⟨hrequests, hbooking⟩ := Prod.mk.inj he
  have hstarts : ∀ a ∈ Action.start someMove :: canceledMeanwhile,
      Sys.Starts (BookingOperation requestRules) a := by
    have hmove : BookingOperation requestRules someMove :=
      .decideReschedule .sample _ ⟨trivial, nofun, fun _ => trivial⟩
    have hcancel : BookingOperation requestRules (discard (cancelByCustomer .sample "b" none)) :=
      .cancelByCustomer .sample "b" none
    simp [canceledMeanwhile, Sys.Starts, hmove, hcancel]
  have hpending := h _ s legal_moving pendingLive_moving (.exec (fun _ _ => trivial) .refl hstarts hs)
  obtain ⟨r, hr, hrow⟩ : ∃ r ∈ s.db.rescheduleRequests, (r.bookingId, r.decision) = ("b", .PENDING) :=
    List.mem_map.mp (hrequests ▸ List.mem_singleton_self _)
  obtain ⟨hid, hopen⟩ := Prod.mk.inj hrow
  obtain ⟨b, hb, hstatus⟩ := hpending.reschedule r hr hopen
  have hfind : Table.find "b" s.db.bookings = some b := hid ▸ hb
  rw [hfind, Option.map_some, Option.some.injEq, hstatus] at hbooking
  cases hbooking

end BookingApp
