import BookingApp.Booking.Histories

/-!
# Links to replaced bookings

A booking that was moved has no link any more, and nobody is reminded of a booking that
is over, as long as a reminder commits for a booking that is still confirmed and an
approval revokes all the links there are when it commits.
-/

set_option autoImplicit false

namespace BookingApp

open ReadCommitted ReadCommitted.Proto

/-- The booking that a reminder commits for. -/
def Point.reminded : Point → Option String
  | .reminder bookingId => some bookingId
  | _ => none

/-- The booking that an approval moves at this commit, and the links that it revokes. -/
def Point.moved : Point → Option (String × List String)
  | .leaving bookingId (some (.rescheduleRequest _)) revoked => some (bookingId, revoked)
  | _ => none

/-- A reminder commits for a confirmed booking, and an approval revokes every link of the booking. -/
def currentLinks : Conditions store where
  Assume p d := (∀ id ∈ p.reminded, ∀ b ∈ Table.find id d.bookings, b.status = .CONFIRMED) ∧
    ∀ m ∈ p.moved, ∀ t ∈ d.managementTokens, t.bookingId = m.1 → t.revokedAt = none → t.tokenHash ∈ m.2
  Stable _ _ _ := True
  Fault _ _ := True

instance : currentLinks.Checkable where
  assume p d := inferInstanceAs (Decidable (
    (∀ id ∈ p.reminded, ∀ b ∈ Table.find id d.bookings, b.status = .CONFIRMED) ∧
    ∀ m ∈ p.moved, ∀ t ∈ d.managementTokens, t.bookingId = m.1 → t.revokedAt = none → t.tokenHash ∈ m.2))
  stable _ _ _ := .isTrue trivial
  fault _ _ := .isTrue trivial

/-- The rules under which links are looked at. -/
def linkRules : BookingRules where
  conditions := currentLinks
  refunds := True

theorem linkRules_sound : linkRules.Sound where
  kept _ _ _ _ := trivial
  reports _ _ _ _ _ _ _ _ _ := trivial

theorem linkRules_handles (h : linkRules.refunds) : linkRules.Handles :=
  .of_forall linkRules_sound h fun _ _ => trivial

/-- The booking has no link that works. -/
def Unlinked (id : String) (d : Db) : Prop :=
  ∀ t ∈ d.managementTokens, t.bookingId = id → t.revokedAt ≠ none

/-- A booking that was moved is over, and has no link that works. -/
def ReplacedUnlinked (d : Db) : Prop :=
  ∀ b ∈ d.bookings, ∀ id ∈ b.rescheduledFromBookingId, Ended id d ∧ Unlinked id d

variable {rules : BookingRules} {d d' : Db} {id : String}

/-- What is over stays so, whatever an approval has read. -/
theorem Commit.ended (h : Commit rules d d') (he : Ended id d) : Ended id d' := by
  obtain ⟨b, hb, hterminal⟩ := he
  obtain ⟨b', hb'⟩ := (h.life id).stays hb
  refine ⟨b', hb', ?_⟩
  obtain ⟨-, hsame | hmove | ⟨-, hcanceled⟩⟩ := (h.life id).between hb hb'
  · rw [hsame]
    exact hterminal
  · simp [not_canTransition_of_terminal hterminal] at hmove
  · rw [hcanceled]
    rfl

/-- A booking that waits or is confirmed is not over. -/
theorem not_ended {b : Booking} (hb : Table.find id d.bookings = some b)
    (hstatus : isTerminal b.status = false) : ¬ Ended id d := by
  rintro ⟨x, hx, hterminal⟩
  obtain rfl := Option.some.inj (hb.symm.trans hx)
  rw [hstatus] at hterminal
  cases hterminal

/-- Who is appended was not there. -/
theorem find_none_of_append {t : List Booking} {b : Booking} {f : Booking → Booking} {ids : List String}
    (hf : ∀ x, (f x).id = x.id) (hnodup : ((Table.update ids f t ++ [b]).map Keyed.key).Nodup) :
    Table.find b.id t = none := by
  have hnone := Table.find_eq_none_of_nodup hnodup
  rwa [Table.find_update hf, Option.map_eq_none_iff] at hnone

/-- A link that works worked before, or it leads to a booking that is not over. -/
theorem Commit.liveToken (h : Commit linkRules d d') {t : ManagementToken} (ht : t ∈ d'.managementTokens)
    (hlive : t.revokedAt = none) : t ∈ d.managementTokens ∨ ¬ Ended t.bookingId d := by
  have habsent : ∀ {id : String}, Table.find id d.bookings = none → ¬ Ended id d := by
    rintro id hnone ⟨b, hb, -⟩
    cases hnone.symm.trans hb
  have hnodup := h.after.bookings.pkey
  cases h.change with
  | reserved b ids keys row tokens events hcreated hsold hclear hfirst hroot hd =>
    rw [hd] at ht hnodup
    refine (List.mem_append.mp ht).imp_right fun hnew => ?_
    rw [hcreated.tokens t hnew]
    exact habsent (find_none_of_append (by exact fun _ => rfl) hnodup)
  | confirmed input b f row token event payments hassume hmoves hhold hstatus hsession htoken
      hcaptures hpays hd =>
    rw [hd] at ht
    refine (List.mem_append.mp ht).imp_right fun hnew => ?_
    rw [List.mem_singleton.mp hnew, htoken]
    refine not_ended hmoves.found ?_
    rcases hhold with hhold | hhold <;> rw [hhold] <;> rfl
  | replaced b created f canceled row requestId h revoked revoke token events hb hread hassume hpaid hid
      hterms hsession hstatus hhistory hcreated hsilent hsold hclear hconfirmed hreplaces hdecides hrevoke
      hsucceeds hd =>
    rw [hd] at ht hnodup
    rcases List.mem_append.mp ht with hold | hnew
    · obtain ⟨t₀, ht₀, rfl⟩ := Table.mem_update.mp hold
      split at hlive
      · exact absurd hlive (hrevoke t₀)
      · rw [if_neg ‹_›]
        exact .inl ht₀
    · rw [hcreated.tokens t hnew]
      rw [Table.map_key_update hid] at hnodup
      exact .inr (habsent (Table.find_eq_none_of_nodup hnodup))
  | reminded bookingId tokens notifications events hassume hb htokens hnotifications hsilent hd =>
    rw [hd] at ht
    refine (htokens t ht).imp_right fun hid => ?_
    obtain ⟨b, hb⟩ := hb
    refine hid ▸ not_ended hb ?_
    rw [hassume.1 bookingId rfl b hb]
    rfl
  | _ =>
    rename_i hd
    exact .inl (by rwa [hd] at ht)

/-- A notification was there, or it is about a booking that is not over. -/
theorem Change.notification (h : Change linkRules d d') {n : Notification} (hn : n ∈ d'.notifications) :
    n ∈ d.notifications ∨ ¬ Ended n.bookingId d := by
  cases h with
  | reminded bookingId tokens notifications events hassume hb htokens hnotifications hsilent hd =>
    rw [hd] at hn
    refine (List.mem_append.mp hn).imp_right fun hnew => ?_
    obtain ⟨b, hb⟩ := hb
    refine hnotifications n hnew ▸ not_ended hb ?_
    rw [hassume.1 bookingId rfl b hb]
    rfl
  | _ =>
    rename_i hd
    exact .inl (by rwa [hd] at hn)

theorem ReplacedUnlinked.commit (hu : ReplacedUnlinked d) (h : Commit linkRules d d') :
    ReplacedUnlinked d' := by
  intro b' hb' id hid
  rcases h.booking hb' with ⟨b, hb, hsame⟩ | hnew
  · obtain ⟨hended, hunlinked⟩ := hu b hb id (origin_of_terms (h.terms hb hb' hsame) ▸ hid)
    refine ⟨h.ended hended, fun t ht htid hlive => ?_⟩
    rcases h.liveToken ht hlive with hold | hnot
    · exact hunlinked t hold htid hlive
    · exact hnot (htid ▸ hended)
  · cases hnew with
    | reserved _ _ _ hfirst => cases hfirst.symm.trans hid
    | replaced old hold _ hcanceled _ _ _ hreplaces _ hlinks =>
      obtain rfl := Option.some.inj (hreplaces.symm.trans hid)
      obtain ⟨old', hold', hstatus⟩ := hcanceled
      refine ⟨⟨old', hold', by rw [hstatus]; rfl⟩, fun t ht htid hlive => ?_⟩
      obtain ⟨requestId, revoked, hassume, hkept⟩ := hlinks
      obtain ⟨hbefore, hnot⟩ := hkept t ht htid hlive
      exact hnot (hassume.2 (old.id, revoked) rfl t hbefore htid hlive)

/-- Between two states nobody is reminded of a booking that is over in the first. -/
def NotReminded (d d' : Db) : Prop :=
  ∀ id, Ended id d → Ended id d' ∧ ∀ n ∈ d'.notifications, n.bookingId = id → n ∈ d.notifications

theorem Commit.notReminded (h : Commit linkRules d d') : NotReminded d d' := by
  intro id he
  refine ⟨h.ended he, fun n hn hid => ?_⟩
  rcases h.change.notification hn with hold | hnot
  · exact hold
  · exact absurd (hid ▸ he) hnot

/-- No booking that was moved has a link that works, and nobody is reminded of a booking that is over,
in every run in which reminders commit for confirmed bookings and approvals revoke every link. -/
theorem replaced_unlinked {d : Db} (hd : Legal d) (hu : ReplacedUnlinked d) {s : Sys store}
    (hrun : Sys.Reach (BookingOperation linkRules) currentLinks { db := d } s) :
    ReplacedUnlinked s.db ∧ ∀ s', Sys.Reach (BookingOperation linkRules) currentLinks s s' →
      NotReminded s.db s'.db := by
  have hinv : (lifecycle linkRules).Inv d := ⟨hd, trivial⟩
  refine ⟨?_, fun s' hrun' => ?_⟩
  · exact BookingOperation.invariant linkRules_sound linkRules_handles (fun _ _ h hu => hu.commit h) hinv hu
      hrun
  · refine BookingOperation.evolves linkRules_sound linkRules_handles
      (fun _ id he => ⟨he, fun _ hn _ => hn⟩) (fun d₁ d₂ d₃ h₁ h₂ id he => ?_)
      (fun _ _ h => h.notReminded) hinv hrun hrun'
    obtain ⟨he₂, hn₂⟩ := h₁ id he
    obtain ⟨he₃, hn₃⟩ := h₂ id he₂
    exact ⟨he₃, fun n hn hid => hn₂ n (hn₃ n hn hid) hid⟩

/-- The booking of `Db.moving`, whose customer has a link to it. -/
def Db.linked : Db :=
  { Db.moving with
    managementTokens := [{ organizationId := "o", bookingId := "b", tokenHash := "t0", expiresAt := 40000000 }] }

theorem legal_linked : Legal .linked := by decide

theorem replacedUnlinked_linked : ReplacedUnlinked .linked := by
  simp [ReplacedUnlinked, Db.linked, Db.moving, Db.sample, Booking.sample]

/-- Reminders are sent a day ahead. -/
def Api.reminding : Api :=
  { Api.sample with settings := { Api.sample.settings with reminderOffsetsMinutes := [1440] } }

/-- The reminder of the booking falls due. -/
def someReminder : Tx Unit :=
  discard (fire .reminding { bookingId := "b", offsetMinutes := 1440, expectedStartsAtEpochSeconds := 36000 })

/-- The reminder has read that the booking is confirmed. -/
def remindedFirst : List (Action store) :=
  [.start someReminder, .run 1, .run 1]

/-- It goes on, and commits. -/
def remindedThen : List (Action store) :=
  [.run 1, .answer 1 { random := "t1" }, .run 1, .answer 1 { id := "n" }, .run 1, .run 1, .answer 1 {}, .run 1]

theorem starts_reminded {rules : BookingRules} (hapi : rules.Admits .sample) :
    ∀ a ∈ replacedFirst ++ remindedFirst ++ replacedThen ++ remindedThen,
      Sys.Starts (BookingOperation rules) a := by
  have hmove := starts_someMove hapi
  have hfire : BookingOperation rules someReminder := .fire .reminding _
  intro a ha
  simp only [List.mem_append] at ha hmove
  rcases ha with ((ha | ha) | ha) | ha
  · exact hmove a (.inl ha)
  · revert a
    simp [remindedFirst, Sys.Starts, hfire]
  · exact hmove a (.inr ha)
  · revert a
    simp [remindedThen, Sys.Starts]

theorem replaced_unlinked_sample : ∃ s : Sys store,
    s.db.managementTokens.map (fun t => (t.bookingId, t.revokedAt.isNone)) = [("b", false), ("b'", true)] ∧
      ReplacedUnlinked s.db ∧ NotReminded s.db s.db := by
  have hexec : (Sys.exec currentLinks { db := Db.linked } (replacedFirst ++ replacedThen)).map (fun s =>
      s.db.managementTokens.map fun t => (t.bookingId, t.revokedAt.isNone)) =
      some [("b", false), ("b'", true)] := by rfl
  obtain ⟨s, hs, htokens⟩ := Option.map_eq_some_iff.mp hexec
  have hrun : Sys.Reach (BookingOperation linkRules) currentLinks { db := Db.linked } s :=
    .exec (fun _ _ => trivial) .refl (starts_someMove ⟨trivial, nofun, fun _ => trivial⟩) hs
  obtain ⟨hunlinked, hreminded⟩ := replaced_unlinked legal_linked replacedUnlinked_linked hrun
  exact ⟨s, htokens, hunlinked, hreminded s .refl⟩

/-- The reminder reads that the booking is confirmed, the booking is moved, and then the reminder is
sent, with a link of its own: nothing revokes that link any more. -/
theorem replaced_linked : ¬ ∀ (d : Db) (s : Sys store), Legal d → ReplacedUnlinked d →
    Sys.Reach (BookingOperation linkRules) .none { db := d } s → s.finished → ReplacedUnlinked s.db := by
  intro h
  have hexec : (Sys.exec .none { db := Db.linked }
      (replacedFirst ++ remindedFirst ++ replacedThen ++ remindedThen)).map (fun s =>
        (s.finished, s.db.bookings.map fun b => (b.id, b.status, b.rescheduledFromBookingId),
          s.db.managementTokens.map fun t => (t.bookingId, t.revokedAt.isNone),
          s.db.notifications.map Notification.bookingId)) =
      some (true, [("b", .CANCELED_BY_BUSINESS, none), ("b'", .CONFIRMED, some "b")],
        [("b", false), ("b'", true), ("b", true)], ["b"]) := by rfl
  obtain ⟨s, hs, he⟩ := Option.map_eq_some_iff.mp hexec
  simp only [Prod.mk.injEq] at he
  obtain ⟨hfinished, hbookings, htokens, -⟩ := he
  have hunlinked := h _ s legal_linked replacedUnlinked_linked
    (.exec (fun _ _ => trivial) .refl (starts_reminded ⟨trivial, nofun, fun _ => trivial⟩) hs) hfinished
  have hb : ("b'", .CONFIRMED, some "b") ∈
      s.db.bookings.map fun b => (b.id, b.status, b.rescheduledFromBookingId) := by
    rw [hbookings]
    simp
  have ht : ("b", true) ∈ s.db.managementTokens.map fun t => (t.bookingId, t.revokedAt.isNone) := by
    rw [htokens]
    simp
  obtain ⟨b, hb, hbeq⟩ := List.mem_map.mp hb
  obtain ⟨t, ht, hteq⟩ := List.mem_map.mp ht
  simp only [Prod.mk.injEq] at hbeq hteq
  exact (hunlinked b hb "b" hbeq.2.2).2 t ht hteq.1 (Option.isNone_iff_eq_none.mp hteq.2)

end BookingApp
