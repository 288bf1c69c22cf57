import BookingApp.Booking.Links
import BookingApp.Notification.Rebuild
import BookingApp.Office.Erasure
import BookingApp.ReadCommitted.Client

/-!
# Reminders that fire (`notification/reminder.service.ts`, `notification/dedupe-key.ts`)

A job for a reminder may be delivered any number of times, and outlives what it was made for. It
queues a message over each channel once for each booking, offset and second of the start: the key
tells them apart, and is unique. A run commits something only if the booking it has read is due, and
leaves no link behind unless it has queued a message.
-/

set_option autoImplicit false

namespace BookingApp

open ReadCommitted Rebuild

section Keys

/-- `ReminderService.reminderDedupeDiscriminator` -/
def reminderDedupeDiscriminator (offsetMinutes startsAt : Int) : String :=
  s!"{offsetMinutes}-{startsAtEpochSeconds startsAt}"

theorem toList_negSucc (m : Nat) : (toString (Int.negSucc m)).toList = '-' :: Nat.toDigits 10 (m + 1) := by
  have htext : toString (Int.negSucc m) = "-" ++ String.ofList (Nat.toDigits 10 (m + 1)) := rfl
  have hdigits : (String.ofList (Nat.toDigits 10 (m + 1))).toList = Nat.toDigits 10 (m + 1) :=
    String.toList_ofList
  rw [htext, String.toList_append, hdigits]
  rfl

/-- A number is written as a digit or a sign, and digits. -/
theorem toList_toString (n : Int) : ∃ c digits, (toString n).toList = c :: digits ∧
    (c = '-' ∨ c.isDigit = true) ∧ ∀ x ∈ digits, x.isDigit = true := by
  have hdigit : ∀ {m : Nat} {x : Char}, x ∈ Nat.toDigits 10 m → x.isDigit = true :=
    fun hx => Nat.isDigit_of_mem_toDigits (by omega) (by omega) hx
  cases n with
  | ofNat m =>
    obtain ⟨c, digits, hm⟩ := List.exists_cons_of_ne_nil (@Nat.toDigits_ne_nil m 10)
    refine ⟨c, digits, (toList_natCast m).trans hm, .inr (hdigit (hm ▸ List.mem_cons_self)), fun x hx => ?_⟩
    exact hdigit (hm ▸ List.mem_cons_of_mem c hx)
  | negSucc m => exact ⟨'-', _, toList_negSucc m, .inl rfl, fun x hx => hdigit hx⟩

/-- Numbers that are written alike are the same. -/
theorem toString_int_injective {m n : Int} (h : (toString m).toList = (toString n).toList) : m = n := by
  have hsign : ∀ {a b : Nat}, (toString (a : Int)).toList ≠ (toString (Int.negSucc b)).toList := by
    intro a b heq
    have hminus : '-' ∈ (toString (a : Int)).toList := by
      rw [heq, toList_negSucc]
      exact List.mem_cons_self
    exact notMem_toString (by omega) (by decide) hminus
  cases m with
  | ofNat a =>
    cases n with
    | ofNat b => exact toString_injective (by simp) (by simp) h
    | negSucc b => exact absurd h hsign
  | negSucc a =>
    cases n with
    | ofNat b => exact absurd h.symm hsign
    | negSucc b =>
      rw [toList_negSucc, toList_negSucc] at h
      have hsame : ((a + 1 : Nat) : Int) = ((b + 1 : Nat) : Int) := by
        refine toString_injective (by omega) (by omega) ?_
        rw [toList_natCast, toList_natCast]
        exact (List.cons.inj h).2
      omega

theorem toList_discriminator (offset startsAt : Int) :
    (reminderDedupeDiscriminator offset startsAt).toList =
      (toString offset).toList ++ '-' :: (toString (startsAtEpochSeconds startsAt)).toList := by
  unfold reminderDedupeDiscriminator
  simp only [String.toList_append, List.append_assoc]
  rfl

theorem colon_notMem_discriminator (offset startsAt : Int) :
    ':' ∉ (reminderDedupeDiscriminator offset startsAt).toList := by
  have hnumber : ∀ n : Int, ':' ∉ (toString n).toList := by
    intro n hmem
    obtain ⟨c, digits, hn, hc, hdigits⟩ := toList_toString n
    rw [hn, List.mem_cons] at hmem
    rcases hmem with rfl | hmem
    · revert hc
      decide
    · exact absurd (hdigits _ hmem) (by decide)
  rw [toList_discriminator, List.mem_append, List.mem_cons, not_or, not_or]
  exact ⟨hnumber offset, by decide, hnumber _⟩

/-- The offset and the second of the start can be read off. -/
theorem discriminator_injective {offset offset' startsAt startsAt' : Int}
    (h : reminderDedupeDiscriminator offset startsAt = reminderDedupeDiscriminator offset' startsAt') :
    offset = offset' ∧ startsAtEpochSeconds startsAt = startsAtEpochSeconds startsAt' := by
  have hlists := congrArg String.toList h
  rw [toList_discriminator, toList_discriminator] at hlists
  obtain ⟨c, digits, ho, -, hdigits⟩ := toList_toString offset
  obtain ⟨c', digits', ho', -, hdigits'⟩ := toList_toString offset'
  have hminus : ∀ {digits : List Char}, (∀ x ∈ digits, x.isDigit = true) → '-' ∉ digits :=
    fun hall hmem => absurd (hall _ hmem) (by decide)
  -- a sign of the offset comes first, so the next one separates
  rw [ho, ho', List.cons_append, List.cons_append] at hlists
  obtain ⟨hc, hrest⟩ := List.cons.inj hlists
  obtain ⟨hdigits, hseconds⟩ := cut (hminus hdigits) (hminus hdigits') hrest
  exact ⟨toString_int_injective (by rw [ho, ho', hc, hdigits]), toString_int_injective hseconds⟩

/-- Two texts whose last parts have no separator are cut at the last one. -/
theorem cut_last {α : Type} {a : α} {x₁ x₂ z₁ z₂ : List α} (h₁ : a ∉ z₁) (h₂ : a ∉ z₂)
    (h : x₁ ++ a :: z₁ = x₂ ++ a :: z₂) : x₁ = x₂ ∧ z₁ = z₂ := by
  have hreverse := congrArg List.reverse h
  simp only [List.reverse_append, List.reverse_cons, List.append_assoc, List.singleton_append] at hreverse
  obtain ⟨hz, hx⟩ := cut (fun hmem => h₁ (List.mem_reverse.mp hmem))
    (fun hmem => h₂ (List.mem_reverse.mp hmem)) hreverse
  exact ⟨List.reverse_inj.mp hx, List.reverse_inj.mp hz⟩

theorem toList_dedupeKey (kind : Sending.NotificationKind) (channel : NotificationChannel)
    (bookingId discriminator : String) :
    (Erasure.dedupeKey kind channel (some bookingId) (some discriminator)).toList =
      (Erasure.kindText kind).toList ++ ':' :: ((Erasure.channelText channel).toList ++ ':' ::
        (bookingId.toList ++ ':' :: discriminator.toList)) := by
  unfold Erasure.dedupeKey
  simp only [String.toList_intercalate, List.map_cons, List.map_nil, Option.getD_some]
  simp [List.intercalate]

/-- The keys of different reminders are different. -/
theorem dedupeKey_injective {kind kind' : Sending.NotificationKind} {channel channel' : NotificationChannel}
    {bookingId bookingId' : String} {offset offset' startsAt startsAt' : Int}
    (h : Erasure.dedupeKey kind channel (some bookingId) (some (reminderDedupeDiscriminator offset startsAt)) =
      Erasure.dedupeKey kind' channel' (some bookingId')
        (some (reminderDedupeDiscriminator offset' startsAt'))) :
    kind = kind' ∧ channel = channel' ∧ bookingId = bookingId' ∧ offset = offset' ∧
      startsAtEpochSeconds startsAt = startsAtEpochSeconds startsAt' := by
  have hkind : ∀ kind, ':' ∉ (Erasure.kindText kind).toList := by
    intro kind
    cases kind <;> decide
  have hchannel : ∀ channel, ':' ∉ (Erasure.channelText channel).toList := by
    intro channel
    cases channel <;> decide
  have hlists := congrArg String.toList h
  rw [toList_dedupeKey, toList_dedupeKey] at hlists
  obtain ⟨hk, hrest⟩ := cut (hkind kind) (hkind kind') hlists
  obtain ⟨hc, hrest⟩ := cut (hchannel channel) (hchannel channel') hrest
  obtain ⟨hid, hd⟩ := cut_last (colon_notMem_discriminator offset startsAt)
    (colon_notMem_discriminator offset' startsAt') hrest
  obtain ⟨hoffset, hseconds⟩ := discriminator_injective (String.toList_injective hd)
  refine ⟨?_, ?_, String.toList_injective hid, hoffset, hseconds⟩
  · revert hk
    cases kind <;> cases kind' <;> decide
  · revert hc
    cases channel <;> cases channel' <;> decide

theorem reminderDedupeKey_eq (channel : NotificationChannel) (booking : Booking) (offsetMinutes : Int) :
    reminderDedupeKey channel booking offsetMinutes = Erasure.dedupeKey .REMINDER_24H channel (some booking.id)
      (some (reminderDedupeDiscriminator offsetMinutes booking.startsAt)) := by
  have hchannel : channel.text = Erasure.channelText channel := by
    cases channel <;> rfl
  apply String.toList_injective
  rw [toList_dedupeKey, toList_discriminator, ← hchannel]
  unfold reminderDedupeKey
  simp only [String.toList_append, List.append_assoc]
  rfl

end Keys

section Fire

variable {api : Api} {input : FireInput} {booking : Booking} {α : Type}
  {R : List Db → Db → Db → Prop} {Q : Except Failure α → List Db → (Db → Db) → Prop} {seen : List Db}
  {δ : Db → Db}

/-- A reminder that is due, by the booking as it was read. -/
structure Due (api : Api) (input : FireInput) (booking : Booking) : Prop where
  confirmed : booking.status = .CONFIRMED
  starts : startsAtEpochSeconds booking.startsAt = input.expectedStartsAtEpochSeconds
  configured : input.offsetMinutes ∈ api.settings.reminderOffsetsMinutes

/-- A message of this reminder. -/
def Notification.Reminds (n : Notification) (booking : Booking) (offsetMinutes : Int) : Prop :=
  n.bookingId = booking.id ∧ n.dedupeKey = Erasure.dedupeKey .REMINDER_24H n.channel (some booking.id)
    (some (reminderDedupeDiscriminator offsetMinutes booking.startsAt))

/-- What a run may commit: the one thing it has read is a booking that is due, it queues messages of its
reminder, and a link is new only with a message. -/
inductive Fires (api : Api) (input : FireInput) (seen : List Db) (d d' : Db) : Prop where
  | fired (view : Db) (booking : Booking) (queued : List Notification) (hseen : seen = [view])
      (hfound : findIn Booking.organizationId api.organizationId input.bookingId view.bookings = some booking)
      (hdue : Due api input booking) (hqueued : d'.notifications = d.notifications ++ queued)
      (hreminds : ∀ n ∈ queued, n.Reminds booking input.offsetMinutes)
      (hlinks : queued = [] → ∀ t ∈ d'.managementTokens, t ∈ d.managementTokens)

theorem commits_modify {β : Type} {p : Point} {rows : Db → List Lock} {change : Db → Db → Db} {f : Db → β}
    {k : β → Tx α} (h : ∀ d, (k (f (δ d))).Commits R Q seen fun x => change (δ d) (δ x))
    (he : ∀ e, Q (.error e) seen δ) :
    Code.Commits R (modify (S := store) p rows change f >>= k) Q seen δ :=
  Code.commits_bind ⟨fun d => h d, he⟩

/-- What the transaction of a reminder has written. -/
structure Queued (booking : Booking) (offsetMinutes : Int) (δ : Db → Db) (token : ManagementToken)
    (queued : List Notification) : Prop where
  notifications : ∀ x, (δ x).notifications = x.notifications ++ queued
  tokens : ∀ x, (δ x).managementTokens = x.managementTokens ++ [token]
  reminds : ∀ n ∈ queued, n.Reminds booking offsetMinutes

/-- A message is queued, unless its key is there. -/
theorem commits_queueReminder {token : ManagementToken} {queued : List Notification} {offsetMinutes : Int}
    {link : String} {channel : NotificationChannel} {k : Bool → Tx α}
    (hδ : Queued booking offsetMinutes δ token queued) (he : ∀ e δ, Q (.error e) seen δ)
    (h : ∀ fresh more δ', (fresh = false ↔ more = []) → Queued booking offsetMinutes δ' token (queued ++ more) →
      (k fresh).Commits R Q seen δ') :
    Code.Commits R (queueReminder booking offsetMinutes link channel >>= k) Q seen δ := by
  intro ids
  refine Code.commits_bind ?_
  change Code.Commits R (queueNotification _) _ _ _
  unfold queueNotification
  refine commits_modify (fun d => ?_) fun e => he e δ
  dsimp only
  by_cases hkey : reminderDedupeKey channel booking offsetMinutes ∈
      (δ d).notifications.map Notification.dedupeKey
  · simp only [hkey, not_true_eq_false, decide_false, Bool.false_eq_true, if_false, if_true]
    refine h false [] _ (by simp) ?_
    rw [List.append_nil]
    exact hδ
  · simp only [hkey, not_false_eq_true, decide_true, if_false, if_true]
    refine commits_modify (fun _ => ?_) fun e => he e _
    refine h true [{
      id := Answer.id ids, channel, managementToken := link
      organizationId := booking.organizationId
      bookingId := booking.id
      dedupeKey := reminderDedupeKey channel booking offsetMinutes }] _ (by simp)
      ⟨fun x => ?_, fun x => ?_, fun n hn => ?_⟩
    · change (δ x).notifications ++ _ = _
      rw [hδ.notifications, List.append_assoc]
    · exact hδ.tokens x
    · rcases List.mem_append.mp hn with hn | hn
      · exact hδ.reminds n hn
      · rw [List.mem_singleton.mp hn]
        exact ⟨rfl, reminderDedupeKey_eq channel booking offsetMinutes⟩

/-- The link is deleted again, unless a message was queued with it. -/
theorem commits_deleteUnsent {view : Db} {token : ManagementToken} {queued : List Notification}
    (hfound : findIn Booking.organizationId api.organizationId input.bookingId view.bookings = some booking)
    (hdue : Due api input booking) (hδ : Queued booking input.offsetMinutes δ token queued) {unsent : Prop}
    [Decidable unsent] (hunsent : unsent ↔ queued = []) :
    (if unsent then deleteToken token.tokenHash else pure ()).Commits (Fires api input)
      (Code.Committing (Fires api input) fun _ seen' δ' => seen' = [view] ∧ δ' = id) [view] δ := by
  split
  · next h =>
    refine ⟨fun d => ⟨fun d' _ => ?_, ⟨rfl, rfl⟩, fun _ => ⟨rfl, rfl⟩⟩,
      fun _ => ⟨rfl, rfl⟩⟩
    refine .fired view booking queued rfl hfound hdue (hδ.notifications d') hδ.reminds fun _ t ht => ?_
    obtain ⟨ht, hkept⟩ := List.mem_filter.mp ht
    rw [hδ.tokens, List.mem_append] at ht
    refine ht.resolve_right fun hnew => ?_
    rw [List.mem_singleton.mp hnew] at hkept
    simp at hkept
  · next h =>
    refine ⟨fun d' _ => ?_, ⟨rfl, rfl⟩, fun _ => ⟨rfl, rfl⟩⟩
    exact .fired view booking queued rfl hfound hdue (hδ.notifications d') hδ.reminds fun hnone =>
      absurd (hunsent.mpr hnone) h

/-- One attempt of a run for a booking that is due. -/
theorem commits_fireOnce {view : Db}
    (hfound : findIn Booking.organizationId api.organizationId input.bookingId view.bookings = some booking)
    (hdue : Due api input booking) :
    (fireOnce api input booking).Commits (Fires api input)
      (Code.Committing (Fires api input) fun _ seen' δ' => seen' = [view] ∧ δ' = id) [view] id := by
  have herror : ∀ (e : Failure) (δ : Db → Db), Code.Committing (S := store) (α := Unit) (Fires api input)
      (fun _ seen' δ' => seen' = [view] ∧ δ' = id) (.error e) [view] δ :=
    fun _ _ => ⟨rfl, rfl⟩
  refine Code.commits_bind ?_
  intro ids
  change Code.Commits _ (insert _ >>= fun _ => pure _) _ _ _
  refine commits_modify (fun _ => ?_) fun e => herror e id
  have hlink : Queued booking input.offsetMinutes (fun x => Db.onTokens (· ++ [{
      organizationId := booking.organizationId, bookingId := booking.id
      tokenHash := api.hashManagementToken (Answer.random ids)
      expiresAt := booking.endsAt + MANAGEMENT_TOKEN_GRACE_DAYS * 86400000 }]) x) {
      organizationId := booking.organizationId, bookingId := booking.id
      tokenHash := api.hashManagementToken (Answer.random ids)
      expiresAt := booking.endsAt + MANAGEMENT_TOKEN_GRACE_DAYS * 86400000 } [] :=
    ⟨fun x => (List.append_nil _).symm, fun _ => rfl, fun n hn => absurd hn List.not_mem_nil⟩
  refine commits_queueReminder hlink herror fun email mails δ₁ hemail hmails => ?_
  intro phone
  change Code.Commits _ (if (api.settings.smsRemindersEnabled && decide (Answer.choice phone = 0)) = true then _
    else _) _ _ _
  split
  · refine commits_queueReminder hmails herror fun sms texts δ₂ hsms htexts => ?_
    refine commits_deleteUnsent hfound hdue htexts ?_
    rw [hemail, hsms, List.nil_append, List.append_eq_nil_iff]
  · refine commits_deleteUnsent hfound hdue hmails ?_
    rw [hemail, List.nil_append]
    simp

/-- A run of a reminder's job commits nothing, or what a reminder that is due may. -/
theorem commits_fire : Code.Commits (Fires api input) (discard (fire api input)) (fun _ _ _ => True) [] id := by
  refine Code.commits_bind (Code.Commits.mono (Q := fun _ _ _ => True) ?_ fun r _ _ _ => ?_)
  · change Code.Commits _ (query _ >>= _) _ _ _
    refine Code.commits_bind ⟨fun d => ?_, fun _ => trivial⟩
    change Code.Continues (Fires api input) _ _
      (.ok (findIn Booking.organizationId api.organizationId input.bookingId d.bookings)) [d] id
    cases hfound : findIn Booking.organizationId api.organizationId input.bookingId d.bookings with
    | none => trivial
    | some booking =>
      change Code.Commits _ (if booking.status ≠ .CONFIRMED then _ else _) _ [d] id
      split
      · trivial
      · next hconfirmed =>
        split
        · trivial
        · next hstarts =>
          split
          · trivial
          · next hoffset =>
            have hdue : Due api input booking :=
              ⟨not_not.mp hconfirmed, not_not.mp hstarts, not_not.mp hoffset⟩
            refine Code.commits_bind (Code.commits_withRetry (fun _ => ?_) 2)
            refine Code.commits_transaction ((commits_fireOnce hfound hdue).mono fun r _ _ hend => hend.mono ?_)
            rintro r seen δ ⟨hseen, hδ⟩
            refine ⟨hseen, hδ, ?_⟩
            cases r <;> trivial
  · cases r <;> trivial

end Fire

section Runs

variable {d d' : Db} {s : Sys store}

/-- Messages are queued, and none is ever taken back. -/
theorem Commit.notifications {rules : BookingRules} (h : Commit rules d d') :
    d.notifications <+: d'.notifications := by
  cases h.change with
  | reminded bookingId tokens notifications events hassume hb htokens hnotifications hsilent hd =>
    rw [hd]
    exact List.prefix_append _ _
  | _ =>
    rename_i hd
    rw [hd]

/-- The law of the reminders, in every run of the operations on bookings. In every state there is one
message at most over each channel for each booking, offset and second of the start, and messages are
never taken back. Each step of a client that runs a reminder's job commits nothing, or what `Fires`
allows given what the client has read. The keys tell the kind, the channel, the booking, the offset and the
second of the start. -/
theorem reminders_once (hd : Legal d)
    (hrun : Sys.Reach (BookingOperation everyRun) .none { db := d } s) :
    (∀ channel bookingId offset startsAt, (s.db.notifications.countP fun n => decide (n.dedupeKey =
      Erasure.dedupeKey .REMINDER_24H channel (some bookingId)
        (some (reminderDedupeDiscriminator offset startsAt)))) ≤ 1) ∧
    (∀ s', Sys.Reach (BookingOperation everyRun) .none s s' → s.db.notifications <+: s'.db.notifications) ∧
    (∀ api input seen s₁ s₂, Sys.Watched (BookingOperation everyRun) .none s.threads.length
        { s with threads := s.threads ++ [{ code := discard (fire api input) }] } seen s₁ →
      s₁.step (.run s.threads.length) = some s₂ → s₂.db = s₁.db ∨ Fires api input seen s₁.db s₂.db) ∧
    ∀ kind kind' channel channel' bookingId bookingId' offset offset' startsAt startsAt',
      Erasure.dedupeKey kind channel (some bookingId) (some (reminderDedupeDiscriminator offset startsAt)) =
        Erasure.dedupeKey kind' channel' (some bookingId')
          (some (reminderDedupeDiscriminator offset' startsAt')) →
      kind = kind' ∧ channel = channel' ∧ bookingId = bookingId' ∧ offset = offset' ∧
        startsAtEpochSeconds startsAt = startsAtEpochSeconds startsAt' := by
  have hlegal : Legal s.db := BookingOperation.invariant everyRun_sound everyRun_handles
    (fun _ _ h _ => h.after) ⟨hd, trivial⟩ hd hrun
  refine ⟨?_, ?_, ?_, ?_⟩
  · intro channel bookingId offset startsAt
    have hone := List.nodup_iff_count_le_one.mp hlegal.bookings.notification_dedupe
      (Erasure.dedupeKey .REMINDER_24H channel (some bookingId)
        (some (reminderDedupeDiscriminator offset startsAt)))
    rw [List.count_eq_countP, List.countP_map] at hone
    refine le_trans (List.countP_mono_left fun n _ hn => ?_) hone
    exact beq_iff_eq.mpr (of_decide_eq_true hn)
  · intro s' hrun'
    exact BookingOperation.evolves everyRun_sound everyRun_handles
      (T := fun x y => x.notifications <+: y.notifications) (fun _ => List.prefix_rfl)
      (fun _ _ _ h₁ h₂ => h₁.trans h₂) (fun _ _ h => h.notifications) ⟨hd, trivial⟩ hrun hrun'
  · intro api input seen s₁ s₂ hwatched hstep
    exact hwatched.run commits_fire hstep
  · intro kind kind' channel channel' bookingId bookingId' offset offset' startsAt startsAt' h
    exact dedupeKey_injective h

/-- The job of `someReminder` is delivered, and delivered again. -/
def remindedTwice : List (Action store) :=
  [.start someReminder, .run 0, .run 0, .run 0, .answer 0 { random := "t1" }, .run 0, .answer 0 { id := "n" },
    .run 0, .run 0, .answer 0 {}, .run 0,
    .start someReminder, .run 1, .run 1, .run 1, .answer 1 { random := "t2" }, .run 1, .answer 1 { id := "n'" },
    .run 1, .answer 1 {}, .run 1, .run 1]

theorem reminders_once_sample : ∃ s : Sys store,
    (s.finished, s.db.notifications.map Notification.bookingId,
      s.db.managementTokens.map ManagementToken.tokenHash) = (true, ["b"], ["t0", "t1"]) ∧
    (s.db.notifications.countP fun n => decide (n.dedupeKey = Erasure.dedupeKey .REMINDER_24H .EMAIL (some "b")
      (some (reminderDedupeDiscriminator 1440 36000000)))) ≤ 1 := by
  have hexec : (Sys.exec .none { db := Db.linked } remindedTwice).map (fun s =>
      (s.finished, s.db.notifications.map Notification.bookingId,
        s.db.managementTokens.map ManagementToken.tokenHash)) = some (true, ["b"], ["t0", "t1"]) := by rfl
  obtain ⟨s, hs, he⟩ := Option.map_eq_some_iff.mp hexec
  have hfire : BookingOperation everyRun someReminder := .fire .reminding _
  have hstarts : ∀ a ∈ remindedTwice, Sys.Starts (BookingOperation everyRun) a := by
    simp [remindedTwice, Sys.Starts, hfire]
  have hrun : Sys.Reach (BookingOperation everyRun) .none { db := Db.linked } s :=
    .exec (fun _ _ => trivial) .refl hstarts hs
  exact ⟨s, he, (reminders_once legal_linked hrun).1 .EMAIL "b" 1440 36000000⟩

end Runs

end BookingApp
