import BookingApp.Auth.Accounts
import BookingApp.ReadCommitted.Adequacy
import BookingApp.ReadCommitted.History

/-!
# Reset links (`auth/password-reset.service.ts`)

Requests and confirmations statement by statement, with any number of them at a time.
A confirmation claims its link by a conditional update and invalidates the others of
the user before it commits, so a link changes the password once at most, and no link
that an invalidation has seen changes it after that.
-/

set_option autoImplicit false

namespace BookingApp.Resets

open ReadCommitted Auth

structure Organization where
  id : String
  defaultLocale : Locale
  deriving DecidableEq, Repr

/-- The notification with a link. -/
structure ResetMail where
  organizationId : String
  locale : Locale
  recipient : String
  officeUserId : String
  dedupeKey : String
  officeUserName : String
  resetUrl : String
  expiresAt : Int
  deriving DecidableEq, Repr

/-- A note of a password that a confirmation has changed, as it commits: whose, by which link, to
which hash, and the links of the user that its invalidation saw. -/
structure Change where
  user : String
  token : String
  passwordHash : String
  seen : List String
  deriving DecidableEq, Repr

structure Db where
  users : List OfficeUser := []
  organizations : List Organization := []
  tokens : List PasswordResetToken := []
  mails : List ResetMail := []
  changes : List Change := []

/-- Row locks. -/
inductive Lock where
  | user (id : String)
  | token (id : String)
  deriving DecidableEq, Repr

/-- The surroundings answer with the time. The ids of the links and their hashes are unique. -/
abbrev store : Store where
  Db := Db
  Lock := Lock
  Point := Unit
  Err := Failure
  Answer := Int
  idle := ()
  legal d := decide (d.tokens.map PasswordResetToken.id).Nodup &&
    decide (d.tokens.map PasswordResetToken.tokenHash).Nodup
  decLock := inferInstance

abbrev Tx : Type → Type := Code store

namespace Db

def onUsers (f : List OfficeUser → List OfficeUser) (d : Db) : Db :=
  { d with users := f d.users }

/-- The links of a kind that have not been used. -/
def unused (p : PasswordResetToken → Bool) (d : Db) : List PasswordResetToken :=
  d.tokens.filter fun t => p t && t.usedAt.isNone

/-- The links with these ids become used. -/
def spend (ids : List String) (now : Int) (d : Db) : Db :=
  { d with tokens := d.tokens.map fun t => if t.id ∈ ids then { t with usedAt := some now } else t }

def note (changes : List Change) (d : Db) : Db :=
  { d with changes := d.changes ++ changes }

/-- `NotificationService.queue`: a row, unless there is one with its key. -/
def queue (mail : ResetMail) (view d : Db) : Db :=
  if mail.dedupeKey ∈ view.mails.map ResetMail.dedupeKey then d else { d with mails := d.mails ++ [mail] }

end Db

/-- A read outside of every transaction. -/
def query {α : Type} (f : Db → α) : Tx α :=
  .reset (select (S := store) () f)

/-- `this.clock.now()` -/
def now : Tx Int :=
  answer

def RESET_TOKEN_TTL_MINUTES : Int := 60

/-- `PasswordResetService.request`, with the id and the token that are drawn. -/
def request (passwords : Passwords) (publicWebOrigin email id token : String) : Tx Unit := do
  let address := String.ofList (email.toList.map Char.toLower)
  let user ← query fun d => d.users.find? fun u => u.email == address && u.archivedAt.isNone
  match user with
  | none => pure ()
  | some user => do
    let organization ← query fun d => d.organizations.find? fun o => o.id == user.organizationId
    match organization with
    | none => throw recordNotFound
    | some organization => do
      let now ← now
      let expiresAt := now + RESET_TOKEN_TTL_MINUTES * 60000
      transaction (S := store) () do
        modify (S := store) () (fun _ => [.token id])
          (fun _ d => { d with
            tokens := d.tokens ++ [{
              id, officeUserId := user.id, tokenHash := passwords.hashResetToken token, expiresAt }] })
          fun _ => ()
        let mail : ResetMail := {
          organizationId := organization.id
          locale := organization.defaultLocale
          recipient := user.email
          officeUserId := user.id
          dedupeKey := s!"OFFICE_PASSWORD_RESET:EMAIL:-:{id}"
          officeUserName := s!"{user.firstName} {user.lastName}"
          resetUrl := s!"{publicWebOrigin}/office/reset-password#{token}"
          expiresAt }
        modify (S := store) () (fun _ => []) (Db.queue mail) fun _ => ()

/-- `officeUser.update where id` -/
def updateUser (id : String) (f : OfficeUser → OfficeUser) : Tx Unit := do
  let row ← modify (S := store) () (fun _ => [.user id]) (fun _ => Db.onUsers (Table.update [id] f))
    fun d => Table.find id d.users
  match row with
  | some _ => pure ()
  | none => throw recordNotFound

/-- `passwordResetToken.updateMany` of unused links, with what commits along with it; the number of
rows. -/
def spendUnused (p : PasswordResetToken → Bool) (now : Int) (notes : Db → List Change) : Tx Nat :=
  modify (S := store) () (fun d => (d.unused p).map fun t => .token t.id)
    (fun view d => (d.spend ((view.unused p).map PasswordResetToken.id) now).note (notes view))
    fun d => (d.unused p).length

/-- `PasswordResetService.confirm` up to its commit, with the salt that the hashing draws. -/
def confirm (passwords : Passwords) (token newPassword salt : String) : Tx Unit := do
  let now ← now
  let row ← query fun d => d.tokens.find? fun t => t.tokenHash == passwords.hashResetToken token
  match row with
  | none => throw invalidToken
  | some row => do
    ensure (S := store) (row.usedAt.isNone ∧ now < row.expiresAt) invalidToken
    match passwords.hash newPassword salt with
    | .error e => throw e
    | .ok passwordHash =>
      transaction (S := store) () do
        let claimed ← spendUnused (fun t => t.id == row.id) now fun _ => []
        ensure (S := store) (claimed = 1) invalidToken
        updateUser row.officeUserId fun u => { u with passwordHash, failedLoginAttempts := 0, lockedUntil := none }
        discard (spendUnused (fun t => t.officeUserId == row.officeUserId) now fun view => [{
          user := row.officeUserId
          token := row.id
          passwordHash
          seen := (view.tokens.filter fun t => t.officeUserId == row.officeUserId).map PasswordResetToken.id }])

/-- Requests and confirmations. -/
inductive ResetOp (passwords : Passwords) : Tx Unit → Prop where
  | request (publicWebOrigin email id token : String) :
      ResetOp passwords (request passwords publicWebOrigin email id token)
  | confirm (token newPassword salt : String) : ResetOp passwords (confirm passwords token newPassword salt)

/-- The password that the last confirmation for a user has set. -/
def lastPassword (id : String) : List Change → Option String :=
  History.last fun c => if c.user = id then some c.passwordHash else none

/-- Links are used once: no link changes a password twice, nor after an invalidation that has seen it,
and passwords are changed by confirmations only, since the state `d₀`. -/
structure UsedOnce (d₀ d : Db) : Prop where
  once : (d.changes.map Change.token).Nodup
  invalidated : History.Lawful (fun before c => ∀ b ∈ before, c.token ∉ b.seen) d.changes
  passwords : ∀ u ∈ d.users, ∃ u₀ ∈ d₀.users, u₀.id = u.id ∧
    u.passwordHash = (lastPassword u.id d.changes).getD u₀.passwordHash

/-! ## Used links stay used -/

/-- The link has been used. -/
def Used (d : Db) (id : String) : Prop :=
  ∃ t ∈ d.tokens, t.id = id ∧ t.usedAt ≠ none

/-- What every committed state satisfies. -/
structure Kept (d₀ d : Db) : Prop where
  ids : (d.tokens.map PasswordResetToken.id).Nodup
  single : UsedOnce d₀ d
  used : ∀ c ∈ d.changes, Used d c.token ∧ ∀ id ∈ c.seen, Used d id

/-- The protocol of the links: what is used stays used, and a locked row stays as it is. -/
def resetProtocol (d₀ : Db) : Proto store where
  toConditions := .none
  Inv := Kept d₀
  Act d d' := ∀ id, Used d id → Used d' id
  Same l d d' := match l with
    | .user _ => True
    | .token id => ∀ t : PasswordResetToken, t.id = id → (t ∈ d.tokens ↔ t ∈ d'.tokens)
  same_refl l d := by
    cases l with
    | user id => trivial
    | token id => exact fun _ _ => Iff.rfl
  same_trans {l d₁ d₂ d₃} h₁ h₂ := by
    cases l with
    | user id => trivial
    | token id => exact fun t ht => Iff.trans (b := t ∈ d₂.tokens) (h₁ t ht) (h₂ t ht)

section Spending

variable {d : Db} {ids : List String} {time : Int} {t : PasswordResetToken} {id : String}

theorem Used.of_tokens {d' : Db} (h : Used d id) (htokens : ∀ t ∈ d.tokens, t ∈ d'.tokens) : Used d' id := by
  obtain ⟨t, ht, hid, hused⟩ := h
  exact ⟨t, htokens t ht, hid, hused⟩

theorem ids_spend : (d.spend ids time).tokens.map PasswordResetToken.id = d.tokens.map PasswordResetToken.id := by
  rw [Db.spend, List.map_map]
  apply List.map_congr_left
  intro t _
  show (if t.id ∈ ids then { t with usedAt := some time } else t).id = t.id
  split <;> rfl

theorem mem_spend_of_notMem (h : t.id ∉ ids) : t ∈ (d.spend ids time).tokens ↔ t ∈ d.tokens := by
  constructor
  · intro ht
    obtain ⟨u, hu, heq⟩ := List.mem_map.mp ht
    split at heq
    · next hids =>
      rw [← heq] at h
      exact absurd hids h
    · rwa [← heq]
  · intro ht
    exact List.mem_map.mpr ⟨t, ht, if_neg h⟩

theorem used_of_mem_spend (ht : t ∈ d.tokens) (h : t.id ∈ ids) : Used (d.spend ids time) t.id :=
  ⟨_, List.mem_map.mpr ⟨t, ht, rfl⟩, by rw [if_pos h], by rw [if_pos h]; exact Option.some_ne_none _⟩

theorem Used.spend (h : Used d id) : Used (d.spend ids time) id := by
  obtain ⟨t, ht, rfl, hused⟩ := h
  by_cases hids : t.id ∈ ids
  · exact used_of_mem_spend ht hids
  · exact ⟨t, (mem_spend_of_notMem hids).mpr ht, rfl, hused⟩

/-- A row that is unused has not been used, as ids are unique. -/
theorem not_used_of_unused (hids : (d.tokens.map PasswordResetToken.id).Nodup) (ht : t ∈ d.tokens)
    (hunused : t.usedAt = none) : ¬ Used d t.id := by
  rintro ⟨u, hu, hid, hused⟩
  rw [List.inj_on_of_nodup_map hids hu ht hid] at hused
  exact hused hunused

/-- What is seen when the first links have been spent is used when both are, if the rows that are
spent stay till then. -/
theorem used_of_seen {d' : Db} {claimed spent : List String} {p : PasswordResetToken → Bool}
    (hrows : ∀ u ∈ d.tokens, u.id ∈ claimed ∨ u.id ∈ spent → u ∈ d'.tokens) (hused : ∀ id, Used d id → Used d' id)
    (hspent : ∀ u ∈ (d.spend claimed time).unused p, u.id ∈ spent) (ht : t ∈ (d.spend claimed time).tokens)
    (hp : p t = true) : Used ((d'.spend claimed time).spend spent time) t.id := by
  obtain ⟨u, hu, heq⟩ := List.mem_map.mp ht
  have hid : u.id = t.id := by
    rw [← heq]
    split <;> rfl
  by_cases hclaimed : t.id ∈ claimed
  · rw [← hid] at hclaimed ⊢
    exact (used_of_mem_spend (hrows u hu (.inl hclaimed)) hclaimed).spend
  · have hmem : t ∈ d.tokens := (mem_spend_of_notMem hclaimed).mp ht
    by_cases hunused : t.usedAt = none
    · have hlast : t.id ∈ spent := by
        apply hspent
        simp [Db.unused, ht, hp, hunused]
      exact used_of_mem_spend ((mem_spend_of_notMem hclaimed).mpr (hrows t hmem (.inr hlast))) hlast
    · exact (hused t.id ⟨t, hmem, rfl, hunused⟩).spend.spend

end Spending

section Commits

variable {d₀ d d' : Db} {held : List Lock}

theorem queue_rows (mail : ResetMail) (view d : Db) :
    (Db.queue mail view d).users = d.users ∧ (Db.queue mail view d).tokens = d.tokens ∧
      (Db.queue mail view d).changes = d.changes := by
  unfold Db.queue
  split
  · exact ⟨rfl, rfl, rfl⟩
  · exact ⟨rfl, rfl, rfl⟩

theorem lastPassword_concat {id : String} {changes : List Change} {c : Change} :
    lastPassword id (changes ++ [c]) = if c.user = id then some c.passwordHash else lastPassword id changes := by
  split
  · next h => exact History.last_concat_of_some (if_pos h)
  · next h =>
    apply History.last_append_of_forall
    intro x hx
    rw [List.mem_singleton.mp hx]
    exact if_neg h

/-- A commit that adds a link. -/
theorem guarantee_request (hd : Kept d₀ d) {t : PasswordResetToken} (husers : d'.users = d.users)
    (htokens : d'.tokens = d.tokens ++ [t]) (hchanges : d'.changes = d.changes) (hheld : .token t.id ∈ held)
    (hlegal : store.legal d' = true) : (resetProtocol d₀).Guarantee held d d' := by
  have hact : ∀ id, Used d id → Used d' id := by
    intro id h
    apply h.of_tokens
    intro u hu
    rw [htokens]
    exact List.mem_append_left _ hu
  refine ⟨hact, ⟨of_decide_eq_true (Bool.and_eq_true_iff.mp hlegal).1, ?_, ?_⟩, ?_⟩
  · refine ⟨hchanges ▸ hd.single.once, hchanges ▸ hd.single.invalidated, ?_⟩
    rw [husers, hchanges]
    exact hd.single.passwords
  · intro c hc
    rw [hchanges] at hc
    obtain ⟨htoken, hseen⟩ := hd.used c hc
    exact ⟨hact _ htoken, fun id hid => hact _ (hseen id hid)⟩
  · intro l hl
    cases l with
    | user id => trivial
    | token id =>
      intro u hu
      have hne : u ≠ t := by
        rintro rfl
        exact hl (hu ▸ hheld)
      rw [htokens, List.mem_append, List.mem_singleton]
      exact ⟨.inl, fun h => h.resolve_right hne⟩

/-- A commit that spends links, for a change by one of them that was unused till then. -/
theorem guarantee_confirm (hd : Kept d₀ d) {c : Change} {claimed spent : List String} {time : Int}
    {f : OfficeUser → OfficeUser} (hf : ∀ u, (f u).id = u.id ∧ (f u).passwordHash = c.passwordHash)
    (husers : d'.users = Table.update [c.user] f d.users)
    (htokens : d'.tokens = ((d.spend claimed time).spend spent time).tokens)
    (hchanges : d'.changes = d.changes ++ [c]) (hheld : ∀ id ∈ claimed ++ spent, .token id ∈ held)
    (hclaimed : c.token ∈ claimed) (hfresh : ∃ t ∈ d.tokens, t.id = c.token ∧ t.usedAt = none)
    (hseen : ∀ id ∈ c.seen, Used d' id) : (resetProtocol d₀).Guarantee held d d' := by
  have hact : ∀ id, Used d id → Used d' id := by
    intro id h
    apply Used.of_tokens (d := (d.spend claimed time).spend spent time)
    · exact h.spend.spend
    · rw [htokens]
      exact fun _ h => h
  obtain ⟨t, ht, htoken, hunused⟩ := hfresh
  have hnot : ¬ Used d c.token := htoken ▸ not_used_of_unused hd.ids ht hunused
  have hused : Used d' c.token := by
    apply Used.of_tokens (d := (d.spend claimed time).spend spent time)
    · rw [← htoken] at hclaimed ⊢
      exact (used_of_mem_spend ht hclaimed).spend
    · rw [htokens]
      exact fun _ h => h
  refine ⟨hact, ⟨?_, ⟨?_, ?_, ?_⟩, ?_⟩, ?_⟩
  · rw [htokens, ids_spend, ids_spend]
    exact hd.ids
  · -- the link of an earlier change has been used
    rw [hchanges, List.map_append, List.map_singleton]
    apply List.Nodup.append hd.single.once (List.nodup_singleton _)
    rw [List.disjoint_singleton]
    intro hmem
    obtain ⟨b, hb, heq⟩ := List.mem_map.mp hmem
    exact hnot (heq ▸ (hd.used b hb).1)
  · -- so has every link that an earlier invalidation saw
    rw [hchanges]
    refine History.lawful_concat.mpr ⟨hd.single.invalidated, fun b hb hmem => ?_⟩
    exact hnot ((hd.used b hb).2 _ hmem)
  · intro u' hu'
    rw [husers] at hu'
    obtain ⟨u, hu, rfl⟩ := Table.mem_update.mp hu'
    obtain ⟨u₀, hu₀, hid, hpassword⟩ := hd.single.passwords u hu
    rw [hchanges]
    by_cases hmem : u.id ∈ [c.user]
    · rw [if_pos (show Keyed.key u ∈ [c.user] from hmem)]
      refine ⟨u₀, hu₀, hid.trans (hf u).1.symm, ?_⟩
      rw [lastPassword_concat, (hf u).1, if_pos (List.mem_singleton.mp hmem).symm, Option.getD_some]
      exact (hf u).2
    · rw [if_neg (show Keyed.key u ∉ [c.user] from hmem)]
      refine ⟨u₀, hu₀, hid, ?_⟩
      rw [lastPassword_concat, if_neg fun heq => hmem (List.mem_singleton.mpr heq.symm)]
      exact hpassword
  · intro b hb
    rw [hchanges] at hb
    rcases List.mem_append.mp hb with hb | hb
    · obtain ⟨hbtoken, hbseen⟩ := hd.used b hb
      exact ⟨hact _ hbtoken, fun id hid => hact _ (hbseen id hid)⟩
    · rw [List.mem_singleton.mp hb]
      exact ⟨hused, hseen⟩
  · intro l hl
    cases l with
    | user id => trivial
    | token id =>
      intro u hu
      have hnone : ∀ ids : List String, (∀ i ∈ ids, .token i ∈ held) → u.id ∉ ids := by
        intro ids hids hmem
        exact hl (hu ▸ hids _ hmem)
      rw [htokens, mem_spend_of_notMem (hnone _ fun i hi => hheld i (List.mem_append_right _ hi)),
        mem_spend_of_notMem (hnone _ fun i hi => hheld i (List.mem_append_left _ hi))]

end Commits

section Programs

variable {d₀ d : Db} {α : Type} {held : List Lock} {δ : Db → Db}

theorem wp_query {f : Db → α} {Q : α → List Lock → (Db → Db) → Db → Prop} (h : ∀ d', Q (f d') [] id d') :
    (resetProtocol d₀).wp (query f) Q (fun _ _ => True) held δ d :=
  fun _ _ _ => Proto.wp_select (fun _ _ _ => trivial) fun d' _ _ _ => h d'

/-- A transaction of which only the commit matters. -/
theorem wp_transaction {body : Tx α} {Q : α → List Lock → (Db → Db) → Db → Prop}
    (h : ∀ d', (resetProtocol d₀).wp body ((resetProtocol d₀).Commits () Q) (fun _ _ => True) [] id d') :
    (resetProtocol d₀).wp (transaction (S := store) () body) Q (fun _ _ => True) held δ d :=
  Proto.wp_transaction (fun _ _ _ => trivial) (fun _ _ _ _ _ => trivial) fun d' _ _ => h d'

/-- A locked row is there as it was. -/
theorem mem_of_rely {t : PasswordResetToken} {d' : Db} (hrely : (resetProtocol d₀).Rely () held d d')
    (hheld : .token t.id ∈ held) : t ∈ d.tokens ↔ t ∈ d'.tokens :=
  Proto.Rely.same hrely hheld t rfl

theorem used_of_rely {id : String} {d' : Db} (hrely : (resetProtocol d₀).Rely () held d d') (h : Used d id) :
    Used d' id := by
  refine hrely.lift (T := fun x y : Db => Used x id → Used y id) (fun _ h => h) ?_ ?_ h
  · exact fun _ _ _ hxy hyz h => hyz (hxy h)
  · exact fun _ _ hstep => hstep.1 id

theorem wp_updateUser {id : String} {f : OfficeUser → OfficeUser} {Q : Unit → List Lock → (Db → Db) → Db → Prop}
    (h : ∀ d', (resetProtocol d₀).Rely () held d d' →
      Q () (held ++ [.user id]) (fun x => (δ x).onUsers (Table.update [id] f)) d') :
    (resetProtocol d₀).wp (updateUser id f) Q (fun _ _ => True) held δ d := by
  refine (Proto.wp_bind _ _).mpr (Proto.wp_modify (fun _ _ _ => trivial) fun d' hrely _ _ => ?_)
  dsimp only
  cases Table.find id (δ d').users with
  | none => trivial
  | some u => exact h d' hrely

theorem token_mem {rows : List PasswordResetToken} {i : String} (h : i ∈ rows.map PasswordResetToken.id) :
    Lock.token i ∈ rows.map fun t => Lock.token t.id := by
  obtain ⟨t, ht, rfl⟩ := List.mem_map.mp h
  exact List.mem_map.mpr ⟨t, ht, rfl⟩

/-- The links of both updates are locked when the second is done. -/
theorem token_held {first second : List PasswordResetToken} {l : Lock} {i : String}
    (h : i ∈ first.map PasswordResetToken.id ∨ i ∈ second.map PasswordResetToken.id) :
    Lock.token i ∈ [] ++ first.map (fun t => Lock.token t.id) ++ [l] ++ second.map fun t => Lock.token t.id := by
  rcases h with h | h
  · exact List.mem_append_left _ (List.mem_append_left _ (List.mem_append_right _ (token_mem h)))
  · exact List.mem_append_right _ (token_mem h)

/-- The locks of the links that are found unused are held, and they are spent. -/
theorem wp_spendUnused {p : PasswordResetToken → Bool} {time : Int} {notes : Db → List Change}
    {Q : Nat → List Lock → (Db → Db) → Db → Prop}
    (h : ∀ d', (resetProtocol d₀).Rely () held d d' → Kept d₀ d' →
      Q ((δ d').unused p).length (held ++ ((δ d').unused p).map fun t => .token t.id)
        (fun x => ((δ x).spend (((δ d').unused p).map PasswordResetToken.id) time).note (notes (δ d'))) d') :
    (resetProtocol d₀).wp (spendUnused p time notes) Q (fun _ _ => True) held δ d :=
  Proto.wp_modify (fun _ _ _ => trivial) fun d' hrely hd' _ => h d' hrely hd'

theorem safe_request (passwords : Passwords) (publicWebOrigin email id token : String) :
    (resetProtocol d₀).Safe (request passwords publicWebOrigin email id token) := by
  intro d _
  refine (Proto.wp_bind _ _).mpr (wp_query fun d₁ => ?_)
  cases hfind : d₁.users.find? fun u =>
      u.email == String.ofList (email.toList.map Char.toLower) && u.archivedAt.isNone with
  | none => trivial
  | some user =>
    refine (Proto.wp_bind _ _).mpr (wp_query fun d₂ => ?_)
    cases horganization : d₂.organizations.find? fun o => o.id == user.organizationId with
    | none => trivial
    | some organization =>
      refine (Proto.wp_bind _ _).mpr (Proto.wp_answer fun d₃ _ _ now => ?_)
      refine wp_transaction fun d₄ => ?_
      refine (Proto.wp_bind _ _).mpr (Proto.wp_modify (fun _ _ _ => trivial) fun d₅ _ _ _ => ?_)
      refine Proto.wp_modify (fun _ _ _ => trivial) fun d₆ _ _ _ d₇ _ hd₇ _ hlegal => ⟨?_, trivial⟩
      have hrows := queue_rows
      exact guarantee_request hd₇ (hrows _ _ _).1 (hrows _ _ _).2.1 (hrows _ _ _).2.2 (by simp) hlegal

theorem safe_confirm (passwords : Passwords) (token newPassword salt : String) :
    (resetProtocol d₀).Safe (confirm passwords token newPassword salt) := by
  intro d _
  refine (Proto.wp_bind _ _).mpr (Proto.wp_answer fun d₁ _ _ now => ?_)
  refine (Proto.wp_bind _ _).mpr (wp_query fun d₂ => ?_)
  cases hfind : d₂.tokens.find? fun t => t.tokenHash == passwords.hashResetToken token with
  | none => trivial
  | some row =>
    refine (Proto.wp_bind _ _).mpr (Proto.wp_ensure (fun _ => ?_) fun _ => trivial)
    cases hhash : passwords.hash newPassword salt with
    | error e => trivial
    | ok passwordHash =>
      refine wp_transaction fun d₃ => ?_
      refine (Proto.wp_bind _ _).mpr (wp_spendUnused fun d₄ _ hd₄ => ?_)
      refine (Proto.wp_bind _ _).mpr (Proto.wp_ensure (fun hone => ?_) fun _ => trivial)
      refine (Proto.wp_bind _ _).mpr (wp_updateUser fun d₅ h₅ => (Proto.wp_map _ _).mpr ?_)
      refine wp_spendUnused fun d₆ h₆ hd₆ d₇ h₇ hd₇ _ _ => ⟨?_, trivial⟩
      -- the link that was claimed is there, unused, until the commit
      obtain ⟨t, ht⟩ := List.length_eq_one_iff.mp hone
      have hmem : t ∈ d₄.unused fun t => t.id == row.id := by
        rw [show d₄.unused (fun t => t.id == row.id) = [t] from ht]
        exact List.mem_singleton_self t
      have htoken : t.id = row.id := by simpa using (Bool.and_eq_true_iff.mp (List.mem_filter.mp hmem).2).1
      have hunused : t.usedAt = none := by simpa using (Bool.and_eq_true_iff.mp (List.mem_filter.mp hmem).2).2
      have hclaimed := List.mem_map_of_mem (f := PasswordResetToken.id) hmem
      have htokens : t ∈ d₇.tokens := by
        have hlock := List.mem_append_right [] (token_mem hclaimed)
        rw [← mem_of_rely h₇ (List.mem_append_left _ (List.mem_append_left _ hlock)),
          ← mem_of_rely h₆ (List.mem_append_left _ hlock), ← mem_of_rely h₅ hlock]
        exact (List.mem_filter.mp hmem).1
      refine guarantee_confirm hd₇ (c := ⟨row.officeUserId, row.id, passwordHash, _⟩) ?_ rfl rfl
        (congrArg (· ++ [_]) (List.append_nil d₇.changes)) ?_ ?_ ?_ ?_
      · exact fun _ => ⟨rfl, rfl⟩
      · exact fun i hi => token_held (List.mem_append.mp hi)
      · exact htoken ▸ hclaimed
      · exact ⟨t, htokens, htoken, hunused⟩
      · intro i hi
        obtain ⟨u, hu, rfl⟩ := List.mem_map.mp hi
        obtain ⟨hu, hp⟩ := List.mem_filter.mp hu
        apply used_of_seen (p := fun t => t.officeUserId == row.officeUserId) _ _ _ hu hp
        · intro v hv hids
          exact (mem_of_rely h₇ (token_held hids)).mp hv
        · exact fun i => used_of_rely h₇
        · exact fun v hv => List.mem_map_of_mem hv

theorem ResetOp.safe {passwords : Passwords} {c : Tx Unit} (h : ResetOp passwords c) :
    (resetProtocol d₀).Safe c := by
  cases h with
  | request publicWebOrigin email id token => exact safe_request passwords publicWebOrigin email id token
  | confirm token newPassword salt => exact safe_confirm passwords token newPassword salt

end Programs

/-- Whatever the interleaving of requests and confirmations, and whichever of them fail or crash: a link
changes a password at most once, and none does after an invalidation that has seen it. -/
theorem reset_once (passwords : Passwords) {d : Db} (hids : (d.tokens.map PasswordResetToken.id).Nodup)
    (hchanges : d.changes = []) {s : Sys store} (h : Sys.Reach (ResetOp passwords) .none { db := d } s) :
    UsedOnce d s.db := by
  have hstart : Kept d d := by
    refine ⟨hids, ⟨?_, ?_, ?_⟩, ?_⟩
    · rw [hchanges]
      exact List.nodup_nil
    · rw [hchanges]
      exact History.lawful_nil
    · intro u hu
      rw [hchanges]
      exact ⟨u, hu, rfl, rfl⟩
    · intro c hc
      rw [hchanges] at hc
      cases hc
  exact (Sys.Reach.invariant (P := resetProtocol d) (fun _ hop => hop.safe) (I := fun _ => True)
    (fun _ _ _ _ _ _ => trivial) hstart trivial h).1.single

/-- Passwords and tokens that are their own hashes. -/
def plainPasswords : Passwords where
  verify hash password := hash == password
  hash password _ := .ok password
  hashResetToken token := token

def sampleUser : OfficeUser where
  id := "user-1"
  organizationId := "org-1"
  role := .OWNER
  canIssueRefunds := true
  employeeId := none
  email := "a@b"
  passwordHash := "old"
  firstName := ""
  lastName := ""

def sampleDb : Db where
  users := [sampleUser]
  organizations := [⟨"org-1", .de⟩]
  tokens := [{ id := "1", officeUserId := "user-1", tokenHash := "first", expiresAt := 100 }]

/-- A second link is requested, and both are used at the same time: each confirmation has read its link
before the first of them claims one. -/
def sampleResets : List (Action store) :=
  [.start (request plainPasswords "" "a@b" "2" "second"), .run 0, .run 0, .run 0, .run 0, .answer 0 1, .run 0,
    .run 0, .run 0, .run 0,
    .start (confirm plainPasswords "first" "new" ""), .start (confirm plainPasswords "second" "other" ""),
    .answer 1 2, .answer 2 2, .run 1, .run 1, .run 2, .run 2, .run 1, .run 1, .run 1, .run 1, .run 1,
    .run 2, .run 2, .run 2]

theorem reset_once_sample :
    ∃ s, Sys.Reach (ResetOp plainPasswords) .none { db := sampleDb } s ∧
      s.db.changes = [⟨"user-1", "1", "new", ["1", "2"]⟩] ∧ UsedOnce sampleDb s.db := by
  have hexec : (Sys.exec (S := store) .none { db := sampleDb } sampleResets).map (fun s => s.db.changes) =
      some [⟨"user-1", "1", "new", ["1", "2"]⟩] := by decide +kernel
  obtain ⟨s, hs, hnotes⟩ := Option.map_eq_some_iff.mp hexec
  have hreach : Sys.Reach (ResetOp plainPasswords) .none { db := sampleDb } s := by
    refine .exec (fun _ _ => trivial) .refl ?_ hs
    simp [sampleResets, Sys.Starts, ResetOp.request, ResetOp.confirm]
  exact ⟨s, hreach, hnotes, reset_once plainPasswords (by decide) rfl hreach⟩

end BookingApp.Resets
