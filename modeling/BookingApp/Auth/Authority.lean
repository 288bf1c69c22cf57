import BookingApp.Auth.Revocation

/-!
# Whether a session carries what its user may do

A change of a user's authority commits first and then ends the sessions that the index
lists; a sign-in reads the row first and stores its session last. `Accounted` says that
a session that is out of date is one that a client has still to end. It holds in every
run in which a sign-in stores nothing out of date behind a change's back, and an update
notices its own change.
-/

set_option autoImplicit false

namespace BookingApp.Auth

open Interleaving Interleaving.Proto

/-- The user that the session was opened for, as it was then. -/
def OfficeSession.subject (s : OfficeSession) : SessionSubject where
  id := s.officeUserId
  organizationId := s.organizationId
  role := s.role
  canIssueRefunds := s.canIssueRefunds
  employeeId := s.employeeId

/-- What the row of an active user says who may do this, and has this password. -/
def SessionSubject.authority (user : SessionSubject) (passwordHash : String) : Authority where
  role := user.role
  canIssueRefunds := user.canIssueRefunds
  employeeId := user.employeeId
  archived := false
  passwordHash := passwordHash

/-- The row of the user says what `user` says, and has the password that was checked. -/
def Current (σ : State) (user : SessionSubject) (openedWith : Option String) : Prop :=
  ∃ passwordHash, openedWith = some passwordHash ∧ σ.authority user.id = some (user.authority passwordHash)

/-- A client in this role has still to end the session `sid` of `user`. -/
def Role.Covers (sid : Sid) (user : String) : Role → Prop
  | .listing u => u = user
  | .removing u sids => u = user ∧ sid ∈ sids
  | _ => False

/-- Some client has still to end the session. -/
def Covered (R : Set Role) (sid : Sid) (user : String) : Prop :=
  ∃ r ∈ R, r.Covers sid user

/-- Every session that can be returned says what its user may do, or is still to be ended. -/
def Accounted (c : AppConfig) (σ : State) (R : Set Role) : Prop :=
  ∀ sid s, σ.issued sid = some s → (σ.sessions sid).isSome → ¬c.Capped s σ.now →
    Current σ s.subject (σ.openedWith sid) ∨ Covered R sid s.officeUserId

/-- Beside what the session keys need: a sign-in stores its session while the row is as it was
read, or while a change of the user has still to list its sessions; and an update that changes what
the row says also differs from what it had loaded, unless another change has still to list. -/
def authorityConditions (c : AppConfig) : Conditions world where
  Assume R r σ := match r with
    | .storing user openedWith => Current σ user openedWith ∨ .listing user.id ∈ R
    | .writing existing patch => ∀ row, Table.find existing.id σ.users = some row →
        authorizationChanged (patch.apply row) row = true →
          authorizationChanged (patch.apply row) existing = true ∨ .listing existing.id ∈ R
    | _ => True
  Stable := (sessionConditions c).Stable

section Covering

variable {c : AppConfig} {σ σ' : State} {r r' : Role} {R : Set Role} {sid : Sid} {user : String}

theorem Role.Covers.revokes (h : r.Covers sid user) : r.revokes = true := by
  cases r with
  | listing u => rfl
  | removing u sids => rfl
  | _ => cases h

/-- Another client goes on covering, and so does this one where its new role does. -/
theorem Covered.role (h : Covered (Insert.insert r R) sid user)
    (hr : r.Covers sid user → r'.Covers sid user) : Covered (Insert.insert r' R) sid user := by
  obtain ⟨q, rfl | hq, hcovers⟩ := h
  · exact ⟨r', .inl rfl, hr hcovers⟩
  · exact ⟨q, .inr hq, hcovers⟩

theorem Covered.others (h : Covered (Insert.insert r R) sid user) (hr : r.revokes = false) :
    Covered (Insert.insert r' R) sid user :=
  h.role fun hcovers => absurd hcovers.revokes (by simp [hr])

theorem Covered.insert (h : Covered R sid user) : Covered (Insert.insert r R) sid user := by
  obtain ⟨q, hq, hcovers⟩ := h
  exact ⟨q, .inr hq, hcovers⟩

theorem covered_of_listing (h : .listing user ∈ R) : Covered R sid user :=
  ⟨_, h, rfl⟩

theorem Current.congr {s : SessionSubject} {openedWith : Option String}
    (h : Current σ s openedWith) (hrow : σ'.authority s.id = σ.authority s.id) :
    Current σ' s openedWith := by
  obtain ⟨passwordHash, hopened, hauthority⟩ := h
  exact ⟨passwordHash, hopened, hrow.trans hauthority⟩

/-- A patch that does not change what its user may do leaves the authority as it is. -/
theorem authority_of_unchanged {patch : UpdateOfficeUserRequest} {row : OfficeUser}
    (h : authorizationChanged (patch.apply row) row = false) :
    (patch.apply row).authority = row.authority := by
  simp only [authorizationChanged, Bool.or_eq_false_iff, bne_eq_false_iff_eq] at h
  obtain ⟨⟨hrole, hrefunds⟩, hemployee⟩ := h
  simp only [OfficeUser.authority, hrole, hrefunds, hemployee]
  rfl

/-- Across a change that leaves the sessions alone, those stay accounted for whose user's row says
the same, or that are covered afterwards. -/
theorem Accounted.quiet (h : Accounted c σ (Insert.insert r R)) (hq : Quiet σ σ')
    (hkeep : ∀ sid user, r.Covers sid user → r'.Covers sid user)
    (hrows : ∀ sid user, σ'.authority user = σ.authority user ∨ Covered (Insert.insert r' R) sid user) :
    Accounted c σ' (Insert.insert r' R) := by
  intro sid s hissued hthere hcap
  rw [hq.issued] at hissued
  rw [hq.sessions] at hthere
  rw [hq.openedWith]
  rcases h sid s hissued hthere fun hcap' => hcap (Capped.later hcap' hq.now) with hcurrent | hcovered
  · exact (hrows sid s.officeUserId).imp_left fun hrow => hcurrent.congr hrow
  · exact .inr (hcovered.role (hkeep sid s.officeUserId))

/-- A session that is stored is up to date, or some change will list it. -/
theorem Accounted.store {user : SessionSubject} {openedWith : Option String} {now : Int}
    (h : Accounted c σ (Insert.insert (.storing user openedWith) R))
    (hassume : Current σ user openedWith ∨ .listing user.id ∈ R) :
    Accounted c (σ.store c user now openedWith) (Insert.insert .idle R) := by
  intro sid s hissued hthere hcap
  by_cases hne : sid = σ.drawn
  · subst hne
    have hnew : (σ.store c user now openedWith).issued σ.drawn = some (user.session σ.drawn now) :=
      Function.update_self ..
    have hopened : (σ.store c user now openedWith).openedWith σ.drawn = openedWith :=
      Function.update_self ..
    obtain rfl := Option.some.inj (hnew.symm.trans hissued)
    rw [hopened]
    rcases hassume with hcurrent | hlisting
    · exact .inl (Current.congr (s := user) hcurrent rfl)
    · exact .inr (covered_of_listing hlisting).insert
  · have hissued' : σ.issued sid = some s := by
      rw [← hissued]
      exact (Function.update_of_ne hne _ _).symm
    have hthere' : (σ.sessions sid).isSome := by
      rw [← hthere]
      exact congrArg Option.isSome (Function.update_of_ne hne _ _).symm
    have hopened : (σ.store c user now openedWith).openedWith sid = σ.openedWith sid :=
      Function.update_of_ne hne _ _
    rw [hopened]
    exact (h sid s hissued' hthere' hcap).imp (fun hcurrent => hcurrent.congr rfl)
      fun hcovered => hcovered.others rfl

/-- A deletion of the sessions that its client has still to end. -/
theorem Accounted.remove {sids : List Sid} {owner : Option String}
    (h : Accounted c σ (Insert.insert r R)) (hr : r.revokes = true → ∃ user, r = .removing user sids) :
    Accounted c (σ.remove sids owner) (Insert.insert .idle R) := by
  intro sid s hissued hthere hcap
  rw [State.remove_issued] at hissued
  rw [State.remove_now] at hcap
  rw [State.remove_sessions] at hthere
  rw [State.remove_openedWith]
  split at hthere
  · cases hthere
  · rename_i hnot
    refine (h sid s hissued hthere hcap).imp (fun hcurrent => hcurrent.congr ?_) fun hcovered =>
      hcovered.role fun hcovers => ?_
    · rw [State.authority, State.remove_users]
      rfl
    · obtain ⟨user, rfl⟩ := hr hcovers.revokes
      exact absurd hcovers.2 hnot

/-- The sessions that a change has listed are all those of its user that can be returned. -/
theorem Accounted.list {user : String} {sids : List Sid} (hindexed : Indexed c σ)
    (h : Accounted c σ (Insert.insert (.listing user) R)) (hall : ∀ sid ∈ σ.smembers user, sid ∈ sids)
    (hr : r' = .removing user sids ∨ sids = [] ∧ r' = .idle) :
    Accounted c σ (Insert.insert r' R) := by
  intro sid s hissued hthere hcap
  refine (h sid s hissued hthere hcap).imp_right fun hcovered => hcovered.role fun hcovers => ?_
  have huser : user = s.officeUserId := hcovers
  have hmem : sid ∈ sids := hall sid (huser ▸ hindexed.mem_smembers hissued hthere hcap)
  rcases hr with rfl | ⟨rfl, -⟩
  · exact ⟨huser, hmem⟩
  · cases hmem

/-- An update that does not revoke: it changed nothing, or another change has still to list. -/
theorem Accounted.rewrite {existing row : OfficeUser} {patch : UpdateOfficeUserRequest}
    (h : Accounted c σ (Insert.insert (.writing existing patch) R))
    (hassume : (authorityConditions c).Assume R (.writing existing patch) σ) (hq : Quiet σ σ')
    (hrows : ∀ id ≠ existing.id, σ'.authority id = σ.authority id)
    (hfind : Table.find existing.id σ.users = some row)
    (hrow : σ'.authority existing.id = some (patch.apply row).authority)
    (hsame : authorizationChanged (patch.apply row) existing = false) :
    Accounted c σ' (Insert.insert .idle R) := by
  refine h.quiet hq (fun _ _ hcovers => by cases hcovers) fun sid user => ?_
  by_cases huser : user = existing.id
  · subst huser
    cases hchanged : authorizationChanged (patch.apply row) row with
    | false =>
      refine .inl (hrow.trans ?_)
      rw [authority_of_unchanged hchanged, State.authority, hfind]
      rfl
    | true =>
      rcases hassume row hfind hchanged with hnotices | hlisting
      · rw [hsame] at hnotices
        cases hnotices
      · exact .inr (covered_of_listing hlisting).insert
  · exact .inl (hrows user huser)

/-- Every move keeps the sessions accounted for. -/
theorem Accounted.move (hindexed : Indexed c σ) (h : Accounted c σ (Insert.insert r R))
    (hassume : (authorityConditions c).Assume R r σ) (hmove : Move c r r' σ σ') :
    Accounted c σ' (Insert.insert r' R) := by
  cases hmove with
  | quiet hr hq hrows =>
    refine h.quiet hq (fun _ _ hcovers => ?_) fun _ user => .inl (hrows user)
    rw [hr hcovers.revokes]
    exact hcovers
  | stored user openedWith now => exact h.store hassume
  | refreshed key session touched hissued hthere =>
    intro sid s hs hthere' hcap
    refine (h sid s hs ?_ hcap).imp (fun hcurrent => hcurrent.congr rfl) fun hcovered =>
      hcovered.others rfl
    rw [State.setEx_sessions] at hthere'
    split at hthere'
    · rename_i heq
      subst heq
      obtain rfl := Option.some.inj (hissued.symm.trans hs)
      exact hthere.resolve_right hcap
    · exact hthere'
  | removed sids owner hr => exact h.remove hr
  | listed user sids hall hr => exact h.list hindexed hall hr
  | changed user hr hq hrows =>
    refine h.quiet hq (fun _ _ hcovers => absurd hcovers.revokes (by simp [hr])) fun sid id => ?_
    by_cases huser : id = user
    · exact .inr ⟨_, .inl rfl, huser.symm⟩
    · exact .inl (hrows id huser)
  | rewrote existing patch row hq hrows hfind hrow hsame =>
    exact h.rewrite hassume hq hrows hfind hrow hsame
  | revoked sids hr =>
    exact fun sid s hs hthere hcap => (h sid s hs hthere hcap).imp (fun hcurrent => hcurrent.congr rfl)
      fun hcovered => hcovered.others hr
  | answered sid before hr =>
    exact fun sid s hs hthere hcap => (h sid s hs hthere hcap).imp (fun hcurrent => hcurrent.congr rfl)
      fun hcovered => hcovered.others hr

end Covering

/-- The protocol of the office accounts: that of the session keys, of whose runs more is known. -/
def authorityProtocol (c : AppConfig) : Proto world where
  toConditions := authorityConditions c
  Inv σ R := Indexed c σ ∧ Accounted c σ R
  Act := Move c
  starts h := ⟨h.1, fun sid s hs hthere hcap => (h.2 sid s hs hthere hcap).imp_right Covered.insert⟩
  keeps h _ hassume _ hmove := ⟨h.1.move hmove, h.2.move h.1 hassume hmove⟩

theorem authorityProtocol_refines (c : AppConfig) :
    (authorityProtocol c).Refines (sessionProtocol c) where
  inv h := h.1
  assume _ := trivial
  stable h := h
  act := rfl

section Programs

variable {c : AppConfig} {r : Role} {σ σ' : State}

/-- An update of a user's row leaves the sessions and the other rows alone. -/
theorem updateUser_ok {id : String} {f : OfficeUser → OfficeUser} {user : OfficeUser}
    (h : σ.updateUser id f = .ok (user, σ')) (hf : ∀ u, (f u).id = u.id) :
    Quiet σ σ' ∧ (∀ other ≠ id, σ'.authority other = σ.authority other) ∧
      ∃ row, Table.find id σ.users = some row ∧ f row = user ∧
        σ'.authority id = some user.authority := by
  unfold State.updateUser at h
  cases hfind : Table.find id σ.users with
  | none => simp [hfind] at h
  | some row =>
    simp only [hfind] at h
    split at h
    · cases h
    · obtain ⟨rfl, rfl⟩ := Prod.mk.inj (Except.ok.inj h)
      refine ⟨⟨le_refl _, rfl, rfl, rfl, rfl, rfl, rfl, rfl⟩, fun other hne => ?_, row, rfl, rfl, ?_⟩
      · rw [State.authority, Table.find_update_of_notMem hf (by simpa using hne)]
        rfl
      · rw [State.authority, Table.find_update_of_mem hf (List.mem_singleton_self id), hfind]
        rfl

/-- An update of columns that say nothing of what the user may do. -/
theorem authority_update {ids : List String} {f : OfficeUser → OfficeUser} (hf : ∀ u, (f u).id = u.id)
    (hauthority : ∀ u, (f u).authority = u.authority) (id : String) :
    State.authority { σ with users := Table.update ids f σ.users } id = σ.authority id := by
  rw [State.authority, Table.find_update hf, Option.map_map]
  refine congrArg (Option.map · _) (funext fun u => ?_)
  simp only [Function.comp]
  split
  · exact hauthority u
  · rfl

theorem authority_resetFailures (id : String) (now : Int) (other : String) :
    (σ.resetFailures id now).authority other = σ.authority other := by
  refine authority_update (fun u => ?_) (fun u => ?_) other
  · rfl
  · rfl

theorem authority_updateUser {id : String} {f : OfficeUser → OfficeUser} {user : OfficeUser}
    (h : σ.updateUser id f = .ok (user, σ')) (hf : ∀ u, (f u).id = u.id)
    (hauthority : ∀ u, (f u).authority = u.authority) (other : String) :
    σ'.authority other = σ.authority other := by
  unfold State.updateUser at h
  split at h
  · cases h
  · split at h
    · cases h
    · obtain ⟨-, rfl⟩ := Prod.mk.inj (Except.ok.inj h)
      exact authority_update hf hauthority other

theorem wp_destroyAllForUser (user : String) (hr : r.revokes = true → r = .listing user) :
    (sessionProtocol c).wp (SessionStore.destroyAllForUser user) (fun _ r _ => r = .idle) r σ :=
  wp_mono (wp_destroySessionsOf [] (fun h => ⟨hr h, rfl⟩) fun _ h => by cases h)
    fun _ _ _ h => h.1

theorem safe_login (passwords : Passwords) (email password : String) :
    (sessionProtocol c).Safe (discard (login passwords c email password)) := by
  intro σ
  refine (wp_map _ _).mpr ((wp_bind _ _).mpr (wp_command fun σ₁ _ _ _ _ => ⟨quiet_move rfl, ?_⟩))
  refine (wp_bind _ _).mpr (wp_command fun σ₂ _ _ _ _ => ⟨quiet_move rfl, ?_⟩)
  split
  · exact rfl
  · rename_i user _
    dsimp only
    by_cases hverified : passwords.verify user.passwordHash password = true
    · rw [if_neg (by simp [hverified])]
      refine (wp_bind _ _).mpr (wp_ensure (fun _ => ?_) fun _ => rfl)
      refine (wp_bind _ _).mpr (wp_command fun σ₃ _ _ _ _ => ⟨.quiet (fun h => by cases h) ?_ ?_, ?_⟩)
      · exact ⟨le_refl _, rfl, rfl, rfl, rfl, rfl, rfl, rfl⟩
      · exact authority_resetFailures user.id _
      · exact (wp_bind _ _).mpr (wp_ensure (fun _ => wp_create _ _ rfl) fun _ => rfl)
    · rw [if_pos (by simp [hverified])]
      refine (wp_bind _ _).mpr ((wp_map _ _).mpr (wp_transact fun σ₃ _ _ _ _ => ⟨fun u σ' h => ?_, ?_⟩))
      · have hquiet := (updateUser_ok h fun _ => rfl).1
        exact ⟨.quiet (fun h => by cases h) hquiet
          (authority_updateUser h (fun _ => rfl) fun _ => rfl), rfl⟩
      · exact fun e _ => quiet_move rfl

theorem wp_load (organizationId id : String) (hr : r.revokes = false) :
    (sessionProtocol c).wp (OfficeUsersService.load organizationId id fun _ => .idle)
      (fun user r _ => r = .idle ∧ user.id = id) r σ := by
  refine wp_transact fun σ₁ _ _ _ _ => ⟨fun user σ' h => ?_, fun _ _ => quiet_move hr⟩
  split at h
  · rename_i hfind
    obtain ⟨rfl, rfl⟩ := Prod.mk.inj (Except.ok.inj h)
    have hid := List.find?_some hfind
    simp only [Bool.and_eq_true, beq_iff_eq] at hid
    exact ⟨quiet_move hr, rfl, hid.1⟩
  · cases h

theorem wp_assertEmployeeUsable (organizationId : String) (employeeId : Option (Option String))
    (role : Role) :
    (sessionProtocol c).wp (OfficeUsersService.assertEmployeeUsable organizationId employeeId role)
      (fun _ r _ => r = role) .idle σ := by
  refine wp_transact fun σ₁ _ _ _ _ => ⟨fun _ σ' h => ?_, fun _ _ => quiet_move rfl⟩
  have hσ : σ₁ = σ' := by
    split at h
    · exact (Prod.mk.inj (Except.ok.inj h)).2
    · split at h
      · exact (Prod.mk.inj (Except.ok.inj h)).2
      · cases h
  subst hσ
  exact ⟨quiet_move rfl, rfl⟩

/-- A check that the caller does not change its own account comes before the rest or not. -/
theorem wp_assertNotSelf_then {α : Type} {asked : Prop} [Decidable asked] {actor : OfficeSession}
    {id message : String} {rest : Unit → Program α} {Q : α → Role → State → Prop}
    (h : ∀ σ, (sessionProtocol c).wp (rest ()) Q .idle σ) :
    (sessionProtocol c).wp
      (if asked then OfficeUsersService.assertNotSelf actor id message >>= rest else rest ()) Q .idle σ := by
  split
  · exact (wp_bind _ _).mpr (wp_ensure (fun _ => h σ) fun _ => rfl)
  · exact h σ

/-- An update. It ends the sessions of its user where it sees that it changed what they may do. -/
theorem safe_update (organizationId : String) (actor : OfficeSession) (id : String)
    (patch : UpdateOfficeUserRequest) :
    (sessionProtocol c).Safe (discard (OfficeUsersService.update organizationId actor id patch)) := by
  intro σ
  refine (wp_map _ _).mpr ((wp_bind _ _).mpr (wp_mono (wp_load organizationId id rfl) ?_))
  rintro existing r σ₁ ⟨rfl, hid⟩
  have hrest : ∀ σ₂, (sessionProtocol c).wp (do
      OfficeUsersService.assertEmployeeUsable organizationId patch.employeeId (.writing existing patch)
      let user ← transact (W := world)
        (fun user => if authorizationChanged user existing then .listing id else .idle)
        (State.updateUser id patch.apply)
      if authorizationChanged user existing then do
        let revoked ← SessionStore.destroyAllForUser id
        pure (user, revoked)
      else pure (user, 0)) (fun _ r _ => r = .idle) .idle σ₂ := by
    intro σ₂
    refine (wp_bind _ _).mpr (wp_mono (wp_assertEmployeeUsable organizationId _ _) ?_)
    rintro _ r σ₃ rfl
    refine (wp_bind _ _).mpr (wp_transact fun σ₄ _ _ _ _ => ⟨fun user σ₅ h => ?_, fun _ _ =>
      quiet_move rfl⟩)
    obtain ⟨hquiet, hrows, row, hfind, rfl, hrow⟩ := updateUser_ok h fun _ => rfl
    cases hchanged : authorizationChanged (patch.apply row) existing with
    | true =>
      refine ⟨.changed id rfl hquiet hrows, (wp_bind _ _).mpr (wp_mono ?_ fun _ _ _ h => h)⟩
      exact wp_destroyAllForUser id fun _ => rfl
    | false =>
      subst hid
      exact ⟨.rewrote existing patch row hquiet hrows hfind hrow hchanged, rfl⟩
  exact wp_assertNotSelf_then fun _ => wp_assertNotSelf_then hrest

theorem safe_archive (organizationId : String) (actor : OfficeSession) (id : String) :
    (sessionProtocol c).Safe (discard (OfficeUsersService.archive organizationId actor id)) := by
  intro σ
  refine (wp_map _ _).mpr ((wp_bind _ _).mpr (wp_mono (wp_load organizationId id rfl) ?_))
  rintro existing r σ₁ ⟨rfl, -⟩
  refine (wp_bind _ _).mpr (wp_ensure (fun _ => ?_) fun _ => rfl)
  split
  · exact rfl
  · refine (wp_bind _ _).mpr (wp_transact fun σ₂ _ _ _ _ => ⟨fun user σ₃ h => ?_, fun _ _ =>
      quiet_move rfl⟩)
    obtain ⟨hquiet, hrows, -⟩ := updateUser_ok h fun _ => rfl
    refine ⟨.changed id rfl hquiet hrows, (wp_bind _ _).mpr (wp_mono ?_ fun _ _ _ h => h)⟩
    exact wp_destroyAllForUser id fun _ => rfl

/-- Consuming a reset link changes the password of its user only. -/
theorem claim_ok {token : PasswordResetToken} {passwordHash : String} {now : Int} {u : Unit}
    (h : σ.claim token passwordHash now = .ok (u, σ')) :
    Quiet σ σ' ∧ ∀ other ≠ token.officeUserId, σ'.authority other = σ.authority other := by
  unfold State.claim at h
  split at h
  · split at h
    · cases h
    · obtain ⟨-, rfl⟩ := Prod.mk.inj (Except.ok.inj h)
      refine ⟨⟨le_refl _, rfl, rfl, rfl, rfl, rfl, rfl, rfl⟩, fun other hne => ?_⟩
      refine congrArg (Option.map OfficeUser.authority) (Table.find_update_of_notMem ?_ ?_)
      · exact fun _ => rfl
      · exact fun hmem => hne (List.mem_singleton.mp hmem)
  · cases h

theorem safe_confirm (passwords : Passwords) (token newPassword salt : String) :
    (sessionProtocol c).Safe (confirm passwords token newPassword salt) := by
  intro σ
  refine (wp_bind _ _).mpr (wp_command fun σ₁ _ _ _ _ => ⟨quiet_move rfl, ?_⟩)
  refine (wp_bind _ _).mpr (wp_command fun σ₂ _ _ _ _ => ⟨quiet_move rfl, ?_⟩)
  split
  · exact rfl
  · rename_i row _
    refine (wp_bind _ _).mpr (wp_ensure (fun _ => ?_) fun _ => rfl)
    split
    · exact rfl
    · refine (wp_bind _ _).mpr (wp_transact fun σ₃ _ _ _ _ => ⟨fun _ σ₄ h => ?_, fun _ _ =>
        quiet_move rfl⟩)
      obtain ⟨hquiet, hrows⟩ := claim_ok h
      refine ⟨.changed row.officeUserId rfl hquiet hrows, (wp_map _ _).mpr ?_⟩
      exact wp_destroyAllForUser row.officeUserId fun _ => rfl

end Programs

/-- The operations on the office accounts, and the calls of the session store beside that which
opens a session without a sign-in. -/
inductive AccountOp (passwords : Passwords) (c : AppConfig) : Program Unit → Prop where
  | login (email password : String) : AccountOp passwords c (discard (login passwords c email password))
  | update (organizationId : String) (actor : OfficeSession) (id : String)
      (patch : UpdateOfficeUserRequest) :
      AccountOp passwords c (discard (OfficeUsersService.update organizationId actor id patch))
  | archive (organizationId : String) (actor : OfficeSession) (id : String) :
      AccountOp passwords c (discard (OfficeUsersService.archive organizationId actor id))
  | confirm (token newPassword salt : String) :
      AccountOp passwords c (confirm passwords token newPassword salt)
  | read (sid : Sid) : AccountOp passwords c (readCall c sid)
  | destroy (sid : Sid) : AccountOp passwords c (destroyCall sid)
  | destroyAllForUser (user : String) : AccountOp passwords c (destroyAllForUserCall user)
  | destroyOthersForUser (user : String) (keepSid : Sid) :
      AccountOp passwords c (destroyOthersForUserCall user keepSid)
  | wait (ms : Nat) : AccountOp passwords c (wait ms)

theorem AccountOp.safe {passwords : Passwords} {c : AppConfig} {prog : Program Unit}
    (h : AccountOp passwords c prog) : (authorityProtocol c).Safe prog := by
  refine Safe.refines (authorityProtocol_refines c) ?_
  cases h with
  | login email password => exact safe_login passwords email password
  | update organizationId actor id patch => exact safe_update organizationId actor id patch
  | archive organizationId actor id => exact safe_archive organizationId actor id
  | confirm token newPassword salt => exact safe_confirm passwords token newPassword salt
  | read sid => exact safe_readCall
  | destroy sid => exact safe_destroyCall
  | destroyAllForUser user => exact safe_destroyAllForUserCall user
  | destroyOthersForUser user keepSid => exact safe_destroyOthersForUserCall user keepSid
  | wait ms => exact safe_wait ms

/-- The client is between the commit of a change of the user and its return. -/
def Changing (user : String) (t : Thread world) : Prop :=
  t.prog.ended = false ∧ (t.role = .listing user ∨ ∃ sids, t.role = .removing user sids)

/-- Every session of the user that can be returned carries the role, the refund capability and the
employee link of the user's row; the user is not archived; and the session was opened with the
password that the user has. -/
def AuthorityFresh (c : AppConfig) (user : String) (σ : State) : Prop :=
  ∀ sid s, σ.readable c sid = some s → s.officeUserId = user →
    ∃ row, Table.find user σ.users = some row ∧ s.role = row.role ∧
      s.canIssueRefunds = row.canIssueRefunds ∧ s.employeeId = row.employeeId ∧
      row.archivedAt = none ∧ σ.openedWith sid = some row.passwordHash

theorem Current.row {σ : State} {s : SessionSubject} {openedWith : Option String}
    (h : Current σ s openedWith) : ∃ row, Table.find s.id σ.users = some row ∧ s.role = row.role ∧
      s.canIssueRefunds = row.canIssueRefunds ∧ s.employeeId = row.employeeId ∧
      row.archivedAt = none ∧ openedWith = some row.passwordHash := by
  obtain ⟨passwordHash, rfl, hauthority⟩ := h
  obtain ⟨row, hfind, hrow⟩ := Option.map_eq_some_iff.mp hauthority
  simp only [OfficeUser.authority, SessionSubject.authority, Authority.mk.injEq,
    Option.isSome_eq_false_iff, Option.isNone_iff_eq_none] at hrow
  obtain ⟨hrole, hrefunds, hemployee, harchived, hhash⟩ := hrow
  exact ⟨row, hfind, hrole.symm, hrefunds.symm, hemployee.symm, harchived, by rw [hhash]⟩

/-- In every run whose sign-ins and updates meet the conditions, no session is out of date once
every change of the user that has committed has returned. -/
theorem authority_fresh (passwords : Passwords) (c : AppConfig) {σ₀ : State} (hσ₀ : Indexed c σ₀)
    (hfresh : Accounted c σ₀ ∅) {s : Sys world}
    (h : Sys.Reach (AccountOp passwords c) (authorityConditions c) { state := σ₀ } s) (user : String)
    (hreturned : ∀ t ∈ s.threads, ¬Changing user t) : AuthorityFresh c user s.state := by
  have hgood := Sys.Reach.good (P := authorityProtocol c) (fun _ hop => hop.safe)
    (Sys.good_init ⟨hσ₀, hfresh⟩) h
  obtain ⟨hindexed, haccounted⟩ := hgood.inv
  intro sid session hread huser
  obtain ⟨hissued, hthere, hcap⟩ := Indexed.of_readable hindexed hread
  subst huser
  rcases haccounted sid session.asCreated hissued hthere hcap with hcurrent | hcovered
  · exact hcurrent.row
  · obtain ⟨r, ⟨t, ht, rfl⟩, hcovers⟩ := hcovered
    have hrunning : t.prog.ended = false := by
      by_contra hend
      have hidle := hgood.idle_of_ended ht (by simpa using hend)
      rw [hidle] at hcovers
      exact hcovers
    refine absurd ⟨hrunning, ?_⟩ (hreturned t ht)
    cases hrole : t.role with
    | listing u =>
      rw [hrole] at hcovers
      exact .inl (congrArg Role.listing hcovers)
    | removing u sids =>
      rw [hrole] at hcovers
      exact .inr ⟨sids, congrArg (Role.removing · sids) hcovers.1⟩
    | _ =>
      rw [hrole] at hcovers
      cases hcovers

instance (c : AppConfig) : (authorityConditions c).Checkable where
  assume l r σ := match r with
    | .storing user openedWith =>
      (openedWith.any fun passwordHash => σ.authority user.id == some (user.authority passwordHash)) ||
        l.contains (.listing user.id)
    | .writing existing patch => (Table.find existing.id σ.users).all fun row =>
        !authorizationChanged (patch.apply row) row || authorizationChanged (patch.apply row) existing ||
          l.contains (.listing existing.id)
    | _ => true
  stable := Conditions.Checkable.stable (sessionConditions c)
  assume_sound {l r σ} h := by
    cases r with
    | storing user openedWith =>
      rcases Bool.or_eq_true_iff.mp h with hcurrent | hlisting
      · cases openedWith with
        | none => cases hcurrent
        | some passwordHash => exact .inl ⟨passwordHash, rfl, by simpa using hcurrent⟩
      · exact .inr (by simpa using hlisting)
    | writing existing patch =>
      intro row hfind hchanged
      simpa [hfind, hchanged] using h
    | _ => trivial
  stable_sound h := Conditions.Checkable.stable_sound (c := sessionConditions _) h

def OfficeUser.sample : OfficeUser where
  toSessionSubject := .sample
  email := "mara@example.org"
  passwordHash := "tulip"
  firstName := "Mara"
  lastName := "Lind"

/-- A password that is its own hash. -/
def Passwords.plain : Passwords where
  verify := (· == ·)
  hash password _ := .ok password
  hashResetToken := id

def OfficeSession.owner : OfficeSession where
  sid := 7
  officeUserId := "owner-1"
  organizationId := "org-1"
  role := .OWNER
  employeeId := none
  canIssueRefunds := true
  createdAt := 0
  lastSeenAt := 0

/-- The sign-in of the user, and its demotion. -/
def signIn : Program Unit :=
  discard (login .plain .default "mara@example.org" "tulip")

def demotion : Program Unit :=
  discard (OfficeUsersService.update "org-1" .owner "user-1" { role := some .EMPLOYEE })

/-- A user signs in, is demoted, and signs in again. -/
def orderlySignIns : List (Event world) :=
  [.start signIn, .run 0, .run 0, .run 0, .run 0, .run 0,
    .start demotion, .run 1, .run 1, .run 1, .run 1, .run 1,
    .start signIn, .run 2, .run 2, .run 2, .run 2, .run 2]

/-- The demotion comes between what the sign-in reads and what it stores. -/
def overtakenSignIn : List (Event world) :=
  [.start signIn, .run 0, .run 0, .run 0, .start demotion, .run 1, .run 1, .run 1, .run 1,
    .run 0, .run 0]

/-- What a schedule of these leaves: whether all clients have returned, the session under `sid`, and
the row of the user. -/
def outcome (sid : Sid) (s : Sys world) : Bool × Option OfficeUserRole × Option OfficeUserRole :=
  (s.threads.all fun t => t.prog.ended, (s.state.readable .default sid).map fun session => session.role,
    (Table.find "user-1" s.state.users).map fun row => row.role)

theorem authority_fresh_sample :
    ∃ s, Sys.Reach (AccountOp .plain .default) (authorityConditions .default)
        { state := { users := [.sample] } } s ∧
      outcome 1 s = (true, some .EMPLOYEE, some .EMPLOYEE) ∧ AuthorityFresh .default "user-1" s.state := by
  have hexec : (Sys.exec (authorityConditions .default) { state := { users := [.sample] } }
      orderlySignIns).map (outcome 1) = some (true, some .EMPLOYEE, some .EMPLOYEE) := by rfl
  obtain ⟨s, hs, houtcome⟩ := Option.map_eq_some_iff.mp hexec
  have hreach : Sys.Reach (AccountOp .plain .default) (authorityConditions .default)
      { state := { users := [.sample] } } s := by
    refine .exec .refl ?_ hs
    simp [orderlySignIns, Sys.Starts, signIn, demotion, AccountOp.login, AccountOp.update]
  have hended : (s.threads.all fun t => t.prog.ended) = true := congrArg Prod.fst houtcome
  refine ⟨s, hreach, houtcome, authority_fresh .plain .default ?_ ?_ hreach "user-1" fun t ht => ?_⟩
  · exact (indexed_empty .default).quiet ⟨le_refl _, rfl, rfl, rfl, rfl, rfl, rfl, rfl⟩
  · exact fun _ _ hissued => by cases hissued
  · rintro ⟨hrunning, -⟩
    rw [List.all_eq_true.mp hended t ht] at hrunning
    cases hrunning

/-- A session with the role that its user had before a demotion stays after both have returned. -/
theorem authority_overtaken :
    ¬∀ s, Sys.Reach (AccountOp .plain .default) .none { state := { users := [.sample] } } s →
      (∀ t ∈ s.threads, t.prog.ended = true) → AuthorityFresh .default "user-1" s.state := by
  intro hall
  have hexec : (Sys.exec (W := world) .none { state := { users := [.sample] } } overtakenSignIn).map
      (outcome 0) = some (true, some .ADMIN, some .EMPLOYEE) := by rfl
  obtain ⟨s, hs, houtcome⟩ := Option.map_eq_some_iff.mp hexec
  have hreach : Sys.Reach (AccountOp .plain .default) .none { state := { users := [.sample] } } s := by
    refine .exec .refl ?_ hs
    simp [overtakenSignIn, Sys.Starts, signIn, demotion, AccountOp.login, AccountOp.update]
  obtain ⟨hended, hroles⟩ := Prod.mk.inj houtcome
  obtain ⟨hsession, hrow⟩ := Prod.mk.inj hroles
  obtain ⟨session, hread, hrole⟩ := Option.map_eq_some_iff.mp hsession
  obtain ⟨row, hfind, hrowRole⟩ := Option.map_eq_some_iff.mp hrow
  have huser : session.officeUserId = "user-1" := by
    have hids : (Sys.exec (W := world) .none { state := { users := [.sample] } } overtakenSignIn).map
        (fun s => (s.state.readable .default 0).map fun session => session.officeUserId) =
          some (some "user-1") := by rfl
    rw [hs] at hids
    simpa [hread] using hids
  obtain ⟨row', hfind', hsame, -⟩ := hall s hreach (List.all_eq_true.mp hended) 0 session hread huser
  obtain rfl := Option.some.inj (hfind'.symm.trans hfind)
  rw [hrole, hrowRole] at hsame
  cases hsame

end BookingApp.Auth
