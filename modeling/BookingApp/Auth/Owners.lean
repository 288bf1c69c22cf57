import BookingApp.Auth.Accounts
import BookingApp.Interleaving.Logic

/-!
# The owners of an organization (`office/office-users.service.ts`)

Nobody demotes or archives himself, so that whoever ends an ownership is an owner that
is left. That is so as long as he still is one when the row is written: an organization
keeps an owner in every run in which this holds, and can lose its last one otherwise.
-/

set_option autoImplicit false

namespace BookingApp.Auth

open Interleaving Interleaving.Proto

/-- An unarchived `OWNER`. -/
def OfficeUser.isOwner (u : OfficeUser) : Bool :=
  u.role == .OWNER && u.archivedAt.isNone

namespace State

/-- The users, each with the organization it belongs to. -/
def accounts (σ : State) : List (String × String) :=
  σ.users.map fun u => (u.id, u.organizationId)

/-- The organization has an unarchived owner. -/
def HasOwner (organizationId : String) (σ : State) : Prop :=
  ∃ u ∈ σ.users, u.organizationId = organizationId ∧ u.isOwner = true

/-- The user of the session is an unarchived owner of the session's organization. -/
def owns (actor : OfficeSession) (σ : State) : Bool :=
  σ.users.any fun u =>
    u.id == actor.officeUserId && u.organizationId == actor.organizationId && u.isOwner

/-- The change `f` of the user takes an ownership away. -/
def endsOwnership (id : String) (f : OfficeUser → OfficeUser) (σ : State) : Bool :=
  σ.users.any fun u => u.id == id && u.isOwner && !(f u).isOwner

end State

/-- The row of `archive`. -/
def OfficeUser.archived (now : Int) (u : OfficeUser) : OfficeUser :=
  { u with archivedAt := some now }

/-- Where a request stands: it is to write its patch of the user it has loaded, or to archive the
user. -/
inductive OwnerRole where
  | idle
  | updating (actor : OfficeSession) (id : String) (existing : OfficeUser) (patch : UpdateOfficeUserRequest)
  | archiving (actor : OfficeSession) (id : String)

/-- The accounts, with the requests of owners. -/
abbrev ownerWorld : World :=
  world.withRoles OwnerRole .idle

/-- A request of a user who is no unarchived owner goes no further. -/
def authorise (actor : OfficeSession) : Prog ownerWorld Unit :=
  transact (W := ownerWorld) (fun _ => .idle) fun σ =>
    if σ.owns actor then .ok ((), σ)
    else .error (.app
      { code := "FORBIDDEN_ROLE", message := "Your account may not perform this action." })

/-- `PATCH /office/users/:id` -/
def updateRequest (actor : OfficeSession) (id : String) (patch : UpdateOfficeUserRequest) :
    Prog ownerWorld Unit := do
  authorise actor
  let call := OfficeUsersService.update actor.organizationId actor id patch
  discard (call.relabel fun r => match r with
    | .writing existing patch => .updating actor id existing patch
    | _ => .idle)

/-- `POST /office/users/:id/archive` -/
def archiveRequest (actor : OfficeSession) (id : String) : Prog ownerWorld Unit := do
  authorise actor
  let call := OfficeUsersService.archive actor.organizationId actor id
  discard (call.relabel fun r => match r with
    | .idle => .archiving actor id
    | _ => .idle)

/-- Requests of owners. -/
inductive OwnerRequest : Prog ownerWorld Unit → Prop where
  | update (actor : OfficeSession) (id : String) (patch : UpdateOfficeUserRequest) :
      OwnerRequest (updateRequest actor id patch)
  | archive (actor : OfficeSession) (id : String) : OwnerRequest (archiveRequest actor id)

/-- Whoever ends an ownership is still an unarchived owner then. One who updates himself was an owner
when he was loaded. -/
def ownerConditions : Conditions ownerWorld where
  Assume _ r σ := match r with
    | .idle => True
    | .updating actor id existing patch => σ.endsOwnership id patch.apply = true →
        σ.owns actor = true ∧ (actor.officeUserId = id → existing.role = .OWNER)
    | .archiving actor id => σ.endsOwnership id (OfficeUser.archived σ.now) = true → σ.owns actor = true
  Stable _ _ _ := True

/-- What no request changes: who the users are, and that an organization has an owner. -/
structure Kept (σ σ' : State) : Prop where
  accounts : σ'.accounts = σ.accounts
  owner : ∀ organizationId, σ.HasOwner organizationId → σ'.HasOwner organizationId

theorem Kept.of_users {σ σ' : State} (h : σ'.users = σ.users) : Kept σ σ' := by
  constructor
  · unfold State.accounts
    rw [h]
  · intro organizationId howner
    unfold State.HasOwner
    rw [h]
    exact howner

theorem Kept.trans {σ σ' σ'' : State} (h : Kept σ σ') (h' : Kept σ' σ'') : Kept σ σ'' :=
  ⟨h'.accounts.trans h.accounts, fun o howner => h'.owner o (h.owner o howner)⟩

/-- The user belongs to the organization, if it exists. -/
def Belongs (σ : State) (id organizationId : String) : Prop :=
  ∀ a ∈ σ.accounts, a.1 = id → a.2 = organizationId

/-- A user whose row has been found belongs to the organization of the row. -/
theorem belongs_of_mem {σ : State} (hids : (σ.accounts.map Prod.fst).Nodup) {u : OfficeUser}
    (hu : u ∈ σ.users) : Belongs σ u.id u.organizationId := by
  have hmem : (u.id, u.organizationId) ∈ σ.accounts := List.mem_map.mpr ⟨u, hu, rfl⟩
  intro a ha hid
  exact congrArg Prod.snd (List.inj_on_of_nodup_map hids ha hmem hid)

/-- A change of one user that is made by an owner that stays one. -/
theorem kept_update {σ : State} {id : String} {f : OfficeUser → OfficeUser} {actor : OfficeSession}
    (hid : ∀ u, (f u).id = u.id) (horganization : ∀ u, (f u).organizationId = u.organizationId)
    (hbelongs : Belongs σ id actor.organizationId)
    (howns : σ.endsOwnership id f = true → σ.owns actor = true ∧ actor.officeUserId ≠ id) :
    Kept σ { σ with users := Table.update [id] f σ.users } := by
  refine ⟨Table.map_update fun u => by rw [hid, horganization], fun o howner => ?_⟩
  obtain ⟨u, hu, ho, hisOwner⟩ := howner
  by_cases huid : u.id = id
  · by_cases hf : (f u).isOwner = true
    · refine ⟨f u, Table.mem_update.mpr ⟨u, hu, if_pos ?_⟩, (horganization u).trans ho, hf⟩
      exact List.mem_singleton.mpr huid
    · -- the ownership that ends is not the actor's
      obtain ⟨hactor, hne⟩ := howns (List.any_eq_true.mpr ⟨u, hu, by simp [huid, hisOwner, hf]⟩)
      obtain ⟨v, hv, hvowner⟩ := List.any_eq_true.mp hactor
      simp only [Bool.and_eq_true, beq_iff_eq] at hvowner
      obtain ⟨⟨hvid, hvorganization⟩, hvowner⟩ := hvowner
      have horg : u.organizationId = actor.organizationId :=
        hbelongs (u.id, u.organizationId) (List.mem_map.mpr ⟨u, hu, rfl⟩) huid
      refine ⟨v, Table.mem_update.mpr ⟨v, hv, if_neg fun h => hne ?_⟩, ?_, hvowner⟩
      · exact hvid.symm.trans (List.mem_singleton.mp h)
      · rw [hvorganization, ← horg, ho]
  · refine ⟨u, Table.mem_update.mpr ⟨u, hu, if_neg fun h => huid (List.mem_singleton.mp h)⟩, ho, hisOwner⟩

/-- What an update of a row leaves, where it succeeds. -/
theorem State.updateUser_eq_ok {σ σ' : State} {id : String} {f : OfficeUser → OfficeUser}
    {row : OfficeUser} (h : σ.updateUser id f = .ok (row, σ')) :
    σ' = { σ with users := Table.update [id] f σ.users } := by
  unfold State.updateUser at h
  split at h
  · cases h
  · split at h
    · cases h
    · cases h
      rfl

/-- The protocol of the requests: the ids of the users are keys. -/
def ownerProtocol : Proto ownerWorld where
  toConditions := ownerConditions
  Inv σ _ := (σ.accounts.map Prod.fst).Nodup
  Act _ _ := Kept
  starts h := h
  keeps h _ _ _ hkept := by
    rw [hkept.accounts]
    exact h

section Programs

variable {r : OwnerRole} {σ σ' : State}

theorem rely_kept (h : ownerProtocol.Rely r σ σ') : Kept σ σ' := by
  refine h.keeps (J := Kept σ) (fun x y hstep hkept => ?_) (.of_users rfl)
  obtain ⟨⟨q, q', hact⟩, -⟩ := hstep
  exact hkept.trans hact

theorem Belongs.kept {id organizationId : String} (h : Belongs σ id organizationId) (hkept : Kept σ σ') :
    Belongs σ' id organizationId := by
  unfold Belongs
  rw [hkept.accounts]
  exact h

/-- The sessions of a user are ended without a look at the users. -/
theorem always_destroyAllForUser (user : String) :
    (SessionStore.destroyAllForUser user).Always fun (σ σ' : State) => σ'.users = σ.users := by
  refine Prog.always_bind (fun (σ : State) => ⟨rfl, trivial⟩) fun sids => ?_
  split
  · trivial
  · exact fun (σ : State) => ⟨rfl, trivial⟩

theorem wp_authorise {actor : OfficeSession} {Q : Unit → OwnerRole → State → Prop}
    (h : ∀ σ', Q () .idle σ') : ownerProtocol.wp (authorise actor) Q r σ := by
  refine wp_transact fun σ₁ _ _ _ _ => ⟨fun a σ₂ hok => ?_, fun e _ => .of_users rfl⟩
  split at hok
  · cases hok
    exact ⟨.of_users rfl, h _⟩
  · cases hok

/-- The change that a client in its role makes, where the conditions on the run hold. -/
theorem wp_write {id : String} {f : State → OfficeUser → OfficeUser} {role : OfficeUser → Role}
    {c : OfficeUser → Program (OfficeUser × Nat)} {g : Role → OwnerRole} (actor : OfficeSession)
    (hid : ∀ σ u, (f σ u).id = u.id) (horganization : ∀ σ u, (f σ u).organizationId = u.organizationId)
    (hbelongs : Belongs σ id actor.organizationId)
    (howns : ∀ R σ', ownerConditions.Assume R r σ' → σ'.endsOwnership id (f σ') = true →
      σ'.owns actor = true ∧ actor.officeUserId ≠ id)
    (hrest : ∀ user, (c user).Always fun (σ σ' : State) => σ'.users = σ.users) :
    ownerProtocol.wp ((transact (W := world) role (fun σ => σ.updateUser id (f σ)) >>= c).relabel g)
      (fun _ r _ => r = .idle) r σ := by
  refine wp_relabel_transact fun σ₁ h₁ R _ hassume => ⟨fun user σ₂ hok => ?_, fun e _ => .of_users rfl⟩
  obtain rfl := State.updateUser_eq_ok hok
  refine ⟨?_, wp_relabel (fun _ _ _ _ => Kept.of_users) (hrest user) fun hend => if_pos hend⟩
  exact kept_update (hid σ₁) (horganization σ₁) (hbelongs.kept (rely_kept h₁)) (howns R σ₁ hassume)

/-- What `load` has found. -/
theorem belongs_of_load {organizationId id : String} {existing : OfficeUser}
    (hids : (σ.accounts.map Prod.fst).Nodup)
    (h : (match σ.users.find? fun u => u.id == id && u.organizationId == organizationId with
      | some user => Except.ok (user, σ)
      | none => .error (Failure.app { code := "NOT_FOUND", message := "Office user not found." })) =
        .ok (existing, σ')) :
    σ' = σ ∧ Belongs σ id organizationId := by
  split at h
  · next user hfind =>
    cases h
    have hrow := List.find?_some hfind
    simp only [Bool.and_eq_true, beq_iff_eq] at hrow
    obtain ⟨rfl, rfl⟩ := hrow
    exact ⟨rfl, belongs_of_mem hids (List.mem_of_find?_eq_some hfind)⟩
  · cases h

theorem safe_archiveRequest (actor : OfficeSession) (id : String) :
    ownerProtocol.Safe (archiveRequest actor id) := by
  intro σ
  refine (wp_bind _ _).mpr (wp_authorise fun σ₁ => (wp_map _ _).mpr ?_)
  unfold OfficeUsersService.archive
  refine wp_relabel_transact fun σ₂ _ _ hids _ => ⟨fun existing σ₃ hload => ?_, fun e _ => .of_users rfl⟩
  obtain ⟨rfl, hbelongs⟩ := belongs_of_load hids hload
  refine ⟨.of_users rfl, ?_⟩
  unfold OfficeUsersService.assertNotSelf ensure
  by_cases hself : actor.officeUserId = id
  · rw [if_neg (not_not.mpr hself)]
    rfl
  rw [if_pos hself]
  by_cases harchived : existing.archivedAt.isSome = true
  · rw [if_pos harchived]
    rfl
  rw [if_neg harchived]
  refine wp_write (f := fun σ => OfficeUser.archived σ.now) actor (fun _ _ => rfl) (fun _ _ => rfl)
    hbelongs (fun R σ' hassume hends => ⟨hassume hends, hself⟩) fun user => ?_
  exact Prog.always_bind (always_destroyAllForUser id) fun revoked => trivial

/-- A check of the caller that is made in some cases. -/
theorem wp_relabel_assertNotSelf {α : Type} {g : Role → OwnerRole} {Q : α → OwnerRole → State → Prop}
    {actor : OfficeSession} {id message : String} {b : Prop} [Decidable b] {c : Unit → Program α}
    (h : (b → actor.officeUserId ≠ id) → ownerProtocol.wp ((c ()).relabel g) Q .idle σ) :
    ownerProtocol.wp
      ((if b then OfficeUsersService.assertNotSelf actor id message >>= c else c ()).relabel g) Q .idle σ := by
  split
  · unfold OfficeUsersService.assertNotSelf ensure
    split
    · exact h fun _ => ‹_›
    · rfl
  · exact h fun hb => absurd hb ‹_›

/-- A patch that ends an ownership says another role than `OWNER`. -/
theorem role_of_endsOwnership {id : String} {patch : UpdateOfficeUserRequest}
    (h : σ.endsOwnership id patch.apply = true) : patch.role.any (· != .OWNER) = true := by
  obtain ⟨u, -, hu⟩ := List.any_eq_true.mp h
  simp only [Bool.and_eq_true, OfficeUser.isOwner, UpdateOfficeUserRequest.apply] at hu
  obtain ⟨⟨-, hrole, harchived⟩, hends⟩ := hu
  cases hpatch : patch.role with
  | none => simp [hpatch, hrole, harchived] at hends
  | some role => simpa [hpatch, harchived] using hends

theorem safe_updateRequest (actor : OfficeSession) (id : String) (patch : UpdateOfficeUserRequest) :
    ownerProtocol.Safe (updateRequest actor id patch) := by
  intro σ
  refine (wp_bind _ _).mpr (wp_authorise fun σ₁ => (wp_map _ _).mpr ?_)
  unfold OfficeUsersService.update
  refine wp_relabel_transact fun σ₂ _ _ hids _ => ⟨fun existing σ₃ hload => ?_, fun e _ => .of_users rfl⟩
  obtain ⟨rfl, hbelongs⟩ := belongs_of_load hids hload
  refine ⟨.of_users rfl, ?_⟩
  rw [ite_self]
  refine wp_relabel_assertNotSelf fun hself => wp_relabel_assertNotSelf fun _ => ?_
  refine wp_relabel_transact fun σ₄ h₄ _ _ _ => ?_
  refine ⟨fun _ σ₅ hemployee => ?_, fun e _ => .of_users rfl⟩
  have hsame : σ₅ = σ₄ := by
    split at hemployee
    · cases hemployee
      rfl
    · split at hemployee
      · cases hemployee
        rfl
      · cases hemployee
  subst hsame
  refine ⟨.of_users rfl, wp_write (f := fun _ => patch.apply) actor (fun _ _ => rfl)
    (fun _ _ => rfl) (hbelongs.kept (rely_kept h₄)) (fun R σ' hassume hends => ?_) fun user => ?_⟩
  · obtain ⟨howns, hloaded⟩ := hassume hends
    refine ⟨howns, fun hid => hself ?_ hid⟩
    rw [hloaded hid]
    exact role_of_endsOwnership hends
  split
  · exact Prog.always_bind (always_destroyAllForUser id) fun revoked => trivial
  · trivial

theorem OwnerRequest.safe {prog : Prog ownerWorld Unit} (h : OwnerRequest prog) :
    ownerProtocol.Safe prog := by
  cases h with
  | update actor id patch => exact safe_updateRequest actor id patch
  | archive actor id => exact safe_archiveRequest actor id

end Programs

/-- In every run of the requests in which whoever ends an ownership still is an owner, an
organization that has an unarchived owner goes on having one. -/
theorem owner_kept {σ₀ : State} (hids : (σ₀.accounts.map Prod.fst).Nodup) {s s' : Sys ownerWorld}
    (h : Sys.Reach OwnerRequest ownerConditions { state := σ₀ } s)
    (h' : Sys.Reach OwnerRequest ownerConditions s s') {organizationId : String}
    (howner : s.state.HasOwner organizationId) : s'.state.HasOwner organizationId := by
  have hgood := h.good (P := ownerProtocol) (fun _ hreq => hreq.safe) (Sys.good_init hids)
  refine h'.keeps (P := ownerProtocol) (J := State.HasOwner organizationId) (fun _ hreq => hreq.safe) hgood
    (fun _ _ _ x y _ _ hkept hx => ?_) howner
  exact hkept.owner organizationId hx

instance : ownerConditions.Checkable where
  assume _ r σ := match r with
    | .idle => true
    | .updating actor id existing patch =>
      !σ.endsOwnership id patch.apply ||
        (σ.owns actor && (actor.officeUserId != id || existing.role == .OWNER))
    | .archiving actor id => !σ.endsOwnership id (OfficeUser.archived σ.now) || σ.owns actor
  stable _ _ _ := true
  assume_sound {l r σ} h := by
    cases r with
    | idle => trivial
    | updating actor id existing patch =>
      intro hends
      simpa [hends, Classical.or_iff_not_imp_left] using h
    | archiving actor id =>
      intro hends
      simpa [hends, Classical.or_iff_not_imp_left] using h
  stable_sound _ := trivial

/-- An owner of `org-1`. -/
def OfficeUser.sampleOwner (id : String) : OfficeUser where
  id := id
  organizationId := "org-1"
  role := .OWNER
  canIssueRefunds := true
  employeeId := none
  email := id
  passwordHash := ""
  firstName := ""
  lastName := ""

def OfficeSession.sampleOwner (id : String) : OfficeSession where
  officeUserId := id
  organizationId := "org-1"
  role := .OWNER
  employeeId := none
  sid := 0
  canIssueRefunds := true
  createdAt := 0
  lastSeenAt := 0

def State.sampleOwners : State where
  users := [.sampleOwner "user-1", .sampleOwner "user-2"]

/-- One owner archives the other, who comes too late with his own request. -/
def orderlyArchivals : List (Event ownerWorld) :=
  [.start (archiveRequest (.sampleOwner "user-1") "user-2"), .run 0, .run 0, .run 0, .run 0,
    .start (archiveRequest (.sampleOwner "user-2") "user-1"), .run 1]

/-- Two owners archive each other. -/
def mutualArchivals : List (Event ownerWorld) :=
  [.start (archiveRequest (.sampleOwner "user-1") "user-2"),
    .start (archiveRequest (.sampleOwner "user-2") "user-1"), .run 0, .run 1, .run 0, .run 1, .run 0, .run 1]

theorem owner_kept_sample :
    ∃ s, Sys.Reach OwnerRequest ownerConditions { state := .sampleOwners } s ∧
      s.state.users.map OfficeUser.isOwner = [true, false] ∧ s.state.HasOwner "org-1" := by
  have hexec : (Sys.exec ownerConditions { state := .sampleOwners } orderlyArchivals).map
      (fun s => s.state.users.map OfficeUser.isOwner) = some [true, false] := by rfl
  obtain ⟨s, hs, husers⟩ := Option.map_eq_some_iff.mp hexec
  have hreach : Sys.Reach OwnerRequest ownerConditions { state := .sampleOwners } s := by
    refine .exec .refl ?_ hs
    simp [orderlyArchivals, Sys.Starts, OwnerRequest.archive]
  refine ⟨s, hreach, husers, owner_kept (by decide) .refl hreach ?_⟩
  exact ⟨.sampleOwner "user-1", by simp [State.sampleOwners], rfl, rfl⟩

/-- Two owners that were authorised before either wrote leave the organization without one. -/
theorem owner_lost :
    ¬∀ s, Sys.Reach OwnerRequest .none { state := .sampleOwners } s → s.state.HasOwner "org-1" := by
  intro hall
  have hexec : (Sys.exec (W := ownerWorld) .none { state := .sampleOwners } mutualArchivals).map
      (fun s => s.state.users.map OfficeUser.isOwner) = some [false, false] := by rfl
  obtain ⟨s, hs, husers⟩ := Option.map_eq_some_iff.mp hexec
  have hreach : Sys.Reach OwnerRequest .none { state := .sampleOwners } s := by
    refine .exec .refl ?_ hs
    simp [mutualArchivals, Sys.Starts, OwnerRequest.archive]
  obtain ⟨u, hu, -, howner⟩ := hall s hreach
  have hmem : u.isOwner ∈ [false, false] := husers ▸ List.mem_map_of_mem hu
  rw [howner] at hmem
  simp at hmem

end BookingApp.Auth
