import BookingApp.Auth.Accounts
import BookingApp.Interleaving.Logic

/-!
# What one command does to the sessions

`Move` says once what a command of any program of this part may do, together with
the role it takes its client from and to. `Indexed` is what all moves keep: a session
that is there and has not reached its cap is in the index of its user, and one that
was revoked is gone.
-/

set_option autoImplicit false

namespace BookingApp.Auth

open Interleaving

/-- What the row of a user says about what the user may do. -/
structure Authority where
  role : OfficeUserRole
  canIssueRefunds : Bool
  employeeId : Option String
  archived : Bool
  passwordHash : String
  deriving DecidableEq, Repr

def OfficeUser.authority (u : OfficeUser) : Authority where
  role := u.role
  canIssueRefunds := u.canIssueRefunds
  employeeId := u.employeeId
  archived := u.archivedAt.isSome
  passwordHash := u.passwordHash

def State.authority (σ : State) (id : String) : Option Authority :=
  (Table.find id σ.users).map OfficeUser.authority

/-- The session under `sid` cannot be returned any more: it is not there, or capped. -/
def Gone (c : AppConfig) (σ : State) (sid : Sid) : Prop :=
  ∀ s, σ.issued sid = some s → (σ.sessions sid).isSome → c.Capped s σ.now

structure Indexed (c : AppConfig) (σ : State) : Prop where
  drawn : ∀ sid, σ.drawn ≤ sid → σ.sessions sid = none
  issued : ∀ sid key, σ.sessions sid = some key →
    key.value.map OfficeSession.asCreated = σ.issued sid
  born : ∀ sid s, σ.issued sid = some s → (σ.sessions sid).isSome → s.createdAt ≤ σ.now
  member : ∀ sid s, σ.issued sid = some s → (σ.sessions sid).isSome → ¬c.Capped s σ.now →
    sid ∈ (σ.index s.officeUserId).members ∧
      s.createdAt + c.absoluteTtlMs ≤ (σ.index s.officeUserId).expiresAt
  revoked : ∀ sid ∈ σ.revoked, sid < σ.drawn ∧ Gone c σ sid
  returned : ∀ e ∈ σ.returned, e.1 ∉ e.2

/-- A change that leaves the sessions and the notes alone. -/
structure Quiet (σ σ' : State) : Prop where
  now : σ.now ≤ σ'.now
  sessions : σ'.sessions = σ.sessions
  index : σ'.index = σ.index
  drawn : σ'.drawn = σ.drawn
  issued : σ'.issued = σ.issued
  openedWith : σ'.openedWith = σ.openedWith
  revoked : σ'.revoked = σ.revoked
  returned : σ'.returned = σ.returned

theorem Quiet.refl (σ : State) : Quiet σ σ :=
  ⟨le_refl _, rfl, rfl, rfl, rfl, rfl, rfl, rfl⟩

/-- The client has still to end sessions of a user. -/
def Role.revokes : Role → Bool
  | .listing _ | .removing _ _ => true
  | _ => false

/-- What one command does, for a client that goes from the role `r` to `r'`. -/
inductive Move (c : AppConfig) : Role → Role → State → State → Prop where
  | quiet {r r' : Role} {σ σ' : State} (hr : r.revokes = true → r' = r) (h : Quiet σ σ')
      (hrows : ∀ id, σ'.authority id = σ.authority id) : Move c r r' σ σ'
  | stored {σ : State} (user : SessionSubject) (openedWith : Option String) (now : Int)
      (hnow : now ≤ σ.now) :
      Move c (.storing user openedWith) .idle σ (σ.store c user now openedWith)
  | refreshed {σ : State} (sid : Sid) (session touched : OfficeSession)
      (hissued : σ.issued sid = some touched.asCreated)
      (hthere : (σ.sessions sid).isSome ∨ c.Capped touched σ.now) (hdrawn : sid < σ.drawn)
      (hborn : touched.createdAt ≤ σ.now) :
      Move c (.refreshing sid session) .idle σ (σ.setEx sid touched c.idleTtlSeconds)
  | removed {r : Role} {σ : State} (sids : List Sid) (owner : Option String)
      (hr : r.revokes = true → ∃ user, r = .removing user sids) :
      Move c r .idle σ (σ.remove sids owner)
  | listed {r' : Role} {σ : State} (user : String) (sids : List Sid)
      (hall : ∀ sid ∈ σ.smembers user, sid ∈ sids)
      (hr : r' = .removing user sids ∨ sids = [] ∧ r' = .idle) : Move c (.listing user) r' σ σ
  | changed {r : Role} {σ σ' : State} (user : String) (hr : r.revokes = false) (h : Quiet σ σ')
      (hrows : ∀ id ≠ user, σ'.authority id = σ.authority id) : Move c r (.listing user) σ σ'
  | rewrote {σ σ' : State} (existing : OfficeUser) (patch : UpdateOfficeUserRequest)
      (row : OfficeUser) (h : Quiet σ σ') (hrows : ∀ id ≠ existing.id, σ'.authority id = σ.authority id)
      (hfind : Table.find existing.id σ.users = some row)
      (hrow : σ'.authority existing.id = some (patch.apply row).authority)
      (hsame : authorizationChanged (patch.apply row) existing = false) :
      Move c (.writing existing patch) .idle σ σ'
  | revoked {r : Role} {σ : State} (sids : List Sid) (hr : r.revokes = false)
      (hgone : ∀ sid ∈ sids, sid < σ.drawn ∧ Gone c σ sid) :
      Move c r .idle σ { σ with revoked := σ.revoked ++ sids }
  | answered {r : Role} {σ : State} (sid : Sid) (before : List Sid) (hr : r.revokes = false)
      (h : sid ∉ before) : Move c r .idle σ { σ with returned := σ.returned ++ [(sid, before)] }

namespace State

variable {c : AppConfig} {σ : State} {sid sid' : Sid} {user : String}

theorem setEx_sessions (session : OfficeSession) (seconds : Int) :
    (σ.setEx sid session seconds).sessions sid' =
      if sid' = sid then some { value := some session, expiresAt := σ.now + seconds * 1000 }
      else σ.sessions sid' := by
  simp [setEx, Function.update_apply]

@[simp] theorem remove_sessions (sids : List Sid) (owner : Option String) :
    (σ.remove sids owner).sessions sid = if sid ∈ sids then none else σ.sessions sid := by
  cases owner <;> rfl

@[simp] theorem remove_issued (sids : List Sid) (owner : Option String) :
    (σ.remove sids owner).issued = σ.issued := by
  cases owner <;> rfl

@[simp] theorem remove_now (sids : List Sid) (owner : Option String) :
    (σ.remove sids owner).now = σ.now := by
  cases owner <;> rfl

@[simp] theorem remove_drawn (sids : List Sid) (owner : Option String) :
    (σ.remove sids owner).drawn = σ.drawn := by
  cases owner <;> rfl

@[simp] theorem remove_revoked (sids : List Sid) (owner : Option String) :
    (σ.remove sids owner).revoked = σ.revoked := by
  cases owner <;> rfl

@[simp] theorem remove_returned (sids : List Sid) (owner : Option String) :
    (σ.remove sids owner).returned = σ.returned := by
  cases owner <;> rfl

@[simp] theorem remove_openedWith (sids : List Sid) (owner : Option String) :
    (σ.remove sids owner).openedWith = σ.openedWith := by
  cases owner <;> rfl

@[simp] theorem remove_users (sids : List Sid) (owner : Option String) :
    (σ.remove sids owner).users = σ.users := by
  cases owner <;> rfl

/-- The index loses no more than the sessions that are deleted. -/
theorem remove_index (sids : List Sid) (owner : Option String) (hnot : sid ∉ sids)
    (h : sid ∈ (σ.index user).members) :
    sid ∈ ((σ.remove sids owner).index user).members ∧
      ((σ.remove sids owner).index user).expiresAt = (σ.index user).expiresAt := by
  cases owner with
  | none => exact ⟨h, rfl⟩
  | some owner =>
    by_cases howner : user = owner
    · subst howner
      simp [remove, srem, del, h, hnot]
    · simp [remove, srem, del, h, Function.update_of_ne howner]

theorem get_eq_some {value : Option OfficeSession} (h : σ.get sid = some value) :
    ∃ key, σ.sessions sid = some key ∧ key.value = value := by
  obtain ⟨key, hkey, h⟩ := Option.bind_eq_some_iff.mp h
  split at h
  · exact ⟨key, hkey, Option.some.inj h⟩
  · cases h

theorem get_join_eq_some {s : OfficeSession} (h : (σ.get sid).join = some s) :
    ∃ key, σ.sessions sid = some key ∧ key.value = some s := by
  obtain ⟨value, hget, rfl⟩ : ∃ value, σ.get sid = some value ∧ value = some s := by
    cases hget : σ.get sid with
    | none => rw [hget] at h; cases h
    | some value => rw [hget] at h; exact ⟨value, rfl, h⟩
  exact get_eq_some hget

theorem mem_existing {p : Sid → OfficeSession → Bool} (h : sid ∈ σ.existing p) :
    sid < σ.drawn ∧ ∃ key s, σ.sessions sid = some key ∧ key.value = some s ∧ p sid s = true := by
  obtain ⟨hrange, h⟩ := List.mem_filter.mp h
  cases hjoin : (σ.get sid).join with
  | none => simp [hjoin] at h
  | some s =>
    obtain ⟨key, hkey, hvalue⟩ := get_join_eq_some hjoin
    exact ⟨List.mem_range.mp hrange, key, s, hkey, hvalue, by simpa [hjoin] using h⟩

end State

/-- An index that an uncapped session is in has not expired. -/
theorem Indexed.mem_smembers {c : AppConfig} {σ : State} (h : Indexed c σ) {sid : Sid} {s : OfficeSession}
    (hissued : σ.issued sid = some s) (hthere : (σ.sessions sid).isSome) (hcap : ¬c.Capped s σ.now) :
    sid ∈ σ.smembers s.officeUserId := by
  obtain ⟨hmem, hexpires⟩ := h.member sid s hissued hthere hcap
  have hlive : σ.now < (σ.index s.officeUserId).expiresAt := by
    simp only [AppConfig.Capped] at hcap
    omega
  simp [State.smembers, hlive, hmem]

/-- What a client can count on however many commands the others run. -/
structure Later (c : AppConfig) (σ σ' : State) : Prop where
  now : σ.now ≤ σ'.now
  drawn : σ.drawn ≤ σ'.drawn
  issued : ∀ sid < σ.drawn, σ'.issued sid = σ.issued sid
  gone : ∀ sid < σ.drawn, Gone c σ sid → Gone c σ' sid
  revoked : ∀ sid ∈ σ.revoked, sid ∈ σ'.revoked

section Moves

variable {c : AppConfig} {r r' : Role} {σ σ' σ'' : State} {sid : Sid}

theorem Later.refl (σ : State) : Later c σ σ :=
  ⟨le_refl _, le_refl _, fun _ _ => rfl, fun _ _ h => h, fun _ h => h⟩

theorem Later.trans (h₁ : Later c σ σ') (h₂ : Later c σ' σ'') : Later c σ σ'' where
  now := h₁.now.trans h₂.now
  drawn := h₁.drawn.trans h₂.drawn
  issued sid hsid := (h₂.issued sid (hsid.trans_le h₁.drawn)).trans (h₁.issued sid hsid)
  gone sid hsid h := h₂.gone sid (hsid.trans_le h₁.drawn) (h₁.gone sid hsid h)
  revoked sid h := h₂.revoked sid (h₁.revoked sid h)

theorem Capped.later {s : OfficeSession} {now now' : Int} (h : c.Capped s now) (hnow : now ≤ now') :
    c.Capped s now' := by
  simp only [AppConfig.Capped] at h ⊢
  omega

theorem Gone.quiet (h : Gone c σ sid) (hq : Quiet σ σ') : Gone c σ' sid := by
  intro s hissued hthere
  rw [hq.issued] at hissued
  rw [hq.sessions] at hthere
  exact Capped.later (h s hissued hthere) hq.now

theorem Quiet.later (h : Quiet σ σ') : Later c σ σ' where
  now := h.now
  drawn := h.drawn.ge
  issued _ _ := by rw [h.issued]
  gone _ _ hgone := hgone.quiet h
  revoked _ hmem := h.revoked ▸ hmem

theorem Gone.remove (h : Gone c σ sid) (sids : List Sid) (owner : Option String) :
    Gone c (σ.remove sids owner) sid := by
  intro s hissued hthere
  rw [State.remove_issued] at hissued
  rw [State.remove_sessions] at hthere
  split at hthere
  · cases hthere
  · rw [State.remove_now]
    exact h s hissued hthere

/-- A session that was deleted is gone. -/
theorem gone_of_removed {sids : List Sid} (owner : Option String) (h : sid ∈ sids) :
    Gone c (σ.remove sids owner) sid := by
  intro s _ hthere
  rw [State.remove_sessions, if_pos h] at hthere
  cases hthere

theorem Move.later (h : Move c r r' σ σ') : Later c σ σ' := by
  cases h with
  | quiet _ h => exact h.later
  | changed _ _ h => exact h.later
  | rewrote _ _ _ h => exact h.later
  | listed => exact Later.refl σ
  | revoked sids =>
    exact ⟨le_refl _, le_refl _, fun _ _ => rfl, fun _ _ h => h, fun _ h => List.mem_append_left _ h⟩
  | answered => exact ⟨le_refl _, le_refl _, fun _ _ => rfl, fun _ _ h => h, fun _ h => h⟩
  | removed sids owner =>
    refine ⟨by simp, by simp, fun _ _ => by simp, fun sid _ h => h.remove sids owner, fun sid h => ?_⟩
    rw [State.remove_revoked]
    exact h
  | stored user openedWith now hnow =>
    refine ⟨le_refl _, Nat.le_succ _, fun sid hsid => ?_, fun sid hsid h s hissued hthere => ?_,
      fun _ h => h⟩
    · exact Function.update_of_ne (Nat.ne_of_lt hsid) _ _
    · have hne : sid ≠ σ.drawn := Nat.ne_of_lt hsid
      have hissued' : σ.issued sid = some s := by
        rw [← hissued]
        exact (Function.update_of_ne hne _ _).symm
      have hthere' : (σ.sessions sid).isSome := by
        rw [← hthere]
        exact congrArg Option.isSome (Function.update_of_ne hne _ _).symm
      exact h s hissued' hthere'
  | refreshed key session touched hissued hthere =>
    refine ⟨le_refl _, le_refl _, fun _ _ => rfl, fun sid _ h s hs hthere' => ?_, fun _ h => h⟩
    by_cases hsid : sid = key
    · subst hsid
      obtain rfl : s = touched.asCreated := Option.some.inj (hs.symm.trans hissued)
      rcases hthere with hthere | hcap
      · exact h _ hs hthere
      · exact hcap
    · rw [State.setEx_sessions, if_neg hsid] at hthere'
      exact h s hs hthere'

theorem Indexed.quiet (h : Indexed c σ) (hq : Quiet σ σ') : Indexed c σ' where
  drawn sid hsid := by
    rw [hq.sessions]
    exact h.drawn sid (hq.drawn ▸ hsid)
  issued sid key hkey := by
    rw [hq.issued]
    exact h.issued sid key (hq.sessions ▸ hkey)
  born sid s hs hthere := (h.born sid s (hq.issued ▸ hs) (hq.sessions ▸ hthere)).trans hq.now
  member sid s hs hthere hcap := by
    rw [hq.index]
    exact h.member sid s (hq.issued ▸ hs) (hq.sessions ▸ hthere)
      fun hcap' => hcap (Capped.later hcap' hq.now)
  revoked sid hsid := by
    obtain ⟨hdrawn, hgone⟩ := h.revoked sid (hq.revoked ▸ hsid)
    exact ⟨hq.drawn ▸ hdrawn, hgone.quiet hq⟩
  returned e he := h.returned e (hq.returned ▸ he)

theorem Indexed.remove (h : Indexed c σ) (sids : List Sid) (owner : Option String) :
    Indexed c (σ.remove sids owner) where
  drawn sid hsid := by
    rw [State.remove_drawn] at hsid
    simp [h.drawn sid hsid]
  issued sid key hkey := by
    rw [State.remove_sessions] at hkey
    split at hkey
    · cases hkey
    · rw [State.remove_issued]
      exact h.issued sid key hkey
  born sid s hs hthere := by
    rw [State.remove_issued] at hs
    rw [State.remove_sessions] at hthere
    rw [State.remove_now]
    split at hthere
    · cases hthere
    · exact h.born sid s hs hthere
  member sid s hs hthere hcap := by
    rw [State.remove_issued] at hs
    rw [State.remove_sessions] at hthere
    rw [State.remove_now] at hcap
    split at hthere
    · cases hthere
    · obtain ⟨hmem, hexpires⟩ := h.member sid s hs hthere hcap
      obtain ⟨hmem', hexpires'⟩ := State.remove_index sids owner ‹_› hmem
      exact ⟨hmem', hexpires' ▸ hexpires⟩
  revoked sid hsid := by
    rw [State.remove_revoked] at hsid
    obtain ⟨hdrawn, hgone⟩ := h.revoked sid hsid
    exact ⟨by simpa using hdrawn, hgone.remove sids owner⟩
  returned e he := h.returned e (by simpa using he)

/-- The cap of every session in an index comes no later than the index expires, so the sessions
that are lost when an expired index is built anew are capped. -/
theorem Indexed.store (h : Indexed c σ) (user : SessionSubject) (openedWith : Option String) {now : Int}
    (hnow : now ≤ σ.now) : Indexed c (σ.store c user now openedWith) := by
  have hold : ∀ {sid : Sid}, sid ≠ σ.drawn →
      (σ.store c user now openedWith).sessions sid = σ.sessions sid ∧
        (σ.store c user now openedWith).issued sid = σ.issued sid :=
    fun hne => ⟨Function.update_of_ne hne _ _, Function.update_of_ne hne _ _⟩
  have hnew : (σ.store c user now openedWith).issued σ.drawn = some (user.session σ.drawn now) :=
    Function.update_self ..
  have hkept : (σ.store c user now openedWith).sessions σ.drawn =
      some { value := some (user.session σ.drawn now),
             expiresAt := σ.now + c.idleTtlSeconds * 1000 } :=
    Function.update_self ..
  have hindex : (σ.store c user now openedWith).index user.id =
      { members := σ.drawn :: σ.smembers user.id,
        expiresAt := σ.now + (c.absoluteTtlMs + 999) / 1000 * 1000 } :=
    Function.update_self ..
  have hexpires : σ.now + c.absoluteTtlMs ≤ σ.now + (c.absoluteTtlMs + 999) / 1000 * 1000 := by
    omega
  refine ⟨fun sid hsid => ?_, fun sid key hkey => ?_, fun sid s hs hthere => ?_,
    fun sid s hs hthere hcap => ?_, fun sid hsid => ?_, h.returned⟩
  · have hlt : σ.drawn < sid := hsid
    rw [(hold hlt.ne').1]
    exact h.drawn sid hlt.le
  · by_cases hne : sid = σ.drawn
    · subst hne
      rw [hnew]
      obtain rfl := Option.some.inj (hkept.symm.trans hkey)
      rfl
    · rw [(hold hne).2]
      exact h.issued sid key ((hold hne).1 ▸ hkey)
  · by_cases hne : sid = σ.drawn
    · subst hne
      obtain rfl := Option.some.inj (hnew.symm.trans hs)
      exact hnow
    · exact h.born sid s ((hold hne).2 ▸ hs) ((hold hne).1 ▸ hthere)
  · by_cases hne : sid = σ.drawn
    · subst hne
      obtain rfl := Option.some.inj (hnew.symm.trans hs)
      change σ.drawn ∈ ((σ.store c user now openedWith).index user.id).members ∧
        now + c.absoluteTtlMs ≤ ((σ.store c user now openedWith).index user.id).expiresAt
      rw [hindex]
      exact ⟨List.mem_cons_self, (Int.add_le_add_right hnow _).trans hexpires⟩
    · have hs' := (hold hne).2 ▸ hs
      have hthere' := (hold hne).1 ▸ hthere
      have hmem := h.mem_smembers hs' hthere' hcap
      have hborn := h.born sid s hs' hthere'
      by_cases huser : s.officeUserId = user.id
      · rw [huser, hindex]
        exact ⟨List.mem_cons_of_mem _ (huser ▸ hmem),
          (Int.add_le_add_right hborn _).trans hexpires⟩
      · have hother : (σ.store c user now openedWith).index s.officeUserId = σ.index s.officeUserId :=
          Function.update_of_ne huser _ _
        rw [hother]
        exact h.member sid s hs' hthere' hcap
  · obtain ⟨hdrawn, hgone⟩ := h.revoked sid hsid
    have hne : sid ≠ σ.drawn := Nat.ne_of_lt hdrawn
    refine ⟨Nat.lt_succ_of_lt hdrawn, fun s hs hthere => ?_⟩
    exact hgone s ((hold hne).2 ▸ hs) ((hold hne).1 ▸ hthere)

theorem Indexed.setEx (h : Indexed c σ) {touched : OfficeSession} (seconds : Int)
    (hissued : σ.issued sid = some touched.asCreated)
    (hthere : (σ.sessions sid).isSome ∨ c.Capped touched σ.now) (hdrawn : sid < σ.drawn)
    (hborn : touched.createdAt ≤ σ.now) : Indexed c (σ.setEx sid touched seconds) where
  drawn sid' hsid := by
    have hne : sid' ≠ sid := fun heq => absurd hdrawn (Nat.not_lt.mpr (heq ▸ hsid))
    rw [State.setEx_sessions, if_neg hne]
    exact h.drawn sid' hsid
  issued sid' key hkey := by
    rw [State.setEx_sessions] at hkey
    split at hkey
    · rename_i heq
      subst heq
      obtain rfl := Option.some.inj hkey
      exact hissued.symm
    · exact h.issued sid' key hkey
  born sid' s hs hthere' := by
    rw [State.setEx_sessions] at hthere'
    split at hthere'
    · rename_i heq
      subst heq
      obtain rfl := Option.some.inj (hissued.symm.trans hs)
      exact hborn
    · exact h.born sid' s hs hthere'
  member sid' s hs hthere' hcap := by
    rw [State.setEx_sessions] at hthere'
    split at hthere'
    · rename_i heq
      subst heq
      obtain rfl := Option.some.inj (hissued.symm.trans hs)
      exact h.member sid' _ hs (hthere.resolve_right hcap) hcap
    · exact h.member sid' s hs hthere' hcap
  revoked sid' hsid := by
    obtain ⟨hlt, hgone⟩ := h.revoked sid' hsid
    refine ⟨hlt, fun s hs hthere' => ?_⟩
    rw [State.setEx_sessions] at hthere'
    split at hthere'
    · rename_i heq
      subst heq
      obtain rfl := Option.some.inj (hissued.symm.trans hs)
      rcases hthere with hthere | hcap
      · exact hgone _ hs hthere
      · exact hcap
    · exact hgone s hs hthere'
  returned := h.returned

/-- Every move keeps the sessions indexed. -/
theorem Indexed.move (h : Indexed c σ) (hmove : Move c r r' σ σ') : Indexed c σ' := by
  cases hmove with
  | quiet _ hq => exact h.quiet hq
  | changed _ _ hq => exact h.quiet hq
  | rewrote _ _ _ hq => exact h.quiet hq
  | listed => exact h
  | stored user openedWith now hnow => exact h.store user openedWith hnow
  | removed sids owner => exact h.remove sids owner
  | refreshed sid session touched hissued hthere hdrawn hborn =>
    exact h.setEx _ hissued hthere hdrawn hborn
  | revoked sids _ hgone =>
    refine ⟨h.drawn, h.issued, h.born, h.member, fun sid hsid => ?_, h.returned⟩
    rcases List.mem_append.mp hsid with hsid | hsid
    · exact h.revoked sid hsid
    · exact hgone sid hsid
  | answered sid before _ hnot =>
    refine ⟨h.drawn, h.issued, h.born, h.member, h.revoked, fun e he => ?_⟩
    rcases List.mem_append.mp he with he | he
    · exact h.returned e he
    · rw [List.mem_singleton.mp he]
      exact hnot

end Moves

end BookingApp.Auth
