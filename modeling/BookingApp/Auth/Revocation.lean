import BookingApp.Auth.Moves

/-!
# Whether a revocation is final

A read writes back what it got, without looking again. So a session whose key a
revocation deletes in between is there again, outside of the index. In every run
in which no delete comes between the two commands of a read, a revoked session is
never returned again and every session that can be returned is in its user's index.
-/

set_option autoImplicit false

namespace BookingApp.Auth

open Interleaving Interleaving.Proto

/-- No delete names a session that a read has got and has still to write back, unless the session
reaches its cap before. -/
def sessionConditions (c : AppConfig) : Conditions world where
  Assume _ _ _ := True
  Stable r σ σ' := match r with
    | .refreshing sid session =>
      ¬c.Capped session σ'.now → (σ.sessions sid).isSome → (σ'.sessions sid).isSome
    | _ => True

/-- The protocol of the session keys. -/
def sessionProtocol (c : AppConfig) : Proto world where
  toConditions := sessionConditions c
  Inv σ _ := Indexed c σ
  Act := Move c
  starts h := h
  keeps h _ _ _ hmove := h.move hmove

section Programs

variable {c : AppConfig} {r : Role} {σ σ' : State} {sid : Sid}

theorem rely_later (h : (sessionProtocol c).Rely r σ σ') : Later c σ σ' := by
  refine h.keeps (J := Later c σ) (fun x y hstep hlater => ?_) (Later.refl σ)
  obtain ⟨⟨q, q', hmove⟩, -⟩ := hstep
  exact hlater.trans (Move.later hmove)

/-- A session that was got stays there until it is written back, or reaches its cap. -/
theorem rely_there {session : OfficeSession} (h : (sessionProtocol c).Rely (.refreshing sid session) σ σ')
    (hthere : (σ.sessions sid).isSome ∨ c.Capped session σ.now) :
    (σ'.sessions sid).isSome ∨ c.Capped session σ'.now := by
  refine h.keeps (J := fun x : State => (x.sessions sid).isSome ∨ c.Capped session x.now)
    (fun x y hstep hx => ?_) hthere
  obtain ⟨⟨q, q', hmove⟩, hstable⟩ := hstep
  by_cases hcap : c.Capped session y.now
  · exact .inr hcap
  · rcases hx with hx | hx
    · exact .inl (hstable hcap hx)
    · exact absurd (Capped.later hx (Move.later hmove).now) hcap

/-- A command that looks at the state only. -/
theorem quiet_move {r' : Role} (hr : r.revokes = false) : Move c r r' σ σ :=
  .quiet (by simp [hr]) (.refl σ) fun _ => rfl

theorem wp_create (user : SessionSubject) (openedWith : Option String) (hr : r.revokes = false) :
    (sessionProtocol c).wp (SessionStore.create c user openedWith) (fun _ r _ => r = .idle) r σ := by
  refine (wp_bind _ _).mpr (wp_commandAs fun σ₁ _ _ _ _ => ⟨quiet_move hr, ?_⟩)
  refine wp_command fun σ₂ h₂ _ _ _ => ⟨?_, rfl⟩
  exact .stored user openedWith σ₁.now (rely_later h₂).now

/-- What a destruction is to find gone at its end. -/
def AllGone (c : AppConfig) (sids : List Sid) (σ : State) : Prop :=
  ∀ sid ∈ sids, sid < σ.drawn ∧ Gone c σ sid

theorem AllGone.later {sids : List Sid} (h : AllGone c sids σ) (hlater : Later c σ σ') :
    AllGone c sids σ' := fun sid hsid =>
  ⟨(h sid hsid).1.trans_le hlater.drawn, hlater.gone sid (h sid hsid).1 (h sid hsid).2⟩

theorem wp_destroy (existed : List Sid) (hr : r.revokes = false)
    (hexisted : ∀ x ∈ existed, x < σ.drawn ∧ x = sid) :
    (sessionProtocol c).wp (SessionStore.destroy sid)
      (fun _ r σ => r = .idle ∧ AllGone c existed σ) r σ := by
  refine (wp_bind _ _).mpr (wp_command fun σ₁ h₁ _ _ _ => ⟨quiet_move hr, ?_⟩)
  refine wp_command fun σ₂ h₂ _ _ _ => ⟨.removed _ _ (by simp [Role.revokes]), rfl, fun x hx => ?_⟩
  have hlater := (rely_later h₁).trans (rely_later h₂)
  obtain ⟨hdrawn, rfl⟩ := hexisted x hx
  refine ⟨?_, gone_of_removed _ (List.mem_singleton_self x)⟩
  rw [State.remove_drawn]
  exact hdrawn.trans_le hlater.drawn

/-- A read. It returns no session that was revoked before it started. -/
theorem wp_read {before : List Sid} (hr : r.revokes = false) (hbefore : ∀ x ∈ before, x ∈ σ.revoked) :
    (sessionProtocol c).wp (SessionStore.read c sid)
      (fun session r _ => r = .idle ∧ (session.isSome → sid ∉ before)) r σ := by
  refine (wp_bind _ _).mpr (wp_commandAs fun σ₁ h₁ _ hindexed _ => ⟨quiet_move hr, ?_⟩)
  have hbefore₁ : ∀ x ∈ before, x ∈ σ₁.revoked := fun x hx => (rely_later h₁).revoked x (hbefore x hx)
  cases hraw : σ₁.get sid with
  | none => exact ⟨by simp, by simp⟩
  | some value =>
    cases value with
    | none =>
      refine (wp_bind _ _).mpr (wp_command fun σ₂ _ _ _ _ => ⟨?_, rfl, by simp⟩)
      exact .removed _ _ (by simp [Role.revokes])
    | some session =>
      obtain ⟨key, hkey, hvalue⟩ := State.get_eq_some hraw
      have hthere₁ : (σ₁.sessions sid).isSome := by simp [hkey]
      have hissued₁ : σ₁.issued sid = some session.asCreated := by
        rw [← hindexed.issued sid key hkey, hvalue]
        rfl
      have hdrawn₁ : sid < σ₁.drawn := by
        by_contra hge
        simp [hindexed.drawn sid (Nat.not_lt.mp hge)] at hkey
      have hborn₁ : session.createdAt ≤ σ₁.now := hindexed.born sid session.asCreated hissued₁ hthere₁
      refine (wp_bind _ _).mpr (wp_commandAs fun σ₂ h₂ _ hindexed₂ _ => ⟨quiet_move rfl, ?_⟩)
      have hlater₂ := rely_later h₂
      have hthere₂ := rely_there h₂ (.inl hthere₁)
      by_cases hcap : c.Capped session σ₂.now
      · rw [if_pos hcap, if_pos hcap]
        refine (wp_bind _ _).mpr (wp_mono (wp_destroy [] rfl (by simp)) ?_)
        exact fun _ _ _ h => ⟨h.1, by simp⟩
      · rw [if_neg hcap, if_neg hcap]
        refine (wp_bind _ _).mpr (wp_command fun σ₃ h₃ _ _ _ => ⟨?_, rfl, fun _ hmem => ?_⟩)
        · have hlater := hlater₂.trans (rely_later h₃)
          refine .refreshed sid session _ ?_ (rely_there h₃ hthere₂) (hdrawn₁.trans_le hlater.drawn)
            (hborn₁.trans hlater.now)
          rw [hlater.issued sid hdrawn₁]
          exact hissued₁
        · -- what was revoked before is gone, and what was got is there
          have hissued₂ := (hlater₂.issued sid hdrawn₁).trans hissued₁
          have hgone := (hindexed₂.revoked sid (hlater₂.revoked sid (hbefore₁ sid hmem))).2
          exact hcap (hgone session.asCreated hissued₂ (hthere₂.resolve_right hcap))

/-- The sessions of a user that the revocation is to end: gone, or the user's and not spared. -/
def ToEnd (c : AppConfig) (user : String) (keepSid : Option Sid) (existed : List Sid) (σ : State) : Prop :=
  ∀ x ∈ existed, x < σ.drawn ∧ (Gone c σ x ∨
    ∃ s, σ.issued x = some s ∧ s.officeUserId = user ∧ some x ≠ keepSid)

theorem wp_destroySessionsOf {user : String} {keepSid : Option Sid} (existed : List Sid)
    (hr : r.revokes = true → r = .listing user ∧ keepSid = none)
    (hexisted : ToEnd c user keepSid existed σ) :
    (sessionProtocol c).wp (SessionStore.destroySessionsOf user keepSid)
      (fun _ r σ => r = .idle ∧ AllGone c existed σ) r σ := by
  refine (wp_bind _ _).mpr (wp_commandAs fun σ₁ h₁ _ hindexed _ => ?_)
  have hlater₁ := rely_later h₁
  -- what existed is gone by now, or listed
  have hlisted : ∀ x ∈ existed, x < σ₁.drawn ∧ (Gone c σ₁ x ∨
      x ∈ σ₁.listed user keepSid) := by
    intro x hx
    obtain ⟨hdrawn, hx⟩ := hexisted x hx
    refine ⟨hdrawn.trans_le hlater₁.drawn, ?_⟩
    rcases hx with hgone | ⟨s, hissued, hs, hkeep⟩
    · exact .inl (hlater₁.gone x hdrawn hgone)
    · rw [← hlater₁.issued x hdrawn] at hissued
      by_cases hgone : (σ₁.sessions x).isSome ∧ ¬c.Capped s σ₁.now
      · have hmem := hindexed.mem_smembers hissued hgone.1 hgone.2
        exact .inr (List.mem_filter.mpr ⟨hs ▸ hmem, decide_eq_true hkeep⟩)
      · refine .inl fun s' hs' hthere => ?_
        obtain rfl := Option.some.inj (hissued.symm.trans hs')
        by_contra hcap
        exact hgone ⟨hthere, hcap⟩
  refine ⟨?_, ?_⟩
  · cases hrevokes : r.revokes with
    | false => exact quiet_move hrevokes
    | true =>
      obtain ⟨rfl, rfl⟩ := hr hrevokes
      refine .listed user (σ₁.listed user none) (fun sid hsid => ?_) ?_
      · exact List.mem_filter.mpr ⟨hsid, by simp⟩
      · by_cases hempty : σ₁.listed user none = []
        · exact .inr ⟨hempty, if_pos hempty⟩
        · exact .inl (if_neg hempty)
  · by_cases hempty : σ₁.listed user keepSid = []
    · rw [if_pos hempty]
      refine ⟨?_, fun x hx => ?_⟩
      · cases keepSid with
        | none => exact if_pos hempty
        | some keep => rfl
      · obtain ⟨hdrawn, hgone | hmem⟩ := hlisted x hx
        · exact ⟨hdrawn, hgone⟩
        · rw [hempty] at hmem
          cases hmem
    · rw [if_neg hempty]
      refine wp_command fun σ₂ h₂ _ _ _ => ⟨.removed _ _ fun hrevokes => ?_, rfl, fun x hx => ?_⟩
      · cases keepSid with
        | none => exact ⟨user, if_neg hempty⟩
        | some keep => cases hrevokes
      · have hlater₂ := rely_later h₂
        obtain ⟨hdrawn, hx⟩ := hlisted x hx
        refine ⟨?_, ?_⟩
        · rw [State.remove_drawn]
          exact hdrawn.trans_le hlater₂.drawn
        · rcases hx with hgone | hmem
          · exact (hlater₂.gone x hdrawn hgone).remove _ _
          · exact gone_of_removed _ hmem

/-- A revocation as it is called: what it notes as revoked is gone when it completes. -/
theorem wp_revocation {role : Role} {p : Sid → OfficeSession → Bool} {revoke : Program Unit}
    (hrevoke : ∀ σ, Indexed c σ → (sessionProtocol c).wp revoke
      (fun _ r σ' => r = .idle ∧ AllGone c (σ.existing p) σ') role σ) :
    (sessionProtocol c).Safe (revocation role p revoke) := by
  intro σ
  refine (wp_bind _ _).mpr (wp_commandAs fun σ₁ _ _ hindexed _ => ⟨quiet_move rfl, ?_⟩)
  refine (wp_bind _ _).mpr (wp_mono (hrevoke σ₁ hindexed) ?_)
  rintro _ r σ₂ ⟨rfl, hgone⟩
  refine wp_command fun σ₃ h₃ _ _ _ => ⟨?_, rfl⟩
  exact .revoked _ rfl (hgone.later (rely_later h₃))

theorem safe_destroyCall : (sessionProtocol c).Safe (destroyCall sid) := by
  refine wp_revocation fun σ _ => wp_destroy _ rfl fun x hx => ?_
  obtain ⟨hdrawn, _, _, _, _, hp⟩ := State.mem_existing hx
  exact ⟨hdrawn, by simpa using hp⟩

/-- What a revocation of a user's sessions finds is what it is to end. -/
theorem toEnd_existing {user : String} {keepSid : Option Sid} {p : Sid → OfficeSession → Bool}
    (hindexed : Indexed c σ)
    (hp : ∀ x s, p x s = true → s.officeUserId = user ∧ some x ≠ keepSid) :
    ToEnd c user keepSid (σ.existing p) σ := by
  intro x hx
  obtain ⟨hdrawn, key, s, hkey, hvalue, hps⟩ := State.mem_existing hx
  refine ⟨hdrawn, .inr ⟨s.asCreated, ?_, hp x s hps⟩⟩
  rw [← hindexed.issued x key hkey, hvalue]
  rfl

theorem safe_destroyAllForUserCall (user : String) :
    (sessionProtocol c).Safe (destroyAllForUserCall user) := by
  refine wp_revocation fun σ hindexed => (wp_map _ _).mpr (wp_destroySessionsOf _ ?_ ?_)
  · exact fun _ => ⟨rfl, rfl⟩
  · exact toEnd_existing hindexed fun x s hp => ⟨by simpa using hp, by simp⟩

theorem safe_destroyOthersForUserCall (user : String) (keepSid : Sid) :
    (sessionProtocol c).Safe (destroyOthersForUserCall user keepSid) := by
  refine wp_revocation fun σ hindexed => (wp_map _ _).mpr (wp_destroySessionsOf _ ?_ ?_)
  · exact fun h => by cases h
  · exact toEnd_existing hindexed fun x s hp => by simpa using hp

theorem safe_readCall : (sessionProtocol c).Safe (readCall c sid) := by
  intro σ
  refine (wp_bind _ _).mpr (wp_command fun σ₁ _ _ _ _ => ⟨quiet_move rfl, ?_⟩)
  refine (wp_bind _ _).mpr (wp_mono (wp_read rfl fun _ h => h) ?_)
  rintro session r σ₂ ⟨rfl, hnot⟩
  cases session with
  | none => exact rfl
  | some session => exact wp_command fun σ₃ _ _ _ _ => ⟨.answered _ _ rfl (hnot rfl), rfl⟩

theorem safe_create (user : SessionSubject) (openedWith : Option String) :
    (sessionProtocol c).Safe (discard (SessionStore.create c user openedWith)) :=
  fun _ => (wp_map _ _).mpr (wp_create user openedWith rfl)

theorem safe_wait (ms : Nat) : (sessionProtocol c).Safe (wait ms) := by
  refine fun σ => wp_command fun σ₁ _ _ _ _ => ⟨.quiet (fun h => by cases h) ?_ fun _ => rfl, rfl⟩
  exact ⟨Int.le_add_of_nonneg_right (Int.natCast_nonneg ms), rfl, rfl, rfl, rfl, rfl, rfl, rfl⟩

end Programs

/-- The calls of the session store. -/
inductive SessionOp (c : AppConfig) : Program Unit → Prop where
  | read (sid : Sid) : SessionOp c (readCall c sid)
  | create (user : SessionSubject) (openedWith : Option String) :
      SessionOp c (discard (SessionStore.create c user openedWith))
  | destroy (sid : Sid) : SessionOp c (destroyCall sid)
  | destroyAllForUser (user : String) : SessionOp c (destroyAllForUserCall user)
  | destroyOthersForUser (user : String) (keepSid : Sid) :
      SessionOp c (destroyOthersForUserCall user keepSid)
  | wait (ms : Nat) : SessionOp c (wait ms)

theorem SessionOp.safe {c : AppConfig} {prog : Program Unit} (h : SessionOp c prog) :
    (sessionProtocol c).Safe prog := by
  cases h with
  | read sid => exact safe_readCall
  | create user openedWith => exact safe_create user openedWith
  | destroy sid => exact safe_destroyCall
  | destroyAllForUser user => exact safe_destroyAllForUserCall user
  | destroyOthersForUser user keepSid => exact safe_destroyOthersForUserCall user keepSid
  | wait ms => exact safe_wait ms

/-- Revocations are final: no read has returned a session that was revoked before the read
started, and every session that can be returned is in the index of its user. -/
structure RevocationFinal (c : AppConfig) (σ : State) : Prop where
  returned : ∀ e ∈ σ.returned, e.1 ∉ e.2
  listed : ∀ sid s, σ.readable c sid = some s → sid ∈ σ.smembers s.officeUserId

/-- `readable` is what a read on its own returns. -/
theorem alone_read (c : AppConfig) (σ : State) (sid : Sid) :
    ((SessionStore.read c sid).alone σ).1 =
      some ((σ.readable c sid).map fun s => { s with lastSeenAt := σ.now }) := by
  unfold SessionStore.read
  rw [Prog.alone_bind]
  simp only [commandAs, Prog.alone, State.readable, id_eq]
  cases hget : σ.get sid with
  | none => rfl
  | some value =>
    cases value with
    | none => rfl
    | some session =>
      by_cases hcap : c.Capped session σ.now
      · simp [Prog.alone_bind, commandAs, command, Prog.alone, hcap, SessionStore.destroy, pure]
      · simp [Prog.alone_bind, commandAs, command, Prog.alone, hcap, pure]

/-- A session that can be returned was issued, is there, and has not reached its cap. -/
theorem Indexed.of_readable {c : AppConfig} {σ : State} (h : Indexed c σ) {sid : Sid} {s : OfficeSession}
    (hread : σ.readable c sid = some s) :
    σ.issued sid = some s.asCreated ∧ (σ.sessions sid).isSome ∧ ¬c.Capped s.asCreated σ.now := by
  obtain ⟨hjoin, hcap⟩ := Option.filter_eq_some_iff.mp hread
  obtain ⟨key, hkey, hvalue⟩ := State.get_join_eq_some hjoin
  refine ⟨?_, by simp [hkey], show ¬c.Capped s σ.now by simpa using hcap⟩
  rw [← h.issued sid key hkey, hvalue]
  rfl

theorem Indexed.final {c : AppConfig} {σ : State} (h : Indexed c σ) : RevocationFinal c σ where
  returned := h.returned
  listed sid s hread := by
    obtain ⟨hissued, hthere, hcap⟩ := h.of_readable hread
    exact h.mem_smembers (s := s.asCreated) hissued hthere hcap

/-- In every run of the session store in which no delete comes between the two commands of a
read, revocations are final. -/
theorem revocation_final (c : AppConfig) {σ₀ : State} (hσ₀ : Indexed c σ₀) {s : Sys world}
    (h : Sys.Reach (SessionOp c) (sessionConditions c) { state := σ₀ } s) :
    RevocationFinal c s.state :=
  (Sys.Reach.good (P := sessionProtocol c) (fun _ hop => hop.safe) (Sys.good_init hσ₀) h).inv.final

instance (c : AppConfig) : (sessionConditions c).Checkable where
  assume _ _ _ := true
  stable r σ σ' := match r with
    | .refreshing sid session =>
      decide (c.Capped session σ'.now) || (σ.sessions sid).isNone || (σ'.sessions sid).isSome
    | _ => true
  assume_sound _ := trivial
  stable_sound {r σ σ'} h := by
    cases r with
    | refreshing sid session =>
      intro hcap hthere
      simp only [Bool.or_eq_true, decide_eq_true_eq, hcap, false_or] at h
      refine h.resolve_left fun hnone => ?_
      rw [Option.isNone_iff_eq_none.mp hnone] at hthere
      cases hthere
    | _ => trivial

theorem indexed_empty (c : AppConfig) : Indexed c {} where
  drawn _ _ := rfl
  issued _ _ h := by cases h
  born _ _ h := by cases h
  member _ _ h := by cases h
  revoked _ h := by cases h
  returned _ h := by cases h

/-- The defaults of the environment. -/
def AppConfig.default : AppConfig where
  sessionIdleTtlMinutes := 720
  sessionAbsoluteTtlMinutes := 10080

def SessionSubject.sample : SessionSubject where
  id := "user-1"
  organizationId := "org-1"
  role := .ADMIN
  canIssueRefunds := true
  employeeId := none

/-- A session is opened and read, all sessions of its user are ended, and it is read again. -/
def orderlyCalls : List (Event world) :=
  [.start (discard (SessionStore.create .default .sample none)), .run 0, .run 0,
    .start (readCall .default 0), .run 1, .run 1, .run 1, .run 1, .run 1,
    .start (destroyAllForUserCall "user-1"), .run 2, .run 2, .run 2, .run 2,
    .start (readCall .default 0), .run 3, .run 3]

/-- The same, but that the deletion comes between the two commands of the first read. -/
def overtakenCalls : List (Event world) :=
  [.start (discard (SessionStore.create .default .sample none)), .run 0, .run 0,
    .start (readCall .default 0), .run 1, .run 1,
    .start (destroyAllForUserCall "user-1"), .run 2, .run 2, .run 2, .run 2, .run 1, .run 1, .run 1,
    .start (readCall .default 0), .run 3, .run 3, .run 3, .run 3, .run 3]

theorem revocation_final_sample :
    ∃ s, Sys.Reach (SessionOp .default) (sessionConditions .default) { state := {} } s ∧
      s.state.returned = [(0, [])] ∧ s.state.revoked = [0] ∧ RevocationFinal .default s.state := by
  have hexec : (Sys.exec (sessionConditions .default) { state := {} } orderlyCalls).map
      (fun s => (s.state.returned, s.state.revoked)) = some ([(0, [])], [0]) := by rfl
  obtain ⟨s, hs, hnotes⟩ := Option.map_eq_some_iff.mp hexec
  obtain ⟨hreturned, hrevoked⟩ := Prod.mk.inj hnotes
  have hreach : Sys.Reach (SessionOp .default) (sessionConditions .default) { state := {} } s := by
    refine .exec .refl ?_ hs
    simp [orderlyCalls, Sys.Starts, SessionOp.create, SessionOp.read, SessionOp.destroyAllForUser]
  exact ⟨s, hreach, hreturned, hrevoked, revocation_final .default (indexed_empty _) hreach⟩

/-- A session that has been revoked is returned by a read that starts afterwards. -/
theorem revocation_overtaken :
    ¬∀ s, Sys.Reach (SessionOp .default) .none { state := {} } s → RevocationFinal .default s.state := by
  intro hall
  have hexec : (Sys.exec (W := world) .none { state := {} } overtakenCalls).map
      (fun s => s.state.returned) = some [(0, []), (0, [0])] := by rfl
  obtain ⟨s, hs, hreturned⟩ := Option.map_eq_some_iff.mp hexec
  have hreach : Sys.Reach (SessionOp .default) .none { state := {} } s := by
    refine .exec .refl ?_ hs
    simp [overtakenCalls, Sys.Starts, SessionOp.create, SessionOp.read, SessionOp.destroyAllForUser]
  exact (hall s hreach).returned (0, [0]) (by simp [hreturned]) (by simp)

end BookingApp.Auth
