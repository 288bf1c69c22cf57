import BookingApp.Interleaving.Logic
import BookingApp.Table

/-!
# The connected account (`organization-onboarding.controller.ts`, `organization-registration.service.ts`)

The registration of an organization opens an account at the provider and stores its id. Where that
fails the office asks again, with the columns of the organization under the same idempotency key.
The provider answers a key that it knows with the first account, or with an error if the parameters
are others. Each statement and each call may fail, or be done and fail for its caller.
-/

set_option autoImplicit false

namespace BookingApp.Connect

open Interleaving Interleaving.Proto

inductive EntityType where
  | INDIVIDUAL
  | SOLE_PROPRIETORSHIP
  | ORGANIZATION
  deriving DecidableEq, Repr

inductive BusinessType where
  | individual
  | company
  deriving DecidableEq, Repr

structure RegisterOrganizationRequest where
  email : String
  country : String
  entityType : EntityType
  deriving DecidableEq, Repr

structure Organization where
  id : String
  contactEmail : String
  country : String
  entityType : Option EntityType
  stripeAccountId : Option String := none
  deriving DecidableEq, Repr

instance : Keyed Organization String := ⟨Organization.id⟩

structure ExpressAccountInput where
  email : String
  country : String
  businessType : BusinessType
  idempotencyKey : String
  deriving DecidableEq, Repr

/-- What the provider remembers of a key: the parameters it came with, and the account it opened. -/
structure Result where
  input : ExpressAccountInput
  account : String
  deriving DecidableEq, Repr

instance : Keyed Result String := ⟨fun result => result.input.idempotencyKey⟩

/-- The columns of `updateOrganizationSchema` that a call is made of. -/
structure OrganizationPatch where
  contactEmail : Option String := none
  country : Option String := none
  deriving DecidableEq, Repr

/-- The organizations, what the provider remembers, and for each organization the calls it was sent,
the accounts it answered with, the calls it refused as parameters that do not match, and the links. -/
structure State where
  organizations : List Organization := []
  results : List Result := []
  calls : List (String × ExpressAccountInput) := []
  answers : List (String × String) := []
  mismatches : List (String × ExpressAccountInput) := []
  links : List (String × String) := []
  deriving DecidableEq, Repr

/-- Where a client stands: it is to call the provider, to store the account, to ask for a link, or to
write a patch. -/
inductive Role where
  | idle
  | calling (organizationId : String) (input : ExpressAccountInput)
  | storing (organizationId : String) (account : String)
  | linking (organizationId : String) (account : String)
  | updating (organizationId : String) (patch : OrganizationPatch)
  deriving DecidableEq, Repr

inductive Ending where
  | notFound
  | failed
  | mismatch

abbrev world : World where
  State := State
  Role := Role
  Err := Ending
  idle := .idle

abbrev Program : Type → Type := Prog world

/-- What becomes of a statement or a call: it is done; it is not, for an error or since its client has
died; or it is done, but fails for its caller. -/
inductive Outcome where
  | done
  | failed
  | lost
  deriving DecidableEq, Repr

/-- One statement, whose failure is the end of its program. -/
def statement {α : Type} (outcome : Outcome) (role : State → Role) (effect : State → State) (f : State → α) :
    Program α :=
  match outcome with
  | .done => commandAs (W := world) role effect f
  | .failed => .act id (fun _ => .idle) fun _ => .throw .failed
  | .lost => .act effect (fun _ => .idle) fun _ => .throw .failed

namespace State

variable (σ : State)

def find (organizationId : String) : Option Organization :=
  Table.find organizationId σ.organizations

/-- What the provider answers; `fresh` is the account that it would open. -/
def answer (fresh : String) (input : ExpressAccountInput) : Option String :=
  match Table.find input.idempotencyKey σ.results with
  | none => some fresh
  | some result => if result.input = input then some result.account else none

/-- A call that does not reach the provider. -/
def send (organizationId : String) (input : ExpressAccountInput) : State :=
  { σ with calls := σ.calls ++ [(organizationId, input)] }

/-- A call that the provider processes. -/
def process (fresh organizationId : String) (input : ExpressAccountInput) : State :=
  { σ.send organizationId input with
    results := match Table.find input.idempotencyKey σ.results with
      | none => σ.results ++ [{ input, account := fresh }]
      | some _ => σ.results
    answers := σ.answers ++ ((σ.answer fresh input).map fun account => (organizationId, account)).toList
    mismatches := match σ.answer fresh input with
      | none => σ.mismatches ++ [(organizationId, input)]
      | some _ => σ.mismatches }

/-- `organization.update where id`, with the account -/
def store (organizationId account : String) : State :=
  { σ with
    organizations := Table.update [organizationId] (fun row => { row with stripeAccountId := some account })
      σ.organizations }

/-- The row of `organization.updateMany where id, stripeAccountId: null` -/
def unclaimed (organizationId : String) : Option Organization :=
  (σ.find organizationId).filter fun row => row.stripeAccountId.isNone

/-- `organization.updateMany where id, stripeAccountId: null` -/
def claim (organizationId account : String) : State :=
  match σ.unclaimed organizationId with
  | none => σ
  | some _ => σ.store organizationId account

def link (organizationId account : String) : State :=
  { σ with links := σ.links ++ [(organizationId, account)] }

end State

def OrganizationPatch.applyTo (patch : OrganizationPatch) (row : Organization) : Organization :=
  { row with
    contactEmail := patch.contactEmail.getD row.contactEmail
    country := patch.country.getD row.country }

def State.patch (organizationId : String) (patch : OrganizationPatch) (σ : State) : State :=
  { σ with organizations := Table.update [organizationId] patch.applyTo σ.organizations }

/-- The key that both paths use. -/
def expressAccountKey (organizationId : String) : String :=
  "org-" ++ organizationId ++ "-express-account"

/-- `stripe.accounts.create` -/
def createExpressAccount (outcome : Outcome) (fresh organizationId : String) (input : ExpressAccountInput) :
    Program String :=
  match outcome with
  | .failed => .act (fun σ => σ.send organizationId input) (fun _ => .idle) fun _ => .throw .failed
  | .lost => .act (fun σ => σ.process fresh organizationId input) (fun _ => .idle) fun _ => .throw .failed
  | .done => do
    let answered ← commandAs (W := world)
      (fun σ => (σ.answer fresh input).elim .idle (.storing organizationId))
      (fun σ => σ.process fresh organizationId input) fun σ => σ.answer fresh input
    match answered with
    | none => .throw .mismatch
    | some account => pure account

/-- `stripe.accountLinks.create` -/
def createAccountLink (outcome : Outcome) (organizationId account : String) : Program Unit :=
  statement outcome (fun _ => .idle) (fun σ => σ.link organizationId account) fun _ => ()

def businessTypeFor (entityType : EntityType) : BusinessType :=
  if entityType = .ORGANIZATION then .company else .individual

/-- The call of a registration. -/
def RegisterOrganizationRequest.input (request : RegisterOrganizationRequest) (organizationId : String) :
    ExpressAccountInput where
  email := request.email
  country := request.country
  businessType := businessTypeFor request.entityType
  idempotencyKey := expressAccountKey organizationId

/-- The call of the office. -/
def Organization.input (organization : Organization) : ExpressAccountInput where
  email := organization.contactEmail
  country := organization.country
  businessType := if organization.entityType = some .ORGANIZATION then .company else .individual
  idempotencyKey := expressAccountKey organization.id

/-- The row of a registration. -/
def RegisterOrganizationRequest.row (request : RegisterOrganizationRequest) (organizationId : String) :
    Organization where
  id := organizationId
  contactEmail := request.email
  country := request.country
  entityType := some request.entityType

/-- `startStripeOnboarding`. Every error of it is caught, and is the end of what is modelled here. -/
def startStripeOnboarding (script : Nat → Outcome) (fresh : String) (request : RegisterOrganizationRequest)
    (organizationId : String) : Program Unit := do
  let stripeAccountId ← createExpressAccount (script 1) fresh organizationId (request.input organizationId)
  statement (script 2) (fun _ => .linking organizationId stripeAccountId)
    (fun σ => σ.store organizationId stripeAccountId) fun _ => ()
  createAccountLink (script 3) organizationId stripeAccountId

/-- `register`: the row is committed before the onboarding begins. -/
def register (script : Nat → Outcome) (fresh : String) (request : RegisterOrganizationRequest)
    (organizationId : String) : Program Unit := do
  let created ← statement (script 0)
    (fun σ => if σ.find organizationId = none then .calling organizationId (request.input organizationId) else .idle)
    (fun σ => if σ.find organizationId = none then
      { σ with organizations := σ.organizations ++ [request.row organizationId] } else σ)
    fun σ => decide (σ.find organizationId = none)
  if created then startStripeOnboarding script fresh request organizationId
  else .throw .failed

/-- `provisionAccount`, for the organization that the request's tenant snapshot has. -/
def provisionAccount (script : Nat → Outcome) (fresh : String) (organization : Organization) : Program String :=
  match organization.stripeAccountId with
  | some stripeAccountId => pure stripeAccountId
  | none => do
    let created ← createExpressAccount (script 1) fresh organization.id organization.input
    let count ← statement (script 2)
      (fun σ => if (σ.unclaimed organization.id).isSome then .linking organization.id created
        else .storing organization.id created)
      (fun σ => σ.claim organization.id created) fun σ => (σ.unclaimed organization.id).toList.length
    if count = 1 then pure created
    else do
      let stored ← statement (script 3)
        (fun σ => (σ.find organization.id).elim .idle fun row =>
          .linking organization.id (row.stripeAccountId.getD created))
        id fun σ => σ.find organization.id
      match stored with
      | none => .throw .notFound
      | some row => pure (row.stripeAccountId.getD created)

/-- Where the tenant snapshot leaves a request. -/
def Organization.snapshotRole (organization : Organization) : Role :=
  match organization.stripeAccountId with
  | some stripeAccountId => .linking organization.id stripeAccountId
  | none => .calling organization.id organization.input

/-- `requestOnboardingLink`, with the read of the tenant snapshot. -/
def requestOnboardingLink (script : Nat → Outcome) (fresh organizationId : String) : Program Unit := do
  let snapshot ← statement (script 0)
    (fun σ => (σ.find organizationId).elim .idle Organization.snapshotRole) id fun σ => σ.find organizationId
  match snapshot with
  | none => .throw .notFound
  | some organization => do
    let stripeAccountId ← provisionAccount script fresh organization
    createAccountLink (script 4) organization.id stripeAccountId

/-- `SettingsService.update`, with the read of the tenant snapshot; what is read afterwards is left out. -/
def updateSettings (script : Nat → Outcome) (organizationId : String) (patch : OrganizationPatch) :
    Program Unit := do
  let snapshot ← statement (script 0)
    (fun σ => (σ.find organizationId).elim .idle fun row => .updating row.id patch) id
    fun σ => σ.find organizationId
  match snapshot with
  | none => .throw .notFound
  | some organization => statement (script 1) (fun _ => .idle) (State.patch organization.id patch) fun _ => ()

/-- Registrations, requests for a link and updates of the settings, with whatever becomes of their
statements and calls. -/
inductive Request : Program Unit → Prop where
  | register (script : Nat → Outcome) (fresh : String) (request : RegisterOrganizationRequest)
      (organizationId : String) : Request (register script fresh request organizationId)
  | requestOnboardingLink (script : Nat → Outcome) (fresh organizationId : String) :
      Request (requestOnboardingLink script fresh organizationId)
  | updateSettings (script : Nat → Outcome) (organizationId : String) (patch : OrganizationPatch) :
      Request (updateSettings script organizationId patch)

/-! ## Protocol -/

/-- Where a client may stand after a look at the state. -/
inductive Found (σ : State) : Role → Role → Prop where
  | idle (r : Role) : Found σ r .idle
  | snapshot {r : Role} {row : Organization} (hrow : σ.find row.id = some row) : Found σ r row.snapshotRole
  | stored {r : Role} {row : Organization} {account : String} (hrow : σ.find row.id = some row)
      (haccount : row.stripeAccountId = some account) : Found σ r (.linking row.id account)
  | updating {r : Role} (organizationId : String) (patch : OrganizationPatch) :
      Found σ r (.updating organizationId patch)

/-- What one command does. -/
inductive Move : Role → Role → State → State → Prop where
  | looked {r r' : Role} {σ : State} (hfound : Found σ r r') : Move r r' σ σ
  | registered {r r' : Role} {σ : State} (organizationId : String) (request : RegisterOrganizationRequest)
      (hnew : σ.find organizationId = none)
      (hr' : r' = .idle ∨ r' = .calling organizationId (request.input organizationId)) :
      Move r r' σ { σ with organizations := σ.organizations ++ [request.row organizationId] }
  | sent {σ : State} {organizationId : String} {input : ExpressAccountInput} :
      Move (.calling organizationId input) .idle σ (σ.send organizationId input)
  | processed {r' : Role} {σ : State} {organizationId : String} {input : ExpressAccountInput} (fresh : String)
      (hr' : ∀ o a, r' = .storing o a → o = organizationId ∧ σ.answer fresh input = some a)
      (hshape : r' = .idle ∨ ∃ o a, r' = .storing o a) :
      Move (.calling organizationId input) r' σ (σ.process fresh organizationId input)
  | stored {r' : Role} {σ : State} {organizationId account : String}
      (hr' : r' = .idle ∨ r' = .linking organizationId account) :
      Move (.storing organizationId account) r' σ (σ.store organizationId account)
  | stays {σ : State} {organizationId account : String} :
      Move (.storing organizationId account) (.storing organizationId account) σ σ
  | linked {σ : State} {organizationId account : String} :
      Move (.linking organizationId account) .idle σ (σ.link organizationId account)
  | patched {σ : State} {organizationId : String} {patch : OrganizationPatch} :
      Move (.updating organizationId patch) .idle σ (σ.patch organizationId patch)

/-- The provider remembers a key of the organization with this account. -/
def State.Opened (σ : State) (organizationId account : String) : Prop :=
  ∃ result, Table.find (expressAccountKey organizationId) σ.results = some result ∧ result.account = account

/-- The organization's row names the account. -/
def State.Names (σ : State) (organizationId account : String) : Prop :=
  ∃ row, σ.find organizationId = some row ∧ row.stripeAccountId = some account

/-- What goes with where a client stands. -/
def Entitled (σ : State) : Role → Prop
  | .calling o input => (σ.find o).isSome ∧ input.idempotencyKey = expressAccountKey o
  | .storing o a => (σ.find o).isSome ∧ σ.Opened o a
  | .linking o a => σ.Names o a
  | _ => True

/-- The accounts that anybody has of an organization are the one that the provider opened for it. -/
structure OneAccount (σ : State) (R : Set Role) : Prop where
  results : ∀ result ∈ σ.results, ∃ o, (o, result.input) ∈ σ.calls ∧
    result.input.idempotencyKey = expressAccountKey o
  calls : ∀ o input, (o, input) ∈ σ.calls → (σ.find o).isSome
  names : ∀ o a, σ.Names o a → σ.Opened o a
  answers : ∀ o a, (o, a) ∈ σ.answers → σ.Opened o a
  links : ∀ o a, (o, a) ∈ σ.links → σ.Names o a
  roles : ∀ r ∈ R, Entitled σ r

section Steps

variable {σ σ' : State} {R : Set Role} {r r' : Role} {o o' a a' fresh : String} {input : ExpressAccountInput}

theorem expressAccountKey_injective (h : expressAccountKey o = expressAccountKey o') : o = o' := by
  have hlists := congrArg String.toList h
  simp only [expressAccountKey, String.toList_append] at hlists
  exact String.toList_injective (List.append_cancel_left (List.append_cancel_right hlists))

theorem State.Opened.unique (h : σ.Opened o a) (h' : σ.Opened o a') : a = a' := by
  obtain ⟨result, hresult, rfl⟩ := h
  obtain ⟨result', hresult', rfl⟩ := h'
  rw [hresult] at hresult'
  rw [Option.some.inj hresult']

theorem id_of_find {row : Organization} (h : σ.find o = some row) : row.id = o :=
  Table.key_of_find h

@[simp] theorem find_store (σ : State) (o o' a : String) :
    (σ.store o a).find o' =
      (σ.find o').map fun row => if o' = o then { row with stripeAccountId := some a } else row := by
  have h : (σ.store o a).find o' = (σ.find o').map fun row =>
      if o' ∈ [o] then { row with stripeAccountId := some a } else row := Table.find_update fun _ => rfl
  simpa using h

@[simp] theorem find_patch (σ : State) (o o' : String) (patch : OrganizationPatch) :
    (σ.patch o patch).find o' = (σ.find o').map fun row => if o' = o then patch.applyTo row else row := by
  have h : (σ.patch o patch).find o' = (σ.find o').map fun row =>
      if o' ∈ [o] then patch.applyTo row else row := Table.find_update fun _ => rfl
  simpa using h

theorem find_registered {row : Organization} (h : σ.find o = some row) (row' : Organization) :
    State.find { σ with organizations := σ.organizations ++ [row'] } o = some row :=
  Table.find_append_of_some h

/-- A call that is answered leaves the account under its key. -/
theorem opened_process (hkey : input.idempotencyKey = expressAccountKey o) (h : σ.answer fresh input = some a) :
    (σ.process fresh o input).Opened o a := by
  unfold State.answer at h
  unfold State.Opened State.process
  cases hfind : Table.find input.idempotencyKey σ.results with
  | none =>
    simp only [hfind, Option.some.injEq] at h
    subst h
    refine ⟨{ input, account := fresh }, ?_, rfl⟩
    dsimp only [State.send]
    rw [← hkey, Table.find_append, hfind, Option.none_or]
    simp [Table.find_cons, Keyed.key]
  | some result =>
    simp only [hfind] at h
    split at h
    · refine ⟨result, ?_, Option.some.inj h⟩
      rw [← hkey]
      exact hfind
    · cases h

/-- What is kept of the organizations and of what the provider remembers. -/
structure State.Later (σ σ' : State) : Prop where
  find : ∀ o, (σ.find o).isSome → (σ'.find o).isSome
  names : ∀ o a, σ.Names o a → σ'.Names o a
  opened : ∀ o a, σ.Opened o a → σ'.Opened o a

theorem State.Later.of_eq (horganizations : σ'.organizations = σ.organizations)
    (hresults : σ'.results = σ.results) : σ.Later σ' := by
  constructor
  · intro o h
    unfold State.find at *
    rwa [horganizations]
  · intro o a h
    unfold State.Names State.find at *
    rwa [horganizations]
  · intro o a h
    unfold State.Opened at *
    rwa [hresults]

theorem later_process (σ : State) (fresh o : String) (input : ExpressAccountInput) :
    σ.Later (σ.process fresh o input) := by
  constructor
  · exact fun _ h => h
  · exact fun _ _ h => h
  · rintro o a ⟨result, hresult, haccount⟩
    refine ⟨result, ?_, haccount⟩
    unfold State.process
    cases hfind : Table.find input.idempotencyKey σ.results with
    | none => exact Table.find_append_of_some hresult
    | some _ => exact hresult

/-- The account that is stored is the one that the row names, where it names one. -/
theorem OneAccount.later_store (h : OneAccount σ (insert (.storing o a) R)) : σ.Later (σ.store o a) := by
  constructor
  · intro o' ho'
    rw [find_store, Option.isSome_map]
    exact ho'
  · rintro o' a' ⟨row, hrow, haccount⟩
    refine ⟨if o' = o then { row with stripeAccountId := some a } else row, ?_, ?_⟩
    · rw [find_store, hrow]
      rfl
    · split
      · next heq =>
        subst heq
        have hopened := h.names o' a' ⟨row, hrow, haccount⟩
        rw [hopened.unique (h.roles _ (.inl rfl) : Entitled σ (.storing o' a)).2]
      · exact haccount
  · exact fun _ _ h => h

theorem later_patch (σ : State) (o : String) (patch : OrganizationPatch) : σ.Later (σ.patch o patch) := by
  constructor
  · intro o' ho'
    rw [find_patch, Option.isSome_map]
    exact ho'
  · rintro o' a' ⟨row, hrow, haccount⟩
    refine ⟨if o' = o then patch.applyTo row else row, ?_, ?_⟩
    · rw [find_patch, hrow]
      rfl
    · split
      · exact haccount
      · exact haccount
  · exact fun _ _ h => h

theorem later_registered (σ : State) (row : Organization) :
    σ.Later { σ with organizations := σ.organizations ++ [row] } := by
  constructor
  · intro o ho
    obtain ⟨row', hrow'⟩ := Option.isSome_iff_exists.mp ho
    rw [find_registered hrow']
    rfl
  · rintro o a ⟨row', hrow', haccount⟩
    exact ⟨row', find_registered hrow' row, haccount⟩
  · exact fun _ _ h => h

theorem OneAccount.later (h : OneAccount σ (insert r R)) (hmove : Move r r' σ σ') : σ.Later σ' := by
  cases hmove with
  | looked => exact .of_eq rfl rfl
  | registered o request => exact later_registered σ _
  | sent => exact .of_eq rfl rfl
  | processed fresh => exact later_process σ fresh _ _
  | stored => exact h.later_store
  | stays => exact .of_eq rfl rfl
  | linked => exact .of_eq rfl rfl
  | patched => exact later_patch σ _ _

theorem Entitled.later (h : Entitled σ r) (hlater : σ.Later σ') : Entitled σ' r := by
  cases r with
  | idle => trivial
  | calling o input => exact ⟨hlater.find o h.1, h.2⟩
  | storing o a => exact ⟨hlater.find o h.1, hlater.opened o a h.2⟩
  | linking o a => exact hlater.names o a h
  | updating o patch => trivial

theorem Entitled.snapshot {row : Organization} (hrow : σ.find row.id = some row) :
    Entitled σ row.snapshotRole := by
  unfold Organization.snapshotRole
  cases haccount : row.stripeAccountId with
  | none => exact ⟨Option.isSome_iff_exists.mpr ⟨row, hrow⟩, rfl⟩
  | some a => exact ⟨row, hrow, haccount⟩

theorem Found.entitled (h : Found σ r r') : Entitled σ r' := by
  cases h with
  | idle => trivial
  | snapshot hrow => exact .snapshot hrow
  | stored hrow haccount => exact ⟨_, hrow, haccount⟩
  | updating => trivial

/-- Where a command leaves its client. -/
theorem OneAccount.entitled (h : OneAccount σ (insert r R)) (hmove : Move r r' σ σ') : Entitled σ' r' := by
  have hr : Entitled σ r := h.roles r (.inl rfl)
  cases hmove with
  | looked hfound => exact hfound.entitled
  | registered o request hnew hr' =>
    rcases hr' with rfl | rfl
    · trivial
    · refine ⟨?_, rfl⟩
      have hfind : Table.find o σ.organizations = none := hnew
      simp [State.find, Table.find_append, hfind, Table.find_cons, Keyed.key, RegisterOrganizationRequest.row]
  | sent => trivial
  | processed fresh hr' hshape =>
    rcases hshape with rfl | ⟨o, a, rfl⟩
    · trivial
    · obtain ⟨rfl, hanswer⟩ := hr' o a rfl
      exact ⟨hr.1, opened_process hr.2 hanswer⟩
  | stored hr' =>
    rcases hr' with rfl | rfl
    · trivial
    · obtain ⟨row, hrow⟩ := Option.isSome_iff_exists.mp hr.1
      refine ⟨{ row with stripeAccountId := some _ }, ?_, rfl⟩
      rw [find_store, hrow, Option.map_some, if_pos rfl]
  | stays => exact hr
  | linked => trivial
  | patched => trivial

/-- An account that a row names after a command: it was named before, or it has been stored now. -/
theorem Move.names (hmove : Move r r' σ σ') (hnames : σ'.Names o a) : σ.Names o a ∨ r = .storing o a := by
  cases hmove with
  | registered o' request hnew =>
    obtain ⟨row, hrow, haccount⟩ := hnames
    refine .inl ⟨row, ?_, haccount⟩
    cases hfind : σ.find o with
    | some row' => exact hfind ▸ (find_registered hfind _).symm.trans hrow
    | none =>
      have hrow' : (Table.find o σ.organizations).or (Table.find o [request.row o']) = some row :=
        Table.find_append.symm.trans hrow
      rw [show Table.find o σ.organizations = none from hfind, Option.none_or, Table.find_cons] at hrow'
      split at hrow'
      · obtain rfl := Option.some.inj hrow'
        cases haccount
      · cases hrow'
  | stored =>
    obtain ⟨row, hrow, haccount⟩ := hnames
    rw [find_store] at hrow
    obtain ⟨row', hrow', rfl⟩ := Option.map_eq_some_iff.mp hrow
    split at haccount
    · next heq =>
      subst heq
      rw [Option.some.inj haccount]
      exact .inr rfl
    · next hne =>
      rw [if_neg hne] at hrow
      exact .inl ⟨row', hrow', haccount⟩
  | patched =>
    obtain ⟨row, hrow, haccount⟩ := hnames
    rw [find_patch] at hrow
    obtain ⟨row', hrow', rfl⟩ := Option.map_eq_some_iff.mp hrow
    refine .inl ⟨row', hrow', ?_⟩
    split at haccount
    · exact haccount
    · exact haccount
  | _ => exact .inl hnames

theorem mem_answers_process {σ : State} (h : (o, a) ∈ (σ.process fresh o' input).answers) :
    (o, a) ∈ σ.answers ∨ (o = o' ∧ σ.answer fresh input = some a) := by
  rcases List.mem_append.mp h with hold | hnew
  · exact .inl hold
  · obtain ⟨account, haccount, heq⟩ := Option.map_eq_some_iff.mp (Option.mem_toList.mp hnew)
    obtain ⟨rfl, rfl⟩ := Prod.mk.inj heq
    exact .inr ⟨rfl, haccount⟩

theorem mem_results_process {σ : State} {result : Result} (h : result ∈ (σ.process fresh o input).results) :
    result ∈ σ.results ∨ result.input = input := by
  unfold State.process at h
  dsimp only at h
  split at h
  · rcases List.mem_append.mp h with hold | hnew
    · exact .inl hold
    · rw [List.mem_singleton.mp hnew]
      exact .inr rfl
  · exact .inl h

/-- What a call to the provider, answered or not, leaves. -/
theorem mem_calls_process {σ : State} {input' : ExpressAccountInput}
    (h : (o, input) ∈ (σ.process fresh o' input').calls) : (o, input) ∈ σ.calls ∨ (o = o' ∧ input = input') := by
  rcases List.mem_append.mp h with hold | hnew
  · exact .inl hold
  · exact .inr (Prod.mk.inj (List.mem_singleton.mp hnew))

/-- The roles of the others, and the one this client is in, after a command. -/
theorem OneAccount.move (h : OneAccount σ (insert r R)) (hmove : Move r r' σ σ') : OneAccount σ' (insert r' R) := by
  have hlater := h.later hmove
  have hr : Entitled σ r := h.roles r (.inl rfl)
  have hroles : ∀ q ∈ insert r' R, Entitled σ' q := by
    rintro q (rfl | hq)
    · exact h.entitled hmove
    · exact (h.roles q (.inr hq)).later hlater
  have hnames : ∀ o a, σ'.Names o a → σ'.Opened o a := by
    intro o a hname
    rcases hmove.names hname with hold | rfl
    · exact hlater.opened o a (h.names o a hold)
    · exact hlater.opened o a hr.2
  have hcalls : ∀ o input, (o, input) ∈ σ.calls → (σ'.find o).isSome := fun o input hmem =>
    hlater.find o (h.calls o input hmem)
  have hanswers : ∀ o a, (o, a) ∈ σ.answers → σ'.Opened o a := fun o a hmem =>
    hlater.opened o a (h.answers o a hmem)
  have hlinks : ∀ o a, (o, a) ∈ σ.links → σ'.Names o a := fun o a hmem =>
    hlater.names o a (h.links o a hmem)
  cases hmove with
  | looked => exact ⟨h.results, hcalls, hnames, hanswers, hlinks, hroles⟩
  | registered => exact ⟨h.results, hcalls, hnames, hanswers, hlinks, hroles⟩
  | @sent _ o input =>
    refine ⟨fun result hresult => ?_, fun o' input' hmem => ?_, hnames, hanswers, hlinks, hroles⟩
    · obtain ⟨o', hcall, hkey⟩ := h.results result hresult
      exact ⟨o', List.mem_append_left _ hcall, hkey⟩
    · rcases List.mem_append.mp hmem with hold | hnew
      · exact hcalls o' input' hold
      · obtain ⟨rfl, rfl⟩ := Prod.mk.inj (List.mem_singleton.mp hnew)
        exact hlater.find _ hr.1
  | @processed _ _ o input fresh =>
    refine ⟨fun result hresult => ?_, fun o' input' hmem => ?_, hnames, fun o' a hmem => ?_, hlinks, hroles⟩
    · rcases mem_results_process hresult with hold | rfl
      · obtain ⟨o', hcall, hkey⟩ := h.results result hold
        exact ⟨o', List.mem_append_left _ hcall, hkey⟩
      · exact ⟨o, List.mem_append_right _ (List.mem_singleton_self _), hr.2⟩
    · rcases mem_calls_process hmem with hold | ⟨rfl, rfl⟩
      · exact hcalls o' input' hold
      · exact hlater.find _ hr.1
    · rcases mem_answers_process hmem with hold | ⟨rfl, hanswer⟩
      · exact hanswers o' a hold
      · exact opened_process hr.2 hanswer
  | stored => exact ⟨h.results, hcalls, hnames, hanswers, hlinks, hroles⟩
  | stays => exact ⟨h.results, hcalls, hnames, hanswers, hlinks, hroles⟩
  | linked =>
    refine ⟨h.results, hcalls, hnames, hanswers, fun o a hmem => ?_, hroles⟩
    rcases List.mem_append.mp hmem with hold | hnew
    · exact hlinks o a hold
    · obtain ⟨rfl, rfl⟩ := Prod.mk.inj (List.mem_singleton.mp hnew)
      exact hlater.names _ _ hr
  | patched => exact ⟨h.results, hcalls, hnames, hanswers, hlinks, hroles⟩

end Steps

/-- The protocol of the accounts, whatever else is known of the run. -/
def accountProtocol : Proto world where
  toConditions := .none
  Inv := OneAccount
  Act := Move
  starts h := ⟨h.results, h.calls, h.names, h.answers, h.links, by
    rintro q (rfl | hq)
    · trivial
    · exact h.roles q hq⟩
  keeps h _ _ _ hmove := h.move hmove

/-! ## Equal parameters -/

/-- The provider was sent these parameters for the organization, or may yet be by a client. -/
def Uses (σ : State) (R : Set Role) (organizationId : String) (input : ExpressAccountInput) : Prop :=
  (organizationId, input) ∈ σ.calls ∨ .calling organizationId input ∈ R

/-- The patch leaves the parameters alone, or the row names an account already, or no call was sent for
the organization and none is under way. -/
def Harmless (R : Set Role) (organizationId : String) (patch : OrganizationPatch) (σ : State) : Prop :=
  ∀ row, σ.find organizationId = some row →
    (patch.applyTo row).input = row.input ∨ row.stripeAccountId.isSome ∨
      ∀ input, ¬Uses σ R organizationId input

/-- The settings are updated only where that is harmless. -/
def editConditions : Conditions world where
  Assume R r σ := match r with
    | .updating organizationId patch => Harmless R organizationId patch σ
    | _ => True
  Stable _ _ _ := True

/-- The parameters that are sent for an organization are always the same, and they are those of its row
as long as the row names no account. -/
structure EqualCalls (σ : State) (R : Set Role) : Prop extends OneAccount σ R where
  agree : ∀ o input input', Uses σ R o input → Uses σ R o input' → input = input'
  current : ∀ row input, σ.find row.id = some row → row.stripeAccountId = none → Uses σ R row.id input →
    input = row.input
  mismatches : σ.mismatches = []

section Agreement

variable {σ σ' : State} {R : Set Role} {r r' : Role} {o fresh : String} {input : ExpressAccountInput}

theorem input_row (request : RegisterOrganizationRequest) (organizationId : String) :
    (request.row organizationId).input = request.input organizationId := by
  unfold Organization.input RegisterOrganizationRequest.row RegisterOrganizationRequest.input businessTypeFor
  simp

theorem OneAccount.find_of_uses (h : OneAccount σ R) (huses : Uses σ R o input) : (σ.find o).isSome := by
  rcases huses with hcall | hrole
  · exact h.calls o input hcall
  · exact (h.roles _ hrole : Entitled σ (.calling o input)).1

/-- What is in use after a command was in use before, unless the command has brought its client to a
call. -/
theorem uses_next (hcalls : ∀ o input, (o, input) ∈ σ'.calls → Uses σ (insert r R) o input)
    (huses : Uses σ' (insert r' R) o input) : Uses σ (insert r R) o input ∨ r' = .calling o input := by
  rcases huses with hcall | hrole | hrole
  · exact .inl (hcalls o input hcall)
  · exact .inr hrole.symm
  · exact .inl (.inr (.inr hrole))

/-- A command that brings nothing new into use, and no row that names no account. -/
theorem EqualCalls.keep (h : EqualCalls σ (insert r R)) (hnext : OneAccount σ' (insert r' R))
    (huses : ∀ o input, Uses σ' (insert r' R) o input → Uses σ (insert r R) o input)
    (hrows : ∀ row, σ'.find row.id = some row → row.stripeAccountId = none →
      ∃ row', σ.find row'.id = some row' ∧ row'.stripeAccountId = none ∧ row'.id = row.id ∧
        row'.input = row.input)
    (hmismatches : σ'.mismatches = []) : EqualCalls σ' (insert r' R) where
  toOneAccount := hnext
  agree o input input' hinput hinput' := h.agree o input input' (huses o input hinput) (huses o input' hinput')
  current row input hrow hnone hinput := by
    obtain ⟨row', hrow', hnone', hid, heq⟩ := hrows row hrow hnone
    rw [← heq]
    exact h.current row' input hrow' hnone' (hid ▸ huses _ _ hinput)
  mismatches := hmismatches

/-- A client is brought to a call with the parameters that the row has. -/
theorem EqualCalls.begin (h : EqualCalls σ (insert r R)) {row : Organization}
    (hrow : σ.find row.id = some row) (hnone : row.stripeAccountId = none)
    (hnext : OneAccount σ (insert (.calling row.id row.input) R)) :
    EqualCalls σ (insert (.calling row.id row.input) R) := by
  have huses : ∀ o input, Uses σ (insert (.calling row.id row.input) R) o input →
      Uses σ (insert r R) o input ∨ (o = row.id ∧ input = row.input) := by
    intro o input hinput
    rcases uses_next (fun _ _ hcall => .inl hcall) hinput with hold | hnew
    · exact .inl hold
    · obtain ⟨ho, hin⟩ := Role.calling.inj hnew
      exact .inr ⟨ho.symm, hin.symm⟩
  refine ⟨hnext, fun o input input' hinput hinput' => ?_, fun row' input hrow' hnone' hinput => ?_, h.mismatches⟩
  · rcases huses o input hinput with hold | ⟨rfl, rfl⟩
    · rcases huses o input' hinput' with hold' | ⟨rfl, rfl⟩
      · exact h.agree o input input' hold hold'
      · exact h.current row input hrow hnone hold
    · rcases huses _ input' hinput' with hold' | ⟨-, rfl⟩
      · exact (h.current row input' hrow hnone hold').symm
      · rfl
  · rcases huses _ input hinput with hold | ⟨hid, rfl⟩
    · exact h.current row' input hrow' hnone' hold
    · rw [hid] at hrow'
      rw [Option.some.inj (hrow'.symm.trans hrow)]

/-- A new organization, whose parameters nobody has used before. -/
theorem EqualCalls.register (h : EqualCalls σ (insert r R)) {request : RegisterOrganizationRequest}
    (hnew : σ.find o = none) (hr' : r' = .idle ∨ r' = .calling o (request.input o))
    (hnext : OneAccount { σ with organizations := σ.organizations ++ [request.row o] } (insert r' R)) :
    EqualCalls { σ with organizations := σ.organizations ++ [request.row o] } (insert r' R) := by
  have hunused : ∀ input, ¬Uses σ (insert r R) o input := by
    intro input huses
    have hsome := h.find_of_uses huses
    rw [hnew] at hsome
    cases hsome
  have huses : ∀ o' input, Uses { σ with organizations := σ.organizations ++ [request.row o] } (insert r' R) o' input →
      (Uses σ (insert r R) o' input ∧ o' ≠ o) ∨ (o' = o ∧ input = request.input o) := by
    intro o' input hinput
    rcases uses_next (σ := σ) (fun _ _ hcall => .inl hcall) hinput with hold | hcalling
    · exact .inl ⟨hold, fun heq => hunused input (heq ▸ hold)⟩
    · rcases hr' with rfl | rfl
      · cases hcalling
      · obtain ⟨ho, hin⟩ := Role.calling.inj hcalling
        exact .inr ⟨ho.symm, hin.symm⟩
  refine ⟨hnext, fun o' input input' hinput hinput' => ?_, fun row input hrow hnone hinput => ?_, h.mismatches⟩
  · rcases huses o' input hinput with ⟨hold, hne⟩ | ⟨rfl, rfl⟩
    · rcases huses o' input' hinput' with ⟨hold', -⟩ | ⟨heq, -⟩
      · exact h.agree o' input input' hold hold'
      · exact absurd heq hne
    · rcases huses _ input' hinput' with ⟨-, hne⟩ | ⟨-, rfl⟩
      · exact absurd rfl hne
      · rfl
  · have hrow' : (Table.find row.id σ.organizations).or (Table.find row.id [request.row o]) = some row :=
      Table.find_append.symm.trans hrow
    rcases huses _ input hinput with ⟨hold, hne⟩ | ⟨hid, rfl⟩
    · refine h.current row input ?_ hnone hold
      have hother : Table.find row.id [request.row o] = none := by
        rw [Table.find_cons, if_neg fun heq => hne heq.symm, Table.find_nil]
      rwa [hother, Option.or_none] at hrow'
    · have hown : Table.find o [request.row o] = some (request.row o) := by
        rw [Table.find_cons]
        exact if_pos rfl
      rw [hid, show Table.find o σ.organizations = none from hnew, Option.none_or, hown] at hrow'
      rw [← Option.some.inj hrow', input_row]

/-- A client that does not come to a call brings nothing into use. -/
theorem uses_of_ne (hcalls : ∀ o input, (o, input) ∈ σ'.calls → Uses σ (insert r R) o input)
    (hr' : ∀ o input, r' ≠ .calling o input) (o : String) (input : ExpressAccountInput)
    (huses : Uses σ' (insert r' R) o input) : Uses σ (insert r R) o input :=
  (uses_next hcalls huses).resolve_right (hr' o input)

/-- The rows that name no account after a command named none before, and a patch apart they have the
parameters that they had. -/
theorem rows_store {a : String} {row : Organization} (hrow : (σ.store o a).find row.id = some row)
    (hnone : row.stripeAccountId = none) :
    ∃ row', σ.find row'.id = some row' ∧ row'.stripeAccountId = none ∧ row'.id = row.id ∧
      row'.input = row.input := by
  rw [find_store] at hrow
  obtain ⟨row', hrow', heq⟩ := Option.map_eq_some_iff.mp hrow
  split at heq
  · rw [← heq] at hnone
    cases hnone
  · subst heq
    exact ⟨row', hrow', hnone, rfl, rfl⟩

/-- The provider has no parameters under the key that are not those of the call. -/
theorem EqualCalls.answer_ne_none (h : EqualCalls σ (insert (.calling o input) R)) (fresh : String) :
    σ.answer fresh input ≠ none := by
  have hkey : input.idempotencyKey = expressAccountKey o :=
    (h.roles _ (.inl rfl) : Entitled σ (.calling o input)).2
  unfold State.answer
  cases hfind : Table.find input.idempotencyKey σ.results with
  | none => exact Option.some_ne_none _
  | some result =>
    obtain ⟨o', hcall, hkey'⟩ := h.results result (Table.mem_of_find hfind)
    have hown : result.input.idempotencyKey = input.idempotencyKey := Table.key_of_find hfind
    have hid : o' = o := expressAccountKey_injective (hkey'.symm.trans (hown.trans hkey))
    have heq : result.input = input := h.agree o result.input input (hid ▸ .inl hcall) (.inr (.inl rfl))
    dsimp only
    rw [if_pos heq]
    exact Option.some_ne_none _

/-- One command, under the conditions on the run. -/
theorem EqualCalls.move (h : EqualCalls σ (insert r R)) (hassume : editConditions.Assume R r σ)
    (hmove : Move r r' σ σ') : EqualCalls σ' (insert r' R) := by
  have hnext := h.toOneAccount.move hmove
  have hsame : ∀ row, σ.find row.id = some row → row.stripeAccountId = none →
      ∃ row', σ.find row'.id = some row' ∧ row'.stripeAccountId = none ∧ row'.id = row.id ∧
        row'.input = row.input := fun row hrow hnone => ⟨row, hrow, hnone, rfl, rfl⟩
  have hold : ∀ o input, (o, input) ∈ σ.calls → Uses σ (insert r R) o input := fun _ _ => .inl
  cases hmove with
  | looked hfound =>
    cases hfound with
    | idle => exact h.keep hnext (uses_of_ne hold (by simp)) hsame h.mismatches
    | @snapshot row hrow =>
      unfold Organization.snapshotRole at hnext ⊢
      cases haccount : row.stripeAccountId with
      | none =>
        rw [haccount] at hnext
        exact h.begin hrow haccount hnext
      | some a =>
        rw [haccount] at hnext
        exact h.keep hnext (uses_of_ne hold (by simp)) hsame h.mismatches
    | stored => exact h.keep hnext (uses_of_ne hold (by simp)) hsame h.mismatches
    | updating => exact h.keep hnext (uses_of_ne hold (by simp)) hsame h.mismatches
  | registered o request hnew hr' => exact h.register hnew hr' hnext
  | @sent _ o input =>
    refine h.keep hnext (uses_of_ne (fun o' input' hcall => ?_) (by simp)) hsame h.mismatches
    rcases List.mem_append.mp hcall with hcall | hcall
    · exact .inl hcall
    · obtain ⟨rfl, rfl⟩ := Prod.mk.inj (List.mem_singleton.mp hcall)
      exact .inr (.inl rfl)
  | @processed _ _ o input fresh hr' hshape =>
    refine h.keep hnext (uses_of_ne (fun o' input' hcall => ?_) ?_) hsame ?_
    · rcases mem_calls_process hcall with hcall | ⟨rfl, rfl⟩
      · exact .inl hcall
      · exact .inr (.inl rfl)
    · rcases hshape with rfl | ⟨o', a, rfl⟩
      · simp
      · simp
    · obtain ⟨a, ha⟩ := Option.ne_none_iff_exists'.mp (h.answer_ne_none fresh)
      unfold State.process
      rw [ha]
      exact h.mismatches
  | stored hr' =>
    refine h.keep hnext (uses_of_ne hold ?_) (fun row hrow hnone => rows_store hrow hnone) h.mismatches
    rcases hr' with rfl | rfl
    · simp
    · simp
  | stays => exact h.keep hnext (uses_of_ne hold (by simp)) hsame h.mismatches
  | linked => exact h.keep hnext (uses_of_ne hold (by simp)) hsame h.mismatches
  | @patched _ o patch =>
    have hothers : ∀ o' input, Uses (σ.patch o patch) (insert .idle R) o' input → Uses σ R o' input := by
      rintro o' input (hcall | hidle | hcalling)
      · exact .inl hcall
      · cases hidle
      · exact .inr hcalling
    have huses : ∀ o' input, Uses σ R o' input → Uses σ (insert (.updating o patch) R) o' input :=
      fun _ _ hinput => hinput.imp_right .inr
    refine ⟨hnext, fun o' input input' hinput hinput' => ?_, fun row input hrow hnone hinput => ?_, h.mismatches⟩
    · exact h.agree o' input input' (huses _ _ (hothers _ _ hinput)) (huses _ _ (hothers _ _ hinput'))
    · have hused := hothers _ _ hinput
      rw [find_patch] at hrow
      obtain ⟨row', hrow', heq⟩ := Option.map_eq_some_iff.mp hrow
      split at heq
      · next hid =>
        subst heq
        rcases hassume row' (hid ▸ hrow') with hsame | hnamed | hunused
        · rw [hsame]
          exact h.current row' input hrow' hnone (huses _ _ hused)
        · rw [show row'.stripeAccountId = none from hnone] at hnamed
          cases hnamed
        · exact absurd (hid ▸ hused) (hunused input)
      · subst heq
        exact h.current row' input hrow' hnone (huses _ _ hused)

end Agreement

/-- The protocol of the runs in which the settings are updated only where that is harmless. -/
def editProtocol : Proto world where
  toConditions := editConditions
  Inv := EqualCalls
  Act := Move
  starts {σ R} h :=
    have huses : ∀ o input, Uses σ (insert Role.idle R) o input → Uses σ R o input := by
      rintro o input (hcall | hidle | hcalling)
      · exact .inl hcall
      · cases hidle
      · exact .inr hcalling
    { toOneAccount := accountProtocol.starts h.toOneAccount
      agree := fun o input input' hinput hinput' =>
        h.agree o input input' (huses o input hinput) (huses o input' hinput')
      current := fun row input hrow hnone hinput => h.current row input hrow hnone (huses _ input hinput)
      mismatches := h.mismatches }
  keeps h _ hassume _ hmove := h.move hassume hmove

theorem editProtocol_refines : editProtocol.Refines accountProtocol where
  inv h := h.toOneAccount
  assume _ := trivial
  stable _ := trivial
  act := rfl

section Programs

variable {α : Type} {σ : State} {r : Role} {outcome : Outcome} {script : Nat → Outcome}
  {fresh organizationId : String}

theorem wp_statement {role : State → Role} {effect : State → State} {f : State → α}
    {Q : α → Role → State → Prop}
    (h : ∀ σ' R, accountProtocol.Rely r σ σ' → OneAccount σ' (insert r R) →
      (∀ r', r' = role σ' ∨ r' = .idle → Move r r' σ' (effect σ')) ∧ Q (f σ') (role σ') (effect σ')) :
    accountProtocol.wp (statement outcome role effect f) Q r σ := by
  cases outcome with
  | done =>
    refine wp_commandAs fun σ' hrely R hinv _ => ?_
    obtain ⟨hmove, hQ⟩ := h σ' R hrely hinv
    exact ⟨hmove _ (.inl rfl), hQ⟩
  | failed => exact fun σ' _ R _ _ => ⟨.looked (.idle r), rfl⟩
  | lost =>
    intro σ' hrely R hinv _
    exact ⟨(h σ' R hrely hinv).1 _ (.inr rfl), rfl⟩

theorem wp_createExpressAccount {input : ExpressAccountInput} {Q : String → Role → State → Prop}
    (hQ : ∀ account σ', Q account (.storing organizationId account) σ') :
    accountProtocol.wp (createExpressAccount outcome fresh organizationId input) Q
      (.calling organizationId input) σ := by
  cases outcome with
  | failed => exact fun σ' _ R _ _ => ⟨.sent, rfl⟩
  | lost =>
    refine fun σ' _ R _ _ => ⟨.processed fresh ?_ (.inl rfl), rfl⟩
    rintro o a ⟨⟩
  | done =>
    refine (wp_bind _ _).mpr (wp_commandAs fun σ' _ R _ _ => ?_)
    cases hanswer : σ'.answer fresh input with
    | none =>
      refine ⟨.processed fresh ?_ (.inl rfl), rfl⟩
      rintro o a ⟨⟩
    | some account =>
      refine ⟨.processed fresh ?_ (.inr ⟨_, _, rfl⟩), hQ account _⟩
      intro o a heq
      obtain ⟨rfl, rfl⟩ := Role.storing.inj heq
      exact ⟨rfl, hanswer⟩

theorem wp_createAccountLink {account : String} :
    accountProtocol.wp (createAccountLink outcome organizationId account) (fun _ r _ => r = .idle)
      (.linking organizationId account) σ := by
  refine wp_statement fun σ' R _ _ => ⟨fun r' hr' => ?_, rfl⟩
  obtain rfl : r' = .idle := or_self_iff.mp hr'
  exact .linked

theorem safe_register (request : RegisterOrganizationRequest) :
    accountProtocol.Safe (register script fresh request organizationId) := by
  intro σ
  refine (wp_bind _ _).mpr (wp_statement fun σ₁ R _ _ => ⟨fun r' hr' => ?_, ?_⟩)
  · by_cases hnew : σ₁.find organizationId = none
    · rw [if_pos hnew] at hr' ⊢
      exact .registered organizationId request hnew hr'.symm
    · rw [if_neg hnew] at hr' ⊢
      obtain rfl : r' = .idle := or_self_iff.mp hr'
      exact .looked (.idle _)
  by_cases hnew : σ₁.find organizationId = none
  · simp only [hnew, if_true, decide_true]
    refine (wp_bind _ _).mpr (wp_createExpressAccount fun account σ₂ => ?_)
    refine (wp_bind _ _).mpr (wp_statement fun σ₃ R _ _ => ⟨fun r' hr' => ?_, wp_createAccountLink⟩)
    exact .stored hr'.symm
  · simp only [hnew, if_false, decide_false, Bool.false_eq_true]
    rfl

/-- The organization's row names an account. -/
def State.Named (σ : State) (organizationId : String) : Prop :=
  ∃ account, σ.Names organizationId account

/-- A row that names an account goes on to name one. -/
theorem Move.named {r' : Role} {σ' : State} (hmove : Move r r' σ σ') (h : σ.Named organizationId) :
    σ'.Named organizationId := by
  obtain ⟨account, hnames⟩ := h
  cases hmove with
  | registered o request => exact ⟨account, (later_registered σ _).names _ _ hnames⟩
  | @stored _ _ o a =>
    obtain ⟨row, hrow, haccount⟩ := hnames
    refine ⟨if organizationId = o then a else account, _, by rw [find_store, hrow]; rfl, ?_⟩
    split
    · rfl
    · exact haccount
  | @patched _ o patch => exact ⟨account, (later_patch σ o patch).names _ _ hnames⟩
  | _ => exact ⟨account, hnames⟩

theorem Rely.named {σ' : State} (h : accountProtocol.Rely r σ σ') (hnamed : σ.Named organizationId) :
    σ'.Named organizationId := by
  refine h.keeps (J := fun x : State => x.Named organizationId) (fun x y hstep hx => ?_) hnamed
  obtain ⟨⟨_, _, hmove⟩, -⟩ := hstep
  exact Move.named hmove hx

/-- A row that the conditional write does not find names an account, if it is there. -/
theorem named_of_unclaimed (hfind : (σ.find organizationId).isSome)
    (hunclaimed : (σ.unclaimed organizationId).isSome = false) : σ.Named organizationId := by
  obtain ⟨row, hrow⟩ := Option.isSome_iff_exists.mp hfind
  unfold State.unclaimed at hunclaimed
  rw [hrow, Option.filter_some] at hunclaimed
  cases haccount : row.stripeAccountId with
  | none =>
    rw [haccount] at hunclaimed
    cases hunclaimed
  | some account => exact ⟨account, row, hrow, haccount⟩

theorem claim_of_isSome {account : String} (h : (σ.unclaimed organizationId).isSome = true) :
    σ.claim organizationId account = σ.store organizationId account := by
  obtain ⟨row, hrow⟩ := Option.isSome_iff_exists.mp h
  unfold State.claim
  rw [hrow]

theorem claim_of_isNone {account : String} (h : (σ.unclaimed organizationId).isSome = false) :
    σ.claim organizationId account = σ := by
  unfold State.claim
  rw [Option.isSome_eq_false_iff.mp h |> Option.isNone_iff_eq_none.mp]

/-- The account of a snapshot that names none, and where its client is brought to. -/
theorem wp_provisionAccount {row : Organization} (hid : row.id = organizationId) {Q : String → Role → State → Prop}
    (hQ : ∀ account σ', Q account (.linking organizationId account) σ') :
    accountProtocol.wp (provisionAccount script fresh row) Q row.snapshotRole σ := by
  subst hid
  unfold provisionAccount Organization.snapshotRole
  cases haccount : row.stripeAccountId with
  | some account => exact hQ account σ
  | none =>
    refine (wp_bind _ _).mpr (wp_createExpressAccount fun created σ₁ => ?_)
    refine (wp_bind _ _).mpr (wp_statement fun σ₂ R _ hinv => ?_)
    have hstoring : Entitled σ₂ (.storing row.id created) := hinv.roles _ (.inl rfl)
    cases hunclaimed : (σ₂.unclaimed row.id).isSome with
    | true =>
      obtain ⟨found, hfound⟩ := Option.isSome_iff_exists.mp hunclaimed
      refine ⟨fun r' hr' => ?_, ?_⟩
      · rw [claim_of_isSome hunclaimed]
        rw [if_pos rfl] at hr'
        exact .stored hr'.symm
      · rw [hfound, if_pos rfl]
        exact hQ created _
    | false =>
      refine ⟨fun r' hr' => ?_, ?_⟩
      · rw [claim_of_isNone hunclaimed]
        rcases hr' with rfl | rfl
        · exact .stays
        · exact .looked (.idle _)
      · have hnone : σ₂.unclaimed row.id = none :=
          Option.isNone_iff_eq_none.mp (Option.isSome_eq_false_iff.mp hunclaimed)
        have hnamed := named_of_unclaimed hstoring.1 hunclaimed
        rw [hnone, claim_of_isNone hunclaimed]
        refine (wp_bind _ _).mpr (wp_statement fun σ₃ R hrely _ => ?_)
        obtain ⟨account, stored, hstored, hnames⟩ := Rely.named hrely hnamed
        have hid := id_of_find hstored
        have hget : stored.stripeAccountId.getD created = account := by rw [hnames, Option.getD_some]
        rw [hstored, Option.elim_some, hget]
        refine ⟨fun r' hr' => ?_, ?_⟩
        · rcases hr' with rfl | rfl
          · exact .looked (hid ▸ .stored (hid ▸ hstored) hnames)
          · exact .looked (.idle _)
        · show Q (stored.stripeAccountId.getD created) (.linking row.id account) σ₃
          rw [hget]
          exact hQ account σ₃

theorem safe_requestOnboardingLink :
    accountProtocol.Safe (requestOnboardingLink script fresh organizationId) := by
  intro σ
  refine (wp_bind _ _).mpr (wp_statement fun σ₁ R _ _ => ?_)
  cases hfind : σ₁.find organizationId with
  | none =>
    refine ⟨fun r' hr' => ?_, rfl⟩
    obtain rfl : r' = .idle := or_self_iff.mp hr'
    exact .looked (.idle _)
  | some row =>
    have hid := id_of_find hfind
    refine ⟨fun r' hr' => ?_, ?_⟩
    · rcases hr' with rfl | rfl
      · exact .looked (.snapshot (hid ▸ hfind))
      · exact .looked (.idle _)
    · exact (wp_bind _ _).mpr (wp_provisionAccount rfl fun account σ' => wp_createAccountLink)

theorem safe_updateSettings (patch : OrganizationPatch) :
    accountProtocol.Safe (updateSettings script organizationId patch) := by
  intro σ
  refine (wp_bind _ _).mpr (wp_statement fun σ₁ R _ _ => ?_)
  cases hfind : σ₁.find organizationId with
  | none =>
    refine ⟨fun r' hr' => ?_, rfl⟩
    obtain rfl : r' = .idle := or_self_iff.mp hr'
    exact .looked (.idle _)
  | some row =>
    refine ⟨fun r' hr' => ?_, wp_statement fun σ₂ R _ _ => ⟨fun r' hr' => ?_, rfl⟩⟩
    · rcases hr' with rfl | rfl
      · exact .looked (.updating row.id patch)
      · exact .looked (.idle _)
    · obtain rfl : r' = .idle := or_self_iff.mp hr'
      exact .patched

theorem Request.safe {prog : Program Unit} (h : Request prog) : accountProtocol.Safe prog := by
  cases h with
  | register script fresh request organizationId => exact safe_register request
  | requestOnboardingLink script fresh organizationId => exact safe_requestOnboardingLink
  | updateSettings script organizationId patch => exact safe_updateSettings patch

end Programs

/-- What is claimed of a state: the calls for an organization have equal parameters and are never
refused as others, they are answered with one account, and each link is to the account that the row
names. -/
structure Connected (σ : State) : Prop where
  calls : ∀ o input input', (o, input) ∈ σ.calls → (o, input') ∈ σ.calls → input = input'
  mismatches : σ.mismatches = []
  answers : ∀ o a a', (o, a) ∈ σ.answers → (o, a') ∈ σ.answers → a = a'
  links : ∀ o a, (o, a) ∈ σ.links → σ.Names o a

/-- Organizations that name no account, and a provider that was sent nothing. -/
structure Unconnected (σ : State) : Prop where
  organizations : ∀ row ∈ σ.organizations, row.stripeAccountId = none
  results : σ.results = []
  calls : σ.calls = []
  answers : σ.answers = []
  mismatches : σ.mismatches = []
  links : σ.links = []

theorem Unconnected.equalCalls {σ : State} (h : Unconnected σ) : EqualCalls σ ∅ := by
  have huses : ∀ o input, ¬Uses σ ∅ o input := by
    rintro o input (hcall | hrole)
    · rw [h.calls] at hcall
      cases hcall
    · exact hrole.elim
  constructor
  · constructor
    · simp [h.results]
    · simp [h.calls]
    · rintro o a ⟨row, hrow, haccount⟩
      rw [h.organizations row (Table.mem_of_find hrow)] at haccount
      cases haccount
    · simp [h.answers]
    · simp [h.links]
    · exact fun r hr => hr.elim
  · exact fun o input _ hinput _ => absurd hinput (huses o input)
  · exact fun row input _ _ hinput => absurd hinput (huses _ input)
  · exact h.mismatches

/-- In every run of registrations, requests for a link and updates of the settings, each statement and
call of which may fail, the provider has answered for an organization with one account only, and each
link is to the account that the organization's row names. -/
theorem one_account {σ₀ : State} (hσ₀ : Unconnected σ₀) {s : Sys world}
    (h : Sys.Reach Request .none { state := σ₀ } s) :
    (∀ o a a', (o, a) ∈ s.state.answers → (o, a') ∈ s.state.answers → a = a') ∧
      ∀ o a, (o, a) ∈ s.state.links → s.state.Names o a := by
  have hinv := (h.good (P := accountProtocol) (fun _ hop => hop.safe)
    (Sys.good_init hσ₀.equalCalls.toOneAccount)).inv
  exact ⟨fun o a a' ha ha' => (hinv.answers o a ha).unique (hinv.answers o a' ha'), hinv.links⟩

/-- And where the settings of an organization are updated only so that the parameters stay, or once
its row names an account, or before any call for it is sent or under way, all calls for an organization
have equal parameters. -/
theorem connected_run {σ₀ : State} (hσ₀ : Unconnected σ₀) {s : Sys world}
    (h : Sys.Reach Request editConditions { state := σ₀ } s) : Connected s.state := by
  have hinv := (h.good (P := editProtocol) (fun _ hop => hop.safe.refines editProtocol_refines)
    (Sys.good_init hσ₀.equalCalls)).inv
  constructor
  · exact fun o input input' hinput hinput' => hinv.agree o input input' (.inl hinput) (.inl hinput')
  · exact hinv.mismatches
  · exact fun o a a' ha ha' => (hinv.answers o a ha).unique (hinv.answers o a' ha')
  · exact hinv.links

/-- A call for the organization is under way. -/
def Role.callsFor (organizationId : String) : Role → Bool
  | .calling o _ => decide (o = organizationId)
  | _ => false

instance : editConditions.Checkable where
  assume l r σ := match r with
    | .updating organizationId patch => (σ.find organizationId).all fun row =>
        decide ((patch.applyTo row).input = row.input) || row.stripeAccountId.isSome ||
          (σ.calls.all (fun call => decide (call.1 ≠ organizationId)) &&
            l.all fun role => !role.callsFor organizationId)
    | _ => true
  stable _ _ _ := true
  assume_sound {l r σ} h := by
    cases r with
    | updating o patch =>
      intro row hrow
      dsimp only at h
      rw [hrow, Option.all_some, Bool.or_eq_true, Bool.or_eq_true, Bool.and_eq_true] at h
      rcases h with (hsame | hnamed) | ⟨hcalls, hroles⟩
      · exact .inl (of_decide_eq_true hsame)
      · exact .inr (.inl hnamed)
      · refine .inr (.inr ?_)
        rintro input (hcall | hrole)
        · exact of_decide_eq_true (List.all_eq_true.mp hcalls _ hcall) rfl
        · simpa [Role.callsFor] using List.all_eq_true.mp hroles _ hrole
    | _ => trivial
  stable_sound _ := trivial

section Runs

def done : Nat → Outcome := fun _ => .done

/-- The registration's account is opened, but the answer is lost. -/
def lostAnswer : Nat → Outcome := fun k => if k = 1 then .lost else .done

def RegisterOrganizationRequest.sample : RegisterOrganizationRequest where
  email := "owner@example"
  country := "DE"
  entityType := .INDIVIDUAL

def emailPatch : OrganizationPatch where
  contactEmail := some "office@example"

/-- The office asks again for the account whose id was lost, and edits the address afterwards. -/
def editedAfterwards : List (Event world) :=
  [.start (register lostAnswer "acct_1" .sample "o"), .run 0, .run 0,
    .start (requestOnboardingLink done "acct_2" "o"), .run 1, .run 1, .run 1, .run 1,
    .start (updateSettings done "o" emailPatch), .run 2, .run 2,
    .start (requestOnboardingLink done "acct_3" "o"), .run 3, .run 3]

/-- The office edits the address before it asks again. -/
def editedBefore : List (Event world) :=
  [.start (register lostAnswer "acct_1" .sample "o"), .run 0, .run 0,
    .start (updateSettings done "o" emailPatch), .run 1, .run 1,
    .start (requestOnboardingLink done "acct_2" "o"), .run 2, .run 2]

theorem connected_run_sample :
    ∃ s, Sys.Reach Request editConditions { state := {} } s ∧
      s.state.calls.length = 2 ∧ s.state.links = [("o", "acct_1"), ("o", "acct_1")] ∧ Connected s.state := by
  have hexec : (Sys.exec editConditions { state := {} } editedAfterwards).map
      (fun s => (s.state.calls.length, s.state.links)) = some (2, [("o", "acct_1"), ("o", "acct_1")]) := by rfl
  obtain ⟨s, hs, hvalues⟩ := Option.map_eq_some_iff.mp hexec
  obtain ⟨hcalls, hlinks⟩ := Prod.mk.inj hvalues
  have hreach : Sys.Reach Request editConditions { state := {} } s := by
    refine .exec .refl ?_ hs
    simp [editedAfterwards, Sys.Starts, Request.register, Request.requestOnboardingLink, Request.updateSettings]
  exact ⟨s, hreach, hcalls, hlinks, connected_run ⟨by simp, rfl, rfl, rfl, rfl, rfl⟩ hreach⟩

/-- The second call has other parameters under the key, and is refused. -/
theorem connected_fails :
    ¬∀ s, Sys.Reach Request .none { state := {} } s → Connected s.state := by
  intro hall
  have hexec : (Sys.exec (W := world) .none { state := {} } editedBefore).map
      (fun s => s.state.mismatches.map fun call => call.2.email) = some ["office@example"] := by rfl
  obtain ⟨s, hs, hmismatches⟩ := Option.map_eq_some_iff.mp hexec
  have hreach : Sys.Reach Request .none { state := {} } s := by
    refine .exec .refl ?_ hs
    simp [editedBefore, Sys.Starts, Request.register, Request.requestOnboardingLink, Request.updateSettings]
  rw [(hall s hreach).mismatches] at hmismatches
  cases hmismatches

end Runs

end BookingApp.Connect
