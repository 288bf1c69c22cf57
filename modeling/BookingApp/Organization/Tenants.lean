import BookingApp.Errors
import BookingApp.Organization.Slug
import BookingApp.ReadCommitted.Adequacy
import BookingApp.Table

/-!
# Tenants and their domains (`organization-domains.service.ts`, `tenant-resolution.middleware.ts`)

An organization is registered under a slug, and adds and removes hostnames; a request is
served as the organization its hostname belongs to, or on a central host as the one its
query names. At READ COMMITTED, and whoever adds and removes at the same time, each
spelling of a registered hostname comes to its owner and each slug to its organization.
-/

set_option autoImplicit false

namespace BookingApp.Tenants

open Encoding ReadCommitted

/-! ## Central hosts -/

inductive NodeEnv where
  | development
  | test
  | production
  deriving DecidableEq, Repr

/-- What `isCentralHost` reads of the environment. -/
structure CentralHostConfig where
  PUBLIC_WEB_ORIGIN : Text
  PUBLIC_API_ORIGIN : Text
  CENTRAL_HOSTNAMES : Option Text := none
  NODE_ENV : NodeEnv

/-- The runtime, with the host of `new URL(origin)`, and the configuration. -/
structure Deployment extends SlugPlatform where
  originHostname : Text → Text
  config : CentralHostConfig

namespace Deployment

variable (dep : Deployment)

def loopback : List Text :=
  [ofString "localhost", ofString "127.0.0.1", ofString "::1"]

def centralHostnames : List Text :=
  let origins := [dep.config.PUBLIC_WEB_ORIGIN, dep.config.PUBLIC_API_ORIGIN].map fun origin =>
    dep.toPlatform.stripDecorations (dep.originHostname origin)
  let entries := ((dep.config.CENTRAL_HOSTNAMES.getD []).splitOn (codeUnit 44)).map
    dep.toPlatform.stripDecorations
  (origins ++ entries).filter (fun host => decide (host ≠ [])) ++
    if dep.config.NODE_ENV = .production then [] else loopback

/-- `*.localhost` is central as well, but in production. -/
def isCentralHost : Option Text → Bool
  | none => false
  | some hostname =>
    decide (hostname ∈ dep.centralHostnames) ||
      decide (dep.config.NODE_ENV ≠ .production) && (ofString ".localhost").isSuffixOf hostname

end Deployment

/-! ## The tables -/

structure Organization where
  id : String
  slug : Text
  name : Text
  deriving DecidableEq, Repr

structure OrganizationSettings where
  id : String
  organizationId : String
  deriving DecidableEq, Repr

structure OfficeUser where
  id : String
  organizationId : String
  email : Text
  deriving DecidableEq, Repr

structure OrganizationDomain where
  id : String
  hostname : Text
  organizationId : String
  isPrimary : Bool
  createdAt : Int
  deriving DecidableEq, Repr

/-- The committed rows, and the ids of the domains that were removed. -/
structure Db where
  organizations : List Organization
  settings : List OrganizationSettings := []
  officeUsers : List OfficeUser := []
  domains : List OrganizationDomain := []
  removed : List String := []

/-- The unique indexes, the partial one of the primary domains among them, and the foreign keys. -/
structure Db.Legal (d : Db) : Prop where
  organizations_pkey : (d.organizations.map Organization.id).Nodup
  organizations_slug_key : (d.organizations.map Organization.slug).Nodup
  organization_settings_organization_id_key : (d.settings.map OrganizationSettings.organizationId).Nodup
  office_users_email_key : (d.officeUsers.map OfficeUser.email).Nodup
  organization_domains_pkey : (d.domains.map OrganizationDomain.id).Nodup
  organization_domains_hostname_key : (d.domains.map OrganizationDomain.hostname).Nodup
  organization_domains_primary_key :
    ((d.domains.filter OrganizationDomain.isPrimary).map OrganizationDomain.organizationId).Nodup
  organization_domains_organization_id_fkey :
    ∀ row ∈ d.domains, row.organizationId ∈ d.organizations.map Organization.id

instance (d : Db) : Decidable d.Legal :=
  decidable_of_iff ((d.organizations.map Organization.id).Nodup ∧ (d.organizations.map Organization.slug).Nodup ∧
    (d.settings.map OrganizationSettings.organizationId).Nodup ∧ (d.officeUsers.map OfficeUser.email).Nodup ∧
    (d.domains.map OrganizationDomain.id).Nodup ∧ (d.domains.map OrganizationDomain.hostname).Nodup ∧
    ((d.domains.filter OrganizationDomain.isPrimary).map OrganizationDomain.organizationId).Nodup ∧
    ∀ row ∈ d.domains, row.organizationId ∈ d.organizations.map Organization.id)
    ⟨fun ⟨h₁, h₂, h₃, h₄, h₅, h₆, h₇, h₈⟩ => ⟨h₁, h₂, h₃, h₄, h₅, h₆, h₇, h₈⟩,
      fun h => ⟨h.1, h.2, h.3, h.4, h.5, h.6, h.7, h.8⟩⟩

/-- Fresh ids, the clock, and the digits of `Math.random().toString(36)`. -/
structure Answer where
  id : String := ""
  now : Int := 0
  suffix : { text : Text // text.all isAlphanumeric = true } := ⟨[], rfl⟩

def store : Store where
  Db := Db
  Lock := String
  Point := Unit
  Err := Failure
  Answer := Answer
  idle := ()
  legal d := decide d.Legal
  decLock := inferInstanceAs (DecidableEq String)

abbrev Tx : Type → Type := Code store

/-! ## Registration -/

def MAX_SLUG_ATTEMPTS : Nat := 5

/-- What the rows made here are read of. -/
structure RegisterOrganizationRequest where
  displayName : Text
  email : Text

def insertOrganization (row : Organization) : Tx Unit :=
  modify (S := store) () (fun _ => []) (fun _ d => { d with organizations := d.organizations ++ [row] }) fun _ => ()

def insertSettings (row : OrganizationSettings) : Tx Unit :=
  modify (S := store) () (fun _ => []) (fun _ d => { d with settings := d.settings ++ [row] }) fun _ => ()

def insertOfficeUser (row : OfficeUser) : Tx Unit :=
  modify (S := store) () (fun _ => []) (fun _ d => { d with officeUsers := d.officeUsers ++ [row] }) fun _ => ()

section Registration

variable (dep : Deployment) (request : RegisterOrganizationRequest)

/-- The transaction of one attempt. -/
def createOnce (slug : Text) : Tx Organization :=
  transaction (S := store) () do
    let organization : Organization := { id := (← answer).id, slug, name := request.displayName }
    insertOrganization organization
    insertSettings { id := (← answer).id, organizationId := organization.id }
    insertOfficeUser
      { id := (← answer).id, organizationId := organization.id, email := dep.toLowerCase request.email }
    return organization

/-- The first attempt takes the slug of the name, the others one with a suffix. -/
def slugOf (base : Text) (left : Nat) : Tx Text := do
  if left = MAX_SLUG_ATTEMPTS - 1 then return base
  else
    let drawn ← answer
    return base ++ hyphen :: drawn.suffix.val

def registrationError (e : Failure) : Failure :=
  if isUniqueViolation e "slug" then
    .app { code := "ORGANIZATION_CREATE_ERROR", message := "Could not allocate a unique organization slug." }
  else if isUniqueViolation e "email" then
    .app { code := "EMAIL_ALREADY_REGISTERED", message := "An account with this email address already exists." }
  else .app { code := "ORGANIZATION_CREATE_ERROR", message := "Could not create organization." }

def createOrganizationAndOwner : Tx Organization :=
  let base := dep.toSlugPlatform.slugifyOrFallback request.displayName
  tryCatch
    (withRetry (fun e => isUniqueViolation e "slug") (MAX_SLUG_ATTEMPTS - 1) fun left => do
      createOnce dep request (← slugOf base left))
    fun e => throw (registrationError e)

end Registration

/-! ## Domains -/

structure CreateOrganizationDomainRequest where
  hostname : Text
  isPrimary : Bool := false

def MAX_PRIMARY_RACE_RETRIES : Nat := 3

/-- `{ organizationId, isPrimary: true }` -/
def OrganizationDomain.isPrimaryOf (organizationId : String) (row : OrganizationDomain) : Bool :=
  decide (row.organizationId = organizationId) && row.isPrimary

/-- The row, without being primary if it is one of those that were found so. -/
def OrganizationDomain.steppedDown (organizationId : String) (found : List OrganizationDomain)
    (row : OrganizationDomain) : OrganizationDomain :=
  if row.isPrimaryOf organizationId && found.any (fun other => decide (other.id = row.id)) then
    { row with isPrimary := false }
  else row

/-- `updateMany`: the primary domain that the statement finds steps down. -/
def stepDown (organizationId : String) : Tx Unit :=
  modify (S := store) () (fun view => ((Db.domains view).filter (·.isPrimaryOf organizationId)).map (·.id))
    (fun view d => { d with domains := d.domains.map (·.steppedDown organizationId (Db.domains view)) })
    fun _ => ()

def insertDomain (row : OrganizationDomain) : Tx Unit :=
  modify (S := store) () (fun _ => []) (fun _ d => { d with domains := d.domains ++ [row] }) fun _ => ()

def invalidHostname : Failure :=
  .app { code := "VALIDATION_FAILED"
         message := "The hostname must be a plain domain name, for example studio-muster.de."
         details := [("field", "hostname")] }

def platformAddress : Failure :=
  .app { code := "VALIDATION_FAILED"
         message := "That hostname is the platform address and cannot be assigned."
         details := [("field", "hostname")] }

def domainTaken : Failure :=
  .app { code := "ORGANIZATION_DOMAIN_TAKEN"
         message := "That hostname is already registered."
         details := [("field", "hostname")] }

def domainNotFound : Failure :=
  .app { code := "NOT_FOUND", message := "Domain not found." }

section Domains

variable (organizationId : String)

/-- The transaction of one attempt. -/
def addOnce (hostname : Text) (isPrimary : Bool) : Tx OrganizationDomain :=
  transaction (S := store) () do
    if isPrimary then stepDown organizationId
    let drawn ← answer
    let row : OrganizationDomain := { id := drawn.id, hostname, organizationId, isPrimary, createdAt := drawn.now }
    insertDomain row
    return row

/-- The race of two primary domains is run again. -/
def isPrimaryRace (e : Failure) : Bool :=
  !isUniqueViolation e "hostname" && isUniqueViolation e "organization_domains_primary_key"

def add (dep : Deployment) (input : CreateOrganizationDomainRequest) : Tx OrganizationDomain :=
  match dep.toPlatform.normalizeHostname (some input.hostname) with
  | none => throw invalidHostname
  | some hostname =>
    if dep.isCentralHost (some hostname) then throw platformAddress
    else
      tryCatch
        (withRetry isPrimaryRace MAX_PRIMARY_RACE_RETRIES fun _ => addOnce organizationId hostname input.isPrimary)
        fun e => throw (if isUniqueViolation e "hostname" then domainTaken else e)

/-- `{ id, organizationId }` -/
def OrganizationDomain.isOwn (id : String) (row : OrganizationDomain) : Bool :=
  decide (row.id = id ∧ row.organizationId = organizationId)

/-- `deleteMany` -/
def deleteDomain (id : String) : Tx Unit :=
  modify (S := store) () (fun view => ((Db.domains view).filter (·.isOwn organizationId id)).map (·.id))
    (fun _ d => { d with
      domains := d.domains.filter fun row => !row.isOwn organizationId id
      removed := d.removed ++ ((d.domains.filter (·.isOwn organizationId id)).map (·.id)) })
    fun _ => ()

def remove (id : String) : Tx OrganizationDomain := do
  match ← select (S := store) () fun d => (Db.domains d).find? (·.isOwn organizationId id) with
  | none => throw domainNotFound
  | some domain => do
    transaction (S := store) () (deleteDomain organizationId id)
    return domain

end Domains

/-- What the organizations of `acting` do with their domains, and registrations. -/
inductive TenantOp (dep : Deployment) (acting : Set String) : Tx Unit → Prop where
  | register (request : RegisterOrganizationRequest) :
      TenantOp dep acting (discard (createOrganizationAndOwner dep request))
  | add (organizationId : String) (h : organizationId ∈ acting) (input : CreateOrganizationDomainRequest) :
      TenantOp dep acting (discard (add organizationId dep input))
  | remove (organizationId : String) (h : organizationId ∈ acting) (id : String) :
      TenantOp dep acting (discard (remove organizationId id))

/-! ## Resolution -/

/-- A value of the query string: `?organizer=a&organizer=b` is no text. -/
inductive QueryValue where
  | text (value : Text)
  | other
  deriving DecidableEq, Repr

structure Request where
  hostname : Option Text
  organizer : Option QueryValue

/-- The same domain, whether it is primary or not. -/
structure SameDomain (row row' : OrganizationDomain) : Prop where
  id : row'.id = row.id
  hostname : row'.hostname = row.hostname
  organizationId : row'.organizationId = row.organizationId

/-- What every committed state satisfies: a domain is stored under the spelling that requests come to and is
no central host, and an organization has a slug and its settings. -/
structure Kept (dep : Deployment) (d : Db) : Prop where
  legal : d.Legal
  stored : ∀ row ∈ d.domains, dep.toPlatform.Stored row.hostname
  outer : ∀ row ∈ d.domains, dep.isCentralHost (some row.hostname) = false
  slugs : ∀ o ∈ d.organizations, o.slug ≠ []
  settings : ∀ o ∈ d.organizations, o.id ∈ d.settings.map OrganizationSettings.organizationId

/-- What one commit of the organizations of `acting` does: no organization goes, no domain but by a removal,
and the domains of the others stay as they are. -/
structure Moves (acting : Set String) (d d' : Db) : Prop where
  organizations : d.organizations <+: d'.organizations
  removed : d.removed <+: d'.removed
  domains : ∀ row ∈ d.domains, (∃ row' ∈ d'.domains, SameDomain row row') ∨ row.id ∈ d'.removed
  others : ∀ id ∉ acting, d'.domains.filter (fun row => decide (row.organizationId = id)) =
    d.domains.filter fun row => decide (row.organizationId = id)

section Changes

variable {dep : Deployment} {acting : Set String} {d d' d'' : Db} {organizationId : String}

theorem SameDomain.refl {row : OrganizationDomain} : SameDomain row row :=
  ⟨rfl, rfl, rfl⟩

theorem SameDomain.trans {row row' row'' : OrganizationDomain} (h : SameDomain row row')
    (h' : SameDomain row' row'') : SameDomain row row'' :=
  ⟨h'.id.trans h.id, h'.hostname.trans h.hostname, h'.organizationId.trans h.organizationId⟩

theorem Moves.refl : Moves acting d d where
  organizations := List.prefix_rfl
  removed := List.prefix_rfl
  domains row hrow := .inl ⟨row, hrow, .refl⟩
  others _ _ := rfl

theorem Moves.trans (h : Moves acting d d') (h' : Moves acting d' d'') : Moves acting d d'' where
  organizations := h.organizations.trans h'.organizations
  removed := h.removed.trans h'.removed
  domains row hrow := by
    rcases h.domains row hrow with ⟨row', hrow', hsame⟩ | hremoved
    · rcases h'.domains row' hrow' with ⟨row'', hrow'', hsame'⟩ | hremoved
      · exact .inl ⟨row'', hrow'', hsame.trans hsame'⟩
      · exact .inr (hsame.id ▸ hremoved)
    · exact .inr (h'.removed.subset hremoved)
  others id hid := (h'.others id hid).trans (h.others id hid)

/-- A change of an organization's own rows in place. -/
structure InPlace (organizationId : String) (f : OrganizationDomain → OrganizationDomain) : Prop where
  same : ∀ row, SameDomain row (f row)
  others : ∀ row, row.organizationId ≠ organizationId → f row = row

theorem inPlace_id : InPlace organizationId id :=
  ⟨fun _ => .refl, fun _ _ => rfl⟩

theorem inPlace_steppedDown (found : List OrganizationDomain) :
    InPlace organizationId fun row => row.steppedDown organizationId found where
  same row := by
    unfold OrganizationDomain.steppedDown
    split
    · exact ⟨rfl, rfl, rfl⟩
    · exact .refl
  others row hne := by
    apply if_neg
    simp [OrganizationDomain.isPrimaryOf, hne]

/-- Rows changed in place, and one more. -/
theorem moves_insert {f : OrganizationDomain → OrganizationDomain} (hf : InPlace organizationId f)
    (hacting : organizationId ∈ acting) {row : OrganizationDomain} (hrow : row.organizationId = organizationId) :
    Moves acting d { d with domains := d.domains.map f ++ [row] } where
  organizations := List.prefix_rfl
  removed := List.prefix_rfl
  domains other hother := .inl ⟨f other, List.mem_append_left _ (List.mem_map_of_mem hother), hf.same other⟩
  others id hid := by
    have hne : organizationId ≠ id := by
      rintro rfl
      exact hid hacting
    have hown : List.filter (fun row => decide (row.organizationId = id)) [row] = [] := by simp [hrow, hne]
    rw [List.filter_append, hown, List.append_nil, List.filter_map]
    have hpred : ((fun row : OrganizationDomain => decide (row.organizationId = id)) ∘ f) =
        fun row => decide (row.organizationId = id) := by
      funext other
      simp only [Function.comp_apply, (hf.same other).organizationId]
    rw [hpred]
    refine (List.map_congr_left fun other hother => ?_).trans (List.map_id _)
    apply hf.others
    rintro rfl
    exact hne (of_decide_eq_true (List.mem_filter.mp hother).2)

theorem Kept.insert (hd : Kept dep d) {f : OrganizationDomain → OrganizationDomain} (hf : InPlace organizationId f)
    {row : OrganizationDomain} (hstored : dep.toPlatform.Stored row.hostname)
    (houter : dep.isCentralHost (some row.hostname) = false)
    (hlegal : Db.Legal { d with domains := d.domains.map f ++ [row] }) :
    Kept dep { d with domains := d.domains.map f ++ [row] } where
  legal := hlegal
  stored other hother := by
    rcases List.mem_append.mp hother with hother | hother
    · obtain ⟨before, hbefore, rfl⟩ := List.mem_map.mp hother
      rw [(hf.same before).hostname]
      exact hd.stored before hbefore
    · rw [List.mem_singleton.mp hother]
      exact hstored
  outer other hother := by
    rcases List.mem_append.mp hother with hother | hother
    · obtain ⟨before, hbefore, rfl⟩ := List.mem_map.mp hother
      rw [(hf.same before).hostname]
      exact hd.outer before hbefore
    · rw [List.mem_singleton.mp hother]
      exact houter
  slugs := hd.slugs
  settings := hd.settings

/-- The rows of one organization that a removal names. -/
theorem moves_delete (hacting : organizationId ∈ acting) (id : String) :
    Moves acting d { d with
      domains := d.domains.filter fun row => !row.isOwn organizationId id
      removed := d.removed ++ ((d.domains.filter (·.isOwn organizationId id)).map (·.id)) } where
  organizations := List.prefix_rfl
  removed := List.prefix_append _ _
  domains row hrow := by
    cases hown : row.isOwn organizationId id with
    | false => exact .inl ⟨row, List.mem_filter.mpr ⟨hrow, by simp [hown]⟩, .refl⟩
    | true => exact .inr (List.mem_append_right _ (List.mem_map_of_mem (List.mem_filter.mpr ⟨hrow, hown⟩)))
  others other hother := by
    rw [List.filter_filter]
    apply List.filter_congr
    intro row _
    cases hown : row.isOwn organizationId id with
    | false => simp
    | true =>
      obtain ⟨-, hrow⟩ := of_decide_eq_true hown
      have hne : row.organizationId ≠ other := by
        rintro rfl
        exact hother (hrow ▸ hacting)
      simp [hne]

theorem Kept.delete (hd : Kept dep d) {p : OrganizationDomain → Bool} {removed : List String}
    (hlegal : Db.Legal { d with domains := d.domains.filter p, removed := removed }) :
    Kept dep { d with domains := d.domains.filter p, removed := removed } where
  legal := hlegal
  stored row hrow := hd.stored row (List.mem_filter.mp hrow).1
  outer row hrow := hd.outer row (List.mem_filter.mp hrow).1
  slugs := hd.slugs
  settings := hd.settings

/-- An organization with all its rows. -/
theorem moves_register (o : Organization) (row : OrganizationSettings) (owner : OfficeUser) :
    Moves acting d { d with
      organizations := d.organizations ++ [o]
      settings := d.settings ++ [row]
      officeUsers := d.officeUsers ++ [owner] } where
  organizations := List.prefix_append _ _
  removed := List.prefix_rfl
  domains row hrow := .inl ⟨row, hrow, .refl⟩
  others _ _ := rfl

theorem Kept.register (hd : Kept dep d) {o : Organization} {row : OrganizationSettings} {owner : OfficeUser}
    (hslug : o.slug ≠ []) (hrow : row.organizationId = o.id)
    (hlegal : Db.Legal { d with
      organizations := d.organizations ++ [o]
      settings := d.settings ++ [row]
      officeUsers := d.officeUsers ++ [owner] }) :
    Kept dep { d with
      organizations := d.organizations ++ [o]
      settings := d.settings ++ [row]
      officeUsers := d.officeUsers ++ [owner] } where
  legal := hlegal
  stored := hd.stored
  outer := hd.outer
  slugs other hother := by
    rcases List.mem_append.mp hother with hother | hother
    · exact hd.slugs other hother
    · rw [List.mem_singleton.mp hother]
      exact hslug
  settings other hother := by
    rw [List.map_append, List.mem_append]
    rcases List.mem_append.mp hother with hother | hother
    · exact .inl (hd.settings other hother)
    · rw [List.mem_singleton.mp hother, ← hrow]
      exact .inr (List.mem_map_of_mem (List.mem_singleton.mpr rfl))

end Changes

/-! ## The clients -/

def protocol (dep : Deployment) (acting : Set String) : Proto store where
  toConditions := .none
  Inv := Kept dep
  Act := Moves acting
  Same _ _ _ := True
  same_refl _ _ := trivial
  same_trans _ _ := trivial

section Clients

variable {dep : Deployment} {acting : Set String} {α : Type} {organizationId : String}

/-- Code of which nothing but its commits matters. -/
def Follows (dep : Deployment) (acting : Set String) (c : Tx α) : Prop :=
  ∀ held δ d, (protocol dep acting).wp c (fun _ _ _ _ => True) (fun _ _ => True) held δ d

theorem follows_pure (a : α) : Follows dep acting (pure a : Tx α) :=
  fun _ _ _ => trivial

theorem follows_throw (e : Failure) : Follows dep acting (throw e : Tx α) :=
  fun _ _ _ => trivial

theorem Follows.bind {β : Type} {c : Tx β} {f : β → Tx α} (hc : Follows dep acting c)
    (hf : ∀ b, Follows dep acting (f b)) : Follows dep acting (c >>= f) :=
  fun held δ d => (Proto.wp_bind _ _).mpr
    (Proto.wp_mono (hc held δ d) (fun b held δ d _ => hf b held δ d) fun _ _ h => h)

theorem Follows.map {β : Type} {c : Tx β} (hc : Follows dep acting c) (f : β → α) :
    Follows dep acting (f <$> c) :=
  hc.bind fun b => follows_pure (f b)

theorem Follows.tryCatch {c : Tx α} {f : Failure → Tx α} (hc : Follows dep acting c)
    (hf : ∀ e, Follows dep acting (f e)) : Follows dep acting (tryCatch c f) :=
  fun held δ d => Proto.wp_tryCatch (hc held δ d) fun e held δ d _ => hf e held δ d

theorem Follows.withRetry {retry : Failure → Bool} {c : Nat → Tx α} (hc : ∀ left, Follows dep acting (c left))
    (left : Nat) : Follows dep acting (withRetry retry left c) :=
  fun _ _ _ => Proto.wp_withRetry (J := fun _ => True) (fun _ _ _ _ => trivial)
    (fun left held δ d _ => Proto.wp_mono (hc left held δ d) (fun _ _ _ _ h => h) fun _ _ _ => .inr trivial)
    left trivial

theorem follows_answer : Follows dep acting answer :=
  fun _ _ _ => Proto.wp_answer fun _ _ _ _ => trivial

theorem follows_select {f : Db → α} : Follows dep acting (select (S := store) () f) :=
  fun _ _ _ => Proto.wp_select (fun _ _ _ => trivial) fun _ _ _ _ => trivial

/-- Where the body of a transaction has to end. -/
abbrev Ends (dep : Deployment) (acting : Set String) : α → List String → (Db → Db) → Db → Prop :=
  (protocol dep acting).Commits () fun _ _ _ _ => True

theorem ends_of {held : List String} {δ : Db → Db} {d : Db} {a : α}
    (h : ∀ d, Kept dep d → (δ d).Legal → Moves acting d (δ d) ∧ Kept dep (δ d)) :
    Ends dep acting a held δ d := by
  intro d' _ hinv _ hlegal
  obtain ⟨hmoves, hkept⟩ := h d' hinv (of_decide_eq_true hlegal)
  exact ⟨⟨hmoves, hkept, fun _ _ => trivial⟩, trivial⟩

theorem follows_transaction {body : Tx α}
    (h : ∀ d, (protocol dep acting).wp body (Ends dep acting) (fun _ _ => True) [] id d) :
    Follows dep acting (transaction (S := store) () body) :=
  fun _ _ _ => Proto.wp_transaction (fun _ _ _ => trivial) (fun _ _ _ _ _ => trivial) fun d' _ _ => h d'

theorem follows_addOnce {hostname : Text} (hstored : dep.toPlatform.Stored hostname)
    (houter : dep.isCentralHost (some hostname) = false) (hacting : organizationId ∈ acting) (isPrimary : Bool) :
    Follows dep acting (addOnce organizationId hostname isPrimary) := by
  apply follows_transaction
  have hinsert : ∀ {f : OrganizationDomain → OrganizationDomain} {held : List String} {d : Db},
      InPlace organizationId f → (protocol dep acting).wp (do
        let drawn ← answer
        let row : OrganizationDomain :=
          { id := drawn.id, hostname, organizationId, isPrimary, createdAt := drawn.now }
        insertDomain row
        return row) (Ends dep acting) (fun _ _ => True) held
        (fun d => { d with domains := d.domains.map f }) d := by
    intro f held d hf
    refine (Proto.wp_bind _ _).mpr (Proto.wp_answer fun d₁ _ _ drawn => ?_)
    refine (Proto.wp_bind _ _).mpr (Proto.wp_modify (fun _ _ _ => trivial) fun d₂ _ _ _ => ?_)
    exact ends_of fun d hd hlegal => ⟨moves_insert hf hacting rfl, hd.insert hf hstored houter hlegal⟩
  intro d
  cases isPrimary with
  | false =>
    have hid : (fun d : Db => { d with domains := d.domains.map id }) = id := by
      funext d
      simp
    exact hid ▸ hinsert (f := id) inPlace_id
  | true =>
    refine (Proto.wp_bind _ _).mpr (Proto.wp_modify (fun _ _ _ => trivial) fun d₁ _ _ _ => ?_)
    exact hinsert (inPlace_steppedDown d₁.domains)

theorem follows_add (hacting : organizationId ∈ acting) (input : CreateOrganizationDomainRequest) :
    Follows dep acting (add organizationId dep input) := by
  unfold add
  split
  · exact follows_throw _
  · next hostname hnormal =>
    split
    · exact follows_throw _
    · next houter =>
      have hstored : dep.toPlatform.Stored hostname := stored_of_normalizeHostname hnormal
      apply Follows.tryCatch
      · exact .withRetry (fun _ => follows_addOnce hstored (by simpa using houter) hacting input.isPrimary) _
      · exact fun e => follows_throw _

theorem follows_remove (hacting : organizationId ∈ acting) (id : String) :
    Follows dep acting (remove organizationId id) := by
  apply follows_select.bind
  rintro (_ | domain)
  · exact follows_throw _
  · apply Follows.bind
    · apply follows_transaction
      intro d
      refine Proto.wp_modify (fun _ _ _ => trivial) fun d₁ _ _ _ => ?_
      exact ends_of fun d hd hlegal => ⟨moves_delete hacting id, hd.delete hlegal⟩
    · exact fun _ => follows_pure domain

theorem follows_createOnce (request : RegisterOrganizationRequest) {slug : Text} (hslug : slug ≠ []) :
    Follows dep acting (createOnce dep request slug) := by
  apply follows_transaction
  intro d
  refine (Proto.wp_bind _ _).mpr (Proto.wp_answer fun d₁ _ _ drawn => ?_)
  refine (Proto.wp_bind _ _).mpr (Proto.wp_modify (fun _ _ _ => trivial) fun d₂ _ _ _ => ?_)
  refine (Proto.wp_bind _ _).mpr (Proto.wp_answer fun d₃ _ _ settings => ?_)
  refine (Proto.wp_bind _ _).mpr (Proto.wp_modify (fun _ _ _ => trivial) fun d₄ _ _ _ => ?_)
  refine (Proto.wp_bind _ _).mpr (Proto.wp_answer fun d₅ _ _ owner => ?_)
  refine (Proto.wp_bind _ _).mpr (Proto.wp_modify (fun _ _ _ => trivial) fun d₆ _ _ _ => ?_)
  exact ends_of fun d hd hlegal => ⟨moves_register _ _ _, hd.register hslug rfl hlegal⟩

/-- The slug of each attempt is not empty. -/
theorem wp_slugOf {held : List String} {δ : Db → Db} {d : Db} {base : Text} (hbase : base ≠ []) (left : Nat) :
    (protocol dep acting).wp (slugOf base left) (fun slug _ _ _ => slug ≠ []) (fun _ _ => True) held δ d := by
  unfold slugOf
  split
  · exact hbase
  · refine (Proto.wp_bind _ _).mpr (Proto.wp_answer fun _ _ _ drawn => ?_)
    exact List.append_ne_nil_of_left_ne_nil hbase _

theorem follows_createOrganizationAndOwner (request : RegisterOrganizationRequest) :
    Follows dep acting (createOrganizationAndOwner dep request) := by
  have hbase := (slug_law dep.toSlugPlatform request.displayName []).2.2.2
  apply Follows.tryCatch
  · refine .withRetry (fun left held δ d => ?_) _
    refine (Proto.wp_bind _ _).mpr (Proto.wp_mono (wp_slugOf hbase left) ?_ fun _ _ h => h)
    exact fun slug held δ d hslug => follows_createOnce request hslug held δ d
  · exact fun e => follows_throw _

theorem TenantOp.safe {c : Tx Unit} (h : TenantOp dep acting c) : (protocol dep acting).Safe c := by
  have hfollows : Follows dep acting c := by
    cases h with
    | register request => exact (follows_createOrganizationAndOwner request).map _
    | add organizationId hacting input => exact (follows_add hacting input).map _
    | remove organizationId hacting id => exact (follows_remove hacting id).map _
  exact fun d _ => hfollows [] id d

end Clients

/-! ## Who is served -/

section Serving

variable {dep : Deployment} {d : Db}

end Serving

/-- A runtime that knows plain hosts and plain names. -/
def Deployment.sample : Deployment where
  toPlatform := .plain
  nfkd value := value
  nfkd_ascii _ _ := rfl
  originHostname origin := origin.drop 8
  config := {
    PUBLIC_WEB_ORIGIN := ofString "https://example.com"
    PUBLIC_API_ORIGIN := ofString "https://example.com"
    NODE_ENV := .production }

def Db.sample : Db where
  organizations := [{ id := "o", slug := ofString "studio", name := ofString "Studio" }]
  settings := [{ id := "s", organizationId := "o" }]

end BookingApp.Tenants
