import BookingApp.Messaging.Canonical
import BookingApp.Organization.Hostname

/-!
# What the audit trail records (`common/audit`, `booking/audit.service.ts`)

A row of the trail is written by an interceptor or by a service, and each has a redaction of its own.
Requests leave the same row when they differ in what stands under a secret name only (`Alike`), and
the redacted values tell everything else apart. The two redactions agree on a value exactly
when it spells the secret names as the list of them does and leaves no member undefined.
-/

set_option autoImplicit false

namespace BookingApp.Audit

open Encoding

/-- A value of the program. The objects that are not plain are dates, which have a JSON text. -/
inductive Value where
  | undefined
  | null
  | bool (value : Bool)
  | num (value : Rat)
  | str (value : Text)
  | date (iso : Text)
  | arr (items : List Value)
  | obj (members : List (Text × Value))

/-- What must never appear in a log line. -/
def REDACT_PATHS : List Text := [
    "req.headers.authorization", "req.headers.cookie", "req.headers[\"set-cookie\"]",
    "req.headers[\"idempotency-key\"]", "headers.authorization", "headers.cookie", "headers[\"idempotency-key\"]",
    "password", "newPassword", "currentPassword", "body.password", "body.newPassword", "body.currentPassword",
    "req.body.password", "req.body.newPassword", "req.body.currentPassword",
    "token", "tokenHash", "idempotencyKey", "managementToken", "onboardingLink", "*.token", "*.tokenHash",
    "*.idempotencyKey", "*.managementToken", "*.onboardingLink",
    "email", "phone", "emailNormalized", "customerNote", "*.email", "*.phone", "*.emailNormalized",
    "*.customerNote", "body.customer.email", "body.customer.phone", "body.customerNote",
    "req.body.customer.email", "req.body.customer.phone", "req.body.customerNote"].map ofString

def REDACT_CENSOR : Text := ofString "[Redacted]"

def quoteMark : CodeUnit := codeUnit 0x22
def openBracket : CodeUnit := codeUnit 0x5B
def closeBracket : CodeUnit := codeUnit 0x5D

/-- The last of `path.split('.')`. -/
def lastDotted (path : Text) : Text :=
  (path.reverse.takeWhile fun u => decide (u ≠ codeUnit 0x2E)).reverse

/-- `/\["([^"]+)"\]$/` -/
def quotedName (path : Text) : Option Text :=
  match path.reverse with
  | last :: mark :: rest =>
    let name := rest.takeWhile fun u => decide (u ≠ quoteMark)
    if last = closeBracket ∧ mark = quoteMark ∧ name ≠ [] ∧
        (rest.drop name.length).take 2 = [quoteMark, openBracket] then some name.reverse
    else none
  | _ => none

/-- `req.headers["set-cookie"]` becomes `set-cookie`, and `*.token` becomes `token`. -/
def lastSegment (path : Text) : Text :=
  (quotedName path).getD (lastDotted path)

/-- The name between a bracket and the one that ends the path, with or without quotes. -/
def bracketName : Text → Option Text
  | [] => none
  | u :: rest =>
    let inner := if rest.head? = some quoteMark then rest.tail else rest
    let name := inner.takeWhile fun v => decide (v ≠ quoteMark ∧ v ≠ closeBracket)
    let after := inner.drop name.length
    if u = openBracket ∧ name ≠ [] ∧ (if after.head? = some quoteMark then after.tail else after) = [closeBracket]
    then some name
    else bracketName rest

/-- The field a redaction path ends in. -/
def lastField (path : Text) : Text :=
  (bracketName path).getD (lastDotted path)

/-- The field names that the interceptor looks for, in lower case. -/
def AUDIT_REDACTED_KEYS (p : Platform) : List Text :=
  (REDACT_PATHS.map lastSegment).map p.toLowerCase

/-- The field names that the service looks for. -/
def REDACTED_FIELDS : List Text :=
  REDACT_PATHS.map lastField

/-- `AUDIT_REDACTED_KEYS.has(key.toLowerCase())` -/
def Secret (p : Platform) (key : Text) : Prop :=
  p.toLowerCase key ∈ AUDIT_REDACTED_KEYS p

instance (p : Platform) (key : Text) : Decidable (Secret p key) :=
  inferInstanceAs (Decidable (_ ∈ _))

instance (key : Text) : Decidable (key ∈ REDACTED_FIELDS) :=
  decidable_of_iff (REDACTED_FIELDS.contains key = true) List.contains_iff_mem

section Redaction

variable (p : Platform)

mutual

/-- The redaction of the interceptor. -/
def redactForAudit : Value → Value
  | .arr items => .arr (redactItems items)
  | .obj members => .obj (redactMembers members)
  | value => value

def redactItems : List Value → List Value
  | [] => []
  | item :: rest => redactForAudit item :: redactItems rest

def redactMembers : List (Text × Value) → List (Text × Value)
  | [] => []
  | (key, entry) :: rest =>
    (key, if Secret p key then .str REDACT_CENSOR else redactForAudit entry) :: redactMembers rest

end

end Redaction

mutual

/-- What `JSON.parse(JSON.stringify(value))` gives, if `JSON.stringify` gives a text. -/
def serialised : Value → Option (Json Text)
  | .undefined => none
  | .null => some .null
  | .bool value => some (.bool value)
  | .num value => some (.num value)
  | .str value => some (.str value)
  | .date iso => some (.str iso)
  | .arr items => some (.arr (serialisedItems items))
  | .obj members => some (.obj (serialisedMembers members))

/-- What has no text is `null` in an array. -/
def serialisedItems : List Value → List (Json Text)
  | [] => []
  | item :: rest => (serialised item).getD .null :: serialisedItems rest

/-- What has no text is left out of an object. -/
def serialisedMembers : List (Text × Value) → List (Text × Json Text)
  | [] => []
  | (key, entry) :: rest => ((serialised entry).map fun json => (key, json)).toList ++ serialisedMembers rest

end

/-- Redacted, and reduced to what a JSONB column can hold. -/
def toJson (p : Platform) (value : Value) : Json Text :=
  (serialised (redactForAudit p value)).getD .null

mutual

/-- The redaction of the service. -/
def redact : Value → Json Text
  | .undefined => .null
  | .null => .null
  | .bool value => .bool value
  | .num value => .num value
  | .str value => .str value
  | .date iso => .str iso
  | .arr items => .arr (redactArray items)
  | .obj members => .obj (redactRecord members)

def redactArray : List Value → List (Json Text)
  | [] => []
  | item :: rest => redact item :: redactArray rest

def redactRecord : List (Text × Value) → List (Text × Json Text)
  | [] => []
  | (key, item) :: rest =>
    (key, if key ∈ REDACTED_FIELDS then .str REDACT_CENSOR else redact item) :: redactRecord rest

end

/-- The value, if it is a text. -/
def Value.string : Value → Option Text
  | .str value => some value
  | _ => none

/-- `record[key]`, if it is a text. -/
def Value.text (key : Text) : Value → Option Text
  | .obj members => (members.lookup key).bind Value.string
  | _ => none

/-- Whether `??` goes on to its other side. -/
def Value.nullish : Value → Bool
  | .undefined => true
  | .null => true
  | _ => false

structure AuditSpec where
  action : String
  entityType : String
  responseIdField : Option Text := none

/-- What a handler leaves for the row of its request. -/
structure AuditDetail where
  entityId : Option Text := none
  summary : Option Text := none
  before : Value := .undefined
  after : Value := .undefined

structure AuditSession where
  organizationId : String
  officeUserId : String

/-- What the interceptor reads of a request. -/
structure AuditableRequest where
  session : Option AuditSession
  detail : AuditDetail
  paramId : Option Text
  ip : Option String

structure AuditLog where
  organizationId : String
  officeUserId : String
  action : String
  entityType : String
  entityId : Text
  summary : Text
  before : Option (Json Text)
  after : Json Text
  correlationId : String
  ipAddress : Option String

/-- The id in a response body, when it has one. -/
def idFrom (body : Value) (field : Option Text) : Option Text :=
  (body.text (field.getD (ofString "id"))).or (body.text (ofString "id"))

/-- The row of one successful request; without a session there is none. -/
def auditRow (p : Platform) (spec : AuditSpec) (request : AuditableRequest) (body : Value) (correlation : String) :
    Option AuditLog := do
  let session ← request.session
  let detail := request.detail
  let entityId := ((detail.entityId.or (idFrom body spec.responseIdField)).or request.paramId).getD (ofString "-")
  return {
    organizationId := session.organizationId
    officeUserId := session.officeUserId
    action := spec.action
    entityType := spec.entityType
    entityId
    summary := detail.summary.getD
      (ofString spec.action ++ ofString " " ++ ofString spec.entityType ++ ofString " " ++ entityId)
    before := match detail.before with
      | .undefined => none
      | before => some (toJson p before)
    after := toJson p (if detail.after.nullish then body else detail.after)
    correlationId := correlation
    ipAddress := request.ip }

/-! ## What the redactions do to a value -/

theorem Value.induct {motive : Value → Prop} (undefined : motive .undefined) (null : motive .null)
    (bool : ∀ value, motive (.bool value)) (num : ∀ value, motive (.num value)) (str : ∀ value, motive (.str value))
    (date : ∀ iso, motive (.date iso)) (arr : ∀ items, (∀ item ∈ items, motive item) → motive (.arr items))
    (obj : ∀ members, (∀ entry ∈ members, motive entry.2) → motive (.obj members)) (value : Value) : motive value :=
  @Value.rec motive (fun items => ∀ item ∈ items, motive item) (fun members => ∀ entry ∈ members, motive entry.2)
    (fun entry => motive entry.2) undefined null bool num str date arr obj (List.forall_mem_nil _)
    (fun _ _ hitem hrest => List.forall_mem_cons.mpr ⟨hitem, hrest⟩) (List.forall_mem_nil _)
    (fun _ _ hentry hrest => List.forall_mem_cons.mpr ⟨hentry, hrest⟩) (fun _ _ h => h) value

section Maps

variable (p : Platform)

def redactMember (entry : Text × Value) : Text × Value :=
  (entry.1, if Secret p entry.1 then .str REDACT_CENSOR else redactForAudit p entry.2)

def redactField (entry : Text × Value) : Text × Json Text :=
  (entry.1, if entry.1 ∈ REDACTED_FIELDS then .str REDACT_CENSOR else redact entry.2)

theorem redactItems_eq_map (items : List Value) : redactItems p items = items.map (redactForAudit p) := by
  induction items with
  | nil => rfl
  | cons item rest ih => rw [redactItems, ih, List.map_cons]

theorem redactMembers_eq_map (members : List (Text × Value)) :
    redactMembers p members = members.map (redactMember p) := by
  induction members with
  | nil => rfl
  | cons entry rest ih =>
    rw [redactMembers, ih, List.map_cons]
    rfl

theorem serialisedItems_eq_map (items : List Value) :
    serialisedItems items = items.map fun item => (serialised item).getD .null := by
  induction items with
  | nil => rfl
  | cons item rest ih => rw [serialisedItems, ih, List.map_cons]

theorem serialisedMembers_eq_filterMap (members : List (Text × Value)) : serialisedMembers members =
    members.filterMap fun entry => (serialised entry.2).map fun json => (entry.1, json) := by
  induction members with
  | nil => rfl
  | cons entry rest ih =>
    rw [serialisedMembers, ih, List.filterMap_cons]
    cases serialised entry.2 <;> rfl

theorem redactArray_eq_map (items : List Value) : redactArray items = items.map redact := by
  induction items with
  | nil => rfl
  | cons item rest ih => rw [redactArray, ih, List.map_cons]

theorem redactRecord_eq_map (members : List (Text × Value)) : redactRecord members = members.map redactField := by
  induction members with
  | nil => rfl
  | cons entry rest ih =>
    rw [redactRecord, ih, List.map_cons]
    rfl

end Maps

section Alike

variable (secret : Text → Prop)

mutual

/-- The values differ in what stands under a secret name only. -/
def Alike : Value → Value → Prop
  | .undefined, .undefined => True
  | .null, .null => True
  | .bool value, .bool value' => value = value'
  | .num value, .num value' => value = value'
  | .str value, .str value' => value = value'
  | .date iso, .date iso' => iso = iso'
  | .arr items, .arr items' => AlikeItems items items'
  | .obj members, .obj members' => AlikeMembers members members'
  | _, _ => False

def AlikeItems : List Value → List Value → Prop
  | [], [] => True
  | item :: rest, item' :: rest' => Alike item item' ∧ AlikeItems rest rest'
  | _, _ => False

def AlikeMembers : List (Text × Value) → List (Text × Value) → Prop
  | [], [] => True
  | (key, entry) :: rest, (key', entry') :: rest' =>
    key = key' ∧ (secret key ∨ Alike entry entry') ∧ AlikeMembers rest rest'
  | _, _ => False

end

/-- The members one by one. -/
def AlikeMember (entry entry' : Text × Value) : Prop :=
  entry.1 = entry'.1 ∧ (secret entry.1 ∨ Alike secret entry.2 entry'.2)

variable {secret}

theorem alikeItems_iff {items items' : List Value} :
    AlikeItems secret items items' ↔ List.Forall₂ (Alike secret) items items' := by
  induction items generalizing items' with
  | nil => cases items' <;> simp [AlikeItems]
  | cons item rest ih => cases items' <;> simp [AlikeItems, ih]

theorem alikeMembers_iff {members members' : List (Text × Value)} :
    AlikeMembers secret members members' ↔ List.Forall₂ (AlikeMember secret) members members' := by
  induction members generalizing members' with
  | nil => cases members' <;> simp [AlikeMembers]
  | cons entry rest ih => cases members' <;> simp [AlikeMembers, AlikeMember, ih, and_assoc]

theorem forall₂_congr_of_mem {α β : Type} {R S : α → β → Prop} {xs : List α} {ys : List β}
    (h : ∀ x ∈ xs, ∀ y ∈ ys, R x y ↔ S x y) : List.Forall₂ R xs ys ↔ List.Forall₂ S xs ys := by
  constructor
  · exact fun hall => forall₂_of_mem hall fun x hx y hy => (h x hx y hy).mp
  · exact fun hall => forall₂_of_mem hall fun x hx y hy => (h x hx y hy).mpr

/-- Maps of two lists are one when the items are, one by one. -/
theorem map_eq_map_iff_forall₂ {α β γ : Type} {f : α → γ} {g : β → γ} {xs : List α} {ys : List β} :
    xs.map f = ys.map g ↔ List.Forall₂ (fun x y => f x = g y) xs ys := by
  rw [← List.forall₂_eq_eq_eq, List.forall₂_map_left_iff, List.forall₂_map_right_iff]

end Alike

section Interceptor

variable {p : Platform}

theorem redactMember_eq_iff {entry entry' : Text × Value}
    (ih : redactForAudit p entry.2 = redactForAudit p entry'.2 ↔ Alike (Secret p) entry.2 entry'.2) :
    redactMember p entry = redactMember p entry' ↔ AlikeMember (Secret p) entry entry' := by
  unfold redactMember AlikeMember
  rw [Prod.mk.injEq]
  apply and_congr_right
  intro hkey
  rw [← hkey]
  by_cases hsecret : Secret p entry.1
  · simp [hsecret]
  · simp [hsecret, ih]

/-- The redaction of the interceptor takes two values for one when they are alike, and never else. -/
theorem redactForAudit_eq_iff (value value' : Value) :
    redactForAudit p value = redactForAudit p value' ↔ Alike (Secret p) value value' := by
  induction value using Value.induct generalizing value' with
  | arr items ih =>
    cases value' with
    | arr items' =>
      rw [redactForAudit, redactForAudit, Value.arr.injEq, redactItems_eq_map, redactItems_eq_map,
        map_eq_map_iff_forall₂, Alike, alikeItems_iff]
      exact forall₂_congr_of_mem fun item hitem item' _ => ih item hitem item'
    | _ => simp [redactForAudit, Alike]
  | obj members ih =>
    cases value' with
    | obj members' =>
      rw [redactForAudit, redactForAudit, Value.obj.injEq, redactMembers_eq_map, redactMembers_eq_map,
        map_eq_map_iff_forall₂, Alike, alikeMembers_iff]
      exact forall₂_congr_of_mem fun entry hentry entry' _ => redactMember_eq_iff (ih entry hentry entry'.2)
    | _ => simp [redactForAudit, Alike]
  | _ => cases value' <;> simp [redactForAudit, Alike]

end Interceptor

section Service

/-- The redaction of the service keeps nothing of what stands under a secret name. -/
theorem redact_eq_of_alike (value value' : Value) (h : Alike (fun key => key ∈ REDACTED_FIELDS) value value') :
    redact value = redact value' := by
  induction value using Value.induct generalizing value' with
  | arr items ih =>
    cases value' with
    | arr items' =>
      rw [Alike, alikeItems_iff] at h
      rw [redact, redact, redactArray_eq_map, redactArray_eq_map, Json.arr.injEq, map_eq_map_iff_forall₂]
      exact forall₂_of_mem h fun item hitem item' _ hitems => ih item hitem item' hitems
    | _ => exact h.elim
  | obj members ih =>
    cases value' with
    | obj members' =>
      rw [Alike, alikeMembers_iff] at h
      rw [redact, redact, redactRecord_eq_map, redactRecord_eq_map, Json.obj.injEq, map_eq_map_iff_forall₂]
      apply forall₂_of_mem h
      rintro ⟨key, entry⟩ hentry ⟨key', entry'⟩ - ⟨rfl, hsecret | hentries⟩
      · simp only [redactField, if_pos hsecret]
      · simp only [redactField, ih _ hentry entry' hentries]
    | _ => exact h.elim
  | _ => cases value' <;> simp_all [redact, Alike]

/-- The two ways to read a path find the same name in those of the list. -/
theorem names_read : (REDACT_PATHS.all fun path => lastField path == lastSegment path) = true := by
  rfl

theorem names_ascii :
    ((REDACT_PATHS.map lastSegment).all fun name => name.all fun u => decide (u.val < 128)) = true := by
  rfl

theorem names_not_id :
    (((REDACT_PATHS.map lastSegment).map fun name => name.map asciiLower).contains (ofString "id")) = false := by
  rfl

theorem names_of_paths {path : Text} (hpath : path ∈ REDACT_PATHS) : lastField path = lastSegment path ∧
    (∀ u ∈ lastSegment path, u.val < 128) ∧ (lastSegment path).map asciiLower ≠ ofString "id" := by
  have hname : lastSegment path ∈ REDACT_PATHS.map lastSegment := List.mem_map_of_mem hpath
  have hread := List.all_eq_true.mp names_read path hpath
  have hascii := List.all_eq_true.mp (List.all_eq_true.mp names_ascii _ hname)
  refine ⟨eq_of_beq hread, fun u hu => of_decide_eq_true (hascii u hu), fun hid => ?_⟩
  have hmem : ofString "id" ∈ (REDACT_PATHS.map lastSegment).map fun name => name.map asciiLower :=
    hid ▸ List.mem_map_of_mem hname
  rw [← List.contains_iff_mem, names_not_id] at hmem
  exact absurd hmem (by decide)

variable {p : Platform}

theorem secret_of_field {key : Text} (h : key ∈ REDACTED_FIELDS) : Secret p key := by
  obtain ⟨path, hpath, rfl⟩ := List.mem_map.mp h
  rw [(names_of_paths hpath).1]
  exact List.mem_map_of_mem (List.mem_map_of_mem hpath)

theorem not_secret_id : ¬ Secret p (ofString "id") := by
  intro h
  obtain ⟨name, hname, hid⟩ := List.mem_map.mp h
  obtain ⟨path, hpath, rfl⟩ := List.mem_map.mp hname
  have hid_ascii : ((ofString "id").all fun u => decide (u.val < 128)) = true := by
    rfl
  have hlower : p.toLowerCase (ofString "id") = ofString "id" :=
    (p.toLowerCase_ascii _ fun u hu => of_decide_eq_true (List.all_eq_true.mp hid_ascii u hu)).trans rfl
  obtain ⟨-, hascii, hne⟩ := names_of_paths hpath
  rw [p.toLowerCase_ascii _ hascii, hlower] at hid
  exact hne hid

end Service

/-! ## Where the two redactions agree -/

section Spelled

variable (p : Platform)

mutual

/-- What is secret by its name has it as the list has it, or is censored already; and no other member
is undefined. -/
def Spelled : Value → Prop
  | .arr items => SpelledItems items
  | .obj members => SpelledMembers members
  | _ => True

def SpelledItems : List Value → Prop
  | [] => True
  | item :: rest => Spelled item ∧ SpelledItems rest

def SpelledMembers : List (Text × Value) → Prop
  | [] => True
  | (key, entry) :: rest =>
    (key ∈ REDACTED_FIELDS ∨
      if Secret p key then redact entry = .str REDACT_CENSOR else entry ≠ .undefined ∧ Spelled entry) ∧
    SpelledMembers rest

end

def SpelledMember (entry : Text × Value) : Prop :=
  entry.1 ∈ REDACTED_FIELDS ∨
    if Secret p entry.1 then redact entry.2 = .str REDACT_CENSOR else entry.2 ≠ .undefined ∧ Spelled p entry.2

variable {p}

theorem spelledItems_iff {items : List Value} : SpelledItems p items ↔ ∀ item ∈ items, Spelled p item := by
  induction items with
  | nil => simp [SpelledItems]
  | cons item rest ih => simp [SpelledItems, ih]

theorem spelledMembers_iff {members : List (Text × Value)} :
    SpelledMembers p members ↔ ∀ entry ∈ members, SpelledMember p entry := by
  induction members with
  | nil => simp [SpelledMembers]
  | cons entry rest ih => rw [SpelledMembers, ih, List.forall_mem_cons, SpelledMember]

theorem serialised_of_defined {value : Value} (h : value ≠ .undefined) :
    serialised (redactForAudit p value) = some (toJson p value) := by
  cases value with
  | undefined => exact absurd rfl h
  | _ => rfl

theorem toJson_arr (items : List Value) : toJson p (.arr items) = .arr (items.map (toJson p)) := by
  simp only [toJson, redactForAudit, serialised, redactItems_eq_map, serialisedItems_eq_map, List.map_map,
    Option.getD_some]
  rfl

theorem toJson_obj (members : List (Text × Value)) : toJson p (.obj members) = .obj (members.filterMap fun entry =>
    (serialised (redactMember p entry).2).map fun json => (entry.1, json)) := by
  simp only [toJson, redactForAudit, serialised, redactMembers_eq_map, serialisedMembers_eq_filterMap,
    List.filterMap_map, Option.getD_some]
  rfl

/-- Nothing is left out of a list that is mapped to as many others. -/
theorem filterMap_eq_map_iff {α β : Type} {f : α → Option β} {g : α → β} {xs : List α} :
    xs.filterMap f = xs.map g ↔ ∀ x ∈ xs, f x = some (g x) := by
  induction xs with
  | nil => simp
  | cons x xs ih =>
    rw [List.filterMap_cons, List.map_cons, List.forall_mem_cons, ← ih]
    cases hx : f x with
    | none =>
      have hlength := List.length_filterMap_le f xs
      constructor
      · intro h
        have := congrArg List.length h
        simp only [List.length_cons, List.length_map] at this
        omega
      · rintro ⟨h, -⟩
        cases h
    | some y => simp

theorem spelledMember_iff {entry : Text × Value} (ih : toJson p entry.2 = redact entry.2 ↔ Spelled p entry.2) :
    ((serialised (redactMember p entry).2).map fun json => (entry.1, json)) = some (redactField entry) ↔
      SpelledMember p entry := by
  unfold redactMember redactField SpelledMember
  by_cases hfield : entry.1 ∈ REDACTED_FIELDS
  · simp [hfield, secret_of_field (p := p) hfield, serialised]
  by_cases hsecret : Secret p entry.1
  · simp [hfield, hsecret, serialised, eq_comm]
  by_cases hdefined : entry.2 = .undefined
  · simp [hfield, hsecret, hdefined, redactForAudit, serialised]
  · simp [hfield, hsecret, hdefined, serialised_of_defined, ih]

/-- The two redactions agree on a value exactly when it is spelled as they expect. -/
theorem toJson_eq_redact_iff (value : Value) : toJson p value = redact value ↔ Spelled p value := by
  induction value using Value.induct with
  | arr items ih =>
    rw [toJson_arr, redact, redactArray_eq_map, Json.arr.injEq, List.map_inj_left, Spelled, spelledItems_iff]
    exact forall₂_congr ih
  | obj members ih =>
    rw [toJson_obj, redact, redactRecord_eq_map, Json.obj.injEq, filterMap_eq_map_iff, Spelled, spelledMembers_iff]
    exact forall₂_congr fun entry hentry => spelledMember_iff (ih entry hentry)
  | _ => simp [toJson, redactForAudit, serialised, redact, Spelled]

end Spelled

/-! ## What a request leaves -/

/-- Requests of one session for one thing, with what stands under secret names in it apart. -/
structure AlikeRequests (secret : Text → Prop) (request request' : AuditableRequest) : Prop where
  session : request.session = request'.session
  entityId : request.detail.entityId = request'.detail.entityId
  summary : request.detail.summary = request'.detail.summary
  before : Alike secret request.detail.before request'.detail.before
  after : Alike secret request.detail.after request'.detail.after
  paramId : request.paramId = request'.paramId
  ip : request.ip = request'.ip

section Rows

variable {p : Platform} {secret : Text → Prop} {value value' : Value}

theorem Alike.toJson_eq (h : Alike (Secret p) value value') : toJson p value = toJson p value' := by
  unfold toJson
  rw [(redactForAudit_eq_iff value value').mpr h]

theorem Alike.nullish_eq (h : Alike secret value value') : value.nullish = value'.nullish := by
  cases value <;> cases value' <;> first | rfl | exact h.elim

theorem Alike.undefined_iff (h : Alike secret value value') : value = .undefined ↔ value' = .undefined := by
  cases value <;> cases value' <;> first | exact h.elim | simp

theorem Alike.string_eq (h : Alike secret value value') : value.string = value'.string := by
  cases value <;> cases value' <;> first | exact h.elim | rfl | exact congrArg some h

/-- A text under a name that is no secret is the same. -/
theorem Alike.text_eq {key : Text} (h : Alike secret value value') (hkey : ¬ secret key) :
    value.text key = value'.text key := by
  cases value with
  | obj members =>
    cases value' with
    | obj members' =>
      rw [Alike, alikeMembers_iff] at h
      rw [Value.text, Value.text]
      induction h with
      | nil => rfl
      | @cons entry entry' rest rest' hentry _ ih =>
        obtain ⟨name, item⟩ := entry
        obtain ⟨name', item'⟩ := entry'
        obtain ⟨rfl, hitems⟩ := hentry
        rw [List.lookup_cons, List.lookup_cons]
        dsimp only
        by_cases hname : key = name
        · obtain rfl := hname
          simpa using (hitems.resolve_left hkey).string_eq
        · rw [beq_eq_false_iff_ne.mpr hname]
          exact ih
    | _ => exact h.elim
  | _ => cases value' <;> first | exact h.elim | rfl

end Rows

/-- Requests that differ in what stands under secret names only leave the same row. -/
theorem auditRow_eq {p : Platform} {spec : AuditSpec} {request request' : AuditableRequest} {body body' : Value}
    (hspec : ∀ field ∈ spec.responseIdField, ¬ Secret p field) (hrequest : AlikeRequests (Secret p) request request')
    (hbody : Alike (Secret p) body body') (correlation : String) :
    auditRow p spec request body correlation = auditRow p spec request' body' correlation := by
  have hid : idFrom body spec.responseIdField = idFrom body' spec.responseIdField := by
    unfold idFrom
    rw [hbody.text_eq not_secret_id, hbody.text_eq]
    cases hfield : spec.responseIdField with
    | none => exact not_secret_id
    | some field => exact hspec field hfield
  have hafter : toJson p (if request.detail.after.nullish then body else request.detail.after) =
      toJson p (if request'.detail.after.nullish then body' else request'.detail.after) := by
    rw [← hrequest.after.nullish_eq]
    split
    · exact hbody.toJson_eq
    · exact hrequest.after.toJson_eq
  have hbefore : (match request.detail.before with
      | .undefined => none
      | before => some (toJson p before)) = match request'.detail.before with
      | .undefined => none
      | before => some (toJson p before) := by
    have hundefined := hrequest.before.undefined_iff
    have hjson := hrequest.before.toJson_eq
    generalize request.detail.before = before at hundefined hjson
    generalize request'.detail.before = before' at hundefined hjson
    cases before <;> cases before' <;> simp_all
  unfold auditRow
  dsimp only
  rw [hid, hafter, hbefore, hrequest.session, hrequest.entityId, hrequest.summary, hrequest.paramId, hrequest.ip]

/-- What the interceptor writes tells two values apart exactly when they differ outside of what stands
under secret names, and so no row tells two requests apart that differ there only. The service keeps
nothing of it either, and writes what the interceptor writes exactly for values that are spelled as
the list has it. -/
theorem audit_conceals (p : Platform) :
    (∀ value value', redactForAudit p value = redactForAudit p value' ↔ Alike (Secret p) value value') ∧
    (∀ spec request request' body body' correlation, (∀ field ∈ AuditSpec.responseIdField spec, ¬ Secret p field) →
      AlikeRequests (Secret p) request request' → Alike (Secret p) body body' →
        auditRow p spec request body correlation = auditRow p spec request' body' correlation) ∧
    (∀ value value', Alike (fun key => key ∈ REDACTED_FIELDS) value value' → redact value = redact value') ∧
    ∀ value, toJson p value = redact value ↔ Spelled p value := by
  refine ⟨redactForAudit_eq_iff, ?_, redact_eq_of_alike, toJson_eq_redact_iff⟩
  intro spec request request' body body' correlation hspec hrequest hbody
  exact auditRow_eq hspec hrequest hbody correlation

end BookingApp.Audit
