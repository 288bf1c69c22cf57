import BookingApp.Encoding.Instant
import BookingApp.Machine

/-!
# The booking draft of the public flow (`stores/booking-draft.ts`)

The draft is kept in the session's storage, from which a reload rebuilds it, and the
reservation that it leads to is kept in memory. A slot belongs to the service and the employee it
was chosen under. Nothing takes a reservation back when an earlier choice changes
(`draft_fresh_iff`).
-/

set_option autoImplicit false

namespace BookingApp.BookingDraft

inductive Step where
  | service
  | employee
  | slot
  | details
  deriving DecidableEq, Repr

def STEPS : List Step :=
  [.service, .employee, .slot, .details]

/-- The place of a step in the flow. -/
def Step.place : Step → Nat
  | service => 0
  | employee => 1
  | slot => 2
  | details => 3

/-- What is worth persisting. No employee, once chosen, is any available one. -/
structure PersistedDraft where
  idempotencyKey : Option String := none
  serviceId : Option String := none
  serviceName : String := ""
  servicePriceCents : Option Int := none
  employeeName : Option String := none
  employeeId : Option String := none
  employeeChosen : Bool := false
  slotStartsAt : Option String := none
  firstName : String := ""
  lastName : String := ""
  email : String := ""
  phone : String := ""
  note : String := ""
  deriving DecidableEq, Repr

def emptyDraft : PersistedDraft := {}

/-- A draft as it is found in storage, where any field may be missing. -/
structure StoredDraft where
  idempotencyKey : Option (Option String) := none
  serviceId : Option (Option String) := none
  serviceName : Option String := none
  servicePriceCents : Option (Option Int) := none
  employeeName : Option (Option String) := none
  employeeId : Option (Option String) := none
  employeeChosen : Option Bool := none
  slotStartsAt : Option (Option String) := none
  firstName : Option String := none
  lastName : Option String := none
  email : Option String := none
  phone : Option String := none
  note : Option String := none
  deriving DecidableEq, Repr

/-- A stored draft is merged over a fresh one. Without an answer to the employee question, a named
employee was chosen and none was never asked about. -/
def readStored : Option StoredDraft → PersistedDraft
  | none => emptyDraft
  | some parsed =>
    let draft : PersistedDraft :=
      { idempotencyKey := parsed.idempotencyKey.getD emptyDraft.idempotencyKey
        serviceId := parsed.serviceId.getD emptyDraft.serviceId
        serviceName := parsed.serviceName.getD emptyDraft.serviceName
        servicePriceCents := parsed.servicePriceCents.getD emptyDraft.servicePriceCents
        employeeName := parsed.employeeName.getD emptyDraft.employeeName
        employeeId := parsed.employeeId.getD emptyDraft.employeeId
        employeeChosen := parsed.employeeChosen.getD emptyDraft.employeeChosen
        slotStartsAt := parsed.slotStartsAt.getD emptyDraft.slotStartsAt
        firstName := parsed.firstName.getD emptyDraft.firstName
        lastName := parsed.lastName.getD emptyDraft.lastName
        email := parsed.email.getD emptyDraft.email
        phone := parsed.phone.getD emptyDraft.phone
        note := parsed.note.getD emptyDraft.note }
    { draft with employeeChosen := parsed.employeeChosen.getD draft.employeeId.isSome }

structure CreateBookingResponse where
  bookingId : String
  employeeId : String
  startsAt : String
  priceCents : Int
  deriving DecidableEq, Repr

/-- The store of a page, and what it has in the session's storage. -/
structure Store where
  draft : PersistedDraft := {}
  reservation : Option CreateBookingResponse := none
  storage : Option StoredDraft := none
  deriving DecidableEq, Repr

/-- The text under which a slot is kept. -/
def slotText (startsAt : Int) : String :=
  String.ofList (Encoding.toISOString startsAt)

namespace Store

def persist (s : Store) : Store :=
  { s with
    storage := some
      { idempotencyKey := some s.draft.idempotencyKey
        serviceId := some s.draft.serviceId
        serviceName := some s.draft.serviceName
        servicePriceCents := some s.draft.servicePriceCents
        employeeId := some s.draft.employeeId
        employeeName := some s.draft.employeeName
        employeeChosen := some s.draft.employeeChosen
        slotStartsAt := some s.draft.slotStartsAt
        firstName := some s.draft.firstName
        lastName := some s.draft.lastName
        email := some s.draft.email
        phone := some s.draft.phone
        note := some s.draft.note } }

/-- An assignment to a field, which is watched: the draft is persisted if it has changed. -/
def assign (f : PersistedDraft → PersistedDraft) (s : Store) : Store :=
  if f s.draft = s.draft then s else persist { s with draft := f s.draft }

/-- Starts an attempt under a new key, or resumes the one in progress. -/
def begin (randomUUID : String) (s : Store) : Store :=
  (s.assign fun d => { d with idempotencyKey := some (d.idempotencyKey.getD randomUUID) }).persist

def setService (id : String) (display : Option (String × Int)) (s : Store) : Store :=
  let shown := match display with
    | none => s
    | some (name, priceCents) =>
      (s.assign fun d => { d with serviceName := name }).assign fun d =>
        { d with servicePriceCents := some priceCents }
  if shown.draft.serviceId = some id then shown
  else
    ((((shown.assign fun d => { d with serviceId := some id })
      |>.assign fun d => { d with employeeId := none })
      |>.assign fun d => { d with employeeName := none })
      |>.assign fun d => { d with employeeChosen := false })
      |>.assign fun d => { d with slotStartsAt := none }

def setEmployee (id displayName : Option String) (s : Store) : Store :=
  let named := s.assign fun d => { d with employeeName := displayName }
  if named.draft.employeeChosen = true ∧ named.draft.employeeId = id then named
  else
    ((named.assign fun d => { d with employeeId := id })
      |>.assign fun d => { d with employeeChosen := true })
      |>.assign fun d => { d with slotStartsAt := none }

def setSlot (startsAt : Option Int) (s : Store) : Store :=
  s.assign fun d => { d with slotStartsAt := startsAt.map slotText }

def setReservation (created : Option CreateBookingResponse) (s : Store) : Store :=
  { s with reservation := created }

/-- Keeps the customer's details and the service, but forces a new slot. -/
def clearSlot (s : Store) : Store :=
  { (s.assign fun d => { d with slotStartsAt := none }) with reservation := none }

/-- The reservation lapsed: a new slot is picked under a new key. -/
def expireReservation (randomUUID : String) (s : Store) : Store :=
  (s.clearSlot.assign fun d => { d with idempotencyKey := some randomUUID }).persist

/-- Abandons the attempt. The watcher has run before the entry is removed. -/
def reset (s : Store) : Store :=
  let cleared := (((((((((((((s.assign fun d => { d with idempotencyKey := none })
    |>.assign fun d => { d with serviceId := none })
    |>.assign fun d => { d with serviceName := "" })
    |>.assign fun d => { d with servicePriceCents := none })
    |>.assign fun d => { d with employeeId := none })
    |>.assign fun d => { d with employeeName := none })
    |>.assign fun d => { d with employeeChosen := false })
    |>.assign fun d => { d with slotStartsAt := none })
    |>.assign fun d => { d with firstName := "" })
    |>.assign fun d => { d with lastName := "" })
    |>.assign fun d => { d with email := "" })
    |>.assign fun d => { d with phone := "" })
    |>.assign fun d => { d with note := "" })
  { cleared with reservation := none, storage := none }

/-- A reload of the page: only what is in storage is left. -/
def reload (s : Store) : Store where
  draft := readStored s.storage
  storage := s.storage

/-- Whether a step can be entered. -/
def canReach (s : Store) : Step → Bool
  | .service => true
  | .employee => s.draft.serviceId.isSome
  | .slot => s.draft.serviceId.isSome && s.draft.employeeChosen
  | .details => s.draft.serviceId.isSome && s.draft.employeeChosen && s.draft.slotStartsAt.isSome

/-- The furthest step currently reachable. -/
def furthestReachable (s : Store) : Step :=
  (STEPS.reverse.find? s.canReach).getD .service

end Store

/-- The fields of the form on the last step, which it writes to the store itself. -/
structure Details where
  firstName : String
  lastName : String
  email : String
  phone : String
  note : String
  deriving DecidableEq, Repr

inductive Action where
  | begin (randomUUID : String)
  | setService (id : String) (display : Option (String × Int))
  | setEmployee (id displayName : Option String)
  | setSlot (startsAt : Option Int)
  | setReservation (created : Option CreateBookingResponse)
  | clearSlot
  | expireReservation (randomUUID : String)
  | reset
  | details (written : Details)
  | reload
  deriving DecidableEq, Repr

def Store.step (s : Store) : Action → Store
  | .begin randomUUID => s.begin randomUUID
  | .setService id display => s.setService id display
  | .setEmployee id displayName => s.setEmployee id displayName
  | .setSlot startsAt => s.setSlot startsAt
  | .setReservation created => s.setReservation created
  | .clearSlot => s.clearSlot
  | .expireReservation randomUUID => s.expireReservation randomUUID
  | .reset => s.reset
  | .details written => s.assign fun d =>
    { d with
      firstName := written.firstName
      lastName := written.lastName
      email := written.email
      phone := written.phone
      note := written.note }
  | .reload => s.reload

/-- The store after a list of actions, from a session with nothing in storage. -/
abbrev after : List Action → Store :=
  Machine.after Store.step {}

/-! ## What an action leaves -/

namespace Store

variable (f : PersistedDraft → PersistedDraft) (s : Store)

@[simp] theorem persist_draft : s.persist.draft = s.draft := rfl

@[simp] theorem persist_reservation : s.persist.reservation = s.reservation := rfl

@[simp] theorem assign_draft : (s.assign f).draft = f s.draft := by
  unfold assign
  split
  · exact Eq.symm ‹_›
  · rfl

@[simp] theorem assign_reservation : (s.assign f).reservation = s.reservation := by
  unfold assign
  split <;> rfl

/-- What a reload finds is what the store holds. -/
def Restorable (s : Store) : Prop :=
  readStored s.storage = s.draft

variable {f s}

theorem restorable_persist : s.persist.Restorable := rfl

theorem Restorable.assign (h : s.Restorable) : (s.assign f).Restorable := by
  unfold Store.assign
  split
  · exact h
  · exact restorable_persist

/-- Each action leaves in storage what the store holds, and a reset nothing of either. -/
theorem Restorable.step (h : s.Restorable) (a : Action) : (s.step a).Restorable := by
  cases a with
  | begin randomUUID => exact restorable_persist
  | setService id display =>
    have hshown : ∀ shown : Store, shown.Restorable → (if shown.draft.serviceId = some id then shown
        else ((((shown.assign fun d => { d with serviceId := some id })
          |>.assign fun d => { d with employeeId := none })
          |>.assign fun d => { d with employeeName := none })
          |>.assign fun d => { d with employeeChosen := false })
          |>.assign fun d => { d with slotStartsAt := none }).Restorable := by
      intro shown hshown
      split
      · exact hshown
      · exact hshown.assign.assign.assign.assign.assign
    cases display with
    | none => exact hshown s h
    | some display => exact hshown _ h.assign.assign
  | setEmployee id displayName =>
    change (Store.setEmployee id displayName s).Restorable
    unfold Store.setEmployee
    dsimp only
    split
    · exact h.assign
    · exact h.assign.assign.assign.assign
  | setSlot startsAt => exact h.assign
  | setReservation created => exact h
  | clearSlot => exact h.assign
  | expireReservation randomUUID => exact restorable_persist
  | reset =>
    change readStored none = s.reset.draft
    simp [Store.reset, readStored, emptyDraft]
  | details written => exact h.assign
  | reload => rfl

end Store

/-! ## Stale choices -/

/-- What a slot is chosen under: the service, whether the employee question was answered, and how. -/
def Store.choice (s : Store) : Option String × Bool × Option String :=
  (s.draft.serviceId, s.draft.employeeChosen, s.draft.employeeId)

/-- What a reservation is made for: the service and the employee, the slot, and the key. -/
def Store.booked (s : Store) : (Option String × Bool × Option String) × Option String × Option String :=
  (s.choice, s.draft.slotStartsAt, s.draft.idempotencyKey)

/-- After these actions, nothing in the store is stale: a slot that is set has been chosen under the
service and the employee there have been since, a reservation that is set has been made for all there
has been since, a step is reachable only after those before it, and a reload restores the draft. -/
structure Fresh (acts : List Action) : Prop where
  slot : ∀ text, (after acts).draft.slotStartsAt = some text →
    Machine.Since Store.step {} (fun a => ∃ startsAt, a = .setSlot (some startsAt) ∧ slotText startsAt = text)
      Store.choice acts
  reservation : ∀ created, (after acts).reservation = some created →
    Machine.Since Store.step {} (fun a => a = .setReservation (some created)) Store.booked acts
  closed : ∀ step earlier, (after acts).canReach step = true → earlier.place ≤ step.place →
    (after acts).canReach earlier = true
  furthest : (after acts).canReach (after acts).furthestReachable = true ∧
    ∀ step, (after acts).canReach step = true → step.place ≤ (after acts).furthestReachable.place
  reload : (after acts).reload.draft = (after acts).draft

/-- While a reservation is set, the action does not choose another service, employee or slot, nor does
it mint the first key. -/
def Keeps (s : Store) (a : Action) : Prop :=
  s.reservation ≠ none → match a with
    | .begin _ => s.draft.idempotencyKey ≠ none
    | .setService id _ => s.draft.serviceId = some id
    | .setEmployee id _ => s.draft.employeeChosen = true ∧ s.draft.employeeId = id
    | .setSlot startsAt => s.draft.slotStartsAt = startsAt.map slotText
    | _ => True

instance (s : Store) (a : Action) : Decidable (Keeps s a) := by
  unfold Keeps
  cases a <;> exact inferInstance

section Steps

variable {s : Store} {a : Action} {acts : List Action}

/-- Choosing a service: the one there is keeps the choices after it, and another one clears them. -/
theorem setService_draft (id : String) (display : Option (String × Int)) :
    (s.setService id display).choice = (if s.draft.serviceId = some id then s.choice else (some id, false, none)) ∧
      (s.setService id display).draft.slotStartsAt =
        (if s.draft.serviceId = some id then s.draft.slotStartsAt else none) ∧
      (s.setService id display).draft.idempotencyKey = s.draft.idempotencyKey ∧
      (s.setService id display).reservation = s.reservation := by
  cases display with
  | none => by_cases h : s.draft.serviceId = some id <;> simp [Store.setService, Store.choice, h]
  | some display => by_cases h : s.draft.serviceId = some id <;> simp [Store.setService, Store.choice, h]

theorem setEmployee_draft (id displayName : Option String) :
    (s.setEmployee id displayName).choice =
        (if s.draft.employeeChosen = true ∧ s.draft.employeeId = id then s.choice
          else (s.draft.serviceId, true, id)) ∧
      (s.setEmployee id displayName).draft.slotStartsAt =
        (if s.draft.employeeChosen = true ∧ s.draft.employeeId = id then s.draft.slotStartsAt else none) ∧
      (s.setEmployee id displayName).draft.idempotencyKey = s.draft.idempotencyKey ∧
      (s.setEmployee id displayName).reservation = s.reservation := by
  by_cases h : s.draft.employeeChosen = true ∧ s.draft.employeeId = id <;>
    simp [Store.setEmployee, Store.choice, h]

/-- A slot that is there after an action has just been chosen, or was there before. -/
theorem slot_step (hs : s.Restorable) {text : String} (h : (s.step a).draft.slotStartsAt = some text) :
    (s.step a).choice = s.choice ∧
      ((∃ startsAt, a = .setSlot (some startsAt) ∧ slotText startsAt = text) ∨
        s.draft.slotStartsAt = some text) := by
  cases a with
  | begin randomUUID => simpa [Store.step, Store.begin, Store.choice] using h
  | setService id display =>
    obtain ⟨hchoice, hslot, -, -⟩ := setService_draft (s := s) id display
    rw [Store.step, hslot] at h
    rw [Store.step, hchoice]
    split at h
    · rw [if_pos ‹_›]
      exact ⟨rfl, .inr h⟩
    · cases h
  | setEmployee id displayName =>
    obtain ⟨hchoice, hslot, -, -⟩ := setEmployee_draft (s := s) id displayName
    rw [Store.step, hslot] at h
    rw [Store.step, hchoice]
    split at h
    · rw [if_pos ‹_›]
      exact ⟨rfl, .inr h⟩
    · cases h
  | setSlot startsAt =>
    have hslot : startsAt.map slotText = some text := by simpa [Store.step, Store.setSlot] using h
    obtain ⟨t, rfl, htext⟩ := Option.map_eq_some_iff.mp hslot
    exact ⟨by simp [Store.step, Store.setSlot, Store.choice], .inl ⟨t, rfl, htext⟩⟩
  | setReservation created => exact ⟨rfl, .inr h⟩
  | clearSlot => simp [Store.step, Store.clearSlot] at h
  | expireReservation randomUUID => simp [Store.step, Store.expireReservation, Store.clearSlot] at h
  | reset => simp [Store.step, Store.reset] at h
  | details written => simpa [Store.step, Store.choice] using h
  | reload =>
    have hdraft : s.reload.draft = s.draft := hs
    rw [Store.step, hdraft] at h
    exact ⟨by rw [Store.step, Store.choice, hdraft]; rfl, .inr h⟩

/-- A reservation that is there after an action that keeps what it was made for has just been set, or
was there before. -/
theorem reservation_step (hkeeps : Keeps s a) {created : CreateBookingResponse}
    (h : (s.step a).reservation = some created) :
    (s.step a).booked = s.booked ∧ (a = .setReservation (some created) ∨ s.reservation = some created) := by
  cases a with
  | begin randomUUID =>
    have hold : s.reservation = some created := by simpa [Store.step, Store.begin] using h
    obtain ⟨key, hkey⟩ := Option.ne_none_iff_exists'.mp (hkeeps (by simp [hold]))
    exact ⟨by simp [Store.step, Store.begin, Store.booked, Store.choice, hkey], .inr hold⟩
  | setService id display =>
    obtain ⟨hchoice, hslot, hkey, hreservation⟩ := setService_draft (s := s) id display
    have hold : s.reservation = some created := hreservation ▸ h
    have hsame := hkeeps (by simp [hold])
    refine ⟨?_, .inr hold⟩
    rw [Store.step, Store.booked, hchoice, hslot, hkey, if_pos hsame, if_pos hsame]
    rfl
  | setEmployee id displayName =>
    obtain ⟨hchoice, hslot, hkey, hreservation⟩ := setEmployee_draft (s := s) id displayName
    have hold : s.reservation = some created := hreservation ▸ h
    have hsame := hkeeps (by simp [hold])
    refine ⟨?_, .inr hold⟩
    rw [Store.step, Store.booked, hchoice, hslot, hkey, if_pos hsame, if_pos hsame]
    rfl
  | setSlot startsAt =>
    have hold : s.reservation = some created := by simpa [Store.step, Store.setSlot] using h
    have hsame : s.draft.slotStartsAt = startsAt.map slotText := hkeeps (by simp [hold])
    exact ⟨by simp [Store.step, Store.setSlot, Store.booked, Store.choice, hsame], .inr hold⟩
  | setReservation other =>
    obtain rfl : other = some created := h
    exact ⟨rfl, .inl rfl⟩
  | clearSlot => simp [Store.step, Store.clearSlot] at h
  | expireReservation randomUUID => simp [Store.step, Store.expireReservation, Store.clearSlot] at h
  | reset => simp [Store.step, Store.reset] at h
  | details written =>
    have hold : s.reservation = some created := by simpa [Store.step] using h
    exact ⟨by simp [Store.step, Store.booked, Store.choice], .inr hold⟩
  | reload => simp [Store.step, Store.reload] at h

/-- An action that changes nothing of what a reservation was made for keeps it. -/
theorem keeps_of_booked (h : (s.step a).booked = s.booked) : Keeps s a := by
  intro hsome
  cases a with
  | begin randomUUID =>
    have hkey := congrArg (fun view => view.2.2) h
    intro hnone
    simp [Store.step, Store.begin, Store.booked, hnone] at hkey
  | setService id display =>
    by_contra hne
    have hchoice := (setService_draft (s := s) id display).1
    rw [if_neg hne] at hchoice
    have hsame : (some id, false, none) = s.choice := hchoice.symm.trans (congrArg Prod.fst h)
    exact hne (congrArg Prod.fst hsame).symm
  | setEmployee id displayName =>
    by_contra hne
    have hchoice := (setEmployee_draft (s := s) id displayName).1
    rw [if_neg hne] at hchoice
    have hsame : (s.draft.serviceId, true, id) = s.choice := hchoice.symm.trans (congrArg Prod.fst h)
    obtain ⟨hchosen, hid⟩ := Prod.mk.inj (congrArg Prod.snd hsame)
    exact hne ⟨hchosen.symm, hid.symm⟩
  | setSlot startsAt =>
    have hslot := congrArg (fun view => view.2.1) h
    simpa [Store.step, Store.setSlot, Store.booked, eq_comm] using hslot
  | _ => trivial

/-- An action keeps a reservation for sure, or it leaves the reservation there is. -/
theorem keeps_or_leaves (s : Store) (a : Action) : Keeps s a ∨
    (s.step a).reservation = s.reservation ∧ ∀ created, a ≠ .setReservation created := by
  cases a with
  | begin randomUUID => exact .inr ⟨by simp [Store.step, Store.begin], by simp⟩
  | setService id display => exact .inr ⟨(setService_draft id display).2.2.2, by simp⟩
  | setEmployee id displayName => exact .inr ⟨(setEmployee_draft id displayName).2.2.2, by simp⟩
  | setSlot startsAt => exact .inr ⟨by simp [Store.step, Store.setSlot], by simp⟩
  | _ => exact .inl fun _ => trivial

/-- A step is reachable only after those before it. -/
theorem canReach_of_le {step earlier : Step} (h : s.canReach step = true) (hle : earlier.place ≤ step.place) :
    s.canReach earlier = true := by
  cases step <;> cases earlier <;> simp_all [Store.canReach, Step.place]

/-- The step that is found from the end of the flow is the greatest that is reachable. -/
theorem furthestReachable_greatest (s : Store) : s.canReach s.furthestReachable = true ∧
    ∀ step, s.canReach step = true → step.place ≤ s.furthestReachable.place := by
  have hfurthest : s.furthestReachable = if s.canReach .details = true then .details
      else if s.canReach .slot = true then .slot else if s.canReach .employee = true then .employee
        else .service := by
    unfold Store.furthestReachable STEPS
    simp only [List.reverse_cons, List.reverse_nil, List.nil_append, List.cons_append, List.find?_cons]
    split <;> simp [*]
    split <;> simp [*]
    split <;> simp [*]
    rfl
  rw [hfurthest]
  split_ifs with hdetails hslot hemployee
  · exact ⟨hdetails, fun step _ => by cases step <;> decide⟩
  · refine ⟨hslot, fun step hstep => ?_⟩
    cases step with
    | details => exact absurd hstep hdetails
    | _ => decide
  · refine ⟨hemployee, fun step hstep => ?_⟩
    cases step with
    | details => exact absurd hstep hdetails
    | slot => exact absurd hstep hslot
    | _ => decide
  · refine ⟨rfl, fun step hstep => ?_⟩
    cases step with
    | details => exact absurd hstep hdetails
    | slot => exact absurd hstep hslot
    | employee => exact absurd hstep hemployee
    | service => exact le_refl _

end Steps

section Runs

variable {acts : List Action}

theorem meets_restorable {ok : Store → Action → Prop} (h : Machine.Meets Store.step {} ok acts) :
    Machine.Meets Store.step {} (fun s a => s.Restorable ∧ ok s a) acts :=
  h.and_invariant rfl fun _ a _ hs => hs.step a

theorem restorable_after (acts : List Action) : (after acts).Restorable :=
  Machine.always rfl fun _ a hs => hs.step a

/-- Where each action keeps what a reservation was made for, nothing is stale. -/
theorem fresh_of_meets (h : Machine.Meets Store.step {} Keeps acts) : Fresh acts where
  slot text hslot := by
    refine Machine.since (J := fun s => s.draft.slotStartsAt = some text) ?_ ?_ (meets_restorable h) hslot
    · simp
    · exact fun s a hok hslot => slot_step hok.1 hslot
  reservation created hcreated := by
    refine Machine.since (J := fun s => s.reservation = some created) ?_ ?_ h hcreated
    · simp
    · exact fun s a hkeeps hcreated => reservation_step hkeeps hcreated
  closed _ _ hstep hle := canReach_of_le hstep hle
  furthest := furthestReachable_greatest _
  reload := restorable_after acts

/-- Nothing is stale in any state of a run exactly when each action keeps what a reservation was made
for. -/
theorem draft_fresh_iff (acts : List Action) :
    (∀ run, run <+: acts → Fresh run) ↔ Machine.Meets Store.step {} Keeps acts := by
  constructor
  · intro h pre a post hacts
    have hfresh := h (pre ++ [a]) ⟨post, by rw [hacts, List.append_assoc, List.singleton_append]⟩
    rcases keeps_or_leaves (after pre) a with hkeeps | ⟨hleaves, hother⟩
    · exact hkeeps
    · intro hsome
      obtain ⟨created, hcreated⟩ := Option.ne_none_iff_exists'.mp hsome
      have hstep : after (pre ++ [a]) = (after pre).step a := Machine.after_concat
      have hsince := hfresh.reservation created (by rw [hstep, hleaves, hcreated])
      have hview := hsince.view_eq (hother (some created))
      rw [Machine.after_concat] at hview
      exact keeps_of_booked hview hsome
  · rintro h run ⟨rest, rfl⟩
    refine fresh_of_meets fun pre a post hrun => ?_
    exact h pre a (post ++ rest) (by rw [hrun, List.append_assoc, List.cons_append])

def CreateBookingResponse.sample : CreateBookingResponse where
  bookingId := "b1"
  employeeId := "e1"
  startsAt := "2026-08-14T07:00:00.000Z"
  priceCents := 4500

/-- A whole attempt, up to its reservation. -/
def attempt : List Action :=
  [.begin "k1", .setService "s1" none, .setEmployee (some "e1") none, .setSlot (some 1786690800000),
    .setReservation (some .sample)]

/-- The page is reloaded after the attempt, the request is sent again, and its reservation lapses. -/
theorem draft_fresh_sample :
    Fresh (attempt ++ [.reload, .setReservation (some .sample), .setService "s1" none]) ∧
      ∀ run, run <+: attempt ++ [.reload, .setReservation (some .sample), .expireReservation "k2"] → Fresh run := by
  constructor
  · exact (draft_fresh_iff _).mpr (Machine.meets_of_forall (by decide)) _ (List.prefix_refl _)
  · exact (draft_fresh_iff _).mpr (Machine.meets_of_forall (by decide))

/-- Another service is chosen after the reservation was made. -/
theorem reservation_stale : ¬∀ acts, Fresh acts := by
  intro hall
  have hfresh := hall (attempt ++ [.setService "s2" none])
  have hsince := hfresh.reservation .sample (by decide)
  have hview := hsince.view_eq (by simp)
  exact absurd hview (by decide)

end Runs

end BookingApp.BookingDraft
