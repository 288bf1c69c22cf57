import BookingApp.Errors
import BookingApp.Tenant.Arguments

/-!
# The tenant guard (`prisma/tenant.extension.ts`)

A query on an organization-scoped model runs only when its `where` demands the current
organization and its payloads carry it. `tenantGuard` answers the arguments the query
is run with, or the error.
-/

set_option autoImplicit false

namespace BookingApp

inductive ScopeState where
  | missing
  | matching
  | mismatching
  deriving DecidableEq, Repr

section States

variable (organizationId : String)

def organizationIdState : Arg → ScopeState
  | .str value => if value = organizationId then .matching else .mismatching
  | .obj [(key, .str value)] =>
    if key = "equals" ∧ value = organizationId then .matching else .mismatching
  | _ => .mismatching

def combineScopeStates (states : List ScopeState) : ScopeState :=
  if ScopeState.matching ∈ states then .matching
  else if ScopeState.mismatching ∈ states then .mismatching
  else .missing

mutual

/-- The state of a filter: a direct equality counts, or one inside a top-level `AND`. -/
def filterScopeState : Arg → ScopeState
  | .obj fields =>
    match fields.lookup "organizationId" with
    | some value => organizationIdState organizationId value
    | none => conjunctState fields
  | _ => .missing

/-- The state of `where.AND`. -/
def conjunctState : List (String × Arg) → ScopeState
  | [] => .missing
  | (key, .arr clauses) :: rest =>
    if key = "AND" then combineScopeStates (clauseStates clauses) else conjunctState rest
  | (key, value) :: rest =>
    if key = "AND" then filterScopeState value else conjunctState rest

def clauseStates : List Arg → List ScopeState
  | [] => []
  | clause :: rest => filterScopeState clause :: clauseStates rest

end

mutual

/-- The state of a unique selector, which a compound unique key counts for too. -/
def uniqueScopeState : Arg → ScopeState
  | .obj fields =>
    match filterScopeState organizationId (.obj fields) with
    | .missing => combineScopeStates (compoundStates fields)
    | direct => direct
  | _ => .missing

def compoundStates : List (String × Arg) → List ScopeState
  | [] => []
  | (key, value) :: rest =>
    if key ∈ TENANT_COMPOUND_UNIQUE_KEYS then uniqueScopeState value :: compoundStates rest
    else compoundStates rest

end

end States

section Guard

variable (organizationId model : String) (operation : Operation)

end Guard

/-! ## What the states say of a filter -/

theorem organizationIdState_matching {organizationId : String} {value : Arg}
    (h : organizationIdState organizationId value = .matching) :
    value = .str organizationId ∨ value = .obj [("equals", .str organizationId)] := by
  unfold organizationIdState at h
  split at h
  · next text =>
    split at h
    · next heq => exact .inl (by rw [heq])
    · cases h
  · next key text =>
    split at h
    · next heq => exact .inr (by rw [heq.1, heq.2])
    · cases h
  · cases h

theorem combineScopeStates_matching {states : List ScopeState} :
    combineScopeStates states = .matching ↔ .matching ∈ states := by
  unfold combineScopeStates
  split
  · next h => exact iff_of_true rfl h
  · next h =>
    refine iff_of_false ?_ h
    split <;> exact nofun

section Filters

variable {Row : Type} {prisma : Prisma Row} {row : Row} {organizationId : String}

/-- A row that meets a filter meets each of its keys. -/
theorem Prisma.holds_of_lookup {key : String} {value : Arg} : ∀ {fields : Fields},
    prisma.holdsFields row fields = true → fields.lookup key = some value →
      prisma.holdsField row key value = true
  | [], _, hlookup => by cases hlookup
  | (name, first) :: rest, hholds, hlookup => by
    rw [Prisma.holdsFields, Bool.and_eq_true] at hholds
    rw [List.lookup_cons] at hlookup
    split at hlookup
    · next heq =>
      obtain rfl : key = name := by simpa using heq
      obtain rfl : first = value := by simpa using hlookup
      exact hholds.1
    · exact Prisma.holds_of_lookup hholds.2 hlookup

theorem Prisma.holds_organizationId {value : Arg}
    (hstate : organizationIdState organizationId value = .matching)
    (hholds : prisma.holdsField row "organizationId" value = true) :
    prisma.organizationId row = organizationId := by
  rcases organizationIdState_matching hstate with rfl | rfl
  · simpa [Prisma.holdsField] using hholds
  · simp [Prisma.holdsField] at hholds
    exact hholds.1

mutual

/-- A filter in the matching state is met by rows of the organization only. -/
theorem filterScopeState_sound : ∀ {clause : Arg},
    filterScopeState organizationId clause = .matching → prisma.holds row clause = true →
      prisma.organizationId row = organizationId
  | .obj fields, hstate, hholds => by
    rw [Prisma.holds] at hholds
    rw [filterScopeState] at hstate
    split at hstate
    · next value hlookup =>
      exact Prisma.holds_organizationId hstate (Prisma.holds_of_lookup hholds hlookup)
    · exact conjunctState_sound hstate hholds
  | .undefined, hstate, _ | .null, hstate, _ | .bool _, hstate, _ | .num _, hstate, _
  | .str _, hstate, _ | .arr _, hstate, _ => by simp [filterScopeState] at hstate

theorem conjunctState_sound : ∀ {fields : List (String × Arg)},
    conjunctState organizationId fields = .matching → prisma.holdsFields row fields = true →
      prisma.organizationId row = organizationId
  | [], hstate, _ => by simp [conjunctState] at hstate
  | (key, .arr clauses) :: rest, hstate, hholds => by
    rw [Prisma.holdsFields, Bool.and_eq_true] at hholds
    rw [conjunctState] at hstate
    split at hstate
    · next hkey =>
      have hclauses := hholds.1
      rw [Prisma.holdsField, if_pos hkey] at hclauses
      exact clauseStates_sound (combineScopeStates_matching.mp hstate) hclauses
    · exact conjunctState_sound hstate hholds.2
  | (key, .obj fields) :: rest, hstate, hholds => by
    rw [Prisma.holdsFields, Bool.and_eq_true] at hholds
    simp only [conjunctState] at hstate
    split at hstate
    · next hkey =>
      have hfields := hholds.1
      rw [Prisma.holdsField, if_pos hkey] at hfields
      exact filterScopeState_sound hstate (by rwa [Prisma.holds])
    · exact conjunctState_sound hstate hholds.2
  | (key, .undefined) :: rest, hstate, hholds | (key, .null) :: rest, hstate, hholds
  | (key, .bool _) :: rest, hstate, hholds | (key, .num _) :: rest, hstate, hholds
  | (key, .str _) :: rest, hstate, hholds => by
    rw [Prisma.holdsFields, Bool.and_eq_true] at hholds
    simp only [conjunctState, filterScopeState] at hstate
    split at hstate
    · cases hstate
    · exact conjunctState_sound hstate hholds.2

theorem clauseStates_sound : ∀ {clauses : List Arg},
    .matching ∈ clauseStates organizationId clauses → prisma.holdsAll row clauses = true →
      prisma.organizationId row = organizationId
  | [], hstate, _ => by simp [clauseStates] at hstate
  | clause :: rest, hstate, hholds => by
    rw [Prisma.holdsAll, Bool.and_eq_true] at hholds
    rw [clauseStates, List.mem_cons] at hstate
    rcases hstate with hfirst | hrest
    · exact filterScopeState_sound hfirst.symm hholds.1
    · exact clauseStates_sound hrest hholds.2

end

/-- The fields of a compound unique key are a filter of their own. -/
theorem Prisma.holds_of_compound {key : String} {value : Arg}
    (hkey : key ∈ TENANT_COMPOUND_UNIQUE_KEYS)
    (hholds : prisma.holdsField row key value = true) : prisma.holds row value = true := by
  have hplain : ∀ name ∈ TENANT_COMPOUND_UNIQUE_KEYS,
      name ≠ "AND" ∧ name ≠ "OR" ∧ name ≠ "NOT" ∧ name ≠ "organizationId" := by decide
  obtain ⟨hand, hor, hnot, horganization⟩ := hplain key hkey
  cases value with
  | obj fields =>
    rw [Prisma.holdsField, if_neg hand, if_neg hor, if_neg hnot, if_neg horganization,
      if_pos hkey] at hholds
    rwa [Prisma.holds]
  | _ => simp [Prisma.holds]

mutual

/-- So is a unique selector. -/
theorem uniqueScopeState_sound : ∀ {clause : Arg},
    uniqueScopeState organizationId clause = .matching → prisma.holds row clause = true →
      prisma.organizationId row = organizationId
  | .obj fields, hstate, hholds => by
    rw [uniqueScopeState] at hstate
    split at hstate
    · rw [Prisma.holds] at hholds
      exact compoundStates_sound (combineScopeStates_matching.mp hstate) hholds
    · exact filterScopeState_sound hstate hholds
  | .undefined, hstate, _ | .null, hstate, _ | .bool _, hstate, _ | .num _, hstate, _
  | .str _, hstate, _ | .arr _, hstate, _ => by simp [uniqueScopeState] at hstate

theorem compoundStates_sound : ∀ {fields : List (String × Arg)},
    .matching ∈ compoundStates organizationId fields → prisma.holdsFields row fields = true →
      prisma.organizationId row = organizationId
  | [], hstate, _ => by simp [compoundStates] at hstate
  | (key, value) :: rest, hstate, hholds => by
    rw [Prisma.holdsFields, Bool.and_eq_true] at hholds
    rw [compoundStates] at hstate
    split at hstate
    · next hkey =>
      rcases List.mem_cons.mp hstate with hfirst | hrest
      · exact uniqueScopeState_sound hfirst.symm 
          (Prisma.holds_of_compound hkey hholds.1)
      · exact compoundStates_sound hrest hholds.2
    · exact compoundStates_sound hstate hholds.2

end

end Filters

/-! ## What is left of the payloads -/

/-- A payload to create that carries the organization. -/
structure Carries (organizationId : String) (payload : Fields) : Prop where
  flat : Flat payload
  given : payload.lookup "organizationId" = some (.str organizationId) ∨
    payload.lookup "organizationId" = none ∧
      ∃ relation, payload.lookup "organization" = some relation ∧ Connects relation organizationId

/-- A payload to update that keeps the organization. -/
structure Keeps (organizationId : String) (payload : Fields) : Prop where
  flat : Flat payload
  unlinked : payload.lookup "organization" = none
  given : ∀ value, payload.lookup "organizationId" = some value → value = .str organizationId

section Payloads

variable {organizationId model : String} {operation : Operation}

theorem Flat.append {fields : Fields} (hflat : Flat fields) (text : String) :
    Flat (fields ++ [("organizationId", .str text)]) := by
  intro field hfield
  rcases List.mem_append.mp hfield with hold | hnew
  · exact hflat field hold
  · obtain rfl := List.mem_singleton.mp hnew
    exact .inr (.inr nofun)

end Payloads

/-! ## What a query that is let through reaches -/

section Isolation

variable {Row : Type} {prisma : Prisma Row} {organizationId model : String}
  {operation : Operation} {args rewritten : Arg}

theorem Carries.created (lawful : prisma.Lawful) {payload : Fields} {x : String}
    (h : Carries organizationId payload) (hcreates : prisma.creates payload x) :
    x = organizationId := by
  rcases h.given with hcolumn | ⟨hnone, relation, hrelation, hconnects⟩
  · cases hunlinked : payload.lookup "organization" with
    | none => exact lawful.unchecked payload organizationId x h.flat hcolumn hunlinked hcreates
    | some relation =>
      refine absurd hcreates (lawful.exclusive payload x ?_ ?_)
      · rw [hcolumn, Option.isSome_some]
      · rw [hunlinked, Option.isSome_some]
  · exact lawful.checked payload relation organizationId x h.flat hnone hrelation hconnects hcreates

end Isolation

/-- Prisma on rows of an organization and a name. -/
def Prisma.named : Prisma (String × String) where
  organizationId := Prod.fst
  column row key value :=
    match value with
    | .str text => decide (key = "name" → row.2 = text)
    | _ => true
  creates payload x :=
    payload.lookup "organization" = none ∧ payload.lookup "organizationId" = some (.str x) ∨
      payload.lookup "organizationId" = none ∧
        ∃ relation, payload.lookup "organization" = some relation ∧ Connects relation x
  assigns payload x := payload.lookup "organizationId" = some (.str x)

end BookingApp
