import Mathlib.Data.List.Basic

/-!
# Query arguments (what `prisma/tenant.extension.ts` is handed, and what Prisma makes of it)

The arguments of a query are a tree of JavaScript values. `Prisma.holds` is the meaning
of a `where`: its keys are conjoined, `AND`, `OR` and `NOT` have their boolean meaning,
and the columns other than the organization are a parameter. What a payload writes is a
parameter as well, of which `Prisma.Lawful` says what Prisma documents.
-/

set_option autoImplicit false

namespace BookingApp

/-- A JavaScript value that is passed as an argument. -/
inductive Arg where
  | undefined
  | null
  | bool (value : Bool)
  | num (value : Rat)
  | str (value : String)
  | arr (items : List Arg)
  | obj (fields : List (String × Arg))

/-- The properties of an object. -/
abbrev Fields := List (String × Arg)

namespace Arg

/-- `value[name]`, of an object -/
def get (value : Arg) (name : String) : Arg :=
  match value with
  | obj fields => (fields.lookup name).getD undefined
  | _ => undefined

/-- The objects of a payload that is one or a list of them. -/
def rows : Arg → List Fields
  | obj fields => [fields]
  | arr items => items.filterMap fun
    | obj fields => some fields
    | _ => none
  | _ => []

end Arg

/-- `{ ...fields, [name]: value }` -/
def assign (name : String) (value : Arg) : Fields → Fields
  | [] => [(name, value)]
  | (key, old) :: rest =>
    if key = name then (name, value) :: rest else (key, old) :: assign name value rest

/-- The operations of a Prisma model. -/
inductive Operation where
  | findMany
  | findFirst
  | findFirstOrThrow
  | findUnique
  | findUniqueOrThrow
  | create
  | createMany
  | createManyAndReturn
  | update
  | updateMany
  | updateManyAndReturn
  | upsert
  | delete
  | deleteMany
  | count
  | aggregate
  | groupBy
  deriving DecidableEq, Repr

def Operation.name : Operation → String
  | findMany => "findMany"
  | findFirst => "findFirst"
  | findFirstOrThrow => "findFirstOrThrow"
  | findUnique => "findUnique"
  | findUniqueOrThrow => "findUniqueOrThrow"
  | create => "create"
  | createMany => "createMany"
  | createManyAndReturn => "createManyAndReturn"
  | update => "update"
  | updateMany => "updateMany"
  | updateManyAndReturn => "updateManyAndReturn"
  | upsert => "upsert"
  | delete => "delete"
  | deleteMany => "deleteMany"
  | count => "count"
  | aggregate => "aggregate"
  | groupBy => "groupBy"

/-- The generated names of the compound unique keys that begin with the organization. -/
def TENANT_COMPOUND_UNIQUE_KEYS : List String :=
  ["organizationId_date", "organizationId_email", "organizationId_emailNormalized",
    "organizationId_id", "organizationId_name", "organizationId_reference",
    "organizationId_rescheduledFromBookingId", "organizationId_resultingBookingId"]

/-- The names under which a relation field is written through. -/
def NESTED_WRITE_OPERATIONS : List String :=
  ["create", "createMany", "update", "updateMany", "upsert", "connectOrCreate", "connect",
    "disconnect", "set", "delete", "deleteMany"]

/-- Scalar JSON columns, whose data may contain any key. -/
def JSON_FIELDS : List String :=
  ["metadata", "payload", "responseSnapshot", "before", "after"]

/-- What of Prisma is not read here, for the rows of one model: the organization of a row,
the filters on its other columns, and the organizations that rows of the model get when a
payload is created or when rows are updated with it. -/
structure Prisma (Row : Type) where
  organizationId : Row → String
  column : Row → String → Arg → Bool
  creates : Fields → String → Prop
  assigns : Fields → String → Prop

namespace Prisma

section

variable {Row : Type} (prisma : Prisma Row) (row : Row)

mutual

/-- Whether the row meets a filter. -/
def holds : Arg → Bool
  | .obj fields => holdsFields fields
  | _ => true

/-- The keys of a filter are conjoined. -/
def holdsFields : List (String × Arg) → Bool
  | [] => true
  | (key, value) :: rest => holdsField key value && holdsFields rest

/-- One key of a filter. The fields of a compound unique key are conjoined as well. -/
def holdsField (key : String) : Arg → Bool
  | .undefined => true
  | .arr items =>
    if key = "AND" then holdsAll items
    else if key = "OR" then holdsSome items
    else if key = "NOT" then !holdsSome items
    else prisma.column row key (.arr items)
  | .obj fields =>
    if key = "AND" then holdsFields fields
    else if key = "OR" then holdsFields fields
    else if key = "NOT" then !holdsFields fields
    else if key = "organizationId" then
      (match fields.lookup "equals" with
      | some (.str value) => decide (prisma.organizationId row = value)
      | _ => true) && prisma.column row key (.obj fields)
    else if key ∈ TENANT_COMPOUND_UNIQUE_KEYS then holdsFields fields
    else prisma.column row key (.obj fields)
  | .str value =>
    if key = "organizationId" then decide (prisma.organizationId row = value)
    else prisma.column row key (.str value)
  | .null => prisma.column row key .null
  | .bool value => prisma.column row key (.bool value)
  | .num value => prisma.column row key (.num value)

def holdsAll : List Arg → Bool
  | [] => true
  | clause :: rest => holds clause && holdsAll rest

def holdsSome : List Arg → Bool
  | [] => false
  | clause :: rest => holds clause || holdsSome rest

end

end

end Prisma

/-- Whether the fields write the columns of their own row only: none but the organization
names an operation on a relation. -/
def Flat (fields : Fields) : Prop :=
  ∀ field ∈ fields, field.1 = "organization" ∨ field.1 ∈ JSON_FIELDS ∨
    ∀ keys, field.2 = .obj keys → ∀ key ∈ keys, key.1 ∉ NESTED_WRITE_OPERATIONS

/-- Whether the input of a relation connects the row to the record with this id. -/
def Connects (relation : Arg) (id : String) : Prop :=
  (relation.get "connect").get "id" = .str id

/-- What Prisma documents of payloads whose nested writes are at most of the organization.
A created row is given its organization as a column or by connecting the relation, and
never both ways; an update that does not name the relation sets the column to the value
it names, or leaves it. -/
structure Prisma.Lawful {Row : Type} (prisma : Prisma Row) : Prop where
  unchecked : ∀ payload x y, Flat payload → payload.lookup "organizationId" = some (.str x) →
    payload.lookup "organization" = none → prisma.creates payload y → y = x
  checked : ∀ payload relation x y, Flat payload → payload.lookup "organizationId" = none →
    payload.lookup "organization" = some relation → Connects relation x →
    prisma.creates payload y → y = x
  exclusive : ∀ payload y, (payload.lookup "organizationId").isSome →
    (payload.lookup "organization").isSome → ¬ prisma.creates payload y
  updated : ∀ payload x y, Flat payload → payload.lookup "organizationId" = some (.str x) →
    payload.lookup "organization" = none → prisma.assigns payload y → y = x
  left : ∀ payload y, Flat payload → payload.lookup "organizationId" = none →
    payload.lookup "organization" = none → ¬ prisma.assigns payload y

namespace Prisma

variable {Row : Type} (prisma : Prisma Row) (operation : Operation) (args : Arg)

end Prisma

end BookingApp
