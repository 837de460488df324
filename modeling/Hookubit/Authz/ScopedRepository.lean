/- sources: authz/tenant-scope.ts
   digest: Tenant-scoped access to one table: the query fence, the write guards, every operation. -/

import Hookubit.Authz.TenantResolver
import Mathlib.Data.Rat.Floor

/-!
Arguments come from erased types, so they are arbitrary values here. What Prisma makes of them
is a parameter: the meaning of a caller's `where`, an order, a grouping, a scalar update that is
no plain value, and whatever a nested relation writer would do.
-/

set_option autoImplicit false
set_option relaxedAutoImplicit false

namespace Hookubit.Authz.ScopedRepository

open Authz.TenantResolver Authz.TenantScope Common.Errors Data.Relational

/-- A value as it arrives from JavaScript. -/
inductive Js
  | undefined
  | null
  | bool (b : Bool)
  | number (q : ℚ)
  | string (s : String)
  | array (items : List Js)
  | object (entries : List (String × Js))

def Js.isDefined : Js → Bool
  | .undefined => false
  | _ => true

/-- The fields of a model, by kind, from the generated data model. -/
structure ModelShape where
  scalars : List String
  relations : List String

abbrev Payload := List (String × Js)

/-- What is left to Prisma and to the schema's other constraints. -/
structure Prisma where
  shape : Table → ModelShape
  eval : Js → Db → Row → Bool
  order : Js → List Row → List Row
  group : Js → List Row → List (List Row)
  scalar : Js → Option String → Option String
  nested : Payload → Db → Db
  defaults : Table → Row
  admits : Db → Table → List Row → Bool
  eval_field : ∀ name value db r, eval (.object [(name, .string value)]) db r = column name value r
  mem_order : ∀ by_ l r, r ∈ order by_ l → r ∈ l
  mem_group : ∀ args l g, g ∈ group args l → ∀ r ∈ g, r ∈ l
  defaults_key : ∀ t, ∀ k ∈ t.foreignKeys, defaults t k.1 = none

/-- A size or an offset: left out, not a finite number, or a number. -/
inductive JsNumber
  | undefined
  | notFinite
  | finite (q : ℚ)

def MAX_PAGE_SIZE : ℕ := 200

def DEFAULT_PAGE_SIZE : ℕ := 50

/-- What refuses an array cut off at the default page, for a caller who asked for no page. -/
def partialArray (resourceName : String) : AppError :=
  internalError (resourceName ++ ".findMany matched more rows than the default page of 50 and " ++
    "no 'take' was given, so the array returned would silently be a fraction of the matching " ++
    "rows. Use findPage() and read hasMore, forEachPage() to process all of them, or pass an " ++
    "explicit take.")

def partialRollup (resourceName : String) : AppError :=
  internalError (resourceName ++ ".groupBy produced more than 200 groups and no 'take' was " ++
    "given; the array returned would be a silently partial rollup. Narrow the grouping or " ++
    "page it with an explicit take/skip.")

def pageSize : JsNumber → ℕ
  | .undefined | .notFinite => DEFAULT_PAGE_SIZE
  | .finite take => min (max 1 ⌊take⌋.toNat) MAX_PAGE_SIZE

theorem pageSize_pos (take : JsNumber) : 0 < pageSize take := by
  cases take <;> simp [pageSize, DEFAULT_PAGE_SIZE, MAX_PAGE_SIZE]

theorem pageSize_le (take : JsNumber) : pageSize take ≤ MAX_PAGE_SIZE := by
  cases take <;> simp [pageSize, DEFAULT_PAGE_SIZE, MAX_PAGE_SIZE]

def offset : JsNumber → ℕ
  | .undefined | .notFinite => 0
  | .finite skip => ⌊skip⌋.toNat

def TENANT_COLUMNS : List String := ["organizationId", "projectId"]

def PARENT_KEY : TenantScopeKind → Option String
  | .viaEndpoint => some "endpointId"
  | .viaEvent => some "eventId"
  | .viaDelivery => some "deliveryId"
  | _ => none

def requireProject (ctx : RequestContext) : Except AppError String :=
  match ctx.projectId with
  | some p => .ok p
  | none =>
      .error (internalError ("This route resolved no project, but the code asked for one. Nest " ++
        "the route under :projectId or use an organization-scoped query."))

/-- The columns a new row is stamped with; none where the tenant is reached through a parent. -/
def tenantColumns (ctx : RequestContext) :
    TenantScopeKind → Except AppError (Option (List (String × String)))
  | .organization => .ok (some [("organizationId", ctx.organizationId)])
  | .project => do .ok (some [("projectId", ← requireProject ctx)])
  | .projectAndOrganization | .delivery => do
      .ok (some [("organizationId", ctx.organizationId), ("projectId", ← requireProject ctx)])
  | .organizationSelf | .viaEndpoint | .viaEvent | .viaDelivery => .ok none

inductive Operation
  | create
  | update
  deriving DecidableEq

def invalidRequest (message : String) : AppError := { code := .invalidRequest, message }

section Sanitize

variable (shape : ModelShape) (t : Table) (operation : Operation)

def sanitizeKey (key : String) : Except AppError Unit :=
  if shape.relations.contains key then
    .error (invalidRequest (t.resourceName ++ ": '" ++ key ++ "' is a relation and cannot be " ++
      "written through a scoped repository. Nested writes " ++
      "(connect/set/disconnect/delete/upsert) take a bare unique key with no tenant filter, " ++
      "which is exactly the unscoped access this layer removes. Resolve the related row " ++
      "through its own scoped repository and pass the scalar id."))
  else if !shape.scalars.contains key then
    .error (invalidRequest (t.resourceName ++ ": '" ++ key ++ "' is not a column on this table."))
  else if TENANT_COLUMNS.contains key then
    .error (invalidRequest (t.resourceName ++ ": '" ++ key ++ "' is set by the tenant scope and " ++
      "cannot be supplied. A row cannot be moved between tenants."))
  else if operation = .update ∧ key = t.idField then
    .error (invalidRequest (t.resourceName ++ ": '" ++ key ++ "' is the primary key and cannot " ++
      "be updated."))
  else .ok ()

def sanitizeEntries : Payload → Except AppError Payload
  | [] => .ok []
  | (key, value) :: rest =>
      if !value.isDefined then sanitizeEntries rest
      else do
        sanitizeKey shape t operation key
        let clean ← sanitizeEntries rest
        .ok ((key, value) :: clean)

def sanitize (data : Js) : Except AppError Payload :=
  match data with
  | .object entries => sanitizeEntries shape t operation entries
  | _ => .error (invalidRequest (t.resourceName ++ ": 'data' must be an object."))

end Sanitize

mutual

/-- `isEmptyPredicate`: empty at every depth, whatever the combinators. -/
def isEmptyPredicate : Js → Bool
  | .undefined => true
  | .null => true
  | .array items => areEmptyPredicates items
  | .object entries => areEmptyEntries entries
  | _ => false

def areEmptyPredicates : List Js → Bool
  | [] => true
  | item :: items => isEmptyPredicate item && areEmptyPredicates items

def areEmptyEntries : List (String × Js) → Bool
  | [] => true
  | (key, value) :: entries =>
      ["AND", "OR", "NOT"].contains key && isEmptyPredicate value && areEmptyEntries entries

end

section Delegate

variable (P : Prisma) (db : Db) (t : Table)

abbrev Condition := Db → Row → Bool

def select (p : Condition) (orderBy : Js) : List Row :=
  P.order orderBy ((db.rows t).filter (p db))

/-- The new rows of the table, unless a constraint refuses them. -/
def commit (l : List Row) : Except AppError Db :=
  match (db.replace t l).filter fun _ => P.admits db t l with
  | some db' => .ok db'
  | none => .error unexpected

/-- Prisma's `{ set: value }` wrapper. -/
def unwrapSet : Js → Js
  | .object entries => (entries.lookup "set").getD (.object entries)
  | raw => raw

def assigned (raw : Js) (old : Option String) : Option String :=
  match unwrapSet raw with
  | .null => none
  | .string s => some s
  | _ => P.scalar raw old

def assign (payload : Payload) (r : Row) : Row := fun c =>
  match payload.lookup c with
  | some raw => assigned P raw (r c)
  | none => r c

/-- The row of a `create`: the payload under the stamped columns. -/
def newRow (payload : Payload) (columns : List (String × String)) : Row := fun c =>
  match columns.lookup c with
  | some v => some v
  | none => assign P payload (P.defaults t) c

def writesRelation (payload : Payload) : Bool :=
  payload.any fun e => (P.shape t).relations.contains e.1

def delegateCreate (payload : Payload) (columns : List (String × String)) :
    Except AppError (Row × Db) :=
  let row := newRow P t payload columns
  if writesRelation P t payload then .ok (row, P.nested payload db)
  else do
    let db' ← commit P db t (db.rows t ++ [row])
    .ok (row, db')

def delegateUpdateMany (p : Condition) (payload : Payload) : Except AppError (ℕ × Db) :=
  let count := ((db.rows t).filter (p db)).length
  if writesRelation P t payload then .ok (count, P.nested payload db)
  else do
    let db' ← commit P db t ((db.rows t).map fun r => if p db r then assign P payload r else r)
    .ok (count, db')

def delegateDeleteMany (p : Condition) : Except AppError (ℕ × Db) := do
  let db' ← commit P db t ((db.rows t).filter fun r => !p db r)
  .ok (((db.rows t).filter (p db)).length, db')

end Delegate

section Repository

variable (P : Prisma) (ctx : RequestContext) (db : Db) (t : Table)

/-- `where(extra)`: the tenant predicate, and the caller's clause if there is one. -/
def within (extra : Js) : Condition := fun db r =>
  tenantPredicate ctx db t.kind r &&
    match extra with
    | .undefined | .null => true
    | extra => P.eval extra db r

def byId (id : Js) : Js := .object [(t.idField, id)]

def findById (id : Js) : Option Row := (select P db t (within P ctx t (byId t id)) .undefined).head?

def requireById (id : Js) : Except AppError Row :=
  match findById P ctx db t id with
  | some r => .ok r
  | none => .error resourceNotFound

/-- One declared key of the payload; NULL names nothing. -/
def assertKeyOwned (payload : Payload) (key : String × Table) : Except AppError Unit :=
  match payload.lookup key.1 with
  | none => .ok ()
  | some .null => .ok ()
  | some raw =>
      match unwrapSet raw with
      | .string value =>
          if value = "" then
            .error (invalidRequest (t.resourceName ++ ": '" ++ key.1 ++ "' must be an id string."))
          else do
            let _ ← requireById P ctx db key.2 (.string value)
            .ok ()
      | _ => .error (invalidRequest (t.resourceName ++ ": '" ++ key.1 ++ "' must be an id string."))

def assertKeysOwned (payload : Payload) : List (String × Table) → Except AppError Unit
  | [] => .ok ()
  | key :: keys => do
      assertKeyOwned P ctx db t payload key
      assertKeysOwned payload keys

def assertForeignKeysOwned (payload : Payload) : Except AppError Unit :=
  assertKeysOwned P ctx db t payload t.foreignKeys

/-- A row without tenant columns must name its parent, through a declared key. -/
def assertParentStated (payload : Payload) (parentKey : String) : Except AppError Unit :=
  match payload.lookup parentKey with
  | some (.string parent) =>
      if parent = "" then
        .error (invalidRequest (t.resourceName ++ ": '" ++ parentKey ++ "' is required - it is " ++
          "what places this row in a tenant."))
      else if (t.foreignKeys.lookup parentKey).isNone then
        .error (internalError (t.resourceName ++ " does not declare '" ++ parentKey ++
          "' in its foreignKeys map; add it in tenant-scope.factory.ts or this row could be " ++
          "created under another tenant's parent."))
      else .ok ()
  | _ =>
      .error (invalidRequest (t.resourceName ++ ": '" ++ parentKey ++ "' is required - it is " ++
        "what places this row in a tenant."))

def assertPlaced (columns : Option (List (String × String))) (payload : Payload) :
    Except AppError Unit :=
  match columns, PARENT_KEY t.kind with
  | none, some parentKey => assertParentStated t payload parentKey
  | _, _ => .ok ()

def requirePredicate (clause : Js) (method : String) : Except AppError Unit :=
  if isEmptyPredicate clause then
    .error (internalError (t.resourceName ++ "." ++ method ++ " requires an explicit where " ++
      "clause; an unfiltered bulk write would affect every row in the tenant."))
  else .ok ()

/-- What an operation hands back. A grouping is given by the rows of each group. -/
inductive Answer
  | page (rows : List Row) (hasMore : Bool) (nextSkip : Option ℕ)
  | list (rows : List Row)
  | handed (rows : List Row) (next : Except AppError (Option String))
  | row (row : Option Row)
  | count (n : ℕ)
  | groups (groups : List (List Row))
  | done

def Answer.returned : Answer → List Row
  | .page l _ _ | .list l | .handed l _ => l
  | .row r => r.toList
  | .groups l => l.flatten
  | .count _ | .done => []

/-- The operations with their arguments. One turn of `forEachPage`'s loop is an operation of its
own, since its handler may run others in between. -/
inductive Op
  | findPage (clause orderBy : Js) (take skip : JsNumber)
  | findMany (clause orderBy : Js) (take skip : JsNumber)
  | forEachPage (clause : Js) (size : JsNumber) (cursor : Option String)
  | findFirst (clause orderBy : Js)
  | findById (id : Js)
  | count (clause : Js)
  | groupBy (clause args : Js) (take skip : JsNumber)
  | create (data : Js)
  | updateById (id data : Js)
  | updateMany (clause data : Js)
  | deleteById (id : Js)
  | deleteMany (clause : Js)

def dataColumns : Js → List String
  | .object entries => (entries.filter fun e => e.2.isDefined).map Prod.fst
  | _ => []

def Op.columns : Op → List String
  | .create data | .updateById _ data | .updateMany _ data => dataColumns data
  | _ => []

def findPage (clause orderBy : Js) (take skip : JsNumber) : List Row × Bool × Option ℕ :=
  let size := pageSize take
  let rows := ((select P db t (within P ctx t clause) orderBy).drop (offset skip)).take (size + 1)
  let hasMore : Bool := size < rows.length
  (if hasMore then rows.take size else rows, hasMore,
    if hasMore then some (offset skip + size) else none)

def findMany (clause orderBy : Js) (take skip : JsNumber) : Except AppError (List Row) :=
  let page := findPage P ctx db t clause orderBy take skip
  match take with
  | .undefined =>
      if page.2.1 then .error (partialArray t.resourceName) else .ok page.1
  | _ => .ok page.1

/-- The clause of the next turn: past the last row seen, in primary key order. -/
def pastCursor (clause : Js) : Option String → Js
  | none => clause
  | some cursor =>
      let base := match clause with
        | .undefined | .null => .object []
        | clause => clause
      .object [("AND", .array [base, .object [(t.idField, .object [("gt", .string cursor)])]])]

def forEachPage (clause : Js) (size : JsNumber) (cursor : Option String) :
    List Row × Except AppError (Option String) :=
  let rows := (select P db t (within P ctx t (pastCursor t clause cursor))
    (.object [(t.idField, .string "asc")])).take (pageSize size)
  let next : Except AppError (Option String) :=
    match rows.getLast? with
    | none => .ok none
    | some last =>
        match last t.idField with
        | none | some "" =>
            .error (internalError (t.resourceName ++ ".forEachPage cannot page: '" ++
              t.idField ++ "' is not a string on the rows it read."))
        | some id => if rows.length < pageSize size then .ok none else .ok (some id)
  (rows, next)

def groupBy (clause args : Js) (take skip : JsNumber) : Except AppError (List (List Row)) :=
  let rows := (db.rows t).filter (within P ctx t clause db)
  let limited (limit : ℕ) := ((P.group args rows).drop (offset skip)).take (limit + 1)
  match take with
  | .undefined =>
      let groups := limited MAX_PAGE_SIZE
      if groups.length ≤ MAX_PAGE_SIZE then .ok groups
      else .error (partialRollup t.resourceName)
  | take => .ok ((limited (pageSize take)).take (pageSize take))

def createRow (data : Js) : Except AppError (Row × Db) := do
  let columns ← tenantColumns ctx t.kind
  if columns.isNone ∧ (PARENT_KEY t.kind).isNone then
    .error (internalError (t.resourceName ++ " rows are scoped through a parent and cannot be " ++
      "created by a scoped repository; create them alongside their parent inside a transaction."))
  else do
    let payload ← sanitize (P.shape t) t .create data
    assertPlaced t columns payload
    assertForeignKeysOwned P ctx db t payload
    delegateCreate P db t payload (columns.getD [])

/-- The statement of `updateById` and of `updateMany`, after their guards. -/
def updateWhere (clause data : Js) : Except AppError (ℕ × Db) := do
  let payload ← sanitize (P.shape t) t .update data
  assertForeignKeysOwned P ctx db t payload
  delegateUpdateMany P db t (within P ctx t clause) payload

/-- The update and its read-back; either miss rolls the transaction back. -/
def updateById (id data : Js) : Except AppError (Row × Db) := do
  let (count, db') ← updateWhere P ctx db t (byId t id) data
  if count = 0 then .error resourceNotFound
  else
    match (select P db' t (within P ctx t (byId t id)) .undefined).head? with
    | none => .error resourceNotFound
    | some r => .ok (r, db')

/-- One operation: its answer and the database after it, or an error and no change. -/
def perform : Op → Except AppError (Answer × Db)
  | .findPage clause orderBy take skip =>
      let page := findPage P ctx db t clause orderBy take skip
      .ok (.page page.1 page.2.1 page.2.2, db)
  | .findMany clause orderBy take skip => do
      let rows ← findMany P ctx db t clause orderBy take skip
      .ok (.list rows, db)
  | .forEachPage clause size cursor =>
      let turn := forEachPage P ctx db t clause size cursor
      .ok (.handed turn.1 turn.2, db)
  | .findFirst clause orderBy =>
      .ok (.row (select P db t (within P ctx t clause) orderBy).head?, db)
  | .findById id => .ok (.row (findById P ctx db t id), db)
  | .count clause => .ok (.count ((db.rows t).filter (within P ctx t clause db)).length, db)
  | .groupBy clause args take skip => do
      let groups ← groupBy P ctx db t clause args take skip
      .ok (.groups groups, db)
  | .create data => do
      let (row, db') ← createRow P ctx db t data
      .ok (.row (some row), db')
  | .updateById id data => do
      let (row, db') ← updateById P ctx db t id data
      .ok (.row (some row), db')
  | .updateMany clause data => do
      requirePredicate t clause "updateMany"
      let (count, db') ← updateWhere P ctx db t clause data
      .ok (.count count, db')
  | .deleteById id => do
      let (count, db') ← delegateDeleteMany P db t (within P ctx t (byId t id))
      if count = 0 then .error resourceNotFound else .ok (.done, db')
  | .deleteMany clause => do
      requirePredicate t clause "deleteMany"
      let (count, db') ← delegateDeleteMany P db t (within P ctx t clause)
      .ok (.count count, db')

end Repository

end Hookubit.Authz.ScopedRepository
