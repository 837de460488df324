/- sources: authz/tenant-scope.ts, authz/tenant-scope.factory.ts, authz/tenant-resolver.service.ts
   digest: No operation of a scoped repository reads, changes or reaches a row outside the
     tenant. -/

import Hookubit.Authz.ScopedRepository

/-!
Each operation is first reduced to what it does to its table (`Effect`). A row stays in the tenant
because its tenant columns are never written, and its parent, where tenancy comes from one, is
either the old parent or a row that was looked up inside the tenant.
-/

set_option autoImplicit false
set_option relaxedAutoImplicit false

namespace Hookubit.Authz.TenantIsolation

open Authz.TenantResolver Authz.TenantScope Authz.ScopedRepository Common.Errors Data.Relational

/-- The column through which a kind reaches its parent, and the parent's table. -/
def parentOf : TenantScopeKind → Option (String × Table)
  | .viaEndpoint | .delivery => some ("endpointId", .endpoints)
  | .viaEvent => some ("eventId", .events)
  | .viaDelivery => some ("deliveryId", .deliveries)
  | _ => none

theorem parent_declared {t : Table} :
    ∀ k ∈ parentOf t.kind, k ∈ t.foreignKeys ∧ k.1 ∈ t.required := by
  cases t <;> decide

theorem key_not_tenant {t : Table} : ∀ k ∈ t.foreignKeys, k.1 ∉ TENANT_COLUMNS := by
  cases t <;> decide

section Predicate

variable {ctx : RequestContext} {db : Db}

/-- The part of the predicate that reads the row's own tenant columns. -/
def columnPart (ctx : RequestContext) (db : Db) : TenantScopeKind → Row → Bool
  | .organization => column "organizationId" ctx.organizationId
  | .organizationSelf => column "id" ctx.organizationId
  | .project => projectPredicate ctx db
  | .projectAndOrganization | .delivery => columnsPredicate ctx
  | .viaEndpoint | .viaEvent | .viaDelivery => fun _ => true

theorem tenantPredicate_iff (kind : TenantScopeKind) (r : Row) :
    tenantPredicate ctx db kind r = true ↔ columnPart ctx db kind r = true ∧
      ∀ k ∈ parentOf kind, db.joins k.1 k.2 (tenantPredicate ctx db k.2.kind) r = true := by
  cases kind with
  | organization | organizationSelf | project | projectAndOrganization =>
    simp [tenantPredicate, columnPart, parentOf]
  | viaEndpoint => simp [viaEndpoint_eq, columnPart, parentOf, Table.kind]
  | viaEvent => simp [viaEvent_eq, columnPart, parentOf, Table.kind]
  | delivery =>
    rw [delivery_eq, Bool.and_eq_true]
    simp [columnPart, parentOf, Table.kind, tenantPredicate, and_comm]
  | viaDelivery => simp [viaDelivery_eq, columnPart, parentOf, Table.kind]

theorem columnPart_congr {kind : TenantScopeKind} {r r' : Row}
    (columns : ∀ c ∈ TENANT_COLUMNS, r' c = r c)
    (self : kind = .organizationSelf → r' "id" = r "id") :
    columnPart ctx db kind r' = columnPart ctx db kind r := by
  have organization : r' "organizationId" = r "organizationId" := columns _ (by decide)
  have project : r' "projectId" = r "projectId" := columns _ (by decide)
  cases kind with
  | organization => simp only [columnPart, column, organization]
  | organizationSelf => simp only [columnPart, column, self rfl]
  | project =>
    cases h : ctx.projectId with
    | some p => simp only [columnPart, projectPredicate, h, column, project]
    | none => simp only [columnPart, projectPredicate, h, Database.joins, project]
  | projectAndOrganization | delivery =>
    simp only [columnPart, columnsPredicate, column, organization, project]
  | viaEndpoint | viaEvent | viaDelivery => rfl

end Predicate

/-- The value is the key of a row of the table that satisfies the table's predicate. -/
def Names (ctx : RequestContext) (db : Db) (u : Table) (v : Option String) : Prop :=
  v.isSome = true ∧ ∃ p ∈ db.rows u, v = p u.idField ∧ tenantPredicate ctx db u.kind p = true

variable {ctx : RequestContext}

theorem joins_iff_names {db : Db} {u : Table} {c : String} {r : Row} :
    db.joins c u (tenantPredicate ctx db u.kind) r = true ↔ Names ctx db u (r c) :=
  Database.joins_iff

theorem mem_select {P : Prisma} {db : Db} {t : Table} {p : Condition} {orderBy : Js} {r : Row}
    (h : r ∈ select P db t p orderBy) : r ∈ db.rows t ∧ p db r = true :=
  List.mem_filter.mp (P.mem_order _ _ _ h)

theorem within_le {P : Prisma} {db : Db} {t : Table} {extra : Js} {r : Row}
    (h : within P ctx t extra db r = true) : tenantPredicate ctx db t.kind r = true :=
  (Bool.and_eq_true_iff.mp h).1

theorem commit_ok {P : Prisma} {db db' : Db} {t : Table} {l : List Row}
    (h : commit P db t l = .ok db') : db'.rows t = l ∧ ∀ u ≠ t, db'.rows u = db.rows u := by
  unfold commit at h
  split at h
  · rename_i found
    obtain ⟨⟩ := h
    exact Database.rows_replace (Option.filter_eq_some_iff.mp found).1
  · cases h

section Guards

variable {P : Prisma} {ctx : RequestContext} {db : Db} {t : Table} {operation : Operation}
  {payload : Payload}

theorem sanitizeKey_ok {shape : ModelShape} {key : String}
    (h : sanitizeKey shape t operation key = .ok ()) :
    key ∉ shape.relations ∧ key ∉ TENANT_COLUMNS ∧ (operation = .update → key ≠ t.idField) := by
  unfold sanitizeKey at h
  split_ifs at h with relation _ tenant id
  exact ⟨by simpa using relation, by simpa using tenant, fun ho hk => id ⟨ho, hk⟩⟩

theorem sanitizeEntries_ok {shape : ModelShape} {entries clean : Payload}
    (h : sanitizeEntries shape t operation entries = .ok clean) :
    clean = (entries.filter fun e => e.2.isDefined) ∧
      ∀ e ∈ clean, sanitizeKey shape t operation e.1 = .ok () := by
  induction entries generalizing clean with
  | nil =>
    obtain ⟨⟩ := h
    exact ⟨rfl, List.forall_mem_nil _⟩
  | cons e entries ih =>
    obtain ⟨key, value⟩ := e
    rw [sanitizeEntries] at h
    split at h
    · rename_i missing
      obtain ⟨rfl, checked⟩ := ih h
      refine ⟨?_, checked⟩
      rw [List.filter_cons_of_neg]
      simpa using missing
    · rename_i given
      obtain ⟨_, here, h⟩ := bind_eq_ok.mp h
      obtain ⟨rest, hrest, ⟨⟩⟩ := bind_eq_ok.mp h
      obtain ⟨rfl, checked⟩ := ih hrest
      refine ⟨?_, ?_⟩
      · rw [List.filter_cons_of_pos]
        simpa using given
      · rintro e he
        obtain rfl | later := List.mem_cons.mp he
        · exact here
        · exact checked e later

theorem lookup_eq_none {c : String} (h : ∀ e ∈ payload, e.1 ≠ c) : payload.lookup c = none := by
  rw [List.lookup_eq_none_iff]
  intro e he
  exact bne_iff_ne.mpr (h e he).symm

theorem findById_names {id : String} {r : Row} {u : Table}
    (h : findById P ctx db u (.string id) = some r) : Names ctx db u (some id) := by
  obtain ⟨mem, matched⟩ := mem_select (List.mem_of_mem_head? h)
  have key := (Bool.and_eq_true_iff.mp matched).2
  simp only [byId, P.eval_field, column, beq_iff_eq] at key
  exact ⟨rfl, r, mem, key.symm, within_le matched⟩

variable {k : String × Table}

theorem assertKeyOwned_ok (h : assertKeyOwned P ctx db t payload k = .ok ())
    {raw : Js} (given : payload.lookup k.1 = some raw) (old : Option String) :
    assigned P raw old = none ∨ Names ctx db k.2 (assigned P raw old) := by
  unfold assertKeyOwned at h
  rw [given] at h
  split at h
  · rename_i absent
    cases absent
  · rename_i null
    obtain ⟨⟩ := null
    exact .inl rfl
  · rename_i some_raw
    obtain ⟨⟩ := some_raw
    split at h
    · rename_i value unwrapped
      split at h
      · cases h
      · obtain ⟨r, found, _⟩ := bind_eq_ok.mp h
        right
        simp only [assigned, unwrapped]
        unfold requireById at found
        split at found
        · rename_i q hq
          exact findById_names hq
        · cases found
    · cases h

theorem assertKeysOwned_ok {keys : List (String × Table)}
    (h : assertKeysOwned P ctx db t payload keys = .ok ()) :
    ∀ k ∈ keys, assertKeyOwned P ctx db t payload k = .ok () := by
  induction keys with
  | nil => exact List.forall_mem_nil _
  | cons key keys ih =>
    obtain ⟨_, first, rest⟩ := bind_eq_ok.mp h
    exact List.forall_mem_cons.mpr ⟨first, ih rest⟩

/-- What is known of a payload once both guards have let it through. -/
structure Written (P : Prisma) (ctx : RequestContext) (db : Db) (t : Table)
    (operation : Operation) (data : Js) (payload : Payload) : Prop where
  columns : payload.map Prod.fst = dataColumns data
  plain : writesRelation P t payload = false
  tenant : ∀ c ∈ TENANT_COLUMNS, payload.lookup c = none
  key : operation = .update → payload.lookup t.idField = none
  owned : ∀ k ∈ t.foreignKeys, ∀ raw, payload.lookup k.1 = some raw → ∀ old,
    assigned P raw old = none ∨ Names ctx db k.2 (assigned P raw old)

theorem written_of_guards {data : Js}
    (sanitized : sanitize (P.shape t) t operation data = .ok payload)
    (owned : assertForeignKeysOwned P ctx db t payload = .ok ()) :
    Written P ctx db t operation data payload := by
  unfold sanitize at sanitized
  split at sanitized
  · rename_i entries
    obtain ⟨rfl, checked⟩ := sanitizeEntries_ok sanitized
    refine ⟨rfl, ?_, ?_, ?_, ?_⟩
    · rw [writesRelation, List.any_eq_false]
      intro e he
      simpa using (sanitizeKey_ok (checked e he)).1
    · intro c hc
      exact lookup_eq_none fun e he same => (sanitizeKey_ok (checked e he)).2.1 (same ▸ hc)
    · intro update
      exact lookup_eq_none fun e he => (sanitizeKey_ok (checked e he)).2.2 update
    · intro k hk raw given old
      exact assertKeyOwned_ok (assertKeysOwned_ok owned k hk) given old
  · cases sanitized

end Guards

section Landing

variable {P : Prisma} {ctx : RequestContext} {db db' : Db} {t : Table} {data : Js}
  {payload : Payload} {r : Row} {columns : Option (List (String × String))}

/-- A row with its tenant part in order, and a parent inside the tenant, is in the tenant. -/
theorem lands (filled : schema.Filled t r) (column_part : columnPart ctx db t.kind r = true)
    (parent : ∀ k ∈ parentOf t.kind, r k.1 = none ∨ Names ctx db k.2 (r k.1)) :
    tenantPredicate ctx db t.kind r = true := by
  refine (tenantPredicate_iff _ _).mpr ⟨column_part, fun k hk => joins_iff_names.mpr ?_⟩
  -- a NULL parent is what the NOT NULL constraint has excluded
  refine (parent k hk).resolve_left fun null => ?_
  have := filled k.1 (parent_declared k hk).2
  simp [null] at this

theorem assign_of_none {c : String} (h : payload.lookup c = none) : assign P payload r c = r c := by
  simp [assign, h]

variable {k : String × Table}

theorem assign_key (w : Written P ctx db t .update data payload)
    (hk : k ∈ t.foreignKeys) (r : Row) :
    (k.1 ∉ dataColumns data ∧ assign P payload r k.1 = r k.1) ∨
      assign P payload r k.1 = none ∨ Names ctx db k.2 (assign P payload r k.1) := by
  cases h : payload.lookup k.1 with
  | none =>
    refine .inl ⟨?_, assign_of_none h⟩
    rw [← w.columns]
    intro hm
    obtain ⟨e, he, same⟩ := List.mem_map.mp hm
    have := (List.lookup_eq_none_iff.mp h) e he
    simp [same] at this
  | some raw =>
    have assigns : assign P payload r k.1 = assigned P raw (r k.1) := by simp [assign, h]
    rw [assigns]
    exact .inr (w.owned k hk raw h (r k.1))

theorem lands_assign (w : Written P ctx db t .update data payload)
    (filled : schema.Filled t (assign P payload r))
      (here : tenantPredicate ctx db t.kind r = true) :
    tenantPredicate ctx db t.kind (assign P payload r) = true := by
  obtain ⟨column_part, parent⟩ := (tenantPredicate_iff _ _).mp here
  refine lands filled ?_ fun k hk => ?_
  · rw [columnPart_congr fun c hc => assign_of_none (w.tenant c hc)]
    · exact column_part
    · intro self
      have key : t.idField = "id" := by
        cases t <;> first | rfl | cases self
      exact assign_of_none (key ▸ w.key rfl)
  · obtain ⟨_, kept⟩ | written := assign_key w (parent_declared k hk).1 r
    · rw [kept]
      exact .inr (joins_iff_names.mp (parent k hk))
    · exact written

theorem lookup_columns (h : tenantColumns ctx t.kind = .ok columns) {c : String}
    (hc : c ∉ TENANT_COLUMNS) : (columns.getD []).lookup c = none := by
  have organization : (c == "organizationId") = false :=
    beq_false_of_ne fun same => hc (same ▸ by decide)
  have project : (c == "projectId") = false := beq_false_of_ne fun same => hc (same ▸ by decide)
  cases hk : t.kind <;> rw [hk] at h
  case project | projectAndOrganization | delivery =>
    obtain ⟨p, _, ⟨⟩⟩ := bind_eq_ok.mp h
    simp [List.lookup_cons, organization, project]
  all_goals
    obtain ⟨⟩ := h
    simp [List.lookup_cons, organization]

theorem newRow_key (w : Written P ctx db t .create data payload)
    (hc : tenantColumns ctx t.kind = .ok columns) (hk : k ∈ t.foreignKeys) :
    newRow P t payload (columns.getD []) k.1 = none ∨
      Names ctx db k.2 (newRow P t payload (columns.getD []) k.1) := by
  have plain : newRow P t payload (columns.getD []) k.1 = assign P payload (P.defaults t) k.1 := by
    simp [newRow, lookup_columns hc (key_not_tenant k hk)]
  rw [plain]
  cases h : payload.lookup k.1 with
  | none =>
    rw [assign_of_none h]
    exact .inl (P.defaults_key t k hk)
  | some raw =>
    have assigns : assign P payload (P.defaults t) k.1 = assigned P raw (P.defaults t k.1) := by
      simp [assign, h]
    rw [assigns]
    exact w.owned k hk raw h _

theorem requireProject_ok {p : String} (h : requireProject ctx = .ok p) :
    ctx.projectId = some p := by
  unfold requireProject at h
  split at h
  · rename_i q hq
    obtain ⟨⟩ := h
    exact hq
  · cases h

theorem columnPart_newRow (h : tenantColumns ctx t.kind = .ok columns)
    (creatable : ¬(columns.isNone ∧ (PARENT_KEY t.kind).isNone)) :
    columnPart ctx db t.kind (newRow P t payload (columns.getD [])) = true := by
  cases hk : t.kind <;> rw [hk] at h creatable
  case organization =>
    obtain ⟨⟩ := h
    simp [columnPart, column, newRow]
  case project =>
    obtain ⟨p, hp, ⟨⟩⟩ := bind_eq_ok.mp h
    simp [columnPart, projectPredicate, requireProject_ok hp, column, newRow]
  case projectAndOrganization | delivery =>
    obtain ⟨p, hp, ⟨⟩⟩ := bind_eq_ok.mp h
    simp [columnPart, columnsPredicate, requireProject_ok hp, column, newRow, List.lookup_cons]
  case organizationSelf =>
    obtain ⟨⟩ := h
    exact absurd ⟨rfl, rfl⟩ creatable
  all_goals rfl

theorem lands_newRow (w : Written P ctx db t .create data payload)
    (hc : tenantColumns ctx t.kind = .ok columns)
    (creatable : ¬(columns.isNone ∧ (PARENT_KEY t.kind).isNone))
    (filled : schema.Filled t (newRow P t payload (columns.getD []))) :
    tenantPredicate ctx db t.kind (newRow P t payload (columns.getD [])) = true :=
  lands filled (columnPart_newRow hc creatable)
    fun k hk => newRow_key w hc (parent_declared k hk).1

end Landing

/-- What an operation does to its table. -/
inductive Effect (P : Prisma) (ctx : RequestContext) (db : Db) (t : Table) (op : Op) :
    Answer → Db → Prop
  | read {a : Answer} (inside : ∀ r ∈ a.returned, tenantPredicate ctx db t.kind r = true) :
      Effect P ctx db t op a db
  | created {data : Js} {payload : Payload} {columns : Option (List (String × String))} {db' : Db}
      (w : Written P ctx db t .create data payload) (ho : op.columns = dataColumns data)
      (hc : tenantColumns ctx t.kind = .ok columns)
      (creatable : ¬(columns.isNone ∧ (PARENT_KEY t.kind).isNone))
      (rows : db'.rows t = db.rows t ++ [newRow P t payload (columns.getD [])])
      (others : ∀ u ≠ t, db'.rows u = db.rows u) :
      Effect P ctx db t op (.row (some (newRow P t payload (columns.getD [])))) db'
  | updated {data : Js} {payload : Payload} {p : Condition} {a : Answer} {db' : Db}
      (w : Written P ctx db t .update data payload) (ho : op.columns = dataColumns data)
      (fenced : ∀ r, p db r = true → tenantPredicate ctx db t.kind r = true)
      (rows : db'.rows t = (db.rows t).map fun r => if p db r then assign P payload r else r)
      (others : ∀ u ≠ t, db'.rows u = db.rows u)
      (inside : ∀ r ∈ a.returned, tenantPredicate ctx db' t.kind r = true) :
      Effect P ctx db t op a db'
  | deleted {p : Condition} {a : Answer} {db' : Db}
      (fenced : ∀ r, p db r = true → tenantPredicate ctx db t.kind r = true)
      (rows : db'.rows t = (db.rows t).filter fun r => !p db r)
      (others : ∀ u ≠ t, db'.rows u = db.rows u) (nothing : a.returned = []) :
      Effect P ctx db t op a db'

section Effects

variable {P : Prisma} {ctx : RequestContext} {db : Db} {t : Table} {clause : Js} {db' : Db}
  {op : Op} {a : Answer}

theorem inside_of_select {extra orderBy : Js} {l : List Row}
    (sub : ∀ r ∈ l, r ∈ select P db t (within P ctx t extra) orderBy) :
    ∀ r ∈ l, tenantPredicate ctx db t.kind r = true :=
  fun r hr => within_le (mem_select (sub r hr)).2

theorem findPage_inside (clause orderBy : Js) (take skip : JsNumber) :
    ∀ r ∈ (findPage P ctx db t clause orderBy take skip).1,
      tenantPredicate ctx db t.kind r = true := by
  have selected : ∀ r ∈ (findPage P ctx db t clause orderBy take skip).1,
      r ∈ select P db t (within P ctx t clause) orderBy := by
    intro r hr
    unfold findPage at hr
    dsimp only at hr
    split at hr
    · exact List.mem_of_mem_drop (List.mem_of_mem_take (List.mem_of_mem_take hr))
    · exact List.mem_of_mem_drop (List.mem_of_mem_take hr)
  exact inside_of_select selected

theorem findMany_inside {orderBy : Js} {take skip : JsNumber} {l : List Row}
    (h : findMany P ctx db t clause orderBy take skip = .ok l) :
    ∀ r ∈ l, tenantPredicate ctx db t.kind r = true := by
  unfold findMany at h
  dsimp only at h
  split at h
  · split at h
    · cases h
    · obtain ⟨⟩ := h
      exact findPage_inside clause orderBy _ skip
  · obtain ⟨⟩ := h
    exact findPage_inside clause orderBy _ skip

theorem groupBy_inside {args : Js} {take skip : JsNumber} {l : List (List Row)}
    (h : groupBy P ctx db t clause args take skip = .ok l) :
    ∀ r ∈ l.flatten, tenantPredicate ctx db t.kind r = true := by
  have limited (n m : ℕ) : ∀ g ∈ ((P.group args ((db.rows t).filter
      (within P ctx t clause db))).drop n).take m, ∀ r ∈ g,
      tenantPredicate ctx db t.kind r = true := by
    intro g hg r hr
    have grouped := P.mem_group _ _ g (List.mem_of_mem_drop (List.mem_of_mem_take hg)) r hr
    exact within_le (List.mem_filter.mp grouped).2
  intro r hr
  obtain ⟨g, hg, member⟩ := List.mem_flatten.mp hr
  unfold groupBy at h
  dsimp only at h
  split at h
  · split at h
    · obtain ⟨⟩ := h
      exact limited _ _ g hg r member
    · cases h
  · obtain ⟨⟩ := h
    exact limited _ _ g (List.mem_of_mem_take hg) r member

theorem createRow_effect {data : Js} {row : Row} (h : createRow P ctx db t data = .ok (row, db')) :
    Effect P ctx db t (.create data) (.row (some row)) db' := by
  obtain ⟨columns, hc, h⟩ := bind_eq_ok.mp h
  split at h
  · cases h
  · rename_i creatable
    obtain ⟨payload, sanitized, h⟩ := bind_eq_ok.mp h
    obtain ⟨_, _, h⟩ := bind_eq_ok.mp h
    obtain ⟨_, owned, h⟩ := bind_eq_ok.mp h
    have w := written_of_guards sanitized owned
    unfold delegateCreate at h
    rw [w.plain] at h
    obtain ⟨db', committed, ⟨⟩⟩ := bind_eq_ok.mp h
    obtain ⟨rows, others⟩ := commit_ok committed
    exact .created w rfl hc creatable rows others

theorem updateWhere_effect {data : Js} {count : ℕ}
    (h : updateWhere P ctx db t clause data = .ok (count, db')) (ho : op.columns = dataColumns data)
    (inside : ∀ r ∈ a.returned, tenantPredicate ctx db' t.kind r = true) :
    Effect P ctx db t op a db' := by
  obtain ⟨payload, sanitized, h⟩ := bind_eq_ok.mp h
  obtain ⟨_, owned, h⟩ := bind_eq_ok.mp h
  have w := written_of_guards sanitized owned
  unfold delegateUpdateMany at h
  rw [w.plain] at h
  obtain ⟨db', committed, ⟨⟩⟩ := bind_eq_ok.mp h
  obtain ⟨rows, others⟩ := commit_ok committed
  exact .updated w ho (fun r => within_le) rows others inside

theorem delegateDeleteMany_effect {count : ℕ}
    (h : delegateDeleteMany P db t (within P ctx t clause) = .ok (count, db'))
    (nothing : a.returned = []) : Effect P ctx db t op a db' := by
  obtain ⟨db', committed, ⟨⟩⟩ := bind_eq_ok.mp h
  obtain ⟨rows, others⟩ := commit_ok committed
  exact .deleted (fun r => within_le) rows others nothing

theorem perform_effect (h : perform P ctx db t op = .ok (a, db')) : Effect P ctx db t op a db' := by
  cases op with
  | findPage clause orderBy take skip =>
    obtain ⟨⟩ := h
    exact .read (findPage_inside clause orderBy take skip)
  | findMany clause orderBy take skip =>
    obtain ⟨rows, found, ⟨⟩⟩ := bind_eq_ok.mp h
    exact .read (findMany_inside found)
  | forEachPage clause size cursor =>
    obtain ⟨⟩ := h
    exact .read (inside_of_select fun r hr => List.mem_of_mem_take hr)
  | findFirst clause orderBy =>
    obtain ⟨⟩ := h
    exact .read (inside_of_select fun r hr => List.mem_of_mem_head? (Option.mem_toList.mp hr))
  | findById id =>
    obtain ⟨⟩ := h
    exact .read (inside_of_select fun r hr => List.mem_of_mem_head? (Option.mem_toList.mp hr))
  | count clause =>
    obtain ⟨⟩ := h
    exact .read (List.forall_mem_nil _)
  | groupBy clause args take skip =>
    obtain ⟨groups, found, ⟨⟩⟩ := bind_eq_ok.mp h
    exact .read (groupBy_inside found)
  | create data =>
    obtain ⟨⟨row, db'⟩, created, ⟨⟩⟩ := bind_eq_ok.mp h
    exact createRow_effect created
  | updateById id data =>
    obtain ⟨⟨row, db'⟩, updated, ⟨⟩⟩ := bind_eq_ok.mp h
    obtain ⟨⟨count, db'⟩, statement, h⟩ := bind_eq_ok.mp updated
    dsimp only at h
    split at h
    · cases h
    · split at h
      · cases h
      · rename_i r found
        obtain ⟨⟩ := h
        refine updateWhere_effect statement rfl fun q hq => ?_
        obtain rfl := Option.some.inj (Option.mem_toList.mp hq)
        exact within_le (mem_select (List.mem_of_mem_head? found)).2
  | updateMany clause data =>
    obtain ⟨_, _, h⟩ := bind_eq_ok.mp h
    obtain ⟨⟨count, db'⟩, statement, ⟨⟩⟩ := bind_eq_ok.mp h
    exact updateWhere_effect statement rfl (List.forall_mem_nil _)
  | deleteById id =>
    obtain ⟨⟨count, db'⟩, statement, h⟩ := bind_eq_ok.mp h
    dsimp only at h
    split at h
    · cases h
    · obtain ⟨⟩ := h
      exact delegateDeleteMany_effect statement rfl
  | deleteMany clause =>
    obtain ⟨_, _, h⟩ := bind_eq_ok.mp h
    obtain ⟨⟨count, db'⟩, statement, ⟨⟩⟩ := bind_eq_ok.mp h
    exact delegateDeleteMany_effect statement rfl

end Effects

/-- The promise of the repository for one operation on the table `t`. The rows outside the tenant
are the same rows before and after: none is changed or deleted, and no row arrives among them. -/
structure Isolated (ctx : RequestContext) (db : Db) (t : Table) (op : Op) (a : Answer) (db' : Db) :
    Prop where
  returned : ∀ r ∈ a.returned, tenantPredicate ctx db' t.kind r = true
  foreign : outside (tenantPredicate ctx db' t.kind) (db'.rows t) =
    outside (tenantPredicate ctx db t.kind) (db.rows t)
  others : ∀ u ≠ t, db'.rows u = db.rows u
  keys : ∀ r ∈ db'.rows t, r ∈ db.rows t ∨ ∀ k ∈ t.foreignKeys, k.1 ∈ op.columns →
    r k.1 = none ∨ Names ctx db' k.2 (r k.1)

section Isolation

variable {P : Prisma} {ctx : RequestContext} {db db' : Db} {t : Table} {data : Js}
  {payload : Payload}

theorem predicate_after (others : ∀ u ≠ t, db'.rows u = db.rows u) :
    tenantPredicate ctx db' t.kind = tenantPredicate ctx db t.kind :=
  tenantPredicate_congr _ fun u hu => others u fun same => not_reads_self t (same ▸ hu)

variable {k : String × Table}

/-- A named row is still there, and still in the tenant, when the statement is done: it is in
another table, or `moved` says where it went. -/
theorem Names.after {v : Option String} (hk : k ∈ t.foreignKeys)
    (others : ∀ u ≠ t, db'.rows u = db.rows u)
    (moved : ∀ p ∈ db.rows t, tenantPredicate ctx db t.kind p = true → ∃ q ∈ db'.rows t,
      q t.idField = p t.idField ∧ tenantPredicate ctx db' t.kind q = true)
    (h : Names ctx db k.2 v) : Names ctx db' k.2 v := by
  obtain ⟨given, p, hp, key, inside⟩ := h
  by_cases same : k.2 = t
  · rw [same] at hp key inside ⊢
    obtain ⟨q, hq, kept, still⟩ := moved p hp inside
    exact ⟨given, q, hq, key.trans kept.symm, still⟩
  · have predicate : tenantPredicate ctx db' k.2.kind = tenantPredicate ctx db k.2.kind :=
      tenantPredicate_congr _ fun u hu => others u fun own => not_reads_named k hk (own ▸ hu)
    exact ⟨given, p, (others k.2 same).symm ▸ hp, key, predicate ▸ inside⟩

theorem isolated_created {op : Op} {columns : Option (List (String × String))}
    (w : Written P ctx db t .create data payload) (hc : tenantColumns ctx t.kind = .ok columns)
    (creatable : ¬(columns.isNone ∧ (PARENT_KEY t.kind).isNone))
    (rows : db'.rows t = db.rows t ++ [newRow P t payload (columns.getD [])])
    (others : ∀ u ≠ t, db'.rows u = db.rows u) :
    Isolated ctx db t op (.row (some (newRow P t payload (columns.getD [])))) db' := by
  have predicate : tenantPredicate ctx db' t.kind = tenantPredicate ctx db t.kind :=
    predicate_after others
  have filled := db'.filled t (newRow P t payload (columns.getD [])) (by simp [rows])
  have inside := lands_newRow w hc creatable filled
  refine ⟨?_, ?_, others, ?_⟩
  · intro r hr
    obtain rfl := Option.some.inj (Option.mem_toList.mp hr)
    exact predicate ▸ inside
  · rw [predicate, rows, outside_append inside]
  · intro r hr
    rw [rows, List.mem_append, List.mem_singleton] at hr
    obtain old | rfl := hr
    · exact .inl old
    · refine .inr fun k hk _ => (newRow_key w hc hk).imp_right (Names.after hk others ?_)
      exact fun p hp here => ⟨p, rows ▸ List.mem_append_left _ hp, rfl, predicate ▸ here⟩

theorem isolated_updated {op : Op} {p : Condition} {a : Answer}
    (w : Written P ctx db t .update data payload) (ho : op.columns = dataColumns data)
    (fenced : ∀ r, p db r = true → tenantPredicate ctx db t.kind r = true)
    (rows : db'.rows t = (db.rows t).map fun r => if p db r then assign P payload r else r)
    (others : ∀ u ≠ t, db'.rows u = db.rows u)
    (inside : ∀ r ∈ a.returned, tenantPredicate ctx db' t.kind r = true) :
    Isolated ctx db t op a db' := by
  have predicate : tenantPredicate ctx db' t.kind = tenantPredicate ctx db t.kind :=
    predicate_after others
  have mem {r : Row} (hr : r ∈ db.rows t) :
      (if p db r then assign P payload r else r) ∈ db'.rows t :=
    rows ▸ List.mem_map_of_mem hr
  have landed {r : Row} (hr : r ∈ db.rows t) (hp : p db r = true) :
      tenantPredicate ctx db t.kind (assign P payload r) = true := by
    have filled := db'.filled t _ (mem hr)
    rw [if_pos hp] at filled
    exact lands_assign w filled (fenced r hp)
  refine ⟨inside, ?_, others, ?_⟩
  · rw [predicate, rows, outside_map fenced fun r hr hp => landed hr hp]
  · intro r hr
    rw [rows] at hr
    obtain ⟨q, hq, rfl⟩ := List.mem_map.mp hr
    cases matched : p db q with
    | false => exact .inl (by simpa [matched] using hq)
    | true =>
      refine .inr fun k hk written => ?_
      rw [if_pos rfl]
      have new := (assign_key w hk q).resolve_left fun kept => kept.1 (ho ▸ written)
      refine new.imp_right (Names.after hk others fun s hs here => ?_)
      refine ⟨_, mem hs, ?_, ?_⟩
      · split
        · exact assign_of_none (w.key rfl)
        · rfl
      · rw [predicate]
        split
        · exact landed hs ‹_›
        · exact here

theorem Effect.isolated {op : Op} {a : Answer} (h : Effect P ctx db t op a db') :
    Isolated ctx db t op a db' := by
  cases h with
  | read inside => exact ⟨inside, rfl, fun _ _ => rfl, fun r hr => .inl hr⟩
  | created w ho hc creatable rows others => exact isolated_created w hc creatable rows others
  | updated w ho fenced rows others inside => exact isolated_updated w ho fenced rows others inside
  | deleted fenced rows others nothing =>
    refine ⟨?_, ?_, others, ?_⟩
    · simp [nothing]
    · rw [predicate_after others, rows, outside_filter fenced]
    · intro r hr
      rw [rows] at hr
      exact .inl (List.mem_of_mem_filter hr)

end Isolation

/-- An operation that went through, between the databases it found and left. -/
structure Performed where
  before : Db
  table : Table
  op : Op
  answer : Answer
  after : Db

/-- A request's use of its scope: what goes through of any sequence of operations on any tables. -/
def transcript (P : Prisma) (ctx : RequestContext) : Db → List (Table × Op) → List Performed
  | _, [] => []
  | db, (t, op) :: requests =>
      match perform P ctx db t op with
      | .ok (a, db') => ⟨db, t, op, a, db'⟩ :: transcript P ctx db' requests
      | .error _ => transcript P ctx db requests

theorem isolated_of_mem_transcript {P : Prisma} {db : Db} {requests : List (Table × Op)} :
    ∀ e ∈ transcript P ctx db requests, Isolated ctx e.before e.table e.op e.answer e.after := by
  induction requests generalizing db with
  | nil => exact List.forall_mem_nil _
  | cons request requests ih =>
    intro e he
    rw [transcript] at he
    split at he
    · rename_i a db' performed
      obtain rfl | later := List.mem_cons.mp he
      · exact (perform_effect performed).isolated
      · exact ih e later
    · exact ih e he

/-- A context is one its user is entitled to, and whatever is done with it keeps to the tenant. -/
theorem scope_isolates (P : Prisma) {db : Db} {userId : String} {params : Params}
    {spec : TenantSpec} (resolved : resolve db userId params spec = .ok ctx)
    (requests : List (Table × Op)) :
    ctx.userId = userId ∧ Entitled db ctx ∧ ∀ e ∈ transcript P ctx db requests,
      Isolated ctx e.before e.table e.op e.answer e.after :=
  ⟨(resolve_entitled resolved).1, (resolve_entitled resolved).2, isolated_of_mem_transcript⟩

def rowOf (l : List (String × String)) : Row := fun c => l.lookup c

def twoTenants : Db where
  rows
    | .organization => [rowOf [("id", "org_a")], rowOf [("id", "org_b")]]
    | .members => [rowOf [("id", "mem_a"), ("organizationId", "org_a"), ("userId", "usr_a"),
        ("role", "owner")]]
    | .projects => [rowOf [("id", "prj_a"), ("organizationId", "org_a")],
        rowOf [("id", "prj_b"), ("organizationId", "org_b")]]
    | .endpoints => [rowOf [("id", "ep_a"), ("projectId", "prj_a")],
        rowOf [("id", "ep_b"), ("projectId", "prj_b")]]
    | _ => []
  filled := by
    intro t
    cases t <;> decide

/-- A client that knows equality on one field and takes any other clause to hold. -/
def plainClient : Prisma where
  shape _ := ⟨["id", "endpointId", "url"], ["endpoint"]⟩
  eval clause _ r :=
    match clause with
    | .object [(name, .string value)] => column name value r
    | _ => true
  order _ l := l
  group _ l := [l]
  scalar _ old := old
  nested _ db := db
  defaults _ _ := none
  admits _ _ _ := true
  eval_field _ _ _ _ := rfl
  mem_order _ _ _ h := h
  mem_group _ _ _ hg _ hr := List.mem_singleton.mp hg ▸ hr
  defaults_key _ _ _ := rfl

def contextA : RequestContext :=
  ⟨"usr_a", "org_a", "mem_a", .owner, some "prj_a", by decide⟩

def reachingOut : List (Table × Op) :=
  [(.endpointSecrets, .create (.object [("id", .string "sec_a"), ("endpointId", .string "ep_a")])),
    (.endpointSecrets, .create (.object [("id", .string "sec_b"), ("endpointId", .string "ep_b")])),
    (.endpoints, .updateById (.string "ep_b") (.object [("url", .string "x")])),
    (.endpointSecrets, .findPage .undefined .undefined .undefined .undefined)]

/-- A secret for one's own endpoint is created and read back; one for the other tenant's is
refused, as is an update of its endpoint. -/
theorem secrets_stay_home :
    (transcript plainClient contextA twoTenants reachingOut).length = 2 ∧
      Entitled twoTenants contextA ∧ ∀ e ∈ transcript plainClient contextA twoTenants reachingOut,
        Isolated contextA e.before e.table e.op e.answer e.after := by
  have resolved :
      resolve twoTenants "usr_a" (rowOf [("projectId", "prj_a")]) .params = .ok contextA := rfl
  exact ⟨by decide +kernel, (scope_isolates plainClient resolved reachingOut).2⟩

end Hookubit.Authz.TenantIsolation
