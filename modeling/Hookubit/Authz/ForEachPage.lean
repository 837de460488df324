/- sources: authz/tenant-scope.ts forEachPage
   digest: The keyset loop hands every matching row over once, whatever its handler does to it. -/

import Hookubit.Authz.BulkPredicate
import Hookubit.Data.KeysetPage
import Mathlib.Data.String.Basic

/-!
The loop reads a table that its own handler changes. Ids are compared by a collation, which is an
injection of strings into a linear order; a row without an id would come before all others.
-/

set_option autoImplicit false
set_option relaxedAutoImplicit false

namespace Hookubit.Authz.ForEachPage

open Authz.ScopedRepository Authz.TenantScope Authz.TenantIsolation Authz.BulkPredicate
open Common.Errors Data.KeysetPage Data.Relational

section Loop

variable (P : Prisma) (ctx : RequestContext) (t : Table) (clause : Js) (size : JsNumber)

/-- What the handler does to the database. It has seen the pages so far, the newest first; the
number of those before the newest is its `pageIndex`. -/
abbrev Handler := List (List Row) → Db → Db

/-- The end of the loop: the number processed or the error thrown, the pages handed over, and the
database it leaves. -/
structure Outcome where
  result : Except AppError ℕ
  pages : List (List Row)
  db : Db

def Outcome.handed (o : Outcome) : List Row := o.pages.reverse.flatten

/-- The loop of `forEachPage`, turn by turn; `none` once the fuel is spent. -/
def forEachPageLoop (handler : Handler) :
    ℕ → Db → Option String → ℕ → List (List Row) → Option Outcome
  | 0, _, _, _, _ => none
  | fuel + 1, db, cursor, processed, pages =>
      let turn := forEachPage P ctx db t clause size cursor
      if turn.1.isEmpty then some ⟨.ok processed, pages, db⟩
      else
        let pages := turn.1 :: pages
        let db := handler pages db
        let processed := processed + turn.1.length
        match turn.2 with
        | .error e => some ⟨.error e, pages, db⟩
        | .ok none => some ⟨.ok processed, pages, db⟩
        | .ok (some last) => forEachPageLoop handler fuel db (some last) processed pages

end Loop

section Assumptions

variable {κ : Type} [LinearOrder κ] (rank : String → κ)

/-- Where an id, or the cursor, stands in the collation. -/
def standing : Option String → WithBot κ
  | none => ⊥
  | some id => rank id

def place (t : Table) (r : Row) : WithBot κ := standing rank (r t.idField)

/-- The caller's part of `where(extra)`. -/
def extraHolds (P : Prisma) (extra : Js) : Condition := fun db r =>
  match extra with
  | .undefined | .null => true
  | extra => P.eval extra db r

/-- What Prisma and PostgreSQL answer for: the meaning of a caller's clause that looks at the row
alone, the comparison with the cursor, and the order of the ids. -/
structure Client (P : Prisma) (t : Table) (clause : Js) (p : Row → Bool) : Prop where
  collation : Function.Injective rank
  alone : ∀ db r, extraHolds P clause db r = p r
  everything : ∀ db r, P.eval (.object []) db r = true
  both : ∀ a b db r, P.eval (.object [("AND", .array [a, b])]) db r =
    (P.eval a db r && P.eval b db r)
  gt : ∀ cursor db r, P.eval (.object [(t.idField, .object [("gt", .string cursor)])]) db r =
    decide (standing rank (some cursor) < place rank t r)
  perm : ∀ l, (P.order (.object [(t.idField, .string "asc")]) l).Perm l
  sorted : ∀ l, (P.order (.object [(t.idField, .string "asc")]) l).Pairwise fun a b =>
    place rank t a ≤ place rank t b

def Named (t : Table) (rows : List Row) : Prop :=
  ∀ r ∈ rows, ∃ id, id ≠ "" ∧ r t.idField = some id

/-- A handler that has been handed these rows may update or delete them, ids apart, and does
nothing else. -/
structure Confined (t : Table) (handed : List Row) (db db' : Db) : Prop where
  others : ∀ u ≠ t, db'.rows u = db.rows u
  rows : ∃ f : Row → Option Row, db'.rows t = (db.rows t).filterMap f ∧
    (∀ r r', f r = some r' → r' t.idField = r t.idField) ∧
    ∀ r, (∀ h ∈ handed, h t.idField ≠ r t.idField) → f r = some r

end Assumptions

def matching (P : Prisma) (ctx : RequestContext) (t : Table) (clause : Js) (db : Db) : List Row :=
  (db.rows t).filter (within P ctx t clause db)

def walk {κ : Type} [LinearOrder κ] (rank : String → κ) (P : Prisma) (ctx : RequestContext)
    (t : Table) (clause : Js) (db : Db) : List Row :=
  ordered (place rank t) (matching P ctx t clause db)

/-- Between the start and a later turn nothing has changed behind the cursor. -/
structure Ahead {κ : Type} [LinearOrder κ] (rank : String → κ) (t : Table) (db₀ db : Db)
    (cursor : Option String) : Prop where
  others : ∀ u ≠ t, db.rows u = db₀.rows u
  named : Named t (db.rows t)
  rows : beyond (place rank t) (db.rows t) (standing rank cursor) =
    beyond (place rank t) (db₀.rows t) (standing rank cursor)

section Turn

variable {κ : Type} [LinearOrder κ] {rank : String → κ} {P : Prisma} {ctx : RequestContext}
  {t : Table} {clause : Js} {p : Row → Bool} {size : JsNumber} {db₀ db db' : Db}
  {cursor : Option String}

theorem within_eq (extra : Js) (r : Row) :
    within P ctx t extra db r = (tenantPredicate ctx db t.kind r && extraHolds P extra db r) := by
  cases extra <;> rfl

theorem Client.extraHolds_pastCursor (client : Client rank P t clause p) {r : Row}
    (named : ∃ id, id ≠ "" ∧ r t.idField = some id) :
    extraHolds P (pastCursor t clause cursor) db r =
      (p r && decide (standing rank cursor < place rank t r)) := by
  cases cursor with
  | none =>
    obtain ⟨id, -, key⟩ := named
    have above : standing rank none < place rank t r := by
      rw [place, key]
      exact WithBot.bot_lt_coe _
    rw [pastCursor, client.alone, decide_eq_true above, Bool.and_true]
  | some cursor =>
    have split (base : Js) (same : P.eval base db r = p r) :
        P.eval (.object [("AND", .array [base, .object [(t.idField, .object
          [("gt", .string cursor)])]])]) db r =
          (p r && decide (standing rank (some cursor) < place rank t r)) := by
      rw [client.both, client.gt, same]
    have alone := client.alone db r
    cases clause with
    | undefined | null => exact split (.object []) ((client.everything db r).trans alone)
    | _ => exact split _ alone

omit [LinearOrder κ] in
theorem standing_injective (collation : Function.Injective rank) :
    Function.Injective (standing rank) := by
  intro a b same
  cases a with
  | none =>
    cases b with
    | none => rfl
    | some b => exact absurd same.symm (WithBot.coe_ne_bot)
  | some a =>
    cases b with
    | none => exact absurd same (WithBot.coe_ne_bot)
    | some b => rw [collation (WithBot.coe_injective same)]

theorem places_nodup (client : Client rank P t clause p)
    (distinct : ((db₀.rows t).map fun r => r t.idField).Nodup) :
    ((matching P ctx t clause db₀).map (place rank t)).Nodup := by
  have all : ((db₀.rows t).map (place rank t)).Nodup := by
    have images := distinct.map (standing_injective client.collation)
    rwa [List.map_map] at images
  exact all.sublist (List.filter_sublist.map _)

theorem walk_strict (ctx : RequestContext) (client : Client rank P t clause p)
    (distinct : ((db₀.rows t).map fun r => r t.idField).Nodup) :
    (walk rank P ctx t clause db₀).Pairwise fun a b => place rank t a < place rank t b :=
  ordered_strict (places_nodup client distinct)

theorem select_eq (client : Client rank P t clause p)
    (distinct : ((db₀.rows t).map fun r => r t.idField).Nodup)
    (ahead : Ahead rank t db₀ db cursor) :
    select P db t (within P ctx t (pastCursor t clause cursor))
      (.object [(t.idField, .string "asc")]) =
      beyond (place rank t) (walk rank P ctx t clause db₀) (standing rank cursor) := by
  have predicate : tenantPredicate ctx db t.kind = tenantPredicate ctx db₀ t.kind :=
    predicate_after ahead.others
  have now : (db.rows t).filter (within P ctx t (pastCursor t clause cursor) db) =
      (beyond (place rank t) (db.rows t) (standing rank cursor)).filter
        (within P ctx t clause db₀) := by
    rw [beyond, List.filter_filter]
    apply List.filter_congr
    intro r hr
    rw [within_eq, within_eq, predicate, client.alone,
      client.extraHolds_pastCursor (ahead.named r hr), Bool.and_assoc]
  have start : (beyond (place rank t) (db₀.rows t) (standing rank cursor)).filter
      (within P ctx t clause db₀) =
      beyond (place rank t) (matching P ctx t clause db₀) (standing rank cursor) := by
    rw [beyond, beyond, matching, List.filter_filter, List.filter_filter]
    simp only [Bool.and_comm]
  have places : ((matching P ctx t clause db₀).map (place rank t)).Nodup :=
    places_nodup client distinct
  rw [select, now, ahead.rows, start, walk, beyond, beyond, ← ordered_filter places]
  exact eq_ordered (places.sublist (List.filter_sublist.map _)) (client.perm _) (client.sorted _)

theorem forEachPage_rows (client : Client rank P t clause p)
    (distinct : ((db₀.rows t).map fun r => r t.idField).Nodup)
    (ahead : Ahead rank t db₀ db cursor) :
    (forEachPage P ctx db t clause size cursor).1 =
      (beyond (place rank t) (walk rank P ctx t clause db₀) (standing rank cursor)).take
        (pageSize size) := by
  rw [← select_eq client distinct ahead]
  rfl

theorem forEachPage_next {last : Row} {id : String}
    (ends : (forEachPage P ctx db t clause size cursor).1.getLast? = some last)
    (key : last t.idField = some id) (given : id ≠ "") :
    (forEachPage P ctx db t clause size cursor).2 =
      if (forEachPage P ctx db t clause size cursor).1.length < pageSize size then .ok none
      else .ok (some id) := by
  unfold forEachPage at ends ⊢
  dsimp only at ends ⊢
  rw [ends]
  dsimp only
  rw [key]
  split
  · contradiction
  · exact absurd (Option.some.inj ‹some id = some ""›) given
  · rw [Option.some.inj ‹some id = some _›]

theorem Ahead.after {handed : List Row} {id : String} (ahead : Ahead rank t db₀ db cursor)
    (forward : standing rank cursor ≤ standing rank (some id))
    (confined : Confined t handed db db')
    (seen : ∀ h ∈ handed, place rank t h ≤ standing rank (some id)) :
    Ahead rank t db₀ db' (some id) := by
  obtain ⟨f, rows, keeps, fixed⟩ := confined.rows
  refine ⟨fun u hu => (confined.others u hu).trans (ahead.others u hu), ?_, ?_⟩
  · intro r' hr'
    rw [rows] at hr'
    obtain ⟨r, hr, image⟩ := List.mem_filterMap.mp hr'
    rw [keeps r r' image]
    exact ahead.named r hr
  · have still : beyond (place rank t) (db'.rows t) (standing rank (some id)) =
        beyond (place rank t) (db.rows t) (standing rank (some id)) := by
      rw [rows]
      apply beyond_filterMap
      · intro r r' image
        rw [place, place, keeps r r' image]
      · intro r later
        refine fixed r fun h hh same => ?_
        have here : place rank t h = place rank t r := by rw [place, place, same]
        exact absurd (seen h hh) (not_le.mpr (here ▸ later))
    rw [still, ← beyond_beyond forward, ahead.rows, beyond_beyond forward]

end Turn

section Run

variable {κ : Type} [LinearOrder κ] {rank : String → κ} {P : Prisma} {ctx : RequestContext}
  {t : Table} {clause : Js} {p : Row → Bool} {size : JsNumber} {db₀ db : Db}
  {cursor : Option String} {handler : Handler} {fuel processed : ℕ} {pages : List (List Row)}
  {page : List Row}

theorem loop_empty (rows : (forEachPage P ctx db t clause size cursor).1 = []) :
    forEachPageLoop P ctx t clause size handler (fuel + 1) db cursor processed pages =
      some ⟨.ok processed, pages, db⟩ := by
  simp [forEachPageLoop, rows]

theorem loop_last (rows : (forEachPage P ctx db t clause size cursor).1 = page)
    (present : page ≠ [])
    (next : (forEachPage P ctx db t clause size cursor).2 = .ok none) :
    forEachPageLoop P ctx t clause size handler (fuel + 1) db cursor processed pages =
      some ⟨.ok (processed + page.length), page :: pages, handler (page :: pages) db⟩ := by
  simp [forEachPageLoop, rows, present, next]

theorem loop_more {id : String} (rows : (forEachPage P ctx db t clause size cursor).1 = page)
    (present : page ≠ []) (next : (forEachPage P ctx db t clause size cursor).2 = .ok (some id)) :
    forEachPageLoop P ctx t clause size handler (fuel + 1) db cursor processed pages =
      forEachPageLoop P ctx t clause size handler fuel (handler (page :: pages) db) (some id)
        (processed + page.length) (page :: pages) := by
  simp [forEachPageLoop, rows, present, next]

/-- What the loop knows at the top of a turn: the rows up to the cursor have been handed over, and
those behind it are as they were. -/
structure Reached (rank : String → κ) (P : Prisma) (ctx : RequestContext) (t : Table) (clause : Js)
    (db₀ db : Db) (cursor : Option String) (processed : ℕ) (pages : List (List Row)) : Prop where
  ahead : Ahead rank t db₀ db cursor
  handed : pages.reverse.flatten =
    upTo (place rank t) (walk rank P ctx t clause db₀) (standing rank cursor)
  count : processed = pages.reverse.flatten.length

/-- One turn: its page is next in the walk, and the loop stands behind it afterwards. -/
theorem Reached.turn (client : Client rank P t clause p) (named : Named t (db₀.rows t))
    (distinct : ((db₀.rows t).map fun r => r t.idField).Nodup)
    (obeys : ∀ pages db, Confined t pages.flatten db (handler pages db))
    (h : Reached rank P ctx t clause db₀ db cursor processed pages)
    (left : beyond (place rank t) (walk rank P ctx t clause db₀) (standing rank cursor) ≠ [])
    (rows : (forEachPage P ctx db t clause size cursor).1 = page) :
    page ≠ [] ∧ ∃ id,
      (forEachPage P ctx db t clause size cursor).2 =
        (if page.length < pageSize size then .ok none else .ok (some id)) ∧
      beyond (place rank t) (walk rank P ctx t clause db₀) (standing rank (some id)) =
        (beyond (place rank t) (walk rank P ctx t clause db₀) (standing rank cursor)).drop
          (pageSize size) ∧
      Reached rank P ctx t clause db₀ (handler (page :: pages) db) (some id)
        (processed + page.length) (page :: pages) := by
  have strict := walk_strict ctx client distinct
  have pageEq := (rows.symm.trans (forEachPage_rows client distinct h.ahead))
  have present : page ≠ [] := by
    rw [pageEq, Ne, List.take_eq_nil_iff, not_or]
    exact ⟨(pageSize_pos size).ne', left⟩
  obtain ⟨last, ends⟩ := Option.ne_none_iff_exists'.mp (mt List.getLast?_eq_none_iff.mp present)
  have cut := pageEq ▸ ends
  have later : last ∈ beyond (place rank t) (walk rank P ctx t clause db₀) (standing rank cursor) :=
    List.mem_of_mem_take (List.mem_of_getLast? cut)
  obtain ⟨id, given, key⟩ : ∃ id, id ≠ "" ∧ last t.idField = some id := by
    have inWalk := List.mem_of_mem_filter later
    exact named last (List.mem_of_mem_filter (mem_ordered.mp inWalk))
  have stands : place rank t last = standing rank (some id) := by rw [place, key]
  have read : (page :: pages).reverse.flatten =
      upTo (place rank t) (walk rank P ctx t clause db₀) (standing rank (some id)) := by
    rw [← stands, upTo_last strict cut, ← pageEq, ← h.handed, List.reverse_cons,
      List.flatten_append, List.flatten_singleton]
  refine ⟨present, id, ?_, ?_, ?_, read, ?_⟩
  · rw [← rows] at ends ⊢
    exact forEachPage_next ends key given
  · rw [← stands, beyond_last strict cut]
  · refine h.ahead.after ?_ (obeys _ _) ?_
    · rw [← stands]
      exact (of_decide_eq_true (List.mem_filter.mp later).2).le
    · intro r hr
      have walked : r ∈ (page :: pages).reverse.flatten := by
        rw [List.mem_flatten] at hr ⊢
        simpa only [List.mem_reverse] using hr
      rw [read] at walked
      exact of_decide_eq_true (List.mem_filter.mp walked).2
  · rw [h.count, List.reverse_cons, List.flatten_append, List.flatten_singleton,
      List.length_append]

/-- The loop from any turn on, by induction on what is left of the walk. -/
theorem Reached.run (client : Client rank P t clause p) (named : Named t (db₀.rows t))
    (distinct : ((db₀.rows t).map fun r => r t.idField).Nodup)
    (obeys : ∀ pages db, Confined t pages.flatten db (handler pages db)) (size : JsNumber) {n : ℕ}
    (h : Reached rank P ctx t clause db₀ db cursor processed pages)
    (left : (beyond (place rank t) (walk rank P ctx t clause db₀) (standing rank cursor)).length =
      n) :
    ∃ o, (∀ fuel, n < fuel →
        forEachPageLoop P ctx t clause size handler fuel db cursor processed pages = some o) ∧
      o.handed = walk rank P ctx t clause db₀ ∧
      o.result = .ok (walk rank P ctx t clause db₀).length := by
  have strict := walk_strict ctx client distinct
  -- Once nothing is left, the pages are the whole walk.
  have whole {cursor : Option String} {db : Db} {processed : ℕ} {pages : List (List Row)}
      (h : Reached rank P ctx t clause db₀ db cursor processed pages)
      (done : beyond (place rank t) (walk rank P ctx t clause db₀) (standing rank cursor) = []) :
      pages.reverse.flatten = walk rank P ctx t clause db₀ := by
    rw [h.handed, ← List.append_nil (upTo _ _ _), ← done, upTo_append_beyond strict]
  induction n using Nat.strong_induction_on generalizing db cursor processed pages with
  | _ n ih =>
    obtain done | more := eq_or_ne
      (beyond (place rank t) (walk rank P ctx t clause db₀) (standing rank cursor)) []
    · have rows : (forEachPage P ctx db t clause size cursor).1 = [] := by
        rw [forEachPage_rows client distinct h.ahead, done, List.take_nil]
      refine ⟨⟨.ok processed, pages, db⟩, fun fuel enough => ?_, whole h done, ?_⟩
      · obtain ⟨fuel, rfl⟩ := Nat.exists_eq_succ_of_ne_zero (Nat.ne_zero_of_lt enough)
        exact loop_empty rows
      · rw [h.count, whole h done]
    · obtain ⟨page, rows⟩ : ∃ page, (forEachPage P ctx db t clause size cursor).1 = page := ⟨_, rfl⟩
      obtain ⟨present, id, next, rest, reached⟩ := h.turn client named distinct obeys more rows
      by_cases short : page.length < pageSize size
      · rw [if_pos short] at next
        have done : beyond (place rank t) (walk rank P ctx t clause db₀) (standing rank (some id)) =
            [] := by
          rw [← rows, forEachPage_rows client distinct h.ahead, List.length_take] at short
          rw [rest, List.drop_eq_nil_iff]
          omega
        refine ⟨⟨.ok (processed + page.length), page :: pages, handler (page :: pages) db⟩,
          fun fuel enough => ?_, whole reached done, ?_⟩
        · obtain ⟨fuel, rfl⟩ := Nat.exists_eq_succ_of_ne_zero (Nat.ne_zero_of_lt enough)
          exact loop_last rows present next
        · rw [reached.count, whole reached done]
      · rw [if_neg short] at next
        have fewer : (beyond (place rank t) (walk rank P ctx t clause db₀)
            (standing rank (some id))).length < n := by
          have positive := List.length_pos_of_ne_nil more
          have size_pos := pageSize_pos size
          rw [rest, List.length_drop]
          omega
        obtain ⟨o, ends, handed, result⟩ := ih _ fewer reached rfl
        refine ⟨o, fun fuel enough => ?_, handed, result⟩
        obtain ⟨fuel, rfl⟩ := Nat.exists_eq_succ_of_ne_zero (Nat.ne_zero_of_lt enough)
        rw [Nat.succ_eq_add_one, loop_more rows present next]
        exact ends fuel (by omega)

theorem reached_start (named : Named t (db₀.rows t)) :
    Reached rank P ctx t clause db₀ db₀ none 0 [] := by
  refine ⟨⟨fun _ _ => rfl, named, rfl⟩, ?_, rfl⟩
  refine (List.filter_eq_nil_iff.mpr fun r hr => ?_).symm
  obtain ⟨id, -, key⟩ := named r (List.mem_of_mem_filter (mem_ordered.mp hr))
  have above : standing rank none < place rank t r := by
    rw [place, key]
    exact WithBot.bot_lt_coe _
  simpa using not_le.mpr above

/-- The loop ends, having handed over every row that matched at the start, each once and in the
order of the ids, and returns their number. -/
theorem forEachPage_hands_each_once (client : Client rank P t clause p)
    (named : Named t (db₀.rows t)) (distinct : ((db₀.rows t).map fun r => r t.idField).Nodup)
    (obeys : ∀ pages db, Confined t pages.flatten db (handler pages db)) (size : JsNumber) :
    ∃ o, (∀ fuel, (db₀.rows t).length < fuel →
        forEachPageLoop P ctx t clause size handler fuel db₀ none 0 [] = some o) ∧
      o.handed.Perm ((db₀.rows t).filter (within P ctx t clause db₀)) ∧
      (o.handed.Pairwise fun a b => place rank t a < place rank t b) ∧
      o.result = .ok o.handed.length := by
  have strict := walk_strict ctx client distinct
  have perm : (walk rank P ctx t clause db₀).Perm (matching P ctx t clause db₀) :=
    List.perm_insertionSort _ _
  have start : Reached rank P ctx t clause db₀ db₀ none 0 [] := reached_start named
  obtain ⟨o, ends, handed, result⟩ := start.run client named distinct obeys size rfl
  have few : (beyond (place rank t) (walk rank P ctx t clause db₀) (standing rank none)).length ≤
      (db₀.rows t).length :=
    calc _ ≤ (walk rank P ctx t clause db₀).length := List.length_filter_le _ _
      _ = (matching P ctx t clause db₀).length := perm.length_eq
      _ ≤ (db₀.rows t).length := List.length_filter_le _ _
  refine ⟨o, fun fuel enough => ends fuel (few.trans_lt enough), ?_, ?_, ?_⟩
  · rw [handed]
    exact perm
  · rw [handed]
    exact strict
  · rw [handed]
    exact result

end Run

section Writes

variable {P : Prisma} {ctx : RequestContext} {t : Table} {handed : List Row} {db db' db'' : Db}
  {q : Row → Bool} {id : String}

theorem Confined.refl : Confined t handed db db :=
  ⟨fun _ _ => rfl, some, List.filterMap_some.symm, fun _ _ same => by cases same; rfl,
    fun _ _ => rfl⟩

theorem Confined.trans (first : Confined t handed db db') (second : Confined t handed db' db'') :
    Confined t handed db db'' := by
  obtain ⟨f, rows, keeps, fixed⟩ := first.rows
  obtain ⟨g, rows', keeps', fixed'⟩ := second.rows
  refine ⟨fun u hu => (second.others u hu).trans (first.others u hu), fun r => (f r).bind g, ?_, ?_,
    ?_⟩
  · rw [rows', rows, List.filterMap_filterMap]
  · intro r r'' image
    obtain ⟨r', here, there⟩ := Option.bind_eq_some_iff.mp image
    exact (keeps' r' r'' there).trans (keeps r r' here)
  · intro r unseen
    dsimp only
    rw [fixed r unseen, Option.bind_some, fixed' r unseen]

theorem not_picked (picked : ∀ r, q r = true → ∃ h ∈ handed, h t.idField = r t.idField) {r : Row}
    (unseen : ∀ h ∈ handed, h t.idField ≠ r t.idField) : q r = false := by
  refine Bool.eq_false_iff.mpr fun picks => ?_
  obtain ⟨h, mem, same⟩ := picked r picks
  exact unseen h mem same

theorem confined_of_filter (others : ∀ u ≠ t, db'.rows u = db.rows u)
    (rows : db'.rows t = (db.rows t).filter fun r => !q r)
    (picked : ∀ r, q r = true → ∃ h ∈ handed, h t.idField = r t.idField) :
    Confined t handed db db' := by
  refine ⟨others, Option.guard fun r => !q r, ?_, ?_, ?_⟩
  · rw [rows, List.filterMap_eq_filter]
  · intro r r' image
    rw [(Option.guard_eq_some_iff.mp image).1]
  · intro r unseen
    simp [Option.guard, not_picked picked unseen]

theorem confined_of_map {g : Row → Row} (others : ∀ u ≠ t, db'.rows u = db.rows u)
    (rows : db'.rows t = (db.rows t).map fun r => if q r then g r else r)
    (keeps : ∀ r, g r t.idField = r t.idField)
    (picked : ∀ r, q r = true → ∃ h ∈ handed, h t.idField = r t.idField) :
    Confined t handed db db' := by
  refine ⟨others, fun r => some (if q r then g r else r), ?_, ?_, ?_⟩
  · rw [rows, List.filterMap_eq_map']
  · intro r r' image
    obtain rfl := Option.some.inj image
    split
    · exact keeps r
    · rfl
  · intro r unseen
    simp [not_picked picked unseen]

theorem picked_byId (seen : ∃ h ∈ handed, h t.idField = some id) (r : Row)
    (picks : within P ctx t (byId t (.string id)) db r = true) :
    ∃ h ∈ handed, h t.idField = r t.idField := by
  obtain ⟨h, mem, key⟩ := seen
  have matched : P.eval (byId t (.string id)) db r = true := (Bool.and_eq_true_iff.mp picks).2
  rw [byId, P.eval_field] at matched
  exact ⟨h, mem, key.trans (beq_iff_eq.mp matched).symm⟩

theorem confined_deleteById {a : Answer} (seen : ∃ h ∈ handed, h t.idField = some id)
    (done : perform P ctx db t (.deleteById (.string id)) = .ok (a, db')) :
    Confined t handed db db' := by
  obtain ⟨⟨count, db'⟩, statement, h⟩ := bind_eq_ok.mp done
  obtain ⟨db', committed, ⟨⟩⟩ := bind_eq_ok.mp statement
  obtain ⟨rows, others⟩ := commit_ok committed
  dsimp only at h
  split at h
  · cases h
  · obtain ⟨⟩ := h
    exact confined_of_filter others rows (picked_byId seen)

theorem confined_updateById {data : Js} {a : Answer} (seen : ∃ h ∈ handed, h t.idField = some id)
    (done : perform P ctx db t (.updateById (.string id) data) = .ok (a, db')) :
    Confined t handed db db' := by
  obtain ⟨⟨row, db'⟩, updated, ⟨⟩⟩ := bind_eq_ok.mp done
  obtain ⟨⟨count, db'⟩, statement, h⟩ := bind_eq_ok.mp updated
  have confined : Confined t handed db db' := by
    obtain ⟨payload, sanitized, h⟩ := bind_eq_ok.mp statement
    obtain ⟨_, owned, h⟩ := bind_eq_ok.mp h
    have w := written_of_guards sanitized owned
    unfold delegateUpdateMany at h
    rw [w.plain] at h
    obtain ⟨db', committed, ⟨⟩⟩ := bind_eq_ok.mp h
    obtain ⟨rows, others⟩ := commit_ok committed
    exact confined_of_map others rows (fun r => assign_of_none (w.key rfl)) (picked_byId seen)
  dsimp only at h
  split at h
  · cases h
  · split at h
    · cases h
    · obtain ⟨⟩ := h
      exact confined

/-- A write of the handler to one of its rows: an update with this data, or a deletion. A write
that fails changes nothing. -/
def writeRow (P : Prisma) (ctx : RequestContext) (t : Table) (plan : Row → Option Js) (db : Db)
    (r : Row) : Db :=
  match r t.idField with
  | none => db
  | some id =>
      let op := match plan r with
        | some data => Op.updateById (.string id) data
        | none => Op.deleteById (.string id)
      match perform P ctx db t op with
      | .ok (_, db') => db'
      | .error _ => db

/-- The handler that writes to every row of its page, one after the other. -/
def rowHandler (P : Prisma) (ctx : RequestContext) (t : Table) (plan : Row → Option Js) : Handler :=
  fun pages db => (pages.headD []).foldl (writeRow P ctx t plan) db

theorem confined_writeRow (plan : Row → Option Js) {r : Row} (mem : r ∈ handed) :
    Confined t handed db (writeRow P ctx t plan db r) := by
  unfold writeRow
  split
  · exact Confined.refl
  · rename_i id key
    have seen : ∃ h ∈ handed, h t.idField = some id := ⟨r, mem, key⟩
    dsimp only
    split
    · rename_i done
      cases chosen : plan r with
      | none => exact confined_deleteById seen (by rwa [chosen] at done)
      | some data => exact confined_updateById seen (by rwa [chosen] at done)
    · exact Confined.refl

theorem confined_rowHandler (plan : Row → Option Js) (pages : List (List Row)) (db : Db) :
    Confined t pages.flatten db (rowHandler P ctx t plan pages db) := by
  have fold (rows : List Row) (mem : ∀ r ∈ rows, r ∈ pages.flatten) (db : Db) :
      Confined t pages.flatten db (rows.foldl (writeRow P ctx t plan) db) := by
    induction rows generalizing db with
    | nil => exact Confined.refl
    | cons r rows ih =>
      obtain ⟨here, later⟩ := List.forall_mem_cons.mp mem
      exact (confined_writeRow plan here).trans (ih later _)
  apply fold
  cases pages with
  | nil => simp
  | cons page pages => exact fun r hr => List.mem_append_left _ hr

end Writes

/-- An order on one field, by code points. -/
def sortBy : Js → List Row → List Row
  | .object [(field, .string "asc")], l => ordered (fun r => standing id (r field)) l
  | _, l => l

theorem mem_sortBy (orderBy : Js) (l : List Row) (r : Row) (h : r ∈ sortBy orderBy l) : r ∈ l := by
  unfold sortBy at h
  split at h
  · exact mem_ordered.mp h
  · exact h

/-- The formula client, with that order. -/
def orderedClient : Prisma := { formulaClient with order := sortBy, mem_order := mem_sortBy }

theorem orderedClient_client (p : Row → Bool) (clause : Js)
    (alone : ∀ db r, extraHolds orderedClient clause db r = p r) :
    Client (id : String → String) orderedClient .endpoints clause p where
  collation := Function.injective_id
  alone := alone
  everything _ _ := rfl
  both a b db r := by
    simp [orderedClient, formulaClient, satisfies, satisfiesEntries, satisfiesEntry, satisfiesAll]
  gt cursor db r := by
    change satisfies (fieldHolds r) (.object [("id", .object [("gt", .string cursor)])]) = _
    rw [satisfies, satisfiesEntries, satisfiesEntries, Bool.and_true,
      satisfiesEntry_field (by decide) rfl]
    change (r "id").any (fun value => cursor < value) = decide (_ < standing id (r "id"))
    cases r "id" with
    | none => simp [standing]
    | some value => simp [standing]
  perm l := List.perm_insertionSort _ l
  sorted l := ordered_sorted l

/-- Three active endpoints of one project, a paused one, and another project's. -/
def endpointTable : Db where
  rows
    | .endpoints => [
        rowOf [("id", "ep_3"), ("projectId", "prj_a"), ("status", "active")],
        rowOf [("id", "ep_1"), ("projectId", "prj_a"), ("status", "active")],
        rowOf [("id", "ep_4"), ("projectId", "prj_a"), ("status", "paused")],
        rowOf [("id", "ep_5"), ("projectId", "prj_b"), ("status", "active")],
        rowOf [("id", "ep_2"), ("projectId", "prj_a"), ("status", "active")]]
    | _ => []
  filled := by
    intro t
    cases t <;> decide

def activeOnly : Js := .object [("status", .string "active")]

def retire : Handler :=
  rowHandler orderedClient contextA .endpoints fun r =>
    if r "id" = some "ep_2" then some (.object [("url", .string "x")]) else none

theorem endpointTable_named : Named .endpoints (endpointTable.rows .endpoints) := by
  intro r hr
  simp only [endpointTable, List.mem_cons, List.not_mem_nil, or_false] at hr
  obtain rfl | rfl | rfl | rfl | rfl := hr
  all_goals exact ⟨_, by decide, rfl⟩

/-- With pages of two, the second ends the loop; the rows that do not match stay where they are. -/
theorem active_endpoints_handed_once :
    ((forEachPageLoop orderedClient contextA .endpoints activeOnly
      (.finite 2) retire 6 endpointTable
        none 0 []).map fun o =>
      (o.handed.map fun r => r "id", (o.db.rows .endpoints).map fun r => r "id")) =
        some ([some "ep_1", some "ep_2", some "ep_3"], [some "ep_4", some "ep_5", some "ep_2"]) ∧
      ∃ o, (∀ fuel, 5 < fuel → forEachPageLoop orderedClient contextA .endpoints activeOnly
          (.finite 2) retire fuel endpointTable none 0 [] = some o) ∧
        o.handed.Perm ((endpointTable.rows .endpoints).filter
          (within orderedClient contextA .endpoints activeOnly endpointTable)) ∧
        (o.handed.Pairwise fun a b =>
          place (id : String → String) .endpoints a < place id .endpoints b) ∧
        o.result = .ok o.handed.length := by
  have client := orderedClient_client (column "status" "active") activeOnly fun _ r =>
    satisfies_string (fieldHolds r) "status" "active"
  exact ⟨by decide +kernel, forEachPage_hands_each_once client endpointTable_named (by decide)
    (confined_rowHandler _) (.finite 2)⟩

end Hookubit.Authz.ForEachPage
