/- digest: Offset paging: what a client that follows the offsets sees when ties may move. -/

import Mathlib.Data.List.Sort
import Mathlib.Tactic.Ring

/-!
A page is cut out of the whole answer to a query, and every page is a query of its own. An
order that leaves ties leaves the server several answers, one of which it picks each time.
-/

set_option autoImplicit false
set_option relaxedAutoImplicit false

namespace Hookubit.Data.OffsetPages

universe u v w

structure Page (α : Type u) where
  rows : List α
  hasMore : Bool
  nextSkip : Option ℕ
  deriving DecidableEq

variable {α : Type u}

/-- One row more than the page shows is read, to learn whether there are more. -/
def cut (answer : List α) (size skip : ℕ) : Page α :=
  let rows := (answer.drop skip).take (size + 1)
  let hasMore : Bool := size < rows.length
  { rows := if hasMore then rows.take size else rows
    hasMore := hasMore
    nextSkip := if hasMore then some (skip + size) else none }

@[simp]
theorem cut_hasMore (answer : List α) (size skip : ℕ) :
    (cut answer size skip).hasMore = decide (skip + size < answer.length) := by
  simp only [cut, List.length_take, List.length_drop]
  grind

@[simp]
theorem cut_rows (answer : List α) (size skip : ℕ) :
    (cut answer size skip).rows = (answer.drop skip).take size := by
  simp only [cut]
  split
  · simp [List.take_take]
  · rename_i few
    have short : ((answer.drop skip).take (size + 1)).length ≤ size := by simpa using few
    rw [← List.take_of_length_le short, List.take_take, min_eq_left (Nat.le_succ size)]

@[simp]
theorem cut_nextSkip (answer : List α) (size skip : ℕ) : (cut answer size skip).nextSkip =
    if skip + size < answer.length then some (skip + size) else none := by
  have same : (cut answer size skip).nextSkip =
      if (cut answer size skip).hasMore then some (skip + size) else none := rfl
  rw [same, cut_hasMore]
  simp

/-- A client that follows the offsets to the last page, with a query for each; `none` once the
fuel is spent. -/
def follow (fetch : ℕ → ℕ → Page α) : ℕ → ℕ → ℕ → Option (List α)
  | 0, _, _ => none
  | fuel + 1, query, skip =>
      let page := fetch query skip
      if page.hasMore then
        page.nextSkip.bind fun next =>
          (follow fetch fuel (query + 1) next).map (page.rows ++ ·)
      else some page.rows

/-- A reader that folds page after page into what it has, until one is not full. -/
def drain {β : Type v} {ε : Type w} (fetch : ℕ → Except ε (List α)) (size : ℕ) (step : β → α → β) :
    ℕ → ℕ → β → Except ε (Option β)
  | 0, _, _ => .ok none
  | fuel + 1, skip, acc =>
      match fetch skip with
      | .error e => .error e
      | .ok page =>
          let acc := page.foldl step acc
          if page.length < size then .ok (some acc)
          else drain fetch size step fuel (skip + size) acc

theorem drain_eq {β : Type v} {ε : Type w} {answer : List α} {size : ℕ}
    {fetch : ℕ → Except ε (List α)} (step : β → α → β)
    (fetched : ∀ skip, fetch skip = .ok ((answer.drop skip).take size)) {fuel skip : ℕ}
    (inside : skip ≤ answer.length) (enough : answer.length < skip + fuel * size) (acc : β) :
    drain fetch size step fuel skip acc = .ok (some ((answer.drop skip).foldl step acc)) := by
  induction fuel generalizing skip acc with
  | zero => omega
  | succ fuel ih =>
    have more : (fuel + 1) * size = fuel * size + size := Nat.succ_mul fuel size
    simp only [drain, fetched, List.length_take, List.length_drop]
    split
    · rw [List.take_of_length_le (by rw [List.length_drop]; omega)]
    · rw [ih (by omega) (by omega), ← List.foldl_append, ← List.drop_drop, List.take_append_drop]

section Follow

variable {answers : ℕ → List α} {rows answer other : List α} {size fuel query skip : ℕ}

abbrev fetched (answers : ℕ → List α) (size : ℕ) : ℕ → ℕ → Page α :=
  fun query skip => cut (answers query) size skip

theorem follow_more (more : skip + size < (answers query).length) :
    follow (fetched answers size) (fuel + 1) query skip =
      (follow (fetched answers size) fuel (query + 1) (skip + size)).map
        (((answers query).drop skip).take size ++ ·) := by
  simp [follow, more]

theorem follow_last (last : (answers query).length ≤ skip + size) :
    follow (fetched answers size) (fuel + 1) query skip = some ((answers query).drop skip) := by
  have all : ((answers query).drop skip).take size = (answers query).drop skip :=
    List.take_of_length_le (by rw [List.length_drop]; omega)
  simp [follow, not_lt.mpr last, all]

theorem follow_perm (answers : ℕ → List α) (perm : ∀ query, (answers query).Perm rows)
    (firm : ∀ query k, ((answers query).take (k * size)).Perm
      ((answers (query + 1)).take (k * size)))
    (fuel query : ℕ) (inside : query * size ≤ rows.length)
    (enough : rows.length < (query + fuel) * size) :
    ∃ seen, follow (fetched answers size) fuel query (query * size) = some seen ∧
      ((answers query).take (query * size) ++ seen).Perm rows := by
  induction fuel generalizing query with
  | zero =>
    rw [Nat.add_zero] at enough
    omega
  | succ fuel ih =>
    have length_eq : (answers query).length = rows.length := (perm query).length_eq
    have next : (query + 1) * size = query * size + size := Nat.succ_mul query size
    by_cases more : query * size + size < (answers query).length
    · obtain ⟨seen, followed, visited⟩ := ih (query + 1) (by omega)
        (by rwa [Nat.add_assoc, Nat.add_comm 1 fuel])
      refine ⟨((answers query).drop (query * size)).take size ++ seen, ?_, ?_⟩
      · rw [follow_more more, ← next, followed, Option.map_some]
      · rw [← List.append_assoc, ← List.take_add, ← next]
        exact ((firm query (query + 1)).append_right seen).trans visited
    · refine ⟨(answers query).drop (query * size), follow_last (not_lt.mp more), ?_⟩
      rw [List.take_append_drop]
      exact perm query

theorem follow_steady {answers : ℕ → List α} {fuel : ℕ}
    (steady : ∀ later, query ≤ later → answers later = answer)
    (enough : answer.length < (query + fuel) * size) (inside : query * size < answer.length) :
    follow (fetched answers size) fuel query (query * size) =
      some (answer.drop (query * size)) := by
  induction fuel generalizing query with
  | zero =>
    rw [Nat.add_zero] at enough
    omega
  | succ fuel ih =>
    have now : answers query = answer := steady query le_rfl
    have next : (query + 1) * size = query * size + size := Nat.succ_mul query size
    by_cases more : query * size + size < (answers query).length
    · rw [follow_more more, ← next, ih (fun later h => steady later (by omega))
        (by rwa [Nat.add_assoc, Nat.add_comm 1 fuel]) (by rw [← now]; omega), Option.map_some, now,
        next, ← List.drop_drop, List.take_append_drop]
    · rw [follow_last (not_lt.mp more), now]

theorem follow_turn {answers : ℕ → List α} {k : ℕ} (fuel : ℕ) (first : ∀ q < k, answers q = answer)
    (turned : ∀ q, k ≤ q → answers q = other) (same : other.length = answer.length)
    (inside : k * size < answer.length) (enough : answer.length < (k + fuel) * size)
    (early : query ≤ k) : follow (fetched answers size) (k - query + fuel) query (query * size) =
      some ((answer.take (k * size)).drop (query * size) ++ other.drop (k * size)) := by
  induction h : k - query generalizing query with
  | zero =>
    obtain rfl : query = k := by omega
    have emptied : (answer.take (query * size)).drop (query * size) = [] :=
      List.drop_eq_nil_of_le (List.length_take_le _ _)
    rw [Nat.zero_add, emptied, List.nil_append]
    exact follow_steady turned (by omega) (by omega)
  | succ left ih =>
    have next : (query + 1) * size = query * size + size := Nat.succ_mul query size
    have reach : (query + 1) * size ≤ k * size := Nat.mul_le_mul_right size (by omega)
    have now : answers query = answer := first query (by omega)
    have page : (answer.drop (query * size)).take size ++
        (answer.take (k * size)).drop ((query + 1) * size) =
          (answer.take (k * size)).drop (query * size) := by
      rw [next, ← List.drop_drop]
      have head : ((answer.take (k * size)).drop (query * size)).take size =
          (answer.drop (query * size)).take size := by
        rw [List.drop_take, List.take_take, min_eq_left (by omega)]
      rw [← head, List.take_append_drop]
    rw [Nat.add_right_comm, follow_more (by rw [now]; omega), ← next, ih (by omega) (by omega),
      Option.map_some, ← List.append_assoc, now, page]

theorem follow_unique {fetch : ℕ → ℕ → Page α} {fuel fuel' skip : ℕ} {seen seen' : List α}
    (followed : follow fetch fuel query skip = some seen)
    (followed' : follow fetch fuel' query skip = some seen') : seen = seen' := by
  induction fuel generalizing fuel' query skip seen seen' with
  | zero => cases followed
  | succ fuel ih =>
    cases fuel' with
    | zero => cases followed'
    | succ fuel' =>
      simp only [follow] at followed followed'
      split at followed
      · rename_i more
        rw [if_pos more] at followed'
        obtain ⟨next, place, followed⟩ := Option.bind_eq_some_iff.mp followed
        rw [place, Option.bind_some] at followed'
        obtain ⟨rest, read, rfl⟩ := Option.map_eq_some_iff.mp followed
        obtain ⟨rest', read', rfl⟩ := Option.map_eq_some_iff.mp followed'
        rw [ih read read']
      · rename_i last
        rw [if_neg last] at followed'
        exact (Option.some.inj followed).symm.trans (Option.some.inj followed')

end Follow

section Descending

variable {β : Type v} [LinearOrder β] (column : α → β)

/-- The order by a column, largest first. Rows with one value are a tie. -/
def descending (a b : α) : Prop := column b ≤ column a

instance : DecidableRel (descending column) := fun a b =>
  inferInstanceAs (Decidable (column b ≤ column a))

instance : IsTrans α (descending column) := ⟨fun _ _ _ hab hbc => le_trans hbc hab⟩

instance : Std.Total (descending column) := ⟨fun a b => le_total (column b) (column a)⟩

end Descending

section Sorted

variable (r : α → α → Prop) {rows answer other : List α} {size query : ℕ}

/-- The answers that an order allows. -/
structure Answer (rows answer : List α) : Prop where
  perm : answer.Perm rows
  sorted : answer.Pairwise r

variable {r}

theorem Answer.swap {early late : List α} {a b : α} (tie : r b a)
    (allowed : Answer r rows (early ++ a :: b :: late)) :
    Answer r rows (early ++ b :: a :: late) where
  perm := ((List.Perm.swap a b late).append_left early).trans allowed.perm
  sorted := by
    have sorted := allowed.sorted
    simp only [List.pairwise_append, List.pairwise_cons, List.forall_mem_cons] at sorted ⊢
    obtain ⟨inside, ⟨⟨_, after⟩, after', rest⟩, apart⟩ := sorted
    refine ⟨inside, ⟨⟨tie, after'⟩, after, rest⟩, ?_⟩
    intro c hc
    exact ⟨(apart c hc).2.1, (apart c hc).1, (apart c hc).2.2⟩

theorem take_countP {p : α → Bool} (closed : ∀ a b, r a b → p b = true → p a = true)
    (sorted : answer.Pairwise r) :
    answer.take (answer.countP p) = answer.filter p ∧
      answer.drop (answer.countP p) = answer.filter fun a => !p a := by
  induction answer with
  | nil => exact ⟨rfl, rfl⟩
  | cons a answer ih =>
    obtain ⟨head, tail⟩ := List.pairwise_cons.mp sorted
    by_cases first : p a = true
    · simpa [first] using ih tail
    · have never : ∀ b ∈ a :: answer, ¬ p b = true := by
        intro b hb yes
        obtain rfl | later := List.mem_cons.mp hb
        · exact first yes
        · exact first (closed a b (head b later) yes)
      have zero : (a :: answer).countP p = 0 := List.countP_eq_zero.mpr never
      rw [zero, List.filter_eq_nil_iff.mpr never, List.filter_eq_self.mpr]
      · exact ⟨rfl, rfl⟩
      · intro b hb
        simpa using never b hb

variable (r) [DecidableRel r]

def before (rows : List α) (a : α) : ℕ := rows.countP fun b => ¬ r a b

def upTo (rows : List α) (a : α) : ℕ := rows.countP fun b => r b a

variable {r}

theorem Answer.position [Std.Total r] {early late : List α} {a : α}
    (allowed : Answer r rows (early ++ a :: late)) :
    before r rows a ≤ early.length ∧ early.length < upTo r rows a := by
  obtain ⟨-, tail, apart⟩ := List.pairwise_append.mp allowed.sorted
  have refl : r a a := (Std.Total.total a a).elim id id
  have after : ∀ b ∈ a :: late, r a b := by
    intro b hb
    obtain rfl | later := List.mem_cons.mp hb
    · exact refl
    · exact (List.pairwise_cons.mp tail).1 b later
  have none_after : (a :: late).countP (fun b => decide ¬ r a b) = 0 :=
    List.countP_eq_zero.mpr fun b hb => by simpa using after b hb
  have all_before : early.countP (fun b => decide (r b a)) = early.length :=
    List.countP_eq_length.mpr fun b hb => by simpa using apart b hb a List.mem_cons_self
  constructor
  · rw [before, ← allowed.perm.countP_eq, List.countP_append, none_after, Nat.add_zero]
    exact List.countP_le_length
  · rw [upTo, ← allowed.perm.countP_eq, List.countP_append, all_before, List.countP_cons_of_pos]
    · omega
    · simpa using refl

variable [IsTrans α r]

theorem Answer.take_upTo (allowed : Answer r rows answer) (a : α) :
    answer.take (upTo r rows a) = answer.filter fun b => r b a := by
  rw [upTo, ← allowed.perm.countP_eq]
  refine (take_countP ?_ allowed.sorted).1
  intro b c hbc hca
  exact decide_eq_true (IsTrans.trans _ _ _ hbc (of_decide_eq_true hca))

theorem Answer.take_perm (allowed : Answer r rows answer) (allowed' : Answer r rows other) (a : α) :
    (answer.take (upTo r rows a)).Perm (other.take (upTo r rows a)) := by
  rw [allowed.take_upTo, allowed'.take_upTo]
  exact (allowed.perm.trans allowed'.perm.symm).filter _

theorem Answer.drop_before (allowed : Answer r rows answer) (a : α) :
    answer.drop (before r rows a) = answer.filter fun b => r a b := by
  rw [before, ← allowed.perm.countP_eq, (take_countP ?_ allowed.sorted).2]
  · exact List.filter_congr fun b _ => by simp
  · intro b c hbc hca
    have not_le : ¬ r a c := of_decide_eq_true hca
    exact decide_eq_true fun hab => not_le (IsTrans.trans _ _ _ hab hbc)

variable [Std.Total r]

theorem answer_insertionSort (rows : List α) : Answer r rows (rows.insertionSort r) :=
  ⟨List.perm_insertionSort r rows, List.pairwise_insertionSort r rows⟩

theorem Answer.exists_orderBy (allowed : Answer r rows answer) :
    ∃ orderBy : List α → List α, (∀ other, Answer r other (orderBy other)) ∧
      orderBy rows = answer := by
  classical
  refine ⟨fun other => if other = rows then answer else other.insertionSort r, ?_, if_pos rfl⟩
  intro other
  dsimp only
  split
  · rename_i same
    exact same ▸ allowed
  · exact answer_insertionSort other

/-- A page ends between two rows that the order does not tell apart. -/
def CutsTie (r : α → α → Prop) [DecidableRel r] (size : ℕ) (rows : List α) : Prop :=
  ∃ a ∈ rows, ∃ k, before r rows a < k * size ∧ k * size < upTo r rows a

theorem take_perm_of_not_cutsTie (whole : ¬ CutsTie r size rows) (allowed : Answer r rows answer)
    (allowed' : Answer r rows other) (k : ℕ) :
    (answer.take (k * size)).Perm (other.take (k * size)) := by
  have length_eq : answer.length = rows.length := allowed.perm.length_eq
  have length_eq' : other.length = rows.length := allowed'.perm.length_eq
  by_cases all : rows.length ≤ k * size
  · rw [List.take_of_length_le (by omega), List.take_of_length_le (by omega)]
    exact allowed.perm.trans allowed'.perm.symm
  · cases boundary : k * size with
    | zero => simp
    | succ m =>
      -- The last row of the page has nothing of its tie behind it.
      have inside : m < answer.length := by omega
      have split : answer = answer.take m ++ answer[m] :: answer.drop (m + 1) := by
        rw [← List.drop_eq_getElem_cons inside, List.take_append_drop]
      have member : answer[m] ∈ rows := allowed.perm.mem_iff.mp (List.getElem_mem inside)
      obtain ⟨low, high⟩ := Answer.position (split ▸ allowed)
      rw [List.length_take, min_eq_left inside.le] at low high
      have firm : upTo r rows answer[m] = m + 1 := by
        by_contra apart
        exact whole ⟨answer[m], member, k, by omega, by omega⟩
      rw [← firm]
      exact allowed.take_perm allowed' _

theorem CutsTie.exists_answer (cuts : CutsTie r size rows) :
    ∃ k early a b late, Answer r rows (early ++ a :: b :: late) ∧ r b a ∧
      early.length + 1 = k * size := by
  obtain ⟨c, -, k, low, high⟩ := cuts
  have allowed : Answer r rows (rows.insertionSort r) := answer_insertionSort rows
  obtain ⟨m, hm⟩ : ∃ m, k * size = m + 1 := ⟨k * size - 1, by omega⟩
  have inside : m + 1 < (rows.insertionSort r).length := by
    rw [allowed.perm.length_eq]
    exact hm ▸ high.trans_le List.countP_le_length
  refine ⟨k, (rows.insertionSort r).take m, (rows.insertionSort r)[m],
    (rows.insertionSort r)[m + 1], (rows.insertionSort r).drop (m + 2), ?_, ?_, ?_⟩
  · rw [← List.drop_eq_getElem_cons inside, ← List.drop_eq_getElem_cons (by omega),
      List.take_append_drop]
    exact allowed
  · have above : r c (rows.insertionSort r)[m] := by
      have member : (rows.insertionSort r)[m] ∈ (rows.insertionSort r).drop (before r rows c) :=
        List.mem_drop_iff_getElem.mpr ⟨m - before r rows c, by omega, by congr; omega⟩
      rw [allowed.drop_before] at member
      simpa using (List.mem_filter.mp member).2
    have below : r (rows.insertionSort r)[m + 1] c := by
      have member : (rows.insertionSort r)[m + 1] ∈ (rows.insertionSort r).take (upTo r rows c) :=
        List.mem_take_iff_getElem.mpr ⟨m + 1, by omega, rfl⟩
      rw [allowed.take_upTo] at member
      simpa using (List.mem_filter.mp member).2
    exact IsTrans.trans _ _ _ below above
  · rw [List.length_take, min_eq_left (by omega), hm]

/-- The client sees every row exactly once, whatever answers the server picks, just if no page
ends within a tie. -/
theorem follow_perm_iff (pos : 0 < size) (nodup : rows.Nodup) :
    (∀ answers : ℕ → List α, (∀ query, Answer r rows (answers query)) →
      ∃ fuel seen, follow (fetched answers size) fuel 0 0 = some seen ∧ seen.Perm rows) ↔
      ¬ CutsTie r size rows := by
  constructor
  · intro complete cuts
    obtain ⟨k, early, a, b, late, allowed, tie, boundary⟩ := cuts.exists_answer
    -- The row before the cut moves behind it once its page has been served.
    let answers : ℕ → List α := fun query =>
      if query < k then early ++ a :: b :: late else early ++ b :: a :: late
    have first : ∀ q < k, answers q = early ++ a :: b :: late := fun q hq => if_pos hq
    have turned : ∀ q, k ≤ q → answers q = early ++ b :: a :: late := fun q hq =>
      if_neg (not_lt.mpr hq)
    obtain ⟨fuel, seen, followed, visited⟩ := complete answers fun query => by
      obtain soon | late := lt_or_ge query k
      · exact first query soon ▸ allowed
      · exact turned query late ▸ allowed.swap tie
    have reach : k * size < (early ++ a :: b :: late).length := by
      rw [List.length_append, List.length_cons, List.length_cons]
      omega
    have enough : (early ++ a :: b :: late).length <
        (k + ((early ++ a :: b :: late).length + 1)) * size :=
      lt_of_lt_of_le (by omega) (Nat.le_mul_of_pos_right _ pos)
    have turn := follow_turn _ first turned (by simp) reach enough (Nat.zero_le k)
    rw [Nat.zero_mul] at turn
    obtain rfl := follow_unique followed turn
    have twice : ¬ ((early ++ a :: b :: late).take (k * size) ++
        (early ++ b :: a :: late).drop (k * size)).Nodup := by
      rw [← boundary]
      simp [List.take_append, List.drop_append, List.nodup_append]
    exact twice (visited.nodup_iff.mpr nodup)
  · intro whole answers allowed
    have enough : rows.length < (0 + (rows.length + 1)) * size :=
      lt_of_lt_of_le (by omega) (Nat.le_mul_of_pos_right _ pos)
    obtain ⟨seen, followed, visited⟩ := follow_perm answers (fun query => (allowed query).perm)
      (fun query k => take_perm_of_not_cutsTie whole (allowed query) (allowed (query + 1)) k)
      (rows.length + 1) 0 (by omega) enough
    rw [Nat.zero_mul] at followed visited
    exact ⟨_, seen, followed, visited⟩

end Sorted

end Hookubit.Data.OffsetPages
