/- digest: Labelled systems with constrained steps, finite runs, and invariant rules for both. -/

import Mathlib.Logic.Relation
import Mathlib.Data.List.Basic

set_option autoImplicit false
set_option relaxedAutoImplicit false

namespace Hookubit.Automata.LabelledSystem

universe u v w

/-- States, their starting set, and one labelled step relation. -/
structure System (σ : Type u) (α : Type v) where
  start : σ → Prop
  step : σ → α → σ → Prop

variable {σ : Type u} {α : Type v}

/-- A partial step function read as a relation; a label is refused with `none`. -/
def System.ofStep (start : σ → Prop) (next : σ → α → Option σ) : System σ α where
  start := start
  step s a t := next s a = some t

/-- The same states and starts with only those steps that meet `ok`. -/
def System.constrain (M : System σ α) (ok : σ → α → σ → Prop) : System σ α where
  start := M.start
  step s a t := M.step s a t ∧ ok s a t

/-- The same system with a log of what its steps are seen to do. The log is read by nothing. -/
def System.observe {β : Type w} (M : System σ α) (note : σ → α → β → β) (b : β) :
    System (σ × β) α where
  start p := M.start p.1 ∧ p.2 = b
  step p a q := M.step p.1 a q.1 ∧ q.2 = note p.1 a p.2

inductive Reachable (M : System σ α) : σ → Prop
  | start {s : σ} : M.start s → Reachable M s
  | step {s t : σ} {a : α} : Reachable M s → M.step s a t → Reachable M t

/-- A finite run together with the labels it took, oldest first. -/
inductive Run (M : System σ α) : σ → List α → σ → Prop
  | nil (s : σ) : Run M s [] s
  | cons {s t w : σ} {a : α} {l : List α} :
      M.step s a t → Run M t l w → Run M s (a :: l) w

variable {M : System σ α} {l : List α} {s t : σ}

theorem Reachable.run (h : Reachable M s) (r : Run M s l t) :
    Reachable M t := by
  induction r with
  | nil s => exact h
  | cons edge _ ih => exact ih (h.step edge)

/-- An invariant holds at every start and survives every step taken inside it. -/
theorem Reachable.invariant {I : σ → Prop} (base : ∀ s, M.start s → I s)
    (keep : ∀ s a t, I s → M.step s a t → I t) {s : σ} (h : Reachable M s) : I s := by
  induction h with
  | start hs => exact base _ hs
  | step _ edge ih => exact keep _ _ _ ih edge

variable {ok : σ → α → σ → Prop}

theorem Reachable.of_constrain {s : σ} (h : Reachable (M.constrain ok) s) : Reachable M s := by
  induction h with
  | start hs => exact .start hs
  | step _ edge ih => exact ih.step edge.1

theorem Reachable.of_observe {β : Type w} {note : σ → α → β → β} {b : β} {p : σ × β}
    (h : Reachable (M.observe note b) p) : Reachable M p.1 := by
  induction h with
  | start hs => exact .start hs.1
  | step _ edge ih => exact ih.step edge.1

theorem Reachable.exists_observe {β : Type w} (note : σ → α → β → β) (b : β) {s : σ}
    (h : Reachable M s) : ∃ log, Reachable (M.observe note b) (s, log) := by
  induction h with
  | start hs => exact ⟨b, .start ⟨hs, rfl⟩⟩
  | step _ edge ih =>
    obtain ⟨log, seen⟩ := ih
    exact ⟨_, seen.step ⟨edge, rfl⟩⟩

theorem Run.append {s t w : σ} {l m : List α} (h : Run M s l t) (g : Run M t m w) :
    Run M s (l ++ m) w := by
  induction h with
  | nil s => exact g
  | cons edge _ ih => exact .cons edge (ih g)

theorem Run.single {a : α} (h : M.step s a t) : Run M s [a] t :=
  .cons h (.nil t)

theorem Run.constrain_labels {A : α → Prop} (h : Run M s l t)
    (labels : ∀ a ∈ l, A a) : Run (M.constrain fun _ a _ => A a) s l t := by
  induction h with
  | nil s => exact .nil s
  | cons edge _ ih =>
    exact .cons ⟨edge, labels _ List.mem_cons_self⟩
      (ih fun a ha => labels a (List.mem_cons_of_mem _ ha))

/-- A property kept by every step inside an invariant is kept by every run inside it. -/
theorem Run.keeps {I P : σ → Prop} (inv : ∀ s a t, I s → M.step s a t → I t)
    (keep : ∀ s a t, I s → P s → M.step s a t → P t)
    (r : Run M s l t) (hi : I s) (hp : P s) : P t := by
  induction r with
  | nil s => exact hp
  | cons edge _ ih => exact ih (inv _ _ _ hi edge) (keep _ _ _ hi hp edge)

/-- A reflexive and transitive relation kept by every step relates the ends of a run. -/
theorem Run.relates {I : σ → Prop} {R : σ → σ → Prop} (refl : ∀ s, R s s)
    (trans : ∀ s t w, R s t → R t w → R s w)
    (inv : ∀ s a t, I s → M.step s a t → I t)
    (keep : ∀ s a t, I s → M.step s a t → R s t)
    (r : Run M s l t) (hi : I s) : R s t := by
  induction r with
  | nil s => exact refl s
  | cons edge _ ih =>
    exact trans _ _ _ (keep _ _ _ hi edge) (ih (inv _ _ _ hi edge))

theorem Run.keeps_labels {I P : σ → Prop} {A : α → Prop} (inv : ∀ s a t, I s → M.step s a t → I t)
    (keep : ∀ s a t, I s → P s → A a → M.step s a t → P t)
    (r : Run M s l t) (labels : ∀ a ∈ l, A a) (hi : I s) (hp : P s) : P t := by
  induction r with
  | nil s => exact hp
  | cons edge _ ih =>
    exact ih (fun a ha => labels a (List.mem_cons_of_mem _ ha)) (inv _ _ _ hi edge)
      (keep _ _ _ hi hp (labels _ List.mem_cons_self) edge)

/-- Execute a list of labels, refusing at the first one that is not enabled. -/
def execute (next : σ → α → Option σ) : σ → List α → Option σ
  | s, [] => some s
  | s, a :: l => (next s a).bind (execute next · l)

variable {next : σ → α → Option σ} {start : σ → Prop}

theorem run_of_execute (h : execute next s l = some t) : Run (.ofStep start next) s l t := by
  induction l generalizing s with
  | nil =>
    obtain rfl : s = t := by simpa [execute] using h
    exact .nil s
  | cons a l ih =>
    obtain ⟨m, hm, ht⟩ := Option.bind_eq_some_iff.mp h
    exact .cons hm (ih ht)

theorem reachable_of_execute
    (hs : start s) (h : execute next s l = some t) : Reachable (.ofStep start next) t :=
  (Reachable.start hs).run (run_of_execute h)

theorem exists_run_of_execute {test : σ → Bool} {s : σ} (run : (execute next s l).any test = true) :
    ∃ t, Run (.ofStep start next) s l t ∧ test t = true := by
  obtain ⟨t, ht, passed⟩ := (Option.any_eq_true _ _).mp run
  exact ⟨t, run_of_execute ht, passed⟩

theorem exists_reachable_of_execute {test : σ → Bool}
    {s : σ} (hs : start s) (run : (execute next s l).any test = true) :
    ∃ t, Reachable (.ofStep start next) t ∧ test t = true := by
  obtain ⟨t, ran, passed⟩ := exists_run_of_execute run
  exact ⟨t, (Reachable.start hs).run ran, passed⟩

/-- Every step that an execution takes meets `P`. -/
def Along (next : σ → α → Option σ) (P : σ → α → σ → Prop) : σ → List α → Prop
  | _, [] => True
  | s, a :: l => ∀ t, next s a = some t → P s a t ∧ Along next P t l

/-- Two requirements that agree inside an invariant, which one of them keeps, agree on runs. -/
theorem along_iff {I : σ → Prop} {P Q : σ → α → σ → Prop}
    (agree : ∀ s a t, I s → next s a = some t → (P s a t ↔ Q s a t))
    (keep : ∀ s a t, P s a t → I t) {s : σ} (hs : I s) (l : List α) :
    Along next P s l ↔ Along next Q s l := by
  induction l generalizing s with
  | nil => exact Iff.rfl
  | cons a l ih =>
    refine forall_congr' fun t => imp_congr_right fun edge => ?_
    rw [← agree s a t hs edge]
    exact and_congr_right fun here => ih (keep s a t here)

def observeNext {β : Type w} (next : σ → α → Option σ) (note : σ → α → β → β) (p : σ × β) (a : α) :
    Option (σ × β) :=
  (next p.1 a).map fun t => (t, note p.1 a p.2)

theorem ofStep_observe {β : Type w} {note : σ → α → β → β} {b : β} :
    (System.ofStep start next).observe note b =
      .ofStep (fun p => start p.1 ∧ p.2 = b) (observeNext next note) := by
  simp only [System.ofStep, System.observe, System.mk.injEq, true_and]
  funext p a q
  simp only [observeNext, Option.map_eq_some_iff, eq_iff_iff]
  constructor
  · rintro ⟨edge, noted⟩
    exact ⟨q.1, edge, by rw [← noted]⟩
  · rintro ⟨t, edge, rfl⟩
    exact ⟨edge, rfl⟩

theorem Reachable.constrain_of_execute {A : α → Prop}
    (h : Reachable ((System.ofStep start next).constrain ok) s)
    (harmless : ∀ s a t, A a → ok s a t) (labels : ∀ a ∈ l, A a)
    (run : execute next s l = some t) : Reachable ((System.ofStep start next).constrain ok) t := by
  induction l generalizing s with
  | nil =>
    obtain rfl : s = t := by simpa [execute] using run
    exact h
  | cons a l ih =>
    obtain ⟨m, hm, rest⟩ := Option.bind_eq_some_iff.mp run
    have meets : ok s a m := harmless s a m (labels a List.mem_cons_self)
    exact ih (h.step ⟨hm, meets⟩) (fun b hb => labels b (List.mem_cons_of_mem _ hb)) rest

theorem reachable_constrain_of_execute [∀ s a t, Decidable (ok s a t)] (hs : start s)
    (h : execute (fun s a => (next s a).filter fun t => ok s a t) s l = some t) :
    Reachable ((System.ofStep start next).constrain ok) t := by
  have admitted := (Reachable.start (M := (System.ofStep start next).constrain ok) hs)
  clear hs
  induction l generalizing s with
  | nil =>
    obtain rfl : s = t := by simpa [execute] using h
    exact admitted
  | cons a l ih =>
    obtain ⟨m, hm, rest⟩ := Option.bind_eq_some_iff.mp h
    obtain ⟨moved, meets⟩ := Option.filter_eq_some_iff.mp hm
    exact ih rest (admitted.step ⟨moved, of_decide_eq_true meets⟩)

end Hookubit.Automata.LabelledSystem
