import Mathlib.Data.Set.Operations
import Mathlib.Order.WellFounded

/-!
# Runs of a state machine and paths of a relation

A machine is a total step function `σ → α → σ`; a run is a list of actions,
and *every interleaving* of the parties of a system is every such list.  These
rules are used throughout:

* `run_invariant`: what holds initially and survives every step that meets a
  side condition holds after every run whose steps all meet it;
* `run_view`: when an observer sees each step as one step of a machine of its
  own or as none, it sees a run as the run on what it sees of the actions;
* `length_le_of_decreasing`: a run whose steps all take something off a
  measure is no longer than the measure;
* `eventually_settled`: a schedule of such steps that leaves no action out
  comes to rest;
* `Path.invariant`: the invariant rule for a labelled relation, where the
  labels of a path are restricted by a permission.

The last is how an abstract machine is used: one concrete step is a path
of abstract steps, and the permission records which abstract steps that
concrete step can cause.
-/

namespace NetMux.Lib.Run

section Machine

variable {σ α : Type} (step : σ → α → σ)

/-- The state after a list of actions. -/
def run (s : σ) (as : List α) : σ := as.foldl step s

/-- Every step of a run meets a side condition, taken at the state before
the step. -/
def Along (P : σ → α → Prop) : σ → List α → Prop
  | _, [] => True
  | s, a :: as => P s a ∧ Along P (step s a) as

instance decidableAlong {P : σ → α → Prop} [∀ s a, Decidable (P s a)] :
    ∀ (s : σ) (as : List α), Decidable (Along step P s as)
  | _, [] => isTrue trivial
  | s, a :: as =>
      @instDecidableAnd (P s a) (Along step P (step s a) as) inferInstance
        (decidableAlong (step s a) as)

@[simp] theorem run_nil (s : σ) : run step s [] = s := rfl

@[simp] theorem run_cons (s : σ) (a : α) (as : List α) :
    run step s (a :: as) = run step (step s a) as := rfl

theorem run_append (s : σ) (as bs : List α) :
    run step s (as ++ bs) = run step (run step s as) bs :=
  List.foldl_append

theorem along_true (s : σ) (as : List α) :
    Along step (fun _ _ => True) s as := by
  induction as generalizing s with
  | nil => trivial
  | cons a as ih => exact ⟨trivial, ih (step s a)⟩

theorem Along.imp {P Q : σ → α → Prop} (h : ∀ s a, P s a → Q s a) :
    ∀ {as : List α} {s : σ}, Along step P s as → Along step Q s as := by
  intro as
  induction as with
  | nil => intro s _; trivial
  | cons a as ih => intro s hP; exact ⟨h s a hP.1, ih hP.2⟩

theorem Along.and {P Q : σ → α → Prop} :
    ∀ {as : List α} {s : σ}, Along step P s as → Along step Q s as →
      Along step (fun s a => P s a ∧ Q s a) s as := by
  intro as
  induction as with
  | nil => intro s _ _; trivial
  | cons a as ih => intro s hP hQ; exact ⟨⟨hP.1, hQ.1⟩, ih hP.2 hQ.2⟩

/-- A condition on the actions alone can be added. -/
theorem Along.and_forall {P : σ → α → Prop} {Q : α → Prop} :
    ∀ {as : List α} {s : σ}, Along step P s as → (∀ a ∈ as, Q a) →
      Along step (fun s a => P s a ∧ Q a) s as := by
  intro as
  induction as with
  | nil => intro s _ _; trivial
  | cons a as ih =>
      intro s hP hQ
      refine ⟨⟨hP.1, hQ a (List.mem_cons_self ..)⟩, ih hP.2 ?_⟩
      exact fun b hb => hQ b (List.mem_cons_of_mem _ hb)

/-- **Invariant rule.** -/
theorem run_invariant {I : σ → Prop} {P : σ → α → Prop}
    (hstep : ∀ s a, I s → P s a → I (step s a)) :
    ∀ (as : List α) (s : σ), I s → Along step P s as → I (run step s as) := by
  intro as
  induction as with
  | nil => intro s hs _; exact hs
  | cons a as ih =>
      intro s hs hAlong
      exact ih (step s a) (hstep s a hs hAlong.1) hAlong.2

/-- The rule without a side condition. -/
theorem run_invariant_all {I : σ → Prop}
    (hstep : ∀ s a, I s → I (step s a)) :
    ∀ (as : List α) (s : σ), I s → I (run step s as) := by
  intro as
  induction as with
  | nil => intro s hs; exact hs
  | cons a as ih => intro s hs; exact ih (step s a) (hstep s a hs)

/-- An invariant of the steps of a run holds before each of them. -/
theorem Along.and_invariant {I : σ → Prop} {P : σ → α → Prop}
    (hstep : ∀ s a, I s → P s a → I (step s a)) :
    ∀ {as : List α} {s : σ}, I s → Along step P s as →
      Along step (fun s a => I s ∧ P s a) s as := by
  intro as
  induction as with
  | nil => intro s _ _; trivial
  | cons a as ih =>
      intro s hs hP
      exact ⟨⟨hs, hP.1⟩, ih (hstep s a hs hP.1) hP.2⟩

/-- An invariant that implies a side condition and survives the steps that meet
it makes every run meet it. -/
theorem along_of_invariant {I : σ → Prop} {P : σ → α → Prop}
    (hok : ∀ s a, I s → P s a)
    (hstep : ∀ s a, I s → P s a → I (step s a)) :
    ∀ (as : List α) (s : σ), I s → Along step P s as := by
  intro as
  induction as with
  | nil => intro s _; trivial
  | cons a as ih =>
      intro s hs
      exact ⟨hok s a hs, ih (step s a) (hstep s a hs (hok s a hs))⟩

/-- **Projection rule.**  When a step is seen by an observer as one step of
its own machine or as none, a run is seen as the run on what it sees of the
actions. -/
theorem run_view {β γ : Type} {I : σ → Prop} {P : σ → α → Prop}
    (view : σ → β) (seen : α → Option γ) (next : β → γ → β)
    (hkeep : ∀ s a, I s → P s a → I (step s a))
    (hview : ∀ s a, I s → P s a →
      view (step s a) = (seen a).elim (view s) (next (view s))) :
    ∀ (as : List α) (s : σ), I s → Along step P s as →
      view (run step s as) = run next (view s) (as.filterMap seen) := by
  intro as
  induction as with
  | nil => intro s _ _; rfl
  | cons a as ih =>
      intro s hs hAlong
      have hrest := ih (step s a) (hkeep s a hs hAlong.1) hAlong.2
      rw [hview s a hs hAlong.1] at hrest
      rw [run_cons, hrest]
      cases hseen : seen a with
      | none => rw [List.filterMap_cons_none hseen]; rfl
      | some c => rw [List.filterMap_cons_some hseen]; rfl

/-- **Measure rule.**  When every step of a run takes something off a
measure, the run is no longer than the measure. -/
theorem length_le_of_decreasing {P : σ → α → Prop} (measure : σ → Nat)
    (hstep : ∀ s a, P s a → measure (step s a) < measure s) :
    ∀ (as : List α) (s : σ), Along step P s as → as.length ≤ measure s := by
  intro as
  induction as with
  | nil => intro s _; exact Nat.zero_le _
  | cons a as ih =>
      intro s hAlong
      have hfirst := hstep s a hAlong.1
      have hrest := ih (step s a) hAlong.2
      rw [List.length_cons]
      omega

/-- Nothing that is allowed changes the state. -/
def Settled (ok : α → Prop) (s : σ) : Prop := ∀ a, ok a → step s a = s

/-- **Completion rule.**  When every allowed step that changes anything takes
something off a measure, as long as an invariant holds, a schedule that keeps
returning to every allowed action comes to rest in a settled state. -/
theorem eventually_settled {I : σ → Prop} {ok : α → Prop} (measure : σ → Nat)
    (hstep : ∀ s a, I s → ok a → step s a ≠ s →
      measure (step s a) < measure s)
    {as : Nat → α} {states : Nat → σ}
    (hrun : ∀ k, states (k + 1) = step (states k) (as k))
    (hI : ∀ k, I (states k)) (hok : ∀ k, ok (as k))
    (hfair : ∀ a, ok a → ∀ n, ∃ k, n ≤ k ∧ as k = a) :
    ∃ n, Settled step ok (states n) ∧ ∀ k, n ≤ k → states k = states n := by
  -- at a state of least measure nothing can change any more
  obtain ⟨n, hmin⟩ : ∃ n, ∀ k, measure (states n) ≤ measure (states k) := by
    obtain ⟨_, ⟨n, rfl⟩, hmin⟩ := WellFounded.has_min
      (InvImage.wf measure (Nat.lt_wfRel).wf) (Set.range states) ⟨_, 0, rfl⟩
    exact ⟨n, fun k => Nat.le_of_not_lt (hmin _ ⟨k, rfl⟩)⟩
  have hsame : ∀ k, n ≤ k → states k = states n := by
    intro k hk
    induction k, hk using Nat.le_induction with
    | base => rfl
    | succ k hk ih =>
        by_contra hne
        rw [hrun k] at hne
        have hlt := hstep (states k) (as k) (hI k) (hok k) fun heq =>
          hne (heq.trans ih)
        have hle := hmin (k + 1)
        rw [hrun k, ← ih] at hle
        omega
  refine ⟨n, fun a ha => ?_, hsame⟩
  obtain ⟨k, hk, rfl⟩ := hfair a ha n
  have hnext := hsame (k + 1) (Nat.le_succ_of_le hk)
  rwa [hrun k, hsame k hk] at hnext

/-- The states of an unending run. -/
def trace (as : Nat → α) (s : σ) (k : Nat) : σ :=
  run step s ((List.range k).map as)

theorem trace_succ (as : Nat → α) (s : σ) (k : Nat) :
    trace step as s (k + 1) = step (trace step as s k) (as k) := by
  simp [trace, List.range_succ, run_append]

/-- The schedule that goes round a list of actions. -/
def rounds (l : List α) (h : 0 < l.length) (k : Nat) : α :=
  l.get ⟨k % l.length, Nat.mod_lt k h⟩

theorem rounds_mem (l : List α) (h : 0 < l.length) (k : Nat) :
    rounds l h k ∈ l :=
  List.get_mem l _

/-- It leaves none of them out. -/
theorem rounds_fair (l : List α) (h : 0 < l.length) {a : α} (ha : a ∈ l)
    (n : Nat) : ∃ k, n ≤ k ∧ rounds l h k = a := by
  obtain ⟨i, rfl⟩ := List.get_of_mem ha
  refine ⟨i + l.length * n, ?_, ?_⟩
  · exact le_trans (Nat.le_mul_of_pos_left n h) (Nat.le_add_left _ _)
  · rw [rounds]
    congr 1
    exact Fin.ext ((Nat.add_mul_mod_self_left ..).trans
      (Nat.mod_eq_of_lt i.isLt))

end Machine

section Paths

variable {τ ε : Type}

/-- A path of labelled steps, each permitted at the state it leaves. -/
inductive Path (R : ε → τ → τ → Prop) (ok : ε → τ → Prop) : τ → τ → Prop where
  | refl (t : τ) : Path R ok t t
  | tail {t u v : τ} {e : ε} :
      Path R ok t u → ok e u → R e u v → Path R ok t v

variable {R : ε → τ → τ → Prop} {ok : ε → τ → Prop}

/-- A path of one step. -/
theorem Path.single {t u : τ} {e : ε} (hok : ok e t) (h : R e t u) :
    Path R ok t u :=
  .tail (.refl t) hok h

theorem Path.trans {t u v : τ} (h₁ : Path R ok t u) (h₂ : Path R ok u v) :
    Path R ok t v := by
  induction h₂ with
  | refl => exact h₁
  | tail _ hok h ih => exact .tail ih hok h

/-- **Invariant rule for paths.** -/
theorem Path.invariant {I : τ → Prop}
    (hstep : ∀ e t u, I t → ok e t → R e t u → I u) {t u : τ}
    (h : Path R ok t u) (ht : I t) : I u := by
  induction h with
  | refl => exact ht
  | tail _ hok hR ih => exact hstep _ _ _ ih hok hR

end Paths

end NetMux.Lib.Run
