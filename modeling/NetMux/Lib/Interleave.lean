import Mathlib.Algebra.GroupWithZero.Nat
import NetMux.Lib.Keyed
import NetMux.Lib.Run

/-!
# Any number of calls on one shared value

Calls run at the same time on a value they share.  A call is where it stands,
a value of `π`; it begins as `init` says of what it was asked, and each of its
atomic steps reads and writes the shared value, with a free choice `κ` where
the step itself is not determined (a compare-exchange may fail for no reason).
A pool is the shared value and all calls ever begun, by number, and a run is
any list of turns: every interleaving of any number of calls.

Each step is sequentially consistent.

The second half is about calls that *take effect* at one of their steps: when
every step is silent or an effect that agrees with a sequential call
(`Linearizes`), every run is explained by the sequential calls in the order of
their effects (`Linear`).
-/

namespace NetMux.Lib.Interleave

open Run

/-- A shared value and the calls on it. -/
structure Pool (σ π : Type) where
  shared : σ
  calls : List π
  deriving DecidableEq, Repr

/-- One turn: a call begins, or call number `k` makes its next step. -/
inductive Turn (ω κ : Type) where
  | start (o : ω)
  | go (k : Nat) (c : κ)
  deriving DecidableEq, Repr

section Rules

variable {σ π ω κ : Type} (init : ω → π) (next : Nat → κ → σ → π → σ × π)

/-- Call number `k` makes its next step. -/
def go (P : Pool σ π) (k : Nat) (c : κ) (p : π) : Pool σ π :=
  ⟨(next k c P.shared p).1, P.calls.set k (next k c P.shared p).2⟩

def step (P : Pool σ π) : Turn ω κ → Pool σ π
  | .start o => ⟨P.shared, P.calls ++ [init o]⟩
  | .go k c =>
      match P.calls[k]? with
      | none => P
      | some p => go next P k c p

variable {P : Pool σ π} {k : Nat} {p : π}

theorem step_none (h : P.calls[k]? = none) (c : κ) :
    step init next P (.go k c) = P := by
  rw [step, h]

theorem step_some (h : P.calls[k]? = some p) (c : κ) :
    step init next P (.go k c) = go next P k c p := by
  rw [step, h]

/-- **Invariant rule**: what survives the beginning of a call and the step of
one call survives every run whose turns meet a side condition. -/
theorem pool_invariant {I : Pool σ π → Prop} {ok : Pool σ π → Turn ω κ → Prop}
    (hstart : ∀ P o, I P → ok P (.start o) → I ⟨P.shared, P.calls ++ [init o]⟩)
    (hgo : ∀ P k c p, I P → P.calls[k]? = some p → ok P (.go k c) →
      I (go next P k c p)) :
    ∀ (turns : List (Turn ω κ)) (P : Pool σ π), I P →
      Along (step init next) ok P turns → I (run (step init next) P turns) := by
  apply run_invariant
  intro P t hI hok
  cases t with
  | start o => exact hstart P o hI hok
  | go k c =>
      cases hp : P.calls[k]? with
      | none =>
          rw [step_none init next hp]
          exact hI
      | some p =>
          rw [step_some init next hp]
          exact hgo P k c p hI hp hok

end Rules

/-! ## Lists of calls -/

section Calls

variable {π : Type} {l : List π} {k : Nat} {a : π}

/-- A sum over all calls, when one of them moves on. -/
theorem sum_map_set (f : π → Nat) (b : π) (h : l[k]? = some a) :
    ((l.set k b).map f).sum + f a = (l.map f).sum + f b := by
  induction l generalizing k with
  | nil => cases h
  | cons d l ih =>
      cases k with
      | zero =>
          cases h
          simp only [List.set_cons_zero, List.map_cons, List.sum_cons]
          omega
      | succ k =>
          have hl := ih (k := k) (by simpa using h)
          simp only [List.set_cons_succ, List.map_cons, List.sum_cons]
          omega

/-- Where the calls stand that are not just beginning. -/
theorem getElem?_concat_ne {q b : π} (hq : b ≠ q) (j : Nat) :
    (l ++ [b])[j]? = some q ↔ l[j]? = some q := by
  rcases Nat.lt_trichotomy j l.length with hj | rfl | hj
  · rw [List.getElem?_append_left hj]
  · simpa using hq
  · rw [List.getElem?_eq_none (by simp; omega), List.getElem?_eq_none (by omega)]

/-- A property of every call, when one of them moves on. -/
theorem forall_set {Q : π → Prop} (h : ∀ p ∈ l, Q p) {b : π} (hb : Q b) :
    ∀ p ∈ l.set k b, Q p := by
  intro p hp
  rcases List.mem_or_eq_of_mem_set hp with hp | rfl
  · exact h p hp
  · exact hb

/-- A property of every call, when one more begins. -/
theorem forall_concat {Q : π → Prop} (h : ∀ p ∈ l, Q p) {b : π} (hb : Q b) :
    ∀ p ∈ l ++ [b], Q p := by
  intro p hp
  rcases List.mem_append.mp hp with hp | hp
  · exact h p hp
  · exact List.mem_singleton.mp hp ▸ hb

/-- The call that moved on is among the calls. -/
theorem mem_set_self (b : π) (h : l[k]? = some a) : b ∈ l.set k b := by
  obtain ⟨hk, -⟩ := List.getElem?_eq_some_iff.mp h
  exact List.mem_set hk b

/-- The other calls stay. -/
theorem mem_set_of_ne {q : π} (b : π) (h : l[k]? = some a) (hq : q ∈ l)
    (hne : q ≠ a) : q ∈ l.set k b := by
  obtain ⟨j, hj⟩ := List.mem_iff_getElem?.mp hq
  have hjk : k ≠ j := by
    rintro rfl
    exact hne (Option.some.inj (hj.symm.trans h))
  exact List.mem_iff_getElem?.mpr ⟨j, by rw [List.getElem?_set_ne hjk, hj]⟩

end Calls

/-! ## Linearization -/

/-- A call that took effect: its number, what it was and what it returned. -/
structure Effect (ω ρ : Type) where
  call : Nat
  op : ω
  result : ρ
  deriving DecidableEq, Repr

/-- A shared word, and the calls in the order in which they took effect. -/
structure Logged (σ ω ρ : Type) where
  word : σ
  order : List (Effect ω ρ)
  deriving DecidableEq, Repr

section Linearization

variable {σ π ω κ ρ : Type}

/-- The word after some calls, one after another. -/
def execAll (exec : σ → ω → ρ × σ) (s : σ) (ops : List ω) : σ :=
  ops.foldl (fun s op => (exec s op).2) s

/-- What they return. -/
def results (exec : σ → ω → ρ × σ) (s : σ) : List ω → List ρ
  | [] => []
  | op :: ops => (exec s op).1 :: results exec (exec s op).2 ops

theorem execAll_concat (exec : σ → ω → ρ × σ) (s : σ) (ops : List ω) (op : ω) :
    execAll exec s (ops ++ [op]) = (exec (execAll exec s ops) op).2 := by
  simp [execAll]

theorem results_concat (exec : σ → ω → ρ × σ) (s : σ) (ops : List ω) (op : ω) :
    results exec s (ops ++ [op]) =
      results exec s ops ++ [(exec (execAll exec s ops) op).1] := by
  induction ops generalizing s with
  | nil => rfl
  | cons o ops ih =>
      rw [List.cons_append, results, ih, results, List.cons_append]
      rfl

/-- Every step of a call is silent or the one step that ends it with the
effect and the result of the sequential call. -/
structure Linearizes (exec : σ → ω → ρ × σ) (init : ω → π) (done : ω → ρ → π)
    (next : Nat → κ → Logged σ ω ρ → π → Logged σ ω ρ × π) : Prop where
  inj : ∀ {op op' r r'}, done op r = done op' r' → op = op' ∧ r = r'
  fresh : ∀ o op r, init o ≠ done op r
  cases : ∀ k c s p,
    (∃ p', next k c s p = (s, p') ∧ ∀ op r, p' = done op r ↔ p = done op r) ∨
    (∃ op r w, next k c s p = (⟨w, s.order ++ [⟨k, op, r⟩]⟩, done op r) ∧
      (∀ op r, p ≠ done op r) ∧ exec s.word op = (r, w))

/-- The calls as they took effect: word and results are those of the
sequential calls in that order, which holds every finished call once. -/
structure Linear (exec : σ → ω → ρ × σ) (done : ω → ρ → π) (initial : σ)
    (P : Pool (Logged σ ω ρ) π) : Prop where
  word : P.shared.word = execAll exec initial (P.shared.order.map Effect.op)
  answers : P.shared.order.map Effect.result =
    results exec initial (P.shared.order.map Effect.op)
  once : (P.shared.order.map Effect.call).Nodup
  placed : ∀ k op r, ⟨k, op, r⟩ ∈ P.shared.order ↔
    P.calls[k]? = some (done op r)

variable {exec : σ → ω → ρ × σ} {init : ω → π} {done : ω → ρ → π}
  {next : Nat → κ → Logged σ ω ρ → π → Logged σ ω ρ × π} {initial : σ}
  {P : Pool (Logged σ ω ρ) π} {k : Nat} {p : π}

theorem Linear.start (hl : Linearizes exec init done next)
    (h : Linear exec done initial P) (o : ω) :
    Linear exec done initial ⟨P.shared, P.calls ++ [init o]⟩ where
  word := h.word
  answers := h.answers
  once := h.once
  placed := fun k op r => by
    rw [h.placed]
    exact (getElem?_concat_ne (hl.fresh o op r) k).symm

/-- A silent step keeps the order. -/
theorem Linear.silent (h : Linear exec done initial P)
    (hp : P.calls[k]? = some p) {p' : π}
    (hdone : ∀ op r, p' = done op r ↔ p = done op r) :
    Linear exec done initial ⟨P.shared, P.calls.set k p'⟩ where
  word := h.word
  answers := h.answers
  once := h.once
  placed := fun j op r => by
    rw [h.placed, Keyed.getElem?_set_at hp]
    split
    · rename_i hjk
      rw [hjk, hp, Option.some.injEq, Option.some.injEq, hdone]
    · rfl

/-- A step that ends a call appends it. -/
theorem Linear.effect (hl : Linearizes exec init done next)
    (h : Linear exec done initial P) (hp : P.calls[k]? = some p) {op : ω}
    {r : ρ} {w : σ} (hrun : ∀ op r, p ≠ done op r)
    (hexec : exec P.shared.word op = (r, w)) :
    Linear exec done initial
      ⟨⟨w, P.shared.order ++ [⟨k, op, r⟩]⟩, P.calls.set k (done op r)⟩ := by
  have hfresh : ∀ op r, ⟨k, op, r⟩ ∉ P.shared.order := by
    intro op' r' hmem
    rw [h.placed, hp] at hmem
    exact hrun op' r' (Option.some.inj hmem)
  rw [h.word] at hexec
  refine ⟨?_, ?_, ?_, fun j op' r' => ?_⟩
  · rw [List.map_append, List.map_singleton, execAll_concat, hexec]
  · rw [List.map_append, List.map_append, List.map_singleton,
      List.map_singleton, results_concat, hexec, h.answers]
  · rw [List.map_append, List.nodup_append]
    refine ⟨h.once, by simp, ?_⟩
    intro j hj i hi
    obtain ⟨⟨j', op', r'⟩, hmem, rfl⟩ := List.mem_map.mp hj
    rw [List.mem_singleton.mp hi]
    rintro rfl
    exact hfresh op' r' hmem
  · rw [List.mem_append, h.placed, Keyed.getElem?_set_at hp]
    by_cases hjk : j = k
    · subst hjk
      rw [if_pos rfl, hp, List.mem_singleton]
      constructor
      · rintro (hold | hnew)
        · exact absurd (Option.some.inj hold) (hrun op' r')
        · cases hnew
          rfl
      · intro hnew
        obtain ⟨rfl, rfl⟩ := hl.inj (Option.some.inj hnew)
        exact .inr rfl
    · rw [if_neg hjk]
      constructor
      · rintro (hold | hnew)
        · exact hold
        · cases List.mem_singleton.mp hnew
          exact absurd rfl hjk
      · exact .inl

/-- **Linearization rule**: when every step is silent or an effect, every run
is explained by the sequential calls in the order of their effects. -/
theorem Linearizes.linear (hl : Linearizes exec init done next)
    (initial : σ) (turns : List (Turn ω κ)) :
    Linear exec done initial
      (run (step init next) ⟨⟨initial, []⟩, []⟩ turns) := by
  refine pool_invariant init next (fun P o h _ => h.start hl o) ?_ turns _ ?_
    (along_true _ _ turns)
  · intro P k c p h hp _
    obtain ⟨p', hnext, hdone⟩ | ⟨op, r, w, hnext, hrun, hexec⟩ :=
      hl.cases k c P.shared p
    · rw [go, hnext]
      exact h.silent hp hdone
    · rw [go, hnext]
      exact h.effect hl hp hrun hexec
  · exact ⟨rfl, rfl, List.nodup_nil, fun k op r => by simp⟩

end Linearization

end NetMux.Lib.Interleave
