import NetMux.Flow.Window
import NetMux.Lib.Interleave

/-!
# Taking and granting credit, one atomic step at a time

`SendWindow` runs each call without interference.  In the code `try_take` and
`grant` are loops over one word: a load, a `compare_exchange_weak` that may
fail because another call came first or for no reason at all, and a retry.
Here every load and compare-exchange is a step of its own, and any number of
calls take their steps in any order.  A call takes effect at its successful
compare-exchange; one that ends without it, at its last load.  The word and
the results are those of a counter on which the calls are run one after
another in that order.

Without interference the steps of a call add up to the call as `Flow.Window`
has it (`take_alone`, `grant_alone`).  The wake-up at the end of `grant` does
not touch the word and is no step here.
-/

namespace NetMux

open Lib.Word Lib.Run Lib.Interleave

/-- A call on the credit of a send window. -/
inductive CreditOp where
  | take (desired : UInt32)
  | grant (delta : UInt32)
  deriving DecidableEq, Repr

/-- The credit a call brings. -/
def CreditOp.delta : CreditOp → Nat
  | take _ => 0
  | grant delta => delta.toNat

/-- A call of `try_take` or `grant`, by what it does next. -/
inductive CreditPc where
  | takeLoad (desired : UInt32)
  /-- Try to take from `cur`, which was not zero. -/
  | takeExchange (desired cur : UInt32) (h : cur ≠ 0)
  /-- Load the credit, unless there is nothing to grant. -/
  | grantLoad (delta : UInt32)
  /-- Try to add to `cur`. -/
  | grantExchange (delta cur : UInt32)
  | done (op : CreditOp) (result : Option UInt32)
  deriving DecidableEq, Repr

/-- The credit word and the calls in the order of their effects. -/
abbrev CreditLog := Logged UInt32 CreditOp (Option UInt32)

namespace SendWindow

/-- Where a call begins. -/
def creditInit : CreditOp → CreditPc
  | .take desired => .takeLoad desired
  | .grant delta => .grantLoad delta

/-- One atomic step of `try_take` or `grant`.  After a failed
compare-exchange `try_take` loads again; `grant` goes on with the value
found. -/
def creditNext (k : Nat) (spurious : Bool) (c : CreditLog) :
    CreditPc → CreditLog × CreditPc
  | .takeLoad desired =>
      if h : c.word = 0 then
        (⟨c.word, c.order ++ [⟨k, .take desired, none⟩]⟩,
          .done (.take desired) none)
      else (c, .takeExchange desired c.word h)
  | .takeExchange desired cur _ =>
      if !spurious && c.word == cur then
        let take := min cur desired
        (⟨cur - take, c.order ++ [⟨k, .take desired, some take⟩]⟩,
          .done (.take desired) (some take))
      else (c, .takeLoad desired)
  | .grantLoad delta =>
      if delta = 0 then
        (⟨c.word, c.order ++ [⟨k, .grant delta, none⟩]⟩,
          .done (.grant delta) none)
      else (c, .grantExchange delta c.word)
  | .grantExchange delta cur =>
      if !spurious && c.word == cur then
        (⟨saturatingAdd cur delta, c.order ++ [⟨k, .grant delta, none⟩]⟩,
          .done (.grant delta) none)
      else (c, .grantExchange delta c.word)
  | .done op result => (c, .done op result)

/-- The calls on a window of the given credit after some turns. -/
def spenders (initial : UInt32) (turns : List (Turn CreditOp Bool)) :
    Pool CreditLog CreditPc :=
  run (step creditInit creditNext) ⟨⟨initial, []⟩, []⟩ turns

/-- **`try_take` alone is the call.** -/
theorem take_alone (w : SendWindow) (desired : UInt32) (k : Nat)
    (order : List (Effect CreditOp (Option UInt32))) :
    let one := fun x : CreditLog × CreditPc => creditNext k false x.1 x.2
    one (one (⟨w.available, order⟩, .takeLoad desired)) =
      (⟨(w.tryTake desired).2.available,
          order ++ [⟨k, .take desired, (w.tryTake desired).1⟩]⟩,
        .done (.take desired) (w.tryTake desired).1) := by
  intro one
  by_cases hzero : w.available = 0
  · simp [one, creditNext, tryTake, hzero]
  · simp [one, creditNext, tryTake, hzero]

/-- **`grant` alone is the call.** -/
theorem grant_alone (w : SendWindow) (delta : UInt32) (k : Nat)
    (order : List (Effect CreditOp (Option UInt32))) :
    let one := fun x : CreditLog × CreditPc => creditNext k false x.1 x.2
    one (one (⟨w.available, order⟩, .grantLoad delta)) =
      (⟨(w.grant delta).available, order ++ [⟨k, .grant delta, none⟩]⟩,
        .done (.grant delta) none) := by
  intro one
  by_cases hzero : delta = 0
  · simp [one, creditNext, grant, hzero]
  · simp [one, creditNext, grant, hzero]

/-! ## The sequential counter -/

/-- One call on a counter: take the smaller of credit and demand, if there is
credit, or add and stop at the largest word. -/
def exec (credit : UInt32) : CreditOp → Option UInt32 × UInt32
  | .take desired =>
      if credit = 0 then (none, credit)
      else (some (min credit desired), credit - min credit desired)
  | .grant delta => (none, saturatingAdd credit delta)

/-- The credit a call hands out. -/
def amount : Option UInt32 → Nat
  | none => 0
  | some n => n.toNat

/-- The credit granted by some calls. -/
def granted (ops : List CreditOp) : Nat := (ops.map CreditOp.delta).sum

/-- The credit handed out. -/
def taken (results : List (Option UInt32)) : Nat := (results.map amount).sum

/-- No grant stops at the largest word. -/
def Unsaturated (credit : UInt32) : List CreditOp → Prop
  | [] => True
  | op :: ops =>
      credit.toNat + op.delta < 2 ^ 32 ∧ Unsaturated (exec credit op).2 ops

/-- What one call hands out and what is left are together what there was and
what the call brings, cut off at the largest word. -/
theorem exec_balance (credit : UInt32) (op : CreditOp) :
    amount (exec credit op).1 + (exec credit op).2.toNat =
      min (credit.toNat + op.delta) (2 ^ 32 - 1) := by
  have hlt := credit.toNat_lt
  cases op with
  | take desired =>
      simp only [exec, CreditOp.delta]
      split
      · simp only [amount]
        omega
      · have hmin := UInt32.toNat_min credit desired
        have hle : min credit desired ≤ credit := by
          rw [UInt32.le_iff_toNat_le, hmin]
          omega
        simp only [amount, UInt32.toNat_sub_of_le _ _ hle]
        omega
  | grant delta =>
      simp only [exec, CreditOp.delta, amount, toNat_saturatingAdd]
      omega

/-- **No credit is handed out twice.** -/
theorem taken_le (credit : UInt32) (ops : List CreditOp) :
    taken (results exec credit ops) + (execAll exec credit ops).toNat ≤
      credit.toNat + granted ops := by
  induction ops generalizing credit with
  | nil => simp [results, taken, execAll, granted]
  | cons op ops ih =>
      have hone := exec_balance credit op
      have hrest := ih (exec credit op).2
      simp only [results, taken, execAll, granted, List.map_cons, List.sum_cons,
        List.foldl_cons] at hrest ⊢
      omega

/-- **No grant is lost** that does not stop at the largest word. -/
theorem taken_eq (credit : UInt32) (ops : List CreditOp)
    (h : Unsaturated credit ops) :
    taken (results exec credit ops) + (execAll exec credit ops).toNat =
      credit.toNat + granted ops := by
  induction ops generalizing credit with
  | nil => simp [results, taken, execAll, granted]
  | cons op ops ih =>
      have hone := exec_balance credit op
      have hfits := h.1
      have hrest := ih (exec credit op).2 h.2
      simp only [results, taken, execAll, granted, List.map_cons, List.sum_cons,
        List.foldl_cons] at hrest ⊢
      omega

/-! ## The steps follow the counter -/

/-- **Every step is silent or an effect on the counter.** -/
theorem creditLinearizes :
    Linearizes exec creditInit CreditPc.done creditNext where
  inj := fun h => by
    cases h
    exact ⟨rfl, rfl⟩
  fresh := fun o op r => by cases o <;> simp [creditInit]
  cases := fun k spurious c p => by
    cases p with
    | takeLoad desired =>
        by_cases hzero : c.word = 0
        · refine .inr ⟨.take desired, none, c.word, ?_, by simp, ?_⟩
          · rw [creditNext, dif_pos hzero]
          · rw [exec, if_pos hzero]
        · refine .inl ⟨.takeExchange desired c.word hzero, ?_, by simp⟩
          rw [creditNext, dif_neg hzero]
    | takeExchange desired cur hcur =>
        by_cases hwin : (!spurious && c.word == cur) = true
        · refine .inr ⟨.take desired, some (min cur desired),
            cur - min cur desired, ?_, by simp, ?_⟩
          · simp only [creditNext, if_pos hwin]
          · rw [Bool.and_eq_true, beq_iff_eq] at hwin
            rw [exec, hwin.2, if_neg hcur]
        · refine .inl ⟨.takeLoad desired, ?_, by simp⟩
          simp only [creditNext, if_neg hwin]
    | grantLoad delta =>
        by_cases hzero : delta = 0
        · refine .inr ⟨.grant delta, none, c.word, ?_, by simp, ?_⟩
          · simp only [creditNext, if_pos hzero]
          · rw [exec, hzero, saturatingAdd_zero]
        · refine .inl ⟨.grantExchange delta c.word, ?_, by simp⟩
          simp only [creditNext, if_neg hzero]
    | grantExchange delta cur =>
        by_cases hwin : (!spurious && c.word == cur) = true
        · refine .inr ⟨.grant delta, none, saturatingAdd cur delta, ?_, by simp, ?_⟩
          · simp only [creditNext, if_pos hwin]
          · rw [Bool.and_eq_true, beq_iff_eq] at hwin
            rw [exec, hwin.2]
        · refine .inl ⟨.grantExchange delta c.word, ?_, by simp⟩
          simp only [creditNext, if_neg hwin]
    | done op r => exact .inl ⟨.done op r, rfl, fun _ _ => Iff.rfl⟩

/-- Both calls load five; the second one is first to exchange it, and the
other has to load again. -/
example : (spenders 5 [.start (.take 4), .start (.take 4), .go 0 false,
    .go 1 false, .go 1 false, .go 0 false, .go 0 false,
    .go 0 false]).shared.order =
    [⟨1, .take 4, some 4⟩, ⟨0, .take 4, some 1⟩] := by
  decide

end SendWindow

end NetMux
