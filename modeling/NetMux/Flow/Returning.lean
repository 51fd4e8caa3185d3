import NetMux.Flow.Window
import NetMux.Lib.Interleave

/-!
# Returning credit, one atomic step at a time

`RecvWindow` runs each call of `on_consume` without interference.  The code
has one word and a lock-free loop over it: a `fetch_add`, then a
`compare_exchange_weak` that may fail because another call came first or for
no reason at all.  Here each of these is a step of its own, and any number of
calls take their steps in any order.  No credit is lost or returned twice, and
none stays behind: while the word reaches the threshold, some call is in its
loop.

Without interference the steps of a call add up to the call as `Flow.Window`
has it (`consume_alone`).
-/

namespace NetMux

open Lib.Word Lib.Run Lib.Interleave

/-- A call of `on_consume`, by what it does next. -/
inductive ConsumePc where
  /-- `fetch_add`, unless there is nothing to add. -/
  | add (bytes : UInt32)
  /-- Try to exchange `cur` for zero. -/
  | exchange (bytes cur : UInt32)
  | done (bytes : UInt32) (result : Option UInt32)
  deriving DecidableEq, Repr

namespace ConsumePc

/-- The bytes the call was given. -/
def bytes : ConsumePc → UInt32
  | add b => b
  | exchange b _ => b
  | done b _ => b

/-- The bytes the call has added. -/
def added : ConsumePc → Nat
  | add _ => 0
  | exchange b _ => b.toNat
  | done b _ => b.toNat

/-- The credit the call has returned. -/
def returned : ConsumePc → Nat
  | done _ result => RecvWindow.deltaOf result
  | _ => 0

/-- Whether the call is over. -/
def isDone : ConsumePc → Bool
  | done _ _ => true
  | _ => false

/-- Whether the call is in its compare-exchange loop. -/
def exchanging : ConsumePc → Bool
  | exchange _ _ => true
  | _ => false

end ConsumePc

namespace RecvWindow

/-- One atomic step of `on_consume` on the pending credit.  A failed
compare-exchange goes on with the value it found. -/
def consumeNext (threshold : UInt32) (_ : Nat) (spurious : Bool)
    (pending : UInt32) : ConsumePc → UInt32 × ConsumePc
  | .add bytes =>
      if bytes = 0 then (pending, .done bytes none)
      else
        let new := saturatingAdd pending bytes
        (pending + bytes,
          if threshold ≤ new then .exchange bytes new else .done bytes none)
  | .exchange bytes cur =>
      if !spurious && pending == cur then (0, .done bytes (some cur))
      else if pending < threshold then (pending, .done bytes none)
      else (pending, .exchange bytes pending)
  | .done bytes result => (pending, .done bytes result)

/-- The pending credit and the calls on it. -/
abbrev Consumers := Pool UInt32 ConsumePc

/-- One turn of the consumers of a window. -/
def consumeStep (initial : UInt32) : Consumers → Turn UInt32 Bool → Consumers :=
  Lib.Interleave.step ConsumePc.add (consumeNext (new initial).threshold)

/-- All bytes that were added. -/
def consumed (P : Consumers) : Nat := (P.calls.map ConsumePc.added).sum

/-- All credit that was returned. -/
def returned (P : Consumers) : Nat := (P.calls.map ConsumePc.returned).sum

/-- **The steps of a call that nothing interferes with are the call.** -/
theorem consume_alone (w : RecvWindow) (bytes : UInt32) (k : Nat) :
    let one := fun x : UInt32 × ConsumePc =>
      consumeNext w.threshold k false x.1 x.2
    one (one (one (w.pendingCredit, .add bytes))) =
      ((w.onConsume bytes).2.pendingCredit,
        .done bytes (w.onConsume bytes).1) := by
  intro one
  have hdone : ∀ p b r, one (p, .done b r) = (p, .done b r) := fun _ _ _ => rfl
  by_cases hzero : bytes = 0
  · have hone : one (w.pendingCredit, .add bytes) =
        (w.pendingCredit, .done bytes none) := if_pos hzero
    rw [hone, hdone, hdone, onConsume, if_pos hzero]
  · have hadd : one (w.pendingCredit, .add bytes) =
        (w.pendingCredit + bytes,
          if w.threshold ≤ saturatingAdd w.pendingCredit bytes then
            .exchange bytes (saturatingAdd w.pendingCredit bytes)
          else .done bytes none) := if_neg hzero
    rw [hadd, onConsume, if_neg hzero]
    by_cases hnew : w.threshold ≤ saturatingAdd w.pendingCredit bytes
    · simp only [if_pos hnew]
      by_cases hsame :
          w.pendingCredit + bytes = saturatingAdd w.pendingCredit bytes
      · simp [one, consumeNext, hsame]
      -- the sum wrapped: the exchange fails once and goes on with the word
      by_cases hlow : w.pendingCredit + bytes < w.threshold
      · simp [one, consumeNext, hsame, hlow]
      · simp [one, consumeNext, hsame, hlow]
    · simp only [if_neg hnew, hdone]

/-- The account of the consumers: what was returned and what is pending is
what was consumed; a call tries to take no less than the threshold; and while
the pending credit reaches the threshold, some call is about to take it. -/
structure Balanced (threshold : UInt32) (P : Consumers) : Prop where
  sum : returned P + P.shared.toNat = consumed P
  enough : ∀ p ∈ P.calls, ∀ b d, p = .done b (some d) → threshold ≤ d
  trying : ∀ p ∈ P.calls, ∀ b cur, p = .exchange b cur → threshold ≤ cur
  claimed : threshold ≤ P.shared → ∃ p ∈ P.calls, p.exchanging = true

section Account

variable {threshold : UInt32} {P : Consumers}

theorem Balanced.start (h : Balanced threshold P) (bytes : UInt32) :
    Balanced threshold ⟨P.shared, P.calls ++ [.add bytes]⟩ where
  sum := by
    have hsum := h.sum
    simpa [returned, consumed, ConsumePc.added, ConsumePc.returned] using hsum
  enough := forall_concat h.enough fun _ _ he => by cases he
  trying := forall_concat h.trying fun _ _ he => by cases he
  claimed := fun hle => by
    obtain ⟨q, hq, hex⟩ := h.claimed hle
    exact ⟨q, List.mem_append_left _ hq, hex⟩

variable {k : Nat} {p : ConsumePc}

/-- What a step has to do to keep the account: balance its own sums, and
leave no credit unclaimed that was claimed by this call alone. -/
theorem Balanced.set (h : Balanced threshold P) (hp : P.calls[k]? = some p)
    {pending : UInt32} {p' : ConsumePc}
    (hsum : p'.returned + pending.toNat + p.added =
      p.returned + P.shared.toNat + p'.added)
    (henough : ∀ b d, p' = .done b (some d) → threshold ≤ d)
    (htrying : ∀ b cur, p' = .exchange b cur → threshold ≤ cur)
    (hclaimed : threshold ≤ pending →
      p'.exchanging = true ∨ threshold ≤ P.shared ∧ p.exchanging = false) :
    Balanced threshold ⟨pending, P.calls.set k p'⟩ where
  sum := by
    have hadd := sum_map_set ConsumePc.added p' hp
    have hret := sum_map_set ConsumePc.returned p' hp
    have hold := h.sum
    simp only [returned, consumed] at hold ⊢
    omega
  enough := forall_set h.enough henough
  trying := forall_set h.trying htrying
  claimed := fun hle => by
    rcases hclaimed hle with hex | ⟨hold, hnot⟩
    · exact ⟨p', mem_set_self p' hp, hex⟩
    · obtain ⟨q, hq, hex⟩ := h.claimed hold
      refine ⟨q, mem_set_of_ne p' hp hq ?_, hex⟩
      rintro rfl
      cases hnot.symm.trans hex

/-- The bytes consumed and not yet returned fit a word. -/
def Fits (P : Consumers) : Prop := consumed P ≤ returned P + (2 ^ 32 - 1)

instance (P : Consumers) : Decidable (Fits P) := by
  unfold Fits
  infer_instance

/-- While they do, `fetch_add` does not wrap. -/
theorem Balanced.add_lt (h : Balanced threshold P) {bytes : UInt32}
    (hp : P.calls[k]? = some (.add bytes)) {pending : UInt32} {p' : ConsumePc}
    (hadded : p'.added = bytes.toNat) (hreturned : p'.returned = 0)
    (hfits : Fits ⟨pending, P.calls.set k p'⟩) :
    P.shared.toNat + bytes.toNat < 2 ^ 32 := by
  have hadd := sum_map_set ConsumePc.added p' hp
  have hret := sum_map_set ConsumePc.returned p' hp
  have hold := h.sum
  have hbefore : (ConsumePc.add bytes).added = 0 ∧
      (ConsumePc.add bytes).returned = 0 := ⟨rfl, rfl⟩
  simp only [Fits, returned, consumed] at hold hfits
  omega

/-- The `fetch_add` of a call keeps the account. -/
theorem Balanced.go_add (h : Balanced threshold P) {bytes : UInt32}
    (hp : P.calls[k]? = some (.add bytes)) (spurious : Bool)
    (hfits : Fits (go (consumeNext threshold) P k spurious (.add bytes))) :
    Balanced threshold (go (consumeNext threshold) P k spurious (.add bytes)) := by
  by_cases hzero : bytes = 0
  · have hgo : go (consumeNext threshold) P k spurious (.add bytes) =
        ⟨P.shared, P.calls.set k (.done bytes none)⟩ := by
      simp [go, consumeNext, hzero]
    rw [hgo]
    refine h.set hp ?_ (fun _ _ he => by cases he) (fun _ _ he => by cases he)
      fun hle => .inr ⟨hle, rfl⟩
    simp [hzero, ConsumePc.returned, ConsumePc.added, deltaOf]
  · by_cases hnew : threshold ≤ saturatingAdd P.shared bytes
    · have hgo : go (consumeNext threshold) P k spurious (.add bytes) =
          ⟨P.shared + bytes, P.calls.set k
            (.exchange bytes (saturatingAdd P.shared bytes))⟩ := by
        simp [go, consumeNext, hzero, hnew]
      rw [hgo] at hfits ⊢
      have hlt := h.add_lt hp rfl rfl hfits
      refine h.set hp ?_ (fun _ _ he => by cases he) ?_ fun _ => .inl rfl
      · simp only [ConsumePc.returned, ConsumePc.added, toNat_add_of_lt hlt]
        omega
      · intro b cur he
        cases he
        exact hnew
    · have hgo : go (consumeNext threshold) P k spurious (.add bytes) =
          ⟨P.shared + bytes, P.calls.set k (.done bytes none)⟩ := by
        simp [go, consumeNext, hzero, hnew]
      rw [hgo] at hfits ⊢
      have hlt := h.add_lt hp rfl rfl hfits
      refine h.set hp ?_ (fun _ _ he => by cases he) (fun _ _ he => by cases he)
        fun hle => ?_
      · simp only [ConsumePc.returned, ConsumePc.added, toNat_add_of_lt hlt,
          deltaOf]
        omega
      · rw [saturatingAdd_eq_add hlt] at hnew
        exact absurd hle hnew

/-- A turn of the compare-exchange loop does. -/
theorem Balanced.go_exchange (hpos : 1 ≤ threshold.toNat)
    (h : Balanced threshold P) {bytes cur : UInt32}
    (hp : P.calls[k]? = some (.exchange bytes cur)) (spurious : Bool) :
    Balanced threshold
      (go (consumeNext threshold) P k spurious (.exchange bytes cur)) := by
  have hcur := h.trying _ (List.mem_of_getElem? hp) bytes cur rfl
  by_cases hwin : spurious = false ∧ P.shared = cur
  · obtain ⟨rfl, hsame⟩ := hwin
    have hgo : go (consumeNext threshold) P k false (.exchange bytes cur) =
        ⟨0, P.calls.set k (.done bytes (some cur))⟩ := by
      simp [go, consumeNext, hsame]
    rw [hgo]
    refine h.set hp ?_ ?_ (fun _ _ he => by cases he) fun hle => ?_
    · simp [ConsumePc.returned, ConsumePc.added, deltaOf, hsame]
    · intro b d he
      cases he
      exact hcur
    · rw [UInt32.le_iff_toNat_le, UInt32.toNat_zero] at hle
      omega
  · have hlose : (!spurious && P.shared == cur) = false := by
      simpa using hwin
    by_cases hlow : P.shared < threshold
    · have hgo : go (consumeNext threshold) P k spurious (.exchange bytes cur) =
          ⟨P.shared, P.calls.set k (.done bytes none)⟩ := by
        simp [go, consumeNext, hlose, hlow]
      rw [hgo]
      refine h.set hp (by simp [ConsumePc.returned, ConsumePc.added, deltaOf])
        (fun _ _ he => by cases he) (fun _ _ he => by cases he) fun hle => ?_
      exact absurd hlow (UInt32.not_lt.mpr hle)
    · have hgo : go (consumeNext threshold) P k spurious (.exchange bytes cur) =
          ⟨P.shared, P.calls.set k (.exchange bytes P.shared)⟩ := by
        simp [go, consumeNext, hlose, hlow]
      rw [hgo]
      refine h.set hp (by simp [ConsumePc.returned, ConsumePc.added])
        (fun _ _ he => by cases he) ?_ fun _ => .inl rfl
      intro b c he
      cases he
      exact UInt32.not_lt.mp hlow

/-- One step of a call keeps the account. -/
theorem Balanced.go (hpos : 1 ≤ threshold.toNat) (h : Balanced threshold P)
    (hp : P.calls[k]? = some p) (spurious : Bool)
    (hfits : Fits (Lib.Interleave.go (consumeNext threshold) P k spurious p)) :
    Balanced threshold
      (Lib.Interleave.go (consumeNext threshold) P k spurious p) := by
  cases p with
  | add bytes => exact h.go_add hp spurious hfits
  | exchange bytes cur => exact h.go_exchange hpos hp spurious
  | done bytes result =>
      have hmem := List.mem_of_getElem? hp
      exact h.set hp rfl (h.enough _ hmem) (h.trying _ hmem)
        fun hle => .inr ⟨hle, rfl⟩

end Account

/-- A turn after which the bytes consumed and not returned fit a word. -/
def FitsAfter (initial : UInt32) (P : Consumers) (t : Turn UInt32 Bool) : Prop :=
  Fits (consumeStep initial P t)

instance (initial : UInt32) (P : Consumers) (t : Turn UInt32 Bool) :
    Decidable (FitsAfter initial P t) := by
  unfold FitsAfter
  infer_instance

/-- The consumers of a new window after some turns. -/
def consumers (initial : UInt32) (turns : List (Turn UInt32 Bool)) : Consumers :=
  run (consumeStep initial) ⟨(new initial).pendingCredit, []⟩ turns

theorem balanced_consumers (initial : UInt32) (turns : List (Turn UInt32 Bool))
    (hfits : Along (consumeStep initial) (FitsAfter initial)
      ⟨(new initial).pendingCredit, []⟩ turns) :
    Balanced (new initial).threshold (consumers initial turns) := by
  have hpos : 1 ≤ (new initial).threshold.toNat := by
    rw [toNat_threshold]
    omega
  refine pool_invariant ConsumePc.add (consumeNext (new initial).threshold)
    (fun P o h _ => h.start o) (fun P k c p h hp hok => ?_) turns _ ?_ hfits
  · rw [FitsAfter, consumeStep, step_some _ _ hp] at hok
    exact h.go hpos hp c hok
  · refine ⟨rfl, fun _ hp => absurd hp List.not_mem_nil,
      fun _ hp => absurd hp List.not_mem_nil, fun hle => ?_⟩
    have hle' := UInt32.le_iff_toNat_le.mp hle
    simp only [new, UInt32.toNat_zero] at hle'
    simp only [new] at hpos
    omega

/-- Two calls pass the threshold of two, both try to take the credit, and one
of them fails for no reason. -/
def consumeRace : List (Turn UInt32 Bool) :=
  [.start 2, .start 1, .go 0 false, .go 1 false, .go 0 false, .go 1 true,
    .go 0 false, .go 1 false]

end RecvWindow

end NetMux
