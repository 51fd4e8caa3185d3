import Mathlib.Data.List.Pairwise
import Mathlib.Data.List.ReduceOption
import NetMux.Lib.Interleave
import NetMux.Util.Id

/-!
# Allocating stream ids, one atomic step at a time

`StreamIdAllocator` runs each call without interference.  In the code
`allocate` is a loop over one word: a load, a checked addition that may end
the call, and a `compare_exchange_weak` that may fail because another call
came first or for no reason at all.  Here the load and the compare-exchange
are steps of their own, and any number of calls take their steps in any order.

A call that returns an id takes effect at its successful compare-exchange, one
that returns `None` at its last load, and the results are those of the calls
run one after another in that order.  From there on everything is arithmetic:
the ids are the first id of the role and every second one after it, up to the
last for which the addition does not overflow.

Without interference the steps of a call add up to the call as `Util.Id` has
it (`allocate_alone`).
-/

namespace NetMux

open Lib.Word Lib.Run Lib.Interleave

/-- A call of `allocate`, by what it does next. -/
inductive AllocPc where
  | load
  /-- Try to exchange `cur` for `next`, its checked successor. -/
  | exchange (cur next : StreamId) (h : checkedAdd cur 2 = some next)
  | done (result : Option StreamId)
  deriving DecidableEq, Repr

/-- The counter and the calls in the order of their effects. -/
abbrev AllocLog := Logged StreamId Unit (Option StreamId)

/-- A call begins, or makes its next step with a choice to fail. -/
abbrev AllocTurn := Lib.Interleave.Turn Unit Bool

/-- A counter and the calls on it. -/
abbrev Allocators := Pool AllocLog AllocPc

namespace StreamIdAllocator

/-- The checked addition of a call that has loaded `cur`: it tries to exchange
the counter, or ends the call. -/
def loaded (k : Nat) (s : AllocLog) (cur : StreamId) : AllocLog × AllocPc :=
  match h : checkedAdd cur 2 with
  | none => (⟨s.word, s.order ++ [⟨k, (), none⟩]⟩, .done none)
  | some next => (s, .exchange cur next h)

/-- One atomic step of `allocate`.  After a failed compare-exchange it loads
again. -/
def allocNext (k : Nat) (spurious : Bool) (s : AllocLog) :
    AllocPc → AllocLog × AllocPc
  | .load => loaded k s s.word
  | .exchange cur next _ =>
      if !spurious && s.word == cur then
        (⟨next, s.order ++ [⟨k, (), some cur⟩]⟩, .done (some cur))
      else (s, .load)
  | .done result => (s, .done result)

/-- One turn of the calls on an allocator. -/
def allocStep : Allocators → AllocTurn → Allocators :=
  step (fun _ => .load) allocNext

/-- The calls on a new allocator after some turns. -/
def allocators (role : Role) (turns : List AllocTurn) : Allocators :=
  run allocStep ⟨⟨(new role).next, []⟩, []⟩ turns

/-- Call number `k` has returned `r`. -/
def Returned (P : Allocators) (k : Nat) (r : Option StreamId) : Prop :=
  P.calls[k]? = some (.done r)

/-- The ids handed out, in the order of the successful compare-exchanges. -/
def issued (P : Allocators) : List StreamId :=
  (P.shared.order.map Effect.result).reduceOption

theorem loaded_none {k : Nat} {s : AllocLog} {cur : StreamId}
    (h : checkedAdd cur 2 = none) :
    loaded k s cur = (⟨s.word, s.order ++ [⟨k, (), none⟩]⟩, .done none) := by
  unfold loaded
  split
  · rfl
  · rename_i next hnext
    cases h.symm.trans hnext

theorem loaded_some {k : Nat} {s : AllocLog} {cur next : StreamId}
    (h : checkedAdd cur 2 = some next) :
    loaded k s cur = (s, .exchange cur next h) := by
  unfold loaded
  split
  · rename_i hnone
    cases h.symm.trans hnone
  · rename_i next' hnext
    cases h.symm.trans hnext
    rfl

theorem exchange_wins {k : Nat} {spurious : Bool} {s : AllocLog}
    {cur next : StreamId} (h : checkedAdd cur 2 = some next)
    (hwin : (!spurious && s.word == cur) = true) :
    allocNext k spurious s (.exchange cur next h) =
      (⟨next, s.order ++ [⟨k, (), some cur⟩]⟩, .done (some cur)) :=
  if_pos hwin

theorem exchange_loses {k : Nat} {spurious : Bool} {s : AllocLog}
    {cur next : StreamId} (h : checkedAdd cur 2 = some next)
    (hlose : ¬ (!spurious && s.word == cur) = true) :
    allocNext k spurious s (.exchange cur next h) = (s, .load) :=
  if_neg hlose

/-! ## The sequential allocator -/

/-- One call on a counter. -/
def exec (next : StreamId) (_ : Unit) : Option StreamId × StreamId :=
  match (⟨next⟩ : StreamIdAllocator).allocate with
  | none => (none, next)
  | some (id, a) => (some id, a.next)

theorem exec_none {w : StreamId} (h : checkedAdd w 2 = none) :
    exec w () = (none, w) := by
  simp [exec, allocate, h]

theorem exec_some {w next : StreamId} (h : checkedAdd w 2 = some next) :
    exec w () = (some w, next) := by
  simp [exec, allocate, h]

/-- **The steps of a call that nothing interferes with are the call.** -/
theorem allocate_alone (a : StreamIdAllocator) (k : Nat)
    (order : List (Effect Unit (Option StreamId))) :
    let one := fun x : AllocLog × AllocPc => allocNext k false x.1 x.2
    one (one (⟨a.next, order⟩, .load)) =
      (⟨(exec a.next ()).2, order ++ [⟨k, (), (exec a.next ()).1⟩]⟩,
        .done (exec a.next ()).1) := by
  intro one
  show allocNext k false (loaded k ⟨a.next, order⟩ a.next).1
    (loaded k ⟨a.next, order⟩ a.next).2 = _
  cases hadd : checkedAdd a.next 2 with
  | none =>
      rw [loaded_none hadd, exec_none hadd]
      rfl
  | some next =>
      rw [loaded_some hadd, exec_some hadd]
      exact exchange_wins hadd (by simp)

/-- The ids that some calls hand out, one after another. -/
def ids (w : StreamId) (ops : List Unit) : List StreamId :=
  (results exec w ops).reduceOption

section Sequential

variable {w next : StreamId} {ops : List Unit}

/-- A counter whose successor overflows stays where it is. -/
theorem execAll_spent (h : checkedAdd w 2 = none) : execAll exec w ops = w := by
  induction ops with
  | nil => rfl
  | cons op ops ih =>
      show execAll exec (exec w ()).2 ops = w
      rw [exec_none h]
      exact ih

theorem execAll_cons_some (h : checkedAdd w 2 = some next) (op : Unit) :
    execAll exec w (op :: ops) = execAll exec next ops := by
  show execAll exec (exec w ()).2 ops = _
  rw [exec_some h]

theorem ids_cons_none (h : checkedAdd w 2 = none) (op : Unit) :
    ids w (op :: ops) = ids w ops := by
  show List.reduceOption ((exec w ()).1 :: results exec (exec w ()).2 ops) = _
  rw [exec_none h]
  exact List.reduceOption_cons_of_none _

theorem ids_cons_some (h : checkedAdd w 2 = some next) (op : Unit) :
    ids w (op :: ops) = w :: ids next ops := by
  show List.reduceOption ((exec w ()).1 :: results exec (exec w ()).2 ops) = _
  rw [exec_some h]
  exact List.reduceOption_cons_of_some _ _

/-- Induction along some calls: the counter is at its end and stays, or it
moves on by two. -/
@[elab_as_elim]
theorem calls_induction {motive : StreamId → List Unit → Prop}
    (nil : ∀ w, motive w [])
    (stay : ∀ w op ops, checkedAdd w 2 = none → motive w ops →
      motive w (op :: ops))
    (move : ∀ w next op ops, checkedAdd w 2 = some next →
      next.toNat = w.toNat + 2 → motive next ops → motive w (op :: ops))
    (w : StreamId) (ops : List Unit) : motive w ops := by
  induction ops generalizing w with
  | nil => exact nil w
  | cons op ops ih =>
      cases hadd : checkedAdd w 2 with
      | none => exact stay w op ops hadd (ih w)
      | some next => exact move w next op ops hadd (toNat_checkedAdd hadd) (ih next)

/-- The counter is the number of ids handed out, in steps of two. -/
theorem toNat_execAll (w : StreamId) (ops : List Unit) :
    (execAll exec w ops).toNat = w.toNat + 2 * (ids w ops).length := by
  induction w, ops using calls_induction with
  | nil w => rfl
  | stay w op ops hadd ih =>
      rw [execAll_spent hadd] at ih ⊢
      rw [ids_cons_none hadd]
      exact ih
  | move w next op ops hadd hnext ih =>
      rw [execAll_cons_some hadd, ids_cons_some hadd, List.length_cons]
      omega

/-- No id is below the counter it was taken from. -/
theorem le_of_mem_ids (w : StreamId) (ops : List Unit) :
    ∀ id ∈ ids w ops, w.toNat ≤ id.toNat := by
  induction w, ops using calls_induction with
  | nil w =>
      intro id hid
      cases hid
  | stay w op ops hadd ih =>
      rw [ids_cons_none hadd]
      exact ih
  | move w next op ops hadd hnext ih =>
      intro id hid
      rw [ids_cons_some hadd, List.mem_cons] at hid
      rcases hid with rfl | hid
      · exact Nat.le_refl _
      · have hle := ih id hid
        omega

/-- **Ids go up.** -/
theorem ids_increasing (w : StreamId) (ops : List Unit) :
    (ids w ops).Pairwise (· < ·) := by
  induction w, ops using calls_induction with
  | nil w => exact .nil
  | stay w op ops hadd ih =>
      rw [ids_cons_none hadd]
      exact ih
  | move w next op ops hadd hnext ih =>
      rw [ids_cons_some hadd, List.pairwise_cons]
      refine ⟨fun id hid => ?_, ih⟩
      have hle := le_of_mem_ids next ops id hid
      rw [UInt32.lt_iff_toNat_lt]
      omega

/-- **Ids stay with the role.** -/
theorem owns_of_mem_ids {role : Role} (w : StreamId) (ops : List Unit)
    (hw : role.owns w = true) : ∀ id ∈ ids w ops, role.owns id = true := by
  induction w, ops using calls_induction with
  | nil w =>
      intro id hid
      cases hid
  | stay w op ops hadd ih =>
      rw [ids_cons_none hadd]
      exact ih hw
  | move w next op ops hadd hnext ih =>
      intro id hid
      rw [ids_cons_some hadd, List.mem_cons] at hid
      rcases hid with rfl | hid
      · exact hw
      · exact ih (Role.owns_add_two hw hnext) id hid

/-- A call that got no id leaves a counter whose successor overflows. -/
theorem spent_of_none (w : StreamId) (ops : List Unit)
    (hnone : none ∈ results exec w ops) :
    checkedAdd (execAll exec w ops) 2 = none := by
  induction w, ops using calls_induction with
  | nil w => cases hnone
  | stay w op ops hadd ih => rw [execAll_spent hadd, hadd]
  | move w next op ops hadd hnext ih =>
      change none ∈ (exec w ()).1 :: results exec (exec w ()).2 ops at hnone
      rw [exec_some hadd, List.mem_cons] at hnone
      rw [execAll_cons_some hadd]
      rcases hnone with hnone | hnone
      · cases hnone
      · exact ih hnone

end Sequential

/-! ## The steps follow the sequential allocator -/

/-- **Every step is silent or an effect on the counter.** -/
theorem allocLinearizes :
    Linearizes exec (fun _ => AllocPc.load) (fun _ => AllocPc.done)
      allocNext where
  inj := fun h => by
    cases h
    exact ⟨rfl, rfl⟩
  fresh := fun o op r => by simp
  cases := fun k spurious s p => by
    cases p with
    | load =>
        cases hadd : checkedAdd s.word 2 with
        | none =>
            exact .inr ⟨(), none, s.word, loaded_none hadd, by simp,
              exec_none hadd⟩
        | some next =>
            exact .inl ⟨.exchange s.word next hadd, loaded_some hadd, by simp⟩
    | exchange cur next h =>
        by_cases hwin : (!spurious && s.word == cur) = true
        · refine .inr ⟨(), some cur, next, exchange_wins h hwin, by simp, ?_⟩
          rw [Bool.and_eq_true, beq_iff_eq] at hwin
          rw [hwin.2]
          exact exec_some h
        · exact .inl ⟨.load, exchange_loses h hwin, by simp⟩
    | done r => exact .inl ⟨.done r, rfl, fun _ _ => Iff.rfl⟩

theorem linear_allocators (role : Role) (turns : List AllocTurn) :
    Linear exec (fun _ => AllocPc.done) role.firstId (allocators role turns) :=
  allocLinearizes.linear role.firstId turns

section Runs

variable {role : Role} {turns : List AllocTurn}

theorem issued_eq (role : Role) (turns : List AllocTurn) :
    issued (allocators role turns) =
      ids role.firstId ((allocators role turns).shared.order.map Effect.op) :=
  congrArg List.reduceOption (linear_allocators role turns).answers

theorem mem_issued {id : StreamId} :
    id ∈ issued (allocators role turns) ↔
      ∃ k, Returned (allocators role turns) k (some id) := by
  have h := linear_allocators role turns
  rw [issued, List.reduceOption_mem_iff, List.mem_map]
  constructor
  · rintro ⟨⟨k, op, r⟩, he, rfl⟩
    exact ⟨k, (h.placed k op _).mp he⟩
  · rintro ⟨k, hk⟩
    exact ⟨⟨k, (), some id⟩, (h.placed k () _).mpr hk, rfl⟩

theorem owns_of_issued {id : StreamId}
    (h : id ∈ issued (allocators role turns)) : role.owns id = true := by
  rw [issued_eq] at h
  exact owns_of_mem_ids _ _ role.owns_firstId id h

/-- Two calls do not return one id. -/
theorem call_unique {j k : Nat} {id : StreamId}
    (hj : Returned (allocators role turns) j (some id))
    (hk : Returned (allocators role turns) k (some id)) :
    j = k := by
  have h := linear_allocators role turns
  have hup := ids_increasing role.firstId
    ((allocators role turns).shared.order.map Effect.op)
  rw [← issued_eq, issued, List.reduceOption, List.pairwise_filterMap,
    List.pairwise_map] at hup
  -- no two effects in the order have one id, whichever comes first
  have hne : (allocators role turns).shared.order.Pairwise
      fun e e' => ∀ id, ¬ (e.result = some id ∧ e'.result = some id) := by
    refine hup.imp fun hlt id hid => ?_
    exact UInt32.lt_irrefl id (hlt id hid.1 id hid.2)
  have hsymm : Std.Symm fun e e' : Effect Unit (Option StreamId) =>
      ∀ id, ¬ (e.result = some id ∧ e'.result = some id) :=
    ⟨fun _ _ hee id hid => hee id hid.symm⟩
  by_contra hjk
  have hdiff : (⟨j, (), some id⟩ : Effect Unit (Option StreamId)) ≠
      ⟨k, (), some id⟩ := by
    rintro ⟨⟩
    exact hjk rfl
  exact hne.forall ((h.placed j () _).mpr hj) ((h.placed k () _).mpr hk) hdiff
    id ⟨rfl, rfl⟩

/-- The ids handed out do not fill half of the words. -/
theorem length_issued_lt (role : Role) (turns : List AllocTurn) :
    (issued (allocators role turns)).length < 2 ^ 31 := by
  have hcount := toNat_execAll role.firstId
    ((allocators role turns).shared.order.map Effect.op)
  have hlt := (execAll exec role.firstId
    ((allocators role turns).shared.order.map Effect.op)).toNat_lt
  have hfirst : 1 ≤ role.firstId.toNat := by cases role <;> decide
  rw [issued_eq]
  omega

end Runs

/-! ## When the ids are used up -/

/-- What a step makes of a call when the ids are used up. -/
def windUp : AllocPc → AllocPc
  | .load => .done none
  | .exchange _ _ _ => .load
  | .done result => .done result

/-- A call that has not returned an id gets none. -/
theorem windUp_windUp {p : AllocPc} (h : ∀ id, p ≠ .done (some id)) :
    windUp (windUp p) = .done none := by
  cases p with
  | load => rfl
  | exchange cur next hadd => rfl
  | done result =>
      cases result with
      | none => rfl
      | some id => exact absurd rfl (h id)

/-- The counter is at its end, and no step moves it: a call that is about to
exchange it has loaded another value. -/
theorem allocNext_spent {s : AllocLog} (h : checkedAdd s.word 2 = none)
    (k : Nat) (spurious : Bool) (p : AllocPc) :
    (allocNext k spurious s p).1.word = s.word ∧
      (allocNext k spurious s p).2 = windUp p := by
  cases p with
  | load =>
      rw [allocNext, loaded_none h]
      exact ⟨rfl, rfl⟩
  | exchange cur next hadd =>
      have hlose : ¬ (!spurious && s.word == cur) = true := by
        rw [Bool.and_eq_true, beq_iff_eq]
        rintro ⟨-, rfl⟩
        cases h.symm.trans hadd
      rw [exchange_loses hadd hlose]
      exact ⟨rfl, rfl⟩
  | done result => exact ⟨rfl, rfl⟩

/-- Nothing has changed since the ids were used up in `P` but that calls got
none. -/
structure Spent (P Q : Allocators) : Prop where
  word : Q.shared.word = P.shared.word
  returned : ∀ k id, Returned Q k (some id) → Returned P k (some id)

section Spent

variable {P Q : Allocators} {k : Nat} {p : AllocPc}

theorem Spent.start (h : Spent P Q) :
    Spent P ⟨Q.shared, Q.calls ++ [.load]⟩ where
  word := h.word
  returned := fun k id hk =>
    h.returned k id ((getElem?_concat_ne (by simp) k).mp hk)

theorem Spent.go (hend : checkedAdd P.shared.word 2 = none) (h : Spent P Q)
    (hp : Q.calls[k]? = some p) (spurious : Bool) :
    Spent P (go allocNext Q k spurious p) := by
  have hend' : checkedAdd Q.shared.word 2 = none := by rw [h.word, hend]
  obtain ⟨hword, hpc⟩ := allocNext_spent hend' k spurious p
  refine ⟨hword.trans h.word, fun j id hj => h.returned j id ?_⟩
  change (Q.calls.set k (allocNext k spurious Q.shared p).2)[j]? = _ at hj
  rw [hpc, Lib.Keyed.getElem?_set_at hp] at hj
  split at hj
  · rename_i hjk
    subst hjk
    -- a call is wound up to an id only when it had returned it
    cases p with
    | load => cases hj
    | exchange cur next hadd => cases hj
    | done result => exact hp.trans hj
  · exact hj

theorem Spent.run (hend : checkedAdd P.shared.word 2 = none)
    (more : List AllocTurn) : Spent P (Lib.Run.run allocStep P more) :=
  pool_invariant _ allocNext (fun _ _ h _ => h.start)
    (fun _ _ c _ h hp _ => h.go hend hp c) more P ⟨rfl, fun _ _ hk => hk⟩
    (along_true _ _ more)

/-- A turn of a call, by number. -/
theorem allocStep_go (hp : Q.calls[k]? = some p) (spurious : Bool) :
    allocStep Q (.go k spurious) =
        ⟨(allocNext k spurious Q.shared p).1,
          Q.calls.set k (allocNext k spurious Q.shared p).2⟩ ∧
      (allocStep Q (.go k spurious)).calls[k]? =
        some (allocNext k spurious Q.shared p).2 := by
  have hstep : allocStep Q (.go k spurious) = _ := step_some _ allocNext hp spurious
  refine ⟨hstep, ?_⟩
  rw [hstep]
  show (Q.calls.set k _)[k]? = _
  exact Lib.Keyed.getElem?_set_here hp _

/-- Two steps end a call that has returned no id. -/
theorem returns_none (hend : checkedAdd Q.shared.word 2 = none)
    (hp : Q.calls[k]? = some p) (hid : ∀ id, p ≠ .done (some id))
    (c c' : Bool) :
    Returned (Lib.Run.run allocStep Q [.go k c, .go k c']) k none := by
  obtain ⟨hword, hpc⟩ := allocNext_spent hend k c p
  obtain ⟨hstep, hp₁⟩ := allocStep_go hp c
  have hend₁ : checkedAdd (allocStep Q (.go k c)).shared.word 2 = none := by
    rw [hstep]
    show checkedAdd (allocNext k c Q.shared p).1.word 2 = none
    rw [hword, hend]
  rw [hpc] at hp₁
  have hpc₂ := (allocNext_spent hend₁ k c' (windUp p)).2
  have hp₂ := (allocStep_go hp₁ c').2
  rw [hpc₂, windUp_windUp hid] at hp₂
  exact hp₂

end Spent

/-- A call that returned no id found the counter at its end. -/
theorem spent_of_returned {role : Role} {turns : List AllocTurn}
    {k : Nat} (hk : Returned (allocators role turns) k none) :
    checkedAdd (allocators role turns).shared.word 2 = none := by
  have h := linear_allocators role turns
  have hmem := List.mem_map_of_mem (f := Effect.result)
    ((h.placed k () none).mpr hk)
  rw [h.answers] at hmem
  rw [h.word]
  exact spent_of_none _ _ hmem

/-- A new call at the end of the counter returns no id. -/
theorem new_call_none {P : Allocators}
    (hadd : checkedAdd P.shared.word 2 = none) :
    Returned (run allocStep P [.start (), .go P.calls.length false])
      P.calls.length none := by
  have hload : (P.calls ++ [AllocPc.load])[P.calls.length]? = some .load := by
    simp
  have hp := (allocStep_go (Q := ⟨P.shared, P.calls ++ [.load]⟩) hload false).2
  rw [allocNext, loaded_none hadd] at hp
  exact hp

/-- Before that, a new call moves the counter on. -/
theorem new_call_some {P : Allocators} {next : StreamId}
    (hadd : checkedAdd P.shared.word 2 = some next) :
    (run allocStep P [.start (), .go P.calls.length false,
      .go P.calls.length false]).shared.word = next := by
  have hload : (P.calls ++ [AllocPc.load])[P.calls.length]? = some .load := by
    simp
  obtain ⟨hstep, hp⟩ :=
    allocStep_go (Q := ⟨P.shared, P.calls ++ [.load]⟩) hload false
  rw [allocNext, loaded_some hadd] at hstep hp
  obtain ⟨hstep', -⟩ := allocStep_go hp false
  rw [exchange_wins hadd (by rw [hstep]; simp)] at hstep'
  exact congrArg (fun Q : Allocators => Q.shared.word) hstep'

/-- **The end is reached**: from every state some run ends in a call that
returns no id. -/
theorem reaches_end (n : Nat) : ∀ P : Allocators,
    2 ^ 32 - P.shared.word.toNat ≤ n →
      ∃ turns k, Returned (run allocStep P turns) k none := by
  induction n with
  | zero =>
      intro P hn
      have hlt := P.shared.word.toNat_lt
      omega
  | succ n ih =>
      intro P hn
      cases hadd : checkedAdd P.shared.word 2 with
      | none => exact ⟨_, _, new_call_none hadd⟩
      | some next =>
          have hnext : next.toNat = P.shared.word.toNat + 2 :=
            toNat_checkedAdd hadd
          have hlt := next.toNat_lt
          have hword := new_call_some hadd
          obtain ⟨turns, k, hk⟩ := ih (run allocStep P [.start (),
            .go P.calls.length false, .go P.calls.length false]) (by
              rw [hword]
              omega)
          rw [← run_append] at hk
          exact ⟨_, k, hk⟩

/-! ## Every run -/

/-- **Stream ids are unique for the whole life of a session and never wrap.**
Any number of calls of `allocate` on the allocator of a role take their steps
in any order.  The ids handed out go up in the order of the successful
compare-exchanges; no two calls return one id; every id is non-zero, owned by
the role and not by its peer, and none that the allocator of the peer returns
in any run of its own.  Fewer than 2³¹ ids are handed out.  Once a call has
returned `None` the counter stays, whatever happens next, no call returns an
id any more, and every call that has not returned one returns `None` within
two of its steps. -/
theorem ids_unique (role : Role) (turns : List AllocTurn) :
    let P := allocators role turns
    (∀ id, id ∈ issued P ↔ ∃ k, Returned P k (some id)) ∧
    (issued P).Pairwise (· < ·) ∧
    (∀ j k id, Returned P j (some id) → Returned P k (some id) → j = k) ∧
    (∀ k id, Returned P k (some id) →
      id ≠ 0 ∧ role.owns id = true ∧ role.peer.owns id = false) ∧
    (∀ turns' j k id id', Returned P j (some id) →
      Returned (allocators role.peer turns') k (some id') → id ≠ id') ∧
    (issued P).length < 2 ^ 31 ∧
    (∀ n, Returned P n none → ∀ more,
      let Q := run allocStep P more
      Q.shared.word = P.shared.word ∧
      (∀ k id, Returned Q k (some id) → Returned P k (some id)) ∧
      ∀ k c c', k < Q.calls.length → (∀ id, ¬ Returned P k (some id)) →
        Returned (run allocStep Q [.go k c, .go k c']) k none) := by
  intro P
  have howns : ∀ k id, Returned P k (some id) → role.owns id = true :=
    fun k id hk => owns_of_issued (mem_issued.mpr ⟨k, hk⟩)
  refine ⟨fun id => mem_issued, ?_, fun j k id => call_unique, fun k id hk => ?_,
    fun turns' j k id id' hj hk => ?_, length_issued_lt role turns,
    fun n hn more => ?_⟩
  · show (issued (allocators role turns)).Pairwise (· < ·)
    rw [issued_eq]
    exact ids_increasing _ _
  · have hid := howns k id hk
    exact ⟨Role.owns_ne_zero hid, hid, Role.not_owns_peer hid⟩
  · rintro rfl
    have hpeer := owns_of_issued (mem_issued.mpr ⟨k, hk⟩)
    cases hpeer.symm.trans (Role.not_owns_peer (howns j id hj))
  · have hend := spent_of_returned hn
    have hspent := Spent.run hend more
    refine ⟨hspent.word, hspent.returned, fun k c c' hk hnone => ?_⟩
    have hp := List.getElem?_eq_getElem hk
    have hend' : checkedAdd (run allocStep P more).shared.word 2 = none := by
      rw [hspent.word]
      exact hend
    refine returns_none hend' hp (fun id hid => ?_) c c'
    exact hnone id (hspent.returned k id (hp.trans (congrArg some hid)))

/-- A client comes to the end of its ids and stays there. -/
theorem ids_unique_usedUp :
    ∃ turns n, Returned (allocators .client turns) n none ∧
      ∀ more, (run allocStep (allocators .client turns) more).shared.word =
        (allocators .client turns).shared.word := by
  obtain ⟨turns, n, hn⟩ := reaches_end (2 ^ 32)
    ⟨⟨(new .client).next, []⟩, []⟩ (Nat.sub_le _ _)
  obtain ⟨-, -, -, -, -, -, hend⟩ := ids_unique .client turns
  exact ⟨turns, n, hn, fun more => (hend n hn more).1⟩

/-- Both calls load one; the second is first to exchange it, and the other has
to load again. -/
example : issued (allocators .client [.start (), .start (), .go 0 false,
    .go 1 false, .go 1 false, .go 0 false, .go 0 false, .go 0 false]) =
    [1, 3] := by
  decide +kernel

end StreamIdAllocator

end NetMux
