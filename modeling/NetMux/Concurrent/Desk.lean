import Mathlib.Data.Multiset.Count
import Mathlib.Data.Multiset.Filter
import Mathlib.Data.Multiset.UnionInter
import Mathlib.Logic.Relation
import NetMux.Concurrent.Node

/-!
# What a node knows of ids

A `Desk` is what is left of a node when only the things are kept that stream
ids pass through: the allocator, the calls of `open()` and `accept()`, the
registry, the ids of the streams and which of them are acknowledged, the frame
in the reader's hand, the accept queue and the histories.  `DeskStep` lists
everything that can happen to a desk.

`Desk.Ledger` is the account of one side, whatever its peer sends.  An id of
its own is in the hands of one call of `open()` before its stream exists, and
there is never more than one stream of it; each stream has at most one `SYN`.
For an id of the peer there are no more streams than the peer's `SYN`s; each
stream is taken off the accept queue at most once and acknowledged at most
once; and a stream of its own is acknowledged only if an `ACK` has arrived.
-/

namespace NetMux

open Lib Lib.Run

/-! ## Frames that open and acknowledge -/

namespace Frame

/-- A `Data` frame with the SYN flag on this stream. -/
def opens (i : StreamId) : Frame → Bool
  | .data id flags _ => id == i && flags.contains Flags.syn
  | _ => false

/-- A `Data` frame with the ACK flag on this stream. -/
def acks (i : StreamId) : Frame → Bool
  | .data id flags _ => id == i && flags.contains Flags.ack
  | _ => false

/-- A frame that neither opens nor acknowledges a stream. -/
def quiet : Frame → Bool
  | .data _ flags _ => !flags.contains Flags.syn && !flags.contains Flags.ack
  | _ => true

variable {f : Frame} {i j : StreamId}

theorem opens_quiet (h : f.quiet = true) : f.opens i = false := by
  cases f with
  | data id flags payload => simp_all [quiet, opens]
  | _ => rfl

theorem acks_quiet (h : f.quiet = true) : f.acks i = false := by
  cases f with
  | data id flags payload => simp_all [quiet, acks]
  | _ => rfl

@[simp] theorem opens_syn : (syn j).opens i = (j == i) := by
  have hflag : Flags.syn.contains Flags.syn = true := by decide
  simp [opens, syn, hflag]

@[simp] theorem acks_syn : (syn j).acks i = false := by
  have hflag : Flags.syn.contains Flags.ack = false := by decide
  simp [acks, syn, hflag]

@[simp] theorem opens_ack : (ack j).opens i = false := by
  have hflag : Flags.ack.contains Flags.syn = false := by decide
  simp [opens, ack, hflag]

@[simp] theorem acks_ack : (ack j).acks i = (j == i) := by
  have hflag : Flags.ack.contains Flags.ack = true := by decide
  simp [acks, ack, hflag]

end Frame

/-! ## What the tasks have in hand -/

namespace OpenPc

/-- The call has got this id and has yet to register a stream. -/
def inserts (i : StreamId) : OpenPc → Bool
  | .insert id => id == i
  | _ => false

/-- The call has yet to enqueue the `SYN` of this id. -/
def sends (i : StreamId) : OpenPc → Bool
  | .send id _ => id == i
  | _ => false

/-- The stream of the call. -/
def ref? : OpenPc → Option Ref
  | .send _ n => some n
  | .wait _ n => some n
  | .remove _ n _ => some n
  | .done (.ok n) => some n
  | _ => none

/-- The stream that the call has returned. -/
def opened? : OpenPc → Option Ref
  | .done (.ok n) => some n
  | _ => none

/-- The call has neither an id without a stream, nor a `SYN` to send, nor
returned a stream. -/
def idles : OpenPc → Bool
  | .insert _ => false
  | .send _ _ => false
  | .done (.ok _) => false
  | _ => true

end OpenPc

namespace SynPc

/-- The `SYN` of this id has yet to become a stream. -/
def awaits (i : StreamId) : SynPc → Bool
  | .goneCheck id => id == i
  | .limitCheck id => id == i
  | .insert id => id == i
  | _ => false

/-- The stream on its way to the accept queue. -/
def offers : SynPc → List Ref
  | .offer _ n => [n]
  | _ => []

end SynPc

namespace AcceptPc

/-- The stream that the call has taken off the accept queue. -/
def ref? : AcceptPc → Option Ref
  | .send n => some n
  | .done (.ok n) => some n
  | _ => none

/-- The stream that the call has returned. -/
def accepted? : AcceptPc → Option Ref
  | .done (.ok n) => some n
  | _ => none

end AcceptPc

/-! ## Counting -/

theorem countP_cons_toNat {α : Type} (p : α → Bool) (a : α) (s : Multiset α) :
    (a ::ₘ s).countP (fun x => p x = true) =
      s.countP (fun x => p x = true) + (p a).toNat := by
  rw [Multiset.countP_cons]
  cases p a <;> rfl

/-- How many frames open this stream. -/
def opening (i : StreamId) (F : Multiset Frame) : Nat :=
  F.countP fun f => f.opens i = true

/-- How many frames acknowledge this stream. -/
def acking (i : StreamId) (F : Multiset Frame) : Nat :=
  F.countP fun f => f.acks i = true

/-- How many calls have got this id and no stream. -/
def inserting (i : StreamId) (A : Multiset OpenPc) : Nat :=
  A.countP fun pc => pc.inserts i = true

/-- How many calls have yet to enqueue the `SYN` of this id. -/
def sending (i : StreamId) (A : Multiset OpenPc) : Nat :=
  A.countP fun pc => pc.sends i = true

theorem opening_cons (i : StreamId) (f : Frame) (F : Multiset Frame) :
    opening i (f ::ₘ F) = opening i F + (f.opens i).toNat :=
  countP_cons_toNat _ f F

theorem acking_cons (i : StreamId) (f : Frame) (F : Multiset Frame) :
    acking i (f ::ₘ F) = acking i F + (f.acks i).toNat :=
  countP_cons_toNat _ f F

theorem inserting_cons (i : StreamId) (pc : OpenPc) (A : Multiset OpenPc) :
    inserting i (pc ::ₘ A) = inserting i A + (pc.inserts i).toNat :=
  countP_cons_toNat _ pc A

theorem sending_cons (i : StreamId) (pc : OpenPc) (A : Multiset OpenPc) :
    sending i (pc ::ₘ A) = sending i A + (pc.sends i).toNat :=
  countP_cons_toNat _ pc A

theorem count_concat (l : List StreamId) (i j : StreamId) :
    (l ++ [i]).count j = l.count j + (i == j).toNat := by
  rw [List.count_append, List.count_singleton]
  cases i == j <;> rfl

/-- Quiet frames do not count. -/
theorem opening_add_quiet (i : StreamId) (F : Multiset Frame)
    {G : Multiset Frame} (h : ∀ f ∈ G, f.quiet = true) :
    opening i (F + G) = opening i F := by
  have hzero : opening i G = 0 := Multiset.countP_eq_zero.mpr fun f hf => by
    rw [Frame.opens_quiet (h f hf)]
    exact nofun
  rw [opening, Multiset.countP_add]
  exact congrArg (opening i F + ·) hzero

theorem acking_add_quiet (i : StreamId) (F : Multiset Frame)
    {G : Multiset Frame} (h : ∀ f ∈ G, f.quiet = true) :
    acking i (F + G) = acking i F := by
  have hzero : acking i G = 0 := Multiset.countP_eq_zero.mpr fun f hf => by
    rw [Frame.acks_quiet (h f hf)]
    exact nofun
  rw [acking, Multiset.countP_add]
  exact congrArg (acking i F + ·) hzero

/-! ## Desks -/

@[ext]
structure Desk where
  next : StreamId
  registry : StreamRegistry
  /-- The ids of the streams. -/
  ids : List StreamId
  /-- The acknowledged streams. -/
  acked : Ref → Bool
  opens : Multiset OpenPc
  reader : SynPc
  hand : HandPc
  queue : List Ref
  accepts : Multiset AcceptPc
  out : Multiset Frame
  sent : Multiset Frame
  got : Multiset Frame
  taken : List Ref

/-- Everything that can happen to a desk. -/
inductive DeskStep (r : Role) : Desk → Desk → Prop where
  /-- Frames that open and acknowledge nothing, and entries that leave the
  registry. -/
  | quiet {D : Desk} (fs : Multiset Frame) (g : StreamRegistry)
      (hfs : ∀ f ∈ fs, f.quiet = true)
      (hreg : ∀ i n, g.get i = some n → D.registry.get i = some n) :
      DeskStep r D
        { D with registry := g, out := D.out + fs, sent := D.sent + fs }
  | called {D : Desk} :
      DeskStep r D { D with opens := .closedCheck ::ₘ D.opens }
  | openOn {D : Desk} {pc pc' : OpenPc} {rest : Multiset OpenPc}
      (hpc : D.opens = pc ::ₘ rest) (hidle : pc'.idles = true)
      (href : pc'.ref? = none ∨ pc'.ref? = pc.ref?) :
      DeskStep r D { D with opens := pc' ::ₘ rest }
  | allocated {D : Desk} {next : StreamId} {rest : Multiset OpenPc}
      (hpc : D.opens = .allocate ::ₘ rest)
      (hnext : next.toNat = D.next.toNat + 2) :
      DeskStep r D { D with next := next, opens := .insert D.next ::ₘ rest }
  | inserted {D : Desk} {i : StreamId} {g : StreamRegistry}
      {rest : Multiset OpenPc} (hpc : D.opens = .insert i ::ₘ rest)
      (hnew : D.acked D.ids.length = false)
      (hins : D.registry.insert i D.ids.length = .ok g) :
      DeskStep r D
        { D with
          registry := g
          ids := D.ids ++ [i]
          opens := .send i D.ids.length ::ₘ rest }
  | refused {D : Desk} {i : StreamId} {e : Error} {rest : Multiset OpenPc}
      (hpc : D.opens = .insert i ::ₘ rest)
      (hins : D.registry.insert i D.ids.length = .error e) :
      DeskStep r D
        { D with ids := D.ids ++ [i], opens := .done (.error e) ::ₘ rest }
  | synSent {D : Desk} {i : StreamId} {n : Ref} {rest : Multiset OpenPc}
      (hpc : D.opens = .send i n ::ₘ rest) :
      DeskStep r D
        { D with
          out := .syn i ::ₘ D.out
          sent := .syn i ::ₘ D.sent
          opens := .wait i n ::ₘ rest }
  | opened {D : Desk} {i : StreamId} {n : Ref} {rest : Multiset OpenPc}
      (hpc : D.opens = .wait i n ::ₘ rest) (hack : D.acked n = true) :
      DeskStep r D { D with opens := .done (.ok n) ::ₘ rest }
  | cancelled {D : Desk} {pc : OpenPc} {rest : Multiset OpenPc}
      (hpc : D.opens = pc ::ₘ rest) : DeskStep r D { D with opens := rest }
  | gotSyn {D : Desk} {i : StreamId} {flags : Flags} (payload : Bytes)
      (hsyn : flags.contains Flags.syn = true) (hown : r.peer.owns i = true) :
      DeskStep r D
        { D with
          got := .data i flags payload ::ₘ D.got
          reader := .goneCheck i
          hand := .syn flags payload }
  | gotData {D : Desk} (i : StreamId) (flags : Flags) (payload : Bytes) :
      DeskStep r D
        { D with
          got := .data i flags payload ::ₘ D.got
          hand := .lookup i flags payload }
  | gotOther {D : Desk} (f : Frame) : DeskStep r D { D with got := f ::ₘ D.got }
  | synOn {D : Desk} {pc : SynPc}
      (hawaits : ∀ i, pc.awaits i = true → D.reader.awaits i = true)
      (hoffers : pc.offers = [])
      (hid : ∀ i, pc.id? = some i → D.reader.id? = some i) :
      DeskStep r D { D with reader := pc }
  | registered {D : Desk} {i : StreamId} {g : StreamRegistry}
      (hreader : D.reader = .insert i)
      (hins : D.registry.insert i D.ids.length = .ok g) :
      DeskStep r D
        { D with
          registry := g
          ids := D.ids ++ [i]
          acked := Function.update D.acked D.ids.length true
          reader := .offer i D.ids.length }
  | offered {D : Desk} {i : StreamId} {n : Ref} {flags : Flags}
      {payload : Bytes} (hhand : D.hand = .syn flags payload)
      (hreader : D.reader = .offer i n) :
      DeskStep r D
        { D with
          queue := D.queue ++ [n]
          reader := .idle
          hand := .lookup i flags payload }
  | found {D : Desk} {i : StreamId} {n : Ref} {flags : Flags} {payload : Bytes}
      (hhand : D.hand = .lookup i flags payload)
      (hget : D.registry.get i = some n) :
      DeskStep r D { D with hand := .mark n flags payload }
  | marked {D : Desk} {n : Ref} {flags : Flags} {payload : Bytes}
      (hhand : D.hand = .mark n flags payload)
      (hack : flags.contains Flags.ack = true) (hn : n < D.ids.length) :
      DeskStep r D { D with acked := Function.update D.acked n true }
  | handed {D : Desk} {pc : HandPc}
      (hpc : pc = .idle ∨ ∃ n flags payload, pc = .deliver n flags payload) :
      DeskStep r D { D with hand := pc }
  | acceptCalled {D : Desk} :
      DeskStep r D { D with accepts := .closedCheck ::ₘ D.accepts }
  | acceptOn {D : Desk} {pc pc' : AcceptPc} {rest : Multiset AcceptPc}
      (hpc : D.accepts = pc ::ₘ rest) (hnone : pc.accepted? = none)
      (href : pc'.ref? = none) :
      DeskStep r D { D with accepts := pc' ::ₘ rest }
  | dequeued {D : Desk} {pc : AcceptPc} {n : Ref} {left : List Ref}
      {rest : Multiset AcceptPc} (hpc : D.accepts = pc ::ₘ rest)
      (hnone : pc.ref? = none) (hqueue : D.queue = n :: left) :
      DeskStep r D
        { D with
          queue := left
          taken := D.taken ++ [n]
          accepts := .send n ::ₘ rest }
  | ackSent {D : Desk} {n : Ref} {i : StreamId} {rest : Multiset AcceptPc}
      (hpc : D.accepts = .send n ::ₘ rest) (hi : D.ids[n]? = some i) :
      DeskStep r D
        { D with
          out := .ack i ::ₘ D.out
          sent := .ack i ::ₘ D.sent
          accepts := .done (.ok n) ::ₘ rest }

namespace Desk

/-- The calls of `open()` about to register this id, and its streams. -/
def claims (D : Desk) (i : StreamId) : Nat :=
  inserting i D.opens + D.ids.count i

/-- The streams taken off the accept queue, those in it, and the one on its
way. -/
def line (D : Desk) : List Ref := D.taken ++ D.queue ++ D.reader.offers

/-- An `ACK` of this id has arrived. -/
def Confirmed (D : Desk) (i : StreamId) : Prop :=
  ∃ f ∈ D.got, f.acks i = true

/-- When the frame in hand has the ACK flag, it is an `ACK` that has
arrived. -/
def Vouches (D : Desk) : HandPc → Prop
  | .syn flags _ => flags.contains Flags.ack = true →
      ∀ i, D.reader.id? = some i → D.Confirmed i
  | .lookup i flags _ => flags.contains Flags.ack = true → D.Confirmed i
  | .mark n flags _ => ∃ i, D.ids[n]? = some i ∧
      (flags.contains Flags.ack = true → D.Confirmed i)
  | _ => True

/-- The account of the ids that a side allocates itself. -/
structure Own (r : Role) (D : Desk) : Prop where
  next : r.owns D.next = true
  inserts : ∀ i, 0 < inserting i D.opens → r.owns i = true
  fresh : ∀ i, r.owns i = true → D.next.toNat ≤ i.toNat → D.claims i = 0
  once : ∀ i, r.owns i = true → D.claims i ≤ 1
  syns : ∀ i, r.owns i = true →
    opening i D.sent + sending i D.opens ≤ D.ids.count i
  refs : (D.opens.filterMap OpenPc.ref?).Nodup
  ref : ∀ n ∈ D.opens.filterMap OpenPc.ref?,
    ∃ i, D.ids[n]? = some i ∧ r.owns i = true
  opened : ∀ n ∈ D.opens.filterMap OpenPc.opened?, D.acked n = true
  confirmed : ∀ n i, D.ids[n]? = some i → r.owns i = true →
    D.acked n = true → D.Confirmed i

/-- The account of the ids that the peer allocates. -/
structure Foreign (r : Role) (D : Desk) : Prop where
  reader : ∀ i, D.reader.id? = some i → r.peer.owns i = true
  streams : ∀ i, r.peer.owns i = true →
    (D.reader.awaits i).toNat + D.ids.count i ≤ opening i D.got
  line : D.line.Nodup
  ref : ∀ n ∈ D.line, ∃ i, D.ids[n]? = some i ∧ r.peer.owns i = true
  refs : (D.accepts.filterMap AcceptPc.ref?).Nodup
  taken : ∀ n ∈ D.accepts.filterMap AcceptPc.ref?, n ∈ D.taken
  acks : ∀ i, acking i D.sent =
    (D.accepts.filterMap AcceptPc.accepted?).countP fun n => D.ids[n]? = some i

structure Ledger (r : Role) (D : Desk) : Prop where
  indexed : ∀ i n, D.registry.get i = some n → D.ids[n]? = some i
  own : D.Own r
  foreign : D.Foreign r
  hand : D.Vouches D.hand
  /-- Only the `SYN`s of `open()` and the `ACK`s of `accept()` open and
  acknowledge streams. -/
  frames : ∀ f ∈ D.sent,
    f.quiet = true ∨ (∃ i, f = .syn i) ∨ ∃ i, f = .ack i

variable {r : Role} {D D' : Desk}

/-! ## The account of the own ids -/

theorem Confirmed.mono {i : StreamId} (h : D.Confirmed i)
    (hgot : D.got ≤ D'.got) : D'.Confirmed i := by
  obtain ⟨f, hf, hacks⟩ := h
  exact ⟨f, Multiset.mem_of_le hgot hf, hacks⟩

/-- Nothing that concerns the own ids happens. -/
theorem Own.other (h : D.Own r) (hnext : D'.next = D.next)
    (hids : D'.ids = D.ids) (hopens : D'.opens = D.opens)
    (hacked : D'.acked = D.acked)
    (hsent : ∀ i, opening i D'.sent = opening i D.sent)
    (hgot : D.got ≤ D'.got) : D'.Own r := by
  have hclaims : ∀ i, D'.claims i = D.claims i := by
    intro i
    rw [claims, claims, hopens, hids]
  exact
    { next := by rw [hnext]; exact h.next
      inserts := by rw [hopens]; exact h.inserts
      fresh := by
        intro i hown hle
        rw [hnext] at hle
        rw [hclaims, h.fresh i hown hle]
      once := by
        intro i hown
        rw [hclaims]
        exact h.once i hown
      syns := by
        intro i hown
        rw [hsent, hopens, hids]
        exact h.syns i hown
      refs := by rw [hopens]; exact h.refs
      ref := by rw [hopens, hids]; exact h.ref
      opened := by rw [hopens, hacked]; exact h.opened
      confirmed := by
        rw [hids, hacked]
        exact fun n i hi hown hack => (h.confirmed n i hi hown hack).mono hgot }

/-- The calls of `open()` have no more in hand than before. -/
structure Weaker (A B : Multiset OpenPc) : Prop where
  inserts : ∀ i, inserting i A ≤ inserting i B
  sends : ∀ i, sending i A ≤ sending i B
  refs : A.filterMap OpenPc.ref? ≤ B.filterMap OpenPc.ref?
  opened : A.filterMap OpenPc.opened? ≤ B.filterMap OpenPc.opened?

theorem Weaker.of_le {A B : Multiset OpenPc} (h : A ≤ B) : Weaker A B :=
  ⟨fun _ => Multiset.countP_le_of_le _ h, fun _ => Multiset.countP_le_of_le _ h,
    Multiset.filterMap_le_filterMap _ h, Multiset.filterMap_le_filterMap _ h⟩

/-- A call moves on without taking anything in hand. -/
theorem weaker_idles {pc pc' : OpenPc} (rest : Multiset OpenPc)
    (hidle : pc'.idles = true) (href : pc'.ref? = none ∨ pc'.ref? = pc.ref?) :
    Weaker (pc' ::ₘ rest) (pc ::ₘ rest) := by
  have hle := Weaker.of_le (Multiset.le_cons_self rest pc)
  have hinserts : ∀ i, pc'.inserts i = false := by
    intro i
    cases pc' <;> first | rfl | cases hidle
  have hsends : ∀ i, pc'.sends i = false := by
    intro i
    cases pc' <;> first | rfl | cases hidle
  have hopened : pc'.opened? = none := by
    cases pc' with
    | done result => cases result <;> first | rfl | cases hidle
    | _ => rfl
  refine ⟨fun i => ?_, fun i => ?_, ?_, ?_⟩
  · rw [inserting_cons, hinserts]
    exact hle.inserts i
  · rw [sending_cons, hsends]
    exact hle.sends i
  · rcases href with hnone | hsame
    · rw [Multiset.filterMap_cons_none _ _ hnone]
      exact hle.refs
    · rw [Multiset.filterMap_cons, Multiset.filterMap_cons, hsame]
  · rw [Multiset.filterMap_cons_none _ _ hopened]
    exact hle.opened

theorem Own.weaker (h : D.Own r) {A : Multiset OpenPc}
    (hA : Weaker A D.opens) : Own r { D with opens := A } := by
  have hclaims : ∀ i, claims { D with opens := A } i ≤ D.claims i :=
    fun i => Nat.add_le_add_right (hA.inserts i) _
  exact
    { next := h.next
      inserts := fun i hi => h.inserts i (hi.trans_le (hA.inserts i))
      fresh := fun i hown hle =>
        Nat.le_zero.mp ((hclaims i).trans (h.fresh i hown hle).le)
      once := fun i hown => (hclaims i).trans (h.once i hown)
      syns := fun i hown =>
        (Nat.add_le_add_left (hA.sends i) _).trans (h.syns i hown)
      refs := Multiset.nodup_of_le hA.refs h.refs
      ref := fun n hn => h.ref n (Multiset.mem_of_le hA.refs hn)
      opened := fun n hn => h.opened n (Multiset.mem_of_le hA.opened hn)
      confirmed := h.confirmed }

/-- A call gets the next id. -/
theorem Own.allocated (h : D.Own r) {next : StreamId} {rest : Multiset OpenPc}
    (hpc : D.opens = .allocate ::ₘ rest)
    (hnext : next.toNat = D.next.toNat + 2) :
    Own r { D with next := next, opens := .insert D.next ::ₘ rest } := by
  have hold := h.weaker (A := rest) (.of_le (hpc ▸ Multiset.le_cons_self ..))
  have hclaims : ∀ i,
      claims { D with next := next, opens := .insert D.next ::ₘ rest } i =
        D.claims i + (D.next == i).toNat := by
    intro i
    simp only [claims, hpc, inserting_cons, OpenPc.inserts, Bool.toNat_false]
    omega
  exact
    { next := Role.owns_add_two h.next hnext
      inserts := by
        intro i hi
        by_cases heq : D.next = i
        · exact heq ▸ h.next
        · refine hold.inserts i ?_
          simpa [inserting_cons, OpenPc.inserts, beq_eq_false_iff_ne.mpr heq]
            using hi
      fresh := by
        intro i hown hle
        have hlt : D.next.toNat < i.toNat := by
          have hle' : next.toNat ≤ i.toNat := hle
          omega
        have hne : (D.next == i) = false := by
          rw [beq_eq_false_iff_ne]
          rintro heq
          rw [heq] at hlt
          exact lt_irrefl _ hlt
        rw [hclaims, hne, h.fresh i hown hlt.le]
        rfl
      once := by
        intro i hown
        rw [hclaims]
        by_cases heq : D.next = i
        · rw [h.fresh i hown (heq ▸ le_rfl), Nat.zero_add]
          exact Bool.toNat_le _
        · rw [beq_eq_false_iff_ne.mpr heq]
          exact h.once i hown
      syns := by
        intro i hown
        simpa [sending_cons, OpenPc.sends] using hold.syns i hown
      refs := by
        rw [Multiset.filterMap_cons_none _ _ rfl]
        exact hold.refs
      ref := by
        rw [Multiset.filterMap_cons_none _ _ rfl]
        exact hold.ref
      opened := by
        rw [Multiset.filterMap_cons_none _ _ rfl]
        exact hold.opened
      confirmed := h.confirmed }

/-- A stream keeps its place. -/
theorem getElem?_concat {l : List StreamId} {n : Ref} {i : StreamId}
    (h : l[n]? = some i) (j : StreamId) : (l ++ [j])[n]? = some i := by
  rw [List.getElem?_append_left (List.getElem?_eq_some_iff.mp h).1]
  exact h

/-- A call registers its stream. -/
theorem Own.inserted (h : D.Own r) {i : StreamId} {rest : Multiset OpenPc}
    (g : StreamRegistry) (hpc : D.opens = .insert i ::ₘ rest)
    (hnew : D.acked D.ids.length = false) :
    Own r { D with
      registry := g
      ids := D.ids ++ [i]
      opens := .send i D.ids.length ::ₘ rest } := by
  have hold := h.weaker (A := rest) (.of_le (hpc ▸ Multiset.le_cons_self ..))
  have hown : r.owns i = true := by
    refine h.inserts i ?_
    simp [hpc, inserting_cons, OpenPc.inserts]
  have hclaims : ∀ j, claims { D with
      registry := g
      ids := D.ids ++ [i]
      opens := .send i D.ids.length ::ₘ rest } j = D.claims j := by
    intro j
    simp only [claims, hpc, inserting_cons, count_concat, OpenPc.inserts,
      Bool.toNat_false]
    omega
  exact
    { next := h.next
      inserts := by
        intro j hj
        refine hold.inserts j ?_
        simpa [inserting_cons, OpenPc.inserts] using hj
      fresh := fun j hj hle => (hclaims j).trans (h.fresh j hj hle)
      once := fun j hj => (hclaims j).trans_le (h.once j hj)
      syns := by
        intro j hj
        have hsyns : opening j D.sent + sending j rest ≤ D.ids.count j :=
          hold.syns j hj
        simp only [sending_cons, count_concat, OpenPc.sends]
        omega
      refs := by
        rw [Multiset.filterMap_cons_some OpenPc.ref? _ _ rfl,
          Multiset.nodup_cons]
        refine ⟨fun hmem => ?_, hold.refs⟩
        obtain ⟨j, hj, -⟩ := hold.ref _ hmem
        exact lt_irrefl _ (List.getElem?_eq_some_iff.mp hj).1
      ref := by
        rw [Multiset.filterMap_cons_some OpenPc.ref? _ _ rfl]
        intro n hn
        rcases Multiset.mem_cons.mp hn with rfl | hn
        · exact ⟨i, List.getElem?_concat_length, hown⟩
        · obtain ⟨j, hj, hj'⟩ := hold.ref n hn
          exact ⟨j, getElem?_concat hj i, hj'⟩
      opened := by
        rw [Multiset.filterMap_cons_none _ _ rfl]
        exact hold.opened
      confirmed := by
        intro n j hj hj' hack
        rcases Keyed.getElem?_append_cases hj with hj | ⟨rfl, rfl⟩
        · exact h.confirmed n j hj hj' hack
        · rw [hnew] at hack
          cases hack }

/-- What is acknowledged stays so. -/
theorem update_true {acked : Ref → Bool} {n : Ref} (m : Ref)
    (h : acked n = true) : Function.update acked m true n = true := by
  rw [Function.update_apply, h, ite_self]

/-- The reader registers a stream of the peer. -/
theorem Own.registered (h : D.Own r) {i : StreamId} (g : StreamRegistry)
    (pc : SynPc) (hown : r.owns i = false) :
    Own r { D with
      registry := g
      ids := D.ids ++ [i]
      acked := Function.update D.acked D.ids.length true
      reader := pc } := by
  have hne : ∀ {j}, r.owns j = true → (i == j) = false := by
    intro j hj
    rw [beq_eq_false_iff_ne]
    rintro rfl
    rw [hown] at hj
    cases hj
  have hcount : ∀ j, r.owns j = true →
      (D.ids ++ [i]).count j = D.ids.count j := by
    intro j hj
    rw [count_concat, hne hj]
    rfl
  exact
    { next := h.next
      inserts := h.inserts
      fresh := fun j hj hle =>
        (congrArg (inserting j D.opens + ·) (hcount j hj)).trans
          (h.fresh j hj hle)
      once := fun j hj =>
        (congrArg (inserting j D.opens + ·) (hcount j hj)).trans_le
          (h.once j hj)
      syns := fun j hj => (h.syns j hj).trans (hcount j hj).ge
      refs := h.refs
      ref := fun n hn => by
        obtain ⟨j, hj, hj'⟩ := h.ref n hn
        exact ⟨j, getElem?_concat hj i, hj'⟩
      opened := fun n hn => update_true _ (h.opened n hn)
      confirmed := by
        intro n j hj hj' hack
        rcases Keyed.getElem?_append_cases hj with hj | ⟨rfl, rfl⟩
        · have hlt := (List.getElem?_eq_some_iff.mp hj).1
          refine h.confirmed n j hj hj' ?_
          simpa [Function.update_of_ne hlt.ne] using hack
        · rw [hown] at hj'
          cases hj' }

/-- A stream is acknowledged. -/
theorem Own.marked (h : D.Own r) {n : Ref} {i : StreamId}
    (hi : D.ids[n]? = some i) (hconf : D.Confirmed i) :
    Own r { D with acked := Function.update D.acked n true } :=
  { h with
    opened := fun m hm => update_true _ (h.opened m hm)
    confirmed := by
      intro m j hj hj' hack
      by_cases hm : m = n
      · subst hm
        rw [hi] at hj
        cases hj
        exact hconf
      · refine h.confirmed m j hj hj' ?_
        simpa [Function.update_of_ne hm] using hack }

/-- A call enqueues its `SYN`. -/
theorem Own.synSent (h : D.Own r) {i : StreamId} {n : Ref}
    {rest : Multiset OpenPc} (hpc : D.opens = .send i n ::ₘ rest)
    (out : Multiset Frame) :
    Own r { D with
      out := out
      sent := .syn i ::ₘ D.sent
      opens := .wait i n ::ₘ rest } :=
  { h.weaker (A := .wait i n ::ₘ rest) (hpc ▸ weaker_idles rest rfl (.inr rfl))
    with
    syns := by
      intro j hj
      have hsyns := h.syns j hj
      rw [hpc, sending_cons] at hsyns
      simp only [opening_cons, sending_cons, Frame.opens_syn, OpenPc.sends,
        Bool.toNat_false] at hsyns ⊢
      omega }

/-- A call returns its stream. -/
theorem Own.done (h : D.Own r) {i : StreamId} {n : Ref}
    {rest : Multiset OpenPc} (hpc : D.opens = .wait i n ::ₘ rest)
    (hack : D.acked n = true) :
    Own r { D with opens := .done (.ok n) ::ₘ rest } := by
  have hold := h.weaker (A := rest) (.of_le (hpc ▸ Multiset.le_cons_self ..))
  have hrefs : (OpenPc.done (.ok n) ::ₘ rest).filterMap OpenPc.ref? =
      D.opens.filterMap OpenPc.ref? := by
    rw [hpc, Multiset.filterMap_cons_some OpenPc.ref? _ _ rfl,
      Multiset.filterMap_cons_some OpenPc.ref? _ _ rfl]
  have hinserts : ∀ j, inserting j (OpenPc.done (.ok n) ::ₘ rest) =
      inserting j rest := fun j => inserting_cons ..
  have hsends : ∀ j, sending j (OpenPc.done (.ok n) ::ₘ rest) =
      sending j rest := fun j => sending_cons ..
  exact
    { next := h.next
      inserts := fun j hj => hold.inserts j ((hinserts j) ▸ hj)
      fresh := fun j hj hle =>
        (congrArg (· + D.ids.count j) (hinserts j)).trans (hold.fresh j hj hle)
      once := fun j hj =>
        (congrArg (· + D.ids.count j) (hinserts j)).trans_le (hold.once j hj)
      syns := fun j hj =>
        (congrArg (opening j D.sent + ·) (hsends j)).trans_le (hold.syns j hj)
      refs := by
        rw [hrefs]
        exact h.refs
      ref := by
        rw [hrefs]
        exact h.ref
      opened := by
        rw [Multiset.filterMap_cons_some OpenPc.opened? _ _ rfl]
        intro m hm
        rcases Multiset.mem_cons.mp hm with rfl | hm
        · exact hack
        · exact hold.opened m hm
      confirmed := h.confirmed }

/-- No id of the own side is refused by the registry. -/
theorem Ledger.insert_free (h : D.Ledger r) {i : StreamId}
    (hi : 0 < inserting i D.opens) : D.registry.get i = none := by
  by_contra hget
  obtain ⟨n, hn⟩ := Option.ne_none_iff_exists'.mp hget
  have hmem : 0 < D.ids.count i :=
    List.count_pos_iff.mpr (List.mem_of_getElem? (h.indexed i n hn))
  have honce := h.own.once i (h.own.inserts i hi)
  rw [claims] at honce
  omega

theorem Own.step (h : D.Ledger r) (hs : DeskStep r D D') : D'.Own r := by
  have ho := h.own
  cases hs with
  | quiet fs g hfs hreg =>
      exact ho.other rfl rfl rfl rfl (fun i => opening_add_quiet i _ hfs) le_rfl
  | called =>
      refine ho.weaker ⟨fun i => ?_, fun i => ?_, ?_, ?_⟩
      · exact (inserting_cons ..).le
      · exact (sending_cons ..).le
      · exact (Multiset.filterMap_cons_none _ _ rfl).le
      · exact (Multiset.filterMap_cons_none _ _ rfl).le
  | openOn hpc hidle href => exact ho.weaker (hpc ▸ weaker_idles _ hidle href)
  | allocated hpc hnext => exact ho.allocated hpc hnext
  | inserted hpc hnew hins => exact ho.inserted _ hpc hnew
  | @refused i e rest hpc hins =>
      have hfree := h.insert_free (i := i)
        (by simp [hpc, inserting_cons, OpenPc.inserts])
      exact absurd hfree (StreamRegistry.insert_error hins)
  | synSent hpc => exact ho.synSent hpc _
  | opened hpc hack => exact ho.done hpc hack
  | cancelled hpc =>
      exact ho.weaker (.of_le (hpc ▸ Multiset.le_cons_self ..))
  | gotSyn payload hsyn hown =>
      exact ho.other rfl rfl rfl rfl (fun _ => rfl) (Multiset.le_cons_self ..)
  | gotData i flags payload =>
      exact ho.other rfl rfl rfl rfl (fun _ => rfl) (Multiset.le_cons_self ..)
  | gotOther f =>
      exact ho.other rfl rfl rfl rfl (fun _ => rfl) (Multiset.le_cons_self ..)
  | registered hreader hins =>
      refine ho.registered _ _ (Role.not_owns_of_peer (h.foreign.reader _ ?_))
      rw [hreader]
      rfl
  | marked hhand hack hn =>
      have hvouch := h.hand
      rw [hhand] at hvouch
      obtain ⟨i, hi, hconf⟩ := hvouch
      exact ho.marked hi (hconf hack)
  | ackSent hpc hi =>
      refine ho.other rfl rfl rfl rfl (fun j => ?_) le_rfl
      rw [opening_cons, Frame.opens_ack]
      rfl
  | _ => exact ho.other rfl rfl rfl rfl (fun _ => rfl) le_rfl

/-! ## The account of the peer's ids -/

/-- What a call has returned it has taken off the queue. -/
theorem Foreign.accepted (h : D.Foreign r) {n : Ref}
    (hn : n ∈ D.accepts.filterMap AcceptPc.accepted?) :
    ∃ i, D.ids[n]? = some i ∧ r.peer.owns i = true := by
  obtain ⟨pc, hpc, hacc⟩ := (Multiset.mem_filterMap _ _).mp hn
  have href : pc.ref? = some n := by
    cases pc with
    | done result => cases result <;> exact hacc
    | _ => cases hacc
  have htaken := h.taken n ((Multiset.mem_filterMap _ _).mpr ⟨pc, hpc, href⟩)
  exact h.ref n (List.mem_append_left _ (List.mem_append_left _ htaken))

/-- Nothing that concerns the peer's ids happens. -/
theorem Foreign.other (h : D.Foreign r) (hreader : D'.reader = D.reader)
    (hids : D'.ids = D.ids) (htaken : D'.taken = D.taken)
    (hqueue : D'.queue = D.queue) (haccepts : D'.accepts = D.accepts)
    (hsent : ∀ i, acking i D'.sent = acking i D.sent)
    (hgot : D.got ≤ D'.got) : D'.Foreign r := by
  have hline : D'.line = D.line := by
    rw [Desk.line, Desk.line, htaken, hqueue, hreader]
  exact
    { reader := by rw [hreader]; exact h.reader
      streams := by
        intro i hown
        rw [hreader, hids]
        exact (h.streams i hown).trans (Multiset.countP_le_of_le _ hgot)
      line := by rw [hline]; exact h.line
      ref := by rw [hline, hids]; exact h.ref
      refs := by rw [haccepts]; exact h.refs
      taken := by rw [haccepts, htaken]; exact h.taken
      acks := by
        intro i
        rw [hsent, haccepts, hids]
        exact h.acks i }

/-- A stream is made, and the acknowledgements are those of before. -/
theorem Foreign.acks_concat (h : D.Foreign r) (i j : StreamId) :
    acking j D.sent = (D.accepts.filterMap AcceptPc.accepted?).countP
      fun n => (D.ids ++ [i])[n]? = some j := by
  rw [h.acks j]
  refine Multiset.countP_congr rfl fun n hn => ?_
  obtain ⟨k, hk, -⟩ := h.accepted hn
  rw [getElem?_concat hk, hk]

/-- A call registers a stream of its own. -/
theorem Foreign.inserted (h : D.Foreign r) {i : StreamId}
    (hown : r.owns i = true) (g : StreamRegistry) (opens : Multiset OpenPc) :
    Foreign r { D with registry := g, ids := D.ids ++ [i], opens := opens } :=
  { h with
    streams := by
      intro j hj
      have hne : (i == j) = false := by
        rw [beq_eq_false_iff_ne]
        rintro rfl
        rw [Role.not_owns_peer hown] at hj
        cases hj
      rw [count_concat, hne]
      exact h.streams j hj
    ref := by
      intro n hn
      obtain ⟨j, hj, hj'⟩ := h.ref n hn
      exact ⟨j, getElem?_concat hj i, hj'⟩
    acks := h.acks_concat i }

/-- The reader gets a `SYN`. -/
theorem Foreign.gotSyn (h : D.Foreign r) {i : StreamId} {flags : Flags}
    {payload : Bytes} (hsyn : flags.contains Flags.syn = true)
    (hown : r.peer.owns i = true) :
    Foreign r { D with
      got := .data i flags payload ::ₘ D.got
      reader := .goneCheck i
      hand := .syn flags payload } := by
  have hsub : List.Sublist (D.taken ++ D.queue ++ []) D.line :=
    List.Sublist.append_left (List.nil_sublist _) _
  exact
    { h with
      reader := by
        intro j hj
        obtain rfl := Option.some.inj hj
        exact hown
      streams := by
        intro j hj
        have hold := h.streams j hj
        simp only [opening_cons, Frame.opens, hsyn, Bool.and_true,
          SynPc.awaits]
        omega
      line := hsub.nodup h.line
      ref := fun n hn => h.ref n (hsub.subset hn) }

/-- The reader moves on with a `SYN`. -/
theorem Foreign.synOn (h : D.Foreign r) {pc : SynPc}
    (hawaits : ∀ i, pc.awaits i = true → D.reader.awaits i = true)
    (hoffers : pc.offers = [])
    (hid : ∀ i, pc.id? = some i → D.reader.id? = some i) :
    Foreign r { D with reader := pc } := by
  have hsub : List.Sublist (D.taken ++ D.queue ++ pc.offers) D.line := by
    rw [hoffers]
    exact List.Sublist.append_left (List.nil_sublist _) _
  exact
    { h with
      reader := fun i hi => h.reader i (hid i hi)
      streams := by
        intro i hi
        have hle : (pc.awaits i).toNat ≤ (D.reader.awaits i).toNat :=
          Bool.toNat_le_toNat (hawaits i)
        exact (Nat.add_le_add_right hle _).trans (h.streams i hi)
      line := hsub.nodup h.line
      ref := fun n hn => h.ref n (hsub.subset hn) }

/-- The reader registers a stream. -/
theorem Foreign.registered (h : D.Foreign r) {i : StreamId}
    (hreader : D.reader = .insert i) (g : StreamRegistry)
    (acked : Ref → Bool) :
    Foreign r { D with
      registry := g
      ids := D.ids ++ [i]
      acked := acked
      reader := .offer i D.ids.length } := by
  have hown : r.peer.owns i = true := h.reader i (by rw [hreader]; rfl)
  have hline : D.line = D.taken ++ D.queue := by
    rw [Desk.line, hreader]
    exact List.append_nil _
  have hfresh : D.ids.length ∉ D.taken ++ D.queue := by
    intro hmem
    obtain ⟨j, hj, -⟩ := h.ref _ (hline ▸ hmem)
    exact lt_irrefl _ (List.getElem?_eq_some_iff.mp hj).1
  exact
    { h with
      reader := by
        intro j hj
        obtain rfl := Option.some.inj hj
        exact hown
      streams := by
        intro j hj
        have hold := h.streams j hj
        rw [hreader] at hold
        simp only [SynPc.awaits, count_concat, Bool.toNat_false] at hold ⊢
        omega
      line := by
        refine List.nodup_append.mpr ⟨hline ▸ h.line, List.nodup_singleton _, ?_⟩
        intro a ha b hb hab
        rw [List.mem_singleton.mp hb] at hab
        exact hfresh (hab ▸ ha)
      ref := by
        intro n hn
        rcases List.mem_append.mp hn with hn | hn
        · obtain ⟨j, hj, hj'⟩ := h.ref n (hline ▸ hn)
          exact ⟨j, getElem?_concat hj i, hj'⟩
        · rw [List.mem_singleton.mp hn]
          exact ⟨i, List.getElem?_concat_length, hown⟩
      acks := h.acks_concat i }

/-- The stream joins the accept queue; it was in the line before. -/
theorem Foreign.offered (h : D.Foreign r) {i : StreamId} {n : Ref}
    (hreader : D.reader = .offer i n) (hand : HandPc) :
    Foreign r { D with
      queue := D.queue ++ [n]
      reader := .idle
      hand := hand } := by
  have hline : D.taken ++ (D.queue ++ [n]) ++ [] = D.line := by
    rw [Desk.line, hreader, List.append_nil, List.append_assoc]
    rfl
  exact
    { h with
      reader := fun j hj => nomatch hj
      streams := by
        intro j hj
        have hold := h.streams j hj
        rw [hreader] at hold
        exact hold
      line := by
        show (D.taken ++ (D.queue ++ [n]) ++ []).Nodup
        rw [hline]
        exact h.line
      ref := by
        show ∀ m ∈ D.taken ++ (D.queue ++ [n]) ++ [], _
        rw [hline]
        exact h.ref }

/-- A call moves on without a stream. -/
theorem Foreign.acceptOn (h : D.Foreign r) {pc pc' : AcceptPc}
    {rest : Multiset AcceptPc} (hpc : D.accepts = pc ::ₘ rest)
    (hnone : pc.accepted? = none) (href : pc'.ref? = none) :
    Foreign r { D with accepts := pc' ::ₘ rest } := by
  have hle : rest.filterMap AcceptPc.ref? ≤ D.accepts.filterMap AcceptPc.ref? :=
    Multiset.filterMap_le_filterMap _ (hpc ▸ Multiset.le_cons_self ..)
  have hacc : pc'.accepted? = none := by
    cases pc' with
    | done result => cases result <;> first | rfl | cases href
    | _ => rfl
  exact
    { h with
      refs := by
        rw [Multiset.filterMap_cons_none _ _ href]
        exact Multiset.nodup_of_le hle h.refs
      taken := by
        rw [Multiset.filterMap_cons_none _ _ href]
        exact fun n hn => h.taken n (Multiset.mem_of_le hle hn)
      acks := by
        intro i
        have hold := h.acks i
        rw [hpc, Multiset.filterMap_cons_none _ _ hnone] at hold
        rw [Multiset.filterMap_cons_none _ _ hacc]
        exact hold }

/-- A call takes the head of the queue, which stays in the line. -/
theorem Foreign.dequeued (h : D.Foreign r) {pc : AcceptPc} {n : Ref}
    {left : List Ref} {rest : Multiset AcceptPc}
    (hpc : D.accepts = pc ::ₘ rest) (hnone : pc.ref? = none)
    (hqueue : D.queue = n :: left) :
    Foreign r { D with
      queue := left
      taken := D.taken ++ [n]
      accepts := .send n ::ₘ rest } := by
  have hline : D.taken ++ [n] ++ left ++ D.reader.offers = D.line := by
    rw [Desk.line, hqueue, List.append_assoc D.taken [n] left]
    rfl
  have hrefs : D.accepts.filterMap AcceptPc.ref? =
      rest.filterMap AcceptPc.ref? := by
    rw [hpc, Multiset.filterMap_cons_none _ _ hnone]
  have hacc : pc.accepted? = none := by
    cases pc with
    | done result => cases result <;> first | rfl | cases hnone
    | _ => rfl
  have hnew : n ∉ rest.filterMap AcceptPc.ref? := by
    intro hmem
    have hnodup := h.line
    rw [← hline] at hnodup
    have htaken := h.taken n (hrefs ▸ hmem)
    have hhead := (List.nodup_append.mp
      ((List.nodup_append.mp (List.nodup_append.mp hnodup).1).1)).2.2
    exact hhead n htaken n (List.mem_singleton_self n) rfl
  exact
    { h with
      line := by
        show (D.taken ++ [n] ++ left ++ D.reader.offers).Nodup
        rw [hline]
        exact h.line
      ref := by
        show ∀ m ∈ D.taken ++ [n] ++ left ++ D.reader.offers, _
        rw [hline]
        exact h.ref
      refs := by
        rw [Multiset.filterMap_cons_some AcceptPc.ref? _ _ rfl,
          Multiset.nodup_cons]
        exact ⟨hnew, hrefs ▸ h.refs⟩
      taken := by
        rw [Multiset.filterMap_cons_some AcceptPc.ref? _ _ rfl]
        intro m hm
        rcases Multiset.mem_cons.mp hm with rfl | hm
        · exact List.mem_append_right _ (List.mem_singleton_self m)
        · exact List.mem_append_left _ (h.taken m (hrefs ▸ hm))
      acks := by
        intro i
        have hold := h.acks i
        rw [hpc, Multiset.filterMap_cons_none _ _ hacc] at hold
        rw [Multiset.filterMap_cons_none _ _ rfl]
        exact hold }

/-- A call enqueues the `ACK` of its stream and returns it. -/
theorem Foreign.ackSent (h : D.Foreign r) {n : Ref} {i : StreamId}
    {rest : Multiset AcceptPc} (hpc : D.accepts = .send n ::ₘ rest)
    (hi : D.ids[n]? = some i) (out : Multiset Frame) :
    Foreign r { D with
      out := out
      sent := .ack i ::ₘ D.sent
      accepts := .done (.ok n) ::ₘ rest } := by
  have hrefs : (AcceptPc.done (.ok n) ::ₘ rest).filterMap AcceptPc.ref? =
      D.accepts.filterMap AcceptPc.ref? := by
    rw [hpc, Multiset.filterMap_cons_some AcceptPc.ref? _ _ rfl,
      Multiset.filterMap_cons_some AcceptPc.ref? _ _ rfl]
  exact
    { h with
      refs := by
        rw [hrefs]
        exact h.refs
      taken := by
        rw [hrefs]
        exact h.taken
      acks := by
        intro j
        have hold := h.acks j
        rw [hpc, Multiset.filterMap_cons_none _ _ rfl] at hold
        rw [acking_cons, Frame.acks_ack, hold,
          Multiset.filterMap_cons_some AcceptPc.accepted? _ _ rfl,
          Multiset.countP_cons]
        show _ + _ = _ + if D.ids[n]? = some j then 1 else 0
        rw [hi]
        by_cases hij : i = j <;> simp [hij] }

theorem Foreign.step (h : D.Ledger r) (hs : DeskStep r D D') :
    D'.Foreign r := by
  have hf := h.foreign
  cases hs with
  | quiet fs g hfs hreg =>
      exact hf.other rfl rfl rfl rfl rfl (fun i => acking_add_quiet i _ hfs) le_rfl
  | @inserted i g rest hpc hnew hins =>
      refine hf.inserted (h.own.inserts i ?_) _ _
      simp [hpc, inserting_cons, OpenPc.inserts]
  | @refused i e rest hpc hins =>
      have hfree := h.insert_free (i := i)
        (by simp [hpc, inserting_cons, OpenPc.inserts])
      exact absurd hfree (StreamRegistry.insert_error hins)
  | synSent hpc =>
      refine hf.other rfl rfl rfl rfl rfl (fun j => ?_) le_rfl
      rw [acking_cons, Frame.acks_syn]
      rfl
  | gotSyn payload hsyn hown => exact hf.gotSyn hsyn hown
  | gotData i flags payload =>
      exact hf.other rfl rfl rfl rfl rfl (fun _ => rfl)
        (Multiset.le_cons_self ..)
  | gotOther f =>
      exact hf.other rfl rfl rfl rfl rfl (fun _ => rfl)
        (Multiset.le_cons_self ..)
  | synOn hawaits hoffers hid => exact hf.synOn hawaits hoffers hid
  | registered hreader hins => exact hf.registered hreader _ _
  | offered hhand hreader => exact hf.offered hreader _
  | acceptCalled =>
      refine { hf with refs := ?_, taken := ?_, acks := fun i => ?_ }
      · rw [Multiset.filterMap_cons_none _ _ rfl]
        exact hf.refs
      · rw [Multiset.filterMap_cons_none _ _ rfl]
        exact hf.taken
      · rw [Multiset.filterMap_cons_none _ _ rfl]
        exact hf.acks i
  | acceptOn hpc hnone href => exact hf.acceptOn hpc hnone href
  | dequeued hpc hnone hqueue => exact hf.dequeued hpc hnone hqueue
  | ackSent hpc hi => exact hf.ackSent hpc hi _
  | _ => exact hf.other rfl rfl rfl rfl rfl (fun _ => rfl) le_rfl

/-! ## The frame in hand, the registry and the frames sent -/

theorem Vouches.mono {pc : HandPc} (h : D.Vouches pc)
    (hids : ∀ (n : Ref) i, D.ids[n]? = some i → D'.ids[n]? = some i)
    (hreader : ∀ i, D'.reader.id? = some i → D.reader.id? = some i)
    (hgot : D.got ≤ D'.got) : D'.Vouches pc := by
  cases pc with
  | syn flags payload =>
      exact fun hack i hi => (h hack i (hreader i hi)).mono hgot
  | lookup i flags payload => exact fun hack => (h hack).mono hgot
  | mark n flags payload =>
      obtain ⟨i, hi, hconf⟩ := h
      exact ⟨i, hids n i hi, fun hack => (hconf hack).mono hgot⟩
  | _ => trivial

theorem Vouches.step (h : D.Ledger r) (hs : DeskStep r D D') :
    D'.Vouches D'.hand := by
  have hh := h.hand
  have hconcat : ∀ j (n : Ref) i, D.ids[n]? = some i →
      (D.ids ++ [j])[n]? = some i :=
    fun j _ _ hi => getElem?_concat hi j
  cases hs with
  | inserted hpc hnew hins =>
      exact hh.mono (hconcat _) (fun _ hi => hi) le_rfl
  | refused hpc hins => exact hh.mono (hconcat _) (fun _ hi => hi) le_rfl
  | @gotSyn i flags payload hsyn hown =>
      intro hack j hj
      obtain rfl := Option.some.inj hj
      exact ⟨_, Multiset.mem_cons_self .., by simp [Frame.acks, hack]⟩
  | gotData i flags payload =>
      intro hack
      exact ⟨_, Multiset.mem_cons_self .., by simp [Frame.acks, hack]⟩
  | gotOther f =>
      exact hh.mono (fun _ _ hi => hi) (fun _ hi => hi)
        (Multiset.le_cons_self ..)
  | synOn hawaits hoffers hid => exact hh.mono (fun _ _ hi => hi) hid le_rfl
  | registered hreader hins =>
      refine hh.mono (hconcat _) (fun j hj => ?_) le_rfl
      rw [hreader]
      exact hj
  | offered hhand hreader =>
      intro hack
      rw [hhand] at hh
      exact (hh hack _ (by rw [hreader]; rfl)).mono le_rfl
  | found hhand hget =>
      rw [hhand] at hh
      exact ⟨_, h.indexed _ _ hget, fun hack => (hh hack).mono le_rfl⟩
  | handed hpc =>
      rcases hpc with rfl | ⟨n, flags, payload, rfl⟩ <;> trivial
  | _ => exact hh.mono (fun _ _ hi => hi) (fun _ hi => hi) le_rfl

/-- The registry after an insertion points at the right streams. -/
theorem Ledger.indexed_insert (h : D.Ledger r) {i : StreamId}
    {g : StreamRegistry} (hins : D.registry.insert i D.ids.length = .ok g) :
    ∀ j n, g.get j = some n → (D.ids ++ [i])[n]? = some j := by
  intro j n hget
  rw [(StreamRegistry.insert_ok hins).2] at hget
  split at hget
  · rename_i hj
    cases hget
    rw [hj]
    exact List.getElem?_concat_length
  · exact getElem?_concat (h.indexed j n hget) i

/-- **A step keeps the ledger.** -/
theorem Ledger.step (h : D.Ledger r) (hs : DeskStep r D D') :
    D'.Ledger r where
  own := Own.step h hs
  foreign := Foreign.step h hs
  hand := Vouches.step h hs
  indexed := by
    cases hs with
    | quiet fs g hfs hreg => exact fun i n hget => h.indexed i n (hreg i n hget)
    | inserted hpc hnew hins => exact h.indexed_insert hins
    | refused hpc hins =>
        exact fun i n hget => getElem?_concat (h.indexed i n hget) _
    | registered hreader hins => exact h.indexed_insert hins
    | _ => exact h.indexed
  frames := by
    cases hs with
    | quiet fs g hfs hreg =>
        intro f hf
        rcases Multiset.mem_add.mp hf with hf | hf
        · exact h.frames f hf
        · exact .inl (hfs f hf)
    | @synSent i n rest hpc =>
        intro f hf
        rcases Multiset.mem_cons.mp hf with rfl | hf
        · exact .inr (.inl ⟨i, rfl⟩)
        · exact h.frames f hf
    | @ackSent n i rest hpc hi =>
        intro f hf
        rcases Multiset.mem_cons.mp hf with rfl | hf
        · exact .inr (.inr ⟨i, rfl⟩)
        · exact h.frames f hf
    | _ => exact h.frames

end Desk

/-- Whatever is put into the outbound queue is recorded. -/
theorem DeskStep.enqueues {r : Role} {D D' : Desk} (hs : DeskStep r D D') :
    ∃ fs, D'.out = D.out + fs ∧ D'.sent = D.sent + fs := by
  have hcons : ∀ (f : Frame) (F : Multiset Frame), f ::ₘ F = F + {f} := by
    intro f F
    rw [Multiset.add_comm, Multiset.singleton_add]
  cases hs with
  | quiet fs g hfs hreg => exact ⟨fs, rfl, rfl⟩
  | @synSent i n rest hpc =>
      exact ⟨{.syn i}, hcons _ _, hcons _ _⟩
  | @ackSent n i rest hpc hi =>
      exact ⟨{.ack i}, hcons _ _, hcons _ _⟩
  | _ => exact ⟨0, (Multiset.add_zero _).symm, (Multiset.add_zero _).symm⟩

section Paths

variable {r : Role} {D D' : Desk}

theorem enqueues_path (h : Relation.ReflTransGen (DeskStep r) D D') :
    ∃ fs, D'.out = D.out + fs ∧ D'.sent = D.sent + fs := by
  induction h with
  | refl => exact ⟨0, (Multiset.add_zero _).symm, (Multiset.add_zero _).symm⟩
  | tail _ hstep ih =>
      obtain ⟨fs, hout, hsent⟩ := ih
      obtain ⟨gs, hout', hsent'⟩ := hstep.enqueues
      exact ⟨fs + gs, by rw [hout', hout, Multiset.add_assoc],
        by rw [hsent', hsent, Multiset.add_assoc]⟩

/-- **A path keeps the ledger.** -/
theorem Desk.Ledger.path (hD : D.Ledger r)
    (h : Relation.ReflTransGen (DeskStep r) D D') : D'.Ledger r := by
  induction h with
  | refl => exact hD
  | tail _ hstep ih => exact ih.step hstep

end Paths

end NetMux
