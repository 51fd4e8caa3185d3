import NetMux.Concurrent.Atomic

/-!
# Whom a shutdown reaches

`initiate_shutdown` sets `is_closing`, enqueues the `GoAway`, drains the
registry once, force-closes what it drained and trips the watch.  `open()` and
the reader look at `is_closing` and `peer_gone` long before they insert into
the registry, so an insertion can fall behind the drain; its stream is then
never closed.  The same goes for a `SYN` that is enqueued behind the `GoAway`,
and for a stream in the accept queue whose entry the closer took away before
the drain.

Each of these has its beginning in an earlier step.  For `open()` it is the
one that sets `is_closing`: a call that reads the flag later turns back, so
only one that has read it and not yet sent its `SYN` can be late.  The reader
does not look at the flag, so for it the drain is the dividing line.  A
shutdown that no such race begins with reaches every stream.
-/

namespace NetMux

open Lib.Run

/-! ## Halves of streams -/

namespace Session

/-- Both halves of the stream are closed. -/
def halvesClosed (s : Session) (n : Ref) : Bool :=
  match s.streams[n]? with
  | none => false
  | some c => !c.inner.state.readOpen && !c.inner.state.writeOpen

theorem halvesClosed_iff {s : Session} {n : Ref} :
    s.halvesClosed n = true ↔ ∃ c, s.streams[n]? = some c ∧
      c.inner.state.readOpen = false ∧ c.inner.state.writeOpen = false := by
  unfold halvesClosed
  cases s.streams[n]? <;> simp

/-- What a task leaves alone: streams stay where they are, and what is closed
stays closed. -/
structure Keeps (s s' : Session) : Prop where
  role : s'.role = s.role
  accept : s'.accept = s.accept
  isClosing : s'.isClosing = s.isClosing
  length : s.streams.length ≤ s'.streams.length
  closed : ∀ n, s.halvesClosed n = true → s'.halvesClosed n = true

variable {s s' : Session}

theorem halvesClosed_append (c : Cell) {n : Ref}
    (h : s.halvesClosed n = true) (hs : s'.streams = s.streams ++ [c]) :
    s'.halvesClosed n = true := by
  obtain ⟨d, hd, hclosed⟩ := halvesClosed_iff.mp h
  refine halvesClosed_iff.mpr ⟨d, ?_, hclosed⟩
  rw [hs, List.getElem?_append_left (List.getElem?_eq_some_iff.mp hd).1]
  exact hd

/-- A stream is changed, and its halves are not opened. -/
theorem halvesClosed_modify {h n : Ref} {f : Cell → Cell}
    (hs : s'.streams = s.streams.modify h f)
    (hf : ∀ c, c.inner.state.readOpen = false →
      c.inner.state.writeOpen = false →
      (f c).inner.state.readOpen = false ∧
        (f c).inner.state.writeOpen = false)
    (hn : s.halvesClosed n = true) : s'.halvesClosed n = true := by
  obtain ⟨c, hc, hread, hwrite⟩ := halvesClosed_iff.mp hn
  by_cases heq : h = n
  · refine halvesClosed_iff.mpr ⟨f c, ?_, hf c hread hwrite⟩
    rw [hs, List.getElem?_modify, hc]
    simp [heq]
  · refine halvesClosed_iff.mpr ⟨c, ?_, hread, hwrite⟩
    rw [hs, List.getElem?_modify, hc]
    simp [heq]

theorem halvesClosed_set {h n : Ref} {c c' : Cell}
    (hs : s'.streams = s.streams.set h c') (hc : s.streams[h]? = some c)
    (hstate : c'.inner.state = c.inner.state)
    (hn : s.halvesClosed n = true) : s'.halvesClosed n = true := by
  obtain ⟨d, hd, hclosed⟩ := halvesClosed_iff.mp hn
  by_cases heq : h = n
  · subst heq
    rw [hc] at hd
    cases hd
    refine halvesClosed_iff.mpr ⟨c', ?_, by rw [hstate]; exact hclosed⟩
    rw [hs, List.getElem?_set_self (List.getElem?_eq_some_iff.mp hc).1]
  · refine halvesClosed_iff.mpr ⟨d, ?_, hclosed⟩
    rw [hs, List.getElem?_set_ne heq]
    exact hd

/-- Only parts that have nothing to do with streams change. -/
theorem Keeps.plain (hrole : s'.role = s.role) (haccept : s'.accept = s.accept)
    (hclosing : s'.isClosing = s.isClosing) (h : s'.streams = s.streams) :
    Keeps s s' := by
  refine ⟨hrole, haccept, hclosing, h ▸ le_rfl, fun n hn => ?_⟩
  unfold halvesClosed at hn ⊢
  rwa [h]

/-- Someone has given a stream up. -/
theorem keeps_disown (s : Session) (h : Ref) (registry : StreamRegistry) :
    Keeps s { s.disown h with registry := registry } :=
  ⟨rfl, rfl, rfl, (List.length_modify ..).ge, fun _ hn =>
    halvesClosed_modify (f := fun c => { c with owner := .gone }) rfl
      (fun _ hread hwrite => ⟨hread, hwrite⟩) hn⟩

theorem Keeps.refl (s : Session) : Keeps s s := .plain rfl rfl rfl rfl

/-! ## What a task does

The registry and the outbound queue are what the invariants below are about;
everything else that a task changes is in `Keeps`.
-/

/-- **What a step of `open()` does** to the registry and to the queue. -/
theorem advanceOpen_effect (s : Session) (pc : OpenPc) :
    Keeps s (s.advanceOpen pc).1 ∧
      ((s.advanceOpen pc).1.registry = s.registry ∨
        (∃ id g, pc = .insert id ∧
          s.registry.insert id s.streams.length = .ok g ∧
          (s.advanceOpen pc).1.registry = g) ∨
        ∃ id h e, pc = .remove id h e ∧
          (s.advanceOpen pc).1.registry = s.registry.remove id) ∧
      ((s.advanceOpen pc).1.out = s.out ∨
        ∃ id h, pc = .send id h ∧
          (s.advanceOpen pc).1.out = s.out.send (.syn id)) := by
  cases pc with
  | closedCheck => exact ⟨.refl s, .inl rfl, .inl rfl⟩
  | goneCheck => exact ⟨.refl s, .inl rfl, .inl rfl⟩
  | limitCheck => exact ⟨.refl s, .inl rfl, .inl rfl⟩
  | allocate =>
      simp only [advanceOpen]
      split
      · exact ⟨.refl s, .inl rfl, .inl rfl⟩
      · exact ⟨.plain rfl rfl rfl rfl, .inl rfl, .inl rfl⟩
  | insert id =>
      have happend : ∀ {s' : Session} (c : Cell), s'.role = s.role →
          s'.accept = s.accept → s'.isClosing = s.isClosing →
          s'.streams = s.streams ++ [c] → Keeps s s' :=
        fun c hrole haccept hclosing hs =>
          ⟨hrole, haccept, hclosing, by simp [hs],
            fun n hn => halvesClosed_append c hn hs⟩
      simp only [advanceOpen]
      split
      · exact ⟨happend _ rfl rfl rfl rfl, .inl rfl, .inl rfl⟩
      · rename_i g hins
        exact ⟨happend _ rfl rfl rfl rfl, .inr (.inl ⟨id, g, rfl, hins, rfl⟩),
          .inl rfl⟩
  | send id h =>
      simp only [advanceOpen]
      split
      · exact ⟨.refl s, .inl rfl, .inl rfl⟩
      · exact ⟨.plain rfl rfl rfl rfl, .inl rfl, .inr ⟨id, h, rfl, rfl⟩⟩
  | wait id h =>
      simp only [advanceOpen]
      split
      · exact ⟨.refl s, .inl rfl, .inl rfl⟩
      · rename_i c hpending
        split
        · exact ⟨.refl s, .inl rfl, .inl rfl⟩
        · obtain ⟨hc, -⟩ := pendingOpen_some hpending
          exact ⟨⟨rfl, rfl, rfl, (List.length_set ..).ge,
            fun n hn => halvesClosed_set rfl hc rfl hn⟩, .inl rfl, .inl rfl⟩
        · exact ⟨.refl s, .inl rfl, .inl rfl⟩
  | remove id h e =>
      exact ⟨keeps_disown s h _, .inr (.inr ⟨id, h, e, rfl, rfl⟩), .inl rfl⟩
  | done result => exact ⟨.refl s, .inl rfl, .inl rfl⟩

theorem openTimer_effect (s : Session) (pc : OpenPc) :
    Keeps s (s.openTimer pc).1 ∧
      (s.openTimer pc).1.registry = s.registry ∧
      ((s.openTimer pc).1.out = s.out ∨
        ∃ id, (s.openTimer pc).1.out = s.out.send (.rst id)) := by
  cases pc with
  | wait id h =>
      have hwait := s.advanceOpen_effect (.wait id h)
      simp only [openTimer]
      split
      · exact ⟨.refl s, rfl, .inl rfl⟩
      · split
        · exact ⟨.plain rfl rfl rfl rfl, rfl, .inr ⟨id, rfl⟩⟩
        · obtain ⟨hkeeps, hreg, hout⟩ := hwait
          refine ⟨hkeeps, ?_, ?_⟩
          · rcases hreg with hreg | ⟨_, _, hpc, _⟩ | ⟨_, _, _, hpc, _⟩
            · exact hreg
            · cases hpc
            · cases hpc
          · rcases hout with hout | ⟨_, _, hpc, _⟩
            · exact .inl hout
            · cases hpc
  | _ => exact ⟨.refl s, rfl, .inl rfl⟩

end Session

/-! ## Where a shutdown stands -/

namespace ShutdownPc

/-- The `GoAway` is in the queue. -/
def announced : ShutdownPc → Bool
  | .idle => false
  | .announce _ => false
  | _ => true

/-- The registry was drained. -/
def drained : ShutdownPc → Bool
  | .idle => false
  | .announce _ => false
  | .drain => false
  | _ => true

end ShutdownPc

/-- The call has found the session open and has not enqueued its `SYN`. -/
def OpenPc.committed : OpenPc → Bool
  | .goneCheck => true
  | .limitCheck => true
  | .allocate => true
  | .insert _ => true
  | .send _ _ => true
  | _ => false

/-- The reader has a `SYN` in hand, neither refused nor registered. -/
def SynPc.committed : SynPc → Bool
  | .goneCheck _ => true
  | .limitCheck _ => true
  | .insert _ => true
  | _ => false

namespace Shared

/-- The stream is in the accept queue or about to be put there. -/
def waits (c : Shared) (n : Ref) : Bool :=
  c.session.accept.queue.contains n ||
    match c.reader with
    | .offer _ h => h == n
    | _ => false

/-- The step begins a race with the shutdown: `is_closing` is set while a call
of `open()` is between its check of it and its `SYN`, the registry is drained
while the reader is between receiving a `SYN` and registering the stream, the
reader takes up a `SYN` behind the drain without knowing that the peer is gone,
or the closer removes a waiting stream that is open. -/
def races (c : Shared) : Tick → Bool
  | .shutdown _ => !c.session.isClosing && c.opens.any OpenPc.committed
  | .shutdownStep => c.shutdown == .drain && c.reader.committed
  | .syn id =>
      c.shutdown.drained && c.reader == .idle && id != 0 &&
        !c.session.role.owns id && !c.session.peerGone
  | .remove id =>
      match c.session.registry.get id with
      | none => false
      | some n => c.waits n && !c.session.halvesClosed n
  | _ => false

/-- The step overtakes the shutdown: an insertion behind the drain, a `SYN`
behind the `GoAway`, or the removal of a waiting stream that is open. -/
def overtakes (c : Shared) : Tick → Bool
  | .openStep k =>
      match c.opens[k]? with
      | some (.insert _) => c.shutdown.drained
      | some (.send _ _) => c.shutdown.announced
      | _ => false
  | .readerStep =>
      match c.reader with
      | .insert _ => c.shutdown.drained
      | _ => false
  | .remove id =>
      match c.session.registry.get id with
      | none => false
      | some n => c.waits n && !c.session.halvesClosed n
  | _ => false

end Shared

/-! ## Whose ids the tasks hold -/

namespace OpenPc

/-- The id of a call, once it has one. -/
def id? : OpenPc → Option StreamId
  | .insert id => some id
  | .send id _ => some id
  | .wait id _ => some id
  | .remove id _ _ => some id
  | _ => none

end OpenPc

namespace SynPc

/-- The id of the `SYN` being handled. -/
def id? : SynPc → Option StreamId
  | .idle => none
  | .goneCheck id => some id
  | .limitCheck id => some id
  | .insert id => some id
  | .offer id _ => some id
  | .withdraw id _ => some id
  | .refuse id => some id

end SynPc

namespace Session

variable {s : Session} {id : StreamId}

/-- A call keeps its id, or has just got the next one. -/
theorem advanceOpen_id {pc : OpenPc} (h : (s.advanceOpen pc).2.id? = some id) :
    pc.id? = some id ∨ (pc = .allocate ∧ id = s.idAlloc.next) := by
  cases pc with
  | allocate =>
      simp only [advanceOpen] at h
      split at h
      · cases h
      · rename_i halloc
        cases h
        exact .inr ⟨rfl, (StreamIdAllocator.allocate_some halloc).1⟩
  | _ =>
      left
      simp only [advanceOpen] at h
      repeat' split at h
      all_goals first | exact h | cases h

theorem openTimer_id {pc : OpenPc} (h : (s.openTimer pc).2.id? = some id) :
    pc.id? = some id := by
  cases pc with
  | wait i n =>
      simp only [openTimer] at h
      repeat' split at h
      · exact h
      · exact h
      · rcases advanceOpen_id h with h | ⟨hpc, -⟩
        · exact h
        · cases hpc
  | _ => exact h

theorem advanceSyn_id {pc : SynPc} (h : (s.advanceSyn pc).2.id? = some id) :
    pc.id? = some id := by
  cases pc with
  | _ =>
      simp only [advanceSyn] at h
      repeat' split at h
      all_goals first | exact h | cases h

/-- The allocator moves to the next id of its side. -/
theorem advanceOpen_next (s : Session) (pc : OpenPc)
    (h : s.role.owns s.idAlloc.next = true) :
    s.role.owns (s.advanceOpen pc).1.idAlloc.next = true := by
  cases pc with
  | allocate =>
      simp only [advanceOpen]
      split
      · exact h
      · rename_i halloc
        exact Role.owns_add_two h (StreamIdAllocator.allocate_some halloc).2
  | _ =>
      simp only [advanceOpen]
      repeat' split
      all_goals exact h

theorem openTimer_next (s : Session) (pc : OpenPc)
    (h : s.role.owns s.idAlloc.next = true) :
    s.role.owns (s.openTimer pc).1.idAlloc.next = true := by
  cases pc with
  | wait i n =>
      simp only [openTimer]
      repeat' split
      · exact h
      · exact h
      · exact s.advanceOpen_next (.wait i n) h
  | _ => exact h

end Session

namespace Shared

/-- Calls of `open()` are for ids of the own side, and the reader handles
`SYN`s of the other. -/
structure Parity (r : Role) (c : Shared) : Prop where
  role : c.session.role = r
  next : r.owns c.session.idAlloc.next = true
  opens : ∀ pc ∈ c.opens, ∀ id, pc.id? = some id → r.owns id = true
  reader : ∀ id, c.reader.id? = some id → r.owns id = false

variable {c : Shared} {r : Role} {a : Tick}

theorem parity_new (cfg : Config) (r : Role) : (new cfg r).Parity r where
  role := rfl
  next := Role.owns_firstId r
  opens := fun _ hpc => absurd hpc List.not_mem_nil
  reader := fun _ h => nomatch h

/-- A call of `open()` moves on. -/
theorem Parity.advance (h : c.Parity r) (k : Nat)
    {f : Session → OpenPc → Session × OpenPc}
    (hrole : ∀ pc, (f c.session pc).1.role = c.session.role)
    (hnext : ∀ pc, c.session.role.owns (f c.session pc).1.idAlloc.next = true)
    (hid : ∀ pc id, (f c.session pc).2.id? = some id →
      pc.id? = some id ∨ id = c.session.idAlloc.next) :
    (c.advance k f).Parity r := by
  unfold Shared.advance
  split
  · exact h
  · rename_i pc hpc
    refine
      { role := (hrole pc).trans h.role
        next := h.role ▸ hnext pc
        opens := fun pc' hpc' id hpcid => ?_
        reader := h.reader }
    rcases List.mem_or_eq_of_mem_set hpc' with hmem | rfl
    · exact h.opens pc' hmem id hpcid
    · rcases hid pc id hpcid with hold | rfl
      · exact h.opens pc (List.mem_of_getElem? hpc) id hold
      · exact h.next

theorem Parity.step (h : c.Parity r) (a : Tick) : (c.step a).Parity r := by
  have hnext : c.session.role.owns c.session.idAlloc.next = true := by
    rw [h.role]
    exact h.next
  cases a with
  | call =>
      refine { h with opens := fun pc hpc id hid => ?_ }
      rcases List.mem_append.mp hpc with hpc | hpc
      · exact h.opens pc hpc id hid
      · rw [List.mem_singleton.mp hpc] at hid
        cases hid
  | openStep k =>
      refine h.advance k (fun pc => (c.session.advanceOpen_effect pc).1.role)
        (fun pc => c.session.advanceOpen_next pc hnext) fun pc id hid => ?_
      exact (Session.advanceOpen_id hid).imp_right fun hnew => hnew.2
  | openTimer k =>
      exact h.advance k (fun pc => (c.session.openTimer_effect pc).1.role)
        (fun pc => c.session.openTimer_next pc hnext)
        fun pc id hid => .inl (Session.openTimer_id hid)
  | syn id =>
      simp only [Shared.step]
      split
      · rename_i hsyn
        refine { h with reader := fun j hj => ?_ }
        obtain rfl := Option.some.inj hj
        rw [← h.role]
        exact hsyn.2.2
      · exact h
  | readerStep =>
      have hsame : (c.session.advanceSyn c.reader).1.role = c.session.role ∧
          (c.session.advanceSyn c.reader).1.idAlloc = c.session.idAlloc := by
        unfold Session.advanceSyn
        dsimp only
        repeat' split
        all_goals exact ⟨rfl, rfl⟩
      exact
        { role := hsame.1.trans h.role
          next := (congrArg (fun a => r.owns a.next) hsame.2).trans h.next
          opens := h.opens
          reader := fun id hid => h.reader id (Session.advanceSyn_id hid) }
  | ack n => exact { h with }
  | rst n => exact { h with }
  | peerGone => exact { h with }
  | remove id => exact { h with }
  | shutdown code =>
      simp only [Shared.step]
      split
      · exact h
      · exact { h with }
  | shutdownStep =>
      have hsame :
          (c.session.advanceShutdown c.shutdown).1.role = c.session.role ∧
          (c.session.advanceShutdown c.shutdown).1.idAlloc =
            c.session.idAlloc := by
        unfold Session.advanceShutdown
        split <;> exact ⟨rfl, rfl⟩
      exact
        { role := hsame.1.trans h.role
          next := (congrArg (fun a => r.owns a.next) hsame.2).trans h.next
          opens := h.opens
          reader := h.reader }

/-! ## Nothing is enqueued behind the `GoAway` -/

/-- No `SYN` is behind a `GoAway`. -/
def NoLateSyn (q : List Frame) : Prop :=
  ∀ pre code post, q = pre ++ .goAway code :: post → ∀ id, .syn id ∉ post

theorem NoLateSyn.append {q : List Frame} (h : NoLateSyn q) {f : Frame}
    (hf : (∀ id, f ≠ .syn id) ∨ ∀ code, .goAway code ∉ q) :
    NoLateSyn (q ++ [f]) := by
  intro pre code post heq id hid
  rcases List.eq_nil_or_concat post with rfl | ⟨post, x, rfl⟩
  · exact absurd hid List.not_mem_nil
  · rw [List.concat_eq_append, ← List.cons_append, ← List.append_assoc] at heq
    obtain ⟨rfl, hx⟩ := List.append_inj' heq rfl
    rw [List.concat_eq_append] at hid
    rcases List.mem_append.mp hid with hid | hid
    · exact h pre code post rfl id hid
    · rcases hf with hf | hf
      · refine hf id ?_
        rw [List.mem_singleton.mp hid]
        exact (List.cons.inj hx).1
      · exact hf code (List.mem_append_right _ (List.mem_cons_self ..))

/-- Until the shutdown announces itself there is no `GoAway`, and after that
no `SYN` follows it. -/
structure Announced (c : Shared) : Prop where
  idle : c.session.isClosing = false → c.shutdown = .idle
  before : c.shutdown.announced = false →
    ∀ code, .goAway code ∉ c.session.out.queue
  after : NoLateSyn c.session.out.queue

theorem announced_new (cfg : Config) (r : Role) : (new cfg r).Announced where
  idle := fun _ => rfl
  before := fun _ _ h => absurd h List.not_mem_nil
  after := by
    intro pre code post heq
    simp [new, Session.new, Chan.new] at heq

/-- A step that is none of the shutdown's own. -/
theorem Announced.other (h : c.Announced) {c' : Shared}
    (hclosing : c'.session.isClosing = c.session.isClosing)
    (hshut : c'.shutdown = c.shutdown)
    (hout : c'.session.out = c.session.out ∨
      ∃ f, c'.session.out = c.session.out.send f ∧ (∀ code, f ≠ .goAway code) ∧
        ((∀ id, f ≠ .syn id) ∨ c.shutdown.announced = false)) :
    c'.Announced where
  idle := by
    rw [hclosing, hshut]
    exact h.idle
  before := by
    intro hbefore code hcode
    rw [hshut] at hbefore
    rcases hout with hout | ⟨f, hout, hgo, -⟩
    · rw [hout] at hcode
      exact h.before hbefore code hcode
    · rw [hout, Chan.send_eq_sendAll, Chan.sendAll_queue] at hcode
      rcases List.mem_append.mp hcode with hcode | hcode
      · exact h.before hbefore code hcode
      · split at hcode
        · exact absurd hcode List.not_mem_nil
        · exact hgo code (List.mem_singleton.mp hcode).symm
  after := by
    rcases hout with hout | ⟨f, hout, -, hsyn⟩
    · rw [hout]
      exact h.after
    · rw [hout, Chan.send_eq_sendAll, Chan.sendAll_queue]
      split
      · rw [List.append_nil]
        exact h.after
      · exact h.after.append (hsyn.imp_right h.before)

theorem Announced.advance (h : c.Announced) {k : Nat}
    {f : Session → OpenPc → Session × OpenPc}
    (hclosing : ∀ pc, (f c.session pc).1.isClosing = c.session.isClosing)
    (hout : ∀ pc, c.opens[k]? = some pc →
      (f c.session pc).1.out = c.session.out ∨
      ∃ g, (f c.session pc).1.out = c.session.out.send g ∧
        (∀ code, g ≠ .goAway code) ∧
        ((∀ id, g ≠ .syn id) ∨ c.shutdown.announced = false)) :
    (c.advance k f).Announced := by
  unfold Shared.advance
  split
  · exact h
  · rename_i pc hpc
    exact h.other (hclosing pc) rfl (hout pc hpc)

theorem rst_ne_syn (i id : StreamId) : Frame.rst i ≠ .syn id := by
  intro h
  cases h

theorem rst_ne_goAway (i : StreamId) (code : ErrorCode) :
    Frame.rst i ≠ .goAway code := by
  intro h
  cases h

theorem syn_ne_goAway (id : StreamId) (code : ErrorCode) :
    Frame.syn id ≠ .goAway code := by
  intro h
  cases h

/-- **A step keeps the order of `SYN`s and the `GoAway`**, unless it
overtakes the shutdown. -/
theorem Announced.step (h : c.Announced) (hlate : c.overtakes a = false) :
    (c.step a).Announced := by
  cases a with
  | call => exact h.other rfl rfl (.inl rfl)
  | openStep k =>
      refine h.advance (fun pc => (c.session.advanceOpen_effect pc).1.isClosing)
        fun pc hpc => ?_
      refine (c.session.advanceOpen_effect pc).2.2.imp_right ?_
      rintro ⟨id, n, rfl, hout⟩
      refine ⟨.syn id, hout, syn_ne_goAway id, .inr ?_⟩
      simpa [overtakes, hpc] using hlate
  | openTimer k =>
      refine h.advance (fun pc => (c.session.openTimer_effect pc).1.isClosing)
        fun pc hpc => ?_
      refine (c.session.openTimer_effect pc).2.2.imp_right ?_
      rintro ⟨id, hout⟩
      exact ⟨.rst id, hout, rst_ne_goAway id, .inl (rst_ne_syn id)⟩
  | syn id =>
      simp only [Shared.step]
      split
      · exact h.other rfl rfl (.inl rfl)
      · exact h
  | readerStep =>
      have hsyn : (c.session.advanceSyn c.reader).1.isClosing =
            c.session.isClosing ∧
          ((c.session.advanceSyn c.reader).1.out = c.session.out ∨
            ∃ id, (c.session.advanceSyn c.reader).1.out =
              c.session.out.send (.rst id)) := by
        unfold Session.advanceSyn
        dsimp only
        repeat' split
        all_goals first
          | exact ⟨rfl, .inl rfl⟩
          | exact ⟨rfl, .inr ⟨_, rfl⟩⟩
      refine h.other hsyn.1 rfl (hsyn.2.imp_right ?_)
      rintro ⟨id, hout⟩
      exact ⟨.rst id, hout, rst_ne_goAway id, .inl (rst_ne_syn id)⟩
  | ack n => exact h.other rfl rfl (.inl rfl)
  | rst n => exact h.other rfl rfl (.inl rfl)
  | peerGone => exact h.other rfl rfl (.inl rfl)
  | remove id => exact h.other rfl rfl (.inl rfl)
  | shutdown code =>
      simp only [Shared.step]
      split
      · exact h
      · rename_i hopen
        have hidle := h.idle (Bool.not_eq_true _ ▸ hopen)
        exact
          { idle := fun hcl => absurd hcl.symm Bool.false_ne_true
            before := fun _ => h.before (by rw [hidle]; rfl)
            after := h.after }
  | shutdownStep =>
      have hclosing : c.shutdown ≠ .idle → c.session.isClosing = true := by
        intro hpc
        by_contra hcl
        exact hpc (h.idle (Bool.not_eq_true _ ▸ hcl))
      have hlater : ∀ {c' : Shared}, c.shutdown ≠ .idle →
          c'.session.isClosing = c.session.isClosing →
          c'.shutdown.announced = true → NoLateSyn c'.session.out.queue →
          c'.Announced := by
        intro c' hpc hcl hann hafter
        refine ⟨fun hopen => ?_, fun hbefore => ?_, hafter⟩
        · rw [hcl, hclosing hpc] at hopen
          cases hopen
        · rw [hann] at hbefore
          cases hbefore
      simp only [Shared.step]
      cases hpc : c.shutdown with
      | idle => exact h.other rfl hpc.symm (.inl rfl)
      | announce code =>
          refine hlater (by simp [hpc]) rfl rfl ?_
          show NoLateSyn (c.session.out.send (.goAway code)).queue
          rw [Chan.send_eq_sendAll, Chan.sendAll_queue]
          split
          · rw [List.append_nil]
            exact h.after
          · exact h.after.append (.inl fun id => (syn_ne_goAway id code).symm)
      | drain => exact hlater (by simp [hpc]) rfl rfl h.after
      | close rest =>
          cases rest with
          | nil => exact hlater (by simp [hpc]) rfl rfl h.after
          | cons n rest => exact hlater (by simp [hpc]) rfl rfl h.after
      | trip => exact hlater (by simp [hpc]) rfl rfl h.after
      | done => exact hlater (by simp [hpc]) rfl rfl h.after

/-! ## Every waiting stream is reached -/

/-- What a stream in the accept queue can count on: its halves are closed, or
the shutdown will find it in the registry, or has found it there. -/
def Entitled (r : Role) (c : Shared) (n : Ref) : Prop :=
  c.session.halvesClosed n = true ∨
  (c.shutdown.drained = false ∧
    ∃ i, r.owns i = false ∧ c.session.registry.get i = some n) ∨
  ∃ rest, c.shutdown = .close rest ∧ n ∈ rest

structure Reached (r : Role) (c : Shared) : Prop where
  accept : c.session.accept.closed = false
  reader : ∀ id n, c.reader ≠ .withdraw id n
  drained : c.shutdown.drained = true → ∀ i, c.session.registry.get i = none
  waiting : ∀ n, c.waits n = true →
    n < c.session.streams.length ∧ c.Entitled r n

theorem reached_new (cfg : Config) (r : Role) : (new cfg r).Reached r where
  accept := rfl
  reader := fun _ _ => nofun
  drained := fun h => nomatch h
  waiting := fun _ h => nomatch h

/-- A step that is none of the shutdown's own and makes no stream wait. -/
theorem Reached.other (h : c.Reached r) {c' : Shared}
    (hkeeps : Session.Keeps c.session c'.session)
    (hreader : c'.reader = c.reader ∨
      ((∀ id n, c'.reader ≠ .withdraw id n) ∧ ∀ id n, c'.reader ≠ .offer id n))
    (hshut : c'.shutdown = c.shutdown)
    (hdrained : c.shutdown.drained = true →
      ∀ i, c'.session.registry.get i = none)
    (hreg : ∀ i n, c.waits n = true → r.owns i = false →
      c.session.registry.get i = some n →
      c'.session.registry.get i = some n ∨ c'.session.halvesClosed n = true) :
    c'.Reached r where
  accept := by rw [hkeeps.accept]; exact h.accept
  reader := by
    rcases hreader with hsame | ⟨hreader, -⟩
    · rw [hsame]
      exact h.reader
    · exact hreader
  drained := by
    rw [hshut]
    exact hdrained
  waiting := by
    intro n hn
    have hold : c.waits n = true := by
      unfold waits at hn ⊢
      rw [hkeeps.accept] at hn
      rcases hreader with hsame | ⟨-, hoffer⟩
      · rw [hsame] at hn
        exact hn
      · split at hn
        · rename_i hpc
          exact absurd hpc (hoffer _ _)
        · rw [Bool.or_false] at hn
          rw [hn]
          rfl
    obtain ⟨hlt, hent⟩ := h.waiting n hold
    refine ⟨hlt.trans_le hkeeps.length, ?_⟩
    rcases hent with hclosed | ⟨hearly, i, hown, hget⟩ | ⟨rest, hrest, hmem⟩
    · exact .inl (hkeeps.closed n hclosed)
    · rcases hreg i n hold hown hget with hget' | hclosed
      · exact .inr (.inl ⟨by rw [hshut]; exact hearly, i, hown, hget'⟩)
      · exact .inl hclosed
    · exact .inr (.inr ⟨rest, hshut.trans hrest, hmem⟩)

/-- A step that leaves the registry alone, too. -/
theorem Reached.same (h : c.Reached r) {c' : Shared}
    (hkeeps : Session.Keeps c.session c'.session)
    (hreader : c'.reader = c.reader ∨
      ((∀ id n, c'.reader ≠ .withdraw id n) ∧ ∀ id n, c'.reader ≠ .offer id n))
    (hshut : c'.shutdown = c.shutdown)
    (hreg : c'.session.registry = c.session.registry) : c'.Reached r :=
  h.other hkeeps hreader hshut (by rw [hreg]; exact h.drained)
    fun i n _ _ hget => .inl (by rw [hreg]; exact hget)

/-- An entry is added under an id that was free. -/
theorem get_insert_of_get {g g' : StreamRegistry} {id i : StreamId} {m n : Ref}
    (hins : g.insert id m = .ok g') (hget : g.get i = some n) :
    g'.get i = some n := by
  obtain ⟨hfree, hnew⟩ := StreamRegistry.insert_ok hins
  rw [hnew, if_neg, hget]
  rintro rfl
  rw [hget] at hfree
  cases hfree

theorem Reached.openStep (h : c.Reached r) (hpar : c.Parity r) {k : Nat}
    (hlate : c.overtakes (.openStep k) = false) :
    (c.step (.openStep k)).Reached r := by
  show (c.advance k Session.advanceOpen).Reached r
  unfold Shared.advance
  split
  · exact h
  · rename_i pc hpc
    obtain ⟨hkeeps, hreg, -⟩ := c.session.advanceOpen_effect pc
    rcases hreg with hreg | ⟨id, g, rfl, hins, hreg⟩ | ⟨id, n, e, rfl, hreg⟩
    · exact h.same hkeeps (.inl rfl) rfl hreg
    · have hearly : c.shutdown.drained = false := by
        simpa [overtakes, hpc] using hlate
      refine h.other hkeeps (.inl rfl) rfl ?_ ?_
      · intro hdrained
        rw [hearly] at hdrained
        cases hdrained
      · intro i n _ _ hget
        left
        show (c.session.advanceOpen (.insert id)).1.registry.get i = some n
        rw [hreg]
        exact get_insert_of_get hins hget
    · have hown := hpar.opens _ (List.mem_of_getElem? hpc) id rfl
      refine h.other hkeeps (.inl rfl) rfl ?_ ?_
      · intro hdrained i
        show (c.session.advanceOpen (.remove id n e)).1.registry.get i = none
        rw [hreg, StreamRegistry.get_remove, h.drained hdrained i, ite_self]
      · intro i m _ hi hget
        left
        show (c.session.advanceOpen (.remove id n e)).1.registry.get i = some m
        rw [hreg, StreamRegistry.get_remove, if_neg, hget]
        rintro rfl
        rw [hown] at hi
        cases hi

/-- The reader has made a stream and registered it. -/
theorem Reached.insert (h : c.Reached r) {id : StreamId} {g : StreamRegistry}
    {cell : Cell} (hearly : c.shutdown.drained = false)
    (hown : r.owns id = false)
    (hins : c.session.registry.insert id c.session.streams.length = .ok g) :
    Reached r { c with
      session :=
        { c.session with
          registry := g
          streams := c.session.streams ++ [cell] }
      reader := .offer id c.session.streams.length } where
  accept := h.accept
  reader := fun _ _ => nofun
  drained := fun hd => by
    rw [hearly] at hd
    cases hd
  waiting := by
    intro n hn
    by_cases hnew : c.session.streams.length = n
    · subst hnew
      refine ⟨by simp, .inr (.inl ⟨hearly, id, hown, ?_⟩)⟩
      show g.get id = _
      rw [(StreamRegistry.insert_ok hins).2, if_pos rfl]
    · have hold : c.waits n = true := by
        simp only [waits, beq_eq_false_iff_ne.mpr hnew, Bool.or_false] at hn ⊢
        rw [hn, Bool.true_or]
      obtain ⟨hlt, hent⟩ := h.waiting n hold
      refine ⟨hlt.trans_le (by simp), ?_⟩
      rcases hent with hclosed | ⟨-, i, hi, hget⟩ | ⟨rest, hrest, hmem⟩
      · exact .inl (Session.halvesClosed_append cell hclosed rfl)
      · exact .inr (.inl ⟨hearly, i, hi, get_insert_of_get hins hget⟩)
      · exact .inr (.inr ⟨rest, hrest, hmem⟩)

theorem Reached.readerStep (h : c.Reached r) (hpar : c.Parity r)
    (hlate : c.overtakes .readerStep = false) :
    (c.step .readerStep).Reached r := by
  simp only [Shared.step]
  cases hpc : c.reader with
  | idle => exact h.same (.refl _) (.inl hpc.symm) rfl rfl
  | goneCheck id =>
      refine h.same (.refl _) (.inr ?_) rfl rfl
      simp only [Session.advanceSyn]
      split <;> simp
  | limitCheck id =>
      refine h.same (.refl _) (.inr ?_) rfl rfl
      simp only [Session.advanceSyn]
      split <;> simp
  | insert id =>
      have hearly : c.shutdown.drained = false := by
        simpa [overtakes, hpc] using hlate
      simp only [Session.advanceSyn]
      split
      · exact h.same (.refl _) (.inr (by simp)) rfl rfl
      · rename_i g hins
        exact h.insert hearly (hpar.reader id (by rw [hpc]; rfl)) hins
  | offer id n =>
      simp only [Session.advanceSyn, h.accept, Bool.false_eq_true, if_false]
      have hqueue : (c.session.accept.send n).queue =
          c.session.accept.queue ++ [n] := by
        simp [Chan.send, h.accept]
      refine ⟨(Chan.send_closed _ _).trans h.accept, by simp, h.drained,
        fun m hm => h.waiting m ?_⟩
      -- It waited before it was in the queue.
      have hmem : m ∈ c.session.accept.queue ++ [n] := by
        simpa [waits, hqueue] using hm
      rcases List.mem_append.mp hmem with hmem | hmem
      · simp [waits, hmem]
      · simp [waits, hpc, (List.mem_singleton.mp hmem).symm]
  | withdraw id n => exact absurd hpc (h.reader id n)
  | refuse id =>
      refine h.same (.plain rfl rfl rfl rfl) (.inr ?_) rfl rfl
      simp [Session.advanceSyn]

theorem Reached.shutdownStep (h : c.Reached r) :
    (c.step .shutdownStep).Reached r := by
  simp only [Shared.step]
  cases hpc : c.shutdown with
  | idle => exact h.same (.refl _) (.inl rfl) hpc.symm rfl
  | announce code =>
      refine ⟨h.accept, h.reader, fun hd => absurd hd Bool.false_ne_true,
        fun n hn => ?_⟩
      obtain ⟨hlt, hent⟩ := h.waiting n hn
      refine ⟨hlt, ?_⟩
      rcases hent with hclosed | ⟨-, hget⟩ | ⟨rest, hrest, -⟩
      · exact .inl hclosed
      · exact .inr (.inl ⟨rfl, hget⟩)
      · rw [hpc] at hrest
        cases hrest
  | drain =>
      refine ⟨h.accept, h.reader, fun _ i => StreamRegistry.get_empty i,
        fun n hn => ?_⟩
      obtain ⟨hlt, hent⟩ := h.waiting n hn
      refine ⟨hlt, ?_⟩
      rcases hent with hclosed | ⟨-, i, -, hget⟩ | ⟨rest, hrest, -⟩
      · exact .inl hclosed
      · exact .inr (.inr ⟨_, rfl, StreamRegistry.mem_drain.mpr ⟨i, hget⟩⟩)
      · rw [hpc] at hrest
        cases hrest
  | close rest =>
      have hempty := h.drained (by rw [hpc]; rfl)
      cases rest with
      | nil =>
          refine ⟨h.accept, h.reader, fun _ => hempty, fun n hn => ?_⟩
          obtain ⟨hlt, hent⟩ := h.waiting n hn
          refine ⟨hlt, .inl ?_⟩
          rcases hent with hclosed | ⟨hd, -⟩ | ⟨rest, hrest, hmem⟩
          · exact hclosed
          · rw [hpc] at hd
            cases hd
          · rw [hpc] at hrest
            cases hrest
            exact absurd hmem List.not_mem_nil
      | cons m rest =>
          refine ⟨h.accept, h.reader, fun _ => hempty, fun n hn => ?_⟩
          obtain ⟨hlt, hent⟩ := h.waiting n hn
          refine ⟨hlt.trans_le (List.length_modify ..).ge, ?_⟩
          rcases hent with hclosed | ⟨hd, -⟩ | ⟨all, hall, hmem⟩
          · left
            exact Session.halvesClosed_modify
              (f := fun d => { d with inner := d.inner.forceClose })
              rfl (fun _ _ _ => ⟨rfl, rfl⟩) hclosed
          · rw [hpc] at hd
            cases hd
          · rw [hpc] at hall
            cases hall
            rcases List.mem_cons.mp hmem with rfl | hmem
            · left
              refine Session.halvesClosed_iff.mpr
                ⟨{ c.session.streams[n] with
                    inner := c.session.streams[n].inner.forceClose }, ?_, rfl,
                  rfl⟩
              simp [Session.advanceShutdown, hlt]
            · exact .inr (.inr ⟨rest, rfl, hmem⟩)
  | trip =>
      refine ⟨h.accept, h.reader, fun _ => h.drained (by rw [hpc]; rfl),
        fun n hn => ?_⟩
      obtain ⟨hlt, hent⟩ := h.waiting n hn
      refine ⟨hlt, .inl ?_⟩
      rcases hent with hclosed | ⟨hd, -⟩ | ⟨rest, hrest, -⟩
      · exact hclosed
      · rw [hpc] at hd
        cases hd
      · rw [hpc] at hrest
        cases hrest
  | done => exact h.same (.refl _) (.inl rfl) hpc.symm rfl

/-- A stream is changed by the reader, and its halves are not opened. -/
theorem Reached.onStream (h : c.Reached r) (n : Ref)
    {f : StreamInner → StreamInner}
    (hf : ∀ inner, inner.state.readOpen = false →
      inner.state.writeOpen = false → (f inner).state.readOpen = false ∧
        (f inner).state.writeOpen = false) : (c.onStream n f).Reached r := by
  refine h.same ⟨rfl, rfl, rfl, (List.length_modify ..).ge, fun m hm => ?_⟩
    (.inl rfl) rfl rfl
  exact Session.halvesClosed_modify (f := fun d => { d with inner := f d.inner })
    rfl (fun d hread hwrite => hf d.inner hread hwrite) hm

/-- **A step keeps every waiting stream within reach of the shutdown**, unless
it overtakes it. -/
theorem Reached.step (h : c.Reached r) (hpar : c.Parity r)
    (hann : c.Announced) (hlate : c.overtakes a = false) :
    (c.step a).Reached r := by
  cases a with
  | call => exact h.same (.refl _) (.inl rfl) rfl rfl
  | openStep k => exact h.openStep hpar hlate
  | openTimer k =>
      show (c.advance k Session.openTimer).Reached r
      unfold Shared.advance
      split
      · exact h
      · rename_i pc hpc
        obtain ⟨hkeeps, hreg, -⟩ := c.session.openTimer_effect pc
        exact h.same hkeeps (.inl rfl) rfl hreg
  | syn id =>
      simp only [Shared.step]
      split
      · exact h.same (.refl _) (.inr (by simp)) rfl rfl
      · exact h
  | readerStep => exact h.readerStep hpar hlate
  | ack n => exact h.onStream n fun inner hread hwrite => ⟨hread, hwrite⟩
  | rst n =>
      exact h.onStream n (f := fun inner => inner.remoteReset.1)
        fun _ _ _ => ⟨rfl, rfl⟩
  | peerGone => exact h.same (.plain rfl rfl rfl rfl) (.inl rfl) rfl rfl
  | remove id =>
      refine h.other (.plain rfl rfl rfl rfl) (.inl rfl) rfl ?_ ?_
      · intro hdrained i
        show (c.session.registry.remove id).get i = none
        rw [StreamRegistry.get_remove, h.drained hdrained i, ite_self]
      · intro i n hn _ hget
        by_cases hi : i = id
        · right
          subst hi
          show c.session.halvesClosed n = true
          simpa [overtakes, hget, hn] using hlate
        · left
          show (c.session.registry.remove id).get i = some n
          rw [StreamRegistry.get_remove, if_neg hi, hget]
  | shutdown code =>
      simp only [Shared.step]
      split
      · exact h
      · rename_i hopen
        have hidle := hann.idle (Bool.not_eq_true _ ▸ hopen)
        refine ⟨h.accept, h.reader, fun hd => absurd hd Bool.false_ne_true,
          fun n hn => ?_⟩
        obtain ⟨hlt, hent⟩ := h.waiting n hn
        refine ⟨hlt, ?_⟩
        rcases hent with hclosed | ⟨-, hget⟩ | ⟨rest, hrest, -⟩
        · exact .inl hclosed
        · exact .inr (.inl ⟨rfl, hget⟩)
        · rw [hidle] at hrest
          cases hrest
  | shutdownStep => exact h.shutdownStep

/-! ## Where a race begins

A call of `open()` that finds the session closing turns back, so after
`is_closing` was set there are only the committed calls of that moment.
-/

/-- Nobody who could overtake the shutdown is on the way. -/
structure Gated (c : Shared) : Prop where
  opens : c.shutdown ≠ .idle → ∀ pc ∈ c.opens, pc.committed = false
  reader : c.shutdown.drained = true → c.reader.committed = true →
    c.session.peerGone = true ∧ ∃ id, c.reader = .goneCheck id

theorem gated_new (cfg : Config) (r : Role) : (new cfg r).Gated where
  opens := fun _ _ hpc => absurd hpc List.not_mem_nil
  reader := fun h => nomatch h

/-- A call that is let through was so before, or reads `is_closing` now. -/
theorem advanceOpen_committed {s : Session} {pc : OpenPc}
    (h : (s.advanceOpen pc).2.committed = true) :
    pc.committed = true ∨ s.isClosing = false := by
  cases pc with
  | closedCheck =>
      right
      cases hclosing : s.isClosing with
      | false => rfl
      | true => simp [Session.advanceOpen, hclosing, OpenPc.committed] at h
  | goneCheck => exact .inl rfl
  | limitCheck => exact .inl rfl
  | allocate => exact .inl rfl
  | insert id => exact .inl rfl
  | send id n => exact .inl rfl
  | wait id n =>
      simp only [Session.advanceOpen] at h
      repeat' split at h
      all_goals cases h
  | remove id n e => cases h
  | done result => cases h

theorem openTimer_committed {s : Session} {pc : OpenPc}
    (h : (s.openTimer pc).2.committed = true) :
    pc.committed = true ∨ s.isClosing = false := by
  cases pc with
  | wait id n =>
      simp only [Session.openTimer] at h
      repeat' split at h
      · cases h
      · cases h
      · exact advanceOpen_committed h
  | _ => exact .inl h

theorem advanceShutdown_drained {s : Session} {pc : ShutdownPc}
    (h : (s.advanceShutdown pc).2.drained = true) :
    pc.drained = true ∨ pc = .drain := by
  cases pc with
  | idle => exact .inl h
  | announce code => cases h
  | drain => exact .inr rfl
  | close rest => exact .inl rfl
  | trip => exact .inl rfl
  | done => exact .inl rfl

/-- The peer stays gone. -/
theorem peerGone_step (a : Tick) (h : c.session.peerGone = true) :
    (c.step a).session.peerGone = true := by
  cases a with
  | openStep k =>
      simp only [Shared.step, Shared.advance, Session.advanceOpen]
      repeat' split
      all_goals exact h
  | openTimer k =>
      simp only [Shared.step, Shared.advance, Session.openTimer,
        Session.advanceOpen]
      repeat' split
      all_goals exact h
  | readerStep =>
      simp only [Shared.step, Session.advanceSyn]
      repeat' split
      all_goals exact h
  | shutdownStep =>
      simp only [Shared.step, Session.advanceShutdown]
      repeat' split
      all_goals exact h
  | syn id => simp only [Shared.step]; split <;> exact h
  | shutdown code => simp only [Shared.step]; split <;> exact h
  | peerGone => rfl
  | _ => exact h

/-- A step that leaves the reader and the shutdown where they stand. -/
theorem Gated.other (h : c.Gated) {a : Tick}
    (hopens : c.shutdown ≠ .idle →
      ∀ pc ∈ (c.step a).opens, pc.committed = false)
    (hreader : (c.step a).reader = c.reader)
    (hshut : (c.step a).shutdown = c.shutdown) : (c.step a).Gated where
  opens := by
    rw [hshut]
    exact hopens
  reader := by
    rw [hreader, hshut]
    intro hdrained hpc
    obtain ⟨hgone, hid⟩ := h.reader hdrained hpc
    exact ⟨peerGone_step a hgone, hid⟩

/-- A call of `open()` makes a step. -/
theorem Gated.advance (h : c.Gated) (hann : c.Announced) {k : Nat}
    {f : Session → OpenPc → Session × OpenPc}
    (hf : ∀ pc, (f c.session pc).2.committed = true →
      pc.committed = true ∨ c.session.isClosing = false)
    (hidle : c.shutdown ≠ .idle) :
    ∀ pc ∈ (c.advance k f).opens, pc.committed = false := by
  have hclosing : c.session.isClosing = true := by
    by_contra hopen
    exact hidle (hann.idle (Bool.not_eq_true _ ▸ hopen))
  unfold Shared.advance
  split
  · exact h.opens hidle
  · rename_i pc hpc
    intro pc' hpc'
    rcases List.mem_or_eq_of_mem_set hpc' with hmem | rfl
    · exact h.opens hidle pc' hmem
    · by_contra hnew
      rcases hf pc (Bool.not_eq_false _ ▸ hnew) with hold | hopen
      · rw [h.opens hidle pc (List.mem_of_getElem? hpc)] at hold
        cases hold
      · rw [hclosing] at hopen
        cases hopen

theorem Gated.readerStep (h : c.Gated) : (c.step .readerStep).Gated where
  opens := h.opens
  reader := by
    intro hdrained hpc
    -- A reader that is committed behind the drain refuses the `SYN` now.
    simp only [Shared.step] at hdrained hpc
    cases hreader : c.reader with
    | idle => simp [hreader, Session.advanceSyn, SynPc.committed] at hpc
    | goneCheck id =>
        have hgone := (h.reader hdrained (by rw [hreader]; rfl)).1
        simp [hreader, Session.advanceSyn, hgone, SynPc.committed] at hpc
    | limitCheck id =>
        obtain ⟨-, id', hid⟩ := h.reader hdrained (by rw [hreader]; rfl)
        rw [hreader] at hid
        cases hid
    | insert id =>
        obtain ⟨-, id', hid⟩ := h.reader hdrained (by rw [hreader]; rfl)
        rw [hreader] at hid
        cases hid
    | offer id n =>
        rw [hreader] at hpc
        simp only [Session.advanceSyn] at hpc
        split at hpc <;> cases hpc
    | withdraw id n => simp [hreader, Session.advanceSyn, SynPc.committed] at hpc
    | refuse id => simp [hreader, Session.advanceSyn, SynPc.committed] at hpc

/-- **After a step nobody is on the way**, unless the step begins a race. -/
theorem Gated.step (h : c.Gated) (hann : c.Announced)
    (hrace : c.races a = false) : (c.step a).Gated := by
  cases a with
  | call =>
      refine h.other (fun hidle pc hpc => ?_) rfl rfl
      rcases List.mem_append.mp hpc with hpc | hpc
      · exact h.opens hidle pc hpc
      · rw [List.mem_singleton.mp hpc]
        rfl
  | openStep k =>
      refine h.other (h.advance hann fun _ => advanceOpen_committed) ?_ ?_ <;>
      · simp only [Shared.step, Shared.advance]
        split <;> rfl
  | openTimer k =>
      refine h.other (h.advance hann fun _ => openTimer_committed) ?_ ?_ <;>
      · simp only [Shared.step, Shared.advance]
        split <;> rfl
  | syn id =>
      by_cases htaken :
          c.reader = .idle ∧ id ≠ 0 ∧ c.session.role.owns id = false
      · rw [Shared.step, if_pos htaken]
        refine ⟨h.opens, fun hdrained _ => ⟨?_, id, rfl⟩⟩
        have hdrained : c.shutdown.drained = true := hdrained
        simpa [races, hdrained, htaken] using hrace
      · rw [Shared.step, if_neg htaken]
        exact h
  | readerStep => exact h.readerStep
  | ack n => exact h.other h.opens rfl rfl
  | rst n => exact h.other h.opens rfl rfl
  | peerGone => exact h.other h.opens rfl rfl
  | remove id => exact h.other h.opens rfl rfl
  | shutdown code =>
      simp only [Shared.step]
      split
      · exact h
      · rename_i hopen
        refine ⟨fun _ pc hpc => ?_, fun hd => absurd hd Bool.false_ne_true⟩
        by_contra hcommitted
        have hany : c.opens.any OpenPc.committed = true :=
          List.any_eq_true.mpr ⟨pc, hpc, Bool.not_eq_false _ ▸ hcommitted⟩
        simp [races, hopen, hany] at hrace
  | shutdownStep =>
      refine ⟨fun hidle => h.opens fun hpc => hidle ?_, fun hdrained hpc => ?_⟩
      · simp only [Shared.step, hpc, Session.advanceShutdown]
      · rcases advanceShutdown_drained hdrained with hbefore | hdrain
        · obtain ⟨hgone, hid⟩ := h.reader hbefore hpc
          exact ⟨peerGone_step .shutdownStep hgone, hid⟩
        · have hcommitted : c.reader.committed = true := hpc
          simp [races, hdrain, hcommitted] at hrace

/-- A step that overtakes the shutdown is made by somebody on the way. -/
theorem Gated.overtakes (h : c.Gated) (hrace : c.races a = false) :
    c.overtakes a = false := by
  cases a with
  | openStep k =>
      have hidle : ∀ pc, c.opens[k]? = some pc → pc.committed = true →
          c.shutdown = .idle := by
        intro pc hpc hcommitted
        by_contra hidle
        rw [h.opens hidle pc (List.mem_of_getElem? hpc)] at hcommitted
        cases hcommitted
      simp only [Shared.overtakes]
      split
      · rename_i id hpc
        rw [hidle _ hpc rfl]
        rfl
      · rename_i id n hpc
        rw [hidle _ hpc rfl]
        rfl
      · rfl
  | readerStep =>
      simp only [Shared.overtakes]
      split
      · rename_i id hpc
        by_contra hdrained
        obtain ⟨-, id', hid⟩ :=
          h.reader (Bool.not_eq_false _ ▸ hdrained) (by rw [hpc]; rfl)
        rw [hpc] at hid
        cases hid
      · rfl
  | remove id => exact hrace
  | _ => rfl

/-! ## Whole runs -/

/-- **A shutdown that no race begins with reaches every stream.**  Take any
interleaving of the atomic steps of a shutdown, of any number of calls of
`open()` and of the reader's handling of `SYN`s, with streams acknowledged,
reset and removed in between.  Let `is_closing` be set when no call of `open()`
is between its check of it and its `SYN`, let the reader have no `SYN` in hand
when the registry is drained and take up none after that unless the peer is
known to be gone, and let no waiting stream with an open half be removed from
the registry.  Once the shutdown is complete, no stream in the registry or in
the accept queue has an open half, and no `SYN` was enqueued after the
`GoAway`. -/
theorem shutdown_reaches_all (cfg : Config) (r : Role) (as : List Tick)
    (hrun : Along step (fun c a => c.races a = false) (new cfg r) as)
    (hdone : (run step (new cfg r) as).shutdown = .done) :
    (∀ i n, (run step (new cfg r) as).session.registry.get i = some n →
      (run step (new cfg r) as).session.halvesClosed n = true) ∧
    (∀ n ∈ (run step (new cfg r) as).session.accept.queue,
      (run step (new cfg r) as).session.halvesClosed n = true) ∧
    ∀ pre code post, (run step (new cfg r) as).session.out.queue =
      pre ++ .goAway code :: post → ∀ id, .syn id ∉ post := by
  obtain ⟨-, hann, hreached, -⟩ := run_invariant step
    (I := fun c => c.Parity r ∧ c.Announced ∧ c.Reached r ∧ c.Gated)
    (fun c a ⟨hpar, hann, hreached, hgated⟩ hrace =>
      have hlate := hgated.overtakes hrace
      ⟨hpar.step a, hann.step hlate, hreached.step hpar hann hlate,
        hgated.step hann hrace⟩)
    as _ ⟨parity_new cfg r, announced_new cfg r, reached_new cfg r,
      gated_new cfg r⟩ hrun
  refine ⟨fun i n hget => ?_, fun n hn => ?_, hann.after⟩
  · rw [hreached.drained (by rw [hdone]; rfl) i] at hget
    cases hget
  · have hwaits : (run step (new cfg r) as).waits n = true := by
      simp [waits, hn]
    rcases (hreached.waiting n hwaits).2 with hclosed | ⟨hd, -⟩ | ⟨_, hrest, -⟩
    · exact hclosed
    · rw [hdone] at hd
      cases hd
    · rw [hdone] at hrest
      cases hrest

/-- A call of `open()` has passed its checks when the session is shut down
from beginning to end. -/
def lateOpen : List Tick :=
  [.call, .openStep 0, .shutdown .normal, .shutdownStep, .shutdownStep,
    .shutdownStep, .shutdownStep, .openStep 0, .openStep 0, .openStep 0,
    .openStep 0, .openStep 0]

/-- Its stream is registered with both halves open, and its `SYN` is behind
the `GoAway`. -/
theorem lateOpen_missed :
    (run step (new Config.default .client) lateOpen).shutdown = .done ∧
      (run step (new Config.default .client) lateOpen).session.registry.get 1 =
        some 0 ∧
      (run step (new Config.default .client) lateOpen).session.halvesClosed 0 =
        false ∧
      (run step (new Config.default .client) lateOpen).session.out.queue =
        [.goAway .normal, .syn 1] := by
  decide +kernel

/-- A stream of the peer waits, another is being opened, and the session is
shut down. -/
def timelyRun : List Tick :=
  [.syn 2, .readerStep, .readerStep, .readerStep, .call, .openStep 0,
    .openStep 0, .openStep 0, .openStep 0, .openStep 0, .openStep 0,
    .shutdown .normal, .shutdownStep, .readerStep, .shutdownStep,
    .shutdownStep, .shutdownStep, .shutdownStep, .shutdownStep]

theorem shutdown_reaches_all_timelyRun :
    (run step (new Config.default .client) timelyRun).session.accept.queue =
        [0] ∧
      (run step (new Config.default .client) timelyRun).session.halvesClosed 0 =
        true := by
  have hqueue : (run step (new Config.default .client)
      timelyRun).session.accept.queue = [0] := by
    decide +kernel
  exact ⟨hqueue, (shutdown_reaches_all Config.default .client timelyRun
    (by decide +kernel) (by decide +kernel)).2.1 0 (by rw [hqueue]; decide)⟩

end Shared

end NetMux
