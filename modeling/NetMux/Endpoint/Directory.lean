import NetMux.Endpoint.Machine

/-!
# Who knows which stream

The registry, the accept queue, the closer queue, pending calls of `open()`
and live handles all refer to the streams of a session.  A `Directory` is what
is left of a session when only these references are kept: of each stream its
id, who holds it and whether it was reset.  `DirStep` lists everything that
can happen to a directory, and `Session.Up.take` says that one input of a
session is a path of such steps.  Who owns an entry, how long the accept
queue gets and whom a removal hits are then questions about directories.
-/

namespace NetMux

open Lib Lib.Run

/-! ## Directories -/

/-- What a directory knows of a stream. -/
structure Entry where
  id : StreamId
  owner : Owner
  reset : Bool
  deriving DecidableEq, Repr

def Cell.entry (c : Cell) : Entry := ⟨c.id, c.owner, c.inner.state.reset⟩

/-- The references of a session to its streams. -/
structure Directory where
  table : List Entry
  registry : StreamRegistry
  accept : List Ref
  closer : List StreamId
  /-- The id that the next `open()` gets. -/
  next : StreamId
  closing : Bool

def Session.directory (s : Session) : Directory where
  table := s.streams.map Cell.entry
  registry := s.registry
  accept := s.accept.queue
  closer := s.closer.queue
  next := s.idAlloc.next
  closing := s.isClosing

/-- What a step of a directory is known by. -/
inductive DirEvent where
  /-- `open()` registers a stream. -/
  | opened
  /-- `open()` fails with an id allocated. -/
  | failed
  /-- A `SYN` registers a stream and puts it into the accept queue. -/
  | queued (id : StreamId)
  | connected (n : Ref)
  | abandoned (n : Ref)
  | cancelled (n : Ref)
  | accepted
  /-- A stream is reset, and asks to be removed. -/
  | reset (n : Ref)
  /-- A handle is dropped, and its stream asks to be removed. -/
  | dropped (n : Ref)
  | removed
  | stopped
  | shut
  deriving DecidableEq, Repr

/-- What becomes of a request to the closer: it is queued, or lost once the
session is closing. -/
def Directory.Asks (D : Directory) (id : StreamId) (closer : List StreamId) :
    Prop :=
  closer = D.closer ++ [id] ∨ (D.closing = true ∧ closer = D.closer)

/-- Everything that can happen to a directory. -/
inductive DirStep (role : Role) (limit : Nat) :
    DirEvent → Directory → Directory → Prop where
  | opened {D : Directory} {next : StreamId} {g : StreamRegistry}
      (hopen : D.closing = false)
      (hlen : D.registry.len < limit)
      (hnext : next.toNat = D.next.toNat + 2)
      (hins : D.registry.insert D.next D.table.length = .ok g) :
      DirStep role limit .opened D
        { D with
          table := D.table ++ [⟨D.next, .opening, false⟩]
          registry := g
          next := next }
  | failed {D : Directory} {next : StreamId}
      (hnext : next.toNat = D.next.toNat + 2) :
      DirStep role limit .failed D
        { D with
          table := D.table ++ [⟨D.next, .gone, false⟩]
          next := next }
  | queued {D : Directory} {id : StreamId} {g : StreamRegistry} (hid : id ≠ 0)
      (hown : role.owns id = false) (hlen : D.registry.len < limit)
      (hins : D.registry.insert id D.table.length = .ok g) :
      DirStep role limit (.queued id) D
        { D with
          table := D.table ++ [⟨id, .queued, false⟩]
          registry := g
          accept := D.accept ++ [D.table.length] }
  | connected {D : Directory} {n : Ref} {e : Entry} (he : D.table[n]? = some e)
      (howner : e.owner = .opening) :
      DirStep role limit (.connected n) D
        { D with table := D.table.set n { e with owner := .handle } }
  | abandoned {D : Directory} {n : Ref} {e : Entry} (he : D.table[n]? = some e)
      (howner : e.owner = .opening) :
      DirStep role limit (.abandoned n) D
        { D with
          table := D.table.set n { e with owner := .gone }
          registry := D.registry.remove e.id }
  | cancelled {D : Directory} {n : Ref} {e : Entry} (he : D.table[n]? = some e)
      (howner : e.owner = .opening) :
      DirStep role limit (.cancelled n) D
        { D with table := D.table.set n { e with owner := .gone } }
  | accepted {D : Directory} {n : Ref} {rest : List Ref} {e : Entry}
      (haccept : D.accept = n :: rest) (he : D.table[n]? = some e) :
      DirStep role limit .accepted D
        { D with
          accept := rest
          table := D.table.set n { e with owner := .handle } }
  | skipped {D : Directory} {n : Ref} {rest : List Ref}
      (haccept : D.accept = n :: rest)
      (he : D.table[n]? = none) :
      DirStep role limit .accepted D { D with accept := rest }
  | reset {D : Directory} {n : Ref} {e : Entry} {closer : List StreamId}
      (he : D.table[n]? = some e)
      (hwho : e.owner = .handle ∨ ∃ i, D.registry.get i = some n)
      (hasks : D.Asks e.id closer) :
      DirStep role limit (.reset n) D
        { D with
          table := D.table.set n { e with reset := true }
          closer := closer }
  | dropped {D : Directory} {n : Ref} {e : Entry} {closer : List StreamId}
      (he : D.table[n]? = some e) (howner : e.owner = .handle)
      (hasks : D.Asks e.id closer) :
      DirStep role limit (.dropped n) D
        { D with
          table := D.table.set n { e with owner := .dropped }
          closer := closer }
  | removed {D : Directory} {id : StreamId} {rest : List StreamId}
      (hcloser : D.closer = id :: rest) :
      DirStep role limit .removed D
        { D with closer := rest, registry := D.registry.remove id }
  | stopped {D : Directory} (hclosing : D.closing = true) :
      DirStep role limit .stopped D { D with closer := [] }
  | shut {D : Directory} (hopen : D.closing = false) :
      DirStep role limit .shut D
        { D with registry := ∅, closing := true }

/-! ## What every step keeps -/

/-- The registry points at streams with the ids it has them under. -/
def Directory.Indexed (D : Directory) : Prop :=
  ∀ i n, D.registry.get i = some n →
    ∃ e : Entry, D.table[n]? = some e ∧ e.id = i

/-- The streams of one directory are those of a later one, under the same
references and with the same ids. -/
def Directory.Grows (D D' : Directory) : Prop :=
  ∀ (n : Ref) (e : Entry), D.table[n]? = some e →
    ∃ e' : Entry, D'.table[n]? = some e' ∧ e'.id = e.id

namespace Directory

theorem Grows.refl (D : Directory) : D.Grows D := fun _ e he => ⟨e, he, rfl⟩

theorem grows_set {D : Directory} {n : Ref} {e e' : Entry}
    (he : D.table[n]? = some e) (hid : e'.id = e.id) :
    ∀ (m : Ref) (d : Entry), D.table[m]? = some d →
      ∃ d' : Entry, (D.table.set n e')[m]? = some d' ∧ d'.id = d.id := by
  intro m d hd
  rw [Keyed.getElem?_set_at he]
  split
  · rename_i hm
    subst hm
    rw [he] at hd
    cases hd
    exact ⟨e', rfl, hid⟩
  · exact ⟨d, hd, rfl⟩

theorem grows_append {D : Directory} (e : Entry) :
    ∀ (m : Ref) (d : Entry), D.table[m]? = some d →
      ∃ d' : Entry, (D.table ++ [e])[m]? = some d' ∧ d'.id = d.id := by
  intro m d hd
  obtain ⟨hlt, -⟩ := List.getElem?_eq_some_iff.mp hd
  exact ⟨d, (List.getElem?_append_left hlt).trans hd, rfl⟩

end Directory

variable {role : Role} {limit : Nat} {e : DirEvent} {D D' : Directory}

theorem DirStep.grows (h : DirStep role limit e D D') : D.Grows D' := by
  cases h with
  | opened => exact Directory.grows_append _
  | failed => exact Directory.grows_append _
  | queued => exact Directory.grows_append _
  | connected he => exact Directory.grows_set he rfl
  | abandoned he => exact Directory.grows_set he rfl
  | cancelled he => exact Directory.grows_set he rfl
  | accepted _ he => exact Directory.grows_set he rfl
  | skipped => exact .refl _
  | reset he => exact Directory.grows_set he rfl
  | dropped he => exact Directory.grows_set he rfl
  | removed => exact .refl _
  | stopped => exact .refl _
  | shut => exact .refl _

namespace Directory.Indexed

/-- Entries may leave the registry at any time. -/
theorem mono (h : D.Indexed) (hgrows : D.Grows D')
    (hreg : ∀ i n, D'.registry.get i = some n → D.registry.get i = some n) :
    D'.Indexed := by
  intro i n hget
  obtain ⟨e, he, hid⟩ := h i n (hreg i n hget)
  obtain ⟨e', he', hid'⟩ := hgrows n e he
  exact ⟨e', he', hid'.trans hid⟩

/-- A stream is made and registered. -/
theorem insert (h : D.Indexed) {id : StreamId} {g : StreamRegistry}
    (hins : D.registry.insert id D.table.length = .ok g) {e : Entry}
    (hid : e.id = id) (htable : D'.table = D.table ++ [e])
    (hreg : D'.registry = g) : D'.Indexed := by
  intro i n hget
  rw [hreg, (StreamRegistry.insert_ok hins).2] at hget
  rw [htable]
  split at hget
  · rename_i hi
    cases hget
    exact ⟨e, List.getElem?_concat_length, hid.trans hi.symm⟩
  · obtain ⟨e', he', hid'⟩ := h i n hget
    obtain ⟨d, hd, hdid⟩ := grows_append e n e' he'
    exact ⟨d, hd, hdid.trans hid'⟩

theorem step (h : D.Indexed) (hs : DirStep role limit e D D') :
    D'.Indexed := by
  have hgrows := hs.grows
  cases hs with
  | opened hopen hlen hnext hins => exact h.insert hins rfl rfl rfl
  | queued hid hown hlen hins => exact h.insert hins rfl rfl rfl
  | abandoned he howner =>
      exact h.mono hgrows fun i n hget => (StreamRegistry.get_of_remove hget).1
  | removed hcloser =>
      exact h.mono hgrows fun i n hget => (StreamRegistry.get_of_remove hget).1
  | shut hopen =>
      intro i n hget
      rw [StreamRegistry.get_empty] at hget
      cases hget
  | _ => exact h.mono hgrows fun i n hget => hget

end Directory.Indexed

/-! ## Sessions seen as directories -/

/-- A task or a queue of the session ends only when the session is closing,
and the accept queue never does. -/
structure Session.Up (s : Session) : Prop where
  accept : s.accept.closed = false
  shutdown : s.shutdown = true → s.isClosing = true
  writer : s.writer ≠ .running → s.isClosing = true
  out : s.out.closed = true → s.isClosing = true
  closer : s.closer.closed = true → s.isClosing = true

/-- A session moves on, as its directory sees it. -/
structure Evolves (ok : DirEvent → Directory → Prop) (s s' : Session) :
    Prop where
  up : s'.Up
  role : s'.role = s.role
  config : s'.config = s.config
  path : Path (DirStep s.role s.config.maxStreams) ok s.directory s'.directory

namespace Evolves

variable {ok : DirEvent → Directory → Prop} {s s' s'' : Session}

theorem refl (h : s.Up) : Evolves ok s s := ⟨h, rfl, rfl, .refl _⟩

theorem trans (h₁ : Evolves ok s s') (h₂ : Evolves ok s' s'') :
    Evolves ok s s'' where
  up := h₂.up
  role := h₂.role.trans h₁.role
  config := h₂.config.trans h₁.config
  path := by
    have hpath := h₂.path
    rw [h₁.role, h₁.config] at hpath
    exact h₁.path.trans hpath

/-- Nothing that a directory sees. -/
theorem unseen (hup : s'.Up) (hrole : s'.role = s.role)
    (hconfig : s'.config = s.config) (hdir : s'.directory = s.directory) :
    Evolves ok s s' where
  up := hup
  role := hrole
  config := hconfig
  path := hdir ▸ .refl _

/-- One step. -/
theorem one (hup : s'.Up) (hrole : s'.role = s.role)
    (hconfig : s'.config = s.config) {e : DirEvent}
    (hok : ok e s.directory)
    (h : DirStep s.role s.config.maxStreams e s.directory s'.directory) :
    Evolves ok s s' :=
  ⟨hup, hrole, hconfig, .single hok h⟩

end Evolves

namespace Session

variable {ok : DirEvent → Directory → Prop} {s : Session} {n : Ref} {c : Cell}

theorem up_new (cfg : Config) (role : Role) : (new cfg role).Up where
  accept := rfl
  shutdown := fun h => nomatch h
  writer := fun h => absurd rfl h
  out := fun h => nomatch h
  closer := fun h => nomatch h

theorem directory_at (hc : s.streams[n]? = some c) :
    s.directory.table[n]? = some c.entry := by
  show (s.streams.map Cell.entry)[n]? = _
  rw [List.getElem?_map, hc]
  rfl

/-! ### One stream moves on -/

theorem Up.update (h : s.Up) (n : Ref) (c : Cell) (emit : Emit) :
    (s.update n c emit).Up where
  accept := h.accept
  shutdown := h.shutdown
  writer := h.writer
  out := fun hclosed => h.out ((Chan.sendAll_closed _ _).symm.trans hclosed)
  closer := fun hclosed =>
    h.closer ((Chan.sendAll_closed _ _).symm.trans hclosed)

theorem Up.enqueue (h : s.Up) (f : Frame) : (s.enqueue f).Up :=
  { h with out := fun hclosed => h.out ((Chan.send_closed _ _).symm.trans hclosed) }

theorem directory_update (n : Ref) (c : Cell) (emit : Emit) :
    (s.update n c emit).directory =
      { s.directory with
        table := s.directory.table.set n c.entry
        closer := (s.closer.sendAll emit.closes).queue } := by
  simp [directory, update, List.map_set]

/-- A stream whose entry stays as it is. -/
theorem directory_update_same {c' : Cell} {emit : Emit}
    (hc : s.streams[n]? = some c) (hentry : c'.entry = c.entry)
    (hcloses : emit.closes = []) :
    (s.update n c' emit).directory = s.directory := by
  have htable : (s.streams.set n c').map Cell.entry =
      s.streams.map Cell.entry := Keyed.map_key_set hc hentry
  rw [update, hcloses, Chan.sendAll_nil, directory, htable]
  rfl

/-- The request of a stream to be removed. -/
theorem Up.asks (h : s.Up) (id : StreamId) :
    s.directory.Asks id (s.closer.sendAll [id]).queue := by
  rw [Chan.sendAll_queue]
  cases hclosed : s.closer.closed with
  | false => exact .inl rfl
  | true => exact .inr ⟨h.closer hclosed, List.append_nil _⟩

end Session

/-- An operation left the stream's id alone, and did not reset it or ask for
its removal. -/
def StreamInner.Kept (s s' : StreamInner) (closes : List StreamId) : Prop :=
  s'.id = s.id ∧ s'.state.reset = s.state.reset ∧ closes = []

/-- An operation left the stream's id alone; a stream that it reset asks to be
removed. -/
def StreamInner.Touched (s s' : StreamInner) (closes : List StreamId) : Prop :=
  s.Kept s' closes ∨
    (s'.id = s.id ∧ s'.state.reset = true ∧ closes = [s.id])

namespace StreamInner

theorem kept_pollRead (s : StreamInner) (remaining : Nat) :
    s.Kept (s.pollRead remaining).2.1 (s.pollRead remaining).2.2.closes := by
  rw [pollRead_eq]
  dsimp only
  repeat' split
  all_goals exact ⟨rfl, rfl, rfl⟩

theorem kept_pollWrite (s : StreamInner) (outOpen : Bool) (buf : Bytes) :
    s.Kept (s.pollWrite outOpen buf).2.1
      (s.pollWrite outOpen buf).2.2.closes := by
  rw [pollWrite_eq]
  repeat' split
  all_goals exact ⟨rfl, rfl, rfl⟩

theorem kept_localFin (s : StreamInner) :
    s.Kept s.localFin.1 s.localFin.2.closes := by
  unfold localFin
  dsimp only
  repeat' split
  all_goals exact ⟨rfl, rfl, rfl⟩

theorem touched_localReset (s : StreamInner) :
    s.Touched s.localReset.1 s.localReset.2.closes := by
  unfold localReset StreamState.markReset
  dsimp only
  split
  · rename_i hagain
    refine .inl ⟨rfl, ?_, rfl⟩
    simpa using hagain.symm
  · exact .inr ⟨rfl, rfl, rfl⟩

/-- Dropping the handle asks for the removal and does not reset. -/
theorem onUserDrop_asks (s : StreamInner) :
    s.onUserDrop.1.id = s.id ∧
      s.onUserDrop.1.state.reset = s.state.reset ∧
      s.onUserDrop.2.closes = [s.id] := by
  unfold onUserDrop
  split
  · obtain ⟨hid, hreset, hcloses⟩ := s.kept_localFin
    refine ⟨hid, hreset, ?_⟩
    show s.localFin.2.closes ++ [s.id] = _
    rw [hcloses]
    rfl
  · exact ⟨rfl, rfl, rfl⟩

/-- What a `Data` frame does to its stream. -/
theorem touched_deliverTo (s : StreamInner) (flags : Flags) (payload : Bytes) :
    s.Touched (Session.deliverTo s flags payload).2.1
      (Session.deliverTo s flags payload).2.2.closes := by
  have hacked : ∀ b : Bool,
      (if b then s.markAcked else s).id = s.id ∧
        (if b then s.markAcked else s).state = s.state := by
    intro b
    cases b <;> exact ⟨rfl, rfl⟩
  obtain ⟨hid, hstate⟩ := hacked (flags.contains Flags.ack)
  unfold Session.deliverTo
  dsimp only
  generalize (if flags.contains Flags.ack then s.markAcked else s) = t
    at hid hstate
  split
  · rcases t.touched_localReset with ⟨hid', hreset, hcloses⟩ |
        ⟨hid', hreset, hcloses⟩
    · exact .inl ⟨hid'.trans hid, by rw [hreset, hstate], hcloses⟩
    · exact .inr ⟨hid'.trans hid, hreset, by rw [hcloses, hid]⟩
  · have hpush : (if payload.isEmpty then t else t.pushData payload).id = s.id ∧
        (if payload.isEmpty then t else t.pushData payload).state = s.state := by
      split
      · exact ⟨hid, hstate⟩
      · exact ⟨(t.pushData_same payload).id.trans hid,
          (t.pushData_state payload).trans hstate⟩
    generalize (if payload.isEmpty then t else t.pushData payload) = u at hpush
    have hfin : (if flags.contains Flags.fin then u.remoteFin else u).id = s.id ∧
        (if flags.contains Flags.fin then u.remoteFin else u).state.reset =
          s.state.reset := by
      have hreset : u.state.reset = s.state.reset := by rw [hpush.2]
      split
      · exact ⟨hpush.1, hreset⟩
      · exact ⟨hpush.1, hreset⟩
    generalize (if flags.contains Flags.fin then u.remoteFin else u) = v at hfin
    split
    · exact .inr ⟨hfin.1, rfl, by rw [← hfin.1]; rfl⟩
    · exact .inl ⟨hfin.1, hfin.2, rfl⟩

end StreamInner

namespace Session

variable {ok : DirEvent → Directory → Prop} {s : Session} {n : Ref} {c : Cell}

/-- An operation that the directory does not see. -/
theorem Up.keep (h : s.Up) (hc : s.streams[n]? = some c) {c' : Cell}
    {emit : Emit} (howner : c'.owner = c.owner)
    (hk : c.inner.Kept c'.inner emit.closes) :
    Evolves ok s (s.update n c' emit) := by
  refine .unseen (h.update n c' emit) rfl rfl
    (directory_update_same hc ?_ hk.2.2)
  simp only [Cell.entry, Cell.id, Entry.mk.injEq]
  exact ⟨hk.1, howner, hk.2.1⟩

/-- An operation that may reset the stream. -/
theorem Up.touch (h : s.Up) (hc : s.streams[n]? = some c) {c' : Cell}
    {emit : Emit} (howner : c'.owner = c.owner)
    (ht : c.inner.Touched c'.inner emit.closes)
    (hwho : c.owner = .handle ∨ ∃ i, s.registry.get i = some n)
    (hok : c'.inner.state.reset = true → ok (.reset n) s.directory) :
    Evolves ok s (s.update n c' emit) := by
  rcases ht with hk | ⟨hid, hreset, hasks⟩
  · exact h.keep hc howner hk
  · have hentry : c'.entry = { c.entry with reset := true } := by
      simp only [Cell.entry, Cell.id, Entry.mk.injEq]
      exact ⟨hid, howner, hreset⟩
    refine .one (h.update n c' emit) rfl rfl (hok hreset) ?_
    rw [directory_update, hentry, hasks]
    exact .reset (directory_at hc) hwho (h.asks c.id)

/-! ### Shutting down -/

theorem Up.initiateShutdown (h : s.Up) (code : ErrorCode) :
    (s.initiateShutdown code).Up := by
  cases hcl : s.isClosing with
  | true =>
      rw [initiateShutdown_again hcl]
      exact h
  | false =>
      rw [initiateShutdown_eq hcl]
      exact
        { accept := h.accept
          shutdown := fun _ => rfl
          writer := fun _ => rfl
          out := fun _ => rfl
          closer := fun _ => rfl }

theorem directory_initiateShutdown (hcl : s.isClosing = false)
    (code : ErrorCode) :
    (s.initiateShutdown code).directory =
      { s.directory with registry := ∅, closing := true } := by
  have htable : (Keyed.modifyAll force s.streams s.registry.drain.1).map
      Cell.entry = s.streams.map Cell.entry :=
    Keyed.map_key_modifyAll force_idem (fun _ => rfl) _
  rw [initiateShutdown_eq hcl, directory, htable]
  rfl

/-- The streams' entries do not change in a shutdown. -/
theorem table_initiateShutdown (s : Session) (code : ErrorCode) :
    (s.initiateShutdown code).directory.table = s.directory.table ∧
      (s.initiateShutdown code).directory.accept = s.directory.accept := by
  cases hcl : s.isClosing with
  | true => rw [initiateShutdown_again hcl]; exact ⟨rfl, rfl⟩
  | false => rw [directory_initiateShutdown hcl]; exact ⟨rfl, rfl⟩

theorem Up.shut (h : s.Up) (hok : ok .shut s.directory) (code : ErrorCode) :
    Evolves ok s (s.initiateShutdown code) := by
  cases hcl : s.isClosing with
  | true =>
      rw [initiateShutdown_again hcl]
      exact .refl h
  | false =>
      refine .one (h.initiateShutdown code) ?_ ?_ hok ?_
      · rw [initiateShutdown_eq hcl]
      · rw [initiateShutdown_eq hcl]
      · rw [directory_initiateShutdown hcl]
        exact .shut hcl

/-! ### Calls of the users -/

theorem Up.openStart (h : s.Up) (hopened : ok .opened s.directory)
    (hfailed : ok .failed s.directory) : Evolves ok s s.openStart.2 := by
  unfold Session.openStart
  split
  · exact .refl h
  · rename_i hopen
    simp only [Bool.or_eq_true, not_or, Bool.not_eq_true] at hopen
    split
    · exact .refl h
    · rename_i hlen
      split
      · exact .refl h
      · rename_i id idAlloc halloc
        obtain ⟨rfl, hnext⟩ := StreamIdAllocator.allocate_some halloc
        dsimp only
        split
        · refine .one { h with } rfl rfl hfailed ?_
          have hdir : DirStep s.role s.config.maxStreams .failed s.directory _ :=
            .failed hnext
          simpa [directory, Cell.new, Cell.entry, Cell.id, StreamInner.new,
            StreamState.new] using hdir
        · rename_i g hins
          have hout : s.out.closed = false := by
            by_contra hclosed
            rw [Bool.not_eq_false] at hclosed
            exact absurd (h.out hclosed) (by rw [hopen.1]; decide)
          rw [hout, if_neg (by decide)]
          have hup : ({ s with out := s.out.send (.syn s.idAlloc.next) } :
              Session).Up := h.enqueue _
          refine .one { hup with } rfl rfl hopened ?_
          have hdir : DirStep s.role s.config.maxStreams .opened s.directory _ :=
            .opened hopen.1 (Nat.not_le.mp hlen) hnext
              (by simpa [directory] using hins)
          simpa [directory, Cell.new, Cell.entry, Cell.id, StreamInner.new,
            StreamState.new] using hdir

/-- A pending `open()` gets its handle or is given up. -/
theorem Up.openPoll (h : s.Up) (hok : ∀ D, ok (.connected n) D)
    (hok' : ∀ D, ok (.abandoned n) D) : Evolves ok s (s.openPoll n).2 := by
  unfold Session.openPoll
  split
  · exact .refl h
  · rename_i c hpending
    obtain ⟨hc, howner⟩ := pendingOpen_some hpending
    split
    · exact .refl h
    · refine .one { h with } rfl rfl (hok _) ?_
      have hdir : DirStep s.role s.config.maxStreams (.connected n)
          s.directory _ := .connected (directory_at hc) howner
      simpa [directory, List.map_set, Cell.entry, Cell.id] using hdir
    · refine .one { h with } rfl rfl (hok' _) ?_
      have hdir : DirStep s.role s.config.maxStreams (.abandoned n)
          s.directory _ := .abandoned (directory_at hc) howner
      simpa [directory, abandonOpen, List.map_set, Cell.entry, Cell.id]
        using hdir

theorem Up.openTimeout (h : s.Up) (hok : ∀ D, ok (.connected n) D)
    (hok' : ∀ D, ok (.abandoned n) D) : Evolves ok s (s.openTimeout n).2 := by
  unfold Session.openTimeout
  split
  · exact .refl h
  · rename_i c hpending
    obtain ⟨hc, howner⟩ := pendingOpen_some hpending
    split
    · exact h.openPoll hok hok'
    · have hup := h.enqueue (.rst c.id)
      refine .one { hup with } rfl rfl (hok' _) ?_
      have hdir : DirStep s.role s.config.maxStreams (.abandoned n)
          s.directory _ := .abandoned (directory_at hc) howner
      simpa [directory, abandonOpen, Session.enqueue, List.map_set,
        Cell.entry, Cell.id] using hdir

theorem Up.openCancel (h : s.Up) (hok : ok (.cancelled n) s.directory) :
    Evolves ok s (s.openCancel n) := by
  unfold Session.openCancel
  split
  · exact .refl h
  · rename_i c hpending
    obtain ⟨hc, howner⟩ := pendingOpen_some hpending
    refine .one { h with } rfl rfl hok ?_
    have hdir : DirStep s.role s.config.maxStreams (.cancelled n)
        s.directory _ := .cancelled (directory_at hc) howner
    simpa [directory, List.map_set, Cell.entry, Cell.id] using hdir

theorem Up.acceptPoll (h : s.Up) (hok : ∀ D, ok .accepted D) :
    Evolves ok s s.acceptPoll.2 := by
  unfold Session.acceptPoll
  split
  · exact .refl h
  · rename_i hopen
    rw [Bool.not_eq_true] at hopen
    split
    · exact .refl h
    · rename_i n rest hqueue
      have hout : s.out.closed = false := by
        by_contra hclosed
        rw [Bool.not_eq_false] at hclosed
        exact absurd (h.out hclosed) (by rw [hopen]; decide)
      dsimp only
      split
      · rename_i hnone
        refine .one { h with } rfl rfl (hok _) ?_
        exact .skipped hqueue (by simp [directory, hnone])
      · rename_i c hc
        rw [hout, if_neg (by decide)]
        have hup := h.enqueue (.ack c.id)
        refine .one { hup with } rfl rfl (hok _) ?_
        have hdir : DirStep s.role s.config.maxStreams .accepted s.directory _ :=
          .accepted hqueue (directory_at hc)
        simpa [directory, List.map_set, Cell.entry, Cell.id] using hdir

theorem Up.pollRead (h : s.Up) (n : Ref) (remaining : Nat) :
    Evolves ok s (s.pollRead n remaining) := by
  unfold Session.pollRead
  split
  · exact .refl h
  · rename_i c hc
    have hkept := c.inner.kept_pollRead remaining
    exact h.keep (handleAt_some hc).1 rfl hkept

theorem Up.pollWrite (h : s.Up) (n : Ref) (buf : Bytes) :
    Evolves ok s (s.pollWrite n buf) := by
  unfold Session.pollWrite
  split
  · exact .refl h
  · rename_i c hc
    have hkept := c.inner.kept_pollWrite (!s.out.closed) buf
    exact h.keep (handleAt_some hc).1 rfl hkept

theorem Up.pollShutdown (h : s.Up) (n : Ref) :
    Evolves ok s (s.pollShutdown n) := by
  unfold Session.pollShutdown
  split
  · exact .refl h
  · rename_i c hc
    exact h.keep (handleAt_some hc).1 rfl c.inner.kept_localFin

theorem Up.reset (h : s.Up) (n : Ref)
    (hok : (∃ c, (s.reset n).streams[n]? = some c ∧
      c.inner.state.reset = true) → ok (.reset n) s.directory) :
    Evolves ok s (s.reset n) := by
  unfold Session.reset at hok ⊢
  split
  · exact .refl h
  · rename_i c hc
    obtain ⟨hat, howner⟩ := handleAt_some hc
    refine h.touch hat rfl c.inner.touched_localReset (.inl howner)
      fun hreset => hok ⟨_, ?_, hreset⟩
    rw [hc]
    exact List.getElem?_set_self (List.getElem?_eq_some_iff.mp hat).1

theorem Up.dropHandle (h : s.Up) (n : Ref) (hok : ok (.dropped n) s.directory) :
    Evolves ok s (s.dropHandle n) := by
  unfold Session.dropHandle
  split
  · exact .refl h
  · rename_i c hc
    obtain ⟨hat, howner⟩ := handleAt_some hc
    obtain ⟨hid, hreset, hcloses⟩ := c.inner.onUserDrop_asks
    refine .one (h.update n _ _) rfl rfl hok ?_
    rw [directory_update, hcloses]
    have hdir : DirStep s.role s.config.maxStreams (.dropped n)
        s.directory _ := .dropped (directory_at hat) howner (h.asks c.id)
    simpa [Cell.entry, Cell.id, hid, hreset] using hdir

/-! ### Tasks -/

theorem Up.writerNext (h : s.Up) (hok : ∀ D, ok .shut D) :
    Evolves ok s s.writerNext.2 := by
  have hpop : ∀ rest, Evolves ok s { s with out := { s.out with queue := rest } } :=
    fun rest => .unseen { h with } rfl rfl rfl
  unfold Session.writerNext
  split
  · exact .refl h
  · rename_i f rest _ _
    dsimp only
    split
    · exact hpop rest
    · have hshut := (hpop rest).up.shut (hok _) .internalError
      have hclosing := initiateShutdown_isClosing
        { s with out := { s.out with queue := rest } } .internalError
      exact (hpop rest).trans (hshut.trans (.unseen
        { hshut.up with writer := fun _ => hclosing } rfl rfl rfl))
  · rename_i hphase _
    have hclosing : s.isClosing = true := h.writer (by rw [hphase]; decide)
    exact .unseen { h with writer := fun _ => hclosing } rfl rfl rfl
  · rename_i f rest hphase _
    have hclosing : s.isClosing = true := h.writer (by rw [hphase]; decide)
    dsimp only
    split
    · exact hpop rest
    · exact .unseen { h with writer := fun _ => hclosing } rfl rfl rfl
  · rename_i hphase
    have hclosing : s.isClosing = true := h.writer (by rw [hphase]; decide)
    exact .unseen
      { h with writer := fun _ => hclosing, out := fun _ => hclosing }
      rfl rfl rfl
  · exact .refl h

theorem Up.writerStop (h : s.Up) : Evolves ok s s.writerStop := by
  unfold Session.writerStop
  split
  · rename_i hstop
    exact .unseen { h with writer := fun _ => h.shutdown hstop.2 } rfl rfl rfl
  · exact .refl h

theorem Up.closerNext (h : s.Up) (hok : ok .removed s.directory) :
    Evolves ok s s.closerNext := by
  unfold Session.closerNext
  split
  · exact .refl h
  · rename_i id rest hqueue
    exact .one { h with } rfl rfl hok (.removed hqueue)

theorem Up.closerStop (h : s.Up) (hok : ∀ D, ok .stopped D) :
    Evolves ok s s.closerStop := by
  unfold Session.closerStop
  split
  · rename_i hstop
    exact .one { h with closer := fun _ => h.shutdown hstop } rfl rfl (hok _)
      (.stopped (h.shutdown hstop))
  · exact .refl h

theorem Up.readerStop (h : s.Up) : Evolves ok s s.readerStop := by
  unfold Session.readerStop
  split
  · exact .unseen { h with } rfl rfl rfl
  · exact .refl h

theorem Up.keepaliveTick (h : s.Up) : Evolves ok s s.keepaliveTick := by
  unfold Session.keepaliveTick
  split
  · dsimp only
    split
    · exact .unseen { h with } rfl rfl rfl
    · have hup := h.enqueue (.mkPing (s.keepalive.nonce + 1))
      exact .unseen { hup with } rfl rfl rfl
  · exact .refl h

theorem Up.keepalivePong (h : s.Up) : Evolves ok s s.keepalivePong := by
  unfold Session.keepalivePong
  repeat' split
  all_goals first
    | exact .refl h
    | exact .unseen { h with } rfl rfl rfl

theorem Up.keepaliveTimeout (h : s.Up) (hok : ∀ D, ok .shut D) :
    Evolves ok s s.keepaliveTimeout := by
  unfold Session.keepaliveTimeout
  split
  · have hshut := h.shut (hok _) .timeout
    exact hshut.trans (.unseen { hshut.up with } rfl rfl rfl)
  · exact .refl h

theorem Up.keepaliveStop (h : s.Up) : Evolves ok s s.keepaliveStop := by
  unfold Session.keepaliveStop
  split
  · exact .unseen { h with } rfl rfl rfl
  · exact .refl h

/-! ### Frames -/

theorem Up.readerFail (h : s.Up) (hok : ∀ D, ok .shut D) (e : Error) :
    Evolves ok s (s.readerFail e) := by
  have hshut := h.shut (hok _) (errorCodeOf e)
  exact hshut.trans (.unseen { hshut.up with } rfl rfl rfl)

theorem Up.accepting (h : s.Up) {id : StreamId} {g : StreamRegistry}
    (hid : id ≠ 0) (hown : s.role.owns id = false)
    (hlen : s.registry.len < s.config.maxStreams)
    (hins : s.registry.insert id s.streams.length = .ok g)
    (hok : ok (.queued id) s.directory) :
    Evolves ok s (s.accepting id g) := by
  have hup : (s.accepting id g).Up :=
    { h with accept := (Chan.send_closed _ _).trans h.accept }
  refine .one hup rfl rfl hok ?_
  have hdir : DirStep s.role s.config.maxStreams (.queued id) s.directory _ :=
    .queued hid hown hlen (by simpa [directory] using hins)
  simpa [directory, Session.accepting, Chan.send, h.accept, Cell.new,
    Cell.entry, Cell.id, StreamInner.new, StreamState.new] using hdir

theorem handleStream_accept (s : Session) (id : StreamId) (flags : Flags)
    (payload : Bytes) :
    (s.handleStream id flags payload).2.accept = s.accept := by
  unfold handleStream
  split
  · split <;> rfl
  · rfl

theorem Up.handleStream (h : s.Up) (id : StreamId) (flags : Flags)
    (payload : Bytes)
    (hok : ∀ n c, s.registry.get id = some n →
      (s.handleStream id flags payload).2.streams[n]? = some c →
      c.inner.state.reset = true → ok (.reset n) s.directory) :
    Evolves ok s (s.handleStream id flags payload).2 := by
  unfold Session.handleStream at hok ⊢
  cases hf : s.find id with
  | none =>
      dsimp only
      split
      · exact .unseen (h.enqueue _) rfl rfl rfl
      · exact .refl h
  | some p =>
      obtain ⟨n, c⟩ := p
      obtain ⟨hget, hc⟩ := find_some hf
      rw [hf] at hok
      refine h.touch hc rfl (c.inner.touched_deliverTo flags payload)
        (.inr ⟨id, hget⟩) fun hreset => hok n _ hget ?_ hreset
      exact List.getElem?_set_self (List.getElem?_eq_some_iff.mp hc).1

/-- The stream an input may make ask for its removal: the one whose handle is
reset or dropped, or the one a `Data` frame is delivered to. -/
def requester (s : Session) : Input → Option Ref
  | .act (.reset n) => some n
  | .act (.drop n) => some n
  | .frame (.data id flags _) =>
      if flags.contains Flags.syn then
        match s.handleSyn id with
        | .inl _ => none
        | .inr s' => s'.registry.get id
      else s.registry.get id
  | _ => none

/-- The events that an input can cause. -/
def Causes (s : Session) (x : Input) : DirEvent → Directory → Prop
  | .queued id, D =>
      D = s.directory ∧ s.readerDone = false ∧ s.admitsSyn id = true ∧
        ∃ flags payload, x = .frame (.data id flags payload) ∧
          flags.contains Flags.syn = true
  | .cancelled n, D => D = s.directory ∧ x = .act (.openCancel n)
  | .accepted, _ => x = .act .accept
  | .reset n, D =>
      s.requester x = some n ∧ D.accept = (s.take x).directory.accept ∧
        ∃ e, (s.take x).directory.table[n]? = some e ∧ e.reset = true
  | .dropped n, _ => x = .act (.drop n)
  | .removed, D => D = s.directory ∧ x = .act .closerNext
  | .stopped, _ => x = .act .closerStop
  | _, _ => True

/-- What the reader makes of a dispatched frame. -/
theorem Up.settle {p : Except Error Unit × Session}
    (h : Evolves ok s p.2) (hok : ∀ D, ok .shut D) :
    Evolves ok s (settle p) := by
  obtain ⟨result, s'⟩ := p
  cases result with
  | ok u => exact h
  | error e => exact h.trans (h.up.readerFail hok e)

theorem settle_table (p : Except Error Unit × Session) :
    (settle p).directory.table = p.2.directory.table ∧
      (settle p).directory.accept = p.2.directory.accept := by
  obtain ⟨result, s'⟩ := p
  cases result with
  | ok u => exact ⟨rfl, rfl⟩
  | error e => exact s'.table_initiateShutdown (errorCodeOf e)

theorem Up.handleData (h : s.Up) {id : StreamId} {flags : Flags}
    {payload : Bytes} (hdone : s.readerDone = false) :
    Evolves (s.Causes (.frame (.data id flags payload))) s
      (s.handleData id flags payload).2 := by
  have htake : s.take (.frame (.data id flags payload)) =
      Session.settle (s.handleData id flags payload) := by
    show (if s.readerDone then s else _) = _
    rw [hdone]
    rfl
  obtain ⟨htable, haccept⟩ := settle_table (s.handleData id flags payload)
  rw [← htake] at htable haccept
  unfold Session.handleData at htable haccept ⊢
  by_cases hid : id = 0
  · rw [if_pos hid]
    exact .refl h
  rw [if_neg hid] at htable haccept ⊢
  by_cases hsyn : flags.contains Flags.syn = true
  · rw [if_pos hsyn] at htable haccept ⊢
    rcases s.handleSyn_cases id with ⟨e, heq⟩ | heq |
        ⟨g, hown, hlen, hins, ⟨hgone, -⟩ | ⟨-, heq⟩⟩
    · rw [heq]
      exact .refl h
    · rw [heq]
      exact .unseen (h.enqueue _) rfl rfl rfl
    · rw [h.accept] at hgone
      cases hgone
    · rw [heq] at htable haccept ⊢
      have hnew : Evolves (s.Causes (.frame (.data id flags payload))) s
          (s.accepting id g) :=
        h.accepting hid hown hlen hins
          ⟨rfl, hdone, (s.admitsSyn_iff id).mpr ⟨hid, _, heq⟩, flags, payload,
            rfl, hsyn⟩
      refine hnew.trans (hnew.up.handleStream id flags payload ?_)
      intro n c hget hc hreset
      refine ⟨?_, ?_, c.entry, ?_, hreset⟩
      · simp only [requester, hsyn, if_true, heq]
        exact hget
      · rw [haccept]
        exact (congrArg Chan.queue (handleStream_accept _ id flags payload)).symm
      · rw [htable]
        exact directory_at hc
  · rw [if_neg hsyn] at htable haccept ⊢
    refine h.handleStream id flags payload ?_
    intro n c hget hc hreset
    refine ⟨?_, ?_, c.entry, ?_, hreset⟩
    · simp only [requester, hsyn]
      exact hget
    · rw [haccept]
      exact (congrArg Chan.queue (handleStream_accept _ id flags payload)).symm
    · rw [htable]
      exact directory_at hc

theorem Up.dispatch (h : s.Up) (f : Frame) (hdone : s.readerDone = false) :
    Evolves (s.Causes (.frame f)) s (s.dispatch f).2 := by
  cases f with
  | data id flags payload => exact h.handleData hdone
  | windowUpdate id flags delta =>
      show Evolves _ s (s.handleWindowUpdate id delta)
      unfold handleWindowUpdate
      split
      · exact .refl h
      · rename_i n c hf
        exact h.keep (find_some hf).2 rfl ⟨rfl, rfl, rfl⟩
  | ping flags nonce =>
      show Evolves _ s (s.handlePing flags nonce)
      unfold handlePing
      split
      · exact .unseen { h with } rfl rfl rfl
      · exact .unseen (h.enqueue _) rfl rfl rfl
  | goAway code =>
      have hgone : Evolves (s.Causes (.frame (.goAway code))) s
          s.notePeerGone := .unseen { h with } rfl rfl rfl
      exact hgone.trans (hgone.up.shut trivial code)

theorem Up.perform (h : s.Up) (a : Act) :
    Evolves (s.Causes (.act a)) s (s.perform a) := by
  cases a with
  | openStart => exact h.openStart trivial trivial
  | openPoll n => exact h.openPoll (fun _ => trivial) fun _ => trivial
  | openTimeout n => exact h.openTimeout (fun _ => trivial) fun _ => trivial
  | openCancel n => exact h.openCancel ⟨rfl, rfl⟩
  | accept => exact h.acceptPoll fun _ => rfl
  | pollRead n remaining => exact h.pollRead n remaining
  | pollWrite n buf => exact h.pollWrite n buf
  | shutdown n => exact h.pollShutdown n
  | reset n =>
      refine h.reset n ?_
      rintro ⟨c, hc, hreset⟩
      refine ⟨rfl, ?_, c.entry, directory_at hc, hreset⟩
      show s.accept.queue = (s.reset n).accept.queue
      unfold Session.reset
      split <;> rfl
  | drop n => exact h.dropHandle n rfl
  | close => exact h.shut trivial .normal
  | writerNext => exact h.writerNext fun _ => trivial
  | writerStop => exact h.writerStop
  | readerNext => exact .refl h
  | readerStop => exact h.readerStop
  | readerEof => exact .refl h
  | closerNext => exact h.closerNext ⟨rfl, rfl⟩
  | closerStop => exact h.closerStop fun _ => rfl
  | keepaliveTick => exact h.keepaliveTick
  | keepalivePong => exact h.keepalivePong
  | keepaliveTimeout => exact h.keepaliveTimeout fun _ => trivial
  | keepaliveStop => exact h.keepaliveStop

/-- **One input of a session is a path of its directory.** -/
theorem Up.take (h : s.Up) (x : Input) : Evolves (s.Causes x) s (s.take x) := by
  cases x with
  | act a => exact h.perform a
  | frame f =>
      show Evolves _ s (if s.readerDone then s else _)
      split
      · exact .refl h
      · rename_i hdone
        exact Up.settle (h.dispatch f (Bool.not_eq_true _ ▸ hdone))
          fun _ => trivial
  | garbage e =>
      show Evolves _ s (if s.readerDone then s else _)
      split
      · exact .refl h
      · exact h.readerFail (fun _ => trivial) e
  | eof =>
      show Evolves _ s (if s.readerDone then s else _)
      split
      · exact .refl h
      · have hshut : Evolves (s.Causes .eof) s (s.initiateShutdown .normal) :=
          h.shut trivial .normal
        exact hshut.trans (.unseen { hshut.up with } rfl rfl rfl)

/-- **Invariant rule for directories**: what every step of a directory that
the input can cause preserves holds of the directory after every run. -/
theorem directory_invariant {cfg : Config} {role : Role}
    {I : Directory → Prop} {P : Session → Input → Prop}
    (hnew : I (new cfg role).directory)
    (hstep : ∀ s x, s.Up → s.role = role → s.config = cfg → I s.directory →
      P s x → ∀ e D D', I D → s.Causes x e D →
        DirStep role cfg.maxStreams e D D' → I D')
    {xs : List Input} (hrun : Along take P (new cfg role) xs) :
    I (run take (new cfg role) xs).directory := by
  refine (run_invariant take
    (I := fun s => s.Up ∧ s.role = role ∧ s.config = cfg ∧ I s.directory)
    ?_ xs _ ⟨up_new cfg role, rfl, rfl, hnew⟩ hrun).2.2.2
  rintro s x ⟨hup, hrole, hconfig, hI⟩ hP
  have hev := hup.take x
  have hpath := hev.path
  rw [hrole, hconfig] at hpath
  exact ⟨hev.up, hev.role.trans hrole, hev.config.trans hconfig,
    hpath.invariant (hstep s x hup hrole hconfig hI hP) hI⟩

end Session

end NetMux
