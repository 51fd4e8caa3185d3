import NetMux.Endpoint.Directory

/-!
# Who answers for an entry of the registry

An entry of the registry is removed by whoever answers for its stream: a
pending `open()` that fails, the closer when the stream has asked for it, and
before that the handle that will ask when it is dropped, or the accept queue
that will make the handle.  A future of `open()` that is dropped while it
waits does none of this and runs no code at all, so its entry stays behind.
Without such a cancellation no entry of an open session is without an owner.

A request to the closer carries an id and nothing else.  As long as the peer
does not open an id again before its former stream is let go, that is enough:
what the closer removes is the stream that asked.  A peer that opens an id
while an old request for it is still queued makes the closer remove the new
stream.
-/

namespace NetMux

open Lib Lib.Run

/-! ## Every entry has an owner -/

namespace Directory

/-- Someone answers for an entry: a pending `open()`, a handle, the accept
queue, or a request that waits for the closer. -/
def Owned (D : Directory) (i : StreamId) (n : Ref) : Prop :=
  (∃ e : Entry, D.table[n]? = some e ∧
    (e.owner = .opening ∨ e.owner = .handle)) ∨
  n ∈ D.accept ∨ i ∈ D.closer

/-- Every entry of an open session has an owner. -/
structure Tended (D : Directory) : Prop where
  indexed : D.Indexed
  owned : D.closing = false → ∀ i n, D.registry.get i = some n → D.Owned i n

variable {role : Role} {limit : Nat} {ev : DirEvent} {D D' : Directory}

/-- An owner stays when its stream, its place in the accept queue and its
request do. -/
theorem Owned.mono {i : StreamId} {n : Ref} (h : D.Owned i n)
    (htable : ∀ e : Entry, D.table[n]? = some e → D'.table[n]? = some e)
    (haccept : n ∈ D.accept → n ∈ D'.accept)
    (hcloser : i ∈ D.closer → i ∈ D'.closer) : D'.Owned i n := by
  rcases h with ⟨e, he, howner⟩ | hn | hi
  · exact .inl ⟨e, htable e he, howner⟩
  · exact .inr (.inl (haccept hn))
  · exact .inr (.inr (hcloser hi))

theorem Asks.mem {id : StreamId} {closer : List StreamId}
    (h : D.Asks id closer) {i : StreamId} (hi : i ∈ D.closer) :
    i ∈ closer := by
  rcases h with rfl | ⟨-, rfl⟩
  · exact List.mem_append_left _ hi
  · exact hi

/-- One entry changes hands. -/
theorem Tended.handOver (h : D.Tended) (hopen : D.closing = false) {n : Ref}
    {e e' : Entry} (he : D.table[n]? = some e) {i : StreamId} {m : Ref}
    (hget : D.registry.get i = some m)
    (htable : D'.table = D.table.set n e')
    (haccept : m ≠ n → m ∈ D.accept → m ∈ D'.accept)
    (hcloser : i ∈ D.closer → i ∈ D'.closer)
    (hn : m = n → i = e.id → D'.Owned i m) : D'.Owned i m := by
  by_cases hm : m = n
  · obtain ⟨d, hd, hid⟩ := h.indexed i m hget
    rw [hm, he] at hd
    cases hd
    exact hn hm hid.symm
  · refine (h.owned hopen i m hget).mono (fun d hd => ?_) (haccept hm) hcloser
    rw [htable, Keyed.getElem?_set_at he, if_neg hm]
    exact hd

/-- A stream is made. -/
theorem Tended.append (h : D.Tended) (hopen : D.closing = false)
    {i : StreamId} {m : Ref} (hget : D.registry.get i = some m) {e : Entry}
    (htable : D'.table = D.table ++ [e])
    (haccept : m ∈ D.accept → m ∈ D'.accept)
    (hcloser : i ∈ D.closer → i ∈ D'.closer) : D'.Owned i m := by
  refine (h.owned hopen i m hget).mono (fun d hd => ?_) haccept hcloser
  rw [htable, List.getElem?_append_left (List.getElem?_eq_some_iff.mp hd).1]
  exact hd

/-- **A step keeps every entry owned**, unless it is a cancelled `open()`
whose entry nobody else answers for. -/
theorem Tended.step (h : D.Tended) (hs : DirStep role limit ev D D')
    (hcancel : ∀ n, ev = .cancelled n → ∀ e : Entry, D.table[n]? = some e →
      D.registry.get e.id = some n → e.id ∈ D.closer) : D'.Tended := by
  refine ⟨h.indexed.step hs, fun hopen i m hget => ?_⟩
  cases hs with
  | opened hcl hlen hnext hins =>
      rw [(StreamRegistry.insert_ok hins).2] at hget
      split at hget
      · cases hget
        exact .inl ⟨_, List.getElem?_concat_length, .inl rfl⟩
      · exact h.append hopen hget rfl (fun hm => hm) fun hi => hi
  | failed hnext => exact h.append hopen hget rfl (fun hm => hm) fun hi => hi
  | queued hid hown hlen hins =>
      rw [(StreamRegistry.insert_ok hins).2] at hget
      split at hget
      · cases hget
        exact .inr (.inl (List.mem_append_right _ (List.mem_singleton_self _)))
      · exact h.append hopen hget rfl (fun hm => List.mem_append_left _ hm)
          fun hi => hi
  | connected he howner =>
      refine h.handOver hopen he hget rfl (fun _ hm => hm) (fun hi => hi) ?_
      rintro rfl -
      exact .inl ⟨_, Keyed.getElem?_set_here he _, .inr rfl⟩
  | abandoned he howner =>
      obtain ⟨hget, hi⟩ := StreamRegistry.get_of_remove hget
      exact h.handOver hopen he hget rfl (fun _ hm => hm) (fun hi => hi)
        fun _ hid => absurd hid hi
  | cancelled he howner =>
      refine h.handOver hopen he hget rfl (fun _ hm => hm) (fun hi => hi) ?_
      rintro rfl rfl
      exact .inr (.inr (hcancel _ rfl _ he hget))
  | accepted haccept he =>
      refine h.handOver hopen he hget rfl (fun hne hm => ?_) (fun hi => hi) ?_
      · rw [haccept] at hm
        exact (List.mem_cons.mp hm).resolve_left hne
      · rintro rfl -
        exact .inl ⟨_, Keyed.getElem?_set_here he _, .inr rfl⟩
  | skipped haccept he =>
      refine (h.owned hopen i m hget).mono (fun d hd => hd) (fun hm => ?_)
        fun hi => hi
      rw [haccept] at hm
      refine (List.mem_cons.mp hm).resolve_left fun hmn => ?_
      obtain ⟨d, hd, -⟩ := h.indexed i m hget
      rw [hmn, he] at hd
      cases hd
  | reset he hwho hasks =>
      refine h.handOver hopen he hget rfl (fun _ hm => hm)
        (fun hi => hasks.mem hi) ?_
      rintro rfl -
      rcases h.owned hopen i _ hget with ⟨d, hd, howner⟩ | hm | hi
      · rw [he] at hd
        cases hd
        exact .inl ⟨_, Keyed.getElem?_set_here he _, howner⟩
      · exact .inr (.inl hm)
      · exact .inr (.inr (hasks.mem hi))
  | dropped he howner hasks =>
      refine h.handOver hopen he hget rfl (fun _ hm => hm)
        (fun hi => hasks.mem hi) ?_
      rintro rfl rfl
      rcases hasks with rfl | ⟨hclosing, -⟩
      · exact .inr (.inr (List.mem_append_right _ (List.mem_singleton_self _)))
      · exact absurd hopen (by rw [hclosing]; decide)
  | removed hcloser =>
      obtain ⟨hget, hi⟩ := StreamRegistry.get_of_remove hget
      refine (h.owned hopen i m hget).mono (fun d hd => hd) (fun hm => hm)
        fun hmem => ?_
      rw [hcloser] at hmem
      exact (List.mem_cons.mp hmem).resolve_left hi
  | stopped hclosing => exact absurd hopen (by rw [hclosing]; decide)
  | shut hcl => cases hopen

end Directory

namespace Session

/-- Someone answers for an entry of the registry: a pending `open()` whose
future is alive, a place in the accept queue, a live handle, or the id waiting
in the closer queue. -/
def Owned (s : Session) (i : StreamId) (n : Ref) : Prop :=
  (s.pendingOpen n).isSome ∨ n ∈ s.accept.queue ∨ (s.handleAt n).isSome ∨
    i ∈ s.closer.queue

instance (s : Session) (i : StreamId) (n : Ref) : Decidable (s.Owned i n) :=
  inferInstanceAs (Decidable (_ ∨ _))

/-- The input drops the future of a pending `open()` whose stream is
registered and has not been asked to be removed. -/
def abandons (s : Session) : Input → Bool
  | .act (.openCancel n) =>
      match s.pendingOpen n with
      | none => false
      | some c =>
          s.registry.get c.id == some n && !s.closer.queue.contains c.id
  | _ => false

theorem owned_of_directory {s : Session} {i : StreamId} {n : Ref}
    (h : s.directory.Owned i n) : s.Owned i n := by
  rcases h with ⟨e, he, howner⟩ | hn | hi
  · obtain ⟨c, hc, rfl⟩ : ∃ c, s.streams[n]? = some c ∧ c.entry = e := by
      simpa [directory] using he
    rcases howner with howner | howner
    · left
      simp [pendingOpen, hc, show c.owner = .opening from howner]
    · right
      right
      left
      simp [handleAt, hc, show c.owner = .handle from howner]
  · exact .inr (.inl hn)
  · exact .inr (.inr (.inr hi))

/-- **No registry entry leaks without a cancelled `open()`.**  In every run of
a session, whatever its users and tasks do and whatever the peer sends, in
which no pending `open()` is dropped while its stream is registered and not
asked to be removed: as long as the session is not closing, every entry of the
registry has an owner. -/
theorem entries_owned (cfg : Config) (role : Role) (xs : List Input)
    (hrun : Along take (fun s x => s.abandons x = false) (new cfg role) xs)
    (hopen : (run take (new cfg role) xs).isClosing = false) :
    ∀ i n, (run take (new cfg role) xs).registry.get i = some n →
      (run take (new cfg role) xs).Owned i n := by
  have htended : (run take (new cfg role) xs).directory.Tended := by
    refine directory_invariant (I := Directory.Tended) ?_ ?_ hrun
    · refine ⟨fun i n hget => ?_, fun _ i n hget => ?_⟩
      · exact nomatch hget
      · exact nomatch hget
    · intro s x hup hrole hconfig _ habandons ev D D' hD hcauses hstep
      refine hD.step hstep ?_
      rintro n rfl e he hget
      obtain ⟨rfl, rfl⟩ := hcauses
      obtain ⟨c, hc, rfl⟩ : ∃ c, s.streams[n]? = some c ∧ c.entry = e := by
        simpa [directory] using he
      have howner : c.owner = .opening := by
        cases hstep with
        | cancelled he' howner =>
            rw [he] at he'
            cases he'
            exact howner
      have hget' : s.registry.get c.id = some n := hget
      show c.id ∈ s.closer.queue
      simpa [abandons, pendingOpen, hc, howner, hget'] using habandons
  exact fun i n hget => owned_of_directory (htended.owned hopen i n hget)

/-- One stream at a time. -/
def solo : Config := { Config.default with maxStreams := 1 }

/-- A call of `open()` is started and its future dropped. -/
def cancelRun : List Input := [.act .openStart, .act (.openCancel 0)]

/-- Its entry stays in the registry, nobody answers for it, and there is no
room for another stream. -/
theorem cancelRun_leaks :
    (run take (new solo .client) cancelRun).isClosing = false ∧
      (run take (new solo .client) cancelRun).registry.get 1 = some 0 ∧
      ¬ (run take (new solo .client) cancelRun).Owned 1 0 ∧
      (run take (new solo .client) cancelRun).openStart.1 =
        .error (.tooManyStreams 1) := by
  decide +kernel

/-- An `open()` is reset by the peer and its future dropped after that; a
stream of the peer is accepted, and its handle dropped. -/
def tidyRun : List Input :=
  [.act .openStart, .frame (.rst 1), .act (.openCancel 0), .frame (.syn 2),
    .act .accept, .act (.drop 1)]

theorem entries_owned_tidyRun :
    (run take (new Config.default .client) tidyRun).registry.get 2 = some 1 ∧
      (run take (new Config.default .client) tidyRun).Owned 2 1 :=
  ⟨by decide +kernel,
    entries_owned _ _ tidyRun (by decide +kernel) (by decide +kernel) 2 1
      (by decide +kernel)⟩

end Session

/-! ## What the closer removes -/

/-- A session with the history of its requests to the closer, which no code
reads: for each id in the closer queue the stream that put it there, and all
streams that ever asked to be removed. -/
structure Audit where
  session : Session
  requests : List Ref
  asked : List Ref

namespace Audit

def new (cfg : Config) (role : Role) : Audit := ⟨Session.new cfg role, [], []⟩

/-- The requests an input adds: an id that got into the closer queue was put
there by the stream that the input is about. -/
def added (s : Session) (x : Input) : List Ref :=
  List.replicate ((s.take x).closer.queue.length - s.closer.queue.length)
    ((s.requester x).getD 0)

def step (a : Audit) (x : Input) : Audit :=
  match x with
  | .act .closerNext => ⟨a.session.take x, a.requests.tail, a.asked⟩
  | .act .closerStop =>
      ⟨a.session.take x, if a.session.shutdown then [] else a.requests, a.asked⟩
  | _ =>
      ⟨a.session.take x, a.requests ++ added a.session x,
        a.asked ++ added a.session x⟩

end Audit

/-- The input is a `SYN` that passes the checks of `handle_data` although its
id is still in use: it waits in the closer queue, or it is the id of a stream
that someone holds. -/
def Session.reuses (s : Session) : Input → Bool
  | .frame (.data id flags _) =>
      !s.readerDone && flags.contains Flags.syn && s.admitsSyn id &&
        (s.closer.queue.contains id ||
          s.streams.any fun c => c.id == id && c.live)
  | _ => false

namespace Directory

/-- The own ids in use are below the next, and the accept queue holds each of
its streams once. -/
structure Numbered (role : Role) (D : Directory) : Prop where
  indexed : D.Indexed
  nextOwned : role.owns D.next = true
  fresh : ∀ e ∈ D.table, role.owns e.id = true → e.id.toNat < D.next.toNat
  acceptNodup : D.accept.Nodup
  acceptQueued : ∀ n ∈ D.accept,
    ∃ e : Entry, D.table[n]? = some e ∧ e.owner = .queued

variable {role : Role} {limit : Nat} {ev : DirEvent} {D D' : Directory}

/-- Another hand holds a stream that does not wait in the accept queue. -/
theorem Numbered.set (h : D.Numbered role) (hindexed : D'.Indexed) {n : Ref}
    {e e' : Entry} (he : D.table[n]? = some e)
    (htable : D'.table = D.table.set n e') (hnext : D'.next = D.next)
    (hsub : D'.accept.Sublist D.accept) (hid : e'.id = e.id)
    (howner : e'.owner = e.owner ∨ e.owner ≠ .queued ∨ n ∉ D'.accept) :
    D'.Numbered role where
  indexed := hindexed
  nextOwned := by
    rw [hnext]
    exact h.nextOwned
  fresh := by
    intro d hd hown
    rw [htable] at hd
    rw [hnext]
    rcases List.mem_or_eq_of_mem_set hd with hd | rfl
    · exact h.fresh d hd hown
    · rw [hid] at hown ⊢
      exact h.fresh e (List.mem_of_getElem? he) hown
  acceptNodup := h.acceptNodup.sublist hsub
  acceptQueued := by
    intro m hm
    obtain ⟨d, hd, hqueued⟩ := h.acceptQueued m (hsub.subset hm)
    rw [htable, Keyed.getElem?_set_at he]
    split
    · rename_i hmn
      subst hmn
      rw [he] at hd
      cases hd
      rcases howner with heq | hne | hout
      · exact ⟨e', rfl, heq.trans hqueued⟩
      · exact absurd hqueued hne
      · exact absurd hm hout
    · exact ⟨d, hd, hqueued⟩

/-- A stream is made. -/
theorem Numbered.append (h : D.Numbered role) (hindexed : D'.Indexed) {e : Entry}
    (htable : D'.table = D.table ++ [e])
    (hnext : role.owns D'.next = true) (hle : D.next.toNat ≤ D'.next.toNat)
    (hown : role.owns e.id = true → e.id.toNat < D'.next.toNat)
    (haccept : D'.accept = D.accept ∨
      (D'.accept = D.accept ++ [D.table.length] ∧ e.owner = .queued)) :
    D'.Numbered role where
  indexed := hindexed
  nextOwned := hnext
  fresh := by
    intro d hd hd'
    rw [htable] at hd
    rcases List.mem_append.mp hd with hd | hd
    · exact (h.fresh d hd hd').trans_le hle
    · rw [List.mem_singleton.mp hd] at hd' ⊢
      exact hown hd'
  acceptNodup := by
    rcases haccept with heq | ⟨heq, -⟩
    · rw [heq]
      exact h.acceptNodup
    · rw [heq, List.nodup_append]
      refine ⟨h.acceptNodup, List.nodup_singleton _, ?_⟩
      rintro m hm n hn rfl
      obtain ⟨d, hd, -⟩ := h.acceptQueued m hm
      have hlt := (List.getElem?_eq_some_iff.mp hd).1
      rw [List.mem_singleton.mp hn] at hlt
      exact Nat.lt_irrefl _ hlt
  acceptQueued := by
    have hold : ∀ m ∈ D.accept, ∃ d : Entry,
        D'.table[m]? = some d ∧ d.owner = .queued := by
      intro m hm
      obtain ⟨d, hd, hqueued⟩ := h.acceptQueued m hm
      rw [htable]
      exact ⟨d, (List.getElem?_append_left
        (List.getElem?_eq_some_iff.mp hd).1).trans hd, hqueued⟩
    rcases haccept with heq | ⟨heq, hqueued⟩
    · rw [heq]
      exact hold
    · intro m hm
      rw [heq] at hm
      rcases List.mem_append.mp hm with hm | hm
      · exact hold m hm
      · rw [List.mem_singleton.mp hm, htable]
        exact ⟨e, List.getElem?_concat_length, hqueued⟩

/-- The next id is the id of no stream. -/
theorem Numbered.next_ne (h : D.Numbered role) :
    ∀ d ∈ D.table, d.id ≠ D.next := by
  intro d hd hid
  have hlt := h.fresh d hd (by rw [hid]; exact h.nextOwned)
  rw [hid] at hlt
  exact Nat.lt_irrefl _ hlt

theorem Numbered.step (h : D.Numbered role)
    (hs : DirStep role limit ev D D') : D'.Numbered role := by
  have hindexed := h.indexed.step hs
  cases hs with
  | opened hopen hlen hnext hins =>
      refine h.append hindexed rfl
        (Role.owns_add_two h.nextOwned hnext) ?_ (fun _ => ?_) (.inl rfl)
      · simp only
        omega
      · simp only
        omega
  | failed hnext =>
      refine h.append hindexed rfl
        (Role.owns_add_two h.nextOwned hnext) ?_ (fun _ => ?_) (.inl rfl)
      · simp only
        omega
      · simp only
        omega
  | queued hid hown hlen hins =>
      exact h.append hindexed rfl h.nextOwned (Nat.le_refl _)
        (fun howned => absurd howned (by rw [hown]; decide))
        (.inr ⟨rfl, rfl⟩)
  | connected he howner =>
      exact h.set hindexed he rfl rfl (List.Sublist.refl _) rfl
        (.inr (.inl (by rw [howner]; decide)))
  | abandoned he howner =>
      exact h.set hindexed he rfl rfl (List.Sublist.refl _) rfl
        (.inr (.inl (by rw [howner]; decide)))
  | cancelled he howner =>
      exact h.set hindexed he rfl rfl (List.Sublist.refl _) rfl
        (.inr (.inl (by rw [howner]; decide)))
  | accepted haccept he =>
      have hnodup := h.acceptNodup
      rw [haccept] at hnodup
      exact h.set hindexed he rfl rfl
        (by rw [haccept]; exact List.sublist_cons_self _ _) rfl
        (.inr (.inr (List.nodup_cons.mp hnodup).1))
  | skipped haccept he =>
      obtain ⟨d, hd, -⟩ := h.acceptQueued _
        (by rw [haccept]; exact List.mem_cons_self ..)
      rw [he] at hd
      cases hd
  | reset he hwho hasks =>
      exact h.set hindexed he rfl rfl (List.Sublist.refl _) rfl (.inl rfl)
  | dropped he howner hasks =>
      exact h.set hindexed he rfl rfl (List.Sublist.refl _) rfl
        (.inr (.inl (by rw [howner]; decide)))
  | removed hcloser => exact { h with indexed := hindexed }
  | stopped hclosing => exact { h with indexed := hindexed }
  | shut hopen => exact { h with indexed := hindexed }

/-- The id of a stream of a directory. -/
def idAt (D : Directory) (q : Ref) : Option StreamId :=
  D.table[q]?.map Entry.id

theorem idAt_of_entry {n : Ref} {e : Entry} (he : D.table[n]? = some e) :
    D.idAt n = some e.id := by
  rw [idAt, he]
  rfl

theorem Grows.idAt (h : D.Grows D') {q : Ref} {i : StreamId}
    (hq : D.idAt q = some i) : D'.idAt q = some i := by
  obtain ⟨e, he, rfl⟩ := Option.map_eq_some_iff.mp hq
  obtain ⟨e', he', hid⟩ := h q e he
  rw [Directory.idAt, he', Option.map_some, hid]

/-- The id of the stream is registered to it or to nobody. -/
def Sole (D : Directory) (n : Ref) : Prop :=
  ∀ i m, D.idAt n = some i → D.registry.get i = some m → m = n

theorem Sole.mono {n : Ref} {i : StreamId} (h : D.Sole n)
    (hid : D.idAt n = some i) (hgrows : D.Grows D')
    (hreg : ∀ m, D'.registry.get i = some m → D.registry.get i = some m) :
    D'.Sole n := by
  intro j m hj hget
  obtain rfl := Option.some.inj ((hgrows.idAt hid).symm.trans hj)
  exact h i m hid (hreg m hget)

/-- The requests in the closer queue are those of the recorded streams; the id
of a recorded stream and of one that someone holds is not registered to
another; and a stream that someone holds and that never asked to be removed is
registered, as long as the session is open. -/
structure Accounts (reqs asked : List Ref) (D : Directory) : Prop where
  ids : reqs.map D.idAt = D.closer.map some
  recorded : ∀ q ∈ reqs, q ∈ asked
  requesters : ∀ q ∈ reqs, D.Sole q
  holders : ∀ (n : Ref) (e : Entry), D.table[n]? = some e →
    e.owner.live = true → D.Sole n
  kept : D.closing = false → ∀ (n : Ref) (e : Entry), D.table[n]? = some e →
    e.owner.live = true → n ∉ asked → D.registry.get e.id = some n

variable {reqs asked : List Ref}

/-- A recorded stream has the id that it asked for. -/
theorem Accounts.idAt_mem (h : D.Accounts reqs asked) {q : Ref}
    (hq : q ∈ reqs) : ∃ i ∈ D.closer, D.idAt q = some i := by
  have hmem : D.idAt q ∈ D.closer.map some := by
    rw [← h.ids]
    exact List.mem_map_of_mem hq
  obtain ⟨i, hi, hid⟩ := List.mem_map.mp hmem
  exact ⟨i, hi, hid.symm⟩

/-- The streams keep their ids. -/
theorem Accounts.grow (h : D.Accounts reqs asked) (hgrows : D.Grows D') :
    reqs.map D'.idAt = D.closer.map some := by
  rw [← h.ids]
  refine List.map_congr_left fun q hq => ?_
  obtain ⟨i, -, hid⟩ := h.idAt_mem hq
  rw [hid, hgrows.idAt hid]

/-- Another hand holds a stream, or it is reset. -/
theorem Accounts.set (h : D.Accounts reqs asked) {n : Ref} {e : Entry}
    (he : D.table[n]? = some e) (e' : Entry) (hid : e'.id = e.id)
    (hlive : e'.owner.live = true → e.owner.live = true) :
    Accounts reqs asked { D with table := D.table.set n e' } := by
  have hgrows : D.Grows { D with table := D.table.set n e' } :=
    grows_set he hid
  -- a stream that someone holds now was held before
  have hold : ∀ (m : Ref) (d : Entry), (D.table.set n e')[m]? = some d →
      d.owner.live = true → ∃ d' : Entry, D.table[m]? = some d' ∧
        d'.owner.live = true ∧ d'.id = d.id := by
    intro m d hd hdlive
    rw [Keyed.getElem?_set_at he] at hd
    split at hd
    · rename_i hm
      subst hm
      cases hd
      exact ⟨e, he, hlive hdlive, hid.symm⟩
    · exact ⟨d, hd, hdlive, rfl⟩
  refine ⟨h.grow hgrows, h.recorded, fun q hq => ?_, fun m d hd hdlive => ?_,
    fun hopen m d hd hdlive hasked => ?_⟩
  · obtain ⟨i, -, hi⟩ := h.idAt_mem hq
    exact (h.requesters q hq).mono hi hgrows fun _ hget => hget
  · obtain ⟨d', hd', hlive', -⟩ := hold m d hd hdlive
    exact (h.holders m d' hd' hlive').mono (idAt_of_entry hd') hgrows
      fun _ hget => hget
  · obtain ⟨d', hd', hlive', hdid⟩ := hold m d hd hdlive
    rw [← hdid]
    exact h.kept hopen m d' hd' hlive' hasked

/-- A stream is made of an id that is not in use, and registered. -/
theorem Accounts.insert (h : D.Accounts reqs asked) {g : StreamRegistry}
    {e : Entry} (hins : D.registry.insert e.id D.table.length = .ok g)
    (hcloser : e.id ∉ D.closer)
    (hheld : ∀ d ∈ D.table, d.owner.live = true → d.id ≠ e.id) :
    Accounts reqs asked
      { D with table := D.table ++ [e], registry := g } := by
  have hget := (StreamRegistry.insert_ok hins).2
  have hgrows : D.Grows { D with table := D.table ++ [e], registry := g } :=
    grows_append e
  have hother : ∀ i m, i ≠ e.id → g.get i = some m →
      D.registry.get i = some m := by
    intro i m hi hm
    rwa [hget, if_neg hi] at hm
  refine ⟨h.grow hgrows, h.recorded, fun q hq => ?_, fun m d hd hdlive => ?_,
    fun hopen m d hd hdlive hasked => ?_⟩
  · obtain ⟨i, hi, hid⟩ := h.idAt_mem hq
    refine (h.requesters q hq).mono hid hgrows fun m hm => hother i m ?_ hm
    rintro rfl
    exact hcloser hi
  · rcases Keyed.getElem?_append_cases hd with hd | ⟨rfl, rfl⟩
    · have hne := hheld d (List.mem_of_getElem? hd) hdlive
      exact (h.holders m d hd hdlive).mono (idAt_of_entry hd) hgrows
        fun k hk => hother d.id k hne hk
    · intro i k hi hk
      have hid : some d.id = some i :=
        (idAt_of_entry List.getElem?_concat_length).symm.trans hi
      cases hid
      have hk' : g.get d.id = some k := hk
      rw [hget, if_pos rfl] at hk'
      exact (Option.some.inj hk').symm
  · show g.get d.id = some m
    rcases Keyed.getElem?_append_cases hd with hd | ⟨rfl, rfl⟩
    · rw [hget, if_neg (hheld d (List.mem_of_getElem? hd) hdlive)]
      exact h.kept hopen m d hd hdlive hasked
    · rw [hget, if_pos rfl]

/-- An id leaves the registry whose stream asked for it, or is held by
nobody. -/
theorem Accounts.remove (h : D.Accounts reqs asked) {id : StreamId}
    (hgone : D.closing = false → ∀ (n : Ref) (e : Entry),
      D.table[n]? = some e → e.owner.live = true → n ∉ asked → e.id ≠ id) :
    Accounts reqs asked { D with registry := D.registry.remove id } := by
  have hless : ∀ i m, (D.registry.remove id).get i = some m →
      D.registry.get i = some m :=
    fun i m hget => (StreamRegistry.get_of_remove hget).1
  refine ⟨h.ids, h.recorded,
    fun q hq i m hi hm => h.requesters q hq i m hi (hless i m hm),
    fun n e he hlive i m hi hm => h.holders n e he hlive i m hi (hless i m hm),
    fun hopen n e he hlive hasked => ?_⟩
  show (D.registry.remove id).get e.id = some n
  rw [StreamRegistry.get_remove, if_neg (hgone hopen n e he hlive hasked)]
  exact h.kept hopen n e he hlive hasked

/-- A stream asks to be removed. -/
theorem Accounts.request (h : D.Accounts reqs asked) {n : Ref} {i : StreamId}
    (hid : D.idAt n = some i) (hsole : D.Sole n) :
    Accounts (reqs ++ [n]) (asked ++ [n])
      { D with closer := D.closer ++ [i] } where
  ids := by
    show (reqs ++ [n]).map D.idAt = (D.closer ++ [i]).map some
    rw [List.map_append, List.map_append, h.ids, List.map_singleton, hid]
    rfl
  recorded := by
    intro q hq
    rcases List.mem_append.mp hq with hq | hq
    · exact List.mem_append_left _ (h.recorded q hq)
    · exact List.mem_append_right _ hq
  requesters := by
    intro q hq
    rcases List.mem_append.mp hq with hq | hq
    · exact h.requesters q hq
    · rw [List.mem_singleton.mp hq]
      exact hsole
  holders := h.holders
  kept := fun hopen m d hd hdlive hasked => h.kept hopen m d hd hdlive
    fun hm => hasked (List.mem_append_left _ hm)

/-- The closer takes the first request, and the id out of the registry. -/
theorem Accounts.removed (h : D.Accounts reqs asked) {id : StreamId}
    {rest : List StreamId} (hcloser : D.closer = id :: rest) :
    Accounts reqs.tail asked
      { D with closer := rest, registry := D.registry.remove id } := by
  have hids := h.ids
  rw [hcloser] at hids
  cases reqs with
  | nil => cases hids
  | cons q more =>
      obtain ⟨hq, hmore⟩ := List.cons.inj hids
      have hrest : Accounts more asked { D with closer := rest } :=
        { h with
          ids := hmore
          recorded := fun p hp => h.recorded p (List.mem_cons_of_mem _ hp)
          requesters := fun p hp =>
            h.requesters p (List.mem_cons_of_mem _ hp) }
      -- whoever is registered under the id is the requester, who asked
      refine hrest.remove fun hopen n e he hlive hasked hid => hasked ?_
      have hget := h.kept hopen n e he hlive hasked
      rw [hid] at hget
      rw [h.requesters q (List.mem_cons_self ..) id n hq hget]
      exact h.recorded q (List.mem_cons_self ..)

/-- A stream is made that nobody holds and that is not registered. -/
theorem Accounts.append (h : D.Accounts reqs asked) {e : Entry}
    (hdead : e.owner.live = false) :
    Accounts reqs asked { D with table := D.table ++ [e] } := by
  -- a stream that someone holds was there before
  have hold : ∀ (m : Ref) (d : Entry), (D.table ++ [e])[m]? = some d →
      d.owner.live = true → D.table[m]? = some d := by
    intro m d hd hdlive
    rcases Keyed.getElem?_append_cases hd with hd | ⟨-, rfl⟩
    · exact hd
    · rw [hdead] at hdlive
      cases hdlive
  refine ⟨h.grow (grows_append _), h.recorded, fun q hq => ?_,
    fun m d hd hdlive => ?_, fun hopen m d hd hdlive hm => ?_⟩
  · obtain ⟨i, -, hi⟩ := h.idAt_mem hq
    exact (h.requesters q hq).mono hi (grows_append _) fun _ hget => hget
  · have hd' := hold m d hd hdlive
    exact (h.holders m d hd' hdlive).mono (idAt_of_entry hd') (grows_append _)
      fun _ hget => hget
  · exact h.kept hopen m d (hold m d hd hdlive) hdlive hm

/-- Nobody has asked for the next id. -/
theorem Accounts.next_not_mem (h : D.Accounts reqs asked)
    (hnum : D.Numbered role) : D.next ∉ D.closer := by
  intro hmem
  have hsome : some D.next ∈ reqs.map D.idAt := by
    rw [h.ids]
    exact List.mem_map_of_mem hmem
  obtain ⟨q, -, hid⟩ := List.mem_map.mp hsome
  obtain ⟨d, hd, hdid⟩ := Option.map_eq_some_iff.mp hid
  exact hnum.next_ne d (List.mem_of_getElem? hd) hdid

/-- An `open()` fails, and takes the id of its stream out of the registry. -/
theorem Accounts.abandon (h : D.Accounts reqs asked) {n : Ref} {e : Entry}
    (he : D.table[n]? = some e) (howner : e.owner = .opening) :
    Accounts reqs asked
      { D with
        table := D.table.set n { e with owner := .gone }
        registry := D.registry.remove e.id } := by
  have hset := h.set he { e with owner := .gone } rfl
    fun hlive => nomatch hlive
  refine hset.remove fun hopen m d hd hdlive hm hid => ?_
  -- the id is registered to the failed `open()` or to nobody
  have hd' : (D.table.set n { e with owner := .gone })[m]? = some d := hd
  rw [Keyed.getElem?_set_at he] at hd'
  split at hd'
  · cases hd'
    cases hdlive
  · rename_i hne
    have hget := h.kept hopen m d hd' hdlive hm
    rw [hid] at hget
    exact hne (h.holders n e he (by rw [howner]; rfl) e.id m
      (idAt_of_entry he) hget)

/-- A stream is reset or dropped: a request that gets into the queue is
recorded, one that is lost is not. -/
theorem Accounts.ask (h : D.Accounts reqs asked) {n : Ref} {e : Entry}
    {closer : List StreamId} (he : D.table[n]? = some e) (e' : Entry)
    (hid : e'.id = e.id) (hlive : e'.owner.live = true → e.owner.live = true)
    (hsole : D.Sole n) (hasks : D.Asks e.id closer) :
    Accounts reqs asked
        { D with table := D.table.set n e', closer := closer } ∨
      Accounts (reqs ++ [n]) (asked ++ [n])
        { D with table := D.table.set n e', closer := closer } := by
  have hset := h.set he e' hid hlive
  have hgrows : D.Grows { D with table := D.table.set n e' } :=
    grows_set he hid
  have hat := idAt_of_entry he
  rcases hasks with rfl | ⟨-, rfl⟩
  · exact .inr (hset.request (hgrows.idAt hat)
      (hsole.mono hat hgrows fun _ hget => hget))
  · exact .inl hset

/-- A stream that is registered is alone with its id. -/
theorem sole_of_registered (hindexed : D.Indexed) {i : StreamId} {n : Ref}
    (hget : D.registry.get i = some n) : D.Sole n := by
  intro j m hj hm
  obtain ⟨d, hd, hid⟩ := hindexed i n hget
  obtain rfl := Option.some.inj ((idAt_of_entry hd).symm.trans hj)
  rw [hid, hget] at hm
  exact (Option.some.inj hm).symm

/-- **A step keeps the accounts**, and a stream that is reset or dropped is
recorded with its request, unless a `SYN` makes a stream of an id that is
still in use. -/
theorem Accounts.step (h : D.Accounts reqs asked) (hnum : D.Numbered role)
    (hs : DirStep role limit ev D D') (hremoved : ev ≠ .removed)
    (hstopped : ev ≠ .stopped)
    (hnew : ∀ id, ev = .queued id → id ∉ D.closer ∧
      ∀ e ∈ D.table, e.owner.live = true → e.id ≠ id) :
    D'.Accounts reqs asked ∨ ∃ n, (ev = .reset n ∨ ev = .dropped n) ∧
      D'.Accounts (reqs ++ [n]) (asked ++ [n]) := by
  cases hs with
  | opened hopen hlen hnext hins =>
      exact .inl { h.insert (e := ⟨D.next, .opening, false⟩) hins
        (h.next_not_mem hnum) (fun d hd _ => hnum.next_ne d hd) with }
  | failed hnext =>
      exact .inl { h.append (e := ⟨D.next, .gone, false⟩) rfl with }
  | @queued _ id g hid hown hlen hins =>
      obtain ⟨hcloser, hheld⟩ := hnew id rfl
      exact .inl
        { h.insert (e := ⟨id, .queued, false⟩) hins hcloser hheld with }
  | connected he howner =>
      exact .inl (h.set he _ rfl fun _ => by rw [howner]; rfl)
  | abandoned he howner => exact .inl (h.abandon he howner)
  | cancelled he howner =>
      exact .inl (h.set he _ rfl fun hlive => nomatch hlive)
  | @accepted _ n rest e haccept he =>
      obtain ⟨d, hd, hqueued⟩ := hnum.acceptQueued _
        (by rw [haccept]; exact List.mem_cons_self ..)
      rw [he] at hd
      cases hd
      exact .inl { h.set he { e with owner := .handle } rfl
        (fun _ => by rw [hqueued]; rfl) with }
  | skipped haccept he => exact .inl { h with }
  | @reset _ n e closer he hwho hasks =>
      have hsole : D.Sole n := by
        rcases hwho with howner | ⟨i, hget⟩
        · exact h.holders n e he (by rw [howner]; rfl)
        · exact sole_of_registered hnum.indexed hget
      exact (h.ask he { e with reset := true } rfl id hsole hasks).imp_right
        fun hrec => ⟨n, .inl rfl, hrec⟩
  | @dropped _ n e closer he howner hasks =>
      have hsole := h.holders n e he (by rw [howner]; rfl)
      exact (h.ask he { e with owner := .dropped } rfl
        (fun hlive => nomatch hlive) hsole hasks).imp_right
          fun hrec => ⟨n, .inr rfl, hrec⟩
  | removed hcloser => exact absurd rfl hremoved
  | stopped hclosing => exact absurd rfl hstopped
  | shut hopen =>
      refine .inl ⟨h.ids, h.recorded, ?_, ?_, fun hcl => nomatch hcl⟩
      · exact fun _ _ _ _ _ hget => nomatch hget
      · exact fun _ _ _ _ _ _ _ hget => nomatch hget

end Directory

namespace Audit

variable {role : Role} {cfg : Config}

/-- The record of the requests fits the directory. -/
structure Kept (cfg : Config) (r : Role) (a : Audit) : Prop where
  up : a.session.Up
  role : a.session.role = r
  config : a.session.config = cfg
  numbered : a.session.directory.Numbered r
  accounts : a.session.directory.Accounts a.requests a.asked

variable {a : Audit}

theorem kept_new (cfg : Config) (role : Role) : (new cfg role).Kept cfg role where
  up := Session.up_new cfg role
  role := rfl
  config := rfl
  numbered :=
    { indexed := fun _ _ hget => nomatch hget
      nextOwned := Role.owns_firstId role
      fresh := fun _ he => absurd he List.not_mem_nil
      acceptNodup := List.nodup_nil
      acceptQueued := fun _ hn => absurd hn List.not_mem_nil }
  accounts :=
    { ids := rfl
      recorded := fun _ hq => absurd hq List.not_mem_nil
      requesters := fun _ hq => absurd hq List.not_mem_nil
      holders := fun _ _ he => nomatch he
      kept := fun _ _ _ he => nomatch he }

/-- The ids and the accept queue are in order after every input, so only the
accounts are left to show. -/
theorem Kept.next (h : a.Kept cfg role) {x : Input} {reqs asked : List Ref}
    (haccounts : (a.session.take x).directory.Accounts reqs asked) :
    Kept cfg role ⟨a.session.take x, reqs, asked⟩ := by
  have hev := h.up.take x
  refine ⟨hev.up, hev.role.trans h.role, hev.config.trans h.config, ?_,
    haccounts⟩
  refine hev.path.invariant (I := fun D => D.Numbered role) ?_ h.numbered
  intro ev D D' hD _ hstep
  rw [h.role] at hstep
  exact hD.step hstep

/-- The record when the closer takes a request. -/
theorem Kept.closerNext (h : a.Kept cfg role) :
    a.session.closerNext.directory.Accounts a.requests.tail a.asked := by
  unfold Session.closerNext
  split
  · rename_i hempty
    have hids := h.accounts.ids
    rw [show a.session.directory.closer = [] from hempty, List.map_nil,
      List.map_eq_nil_iff] at hids
    have haccounts := h.accounts
    rw [hids] at haccounts ⊢
    exact haccounts
  · rename_i id rest hqueue
    exact h.accounts.removed hqueue

theorem Kept.closerStop (h : a.Kept cfg role) :
    a.session.closerStop.directory.Accounts
      (if a.session.shutdown then [] else a.requests) a.asked := by
  unfold Session.closerStop
  split
  · exact
      { h.accounts with
        ids := rfl
        recorded := fun _ hq => absurd hq List.not_mem_nil
        requesters := fun _ hq => absurd hq List.not_mem_nil }
  · exact h.accounts

/-- All other inputs only add requests, of the stream that they are about. -/
theorem Kept.added (h : a.Kept cfg role) {x : Input}
    (hreuse : a.session.reuses x = false) (hnext : x ≠ .act .closerNext)
    (hstop : x ≠ .act .closerStop) :
    (a.session.take x).directory.Accounts (a.requests ++ added a.session x)
      (a.asked ++ added a.session x) := by
  let r := (a.session.requester x).getD 0
  have hstep : ∀ ev (D D' : Directory),
      (D.Numbered role ∧ ∃ k, D.Accounts (a.requests ++ List.replicate k r)
        (a.asked ++ List.replicate k r)) →
      a.session.Causes x ev D →
      DirStep a.session.role a.session.config.maxStreams ev D D' →
      D'.Numbered role ∧ ∃ k, D'.Accounts (a.requests ++ List.replicate k r)
        (a.asked ++ List.replicate k r) := by
    rintro ev D D' ⟨hnum, k, haccounts⟩ hcauses hstep
    rw [h.role] at hstep
    have hnew : ∀ id, ev = .queued id → id ∉ D.closer ∧
        ∀ e ∈ D.table, e.owner.live = true → e.id ≠ id := by
      rintro id rfl
      obtain ⟨rfl, hdone, hadmits, flags, payload, rfl, hsyn⟩ := hcauses
      simp only [Session.reuses, hdone, hsyn, hadmits, Bool.not_false,
        Bool.true_and, Bool.or_eq_false_iff] at hreuse
      have hcloser : id ∉ a.session.closer.queue := by simpa using hreuse.1
      refine ⟨hcloser, fun e he hlive hid => ?_⟩
      obtain ⟨c, hc, rfl⟩ := List.mem_map.mp he
      exact List.any_eq_false.mp hreuse.2 c hc
        (Bool.and_eq_true_iff.mpr ⟨beq_iff_eq.mpr hid, hlive⟩)
    refine ⟨hnum.step hstep, ?_⟩
    have hremoved : ev ≠ .removed := by
      rintro rfl
      exact hnext hcauses.2
    have hstopped : ev ≠ .stopped := by
      rintro rfl
      exact hstop hcauses
    obtain hsame | ⟨n, hev, hmore⟩ :=
      haccounts.step hnum hstep hremoved hstopped hnew
    · exact ⟨k, hsame⟩
    · have hreq : r = n := by
        rcases hev with rfl | rfl
        · exact congrArg (Option.getD · 0) hcauses.1
        · simp only [r, show x = .act (.drop n) from hcauses]
          rfl
      refine ⟨k + 1, ?_⟩
      rw [← hreq] at hmore
      rw [List.replicate_succ', ← List.append_assoc, ← List.append_assoc]
      exact hmore
  obtain ⟨-, k, haccounts⟩ := (h.up.take x).path.invariant hstep
    ⟨h.numbered, 0, by simpa using h.accounts⟩
  -- the number of requests is read off the closer queue
  have hlen := congrArg List.length haccounts.ids
  have hlen₀ := congrArg List.length h.accounts.ids
  have hk : (a.session.take x).closer.queue.length -
      a.session.closer.queue.length = k := by
    simp only [List.length_map, List.length_append, List.length_replicate,
      Session.directory] at hlen hlen₀
    omega
  rw [Audit.added, hk]
  exact haccounts

/-- **An input that reuses no id in use keeps the record.** -/
theorem Kept.step (h : a.Kept cfg role) {x : Input}
    (hreuse : a.session.reuses x = false) : (a.step x).Kept cfg role := by
  unfold Audit.step
  split
  · exact h.next h.closerNext
  · exact h.next h.closerStop
  · rename_i hnext hstop
    exact h.next (h.added hreuse hnext hstop)

/-- **A removal request removes only its own stream**, as long as no id is
opened again while it is in use.  In every run of a session, whatever its
users and tasks do and whatever the peer sends, in which no `SYN` passes the
checks of `handle_data` whose id waits in the closer queue or is that of a
stream that someone holds: the stream that the closer's next step takes out of
the registry is the one that put its id into the closer queue, and a stream
that someone holds and that never asked to be removed is registered until the
session is closing. -/
theorem removes_requester (cfg : Config) (role : Role) (xs : List Input)
    (hrun : Along step (fun a x => a.session.reuses x = false)
      (new cfg role) xs) :
    (∀ id rest,
      (run step (new cfg role) xs).session.closer.queue = id :: rest →
      ∃ q more, (run step (new cfg role) xs).requests = q :: more ∧
        ∀ n, (run step (new cfg role) xs).session.registry.get id = some n →
          n = q) ∧
    ((run step (new cfg role) xs).session.isClosing = false →
      ∀ (n : Ref) (c : Cell),
        (run step (new cfg role) xs).session.streams[n]? = some c →
        c.live = true → n ∉ (run step (new cfg role) xs).asked →
        (run step (new cfg role) xs).session.registry.get c.id = some n) := by
  have hkept : (run step (new cfg role) xs).Kept cfg role :=
    run_invariant step (fun a x h hx => h.step hx) xs _ (kept_new cfg role) hrun
  generalize run step (new cfg role) xs = a at hkept
  refine ⟨fun id rest hqueue => ?_, fun hopen n c hc hlive hasked => ?_⟩
  · have hids := hkept.accounts.ids
    rw [show a.session.directory.closer = id :: rest from hqueue] at hids
    cases hreq : a.requests with
    | nil =>
        rw [hreq] at hids
        cases hids
    | cons q more =>
        rw [hreq] at hids
        refine ⟨q, more, rfl, fun n hget => ?_⟩
        exact hkept.accounts.requesters q (by rw [hreq]; exact List.mem_cons_self ..)
          id n (List.cons.inj hids).1 hget
  · exact hkept.accounts.kept hopen n c.entry (Session.directory_at hc) hlive
      hasked

/-- A stream of the peer is reset twice and removed; the peer opens its id
again, and the second request is still in the closer queue. -/
def reuseRun : List Input :=
  [.frame (.syn 1), .frame (.rst 1), .frame (.rst 1), .act .closerNext,
    .frame (.syn 1), .act .accept, .act .accept]

/-- The closer's next step takes the new stream out of the registry, whose
handle is live and which never asked. -/
theorem reuseRun_removes :
    (run step (new Config.default .server) reuseRun).requests = [0] ∧
      (run step (new Config.default .server) reuseRun).session.closer.queue =
        [1] ∧
      (run step (new Config.default .server) reuseRun).session.registry.get 1 =
        some 1 ∧
      ((run step (new Config.default .server) reuseRun).session.handleAt 1).map
        (fun c => c.inner.state.reset) = some false ∧
      ((run step (new Config.default .server) reuseRun).session.take
        (.act .closerNext)).registry.get 1 = none := by
  decide +kernel

/-- A stream of the peer is accepted, dropped and removed; the peer opens its
id again, and the second stream is dropped, too. -/
def laterRun : List Input :=
  [.frame (.syn 1), .act .accept, .act (.drop 0), .act .closerNext,
    .frame (.syn 1), .act .accept, .act (.drop 1)]

theorem removes_requester_laterRun :
    (run step (new Config.default .server) laterRun).session.registry.get 1 =
      some 1 ∧
    ∃ q more, (run step (new Config.default .server) laterRun).requests =
      q :: more ∧ q = 1 := by
  have hget : (run step (new Config.default .server)
      laterRun).session.registry.get 1 = some 1 := by
    decide +kernel
  obtain ⟨q, more, hreq, hq⟩ :=
    (removes_requester Config.default .server laterRun (by decide +kernel)).1
      1 [] (by decide +kernel)
  exact ⟨hget, q, more, hreq, (hq 1 hget).symm⟩

end Audit

end NetMux
