import NetMux.Endpoint.Directory

/-!
# How long the accept queue gets

A `SYN` of the peer is refused when the registry holds `max_streams` entries,
and otherwise its stream goes into the registry and into the accept queue.
The queue itself has no limit.  As long as every stream that waits in it is
also registered when a `SYN` is let through, the limit of the registry is one
of the queue.  A peer that resets a stream before it is accepted takes it out
of the registry and leaves it in the queue, and can go on like this for ever.
The drain of a shutdown has the same effect.
-/

namespace NetMux

open Lib Lib.Run

namespace Directory

/-- The accept queue holds streams of the table, each of them once, and no
more than the limit. -/
structure Backlog (limit : Nat) (D : Directory) : Prop where
  bound : D.accept.length ≤ limit
  nodup : D.accept.Nodup
  inTable : ∀ n ∈ D.accept, n < D.table.length

variable {role : Role} {limit : Nat} {ev : DirEvent} {D D' : Directory}

/-- Streams that are all registered are no more than the entries. -/
theorem Backlog.length_le (h : D.Backlog limit)
    (hreg : ∀ n ∈ D.accept, ∃ i, D.registry.get i = some n) :
    D.accept.length ≤ D.registry.len := by
  have hsub : D.accept ⊆ D.registry.drain.1 := fun n hn =>
    StreamRegistry.mem_drain.mpr (hreg n hn)
  have hlen := (h.nodup.subperm hsub).length_le
  rwa [show D.registry.drain.1.length = D.registry.len from
    List.length_map _] at hlen

/-- Nothing is added to the queue, and nothing taken from the table. -/
theorem Backlog.shrink (h : D.Backlog limit)
    (haccept : D'.accept.Sublist D.accept)
    (htable : D.table.length ≤ D'.table.length) : D'.Backlog limit where
  bound := haccept.length_le.trans h.bound
  nodup := h.nodup.sublist haccept
  inTable := fun n hn => (h.inTable n (haccept.subset hn)).trans_le htable

/-- **A step keeps the accept queue within the limit**, as long as a stream is
added to it only while all that wait are registered. -/
theorem Backlog.step (h : D.Backlog limit) (hs : DirStep role limit ev D D')
    (hqueued : ∀ id, ev = .queued id →
      ∀ n ∈ D.accept, ∃ i, D.registry.get i = some n) : D'.Backlog limit := by
  cases hs with
  | queued hid hown hlen hins =>
      have hle := h.length_le (hqueued _ rfl)
      refine ⟨?_, ?_, fun n hn => ?_⟩
      · rw [List.length_append, List.length_singleton]
        omega
      · rw [List.nodup_append]
        refine ⟨h.nodup, List.nodup_singleton _, ?_⟩
        rintro n hn m hm rfl
        rw [List.mem_singleton.mp hm] at hn
        exact Nat.lt_irrefl _ (h.inTable _ hn)
      · rw [List.length_append, List.length_singleton]
        rcases List.mem_append.mp hn with hn | hn
        · exact (h.inTable n hn).trans (Nat.lt_succ_self _)
        · rw [List.mem_singleton.mp hn]
          exact Nat.lt_succ_self _
  | opened | failed => exact h.shrink (.refl _) (by simp)
  | accepted haccept _ | skipped haccept _ =>
      refine h.shrink ?_ (by simp)
      rw [haccept]
      exact List.sublist_cons_self _ _
  | connected | abandoned | cancelled | reset | dropped =>
      exact h.shrink (.refl _) (by simp)
  | removed | stopped | shut => exact h.shrink (.refl _) (Nat.le_refl _)

/-! ## Waiting streams that are not reset -/

/-- Nothing was accepted and no waiting stream was reset: the streams of the
peer wait in the accept queue, and are registered while the session is
open. -/
structure Waiting (role : Role) (D : Directory) : Prop where
  indexed : D.Indexed
  waiting : ∀ n ∈ D.accept, ∃ e : Entry, D.table[n]? = some e ∧
    role.owns e.id = false ∧
    (D.closing = false → D.registry.get e.id = some n)
  registered : ∀ i n, D.registry.get i = some n →
    role.owns i = true ∨ n ∈ D.accept
  held : ∀ e ∈ D.table, e.owner = .opening ∨ e.owner = .handle →
    role.owns e.id = true
  closer : D.closing = false → ∀ i ∈ D.closer, role.owns i = true
  nextOwned : role.owns D.next = true

/-- A request for the removal of an own stream. -/
theorem Waiting.asks (h : D.Waiting role) {id : StreamId}
    {closer : List StreamId} (hasks : D.Asks id closer)
    (hid : role.owns id = true) :
    D.closing = false → ∀ i ∈ closer, role.owns i = true := by
  intro hopen i hi
  rcases hasks with rfl | ⟨-, rfl⟩
  · rcases List.mem_append.mp hi with hi | hi
    · exact h.closer hopen i hi
    · rw [List.mem_singleton.mp hi]
      exact hid
  · exact h.closer hopen i hi

/-- Another hand holds a stream, or it is reset. -/
theorem Waiting.set (h : D.Waiting role) {n : Ref} {e e' : Entry}
    {closer : List StreamId} (he : D.table[n]? = some e)
    (hD' : D' = { D with table := D.table.set n e', closer := closer })
    (hid : e'.id = e.id)
    (howner : e'.owner = .opening ∨ e'.owner = .handle →
      role.owns e.id = true)
    (hcloser : D.closing = false → ∀ i ∈ closer, role.owns i = true) :
    D'.Waiting role := by
  subst hD'
  exact
    { indexed := h.indexed.mono (grows_set he hid) fun _ _ hget => hget
      waiting := by
        intro m hm
        obtain ⟨d, hd, hown, hget⟩ := h.waiting m hm
        obtain ⟨d', hd', hdid⟩ := grows_set he hid m d hd
        exact ⟨d', hd', by rw [hdid]; exact hown, by rw [hdid]; exact hget⟩
      registered := h.registered
      held := by
        intro d hd hdowner
        rcases List.mem_or_eq_of_mem_set hd with hd | rfl
        · exact h.held d hd hdowner
        · rw [hid]
          exact howner hdowner
      closer := hcloser
      nextOwned := h.nextOwned }

/-- An own id leaves the registry. -/
theorem Waiting.remove (h : D.Waiting role) {id : StreamId}
    (hid : D.closing = false → role.owns id = true) :
    { D with registry := D.registry.remove id }.Waiting role where
  indexed := h.indexed.mono (.refl _) fun _ _ hget =>
    (StreamRegistry.get_of_remove hget).1
  waiting := by
    intro n hn
    obtain ⟨e, he, hown, hget⟩ := h.waiting n hn
    refine ⟨e, he, hown, fun hopen => ?_⟩
    show (D.registry.remove id).get e.id = some n
    rw [StreamRegistry.get_remove, if_neg]
    · exact hget hopen
    · intro heq
      rw [heq, hid hopen] at hown
      cases hown
  registered := fun i n hget =>
    h.registered i n (StreamRegistry.get_of_remove hget).1
  held := h.held
  closer := h.closer
  nextOwned := h.nextOwned

/-- A stream is made, and does not go to the accept queue. -/
theorem Waiting.append (h : D.Waiting role) (hindexed : D'.Indexed)
    {e : Entry} (htable : D'.table = D.table ++ [e])
    (haccept : D'.accept = D.accept) (hcloser : D'.closer = D.closer)
    (hclosing : D'.closing = D.closing) (hnext : role.owns D'.next = true)
    (hid : role.owns e.id = true)
    (hreg : ∀ i, i ≠ e.id → D'.registry.get i = D.registry.get i) :
    D'.Waiting role where
  indexed := hindexed
  waiting := by
    intro n hn
    rw [haccept] at hn
    obtain ⟨d, hd, hown, hget⟩ := h.waiting n hn
    obtain ⟨d', hd', hdid⟩ := grows_append (D := D) e n d hd
    refine ⟨d', by rw [htable]; exact hd', by rw [hdid]; exact hown, ?_⟩
    intro hopen
    rw [hdid, hreg]
    · exact hget (hclosing.symm.trans hopen)
    · intro heq
      rw [heq, hid] at hown
      cases hown
  registered := by
    intro i n hget
    by_cases hi : i = e.id
    · exact .inl (hi ▸ hid)
    · rw [hreg i hi] at hget
      rw [haccept]
      exact h.registered i n hget
  held := by
    intro d hd hdowner
    rw [htable] at hd
    rcases List.mem_append.mp hd with hd | hd
    · exact h.held d hd hdowner
    · rw [List.mem_singleton.mp hd]
      exact hid
  closer := by
    rw [hclosing, hcloser]
    exact h.closer
  nextOwned := hnext

/-- A stream of the peer is registered and put into the accept queue. -/
theorem Waiting.queue (h : D.Waiting role) (hopen : D.closing = false)
    {id : StreamId} {g : StreamRegistry} (hown : role.owns id = false)
    (hins : D.registry.insert id D.table.length = .ok g) :
    Waiting role { D with
      table := D.table ++ [⟨id, .queued, false⟩]
      registry := g
      accept := D.accept ++ [D.table.length] } where
  indexed := h.indexed.insert hins rfl rfl rfl
  waiting := by
    obtain ⟨hfree, hget⟩ := StreamRegistry.insert_ok hins
    intro n hn
    rcases List.mem_append.mp hn with hn | hn
    · obtain ⟨e, he, howns, hreg⟩ := h.waiting n hn
      obtain ⟨e', he', hid⟩ := grows_append (D := D) ⟨id, .queued, false⟩ n e he
      refine ⟨e', he', by rw [hid]; exact howns, fun _ => ?_⟩
      show g.get e'.id = some n
      rw [hget, hid, if_neg, hreg hopen]
      rintro rfl
      rw [hreg hopen] at hfree
      cases hfree
    · rw [List.mem_singleton.mp hn]
      refine ⟨_, List.getElem?_concat_length, hown, fun _ => ?_⟩
      show g.get id = _
      rw [hget, if_pos rfl]
  registered := by
    intro i n hi
    have hi' : g.get i = some n := hi
    rw [(StreamRegistry.insert_ok hins).2] at hi'
    split at hi'
    · cases hi'
      exact .inr (List.mem_append_right _ (List.mem_singleton_self _))
    · exact (h.registered i n hi').imp_right fun hn => List.mem_append_left _ hn
  held := by
    intro d hd hdowner
    rcases List.mem_append.mp hd with hd | hd
    · exact h.held d hd hdowner
    · rw [List.mem_singleton.mp hd] at hdowner
      rcases hdowner with hdowner | hdowner <;> cases hdowner
  closer := h.closer
  nextOwned := h.nextOwned

/-- **A step keeps the waiting streams registered**, unless one of them is
reset or a `SYN` comes while the session is closing. -/
theorem Waiting.step (h : D.Waiting role)
    (hs : DirStep role limit ev D D') (haccept : ev ≠ .accepted)
    (hreset : ∀ n, ev = .reset n → n ∉ D.accept)
    (hqueued : ∀ id, ev = .queued id → D.closing = false) :
    D'.Waiting role := by
  have hindexed := h.indexed.step hs
  cases hs with
  | opened hopen hlen hnext hins =>
      exact h.append hindexed rfl rfl rfl rfl
        (Role.owns_add_two h.nextOwned hnext) h.nextOwned
        fun i hi => ((StreamRegistry.insert_ok hins).2 i).trans (if_neg hi)
  | failed hnext =>
      exact h.append hindexed rfl rfl rfl rfl
        (Role.owns_add_two h.nextOwned hnext) h.nextOwned fun _ _ => rfl
  | queued hid hown hlen hins =>
      exact h.queue (hqueued _ rfl) hown hins
  | connected he howner =>
      exact h.set he rfl rfl
        (fun _ => h.held _ (List.mem_of_getElem? he) (.inl howner)) h.closer
  | abandoned he howner =>
      have hown := h.held _ (List.mem_of_getElem? he) (.inl howner)
      refine Waiting.remove (D := { D with table := D.table.set _ _ }) ?_
        fun _ => hown
      exact h.set he rfl rfl (fun _ => hown) h.closer
  | cancelled he howner =>
      exact h.set he rfl rfl
        (fun _ => h.held _ (List.mem_of_getElem? he) (.inl howner)) h.closer
  | accepted _ _ => exact absurd rfl haccept
  | skipped _ _ => exact absurd rfl haccept
  | @reset _ n e closer he hwho hasks =>
      have hown : role.owns e.id = true := by
        rcases hwho with howner | ⟨i, hget⟩
        · exact h.held _ (List.mem_of_getElem? he) (.inr howner)
        · obtain ⟨d, hd, hid⟩ := h.indexed i _ hget
          rw [he] at hd
          cases hd
          rw [hid]
          exact (h.registered i _ hget).resolve_right (hreset _ rfl)
      exact h.set he rfl rfl (fun _ => hown) (h.asks hasks hown)
  | dropped he howner hasks =>
      have hown := h.held _ (List.mem_of_getElem? he) (.inr howner)
      exact h.set he rfl rfl (fun _ => hown) (h.asks hasks hown)
  | @removed _ id rest hcloser =>
      have hrest : { D with closer := rest }.Waiting role :=
        { h with
          closer := fun hopen i hi => h.closer hopen i
            (hcloser ▸ List.mem_cons_of_mem _ hi) }
      exact hrest.remove fun hopen =>
        h.closer hopen _ (hcloser ▸ List.mem_cons_self ..)
  | stopped hclosing =>
      exact { h with closer := fun _ i hi => absurd hi List.not_mem_nil }
  | shut hopen =>
      exact
        { h with
          indexed := hindexed
          waiting := fun n hn => by
            obtain ⟨e, he, hown, -⟩ := h.waiting n hn
            exact ⟨e, he, hown, fun hcl => nomatch hcl⟩
          registered := fun i n hget => nomatch hget
          closer := fun hcl => nomatch hcl }

end Directory

namespace Session

/-- The stream is registered under its own id. -/
def registered (s : Session) (n : Ref) : Bool :=
  match s.streams[n]? with
  | none => false
  | some c => s.registry.get c.id == some n

/-- The input is a `SYN` that passes the checks of `handle_data` although some
stream in the accept queue is no longer registered. -/
def floods (s : Session) : Input → Bool
  | .frame (.data id flags _) =>
      !s.readerDone && flags.contains Flags.syn && s.admitsSyn id &&
        s.accept.queue.any fun n => !s.registered n
  | _ => false

theorem registered_get {s : Session} {n : Ref} (h : s.registered n = true) :
    ∃ i, s.registry.get i = some n := by
  unfold registered at h
  split at h
  · cases h
  · exact ⟨_, beq_iff_eq.mp h⟩

/-- A new session has nothing in its accept queue. -/
theorem backlog_new (cfg : Config) (role : Role) :
    (new cfg role).directory.Backlog cfg.maxStreams :=
  ⟨Nat.zero_le _, List.nodup_nil, fun _ hn => absurd hn List.not_mem_nil⟩

/-- **The accept backlog is bounded as long as the waiting streams stay
registered.**  In every run of a session, whatever its users and tasks do and
whatever the peer sends, in which no `SYN` passes the checks of `handle_data`
while a stream in the accept queue is no longer registered: the accept queue
never holds more than `max_streams` streams. -/
theorem backlog_le_maxStreams (cfg : Config) (role : Role) (xs : List Input)
    (hrun : Along take (fun s x => s.floods x = false) (new cfg role) xs) :
    (run take (new cfg role) xs).accept.queue.length ≤ cfg.maxStreams := by
  have hbacklog : (run take (new cfg role) xs).directory.Backlog
      cfg.maxStreams := by
    refine directory_invariant (I := fun D => D.Backlog cfg.maxStreams)
      (backlog_new cfg role) ?_ hrun
    rintro s x - - - - hfloods ev D D' hD hcauses hstep
    refine hD.step hstep ?_
    rintro id rfl n hn
    obtain ⟨rfl, hdone, hadmits, flags, payload, rfl, hsyn⟩ := hcauses
    simp only [floods, hdone, hsyn, hadmits, Bool.not_false, Bool.true_and]
      at hfloods
    have hn' := List.any_eq_false.mp hfloods n hn
    exact registered_get (by simpa using hn')
  exact hbacklog.bound

/-- A limit of one stream, and a peer that resets each stream it opens before
it opens the next. -/
def floodRun : List Input :=
  [.frame (.data 1 ⟨9⟩ []), .act .closerNext, .frame (.syn 3), .frame (.rst 3),
    .act .closerNext, .frame (.syn 5)]

/-- Three streams wait. -/
theorem floodRun_exceeds :
    (run take (new { Config.default with maxStreams := 1 } .server)
      floodRun).accept.queue = [0, 1, 2] := by
  decide +kernel

/-- One stream waits and is reset, a second is refused, and a third waits
after the first was accepted. -/
def patientRun : List Input :=
  [.frame (.syn 1), .frame (.rst 1), .frame (.syn 3), .act .closerNext,
    .act .accept, .frame (.syn 5)]

theorem backlog_le_maxStreams_patientRun :
    (run take (new { Config.default with maxStreams := 1 } .server)
      patientRun).accept.queue = [1] ∧
    (run take (new { Config.default with maxStreams := 1 } .server)
      patientRun).accept.queue.length ≤ 1 :=
  ⟨by decide +kernel,
    backlog_le_maxStreams { Config.default with maxStreams := 1 } .server
      patientRun (by decide +kernel)⟩

/-- A stream in the accept queue has been reset. -/
def waitingReset (s : Session) : Bool :=
  s.accept.queue.any fun n =>
    match s.streams[n]? with
    | none => false
    | some c => c.inner.state.reset

/-- The input is a `SYN` that passes the checks of `handle_data` although the
session is closing. -/
def lateSyn (s : Session) : Input → Bool
  | .frame (.data id flags _) =>
      !s.readerDone && flags.contains Flags.syn && s.admitsSyn id && s.isClosing
  | _ => false

/-- **Without resets and late `SYN`s the backlog is bounded**: a waiting stream
that is not reset stays registered until the session is closing, so in a run
without `accept()` no `SYN` finds one that is not. -/
theorem backlog_le_of_unreset (cfg : Config) (role : Role) (xs : List Input)
    (hrun : Along take (fun s x => x ≠ .act .accept ∧
      (s.take x).waitingReset = false ∧ s.lateSyn x = false)
      (new cfg role) xs) :
    (run take (new cfg role) xs).accept.queue.length ≤ cfg.maxStreams := by
  have hboth : (run take (new cfg role) xs).directory.Waiting role ∧
      (run take (new cfg role) xs).directory.Backlog cfg.maxStreams := by
    refine directory_invariant
      (I := fun D => D.Waiting role ∧ D.Backlog cfg.maxStreams) ?_ ?_ hrun
    · refine ⟨?_, backlog_new cfg role⟩
      exact
        { indexed := fun _ _ hget => nomatch hget
          waiting := fun _ hn => absurd hn List.not_mem_nil
          registered := fun _ _ hget => nomatch hget
          held := fun _ he => absurd he List.not_mem_nil
          closer := fun _ _ hi => absurd hi List.not_mem_nil
          nextOwned := Role.owns_firstId role }
    rintro s x - - - - ⟨haccept, hreset, hlate⟩ ev D D' ⟨hD, hbacklog⟩ hcauses
      hstep
    have hopen : ∀ id, ev = .queued id → D.closing = false := by
      rintro id rfl
      obtain ⟨rfl, hdone, hadmits, flags, payload, rfl, hsyn⟩ := hcauses
      show s.isClosing = false
      simpa [lateSyn, hdone, hsyn, hadmits] using hlate
    refine ⟨hD.step hstep ?_ ?_ hopen, hbacklog.step hstep ?_⟩
    · rintro rfl
      exact haccept hcauses
    · rintro n rfl hn
      obtain ⟨-, hsame, e, he, hereset⟩ := hcauses
      obtain ⟨c, hc, rfl⟩ : ∃ c, (s.take x).streams[n]? = some c ∧
          c.entry = e := by
        simpa [directory] using he
      have hmem : n ∈ (s.take x).accept.queue := by
        rw [hsame] at hn
        exact hn
      have hany := List.any_eq_false.mp hreset n hmem
      rw [hc] at hany
      exact hany hereset
    · rintro id hev n hn
      obtain ⟨e, -, -, hget⟩ := hD.waiting n hn
      exact ⟨e.id, hget (hopen id hev)⟩
  exact hboth.2.bound

end Session

end NetMux
