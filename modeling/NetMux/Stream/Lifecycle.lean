import NetMux.Lib.Run
import NetMux.Stream.Invariant

/-!
# The life of a stream

The user and the session's reader call the operations of a stream in any
order.  `Life` is a stream with everything it has put on the outbound queue
and everything it has returned to its user, and a run is any list of calls.
What a call can do is said once, by `Moves`; from it follow the shape of the
stream's output, which is a word of

  (Data | WindowUpdate)* [FIN WindowUpdate*] [RST],

and that a reset is final.  Each call says whether the outbound queue still
has its receiver; what is sent after that is lost.
-/

namespace NetMux

open Lib.Run

namespace StreamInner

/-- The operations on a stream. -/
inductive Op where
  | pushData (payload : Bytes)
  | remoteFin
  | remoteReset
  | grantSendCredit (delta : UInt32)
  | markAcked
  | forceClose
  | pollRead (remaining : Nat)
  | pollWrite (buf : Bytes)
  | localFin
  | localReset
  | onUserDrop
  deriving DecidableEq, Repr

/-- One call: the bytes returned to the user, the stream afterwards, and what
it emits. -/
def perform (s : StreamInner) (outOpen : Bool) : Op → Bytes × StreamInner × Emit
  | .pushData payload => ([], s.pushData payload, .none)
  | .remoteFin => ([], s.remoteFin, .none)
  | .remoteReset => ([], s.remoteReset)
  | .grantSendCredit delta => ([], s.grantSendCredit delta, .none)
  | .markAcked => ([], s.markAcked, .none)
  | .forceClose => ([], s.forceClose, .none)
  | .pollRead remaining =>
      (bytesOf (s.pollRead remaining).1, (s.pollRead remaining).2)
  | .pollWrite buf => ([], (s.pollWrite outOpen buf).2)
  | .localFin => ([], s.localFin)
  | .localReset => ([], s.localReset)
  | .onUserDrop => ([], s.onUserDrop)

/-! ## What a call can do -/

/-- The frames of one call, by what they need and what they leave behind. -/
inductive Output (s s' : StreamInner) : List Frame → Prop where
  | none : Output s s' []
  | data (payload : Bytes) (hopen : s.state.writeOpen = true) :
      Output s s' [.data s.id Flags.empty payload]
  | update (delta : UInt32) (hreset : s.state.reset = false) :
      Output s s' [.mkWindowUpdate s.id delta]
  | fin (hopen : s.state.writeOpen = true) (hsent : s'.finSent = true) :
      Output s s' [.fin s.id]
  | rst (hreset : s.state.reset = false) (hunsent : s.finSent = false)
      (hsent : s'.finSent = true) (hreset' : s'.state.reset = true) :
      Output s s' [.rst s.id]

/-- What one call does: no bit goes back, a reset stream gives out nothing,
and the frames are those of `Output`. -/
structure Moves (s s' : StreamInner) (bytes : Bytes) (frames : List Frame) :
    Prop where
  id : s'.id = s.id
  read : s.state.readOpen = false → s'.state.readOpen = false
  write : s.state.writeOpen = false → s'.state.writeOpen = false
  reset : s.state.reset = true → s'.state.reset = true
  sent : s.finSent = true → s'.finSent = true
  quiet : s.state.reset = true → bytes = []
  output : Output s s' frames

/-- A call that touches neither the state bits nor the queue. -/
theorem Moves.still {s s' : StreamInner} (hid : s'.id = s.id)
    (hstate : s'.state = s.state) (hsent : s'.finSent = s.finSent) :
    Moves s s' [] [] where
  id := hid
  read := fun h => hstate ▸ h
  write := fun h => hstate ▸ h
  reset := fun h => hstate ▸ h
  sent := fun h => hsent ▸ h
  quiet := fun _ => rfl
  output := .none

theorem moves_pollRead (s : StreamInner) (remaining : Nat) :
    Moves s (s.pollRead remaining).2.1 (bytesOf (s.pollRead remaining).1)
      (s.pollRead remaining).2.2.frames := by
  rw [pollRead_eq]
  dsimp only
  split_ifs with hzero hreset hempty hopen
  · exact .still rfl rfl rfl
  · exact .still rfl rfl rfl
  · exact .still rfl rfl rfl
  · exact .still rfl rfl rfl
  · rw [Bool.not_eq_true] at hreset
    refine ⟨rfl, fun h => h, fun h => h, fun h => h, fun h => h, ?_, ?_⟩
    · intro h
      cases hreset.symm.trans h
    · cases (s.recvWindow.onConsume
        (UInt32.ofNat (s.recv.contents.take remaining).length)).1 with
      | none => exact .none
      | some delta => exact .update delta hreset

theorem moves_pollWrite (s : StreamInner) (outOpen : Bool) (buf : Bytes) :
    Moves s (s.pollWrite outOpen buf).2.1 []
      (s.pollWrite outOpen buf).2.2.frames := by
  rw [pollWrite_eq]
  split_ifs with hreset hopen
  · exact .still rfl rfl rfl
  · exact .still rfl rfl rfl
  · exact .still rfl rfl rfl
  · exact .still rfl rfl rfl
  · exact .still rfl rfl rfl
  · exact ⟨rfl, fun h => h, fun _ => rfl, fun h => h, fun h => h,
      fun _ => rfl, .none⟩
  · refine ⟨rfl, fun h => h, fun h => h, fun h => h, fun h => h, fun _ => rfl,
      .data _ ?_⟩
    simpa using hopen

theorem Ok.moves_localFin {s : StreamInner} (h : Ok s) :
    Moves s s.localFin.1 [] s.localFin.2.frames := by
  cases hw : s.state.writeOpen with
  | true =>
      rw [localFin_open h hw]
      exact ⟨rfl, fun h => h, fun _ => rfl, fun h => h, fun _ => rfl,
        fun _ => rfl, .fin hw rfl⟩
  | false =>
      rw [localFin_shut hw]
      exact .still rfl rfl rfl

theorem Ok.moves_localReset {s : StreamInner} (h : Ok s) :
    Moves s s.localReset.1 [] s.localReset.2.frames := by
  cases hr : s.state.reset with
  | true =>
      rw [localReset_again h hr]
      exact .still rfl rfl rfl
  | false =>
      rw [localReset_first hr]
      refine ⟨rfl, fun _ => rfl, fun _ => rfl, fun _ => rfl, fun _ => rfl,
        fun _ => rfl, ?_⟩
      cases hf : s.finSent with
      | true => exact .none
      | false => exact .rst hr hf rfl rfl

/-- **What a call can do.** -/
theorem Ok.moves {s : StreamInner} (h : Ok s) (outOpen : Bool) (op : Op) :
    Moves s (s.perform outOpen op).2.1 (s.perform outOpen op).1
      (s.perform outOpen op).2.2.frames := by
  cases op with
  | pushData payload =>
      show Moves s (s.pushData payload) [] []
      rw [pushData_eq]
      exact .still rfl rfl rfl
  | remoteFin =>
      exact ⟨rfl, fun _ => rfl, fun h => h, fun h => h, fun h => h,
        fun _ => rfl, .none⟩
  | remoteReset =>
      exact ⟨rfl, fun _ => rfl, fun _ => rfl, fun _ => rfl, fun h => h,
        fun _ => rfl, .none⟩
  | grantSendCredit delta => exact .still rfl rfl rfl
  | markAcked => exact .still rfl rfl rfl
  | forceClose =>
      exact ⟨rfl, fun _ => rfl, fun _ => rfl, fun h => h, fun h => h,
        fun _ => rfl, .none⟩
  | pollRead remaining => exact moves_pollRead s remaining
  | pollWrite buf => exact moves_pollWrite s outOpen buf
  | localFin => exact h.moves_localFin
  | localReset => exact h.moves_localReset
  | onUserDrop =>
      show Moves s s.onUserDrop.1 [] s.onUserDrop.2.frames
      rw [onUserDrop_eq h]
      show Moves s s.localFin.1 [] (s.localFin.2.frames ++ [])
      rw [List.append_nil]
      exact h.moves_localFin

theorem Ok.perform {s : StreamInner} (h : Ok s) (outOpen : Bool) (op : Op) :
    Ok (s.perform outOpen op).2.1 := by
  cases op with
  | pushData payload => exact h.pushData payload
  | remoteFin => exact h.remoteFin
  | remoteReset => exact h.remoteReset
  | grantSendCredit delta => exact h.grantSendCredit delta
  | markAcked => exact h.markAcked
  | forceClose => exact h.forceClose
  | pollRead remaining => exact h.pollRead remaining
  | pollWrite buf => exact h.pollWrite outOpen buf
  | localFin => exact h.localFin
  | localReset => exact h.localReset
  | onUserDrop =>
      show Ok s.onUserDrop.1
      rw [onUserDrop_eq h]
      exact h.localFin

/-- A stream that is reset puts nothing on the queue. -/
theorem Moves.frames_nil {s s' : StreamInner} {bytes : Bytes}
    {frames : List Frame} (hm : Moves s s' bytes frames) (h : Ok s)
    (hreset : s.state.reset = true) : frames = [] := by
  have hshut := (h.resetShut hreset).2.1
  cases hm.output with
  | none => rfl
  | data payload hopen => cases hshut.symm.trans hopen
  | update delta hr => cases hreset.symm.trans hr
  | fin hopen => cases hshut.symm.trans hopen
  | rst hr => cases hreset.symm.trans hr

/-! ## The shape of the output -/

/-- `Data` and `WindowUpdate` frames of one stream. -/
def Body (id : StreamId) (frames : List Frame) : Prop :=
  ∀ f ∈ frames, (∃ payload, f = .data id Flags.empty payload) ∨
    ∃ delta, f = .mkWindowUpdate id delta

/-- `WindowUpdate` frames of one stream. -/
def Updates (id : StreamId) (frames : List Frame) : Prop :=
  ∀ f ∈ frames, ∃ delta, f = .mkWindowUpdate id delta

/-- A body, then a `FIN` and updates. -/
def Ended (id : StreamId) (frames : List Frame) : Prop :=
  ∃ body updates, frames = body ++ .fin id :: updates ∧ Body id body ∧
    Updates id updates

/-- A word of (Data | WindowUpdate)* [FIN WindowUpdate*] [RST]. -/
def Word (id : StreamId) (frames : List Frame) : Prop :=
  ∃ body tail last, frames = body ++ tail ++ last ∧ Body id body ∧
    (tail = [] ∨ ∃ updates, tail = .fin id :: updates ∧ Updates id updates) ∧
    (last = [] ∨ last = [.rst id])

section Shape

variable {id : StreamId} {frames : List Frame}

theorem Body.data (h : Body id frames) (payload : Bytes) :
    Body id (frames ++ [.data id Flags.empty payload]) := by
  intro f hf
  rcases List.mem_append.mp hf with hf | hf
  · exact h f hf
  · exact .inl ⟨payload, List.mem_singleton.mp hf⟩

theorem Body.update (h : Body id frames) (delta : UInt32) :
    Body id (frames ++ [.mkWindowUpdate id delta]) := by
  intro f hf
  rcases List.mem_append.mp hf with hf | hf
  · exact h f hf
  · exact .inr ⟨delta, List.mem_singleton.mp hf⟩

theorem Body.fin (h : Body id frames) : Ended id (frames ++ [.fin id]) :=
  ⟨frames, [], rfl, h, fun _ hf => absurd hf List.not_mem_nil⟩

theorem Ended.update (h : Ended id frames) (delta : UInt32) :
    Ended id (frames ++ [.mkWindowUpdate id delta]) := by
  obtain ⟨body, updates, rfl, hbody, hupdates⟩ := h
  refine ⟨body, updates ++ [.mkWindowUpdate id delta], ?_, hbody, ?_⟩
  · rw [List.append_assoc, List.cons_append]
  · intro f hf
    rcases List.mem_append.mp hf with hf | hf
    · exact hupdates f hf
    · exact ⟨delta, List.mem_singleton.mp hf⟩

theorem Body.word (h : Body id frames) : Word id frames :=
  ⟨frames, [], [], by simp, h, .inl rfl, .inl rfl⟩

theorem Ended.word (h : Ended id frames) : Word id frames := by
  obtain ⟨body, updates, rfl, hbody, hupdates⟩ := h
  exact ⟨body, .fin id :: updates, [], by simp, hbody,
    .inr ⟨updates, rfl, hupdates⟩, .inl rfl⟩

theorem Body.rst (h : Body id frames) : Word id (frames ++ [.rst id]) :=
  ⟨frames, [], [.rst id], by simp, h, .inl rfl, .inr rfl⟩

end Shape

end StreamInner

/-! ## Whole lives -/

/-- A stream with all it has put on the outbound queue and all it has
returned to its user. -/
structure Life where
  inner : StreamInner
  enqueued : List Frame
  returned : Bytes
  deriving DecidableEq, Repr

namespace Life

open StreamInner

/-- One call of a stream operation, and whether the outbound queue has its
receiver at that time. -/
structure Call where
  op : Op
  outOpen : Bool
  deriving DecidableEq, Repr

def call (l : Life) (c : Call) : Life where
  inner := (l.inner.perform c.outOpen c.op).2.1
  enqueued := l.enqueued ++
    if c.outOpen then (l.inner.perform c.outOpen c.op).2.2.frames else []
  returned := l.returned ++ (l.inner.perform c.outOpen c.op).1

/-- A new stream after some calls. -/
def after (id : StreamId) (origin : Origin) (config : Config)
    (calls : List Call) : Life :=
  run call ⟨StreamInner.new id origin config, [], []⟩ calls

/-- What holds of a stream's life: before its final frame it has sent a body,
and while it is not reset a body or an ended one. -/
structure Lives (id : StreamId) (l : Life) : Prop where
  ok : Ok l.inner
  named : l.inner.id = id
  early : l.inner.finSent = false → Body id l.enqueued
  late : l.inner.state.reset = false →
    Body id l.enqueued ∨ Ended id l.enqueued
  word : Word id l.enqueued

theorem lives_new (id : StreamId) (origin : Origin) (config : Config) :
    Lives id ⟨StreamInner.new id origin config, [], []⟩ := by
  have hbody : Body id [] := fun _ hf => absurd hf List.not_mem_nil
  exact ⟨ok_new id origin config, rfl, fun _ => hbody, fun _ => .inl hbody,
    hbody.word⟩

section Step

variable {id : StreamId} {l : Life} {s' : StreamInner} {bytes returned : Bytes}
  {frames : List Frame}

/-- The write half is open only before the final frame. -/
theorem Lives.body_of_open (h : Lives id l)
    (hopen : l.inner.state.writeOpen = true) : Body id l.enqueued := by
  apply h.early
  cases hf : l.inner.finSent with
  | false => rfl
  | true => exact hopen.symm.trans (h.ok.finShut hf)

/-- What a call can do keeps the shape of the output. -/
theorem Lives.moves (h : Lives id l) (hok : Ok s')
    (hm : Moves l.inner s' bytes frames) :
    Lives id ⟨s', l.enqueued ++ frames, returned⟩ := by
  have hnamed : s'.id = id := hm.id.trans h.named
  -- no bit goes back, so what held before still applies
  have hunsent : s'.finSent = false → l.inner.finSent = false := by
    intro hf
    cases hs : l.inner.finSent with
    | false => rfl
    | true => exact (hm.sent hs).symm.trans hf
  have hunreset : s'.state.reset = false → l.inner.state.reset = false := by
    intro hr
    cases hs : l.inner.state.reset with
    | false => rfl
    | true => exact (hm.reset hs).symm.trans hr
  cases hm.output with
  | none =>
      rw [List.append_nil]
      exact ⟨hok, hnamed, fun hf => h.early (hunsent hf),
        fun hr => h.late (hunreset hr), h.word⟩
  | data payload hopen =>
      have hbody := (h.body_of_open hopen).data payload
      rw [h.named]
      exact ⟨hok, hnamed, fun _ => hbody, fun _ => .inl hbody, hbody.word⟩
  | update delta hreset =>
      rw [h.named]
      have hlate := (h.late hreset).imp (·.update delta) (·.update delta)
      exact ⟨hok, hnamed, fun hf => (h.early (hunsent hf)).update delta,
        fun _ => hlate, hlate.elim Body.word Ended.word⟩
  | fin hopen hsent =>
      have hended := (h.body_of_open hopen).fin
      rw [h.named]
      exact ⟨hok, hnamed, fun hf => (by cases hsent.symm.trans hf),
        fun _ => .inr hended, hended.word⟩
  | rst hreset hno hsent hreset' =>
      have hword := (h.early hno).rst
      rw [h.named]
      exact ⟨hok, hnamed, fun hf => (by cases hsent.symm.trans hf),
        fun hr => (by cases hreset'.symm.trans hr), hword⟩

/-- So does a call whose frames find the queue gone. -/
theorem Lives.call (h : Lives id l) (c : Call) : Lives id (l.call c) := by
  obtain ⟨op, outOpen⟩ := c
  have hm := h.ok.moves outOpen op
  have hok := h.ok.perform outOpen op
  cases outOpen with
  | true => exact h.moves hok hm
  | false =>
      have hlost : Moves l.inner _ _ [] := { hm with output := .none }
      exact h.moves hok hlost

end Step

theorem lives_after (id : StreamId) (origin : Origin) (config : Config)
    (calls : List Call) : Lives id (after id origin config calls) :=
  run_invariant_all call (fun _ c h => h.call c) calls _
    (lives_new id origin config)

/-- What may have changed between two points of a life. -/
structure Later (l l' : Life) : Prop where
  read : l.inner.state.readOpen = false → l'.inner.state.readOpen = false
  write : l.inner.state.writeOpen = false → l'.inner.state.writeOpen = false
  reset : l.inner.state.reset = true → l'.inner.state.reset = true
  final : l.inner.state.reset = true →
    l'.enqueued = l.enqueued ∧ l'.returned = l.returned

theorem Lives.later_call {id : StreamId} {l : Life} (h : Lives id l)
    (c : Call) : Later l (l.call c) := by
  have hm := h.ok.moves c.outOpen c.op
  refine ⟨hm.read, hm.write, hm.reset, fun hreset => ?_⟩
  have hbytes := hm.quiet hreset
  have hframes := hm.frames_nil h.ok hreset
  simp [Life.call, hbytes, hframes]

/-- **A life only goes on**: whatever is called, no half opens again, no
reset is undone, and after one nothing more comes out. -/
theorem Lives.later {id : StreamId} {l : Life} (h : Lives id l)
    (calls : List Call) : Later l (run Life.call l calls) := by
  induction calls generalizing l with
  | nil => exact ⟨fun h => h, fun h => h, fun h => h, fun _ => ⟨rfl, rfl⟩⟩
  | cons c calls ih =>
      have hone := h.later_call c
      have hrest := ih (h.call c)
      refine ⟨fun hr => hrest.read (hone.read hr),
        fun hw => hrest.write (hone.write hw),
        fun hr => hrest.reset (hone.reset hr), fun hr => ?_⟩
      obtain ⟨he, hb⟩ := hone.final hr
      obtain ⟨he', hb'⟩ := hrest.final (hone.reset hr)
      exact ⟨he'.trans he, hb'.trans hb⟩

theorem after_append (id : StreamId) (origin : Origin) (config : Config)
    (earlier later : List Call) :
    after id origin config (earlier ++ later) =
      run call (after id origin config earlier) later :=
  run_append call _ earlier later

/-- **The output of a stream and the finality of a reset.**  Whatever
operations are called on a stream, in whatever order and number, the frames it
puts on the queue are a word of (Data | WindowUpdate)* [FIN WindowUpdate*]
[RST].  Between any two points of its life no half goes from closed to open
and no reset is undone; a reset stream has both halves and its send window
closed, and from then on it returns no byte and enqueues no frame. -/
theorem output_discipline (id : StreamId) (origin : Origin) (config : Config)
    (earlier later : List Call) :
    let l := after id origin config earlier
    let l' := after id origin config (earlier ++ later)
    Word id l'.enqueued ∧
    (l.inner.state.readOpen = false → l'.inner.state.readOpen = false) ∧
    (l.inner.state.writeOpen = false → l'.inner.state.writeOpen = false) ∧
    (l.inner.state.reset = true →
      l'.inner.state.reset = true ∧
      l.inner.state.readOpen = false ∧ l.inner.state.writeOpen = false ∧
      l.inner.sendWindow.closed = true ∧
      l'.returned = l.returned ∧ l'.enqueued = l.enqueued) := by
  intro l l'
  have hlives : Lives id l := lives_after id origin config earlier
  have hlater : Later l l' := by
    have hrun := hlives.later later
    rw [← after_append] at hrun
    exact hrun
  refine ⟨(lives_after id origin config (earlier ++ later)).word, hlater.read,
    hlater.write, fun hreset => ?_⟩
  obtain ⟨hread, hwrite, hclosed⟩ := hlives.ok.resetShut hreset
  obtain ⟨hframes, hbytes⟩ := hlater.final hreset
  exact ⟨hlater.reset hreset, hread, hwrite, hclosed, hbytes, hframes⟩

/-! ## Resetting -/

/-- A call of `local_reset` while the queue has its receiver. -/
def resetCall : Call := ⟨.localReset, true⟩

/-- **A reset tells the peer exactly when the `FIN` was not sent.**  Whatever
was called on a stream that is not reset: `local_reset` enqueues one `RST` and
nothing else if `fin_sent` is still false, and otherwise no frame at all.  After
it no call enqueues any frame. -/
theorem localReset_tells (id : StreamId) (origin : Origin) (config : Config)
    (calls further : List Call)
    (hreset : (after id origin config calls).inner.state.reset = false) :
    ((after id origin config (calls ++ [resetCall])).enqueued =
        (after id origin config calls).enqueued ++ [.rst id] ↔
      (after id origin config calls).inner.finSent = false) ∧
    ((after id origin config (calls ++ [resetCall])).enqueued =
        (after id origin config calls).enqueued ↔
      (after id origin config calls).inner.finSent = true) ∧
    (after id origin config (calls ++ [resetCall] ++ further)).enqueued =
      (after id origin config (calls ++ [resetCall])).enqueued := by
  have hlives := lives_after id origin config calls
  have henqueued : (after id origin config (calls ++ [resetCall])).enqueued =
      (after id origin config calls).enqueued ++
        if (after id origin config calls).inner.finSent then [] else
          [.rst id] := by
    rw [after_append]
    show _ ++ (StreamInner.localReset _).2.frames = _
    rw [localReset_first hreset, hlives.named]
  refine ⟨?_, ?_, ?_⟩
  · rw [henqueued, List.append_cancel_left_eq]
    cases (after id origin config calls).inner.finSent <;> simp
  · rw [henqueued, eq_comm, List.self_eq_append_right]
    cases (after id origin config calls).inner.finSent <;> simp
  · rw [after_append _ _ _ (calls ++ [resetCall])]
    refine ((lives_after id origin config _).later further).final ?_ |>.1
    rw [after_append]
    show (StreamInner.localReset _).1.state.reset = true
    rw [localReset_reset]

/-- A stream the peer has half-closed: its reset is announced once. -/
theorem localReset_tells_remoteHalfClosed :
    (after 1 .locally Config.default
      ([⟨.markAcked, true⟩, ⟨.pushData [7], true⟩, ⟨.remoteFin, true⟩,
        ⟨.pollWrite [8], true⟩] ++ [resetCall] ++
        [resetCall, ⟨.localFin, true⟩, ⟨.onUserDrop, true⟩])).enqueued =
      [.data 1 Flags.empty [8], .rst 1] := by
  have htells := localReset_tells 1 .locally Config.default
    [⟨.markAcked, true⟩, ⟨.pushData [7], true⟩, ⟨.remoteFin, true⟩,
      ⟨.pollWrite [8], true⟩]
    [resetCall, ⟨.localFin, true⟩, ⟨.onUserDrop, true⟩] (by decide)
  exact htells.2.2.trans (htells.1.mpr (by decide))

/-- **A reset after `shutdown` tells the peer nothing.**  The stream is
half-closed locally, neither reset nor force-closed, and the queue has its
receiver; `local_reset` marks it reset and enqueues no frame. -/
theorem localReset_after_localFin :
    (after 1 .locally Config.default [⟨.localFin, true⟩]).inner.state =
      ⟨true, false, false⟩ ∧
    (after 1 .locally Config.default [⟨.localFin, true⟩]).enqueued =
      [.fin 1] ∧
    (after 1 .locally Config.default
      [⟨.localFin, true⟩, resetCall]).inner.state.reset = true ∧
    (after 1 .locally Config.default
      [⟨.localFin, true⟩, resetCall]).enqueued = [.fin 1] := by
  decide

end Life

end NetMux
