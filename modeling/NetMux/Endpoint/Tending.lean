import NetMux.Endpoint.Control
import NetMux.Link.Integrity
import NetMux.Link.Quiescence

/-!
# What the tasks of a session leave alone

The reader, the writer and the closer work on the streams of a session behind
the users' backs.  A handle finds its stream where it was, with what it has
read and written so far; its write half is open as before, unless the stream
was reset or the session is closing.  `tends_readerNext`, `tends_writerNext`
and `System.tends_task` are the results.
-/

namespace NetMux

open Lib

/-- What a task leaves of a stream.  `closing` is the flag of the session
afterwards. -/
structure Cell.Tended (closing : Bool) (c c' : Cell) : Prop where
  id : c'.id = c.id
  owner : c'.owner = c.owner
  readLog : c'.readLog = c.readLog
  writeLog : c'.writeLog = c.writeLog
  reset : c.inner.state.reset = true → c'.inner.state.reset = true
  writeOpen : closing = false → c'.inner.state.reset = false →
    c'.inner.state.writeOpen = c.inner.state.writeOpen

namespace Cell

variable {closing : Bool} {c c' : Cell}

theorem Tended.refl (closing : Bool) (c : Cell) : Tended closing c c :=
  ⟨rfl, rfl, rfl, rfl, fun h => h, fun _ _ => rfl⟩

theorem Tended.trans {closing' : Bool} {c'' : Cell} (h : Tended closing c c')
    (h' : Tended closing' c' c'')
    (hcl : closing = true → closing' = true) : Tended closing' c c'' where
  id := h'.id.trans h.id
  owner := h'.owner.trans h.owner
  readLog := h'.readLog.trans h.readLog
  writeLog := h'.writeLog.trans h.writeLog
  reset := fun hreset => h'.reset (h.reset hreset)
  writeOpen := fun hopen hreset => by
    rw [h'.writeOpen hopen hreset]
    rw [Bool.eq_false_iff] at hopen hreset
    exact h.writeOpen (Bool.eq_false_iff.mpr (mt hcl hopen))
      (Bool.eq_false_iff.mpr (mt h'.reset hreset))

end Cell

/-- What a frame leaves of the stream it is for. -/
structure StreamInner.Tended (s s' : StreamInner) : Prop where
  id : s'.id = s.id
  reset : s.state.reset = true → s'.state.reset = true
  writeOpen : s'.state.reset = false → s'.state.writeOpen = s.state.writeOpen

namespace StreamInner

variable {s s' : StreamInner}

theorem Tended.of_state (hid : s'.id = s.id)
    (hreset : s'.state.reset = s.state.reset)
    (hwrite : s'.state.writeOpen = s.state.writeOpen) : Tended s s' :=
  ⟨hid, hreset.trans, fun _ => hwrite⟩

theorem Tended.trans {s'' : StreamInner} (h : Tended s s')
    (h' : Tended s' s'') : Tended s s'' where
  id := h'.id.trans h.id
  reset := fun hreset => h'.reset (h.reset hreset)
  writeOpen := fun hreset => by
    rw [h'.writeOpen hreset]
    rw [Bool.eq_false_iff] at hreset
    exact h.writeOpen (Bool.eq_false_iff.mpr (mt h'.reset hreset))

/-- A stream that is reset has nothing more to keep. -/
theorem Tended.of_reset (hid : s'.id = s.id) (hreset : s'.state.reset = true) :
    Tended s s' := by
  refine ⟨hid, fun _ => hreset, fun hnot => ?_⟩
  rw [hreset] at hnot
  cases hnot

theorem tended_localReset (s : StreamInner) : Tended s s.localReset.1 := by
  refine .of_reset ?_ ?_ <;>
  · unfold localReset
    dsimp only
    split <;> rfl

theorem tended_pushData (s : StreamInner) (payload : Bytes) :
    Tended s (s.pushData payload) := by
  unfold pushData
  split <;> exact .of_state rfl rfl rfl

theorem tended_deliverTo (s : StreamInner) (flags : Flags) (payload : Bytes) :
    Tended s (Session.deliverTo s flags payload).2.1 := by
  -- one acknowledgement, then one payload, then the two flags
  have hacked : Tended s
      (if flags.contains Flags.ack then s.markAcked else s) := by
    split <;> exact .of_state rfl rfl rfl
  unfold Session.deliverTo
  generalize (if flags.contains Flags.ack then s.markAcked else s) = acked
    at hacked ⊢
  dsimp only
  split
  · exact hacked.trans acked.tended_localReset
  · have hpushed : Tended s
        (if payload.isEmpty then acked else acked.pushData payload) := by
      split
      · exact hacked
      · exact hacked.trans (acked.tended_pushData payload)
    generalize (if payload.isEmpty then acked else acked.pushData payload)
      = pushed at hpushed ⊢
    have hshut : Tended s
        (if flags.contains Flags.fin then pushed.remoteFin else pushed) := by
      split
      · exact hpushed.trans (.of_state rfl rfl rfl)
      · exact hpushed
    generalize (if flags.contains Flags.fin then pushed.remoteFin else pushed)
      = shut at hshut ⊢
    split
    · exact .of_reset hshut.id rfl
    · exact hshut

end StreamInner

theorem Cell.Tended.of_inner {closing : Bool} {c : Cell} {inner : StreamInner}
    (h : StreamInner.Tended c.inner inner) :
    Tended closing c { c with inner := inner } :=
  ⟨h.id, rfl, rfl, rfl, h.reset, fun _ => h.writeOpen⟩

namespace Session

variable {s s' : Session}

/-- A session in which every stream was tended. -/
structure Tends (s s' : Session) : Prop where
  cells : ∀ (n : Ref) (c : Cell), s.streams[n]? = some c →
    ∃ c', s'.streams[n]? = some c' ∧ Cell.Tended s'.isClosing c c'
  closing : s.isClosing = true → s'.isClosing = true

theorem Tends.of_streams (hstreams : s'.streams = s.streams)
    (hclosing : s.isClosing = true → s'.isClosing = true) : Tends s s' :=
  ⟨fun _ c hc => ⟨c, hstreams ▸ hc, .refl _ c⟩, hclosing⟩

theorem Tends.refl (s : Session) : Tends s s := .of_streams rfl id

theorem Tends.trans {s'' : Session} (h : Tends s s') (h' : Tends s' s'') :
    Tends s s'' := by
  refine ⟨fun n c hc => ?_, fun hcl => h'.closing (h.closing hcl)⟩
  obtain ⟨c', hc', hkept⟩ := h.cells n c hc
  obtain ⟨c'', hc'', hkept'⟩ := h'.cells n c' hc'
  exact ⟨c'', hc'', hkept.trans hkept' h'.closing⟩

theorem Tends.update {n : Ref} {c c' : Cell} (hc : s.streams[n]? = some c)
    (hkept : Cell.Tended s.isClosing c c') (emit : Emit) :
    Tends s (s.update n c' emit) := by
  refine ⟨fun m d hd => ?_, id⟩
  by_cases hm : m = n
  · subst hm
    obtain rfl := Option.some.inj (hc.symm.trans hd)
    exact ⟨c', Keyed.getElem?_set_here hc c', hkept⟩
  · refine ⟨d, ?_, .refl _ d⟩
    exact (Keyed.getElem?_set_at hc c' m).trans ((if_neg hm).trans hd)

theorem Tends.append {d : Cell} (hstreams : s'.streams = s.streams ++ [d])
    (hclosing : s'.isClosing = s.isClosing) : Tends s s' := by
  refine ⟨fun n c hc => ⟨c, ?_, .refl _ c⟩, hclosing.trans⟩
  rw [hstreams, List.getElem?_append_left (List.getElem?_eq_some_iff.mp hc).1]
  exact hc

theorem tends_enqueue (s : Session) (f : Frame) : Tends s (s.enqueue f) :=
  .of_streams rfl id

theorem tended_force (c : Cell) : Cell.Tended true c (force c) :=
  ⟨rfl, rfl, rfl, rfl, id, fun hopen => by cases hopen⟩

theorem tends_initiateShutdown (s : Session) (code : ErrorCode) :
    Tends s (s.initiateShutdown code) := by
  cases hcl : s.isClosing with
  | true =>
      rw [initiateShutdown_again hcl]
      exact .refl s
  | false =>
      rw [initiateShutdown_eq hcl]
      refine ⟨fun n c hc => ?_, fun _ => rfl⟩
      have hget := Keyed.getElem?_modifyAll force_idem s.registry.drain.1
        s.streams n
      rw [hc, Option.map_some] at hget
      refine ⟨_, hget, ?_⟩
      split
      · exact tended_force c
      · exact .refl _ c

theorem tends_readerFail (s : Session) (e : Error) :
    Tends s (s.readerFail e) :=
  (tends_initiateShutdown s (errorCodeOf e)).trans (.of_streams rfl id)

theorem tends_handleStream (s : Session) (i : StreamId) (flags : Flags)
    (payload : Bytes) : Tends s (s.handleStream i flags payload).2 := by
  unfold handleStream
  split
  · split
    · exact tends_enqueue s _
    · exact .refl s
  · rename_i n c hfind
    exact .update (find_some hfind).2
      (.of_inner (c.inner.tended_deliverTo flags payload)) _

theorem tends_dispatch (s : Session) (f : Frame) :
    Tends s (s.dispatch f).2 := by
  cases f with
  | data i flags payload =>
      simp only [dispatch, handleData]
      split
      · exact .refl s
      · split
        · obtain ⟨e, he⟩ | hrst | ⟨g, -, -, -, hmade⟩ := s.handleSyn_cases i
          · rw [he]
            exact .refl s
          · rw [hrst]
            exact tends_enqueue s _
          · obtain ⟨-, haway⟩ | ⟨-, hqueued⟩ := hmade
            · rw [haway]
              exact (Tends.append rfl rfl : Tends s (s.turningAway i g)).trans
                (tends_enqueue _ _)
            · rw [hqueued]
              exact (Tends.append rfl rfl : Tends s (s.accepting i g)).trans
                (tends_handleStream _ i flags payload)
        · exact tends_handleStream s i flags payload
  | windowUpdate i flags delta =>
      simp only [dispatch, handleWindowUpdate]
      split
      · exact .refl s
      · rename_i n c hfind
        have hgranted : StreamInner.Tended c.inner
            (c.inner.grantSendCredit delta) := .of_state rfl rfl rfl
        exact .update (find_some hfind).2 (.of_inner hgranted) _
  | ping flags nonce =>
      simp only [dispatch, handlePing]
      split <;> exact .of_streams rfl id
  | goAway code =>
      exact (Tends.of_streams rfl id : Tends s s.notePeerGone).trans
        (tends_initiateShutdown _ code)

theorem tends_readerNext (s : Session) (f : Frame) :
    Tends s (s.readerNext f) := by
  unfold readerNext
  split
  · exact tends_readerFail s _
  · exact .refl s
  · rename_i g _
    have hdispatch := tends_dispatch s g
    split
    · rename_i hd
      rw [hd] at hdispatch
      exact hdispatch
    · rename_i hd
      rw [hd] at hdispatch
      exact hdispatch.trans (tends_readerFail _ _)

theorem tends_writerNext (s : Session) : Tends s s.writerNext.2 := by
  have hpopped : ∀ rest, Tends s (System.popOut s rest) :=
    fun rest => .of_streams rfl id
  obtain heq | ⟨f, rest, -, -, heq⟩ | ⟨f, rest, -, -, heq⟩ | ⟨-, -, heq⟩ |
    ⟨-, f, rest, -, heq⟩ | ⟨-, heq⟩ := s.writerNext_cases
  case inr.inr.inl =>
    rw [heq]
    exact ((hpopped rest).trans (tends_initiateShutdown _ _)).trans
      (.of_streams rfl id)
  all_goals
    rw [heq]
    exact .of_streams rfl id

end Session

namespace System

/-- **The tasks of both sides tend every stream.** -/
theorem tends_task (S : System) {a : Action} (hact : a.act.isTask = true)
    (r : Role) : Session.Tends (S.ends r) ((S.step a).ends r) := by
  obtain ⟨q, act⟩ := a
  have hput : ∀ s, Session.Tends (S.ends q) s →
      Session.Tends (S.ends r) ((S.put q s).ends r) := by
    intro s hs
    rcases Role.eq_or_eq_peer q r with rfl | rfl
    · rwa [put_ends_self]
    · rw [put_ends_ne S s (Role.peer_ne q)]
      exact .refl _
  cases act with
  | writerNext => exact hput _ (S.ends q).tends_writerNext
  | readerNext =>
      show Session.Tends _ ((S.readerTurn q).ends r)
      unfold readerTurn
      split
      · exact .refl _
      · split
        · exact .refl _
        · exact hput _ ((S.ends q).tends_readerNext _)
  | readerEof =>
      show Session.Tends _ ((S.eofTurn q).ends r)
      unfold eofTurn
      split
      · exact hput _ (((S.ends q).tends_initiateShutdown .normal).trans
          (.of_streams rfl id))
      · exact .refl _
  | writerStop | readerStop | closerNext | closerStop =>
      refine hput _ ?_
      simp only [Session.writerStop, Session.readerStop, Session.closerNext,
        Session.closerStop]
      split <;> exact .of_streams rfl id
  | _ => cases hact

/-- Neither side is closing. -/
def Open (S : System) : Prop := ∀ r, (S.ends r).isClosing = false

instance (S : System) : Decidable S.Open :=
  decidable_of_iff ((S.ends .client).isClosing = false ∧
      (S.ends .server).isClosing = false)
    ⟨fun h r => by cases r <;> simp [h], fun h => ⟨h _, h _⟩⟩

theorem Good.open_of_step {cfg : Role → Config} {S : System} (h : Good cfg S)
    {a : Action} (hopen : (S.step a).Open) : S.Open := by
  intro r
  have hafter := hopen r
  rw [Bool.eq_false_iff] at hafter ⊢
  exact mt ((h.turn a).moves.closing r) hafter

theorem Reachable.step {cfg : Role → Config} {S : System}
    (h : Reachable cfg S) (a : Action) : Reachable cfg (S.step a) := by
  obtain ⟨as, rfl⟩ := h
  exact ⟨as ++ [a], Run.run_append ..⟩

end System

end NetMux
