import NetMux.Link.Invariant

/-!
# The handshake

Only one side opens streams with a given id.  Its `SYN` is the first message
of the pipe, the other side has no stream and has sent nothing while the
`SYN` is under way, and nobody holds a handle before both streams exist.
-/

namespace NetMux

/-- The handshake, seen by the opening end `O` and the accepting end `A`;
`fo` and `fa` are the messages each has under way. -/
structure Handshake (o : Role) (i : StreamId) (O A : End)
    (fo fa : List Msg) : Prop where
  fresh : O.cell = none → A.cell = none ∧ fo = [] ∧ fa = []
  owned : O.cell ≠ none → o.owns i = true
  notQueued : ∀ c, O.cell = some c → c.owner ≠ .queued
  synBack : Msg.syn ∉ fa
  synFirst : Msg.syn ∉ fo.tail
  waiting : Msg.syn ∈ fo → A.cell = none ∧ fa = [] ∧
    ∀ c, O.cell = some c → O.listening = true →
      c.inner.state.readOpen = true
  acking : Msg.ack ∈ fa → A.cell ≠ none
  acked : ∀ c, O.cell = some c →
    c.inner.ackReceived = true ∨ c.owner = .handle ∨ c.owner = .dropped →
      A.cell ≠ none

namespace Handshake

variable {o : Role} {i : StreamId} {O A O' A' : End} {fo fa ms : List Msg}

/-- While the `SYN` is under way the opening side has no handle yet. -/
theorem no_handle (h : Handshake o i O A fo fa) {c : Cell}
    (hc : O.cell = some c)
    (hack : c.inner.ackReceived = true ∨ c.owner = .handle ∨
      c.owner = .dropped) : Msg.syn ∉ fo :=
  fun hsyn => h.acked c hc hack (h.waiting hsyn).1

/-- A step of the opening side that sends no `SYN`. -/
theorem opener_moves (h : Handshake o i O A fo fa) {c c' : Cell}
    (hc : O.cell = some c) (hc' : O'.cell = some c') (hms : Msg.syn ∉ ms)
    (hq : c'.owner = .queued → c.owner = .queued)
    (hack : c'.inner.ackReceived = true ∨ c'.owner = .handle ∨
      c'.owner = .dropped → A.cell ≠ none)
    (hread : Msg.syn ∈ fo → O'.listening = true →
      c'.inner.state.readOpen = true) :
    Handshake o i O' A (fo ++ ms) fa where
  fresh := by rw [hc']; simp
  owned := fun _ => h.owned (by simp [hc])
  notQueued := by
    intro d hd hd'
    obtain rfl := Option.some.inj (hc'.symm.trans hd)
    exact h.notQueued c hc (hq hd')
  synBack := h.synBack
  synFirst := by
    cases fo with
    | nil => exact fun hmem => hms (List.mem_of_mem_tail hmem)
    | cons f fo =>
        intro hmem
        rcases List.mem_append.mp hmem with hmem | hmem
        · exact h.synFirst hmem
        · exact hms hmem
  waiting := by
    intro hsyn
    have hfo : Msg.syn ∈ fo := (List.mem_append.mp hsyn).resolve_right hms
    obtain ⟨hA, hfa, -⟩ := h.waiting hfo
    refine ⟨hA, hfa, ?_⟩
    intro d hd
    obtain rfl := Option.some.inj (hc'.symm.trans hd)
    exact hread hfo
  acking := h.acking
  acked := by
    intro d hd hd'
    obtain rfl := Option.some.inj (hc'.symm.trans hd)
    exact hack hd'

/-- A step of the accepting side: without a stream it says nothing. -/
theorem acceptor_moves (h : Handshake o i O A fo fa) (hms : Msg.syn ∉ ms)
    (hnone : A.cell = none → A'.cell = none ∧ ms = [])
    (hsome : A.cell ≠ none → A'.cell ≠ none) :
    Handshake o i O A' fo (fa ++ ms) where
  fresh := by
    intro hO
    obtain ⟨hA, hfo, hfa⟩ := h.fresh hO
    obtain ⟨hA', hms'⟩ := hnone hA
    exact ⟨hA', hfo, by rw [hfa, hms']; rfl⟩
  owned := h.owned
  notQueued := h.notQueued
  synBack := by
    rw [List.mem_append]
    exact fun hmem => hmem.elim h.synBack hms
  synFirst := h.synFirst
  waiting := by
    intro hsyn
    obtain ⟨hA, hfa, hread⟩ := h.waiting hsyn
    obtain ⟨hA', hms'⟩ := hnone hA
    exact ⟨hA', by rw [hfa, hms']; rfl, hread⟩
  acking := by
    intro hack
    apply hsome
    intro hA
    rw [(hnone hA).2, List.append_nil] at hack
    exact h.acking hack hA
  acked := fun c hc hack => hsome (h.acked c hc hack)

/-- Losing messages does no harm. -/
theorem shrink (h : Handshake o i O A fo fa) {fo' fa' : List Msg}
    (hO : O'.cell = O.cell) (hOl : O'.listening = O.listening)
    (hA : A'.cell = A.cell) (hfo : fo'.Sublist fo) (hfa : fa'.Sublist fa) :
    Handshake o i O' A' fo' fa' where
  fresh := by
    intro hnone
    rw [hO] at hnone
    obtain ⟨hA', rfl, rfl⟩ := h.fresh hnone
    exact ⟨hA.trans hA', List.sublist_nil.mp hfo, List.sublist_nil.mp hfa⟩
  owned := by rw [hO]; exact h.owned
  notQueued := by rw [hO]; exact h.notQueued
  synBack := fun hmem => h.synBack (hfa.subset hmem)
  synFirst := fun hmem => h.synFirst (hfo.tail.subset hmem)
  waiting := by
    intro hsyn
    obtain ⟨hA', rfl, hread⟩ := h.waiting (hfo.subset hsyn)
    rw [hO, hOl]
    exact ⟨hA.trans hA', List.sublist_nil.mp hfa, hread⟩
  acking := by
    rw [hA]
    exact fun hack => h.acking (hfa.subset hack)
  acked := by rw [hO, hA]; exact h.acked

end Handshake

/-! ## Which messages a step sends -/

theorem End.mem_post {E : End} {ms : List Msg} {m : Msg}
    (h : m ∈ E.post ms) : m ∈ ms := by
  unfold End.post at h
  split at h
  · cases h
  · exact h

theorem Cell.mem_resetMsgs {c : Cell} {m : Msg} (h : m ∈ c.resetMsgs) :
    m = .rst := by
  unfold Cell.resetMsgs at h
  split at h
  · cases h
  · exact List.mem_singleton.mp h

/-- Only opening a stream sends a `SYN`. -/
theorem LocalStep.syn_only_opened {cfg : Config} {i : StreamId} {r : Role}
    {E E' : End} {e : Ev} {ms : List Msg} (h : LocalStep cfg i r E e E' ms)
    (hcell : E.cell ≠ none) : Msg.syn ∉ ms := by
  intro hmem
  cases h with
  | opened hown hnone hout => exact hcell hnone
  | read remaining _ _ =>
      obtain ⟨_, hm⟩ := Cell.readMsgs_credit _ _ hmem
      cases hm
  | reset _ _ => cases Cell.mem_resetMsgs hmem
  | faulted _ _ => cases Cell.mem_resetMsgs hmem
  | _ => simp at hmem

/-- Without a stream a side sends nothing by itself, except to open one. -/
theorem LocalStep.none_silent {cfg : Config} {i : StreamId} {r : Role}
    {E E' : End} {e : Ev} {ms : List Msg} (h : LocalStep cfg i r E e E' ms)
    (hcell : E.cell = none) :
    (E'.cell = none ∧ ms = []) ∨
      (r.owns i = true ∧ E.outClosed = false ∧ ms = [.syn] ∧
        E' = { E with
          cell := some (Cell.new (StreamInner.new i .locally cfg) .opening)
          registered := true }) := by
  cases h with
  | opened hown hnone hout => exact .inr ⟨hown, hout, rfl, rfl⟩
  | shutdown hopen =>
      left
      refine ⟨?_, rfl⟩
      simp only [hcell, Option.map_none]
      split <;> rfl
  | readerDone hclosing => exact .inl ⟨hcell, rfl⟩
  | _ => simp_all

/-! ## The handshake is kept -/

namespace Handshake

variable {cfg : Config} {o : Role} {i : StreamId} {O A E' : End} {e : Ev}
  {m : Msg} {fo fa rest ms : List Msg}

/-- The messages a step hands over hold no `SYN` unless it opens. -/
private theorem syn_not_posted {r : Role} {E : End}
    (hs : LocalStep cfg i r E e E' ms) (hcell : E.cell ≠ none) :
    Msg.syn ∉ E.post ms :=
  fun hmem => hs.syn_only_opened hcell (End.mem_post hmem)

/-- The opening side acts. -/
theorem opener_acts (h : Handshake o i O A fo fa)
    (hs : LocalStep cfg i o O e E' ms) :
    Handshake o i E' A (fo ++ O.post ms) fa := by
  cases hcell : O.cell with
  | none =>
      obtain ⟨hA, rfl, rfl⟩ := h.fresh hcell
      rcases hs.none_silent hcell with ⟨hE', rfl⟩ | ⟨hown, hout, rfl, rfl⟩
      · have hpost : O.post [] = [] := by simp [End.post]
        rw [hpost]
        exact ⟨fun _ => ⟨hA, rfl, rfl⟩, fun hne => absurd hE' hne,
          by simp [hE'], by simp, by simp, by simp, by simp, by simp [hE']⟩
      · have hpost : O.post [.syn] = [.syn] := by simp [End.post, hout]
        rw [hpost]
        refine ⟨by simp, fun _ => hown, ?_, by simp, by simp, ?_, by simp, ?_⟩
        · rintro c ⟨⟩ hq
          cases hq
        · refine fun _ => ⟨hA, rfl, ?_⟩
          rintro c ⟨⟩ _
          rfl
        · rintro c ⟨⟩ hack
          simp [Cell.new, StreamInner.new] at hack
  | some c =>
      have hms := syn_not_posted hs (by simp [hcell])
      have hstay : Msg.syn ∈ fo → O.listening = true →
          c.inner.state.readOpen = true :=
        fun hsyn => (h.waiting hsyn).2.2 c hcell
      have hhandle : c.owner = .handle → Msg.syn ∉ fo :=
        fun howner => h.no_handle hcell (.inr (.inl howner))
      have hacked := h.acked c hcell
      cases hs with
      | opened hown hnone hout => rw [hnone] at hcell; cases hcell
      | connected hc howner hack =>
          obtain rfl := Option.some.inj (hc.symm.trans hcell)
          exact h.opener_moves hcell rfl hms (by simp) (fun _ => hacked (.inl hack))
            hstay
      | abandoned keep hc howner =>
          obtain rfl := Option.some.inj (hc.symm.trans hcell)
          refine h.opener_moves hcell rfl hms (by simp) ?_ ?_
          · simp only [reduceCtorEq, or_self, or_false]
            exact fun hack => hacked (.inl hack)
          · intro hsyn hl
            apply hstay hsyn
            simp only [End.listening, Bool.and_eq_true] at hl ⊢
            exact ⟨hl.1.1, hl.2⟩
      | timedOut hc howner =>
          obtain rfl := Option.some.inj (hc.symm.trans hcell)
          refine h.opener_moves hcell rfl hms (by simp) ?_ ?_
          · simp only [reduceCtorEq, or_self, or_false]
            exact fun hack => hacked (.inl hack)
          · simp [End.listening]
      | accepted hc howner hout =>
          obtain rfl := Option.some.inj (hc.symm.trans hcell)
          exact absurd howner (h.notQueued _ hcell)
      | read remaining hc howner =>
          obtain rfl := Option.some.inj (hc.symm.trans hcell)
          exact h.opener_moves hcell rfl hms (fun h => h)
            (fun _ => hacked (.inr (.inl howner)))
            (fun hsyn => absurd hsyn (hhandle howner))
      | wrote buf hc howner hopen hout =>
          obtain rfl := Option.some.inj (hc.symm.trans hcell)
          exact h.opener_moves hcell rfl hms (fun h => h) hacked hstay
      | writeFailed hc howner hout =>
          obtain rfl := Option.some.inj (hc.symm.trans hcell)
          exact h.opener_moves hcell rfl hms (fun h => h) hacked hstay
      | finished hc howner hopen =>
          obtain rfl := Option.some.inj (hc.symm.trans hcell)
          exact h.opener_moves hcell rfl hms (fun h => h) hacked hstay
      | dropped hc howner hshut =>
          obtain rfl := Option.some.inj (hc.symm.trans hcell)
          exact h.opener_moves hcell rfl hms (by simp)
            (fun _ => hacked (.inr (.inl howner))) hstay
      | reset hc howner =>
          obtain rfl := Option.some.inj (hc.symm.trans hcell)
          exact h.opener_moves hcell rfl hms (fun h => h)
            (fun _ => hacked (.inr (.inl howner)))
            (fun hsyn => absurd hsyn (hhandle howner))
      | faulted hc hdone =>
          obtain rfl := Option.some.inj (hc.symm.trans hcell)
          exact h.opener_moves hcell rfl hms (fun h => h)
            (by rw [StreamInner.localReset_acked]; exact hacked)
            (by simp [End.listening, hdone])
      | shutdown hopen =>
          obtain ⟨c', hc', hlater⟩ := (LocalStep.shutdown hopen :
            LocalStep cfg i o O _ _ _).later hcell
          have hsame : c'.owner = c.owner ∧
              c'.inner.ackReceived = c.inner.ackReceived := by
            simp only [hcell, Option.map_some] at hc'
            split at hc' <;> obtain rfl := Option.some.inj hc' <;>
              exact ⟨rfl, rfl⟩
          exact h.opener_moves hcell hc' hms (by rw [hsame.1]; exact fun h => h)
            (by rw [hsame.1, hsame.2]; exact hacked)
            (by simp [End.listening])
      | readerDone hclosing =>
          exact h.opener_moves hcell hcell hms (fun h => h) hacked
            (by simp [End.listening])
      | removed hc hrel =>
          exact h.opener_moves hcell hcell hms (fun h => h) hacked
            (by simp [End.listening])

/-- The accepting side acts. -/
theorem acceptor_acts (h : Handshake o i O A fo fa) (ho : o.peer.owns i = false)
    (hs : LocalStep cfg i o.peer A e E' ms) :
    Handshake o i O E' fo (fa ++ A.post ms) := by
  have hnone : A.cell = none → E'.cell = none ∧ ms = [] := by
    intro hA
    rcases hs.none_silent hA with hsilent | ⟨hown, -⟩
    · exact hsilent
    · rw [ho] at hown
      cases hown
  apply h.acceptor_moves
  · intro hmem
    have hmem := End.mem_post hmem
    by_cases hA : A.cell = none
    · rw [(hnone hA).2] at hmem
      cases hmem
    · exact hs.syn_only_opened hA hmem
  · intro hA
    refine ⟨(hnone hA).1, ?_⟩
    rw [(hnone hA).2]
    simp [End.post]
  · intro hA
    obtain ⟨c, hc⟩ := Option.ne_none_iff_exists'.mp hA
    obtain ⟨c', hc', -⟩ := hs.later hc
    simp [hc']

/-- A message reaches the opening side. -/
theorem opener_hears (h : Handshake o i O A fo (m :: rest))
    (hs : DeliverStep cfg i o O m e E' ms) :
    Handshake o i E' A (fo ++ O.post ms) rest := by
  have hsyn : Msg.syn ∉ fo := fun hmem => by
    have hfa := (h.waiting hmem).2.1
    cases hfa
  have hms : Msg.syn ∉ O.post ms := by
    intro hmem
    have hmem := End.mem_post hmem
    cases hs <;> simp at hmem
  have htail : rest.Sublist (m :: rest) := List.sublist_cons_self m rest
  have hrest : Handshake o i O A fo rest :=
    h.shrink rfl rfl rfl (List.Sublist.refl fo) htail
  have hne : O.cell ≠ none := fun hnone => by
    have hfa := (h.fresh hnone).2.2
    cases hfa
  have hread : ∀ {P : Prop}, Msg.syn ∈ fo → P := fun hmem => absurd hmem hsyn
  cases hs with
  | created hnone hdone => exact absurd hnone hne
  | @acked c hc hlisten =>
      -- the acknowledgement itself shows that the other stream exists
      have hA : A.cell ≠ none := h.acking (List.mem_cons_self ..)
      exact hrest.opener_moves hc rfl hms (fun h => h) (fun _ => hA) hread
  | @data c payload hc hlisten hopen =>
      refine hrest.opener_moves hc rfl hms (fun h => h) ?_ hread
      rw [StreamInner.pushData_eq]
      exact h.acked c hc
  | @fin c hc hlisten =>
      exact hrest.opener_moves hc rfl hms (fun h => h) (h.acked c hc) hread
  | @rst c hc hlisten =>
      exact hrest.opener_moves hc rfl hms (fun h => h) (h.acked c hc) hread
  | @credit c delta hc hlisten =>
      exact hrest.opener_moves hc rfl hms (fun h => h) (h.acked c hc) hread
  | refused hreg hm =>
      obtain ⟨c, hc⟩ := Option.ne_none_iff_exists'.mp hne
      exact hrest.opener_moves hc hc hms (fun h => h) (h.acked c hc) hread
  | ignored hm =>
      obtain ⟨c, hc⟩ := Option.ne_none_iff_exists'.mp hne
      exact hrest.opener_moves hc hc hms (fun h => h) (h.acked c hc) hread

/-- A message reaches the accepting side.  The `SYN` is the first message, so
afterwards none is under way. -/
theorem acceptor_hears (h : Handshake o i O A (m :: rest) fa)
    (hs : DeliverStep cfg i o.peer A m e E' ms) :
    Handshake o i O E' rest (fa ++ A.post ms) := by
  have hrest : Msg.syn ∉ rest := h.synFirst
  have hms : Msg.syn ∉ A.post ms ∧ Msg.ack ∉ A.post ms := by
    constructor <;> intro hmem <;> have hmem := End.mem_post hmem <;>
      cases hs <;> simp at hmem
  have hne : O.cell ≠ none := fun hnone => by
    have hfo := (h.fresh hnone).2.1
    cases hfo
  have hkeep : A.cell ≠ none → E'.cell ≠ none := by
    intro hA
    obtain ⟨c, hc⟩ := Option.ne_none_iff_exists'.mp hA
    obtain ⟨c', hc', -⟩ := hs.later hc
    simp [hc']
  refine ⟨fun hnone => absurd hnone hne, h.owned, h.notQueued, ?_, ?_, ?_, ?_,
    fun c hc hack => hkeep (h.acked c hc hack)⟩
  · rw [List.mem_append]
    exact fun hmem => hmem.elim h.synBack hms.1
  · exact fun hmem => hrest (List.mem_of_mem_tail hmem)
  · exact fun hmem => absurd hmem hrest
  · intro hmem
    exact hkeep (h.acking ((List.mem_append.mp hmem).resolve_right hms.2))

end Handshake

end NetMux
