import NetMux.Stream.Inner

/-!
# What every stream operation preserves

`StreamInner.Ok` collects the facts that hold of a stream from its creation
on, whatever is done to it and in whatever order: a reset stream has both
halves and its send window closed, a stream that sent its final frame has its
write half closed, and the credit not yet returned stays below the threshold
at which it is returned.  `StreamInner.Same` says what no operation touches.
-/

namespace NetMux

namespace StreamInner

/-- The stream's identity: what no operation changes. -/
structure Same (s s' : StreamInner) : Prop where
  id : s'.id = s.id
  config : s'.config = s.config
  initial : s'.recvWindow.initial = s.recvWindow.initial

theorem Same.refl (s : StreamInner) : Same s s := ⟨rfl, rfl, rfl⟩

theorem Same.trans {s s' s'' : StreamInner} (h : Same s s')
    (h' : Same s' s'') : Same s s'' :=
  ⟨h'.id.trans h.id, h'.config.trans h.config, h'.initial.trans h.initial⟩

/-- The invariant of a single stream. -/
structure Ok (s : StreamInner) : Prop where
  resetShut : s.state.reset = true →
    s.state.readOpen = false ∧ s.state.writeOpen = false ∧
      s.sendWindow.closed = true
  finShut : s.finSent = true → s.state.writeOpen = false
  pendingLt : s.recvWindow.pendingCredit.toNat < s.recvWindow.threshold.toNat

theorem ok_new (id : StreamId) (origin : Origin) (config : Config) :
    Ok (new id origin config) where
  resetShut := by simp [new, StreamState.new]
  finShut := by simp [new]
  pendingLt := by
    rw [RecvWindow.toNat_threshold]
    simp only [new, RecvWindow.new, UInt32.toNat_zero]
    omega

/-! ## Operations that leave the windows' accounting alone -/

theorem pushData_same (s : StreamInner) (payload : Bytes) :
    Same s (s.pushData payload) := by
  unfold pushData
  split <;> exact ⟨rfl, rfl, rfl⟩

/-- Received bytes go to the buffer and change nothing else. -/
theorem pushData_eq (s : StreamInner) (payload : Bytes) :
    s.pushData payload =
      { s with recv := (s.pushData payload).recv } := by
  unfold pushData
  split <;> rfl

theorem pushData_state (s : StreamInner) (payload : Bytes) :
    (s.pushData payload).state = s.state := by
  rw [pushData_eq]

theorem Ok.pushData {s : StreamInner} (h : Ok s) (payload : Bytes) :
    Ok (s.pushData payload) := by
  unfold StreamInner.pushData
  split
  · exact h
  · exact ⟨h.resetShut, h.finShut, h.pendingLt⟩

theorem pushData_contents (s : StreamInner) (payload : Bytes) :
    (s.pushData payload).recv.contents = s.recv.contents ++ payload := by
  unfold pushData
  split
  · rename_i hempty
    rw [List.isEmpty_iff.mp hempty, List.append_nil]
  · exact RecvBuffer.contents_push _ _

theorem remoteFin_same (s : StreamInner) : Same s s.remoteFin :=
  ⟨rfl, rfl, rfl⟩

theorem Ok.remoteFin {s : StreamInner} (h : Ok s) : Ok s.remoteFin where
  resetShut := fun hr => ⟨rfl, (h.resetShut hr).2⟩
  finShut := h.finShut
  pendingLt := h.pendingLt

theorem remoteReset_same (s : StreamInner) : Same s s.remoteReset.1 :=
  ⟨rfl, rfl, rfl⟩

theorem Ok.remoteReset {s : StreamInner} (h : Ok s) : Ok s.remoteReset.1 where
  resetShut := fun _ => ⟨rfl, rfl, rfl⟩
  finShut := fun _ => rfl
  pendingLt := h.pendingLt

theorem markAcked_same (s : StreamInner) : Same s s.markAcked :=
  ⟨rfl, rfl, rfl⟩

theorem Ok.markAcked {s : StreamInner} (h : Ok s) : Ok s.markAcked :=
  ⟨h.resetShut, h.finShut, h.pendingLt⟩

/-- Waiting for the acknowledgement succeeds only when it came. -/
theorem waitAcked_ok {s : StreamInner} {u : Unit}
    (h : s.waitAcked = .ready (.ok u)) : s.ackReceived = true := by
  unfold waitAcked at h
  split at h
  · assumption
  · split_ifs at h <;> cases h

theorem forceClose_same (s : StreamInner) : Same s s.forceClose :=
  ⟨rfl, rfl, rfl⟩

theorem Ok.forceClose {s : StreamInner} (h : Ok s) : Ok s.forceClose where
  resetShut := fun _ => ⟨rfl, rfl, rfl⟩
  finShut := fun _ => rfl
  pendingLt := h.pendingLt

/-- Granting credit changes the credit only. -/
theorem grantSendCredit_same (s : StreamInner) (delta : UInt32) :
    Same s (s.grantSendCredit delta) :=
  ⟨rfl, rfl, rfl⟩

theorem Ok.grantSendCredit {s : StreamInner} (h : Ok s) (delta : UInt32) :
    Ok (s.grantSendCredit delta) where
  resetShut := fun hr => by
    obtain ⟨h₁, h₂, h₃⟩ := h.resetShut hr
    exact ⟨h₁, h₂, (SendWindow.grant_closed _ _).trans h₃⟩
  finShut := h.finShut
  pendingLt := h.pendingLt

/-! ## Final frames -/

/-- On an open stream `local_fin` closes the write half and sends `FIN`. -/
theorem localFin_open {s : StreamInner} (h : Ok s)
    (hw : s.state.writeOpen = true) :
    s.localFin =
      ({ s with
          state := { s.state with writeOpen := false }
          finSent := true },
        ⟨[.fin s.id], []⟩) := by
  have hreset : s.state.reset = false := by
    by_contra hr
    rw [Bool.not_eq_false] at hr
    rw [(h.resetShut hr).2.1] at hw
    exact absurd hw (by decide)
  have hfin : s.finSent = false := by
    by_contra hf
    rw [Bool.not_eq_false] at hf
    rw [h.finShut hf] at hw
    exact absurd hw (by decide)
  simp [localFin, hreset, StreamState.closeWrite, hw, hfin]

/-- With the write half closed `local_fin` does nothing. -/
theorem localFin_shut {s : StreamInner} (hw : s.state.writeOpen = false) :
    s.localFin = (s, .none) := by
  obtain ⟨id, config, ⟨readOpen, writeOpen, reset⟩, sw, rw', recv, ack, fin⟩ := s
  simp only at hw
  subst hw
  cases reset <;> simp [localFin, StreamState.closeWrite]

theorem localFin_same {s : StreamInner} (h : Ok s) : Same s s.localFin.1 := by
  cases hw : s.state.writeOpen with
  | true => rw [localFin_open h hw]; exact ⟨rfl, rfl, rfl⟩
  | false => rw [localFin_shut hw]; exact Same.refl s

theorem Ok.localFin {s : StreamInner} (h : Ok s) : Ok s.localFin.1 := by
  cases hw : s.state.writeOpen with
  | true =>
      rw [localFin_open h hw]
      exact
        { resetShut := fun hr => ⟨(h.resetShut hr).1, rfl, (h.resetShut hr).2.2⟩
          finShut := fun _ => rfl
          pendingLt := h.pendingLt }
  | false => rw [localFin_shut hw]; exact h

/-- `local_reset` on a stream that is not reset yet.  The `RST` is sent only
when no `FIN` was. -/
theorem localReset_first {s : StreamInner} (hr : s.state.reset = false) :
    s.localReset =
      ({ s with
          state := ⟨false, false, true⟩
          finSent := true
          sendWindow := s.sendWindow.close },
        ⟨if s.finSent then [] else [.rst s.id], [s.id]⟩) := by
  simp [localReset, StreamState.markReset, hr]

/-- On a reset stream `local_reset` does nothing. -/
theorem localReset_again {s : StreamInner} (h : Ok s)
    (hr : s.state.reset = true) : s.localReset = (s, .none) := by
  obtain ⟨hread, hwrite, -⟩ := h.resetShut hr
  obtain ⟨id, config, ⟨readOpen, writeOpen, reset⟩, sw, rw', recv, ack, fin⟩ := s
  simp only at hr hread hwrite
  subst hr hread hwrite
  rfl

theorem localReset_same {s : StreamInner} : Same s s.localReset.1 := by
  unfold localReset
  dsimp only
  split <;> exact ⟨rfl, rfl, rfl⟩

theorem Ok.localReset {s : StreamInner} (h : Ok s) : Ok s.localReset.1 := by
  cases hr : s.state.reset with
  | true => rw [localReset_again h hr]; exact h
  | false =>
      rw [localReset_first hr]
      exact
        { resetShut := fun _ => ⟨rfl, rfl, rfl⟩
          finShut := fun _ => rfl
          pendingLt := h.pendingLt }

/-- After `local_reset` the stream is reset. -/
theorem localReset_reset (s : StreamInner) :
    s.localReset.1.state = ⟨false, false, true⟩ := by
  unfold localReset StreamState.markReset
  dsimp only
  split <;> rfl

/-- A reset leaves the buffer, the credit and the handshake alone. -/
theorem localReset_frame (s : StreamInner) :
    s.localReset.1.ackReceived = s.ackReceived ∧
      s.localReset.1.recv = s.recv ∧
      s.localReset.1.recvWindow = s.recvWindow ∧
      s.localReset.1.sendWindow.available = s.sendWindow.available := by
  unfold localReset
  dsimp only
  split <;> exact ⟨rfl, rfl, rfl, rfl⟩

theorem localReset_acked (s : StreamInner) :
    s.localReset.1.ackReceived = s.ackReceived :=
  s.localReset_frame.1

theorem localReset_recv (s : StreamInner) : s.localReset.1.recv = s.recv :=
  s.localReset_frame.2.1

theorem localReset_recvWindow (s : StreamInner) :
    s.localReset.1.recvWindow = s.recvWindow :=
  s.localReset_frame.2.2.1

theorem localReset_available (s : StreamInner) :
    s.localReset.1.sendWindow.available = s.sendWindow.available :=
  s.localReset_frame.2.2.2

/-- Dropping the handle of a stream is `local_fin` and a removal request. -/
theorem onUserDrop_eq {s : StreamInner} (h : Ok s) :
    s.onUserDrop = (s.localFin.1, s.localFin.2.append ⟨[], [s.id]⟩) := by
  unfold onUserDrop
  by_cases hw : s.state.writeOpen = true
  · by_cases hr : s.state.reset = true
    · rw [(h.resetShut hr).2.1] at hw
      exact absurd hw (by decide)
    · simp [hw, hr]
  · rw [Bool.not_eq_true] at hw
    rw [localFin_shut hw]
    simp [hw, Emit.append, Emit.none]

/-! ## Reading and writing -/

theorem pollRead_same (s : StreamInner) (remaining : Nat) :
    Same s (s.pollRead remaining).2.1 := by
  rw [pollRead_eq]
  dsimp only
  split_ifs
  · exact Same.refl s
  · exact Same.refl s
  · exact ⟨rfl, rfl, rfl⟩
  · exact ⟨rfl, rfl, rfl⟩
  · exact ⟨rfl, rfl, RecvWindow.onConsume_initial _ _⟩

theorem Ok.pollRead {s : StreamInner} (h : Ok s) (remaining : Nat) :
    Ok (s.pollRead remaining).2.1 := by
  rw [pollRead_eq]
  dsimp only
  split_ifs
  · exact h
  · exact h
  · exact ⟨h.resetShut, h.finShut, h.pendingLt⟩
  · exact ⟨h.resetShut, h.finShut, h.pendingLt⟩
  · refine ⟨h.resetShut, h.finShut, ?_⟩
    have hlt := RecvWindow.onConsume_lt_threshold s.recvWindow
      (UInt32.ofNat (s.recv.contents.take remaining).length) h.pendingLt
    have hinit := RecvWindow.onConsume_initial s.recvWindow
      (UInt32.ofNat (s.recv.contents.take remaining).length)
    rw [RecvWindow.toNat_threshold] at hlt ⊢
    rw [hinit]
    exact hlt

theorem pollWrite_same (s : StreamInner) (outOpen : Bool) (buf : Bytes) :
    Same s (s.pollWrite outOpen buf).2.1 := by
  rw [pollWrite_eq]
  split_ifs <;> exact ⟨rfl, rfl, rfl⟩

theorem Ok.pollWrite {s : StreamInner} (h : Ok s) (outOpen : Bool)
    (buf : Bytes) : Ok (s.pollWrite outOpen buf).2.1 := by
  rw [pollWrite_eq]
  split_ifs with hr
  · exact h
  · exact h
  · exact h
  · exact h
  · exact h
  · exact
      { resetShut := fun hr' => absurd hr' hr
        finShut := fun _ => rfl
        pendingLt := h.pendingLt }
  · exact
      { resetShut := fun hr' => absurd hr' hr
        finShut := h.finShut
        pendingLt := h.pendingLt }

end StreamInner

end NetMux
