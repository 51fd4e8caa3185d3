import NetMux.Lib.Word

/-!
# Stream identifiers

Client-allocated ids are odd and server-allocated ids are even; id `0` is
reserved for session-scoped frames.  The allocator is modelled as one call
run to completion: a failed `compare_exchange_weak` only repeats the load.
Calls that run at the same time are in `Util.Allocating`.
-/

namespace NetMux

/-- Unique identifier of a logical stream within a session. -/
abbrev StreamId := UInt32

/-- Endpoint role of a session. -/
inductive Role where
  | client
  | server
  deriving DecidableEq, Repr

namespace Role

/-- First id allocated by this role. -/
def firstId : Role → StreamId
  | client => 1
  | server => 2

/-- Whether the given id was allocated by *this* role. -/
def owns : Role → StreamId → Bool
  | client, id => !(id % 2 == 0)
  | server, id => id != 0 && id % 2 == 0

/-- The other endpoint of the connection. -/
def peer : Role → Role
  | client => server
  | server => client

@[simp] theorem peer_peer (r : Role) : r.peer.peer = r := by cases r <;> rfl

@[simp] theorem peer_ne (r : Role) : r.peer ≠ r := by cases r <;> decide

@[simp] theorem ne_peer (r : Role) : r ≠ r.peer := by cases r <;> decide

theorem eq_or_eq_peer (r s : Role) : s = r ∨ s = r.peer := by
  cases r <;> cases s <;> decide

/-- A statement about both roles, seen from one of them. -/
theorem forall_iff (r : Role) {P : Role → Prop} :
    (∀ s, P s) ↔ P r ∧ P r.peer := by
  constructor
  · exact fun h => ⟨h r, h r.peer⟩
  · rintro ⟨hr, hp⟩ s
    rcases eq_or_eq_peer r s with rfl | rfl
    · exact hr
    · exact hp

/-- No id belongs to both roles. -/
theorem not_owns_peer {r : Role} {id : StreamId} (h : r.owns id = true) :
    r.peer.owns id = false := by
  cases r <;> simp_all [owns, peer]

/-- The same, seen from the other role. -/
theorem not_owns_of_peer {r : Role} {id : StreamId}
    (h : r.peer.owns id = true) : r.owns id = false := by
  have hpeer := not_owns_peer h
  rwa [peer_peer] at hpeer

/-- Every id but 0 belongs to one of the roles. -/
theorem peer_owns {r : Role} {id : StreamId} (hid : id ≠ 0)
    (h : r.owns id = false) : r.peer.owns id = true := by
  cases r <;> simp_all [owns, peer]

/-- The role that opens streams with this id. -/
def opener (id : StreamId) : Role := if client.owns id then client else server

theorem eq_opener {r : Role} {id : StreamId} (h : r.owns id = true) :
    r = opener id := by
  cases r with
  | client => simp [opener, h]
  | server =>
      have hc : client.owns id = false := not_owns_peer h
      simp [opener, hc]

/-- The other role never opens streams with this id. -/
theorem peer_opener_owns (id : StreamId) :
    (opener id).peer.owns id = false := by
  by_contra h
  rw [Bool.not_eq_false] at h
  exact peer_ne _ (eq_opener h)

theorem owns_ne_zero {r : Role} {id : StreamId} (h : r.owns id = true) :
    id ≠ 0 := by
  rintro rfl
  cases r <;> simp [owns] at h

theorem owns_firstId (r : Role) : r.owns r.firstId = true := by
  cases r <;> decide

/-- Adding two keeps the owner, as long as the sum does not wrap to zero. -/
theorem owns_add_two {r : Role} {id next : StreamId} (h : r.owns id = true)
    (hn : next.toNat = id.toNat + 2) : r.owns next = true := by
  have hmod : ∀ x : UInt32, (x % 2 = 0) ↔ x.toNat % 2 = 0 := by
    intro x
    rw [← UInt32.toNat_inj, UInt32.toNat_mod]
    rfl
  have hzero : next ≠ 0 := by
    rintro rfl
    simp at hn
  cases r with
  | client =>
      simp only [owns, Bool.not_eq_true', beq_eq_false_iff_ne, ne_eq, hmod]
        at h ⊢
      omega
  | server =>
      simp only [owns, Bool.and_eq_true, bne_iff_ne, ne_eq, beq_iff_eq, hmod]
        at h ⊢
      exact ⟨hzero, by omega⟩

end Role

/-- Lock-free, parity-respecting stream id allocator. -/
structure StreamIdAllocator where
  next : StreamId
  deriving DecidableEq, Repr

namespace StreamIdAllocator

def new (role : Role) : StreamIdAllocator := ⟨role.firstId⟩

/-- Allocate the next stream id, advancing by 2.  Returns `none` once the
32-bit id space is exhausted. -/
def allocate (a : StreamIdAllocator) : Option (StreamId × StreamIdAllocator) :=
  match Lib.Word.checkedAdd a.next 2 with
  | none => none
  | some next => some (a.next, ⟨next⟩)

/-- A successful allocation hands out the counter and moves it up by two. -/
theorem allocate_some {a a' : StreamIdAllocator} {id : StreamId}
    (h : a.allocate = some (id, a')) :
    id = a.next ∧ a'.next.toNat = a.next.toNat + 2 := by
  unfold allocate at h
  cases hadd : Lib.Word.checkedAdd a.next 2 with
  | none => simp [hadd] at h
  | some next =>
      simp only [hadd, Option.some.injEq, Prod.mk.injEq] at h
      obtain ⟨rfl, rfl⟩ := h
      exact ⟨rfl, Lib.Word.toNat_checkedAdd hadd⟩

end StreamIdAllocator

end NetMux
