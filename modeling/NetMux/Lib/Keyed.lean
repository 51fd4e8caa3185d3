import Mathlib.Data.List.Nodup

/-!
# Tables of entries with distinct keys

A table is a list whose entries are addressed in two ways: by position, as
references to them are, and by a key that no two entries share.  `lookup`
finds an entry by its key; the lemmas say how it sees replacing an entry,
adding one, and changing a set of positions.  The last section is about
positions alone.
-/

namespace NetMux.Lib.Keyed

section Distinct

variable {α κ : Type}

/-- No two entries share a key. -/
def Distinct (key : α → κ) (l : List α) : Prop := (l.map key).Nodup

/-- Apply a function at each of a list of positions. -/
def modifyAll (f : α → α) (l : List α) (ns : List Nat) : List α :=
  ns.foldl (fun l n => l.modify n f) l

variable {key : α → κ} {l : List α}

/-- A key determines the position. -/
theorem Distinct.position (hd : Distinct key l) {m n : Nat} {a b : α}
    (ha : l[m]? = some a) (hb : l[n]? = some b) (hk : key a = key b) :
    m = n := by
  have hm : (l.map key)[m]? = some (key a) := by rw [List.getElem?_map, ha]; rfl
  have hn : (l.map key)[n]? = some (key b) := by rw [List.getElem?_map, hb]; rfl
  have hlt : m < (l.map key).length := (List.getElem?_eq_some_iff.mp hm).1
  apply (List.getElem?_inj hlt hd).mp
  rw [hm, hn, hk]

/-- A key determines the entry. -/
theorem Distinct.entry (hd : Distinct key l) {a b : α} (ha : a ∈ l)
    (hb : b ∈ l) (hk : key a = key b) : a = b :=
  List.inj_on_of_nodup_map hd ha hb hk

theorem map_key_set {n : Nat} {a b : α} (ha : l[n]? = some a)
    (hk : key b = key a) : (l.set n b).map key = l.map key := by
  apply List.ext_getElem?
  intro m
  rw [List.getElem?_map, List.getElem?_map, List.getElem?_set]
  by_cases hmn : n = m
  · subst hmn
    have hlt : n < l.length := (List.getElem?_eq_some_iff.mp ha).1
    rw [if_pos rfl, if_pos hlt, ha]
    simp [hk]
  · rw [if_neg hmn]

theorem map_key_modify {f : α → α} (n : Nat) (hk : ∀ a, key (f a) = key a) :
    (l.modify n f).map key = l.map key := by
  apply List.ext_getElem?
  intro m
  rw [List.getElem?_map, List.getElem?_map, List.getElem?_modify]
  cases l[m]? with
  | none => rfl
  | some a => by_cases hnm : n = m <;> simp [hnm, hk]

theorem Distinct.set (hd : Distinct key l) {n : Nat} {a b : α}
    (ha : l[n]? = some a) (hk : key b = key a) : Distinct key (l.set n b) := by
  unfold Distinct
  rw [map_key_set ha hk]
  exact hd

theorem Distinct.append (hd : Distinct key l) {b : α}
    (hnew : ∀ a ∈ l, key a ≠ key b) : Distinct key (l ++ [b]) := by
  unfold Distinct at hd ⊢
  rw [List.map_append, List.nodup_append]
  refine ⟨hd, by simp, ?_⟩
  intro k hk k' hk' hkk
  obtain ⟨a, ha, rfl⟩ := List.mem_map.mp hk
  simp only [List.map_cons, List.map_nil, List.mem_singleton] at hk'
  exact hnew a ha (hkk.trans hk')

theorem getElem?_modifyAll {f : α → α} (hf : ∀ a, f (f a) = f a)
    (ns : List Nat) :
    ∀ (l : List α) (m : Nat),
      (modifyAll f l ns)[m]? =
        l[m]?.map fun a => if m ∈ ns then f a else a := by
  induction ns with
  | nil =>
      intro l m
      simp [modifyAll]
  | cons n ns ih =>
      intro l m
      show (modifyAll f (l.modify n f) ns)[m]? = _
      rw [ih, List.getElem?_modify]
      cases l[m]? with
      | none => rfl
      | some a =>
          by_cases hmn : n = m
          · subst hmn
            by_cases hmem : n ∈ ns
            · simp [hmem, hf]
            · simp [hmem]
          · have hmn' : ¬ m = n := fun h => hmn h.symm
            simp [hmn, hmn']

theorem map_key_modifyAll {f : α → α} (hf : ∀ a, f (f a) = f a)
    (hk : ∀ a, key (f a) = key a) (ns : List Nat) :
    (modifyAll f l ns).map key = l.map key := by
  apply List.ext_getElem?
  intro m
  rw [List.getElem?_map, List.getElem?_map, getElem?_modifyAll hf]
  cases l[m]? with
  | none => rfl
  | some a =>
      simp only [Option.map_some]
      split
      · rw [hk]
      · rfl

theorem Distinct.modifyAll {f : α → α} (hd : Distinct key l)
    (hf : ∀ a, f (f a) = f a) (hk : ∀ a, key (f a) = key a)
    (ns : List Nat) : Distinct key (modifyAll f l ns) := by
  unfold Distinct
  rw [map_key_modifyAll hf hk]
  exact hd

end Distinct

section Lookup

variable {α κ : Type} [DecidableEq κ]

/-- The entry with a given key. -/
def lookup (key : α → κ) (l : List α) (k : κ) : Option α :=
  l.find? fun a => key a = k

variable {key : α → κ} {l : List α}

/-- What a lookup finds: an entry of the table with that key. -/
theorem lookup_some {k : κ} {a : α} (h : lookup key l k = some a) :
    a ∈ l ∧ key a = k := by
  unfold lookup at h
  exact ⟨List.mem_of_find?_eq_some h, by simpa using List.find?_some h⟩

theorem lookup_none {k : κ} :
    lookup key l k = none ↔ ∀ a ∈ l, key a ≠ k := by
  simp [lookup, List.find?_eq_none]

theorem lookup_mem (hd : Distinct key l) {a : α} (ha : a ∈ l) :
    lookup key l (key a) = some a := by
  cases h : lookup key l (key a) with
  | none => exact absurd rfl (lookup_none.mp h a ha)
  | some b =>
      obtain ⟨hb, hk⟩ := lookup_some h
      rw [hd.entry hb ha hk]

theorem lookup_position (hd : Distinct key l) {n : Nat} {a : α}
    (ha : l[n]? = some a) : lookup key l (key a) = some a :=
  lookup_mem hd (List.mem_of_getElem? ha)

/-- Replacing an entry by one with the same key changes that key only. -/
theorem lookup_set (hd : Distinct key l) {n : Nat} {a b : α}
    (ha : l[n]? = some a) (hk : key b = key a) (k : κ) :
    lookup key (l.set n b) k =
      if k = key a then some b else lookup key l k := by
  have hset := hd.set ha hk
  have hlt : n < l.length := (List.getElem?_eq_some_iff.mp ha).1
  split
  · rename_i hka
    have hb : (l.set n b)[n]? = some b := List.getElem?_set_self hlt
    rw [hka, ← hk]
    exact lookup_position hset hb
  · rename_i hka
    cases h : lookup key l k with
    | none =>
        rw [lookup_none] at h ⊢
        intro c hc
        rcases List.mem_or_eq_of_mem_set hc with hmem | rfl
        · exact h c hmem
        · rw [hk]
          exact fun he => hka he.symm
    | some c =>
        obtain ⟨hc, rfl⟩ := lookup_some h
        obtain ⟨m, hm⟩ := List.mem_iff_getElem?.mp hc
        have hmn : n ≠ m := by
          rintro rfl
          rw [ha] at hm
          exact hka (congrArg key (Option.some.inj hm).symm)
        apply lookup_position hset
        rw [List.getElem?_set_ne hmn]
        exact hm

/-- A new entry with a new key is found under that key. -/
theorem lookup_append {b : α} (hnew : ∀ a ∈ l, key a ≠ key b) (k : κ) :
    lookup key (l ++ [b]) k =
      if k = key b then some b else lookup key l k := by
  unfold lookup
  rw [List.find?_append]
  by_cases hk : k = key b
  · subst hk
    have hnone : l.find? (fun a => key a = key b) = none := by
      simpa [List.find?_eq_none] using hnew
    simp [hnone]
  · have hk' : ¬ key b = k := fun h => hk h.symm
    simp [hk, hk']

/-- A lookup after changing a set of positions: changed exactly when the
entry's position is among them. -/
theorem lookup_modifyAll {f : α → α} (hd : Distinct key l)
    (hf : ∀ a, f (f a) = f a) (hk : ∀ a, key (f a) = key a) {ns : List Nat}
    {n : Nat} {a : α} (ha : l[n]? = some a) :
    lookup key (modifyAll f l ns) (key a) =
      some (if n ∈ ns then f a else a) := by
  have hget : (modifyAll f l ns)[n]? = some (if n ∈ ns then f a else a) := by
    rw [getElem?_modifyAll hf, ha]
    rfl
  have hkey : key (if n ∈ ns then f a else a) = key a := by
    split
    · exact hk a
    · rfl
  rw [← hkey]
  exact lookup_position (hd.modifyAll hf hk ns) hget

end Lookup

section Positions

variable {α : Type} {l : List α} {n : Nat} {a : α}

/-- One entry of a table is replaced. -/
theorem getElem?_set_at (h : l[n]? = some a) (b : α) (m : Nat) :
    (l.set n b)[m]? = if m = n then some b else l[m]? := by
  split
  · rename_i hm
    rw [hm]
    exact List.getElem?_set_self (List.getElem?_eq_some_iff.mp h).1
  · rename_i hm
    exact List.getElem?_set_ne (Ne.symm hm)

theorem getElem?_set_here (h : l[n]? = some a) (b : α) :
    (l.set n b)[n]? = some b :=
  (getElem?_set_at h b n).trans (if_pos rfl)

theorem set_same (h : l[n]? = some a) : l.set n a = l := by
  apply List.ext_getElem?
  intro m
  rw [getElem?_set_at h]
  split
  · rename_i hm
    rw [hm, h]
  · rfl

/-- One entry is added to a table. -/
theorem getElem?_append_cases {b : α}
    (h : (l ++ [a])[n]? = some b) :
    l[n]? = some b ∨ (n = l.length ∧ b = a) := by
  rcases Nat.lt_or_ge n l.length with hlt | hge
  · rw [List.getElem?_append_left hlt] at h
    exact .inl h
  · rw [List.getElem?_append_right hge] at h
    obtain ⟨hlt, hget⟩ := List.getElem?_eq_some_iff.mp h
    have hn : n = l.length := by
      simp only [List.length_singleton] at hlt
      omega
    subst hn
    simp only [Nat.sub_self, List.getElem_cons_zero] at hget
    exact .inr ⟨rfl, hget.symm⟩

end Positions

end NetMux.Lib.Keyed
