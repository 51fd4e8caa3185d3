import Mathlib.Data.List.Basic

/-!
# Incremental decoders

A decoder takes at most one item off the front of a buffer.  It is run in a
loop: append what has arrived, decode until nothing more comes or decoding
fails.  Two laws make the result independent of how the input was cut: an item
that was decoded is decoded from every longer buffer too, with what was
appended left over, and so is a failure.  `feed_eq_loop` is the conclusion.
-/

namespace NetMux.Lib.Incremental

/-- A decoder of items `β` out of symbols `α` that fails with `ε`. -/
structure Decoder (α β ε : Type) where
  /-- Take one item off a buffer; the second component is the buffer
  afterwards. -/
  decode : List α → Except ε (Option β) × List α
  nil : decode [] = (.ok none, [])
  kept : ∀ {src rest}, decode src = (.ok none, rest) → rest = src
  failed : ∀ {src rest e}, decode src = (.error e, rest) → rest = src
  shrinks : ∀ {src rest b}, decode src = (.ok (some b), rest) →
    rest.length < src.length
  some_append : ∀ {src rest b} (more : List α),
    decode src = (.ok (some b), rest) →
      decode (src ++ more) = (.ok (some b), rest ++ more)
  error_append : ∀ {src rest e} (more : List α),
    decode src = (.error e, rest) → (decode (src ++ more)).1 = .error e

/-- What a decode loop yields: the items, the outcome that ended the loop and
the symbols left. -/
abbrev Yield (α β ε : Type) := List β × Except ε Unit × List α

/-- What can be told from outside: the items, and the error or the symbols
left undecoded. -/
def Yield.outcome {α β ε : Type} (y : Yield α β ε) : List β × Except ε (List α) :=
  (y.1, y.2.1.map fun _ => y.2.2)

namespace Decoder

variable {α β ε : Type} (d : Decoder α β ε)

/-- Decode until nothing more comes or decoding fails. -/
def loop (src : List α) : Yield α β ε :=
  match _h : d.decode src with
  | (.error e, rest) => ([], .error e, rest)
  | (.ok none, rest) => ([], .ok (), rest)
  | (.ok (some b), rest) => (b :: (loop rest).1, (loop rest).2)
termination_by src.length
decreasing_by
  all_goals exact d.shrinks _h

/-- Feed the chunks one by one; the loop runs after each, and the first error
ends it all. -/
def feed : List (List α) → List α → Yield α β ε
  | [], buf => ([], .ok (), buf)
  | chunk :: chunks, buf =>
      match d.loop (buf ++ chunk) with
      | (bs, .error e, rest) => (bs, .error e, rest)
      | (bs, .ok (), rest) => (bs ++ (feed chunks rest).1, (feed chunks rest).2)

variable {d} {src rest : List α} {b : β} {e : ε} {bs : List β}

theorem loop_error (h : d.decode src = (.error e, rest)) :
    d.loop src = ([], .error e, rest) := by
  rw [loop]
  split <;> simp_all

theorem loop_none (h : d.decode src = (.ok none, rest)) :
    d.loop src = ([], .ok (), rest) := by
  rw [loop]
  split <;> simp_all

theorem loop_some (h : d.decode src = (.ok (some b), rest)) :
    d.loop src = (b :: (d.loop rest).1, (d.loop rest).2) := by
  rw [loop]
  split <;> simp_all

variable (d)

/-- A loop that ends well ends at a buffer that yields nothing. -/
theorem decode_loop (src : List α) : (d.loop src).2.1 = .ok () →
    d.decode (d.loop src).2.2 = (.ok none, (d.loop src).2.2) := by
  fun_induction loop d src with
  | case1 src e rest h => exact fun hok => nomatch hok
  | case2 src rest h =>
      intro _
      obtain rfl := d.kept h
      exact h
  | case3 src b rest h ih => exact ih

/-- What comes after a loop that ended well is decoded from where it
ended. -/
theorem loop_append_ok (more src : List α) : (d.loop src).2.1 = .ok () →
    d.loop (src ++ more) =
      ((d.loop src).1 ++ (d.loop ((d.loop src).2.2 ++ more)).1,
        (d.loop ((d.loop src).2.2 ++ more)).2) := by
  fun_induction loop d src with
  | case1 src e rest h => exact fun hok => nomatch hok
  | case2 src rest h =>
      intro _
      obtain rfl := d.kept h
      rfl
  | case3 src b rest h ih =>
      intro hok
      rw [loop_some (d.some_append more h), ih hok]
      rfl

/-- What comes after an error changes nothing about it. -/
theorem loop_append_error (more src : List α) :
    (d.loop src).2.1 = .error e →
    (d.loop (src ++ more)).outcome = ((d.loop src).1, .error e) := by
  fun_induction loop d src with
  | case1 src e' rest h =>
      intro herr
      cases herr
      have hlong := d.error_append more h
      rw [loop_error (Prod.ext hlong rfl)]
      rfl
  | case2 src rest h => exact fun herr => nomatch herr
  | case3 src b rest h ih =>
      intro herr
      have htail := ih herr
      rw [loop_some (d.some_append more h)]
      simp only [Yield.outcome, Prod.mk.injEq] at htail ⊢
      exact ⟨by rw [htail.1], htail.2⟩

/-- **Decoding does not depend on how the input was cut.** -/
theorem feed_eq_loop (chunks : List (List α)) :
    ∀ buf, d.decode buf = (.ok none, buf) →
      (d.feed chunks buf).outcome =
        (d.loop (buf ++ chunks.flatten)).outcome := by
  induction chunks with
  | nil =>
      intro buf hbuf
      rw [List.flatten_nil, List.append_nil, loop_none hbuf]
      rfl
  | cons chunk chunks ih =>
      intro buf _
      rw [List.flatten_cons, ← List.append_assoc, feed]
      cases hloop : d.loop (buf ++ chunk) with
      | mk bs tail =>
          obtain ⟨result, rest⟩ := tail
          cases result with
          | error e =>
              rw [loop_append_error d chunks.flatten (buf ++ chunk)
                (by rw [hloop])]
              rw [hloop]
              rfl
          | ok u =>
              have hok : (d.loop (buf ++ chunk)).2.1 = .ok () := by
                rw [hloop]
              have hrest := d.decode_loop (buf ++ chunk) hok
              rw [hloop] at hrest
              have htail := ih rest hrest
              rw [loop_append_ok d chunks.flatten (buf ++ chunk) hok, hloop]
              simp only [Yield.outcome, Prod.mk.injEq] at htail ⊢
              exact ⟨by rw [htail.1], htail.2⟩

/-- When every item costs at least `n` symbols, the symbols bound the number
of items. -/
theorem loop_length {n : Nat}
    (hn : ∀ {src rest b}, d.decode src = (.ok (some b), rest) →
      rest.length + n ≤ src.length) (src : List α) :
    (d.loop src).1.length * n + (d.loop src).2.2.length ≤ src.length := by
  fun_induction loop d src with
  | case1 src e rest h =>
      obtain rfl := d.failed h
      simp
  | case2 src rest h =>
      obtain rfl := d.kept h
      simp
  | case3 src b rest h ih =>
      have hcost := hn h
      simp only [List.length_cons, Nat.succ_mul]
      omega

end Decoder

end NetMux.Lib.Incremental
