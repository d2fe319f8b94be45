import Mathlib.Data.List.Basic
import Vlink.Lib.Outcome

set_option autoImplicit false

/-!
# Decoders of a stream

A decoder is called with a buffer from whose front it takes what it can use: it hands back an item,
or says that it has to wait for more, or fails. It may take something and still wait, keeping what
it has read in its state. The bytes of a stream arrive in chunks that are appended to the buffer,
and after each chunk the decoder is called until it waits.

If an answer does not change when more bytes are in the buffer, and waiting loses nothing, then the
items do not depend on how the stream was cut into chunks.

## Main definitions

* `Vlink.Answer`, `Vlink.Decoder` — one call of a decoder, and a decoder with a bound for the number
  of calls.
* `Vlink.Decoder.drain`, `Vlink.Decoder.feed` — calling until the decoder waits, and doing so after
  each chunk.
* `Vlink.Decoder.Lawful` — answers do not depend on what follows, on the states of an invariant.
* `Vlink.Decoder.Reads` — a decoder that reads pieces of known length, one after the other.

## Main results

* `Vlink.Decoder.Reads.lawful` — reading pieces of known length is lawful.
* `Vlink.Decoder.drain_append` — draining a longer buffer goes on where draining a shorter one ends.
* `Vlink.Decoder.feed_eq_drain` — the chunks do not matter.
* `Vlink.Decoder.drain_frames` — a stream of frames that are each decoded to one item.
-/

namespace Vlink

variable {β σ ι φ : Type}

/-- The answer of a decoder, with its new state and what it left in the buffer. -/
inductive Answer (β σ ι φ : Type) where
  | wait (s : σ) (rest : List β)
  | item (i : ι) (s : σ) (rest : List β)
  | fail (e : φ)

/-- How a call fails: with an error that is handed back, or with a panic. -/
inductive Failure (ε : Type) where
  | error (e : ε)
  | panicked
deriving DecidableEq

/-- The answer of a call `decode(&mut self, src)` that hands back a `Result<Option<_>, _>`, with the
state and the buffer that it leaves. -/
def Answer.ofCall {ε : Type} :
    Outcome (Except ε (Option ι) × σ × List β) → Answer β σ ι (Failure ε)
  | .panic => .fail .panicked
  | .ret (.error e, _, _) => .fail (.error e)
  | .ret (.ok none, s, rest) => .wait s rest
  | .ret (.ok (some i), s, rest) => .item i s rest

/-- A call that waits has handed back nothing. -/
lemma Answer.ofCall_eq_wait {ε : Type} {o : Outcome (Except ε (Option ι) × σ × List β)} {s : σ}
    {rest : List β} (h : ofCall o = .wait s rest) : o = .ret (.ok none, s, rest) := by
  rcases o with ⟨_ | _ | _, _, _⟩ | _ <;> cases h
  rfl

/-- A call that answers with an item has handed it back. -/
lemma Answer.ofCall_eq_item {ε : Type} {o : Outcome (Except ε (Option ι) × σ × List β)} {i : ι}
    {s : σ} {rest : List β} (h : ofCall o = .item i s rest) :
    o = .ret (.ok (some i), s, rest) := by
  rcases o with ⟨_ | _ | _, _, _⟩ | _ <;> cases h
  rfl

/-- How calling a decoder again and again ends: it waits, it fails, or the calls were not enough. -/
inductive End (β σ φ : Type) where
  | waiting (s : σ) (rest : List β)
  | failed (e : φ)
  | spent

/-- A decoder. The weight of a state stands for what the decoder has taken from the buffer without
handing it back. -/
structure Decoder (β σ ι φ : Type) where
  decode : σ → List β → Answer β σ ι φ
  weight : σ → ℕ

namespace Decoder

variable (D : Decoder β σ ι φ)

/-- At most `n` calls, until the decoder waits or fails. -/
def calls : ℕ → σ → List β → List ι × End β σ φ
  | 0, _, _ => ([], .spent)
  | n + 1, s, b =>
    match D.decode s b with
    | .wait s b => ([], .waiting s b)
    | .fail e => ([], .failed e)
    | .item i s b => (i :: (calls n s b).1, (calls n s b).2)

/-- The decoder is called until it waits or fails. -/
def drain (s : σ) (b : List β) : List ι × End β σ φ := D.calls (D.weight s + b.length + 1) s b

/-- Chunks are appended to the buffer, and after each the decoder is called until it waits. -/
def feed : σ → List β → List (List β) → List ι × End β σ φ
  | s, b, [] => ([], .waiting s b)
  | s, b, c :: cs =>
    match D.drain s (b ++ c) with
    | (is, .waiting s b) => (is ++ (feed s b cs).1, (feed s b cs).2)
    | (is, e) => (is, e)

section

variable {D} {s : σ} {b : List β}

/-- The decoder waits: that is all. -/
lemma drain_wait {s' : σ} {b' : List β} (h : D.decode s b = .wait s' b') :
    D.drain s b = ([], .waiting s' b') := by
  simp [drain, calls, h]

/-- Draining ends with the failure. -/
lemma drain_fail {e : φ} (h : D.decode s b = .fail e) : D.drain s b = ([], .failed e) := by
  simp [drain, calls, h]

end

/-- The laws of a decoder, in the states of an invariant: items use something up, no answer depends
on what follows, and waiting loses nothing. -/
structure Lawful (Inv : σ → Prop) : Prop where
  item_inv : ∀ {s b i s' b'}, Inv s → D.decode s b = .item i s' b' → Inv s'
  wait_inv : ∀ {s b s' b'}, Inv s → D.decode s b = .wait s' b' → Inv s'
  item_lt : ∀ {s b i s' b'}, Inv s → D.decode s b = .item i s' b' →
    D.weight s' + b'.length < D.weight s + b.length
  item_append : ∀ {s b i s' b'} (c : List β), Inv s → D.decode s b = .item i s' b' →
    D.decode s (b ++ c) = .item i s' (b' ++ c)
  fail_append : ∀ {s b e} (c : List β), Inv s → D.decode s b = .fail e →
    D.decode s (b ++ c) = .fail e
  wait_append : ∀ {s b s' b'} (c : List β), Inv s → D.decode s b = .wait s' b' →
    D.decode s (b ++ c) = D.decode s' (b' ++ c)

namespace Lawful

variable {D} {Inv : σ → Prop} (hD : D.Lawful Inv) {s : σ} {b : List β}

include hD

/-- More calls than the weight of state and buffer make no difference.

**Proof sketch.** Induction on the number of calls: every item makes the weight smaller. -/
lemma calls_eq {n m : ℕ} (hs : Inv s) (hn : D.weight s + b.length < n)
    (hm : D.weight s + b.length < m) : D.calls n s b = D.calls m s b := by
  induction n generalizing m s b with
  | zero => omega
  | succ n ih =>
    obtain ⟨m, rfl⟩ : ∃ k, m = k + 1 := ⟨m - 1, by omega⟩
    unfold calls
    cases hd : D.decode s b with
    | wait s' b' => rfl
    | fail e => rfl
    | item i s' b' =>
      have hlt := hD.item_lt hs hd
      have heq := ih (b := b') (m := m) (hD.item_inv hs hd) (by omega) (by omega)
      simp only [heq]

/-- After an item, draining goes on with the rest. -/
lemma drain_item (hs : Inv s) {i : ι} {s' : σ} {b' : List β}
    (h : D.decode s b = .item i s' b') :
    D.drain s b = (i :: (D.drain s' b').1, (D.drain s' b').2) := by
  have hlt := hD.item_lt hs h
  have heq : D.calls (D.weight s + b.length) s' b' = D.drain s' b' :=
    hD.calls_eq (hD.item_inv hs h) hlt (by omega)
  simp only [drain, calls, h] at heq ⊢
  rw [heq]

/-- **Induction over the calls of a drain.** -/
lemma drain_induction {P : σ → List β → Prop}
    (wait : ∀ {s b s' b'}, Inv s → D.decode s b = .wait s' b' → P s b)
    (fail : ∀ {s b e}, Inv s → D.decode s b = .fail e → P s b)
    (item : ∀ {s b i s' b'}, Inv s → D.decode s b = .item i s' b' → P s' b' → P s b)
    (hs : Inv s) (b : List β) : P s b := by
  generalize hn : D.weight s + b.length = n
  induction n using Nat.strongRecOn generalizing s b with
  | _ n ih =>
    cases hd : D.decode s b with
    | wait s' b' => exact wait hs hd
    | fail e => exact fail hs hd
    | item i s' b' =>
      have hlt := hD.item_lt hs hd
      exact item hs hd (ih _ (by omega) (hD.item_inv hs hd) b' rfl)

/-- Draining ends with the decoder waiting or failing; where it waits, it goes on waiting. -/
lemma drain_end (hs : Inv s) (b : List β) :
    (∃ e, (D.drain s b).2 = .failed e) ∨
      ∃ s' b', (D.drain s b).2 = .waiting s' b' ∧ Inv s' ∧ D.decode s' b' = .wait s' b' := by
  refine hD.drain_induction (P := fun s b => (∃ e, (D.drain s b).2 = .failed e) ∨
    ∃ s' b', (D.drain s b).2 = .waiting s' b' ∧ Inv s' ∧ D.decode s' b' = .wait s' b')
    ?_ ?_ ?_ hs b
  · intro s b s' b' hs h
    refine .inr ⟨s', b', by rw [drain_wait h], hD.wait_inv hs h, ?_⟩
    have hagain := hD.wait_append [] hs h
    rw [List.append_nil, List.append_nil] at hagain
    rw [← hagain, h]
  · intro s b e hs h
    exact .inl ⟨e, by rw [drain_fail h]⟩
  · intro s b i s' b' hs h ih
    rw [hD.drain_item hs h]
    exact ih

/-- **Draining goes on where it ended.** What a longer buffer gives is what the shorter one gives,
and then what the state and buffer that it ended with give with the bytes that follow.

**Proof sketch.** Induction over the calls. Items and failures do not depend on what follows, and
waiting loses nothing. -/
theorem drain_append (hs : Inv s) (b c : List β) :
    (∀ e, (D.drain s b).2 = .failed e → D.drain s (b ++ c) = D.drain s b) ∧
    ∀ s' b', (D.drain s b).2 = .waiting s' b' →
      D.drain s (b ++ c) =
        ((D.drain s b).1 ++ (D.drain s' (b' ++ c)).1, (D.drain s' (b' ++ c)).2) := by
  refine hD.drain_induction (P := fun s b =>
    (∀ e, (D.drain s b).2 = .failed e → D.drain s (b ++ c) = D.drain s b) ∧
    ∀ s' b', (D.drain s b).2 = .waiting s' b' →
      D.drain s (b ++ c) =
        ((D.drain s b).1 ++ (D.drain s' (b' ++ c)).1, (D.drain s' (b' ++ c)).2)) ?_ ?_ ?_ hs b
  · intro s b s' b' hs h
    rw [drain_wait h]
    refine ⟨fun e he => (by cases he), fun s₁ b₁ he => ?_⟩
    cases he
    have hsame := hD.wait_append c hs h
    rw [List.nil_append]
    cases hd : D.decode s' (b' ++ c) with
    | wait s₂ b₂ => rw [drain_wait hd, drain_wait (hsame.trans hd)]
    | fail e => rw [drain_fail hd, drain_fail (hsame.trans hd)]
    | item i s₂ b₂ =>
      rw [hD.drain_item (hD.wait_inv hs h) hd, hD.drain_item hs (hsame.trans hd)]
  · intro s b e hs h
    rw [drain_fail h]
    exact ⟨fun _ _ => drain_fail (hD.fail_append c hs h), fun s' b' he => by cases he⟩
  · intro s b i s' b' hs h ih
    rw [hD.drain_item hs h, hD.drain_item hs (hD.item_append c hs h)]
    refine ⟨fun e he => ?_, fun s₁ b₁ he => ?_⟩
    · rw [ih.1 e he]
    · rw [ih.2 s₁ b₁ he]
      rfl

/-- **The chunks do not matter**: items and end are those of the whole stream at once. -/
theorem feed_eq_drain (hs : Inv s) (hwait : D.decode s b = .wait s b) (cs : List (List β)) :
    D.feed s b cs = D.drain s (b ++ cs.flatten) := by
  induction cs generalizing s b with
  | nil => rw [feed, List.flatten_nil, List.append_nil, drain_wait hwait]
  | cons c cs ih =>
    rw [List.flatten_cons, ← List.append_assoc, feed]
    obtain ⟨hfail, hwaits⟩ := hD.drain_append hs (b ++ c) cs.flatten
    rcases hr : D.drain s (b ++ c) with ⟨is, e⟩
    rw [hr] at hfail hwaits
    have hend := hD.drain_end hs (b ++ c)
    rw [hr] at hend
    rcases hend with ⟨e', rfl⟩ | ⟨s', b', rfl, hs', hwait'⟩
    · exact (hfail e' rfl).symm
    · rw [hwaits s' b' rfl, ← ih hs' hwait']

/-- **Frames.** If each frame of a list is decoded to one item, whatever follows it, in the states
of `P`, then the frames one after the other are decoded to their items in order, and nothing is
left. -/
theorem drain_frames {α : Type} {P : σ → Prop} {wire : α → List β} {answer : α → ι} (fs : List α)
    (hP : ∀ {s}, P s → Inv s)
    (frame : ∀ f ∈ fs, ∀ s rest, P s → ∃ s', P s' ∧
      D.decode s (wire f ++ rest) = .item (answer f) s' rest)
    (done : ∀ s, P s → D.decode s [] = .wait s []) (hs : P s) :
    ∃ s', P s' ∧ D.drain s (fs.flatMap wire) = (fs.map answer, .waiting s' []) := by
  induction fs generalizing s with
  | nil => exact ⟨s, hs, drain_wait (done s hs)⟩
  | cons f fs ih =>
    obtain ⟨s₁, hs₁, hf⟩ := frame f List.mem_cons_self s (fs.flatMap wire) hs
    obtain ⟨s₂, hs₂, hrest⟩ := ih (fun f hf => frame f (List.mem_cons_of_mem _ hf)) hs₁
    refine ⟨s₂, hs₂, ?_⟩
    rw [List.flatMap_cons, hD.drain_item (hP hs) hf, hrest]
    rfl

end Lawful

/-! ## Pieces of known length -/

/-- In each state of the invariant the decoder needs a certain number of bytes. As long as there are
fewer it waits. When they are there it takes them, and fails, hands back an item, or reads on. -/
structure Reads (Inv : σ → Prop) (need : σ → ℕ) : Prop where
  short : ∀ {s b}, Inv s → b.length < need s → D.decode s b = .wait s b
  exact : ∀ {s p}, Inv s → p.length = need s →
    (∃ e, ∀ rest, D.decode s (p ++ rest) = .fail e) ∨
    (∃ i s', Inv s' ∧ D.weight s' < D.weight s + p.length ∧
      ∀ rest, D.decode s (p ++ rest) = .item i s' rest) ∨
    ∃ s', Inv s' ∧ 0 < p.length ∧ D.weight s' ≤ D.weight s + p.length ∧
      ∀ rest, D.decode s (p ++ rest) = D.decode s' rest

namespace Reads

variable {D} {Inv : σ → Prop} {need : σ → ℕ} (hR : D.Reads Inv need) {s : σ}

include hR

/-- **Induction over the pieces that one call reads.** -/
lemma call_induction {P : σ → List β → Prop}
    (wait : ∀ {s b}, Inv s → D.decode s b = .wait s b → P s b)
    (fail : ∀ {s p e}, Inv s → (∀ rest, D.decode s (p ++ rest) = .fail e) → ∀ b, P s (p ++ b))
    (item : ∀ {s p i s'}, Inv s → Inv s' → D.weight s' < D.weight s + p.length →
      (∀ rest, D.decode s (p ++ rest) = .item i s' rest) → ∀ b, P s (p ++ b))
    (more : ∀ {s p s' b}, Inv s → Inv s' → D.weight s' ≤ D.weight s + p.length →
      (∀ rest, D.decode s (p ++ rest) = D.decode s' rest) → P s' b → P s (p ++ b))
    (hs : Inv s) (b : List β) : P s b := by
  generalize hn : b.length = n
  induction n using Nat.strongRecOn generalizing s b with
  | _ n ih =>
    by_cases hlt : b.length < need s
    · exact wait hs (hR.short hs hlt)
    · obtain ⟨p, rest, rfl, hp⟩ : ∃ p rest, b = p ++ rest ∧ p.length = need s :=
        ⟨b.take (need s), b.drop (need s), by simp, by simp; omega⟩
      rcases hR.exact hs hp with ⟨e, h⟩ | ⟨i, s', hs', hw, h⟩ | ⟨s', hs', hpos, hw, h⟩
      · exact fail hs h rest
      · exact item hs hs' hw h rest
      · exact more hs hs' hw h (ih rest.length (by rw [← hn]; simp; omega) hs' rest rfl)

/-- What an answer says of the call with more in the buffer. -/
lemma answer (hs : Inv s) (b c : List β) :
    match D.decode s b with
    | .wait s' b' => Inv s' ∧ D.decode s (b ++ c) = D.decode s' (b' ++ c)
    | .fail e => D.decode s (b ++ c) = .fail e
    | .item i s' b' => Inv s' ∧ D.weight s' + b'.length < D.weight s + b.length ∧
        D.decode s (b ++ c) = .item i s' (b' ++ c) := by
  refine hR.call_induction (P := fun s b => match D.decode s b with
    | .wait s' b' => Inv s' ∧ D.decode s (b ++ c) = D.decode s' (b' ++ c)
    | .fail e => D.decode s (b ++ c) = .fail e
    | .item i s' b' => Inv s' ∧ D.weight s' + b'.length < D.weight s + b.length ∧
        D.decode s (b ++ c) = .item i s' (b' ++ c)) ?_ ?_ ?_ ?_ hs b
  · intro s b hs h
    rw [h]
    exact ⟨hs, rfl⟩
  · intro s p e hs h b
    rw [h b, List.append_assoc]
    exact h (b ++ c)
  · intro s p i s' hs hs' hw h b
    rw [h b, List.append_assoc, List.length_append]
    exact ⟨hs', by omega, h (b ++ c)⟩
  · intro s p s' b hs hs' hw h ih
    rw [h b, List.append_assoc, h (b ++ c), List.length_append]
    cases hd : D.decode s' b with
    | wait s₁ b₁ =>
      rw [hd] at ih
      exact ih
    | fail e =>
      rw [hd] at ih
      exact ih
    | item i s₁ b₁ =>
      rw [hd] at ih
      exact ⟨ih.1, by omega, ih.2.2⟩

/-- **Reading pieces of known length is lawful.** -/
theorem lawful : D.Lawful Inv where
  item_inv {s b i s' b'} hs h := by
    have := hR.answer hs b []
    rw [h] at this
    exact this.1
  wait_inv {s b s' b'} hs h := by
    have := hR.answer hs b []
    rw [h] at this
    exact this.1
  item_lt {s b i s' b'} hs h := by
    have := hR.answer hs b []
    rw [h] at this
    exact this.2.1
  item_append {s b i s' b'} c hs h := by
    have := hR.answer hs b c
    rw [h] at this
    exact this.2.2
  fail_append {s b e} c hs h := by
    have := hR.answer hs b c
    rwa [h] at this
  wait_append {s b s' b'} c hs h := by
    have := hR.answer hs b c
    rw [h] at this
    exact this.2

end Reads

end Decoder

end Vlink
