import Vlink.Frp.Codec
import Vlink.Lib.Runs

set_option autoImplicit false

/-!
# Decoding what an FRP server sends

The bytes from the server arrive in chunks, and after each chunk `FrpCodec::decode` is called until
it waits. The outcomes do not depend on the chunks, because the decoder reads pieces of known
length.

For the cipher, the bytes that the codec has taken from the stream are divided at the last
initialisation vector: those since then have been decrypted, each once and in order, and nothing
else has been decrypted with this vector. A response to a login that arrives when the connection is
already working is followed by a new vector, which is not decrypted.

## Main definitions

* `Vlink.Frp.Link`, `Vlink.Frp.Link.step` — the codec with its buffer and what it has taken from the
  stream; a chunk arrives, or the decoder is called.

## Main results

* `Vlink.Frp.FrpCodec.decode_cases` — what one call takes from the buffer and decrypts.
* `Vlink.Frp.Link.run_feed` — feeding chunks to the decoder is a run of the link.
* `Vlink.Frp.decoded_in_place` — the outcomes do not depend on the chunks, and every byte since the
  last vector is decrypted once, in its place.
-/

namespace Vlink.Frp

variable {C : Cipher} {J : Json}

/-! ## What one call decrypts -/

/-- A coder that has decrypted the bytes `p`. -/
def FrpBufCrypto.after (coder : FrpBufCrypto C) (p : Bytes) : FrpBufCrypto C :=
  { coder with dec := (C.decrypt coder.dec p).2 }

/-- Nothing was decrypted. -/
lemma FrpBufCrypto.after_nil (hC : C.Lawful) (coder : FrpBufCrypto C) :
    coder.after [] = coder := by
  simp [after, hC.decrypt_nil]

/-- Two parts were decrypted. -/
lemma FrpBufCrypto.after_append (hC : C.Lawful) (coder : FrpBufCrypto C) (p q : Bytes) :
    coder.after (p ++ q) = (coder.after p).after q := by
  simp [after, hC.decrypt_append]

namespace FrpCodec

variable {c c' : FrpCodec C} {src rest : Bytes}

/-- The codec `c'` has decrypted the bytes `p` more than `c`. -/
structure Decrypted (c : FrpCodec C) (p : Bytes) (c' : FrpCodec C) : Prop where
  token : c'.token = c.token
  coder : c'.frpCoder = c.frpCoder.map (·.after p)

/-- Nothing was decrypted. -/
lemma Decrypted.nil (hC : C.Lawful) (h : c'.token = c.token) (hcoder : c'.frpCoder = c.frpCoder) :
    Decrypted c [] c' := by
  refine ⟨h, hcoder.trans ?_⟩
  cases c.frpCoder with
  | none => rfl
  | some coder => rw [Option.map_some, coder.after_nil hC]

/-- Two parts were decrypted. -/
lemma Decrypted.trans (hC : C.Lawful) {c₁ c₂ c₃ : FrpCodec C} {p q : Bytes}
    (h : Decrypted c₁ p c₂) (h' : Decrypted c₂ q c₃) : Decrypted c₁ (p ++ q) c₃ := by
  refine ⟨h'.token.trans h.token, ?_⟩
  rw [h'.coder, h.coder, Option.map_map]
  congr 1
  funext coder
  exact (coder.after_append hC p q).symm

/-- `decrypt_buf` decrypts what it is given. -/
lemma decrypted_decryptBuf (c : FrpCodec C) (p : Bytes) : Decrypted c p (c.decryptBuf p).2 := by
  unfold decryptBuf
  split
  · next h => exact ⟨rfl, by rw [h]; rfl⟩
  · next coder h => exact ⟨rfl, by rw [h]; rfl⟩

/-- Taking a header decrypts what is taken from the buffer. -/
lemma decrypted_takeHeader (hC : C.Lawful) {header : Header}
    (h : c.takeHeader src = some (header, c', rest)) : ∃ p, src = p ++ rest ∧ Decrypted c p c' := by
  unfold takeHeader at h
  split at h
  · cases h
    exact ⟨[], rfl, .nil hC rfl rfl⟩
  · split_ifs at h
    cases h
    exact ⟨src.take 9, (List.take_append_drop 9 src).symm, decrypted_decryptBuf c _⟩

/-- The handling of header and body decrypts what it takes from the buffer. -/
lemma decrypted_readMessage (hC : C.Lawful) {r : Except Error (Option (Header × Bytes))}
    (h : c.readMessage src = (r, c', rest)) : ∃ p, src = p ++ rest ∧ Decrypted c p c' := by
  unfold readMessage at h
  split at h
  · cases h
    exact ⟨[], rfl, .nil hC rfl rfl⟩
  · next header c₁ src₁ htake =>
    obtain ⟨p, rfl, hp⟩ := decrypted_takeHeader hC htake
    split_ifs at h with hlong hshort
    · cases h
      exact ⟨p, rfl, hp⟩
    · -- the header is kept for the next call
      cases h
      exact ⟨p, rfl, hp.token, hp.coder⟩
    · cases h
      refine ⟨p ++ src₁.take header.len, ?_, hp.trans hC (decrypted_decryptBuf c₁ _)⟩
      rw [List.append_assoc, List.take_append_drop]

/-- Finding the response does not touch the cipher, and it is not the vector that is found. -/
lemma decrypted_respond (hC : C.Lawful) {header : Header} {data : Bytes}
    {r : Except Error (Option (FrpResponse J))} (h : c.respond J header data = .ret (r, c')) :
    r ≠ .ok (some .iv) ∧ Decrypted c [] c' := by
  unfold respond at h
  split_ifs at h
  · cases hresp : J.loginResp data with
    | error e =>
      simp only [hresp] at h
      cases h
      exact ⟨by simp, .nil hC rfl rfl⟩
    | ok resp =>
      simp only [hresp] at h
      cases h
      exact ⟨by simp, .nil hC rfl rfl⟩
  · cases h
    exact ⟨by simp, .nil hC rfl rfl⟩
  · cases h
    exact ⟨by simp, .nil hC rfl rfl⟩
  · cases hresp : J.startWorkConnResp data with
    | error e =>
      simp only [hresp] at h
      cases h
      exact ⟨by simp, .nil hC rfl rfl⟩
    | ok resp =>
      simp only [hresp] at h
      cases h
      exact ⟨by simp, .nil hC rfl rfl⟩

/-- **What one call takes and decrypts.** A call that hands back the vector takes sixteen bytes and
starts a new coder. Every other call decrypts what it takes. -/
theorem decode_cases (hC : C.Lawful) {r : Except Error (Option (FrpResponse J))}
    (h : c.decode J src = .ret (r, c', rest)) :
    (∃ iv : Block 16, r = .ok (some .iv) ∧ src = iv.val ++ rest ∧ c'.token = c.token ∧
      c'.frpCoder = some ⟨iv.val, C.init c.token iv, C.init c.token iv⟩) ∨
    r ≠ .ok (some .iv) ∧ ∃ p, src = p ++ rest ∧ Decrypted c p c' := by
  by_cases hst : c.stage = .waitIv
  · rw [decode, if_pos hst] at h
    split_ifs at h with hshort
    · cases h
      exact .inr ⟨by simp, [], rfl, .nil hC rfl rfl⟩
    · have hlen : (src.take 16).length = 16 := by simp; omega
      rw [FrpBufCrypto.new, dif_pos hlen] at h
      cases h
      exact .inl ⟨⟨src.take 16, hlen⟩, rfl, (List.take_append_drop 16 src).symm, rfl, rfl⟩
  · rw [decode_of_stage hst] at h
    right
    rcases hm : c.readMessage src with ⟨m, c₁, src₁⟩
    obtain ⟨p, rfl, hp⟩ := decrypted_readMessage hC hm
    rw [hm] at h
    rcases m with e | _ | ⟨header, data⟩
    · cases h
      exact ⟨by simp, p, rfl, hp⟩
    · cases h
      exact ⟨by simp, p, rfl, hp⟩
    · obtain ⟨⟨r', c₂⟩, hr, hret⟩ := Outcome.bind_eq_ret.mp h
      cases hret
      obtain ⟨hne, hnil⟩ := decrypted_respond hC hr
      have hall := hp.trans hC hnil
      rw [List.append_nil] at hall
      exact ⟨hne, p, rfl, hall⟩

/-! ## What one call reads -/

/-- The codec without its cipher. -/
def plain (c : FrpCodec C) : FrpCodec C := { c with frpCoder := none }

/-- Decryption with a cipher. -/
lemma decryptBuf_some {coder : FrpBufCrypto C} (hc : c.frpCoder = some coder) (p : Bytes) :
    c.decryptBuf p = ((C.decrypt coder.dec p).1, { c with frpCoder := some (coder.after p) }) := by
  simp only [decryptBuf, hc]
  rfl

/-- Decryption without a cipher. -/
lemma decryptBuf_plain (c : FrpCodec C) (p : Bytes) : c.plain.decryptBuf p = (p, c.plain) := rfl

end FrpCodec

/-- Decrypting a buffer in two parts. -/
lemma Cipher.Lawful.decrypt_split (hC : C.Lawful) (s : C.State) (p : Bytes) (n : ℕ) :
    (C.decrypt s p).1 =
      (C.decrypt s (p.take n)).1 ++ (C.decrypt (C.decrypt s (p.take n)).2 (p.drop n)).1 := by
  have happ := hC.decrypt_append s (p.take n) (p.drop n)
  rw [List.take_append_drop] at happ
  rw [happ]

/-- The first bytes of what decrypting a buffer gives come from its first bytes. -/
lemma Cipher.Lawful.take_decrypt (hC : C.Lawful) (s : C.State) (p : Bytes) (n : ℕ) :
    (C.decrypt s p).1.take n = (C.decrypt s (p.take n)).1 := by
  rcases le_total p.length n with hn | hn
  · rw [List.take_of_length_le hn, List.take_of_length_le (by rwa [hC.length_decrypt])]
  · rw [hC.decrypt_split s p n,
      List.take_left' (by rw [hC.length_decrypt, List.length_take_of_le hn])]

/-- The others come from the others, in the state that the first bytes leave. -/
lemma Cipher.Lawful.drop_decrypt (hC : C.Lawful) (s : C.State) (p : Bytes) (n : ℕ) :
    (C.decrypt s p).1.drop n = (C.decrypt (C.decrypt s (p.take n)).2 (p.drop n)).1 := by
  rcases le_total p.length n with hn | hn
  · rw [List.drop_of_length_le hn, List.drop_of_length_le (by rwa [hC.length_decrypt]),
      hC.decrypt_nil]
  · rw [hC.decrypt_split s p n,
      List.drop_left' (by rw [hC.length_decrypt, List.length_take_of_le hn])]

namespace FrpCodec

variable {c c' : FrpCodec C} {src rest : Bytes}

/-- A header without a cipher. -/
lemma withHeader_plain {coder : FrpBufCrypto C} (hc : c.frpCoder = some coder) (p : Bytes) :
    c.plain.withHeader (C.decrypt coder.dec p).1 = (c.withHeader p).plain := by
  simp only [withHeader, decryptBuf_plain, decryptBuf_some hc]
  rfl

/-- The cipher after a header. -/
lemma frpCoder_withHeader {coder : FrpBufCrypto C} (hc : c.frpCoder = some coder) (p : Bytes) :
    (c.withHeader p).frpCoder = some (coder.after p) := by
  simp only [withHeader, decryptBuf_some hc]

/-- With a header at hand, the body that is read is the decrypted one. -/
lemma readMessage_plain_pending (hC : C.Lawful) {coder : FrpBufCrypto C}
    (hc : c.frpCoder = some coder) {header : Header} (hh : c.header = some header) (src : Bytes) :
    (c.plain.readMessage (C.decrypt coder.dec src).1).1 = (c.readMessage src).1 := by
  rw [readMessage_pending (c := c.plain) hh, readMessage_pending hh, hC.length_decrypt]
  split_ifs with hlong hshort
  · rfl
  · rfl
  · rw [hC.take_decrypt, decryptBuf_some (c := { c with header := none }) hc]
    rfl

/-- **A codec with a cipher reads what decryption gives.** The handling of header and body comes to
the same result as without a cipher on the decrypted buffer. -/
lemma readMessage_plain (hC : C.Lawful) {coder : FrpBufCrypto C} (hc : c.frpCoder = some coder)
    (src : Bytes) :
    (c.plain.readMessage (C.decrypt coder.dec src).1).1 = (c.readMessage src).1 := by
  cases hh : c.header with
  | some header => exact readMessage_plain_pending hC hc hh src
  | none =>
    by_cases hlt : src.length < 9
    · have hlt' : (C.decrypt coder.dec src).1.length < 9 := by rwa [hC.length_decrypt]
      rw [readMessage_short hh hlt, readMessage_short (c := c.plain) hh hlt']
    · -- nine bytes are decrypted as the header, and the rest after them
      obtain ⟨p, rest, rfl, hp⟩ : ∃ p rest, src = p ++ rest ∧ p.length = 9 :=
        ⟨src.take 9, src.drop 9, by simp, by simp; omega⟩
      have hp' : (C.decrypt coder.dec p).1.length = 9 := by rw [hC.length_decrypt, hp]
      rw [readMessage_header hh hp, hC.decrypt_append, readMessage_header (c := c.plain) hh hp',
        withHeader_plain hc]
      exact readMessage_plain_pending hC (frpCoder_withHeader hc p) rfl rest

end FrpCodec

/-! ## The link -/

/-- The codec with the bytes that have arrived: those up to the end of the last vector, those taken
since then, and those in the buffer. -/
structure Link (C : Cipher) where
  codec : FrpCodec C
  before : Bytes
  since : Bytes
  buf : Bytes

/-- A chunk arrives, or the decoder is called. -/
inductive LinkAction where
  | receive (chunk : Bytes)
  | call

namespace Link

/-- The link before anything has arrived. -/
def new (C : Cipher) (token : String) : Link C := ⟨.new C token, [], [], []⟩

/-- All bytes that have arrived. -/
def stream (l : Link C) : Bytes := l.before ++ (l.since ++ l.buf)

/-- One step. A call that fails with a panic leaves no codec behind. -/
def step (J : Json) (l : Link C) :
    LinkAction → Option (Link C × List (Except Error (Option (FrpResponse J))))
  | .receive chunk => some ({ l with buf := l.buf ++ chunk }, [])
  | .call =>
    match l.codec.decode J l.buf with
    | .panic => none
    | .ret (r, c, rest) =>
      let taken := l.buf.take (l.buf.length - rest.length)
      match r with
      | .ok (some .iv) => some (⟨c, l.before ++ (l.since ++ taken), [], rest⟩, [r])
      | r => some ({ l with codec := c, since := l.since ++ taken, buf := rest }, [r])

variable {l l' : Link C} {evs : List (Except Error (Option (FrpResponse J)))}

/-- What a call that comes back does to the link: it takes a vector and starts a coder with it, or
it decrypts what it takes. -/
inductive Called (l l' : Link C) : Prop
  | vector (iv : Block 16) (buf : l.buf = iv.val ++ l'.buf)
      (before : l'.before = l.before ++ (l.since ++ iv.val)) (since : l'.since = [])
      (token : l'.codec.token = l.codec.token)
      (coder : l'.codec.frpCoder =
        some ⟨iv.val, C.init l.codec.token iv, C.init l.codec.token iv⟩)
  | read (p : Bytes) (buf : l.buf = p ++ l'.buf) (before : l'.before = l.before)
      (since : l'.since = l.since ++ p) (decrypted : l.codec.Decrypted p l'.codec)

/-- A call that comes back is a step of the link. -/
lemma step_call (hC : C.Lawful) {r : Except Error (Option (FrpResponse J))} {c : FrpCodec C}
    {rest : Bytes} (h : l.codec.decode J l.buf = .ret (r, c, rest)) :
    ∃ l', l.step J .call = some (l', [r]) ∧ l'.codec = c ∧ l'.buf = rest ∧ l.Called l' := by
  have htaken : ∀ p, l.buf = p ++ rest → l.buf.take (l.buf.length - rest.length) = p := by
    intro p hp
    rw [hp]
    exact List.take_left' (by simp)
  rcases FrpCodec.decode_cases hC h with ⟨iv, rfl, hbuf, htok, hcoder⟩ | ⟨hne, p, hbuf, hp⟩
  · refine ⟨⟨c, l.before ++ (l.since ++ iv.val), [], rest⟩, ?_, rfl, rfl,
      .vector iv hbuf rfl rfl htok hcoder⟩
    rw [step, h]
    simp only [htaken _ hbuf]
  · refine ⟨⟨c, l.before, l.since ++ p, rest⟩, ?_, rfl, rfl, .read p hbuf rfl rfl hp⟩
    rw [step, h]
    simp only [htaken _ hbuf]

/-- **What a call does to the link.** -/
lemma called (hC : C.Lawful) (h : l.step J .call = some (l', evs)) : l.Called l' := by
  cases hd : l.codec.decode J l.buf with
  | panic => simp [step, hd] at h
  | ret out =>
    obtain ⟨l'', hstep, -, -, hcalled⟩ := step_call hC hd
    rw [h] at hstep
    cases hstep
    exact hcalled

/-- Nothing that has arrived is lost. -/
lemma Called.stream (h : l.Called l') : l'.stream = l.stream := by
  cases h with
  | vector iv buf before since => simp [Link.stream, buf, before, since]
  | read p buf before since => simp [Link.stream, buf, before, since]

/-! ## Every byte in its place -/

/-- The coder has been started with the last vector, and has decrypted what was taken from the
stream since then, in order. -/
structure InPlace (l : Link C) (token : String) (coder : FrpBufCrypto C) (iv : Block 16) :
    Prop where
  before_eq : ∃ earlier, l.before = earlier ++ iv.val
  iv_eq : coder.iv = iv.val
  dec_eq : coder.dec = (C.decrypt (C.init token iv) l.since).2

/-- What holds of the cipher in every run. -/
structure Inv (token : String) (l : Link C) : Prop where
  token_eq : l.codec.token = token
  unencrypted : l.codec.frpCoder = none → l.before = []
  inPlace : ∀ coder, l.codec.frpCoder = some coder → ∃ iv, l.InPlace token coder iv

/-- The invariant at the start. -/
lemma inv_new (token : String) : (new C token).Inv token :=
  ⟨rfl, fun _ => rfl, fun _ h => by cases h⟩

/-- A call keeps every byte in its place. -/
lemma Inv.called (hC : C.Lawful) {token : String} (hl : l.Inv token) (h : l.Called l') :
    l'.Inv token := by
  cases h with
  | vector iv buf before since htok hcoder =>
    refine ⟨htok.trans hl.token_eq, fun hnone => by simp [hcoder] at hnone, fun coder hc => ?_⟩
    rw [hcoder, hl.token_eq] at hc
    cases hc
    refine ⟨iv, ⟨l.before ++ l.since, ?_⟩, rfl, ?_⟩
    · rw [before, List.append_assoc]
    · rw [since, hC.decrypt_nil]
  | read p buf before since hp =>
    refine ⟨hp.token.trans hl.token_eq, fun hnone => ?_, fun coder' hc => ?_⟩
    · rw [before]
      exact hl.unencrypted (by simpa [hp.coder] using hnone)
    · rw [hp.coder, Option.map_eq_some_iff] at hc
      obtain ⟨coder, hc, rfl⟩ := hc
      obtain ⟨iv, hbefore, hiv, hdec⟩ := hl.inPlace coder hc
      refine ⟨iv, before ▸ hbefore, hiv, ?_⟩
      rw [since, hC.decrypt_append, ← hdec]
      rfl

/-- **Step lemma.** A step keeps it. -/
lemma Inv.step (hC : C.Lawful) {token : String} (hl : l.Inv token) {a : LinkAction}
    (h : l.step J a = some (l', evs)) : l'.Inv token := by
  cases a with
  | receive chunk =>
    cases h
    exact ⟨hl.token_eq, hl.unencrypted, fun coder hc =>
      (hl.inPlace coder hc).imp fun iv h => ⟨h.before_eq, h.iv_eq, h.dec_eq⟩⟩
  | call => exact hl.called hC (Link.called hC h)

/-- **Run lemma.** Every run keeps it. -/
lemma Inv.of_run (hC : C.Lawful) {token : String}
    {tr : List (Except Error (Option (FrpResponse J)))}
    (run : Run (Link.step J) (fun _ _ => True) (new C token) tr l) : l.Inv token :=
  run.invariant (I := fun _ l => l.Inv token) (inv_new token) fun _ hl _ h => hl.step hC h

/-- What the next call reads as header and body is the decryption of everything since the vector,
from the place on that has been reached. -/
lemma InPlace.reads (hC : C.Lawful) {token : String} {coder : FrpBufCrypto C} {iv : Block 16}
    (h : l.InPlace token coder iv) (hc : l.codec.frpCoder = some coder) :
    (l.codec.readMessage l.buf).1 = (l.codec.plain.readMessage
      ((C.decrypt (C.init token iv) (l.since ++ l.buf)).1.drop l.since.length)).1 := by
  rw [hC.drop_decrypt, List.take_left, List.drop_left, ← h.dec_eq, FrpCodec.readMessage_plain hC hc]

/-! ## Feeding is a run -/

/-- Calling the decoder until it waits is a run of the link. -/
lemma run_drain (hC : C.Lawful) (l : Link C) {c : FrpCodec C} {rest : Bytes}
    (h : ((FrpCodec.decoder J C).drain l.codec l.buf).2 = .waiting c rest) :
    ∃ tr l', Run (step J) (fun _ _ => True) l tr l' ∧ l'.codec = c ∧ l'.buf = rest ∧
      l'.stream = l.stream := by
  have hlawful := (FrpCodec.reads (J := J) (C := C)).lawful
  revert l
  suffices hall : ∀ d b (l : Link C), l.codec = d → l.buf = b →
      ((FrpCodec.decoder J C).drain d b).2 = .waiting c rest →
      ∃ tr l', Run (step J) (fun _ _ => True) l tr l' ∧ l'.codec = c ∧ l'.buf = rest ∧
        l'.stream = l.stream from fun l h => hall _ _ l rfl rfl h
  intro d b
  refine hlawful.drain_induction (P := fun d b => ∀ l : Link C, l.codec = d → l.buf = b →
    ((FrpCodec.decoder J C).drain d b).2 = .waiting c rest →
      ∃ tr l', Run (step J) (fun _ _ => True) l tr l' ∧ l'.codec = c ∧ l'.buf = rest ∧
        l'.stream = l.stream) ?_ ?_ ?_ trivial b
  · rintro d b d' b' - hd l rfl rfl h
    rw [Decoder.drain_wait hd] at h
    cases h
    obtain ⟨l', hstep, hc, hb, hcalled⟩ := step_call hC (Answer.ofCall_eq_wait hd)
    exact ⟨_, l', .snoc .nil trivial hstep, hc, hb, hcalled.stream⟩
  · rintro d b e - hd l rfl rfl h
    rw [Decoder.drain_fail hd] at h
    cases h
  · rintro d b i d' b' - hd ih l rfl rfl h
    rw [hlawful.drain_item trivial hd] at h
    obtain ⟨l₁, hstep, hc, hb, hcalled⟩ := step_call hC (Answer.ofCall_eq_item hd)
    obtain ⟨tr, l', run, hc', hb', hstream⟩ := ih l₁ hc hb h
    have first : Run (step J) (fun _ _ => True) l ([] ++ [.ok (some i)]) l₁ :=
      .snoc .nil trivial hstep
    exact ⟨_, l', first.trans run, hc', hb', hstream.trans hcalled.stream⟩

/-- **Feeding chunks to the decoder is a run of the link.** -/
theorem run_feed (hC : C.Lawful) (chunks : List Bytes) (l : Link C) {c : FrpCodec C} {rest : Bytes}
    (h : ((FrpCodec.decoder J C).feed l.codec l.buf chunks).2 = .waiting c rest) :
    ∃ tr l', Run (step J) (fun _ _ => True) l tr l' ∧ l'.codec = c ∧ l'.buf = rest ∧
      l'.stream = l.stream ++ chunks.flatten := by
  induction chunks generalizing l with
  | nil =>
    cases h
    exact ⟨[], l, .nil, rfl, rfl, by simp⟩
  | cons chunk chunks ih =>
    have first : Run (step J) (fun _ _ => True) l ([] ++ []) { l with buf := l.buf ++ chunk } :=
      .snoc (a := .receive chunk) .nil trivial rfl
    rw [Decoder.feed] at h
    split at h
    · next is s b hd =>
      obtain ⟨tr, l₁, run, rfl, rfl, hstream⟩ :=
        run_drain hC { l with buf := l.buf ++ chunk } (congrArg Prod.snd hd)
      obtain ⟨tr', l', run', hc, hb, hstream'⟩ := ih l₁ h
      refine ⟨_, l', first.trans (run.trans run'), hc, hb, ?_⟩
      rw [hstream', hstream]
      simp [stream]
    · next is e hne hd => exact (hne _ _ h).elim

end Link

/-- **Decoding does not depend on the chunks, and every byte is decrypted in its place.**

However the stream is cut, the responses and the way decoding ends, waiting or with the first
failure, are those of the whole stream at once; the calls are enough. At every moment of such a run
the coder, once there is one, was started with the last vector taken from the stream, has decrypted
exactly the bytes taken since then, and the next call reads the decryption of these bytes and those
in the buffer from the place on where it stands.

**Proof sketch.** The decoder reads pieces of known length. For the cipher, a call either takes a
vector or decrypts all that it takes, which is the invariant of a run. -/
theorem decoded_in_place (hC : C.Lawful) (J : Json) (token : String) :
    (∀ chunks : List Bytes,
      (FrpCodec.decoder J C).feed (.new C token) [] chunks =
        (FrpCodec.decoder J C).drain (.new C token) chunks.flatten ∧
      ((FrpCodec.decoder J C).drain (.new C token) chunks.flatten).2 ≠ .spent ∧
      ∀ c rest, ((FrpCodec.decoder J C).feed (.new C token) [] chunks).2 = .waiting c rest →
        ∃ tr l, Run (Link.step J) (fun _ _ => True) (Link.new C token) tr l ∧ l.codec = c ∧
          l.buf = rest ∧ l.stream = chunks.flatten) ∧
    ∀ tr l, Run (Link.step J) (fun _ _ => True) (Link.new C token) tr l →
      (l.codec.frpCoder = none → l.before = []) ∧
      ∀ coder, l.codec.frpCoder = some coder → ∃ iv, l.InPlace token coder iv ∧
        (l.codec.readMessage l.buf).1 = (l.codec.plain.readMessage
          ((C.decrypt (C.init token iv) (l.since ++ l.buf)).1.drop l.since.length)).1 := by
  have hlawful := (FrpCodec.reads (J := J) (C := C)).lawful
  refine ⟨fun chunks => ⟨?_, ?_, fun c rest h => ?_⟩, fun tr l run => ?_⟩
  · exact hlawful.feed_eq_drain trivial rfl chunks
  · rcases hlawful.drain_end (s := .new C token) trivial chunks.flatten with
      ⟨e, he⟩ | ⟨s, b, he, -⟩
    · simp [he]
    · simp [he]
  · obtain ⟨tr, l, run, hc, hb, hstream⟩ := Link.run_feed hC chunks (Link.new C token) h
    exact ⟨tr, l, run, hc, hb, hstream⟩
  · have hl := Link.Inv.of_run hC run
    refine ⟨hl.unencrypted, fun coder hc => ?_⟩
    obtain ⟨iv, hiv⟩ := hl.inPlace coder hc
    exact ⟨iv, hiv, hiv.reads hC hc⟩

/-! ## A second vector -/

namespace Sample

/-- A cipher that leaves the bytes as they are and remembers them. -/
def history : Cipher where
  State := String × Bytes × Bytes
  init token iv := (token, iv.val, [])
  encrypt s p := (p, s.1, s.2.1, s.2.2 ++ p)
  decrypt s p := (p, s.1, s.2.1, s.2.2 ++ p)

/-- The sample cipher is lawful. -/
lemma history_lawful : history.Lawful := by
  constructor <;> simp [history]

/-- The body of a response to a login, `{"version":""}`. -/
def version : Bytes :=
  [0x7b, 0x22, 0x76, 0x65, 0x72, 0x73, 0x69, 0x6f, 0x6e, 0x22, 0x3a, 0x22, 0x22, 0x7d]

/-- A reading of JSON that knows this text. -/
def json : Json where
  Request := Unit
  LoginResp := Unit
  StartWorkConnResp := Unit
  text _ := .ok version
  loginResp b := if b = version then .ok () else .error "expected value"
  startWorkConnResp _ := .error "expected value"

/-- A response to a login. -/
def login : Bytes := FrpCodec.messageBytes typeLoginResp version

/-- Two vectors. -/
def vector : Block 16 := ⟨List.replicate 16 1, rfl⟩
def vector' : Block 16 := ⟨List.replicate 16 2, rfl⟩

/-- The server answers the login a second time, and sends a second vector. -/
def twice : Bytes := login ++ (vector.val ++ (login ++ vector'.val))

/-- All has been decoded, and the coder has decrypted the bytes `p` since it was started with
`iv`. -/
def restarted (iv p : Bytes) (l : Link history) : Bool :=
  match l.codec.frpCoder with
  | none => false
  | some ⟨_, _, dec⟩ => l.buf = [] && (show String × Bytes × Bytes from dec) = ("", iv, p)

end Sample

open Sample in
/-- The cipher that remembers its bytes is lawful. When the response to the login is read in two
pieces the outcomes are those of the whole, and with the first vector the coder stands in its
place. -/
theorem decoded_in_place_sample : history.Lawful ∧
    (FrpCodec.decoder json history).feed (.new history "") [] [twice.take 5, twice.drop 5] =
      (FrpCodec.decoder json history).drain (.new history "") twice ∧
    ∃ tr l coder iv, Run (Link.step json) (fun _ _ => True) (Link.new history "") tr l ∧
      l.codec.frpCoder = some coder ∧ l.InPlace "" coder iv := by
  obtain ⟨hfeed, hplace⟩ := decoded_in_place history_lawful json ""
  refine ⟨history_lawful, ?_, ?_⟩
  · have h := (hfeed [twice.take 5, twice.drop 5]).1
    simpa only [List.flatten_cons, List.flatten_nil, List.append_nil, List.take_append_drop] using h
  · obtain ⟨l, tr, run, hcoder⟩ := exists_run_of_exec (Link.step json)
      [.receive (login ++ vector.val), .call, .call] (Link.new history "")
      (fun r => r.1.codec.frpCoder.isSome) (by decide +kernel)
    obtain ⟨coder, hc⟩ := Option.isSome_iff_exists.mp hcoder
    obtain ⟨iv, hiv, -⟩ := (hplace tr l run).2 coder hc
    exact ⟨tr, l, coder, iv, run, hc, hiv⟩

open Sample in
/-- A second response to a login is followed by a vector that is not decrypted, and the coder starts
again: all has been decoded, and it is not so that each byte after the first vector has been
decrypted. -/
theorem second_vector_not_decrypted : history.Lawful ∧
    ∃ tr l coder, Run (Link.step json) (fun _ _ => True) (Link.new history "") tr l ∧
      l.stream = login ++ (vector.val ++ (login ++ vector'.val)) ∧ l.buf = [] ∧
      l.codec.frpCoder = some coder ∧
      coder.dec ≠ (history.decrypt (history.init "" vector) (login ++ vector'.val)).2 := by
  obtain ⟨l, tr, run, hcheck⟩ := exists_run_of_exec (Link.step json)
    [.receive twice, .call, .call, .call, .call] (Link.new history "")
    (fun r => decide (r.1.stream = twice) && restarted vector'.val [] r.1) (by decide +kernel)
  simp only [Bool.and_eq_true, decide_eq_true_eq] at hcheck
  obtain ⟨hstream, hrestarted⟩ := hcheck
  unfold restarted at hrestarted
  split at hrestarted
  · cases hrestarted
  · next iv enc dec hc =>
    simp only [Bool.and_eq_true, decide_eq_true_eq] at hrestarted
    refine ⟨history_lawful, tr, l, ⟨iv, enc, dec⟩, run, hstream, hrestarted.1, hc, ?_⟩
    have hdec : dec = (show history.State from ("", vector'.val, [])) := hrestarted.2
    subst hdec
    show (show history.State from ("", vector'.val, [])) ≠ _
    exact fun heq => absurd (congrArg (fun s : String × Bytes × Bytes => s.2.2.length) heq)
      (by decide)

end Vlink.Frp
