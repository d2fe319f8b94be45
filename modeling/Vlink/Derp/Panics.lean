import Vlink.Derp.Codec
import Vlink.Lib.Runs

set_option autoImplicit false

/-!
# Which frames the DERP decoder survives

`decode_frame` cuts a payload at fixed places: the server key lies after the magic, the nonce of a
sealed frame in its first 24 bytes, the key of a peer in its first 32. The length of the payload is
what the server wrote in the header. Where it is too short, or where the payload of a server key is
not exactly magic and key, the slices are out of range and the decoder panics. It panics nowhere
else.

## Main definitions

* `Vlink.Derp.CmdType.Fits` — the length of a payload suits the type of the frame.
* `Vlink.Derp.DerpCodec.completes` — the header of the frame that a call of the decoder completes.
* `Vlink.Derp.Decoding` — a codec with its buffer, while bytes arrive and the decoder is called.

## Main results

* `Vlink.Derp.DerpCodec.decodeFrame_returns_iff` — a payload is decoded or rejected exactly if its
  length suits the type.
* `Vlink.Derp.decode_returns_iff` — the same of every call, in every state that can be reached.
* `Vlink.Derp.decode_panics` — for each type that is cut, a frame that is too short or too long.
-/

namespace Vlink.Derp

/-- What is assumed of `httparse`: a response that it has found complete lies in the buffer. -/
def Crates.Sound (E : Crates) : Prop :=
  ∀ src n, E.validateServerResponse src = .ok (some n) → n ≤ src.length

/-- The length of a payload suits the type of the frame. -/
def CmdType.Fits (len : ℕ) : CmdType → Prop
  | .frameServerKey => len = 40
  | .frameServerInfo => 24 ≤ len
  | .frameRecvPacket => 32 ≤ len
  | .framePeerGone => 33 ≤ len
  | _ => True

instance (len : ℕ) : DecidablePred (CmdType.Fits len)
  | .frameServerKey => inferInstanceAs (Decidable (len = 40))
  | .frameServerInfo => inferInstanceAs (Decidable (24 ≤ len))
  | .frameRecvPacket => inferInstanceAs (Decidable (32 ≤ len))
  | .framePeerGone => inferInstanceAs (Decidable (33 ≤ len))
  | .frameClientInfo | .frameSendPacket | .frameKeepAlive | .frameForwardPacket | .framePing
  | .unknown => inferInstanceAs (Decidable True)

namespace DerpCodec

variable {E : Crates} {c : DerpCodec} {src data : Bytes}

/-- The header of the frame whose payload a call of the decoder takes. -/
def completes (c : DerpCodec) (src : Bytes) : Option Header :=
  if c.toWsResponse then none
  else
    match c.takeHeader src with
    | (.ok (some header), _, rest) => if rest.length < header.len then none else some header
    | _ => none

/-- Opening a sealed payload needs the bytes of a nonce. -/
lemma decryptData_returns_iff : (c.decryptData E data).Returns ↔ 24 ≤ data.length := by
  have hslice : 24 ≤ data.length → (Bytes.slice data 24 data.length).Returns := fun h =>
    Bytes.slice_returns_iff.mpr ⟨h, le_rfl⟩
  rw [decryptData, Outcome.returns_bind_iff, Bytes.block_returns_iff]
  refine ⟨fun h => by omega, fun h => ⟨by omega, fun nonce _ => ?_⟩⟩
  cases c.salsaBox with
  | none => exact ⟨_, rfl⟩
  | some box =>
    refine Outcome.returns_bind (hslice h) fun plain _ => ?_
    cases E.decrypt box nonce plain with
    | none => exact ⟨_, rfl⟩
    | some plain => exact ⟨_, rfl⟩

/-- **A payload is decoded or rejected exactly if its length suits the type.** -/
theorem decodeFrame_returns_iff {header : Header} :
    (c.decodeFrame E header data).Returns ↔ header.cmdType.Fits data.length := by
  unfold decodeFrame
  cases header.cmdType with
  | frameServerKey =>
    have hmagic : magic.utf8ByteSize = 8 := by decide
    simp only [hmagic, Outcome.returns_bind_iff, Bytes.slice_returns_iff,
      Bytes.toBlock_returns_iff, CmdType.Fits]
    constructor
    · rintro ⟨⟨hlong, -⟩, htail⟩
      have hlen := (htail _ (Bytes.slice_of_le hlong le_rfl)).1
      simp only [List.length_take, List.length_drop] at hlen
      omega
    · intro hlen
      refine ⟨⟨by omega, le_rfl⟩, fun tail htail => ⟨?_, fun key _ => ⟨_, rfl⟩⟩⟩
      rw [Bytes.slice_of_le (by omega) le_rfl] at htail
      cases htail
      simp only [List.length_take, List.length_drop]
      omega
  | frameServerInfo =>
    simp only [Outcome.returns_bind_iff, decryptData_returns_iff, CmdType.Fits]
    refine ⟨And.left, fun h => ⟨h, fun r _ => ?_⟩⟩
    cases r with
    | error e => exact ⟨_, rfl⟩
    | ok plain =>
      dsimp only
      cases E.serverInfo plain <;> exact ⟨_, rfl⟩
  | frameRecvPacket =>
    simp only [Outcome.returns_bind_iff, Bytes.block_returns_iff, Bytes.slice_returns_iff,
      CmdType.Fits]
    exact ⟨fun h => by omega, fun h => ⟨by omega, fun _ _ => ⟨⟨h, le_rfl⟩, fun _ _ => ⟨_, rfl⟩⟩⟩⟩
  | framePeerGone =>
    simp only [Outcome.returns_bind_iff, Bytes.block_returns_iff, CmdType.Fits]
    constructor
    · rintro ⟨hkey, hreason⟩
      have hget := hreason _ (Bytes.block_eq_ret hkey)
      by_contra hshort
      rw [List.getElem?_eq_none (by omega)] at hget
      exact Outcome.not_returns_panic hget
    · intro h
      refine ⟨by omega, fun key _ => ?_⟩
      rw [List.getElem?_eq_getElem (show 32 < data.length by omega)]
      exact ⟨_, rfl⟩
  | frameClientInfo | frameSendPacket | frameKeepAlive | frameForwardPacket | framePing
  | unknown => exact iff_of_true ⟨_, rfl⟩ trivial

/-- A call of the decoder comes back exactly if the frame that it completes, if there is one, has a
payload of a suitable length. -/
lemma decode_returns (hE : E.Sound) (c : DerpCodec) (src : Bytes) :
    (c.decode E src).Returns ↔
      ∀ header, c.completes src = some header → header.cmdType.Fits header.len := by
  unfold decode completes
  by_cases hws : c.toWsResponse = true
  · rw [if_pos hws, if_pos hws]
    refine iff_of_true ?_ (fun _ h => by cases h)
    cases hv : E.validateServerResponse src with
    | error e => exact ⟨_, rfl⟩
    | ok r =>
      cases r with
      | none => exact ⟨_, rfl⟩
      | some n =>
        dsimp only
        rw [if_pos (hE src n hv)]
        exact ⟨_, rfl⟩
  · rw [if_neg hws, if_neg hws]
    rcases c.takeHeader src with ⟨e | header, c', rest⟩
    · exact iff_of_true ⟨_, rfl⟩ (fun _ h => by cases h)
    · cases header with
      | none => exact iff_of_true ⟨_, rfl⟩ (fun _ h => by cases h)
      | some header =>
        dsimp only
        by_cases hlen : rest.length < header.len
        · rw [if_pos hlen, if_pos hlen]
          exact iff_of_true ⟨_, rfl⟩ (fun _ h => by cases h)
        · have htake : (rest.take header.len).length = header.len := by
            rw [List.length_take]
            omega
          rw [if_neg hlen, if_neg hlen, Outcome.returns_bind_iff, decodeFrame_returns_iff, htake]
          simp

end DerpCodec

/-! ## Bytes arrive and the decoder is called -/

/-- A codec with its buffer. -/
structure Decoding where
  codec : DerpCodec
  buf : Bytes := []

/-- A chunk arrives, or the decoder is called. -/
inductive DecodingAction where
  | arrive (chunk : Bytes)
  | decode

namespace Decoding

variable (E : Crates)

/-- One step; the events are what the calls hand back. A call that panics leads nowhere. -/
def step (s : Decoding) :
    DecodingAction → Option (Decoding × List (Except Error (Option DerpResponse)))
  | .arrive chunk => some ({ s with buf := s.buf ++ chunk }, [])
  | .decode =>
    match s.codec.decode E s.buf with
    | .panic => none
    | .ret (r, codec, buf) => some (⟨codec, buf⟩, [r])

/-- A new codec and an empty buffer lead to `s`, and the calls have handed back `rs`. -/
def Reaches (s : Decoding) (publicKey privateKey : Block 32) (fastConnect : Bool)
    (rs : List (Except Error (Option DerpResponse))) : Prop :=
  Run (step E) (fun _ _ => True) ⟨.new publicKey privateKey fastConnect, []⟩ rs s

end Decoding

namespace DerpCodec

variable {E : Crates} {c c' : DerpCodec} {src rest : Bytes}

/-- The codec keeps no header of a frame that is too long. -/
def Limited (c : DerpCodec) : Prop := ∀ header, c.header = some header → header.len ≤ maxFrameLen

/-- No header of a frame that is too long is used. -/
lemma Limited.takeHeader {header : Header} (hc : c.Limited)
    (h : c.takeHeader src = (.ok (some header), c', rest)) :
    header.len ≤ maxFrameLen ∧ c'.header = none := by
  unfold DerpCodec.takeHeader at h
  split at h
  · next kept hkept =>
    simp only [Prod.mk.injEq, Except.ok.injEq, Option.some.injEq] at h
    obtain ⟨rfl, rfl, -⟩ := h
    exact ⟨hc kept hkept, rfl⟩
  · next hnone =>
    split at h
    · dsimp only at h
      split_ifs at h with hlong
      · simp at h
      · simp only [Prod.mk.injEq, Except.ok.injEq, Option.some.injEq] at h
        obtain ⟨rfl, rfl, -⟩ := h
        exact ⟨Nat.le_of_not_lt hlong, hnone⟩
    · simp at h

/-- The frame that a call completes is not too long. -/
lemma Limited.completes {header : Header} (hc : c.Limited)
    (h : c.completes src = some header) : header.len ≤ maxFrameLen := by
  unfold DerpCodec.completes at h
  split_ifs at h
  split at h
  · next header' c' rest ht =>
    split_ifs at h
    cases h
    exact (hc.takeHeader ht).1
  · cases h

/-- A header that is not used is none that was kept. -/
lemma takeHeader_none {r : Except Error (Option Header)}
    (h : c.takeHeader src = (r, c', rest)) (hr : ∀ header, r ≠ .ok (some header)) : c' = c := by
  unfold takeHeader at h
  split at h
  · simp only [Prod.mk.injEq] at h
    exact absurd h.1.symm (hr _)
  · split at h
    · dsimp only at h
      split_ifs at h <;> exact (Prod.mk.inj (Prod.mk.inj h).2).1.symm
    · exact (Prod.mk.inj (Prod.mk.inj h).2).1.symm

/-- A call keeps the limit. -/
lemma Limited.decode {r : Except Error (Option DerpResponse)} (hc : c.Limited)
    (h : c.decode E src = .ret (r, c', rest)) : c'.Limited := by
  unfold DerpCodec.decode at h
  split_ifs at h
  · split at h
    · cases h
      exact hc
    · cases h
      exact hc
    · split_ifs at h
      cases h
      exact hc
  · split at h
    · next ht =>
      cases h
      rw [takeHeader_none ht (by simp)]
      exact hc
    · next ht =>
      cases h
      rw [takeHeader_none ht (by simp)]
      exact hc
    · next header c₁ src₁ ht =>
      obtain ⟨hlen, hnone⟩ := hc.takeHeader ht
      split_ifs at h
      · cases h
        intro kept hkept
        cases hkept
        exact hlen
      · obtain ⟨⟨r₁, c₂⟩, hf, hr⟩ := Outcome.bind_eq_ret.mp h
        cases hr
        have hheader : c'.header = c₁.header := by
          rcases decodeFrame_cases (E := E) c₁ header (src₁.take header.len) with
            hp | ⟨e, he⟩ | ⟨i, c₂, hi, -, hh⟩
          · rw [hp] at hf
            cases hf
          · rw [he] at hf
            cases hf
            rfl
          · rw [hi] at hf
            cases hf
            exact hh
        intro kept hkept
        rw [hheader, hnone] at hkept
        cases hkept

end DerpCodec

/-- The limit holds in every state. -/
lemma Decoding.Reaches.limited {E : Crates} {s : Decoding} {publicKey privateKey : Block 32}
    {fastConnect : Bool} {rs : List (Except Error (Option DerpResponse))}
    (run : s.Reaches E publicKey privateKey fastConnect rs) : s.codec.Limited := by
  refine Run.invariant (I := fun _ (s : Decoding) => s.codec.Limited) ?_ ?_ run
  · intro header h
    cases h
  · intro rs s a s' rs' _ ih _ hstep
    cases a with
    | arrive chunk =>
      cases hstep
      exact ih
    | decode =>
      simp only [Decoding.step] at hstep
      split at hstep
      · cases hstep
      · next r codec buf hd =>
        cases hstep
        exact ih.decode hd

/-- **When decoding panics.** Whatever bytes have arrived in whatever chunks, and however often the
decoder has been called: the frame that the next call completes, if there is one, has a declared
length of at most `2^20`, and the call comes back exactly if this length suits the type of the
frame. -/
theorem decode_returns_iff {E : Crates} (hE : E.Sound) {s : Decoding}
    {publicKey privateKey : Block 32} {fastConnect : Bool}
    {rs : List (Except Error (Option DerpResponse))}
    (run : s.Reaches E publicKey privateKey fastConnect rs) :
    (∀ header, s.codec.completes s.buf = some header → header.len ≤ 2 ^ 20) ∧
    ((s.codec.decode E s.buf).Returns ↔
      ∀ header, s.codec.completes s.buf = some header → header.cmdType.Fits header.len) :=
  ⟨fun _ h => run.limited.completes h, DerpCodec.decode_returns hE s.codec s.buf⟩

/-- Crates that find nothing are sound. -/
lemma Crates.idle_sound : idle.Sound := by
  intro src n h
  cases h

/-- The bytes of a stream arrive in one chunk, at a codec that expects frames. -/
def Decoding.received (stream : Bytes) : Decoding :=
  ⟨.new (Block.zero 32) (Block.zero 32) true, stream⟩

/-- Any stream may be received at first. -/
lemma Decoding.reaches_received (E : Crates) (stream : Bytes) :
    (received stream).Reaches E (Block.zero 32) (Block.zero 32) true [] :=
  Run.nil.snoc (a := .arrive stream) trivial rfl

/-- A packet of one byte, with the key that it comes from. -/
theorem decode_returns_sample :
    Crates.idle.Sound ∧
    ((Decoding.received ([5, 0, 0, 0, 33] ++ List.replicate 33 7)).codec.decode .idle
      (Decoding.received ([5, 0, 0, 0, 33] ++ List.replicate 33 7)).buf).Returns := by
  refine ⟨Crates.idle_sound, ?_⟩
  rw [(decode_returns_iff Crates.idle_sound (Decoding.reaches_received .idle _)).2]
  intro header h
  have hheader : header = ⟨.frameRecvPacket, 33⟩ := by
    have : some header = some ⟨.frameRecvPacket, 33⟩ := h.symm.trans (by decide)
    exact Option.some.inj this
  rw [hheader]
  decide

/-- A new codec that gets these bytes in one chunk panics. -/
def PanicsOn (stream : Bytes) : Prop :=
  (Decoding.received stream).Reaches .idle (Block.zero 32) (Block.zero 32) true [] ∧
    (Decoding.received stream).codec.decode .idle (Decoding.received stream).buf = .panic

/-- A panic of the first call is a panic. -/
lemma panicsOn_of_decode {stream : Bytes}
    (h : (Decoding.received stream).codec.decode .idle (Decoding.received stream).buf = .panic) :
    PanicsOn stream :=
  ⟨Decoding.reaches_received .idle stream, h⟩

/-- Frames that panic: a server key that is empty and one that is too long, sealed information
without a nonce, a packet of 31 bytes, and the notice that a peer is gone without the reason. -/
theorem decode_panics :
    PanicsOn [1, 0, 0, 0, 0] ∧ PanicsOn ([1, 0, 0, 0, 41] ++ List.replicate 41 0) ∧
      PanicsOn [3, 0, 0, 0, 0] ∧ PanicsOn ([5, 0, 0, 0, 31] ++ List.replicate 31 0) ∧
      PanicsOn ([8, 0, 0, 0, 32] ++ List.replicate 32 0) := by
  refine ⟨?_, ?_, ?_, ?_, ?_⟩
  all_goals
    apply panicsOn_of_decode
    decide

end Vlink.Derp
