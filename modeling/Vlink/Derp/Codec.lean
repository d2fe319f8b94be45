import Vlink.Lib.Bytes
import Vlink.Lib.Framing

set_option autoImplicit false

/-!
# The frames of a DERP connection

`derp_codec.rs` of `tailscale-derp`: a frame is a type byte, the length of its payload in four bytes
and the payload. The decoder is called with all bytes that have arrived and not been used; it keeps
a header that it has read while the payload is still incomplete. Before the first frame it waits for
the response to the upgrade of the connection.

## Main definitions

* `Vlink.Derp.DerpCodec`, `Vlink.Derp.DerpCodec.decode` — the codec, and one call of its decoder.
* `Vlink.Derp.writeFrame` — a frame as it is sent.
* `Vlink.Derp.Frame` — a frame with any type byte, and when its payload is well formed.

## Main results

* `Vlink.Derp.DerpCodec.reads` — in the frame phase the decoder reads header and payload in turn.
* `Vlink.Derp.frames_decoded` — frames are decoded to their responses, however the stream is cut
  into chunks.

## Design

What other crates do is a parameter: parsing the response to the upgrade, opening a sealed box, and
reading the JSON text of a `ServerInfo`. A key is any array of 32 bytes for them, so that
`PublicKey::from_slice` and `SecretKey::from_slice` succeed on arrays of this length.
-/

namespace Vlink.Derp

/-! ## The codec -/

/-- `ServerInfo`. -/
structure ServerInfo where
  version : UInt8
deriving DecidableEq

/-- The errors of `errors.rs` that decoding hands back. -/
inductive Error where
  | errorMsg (msg : String)
  | httpError (e : String)
  | maxFrameLength (len : ℕ)
  | noServerKey
  | decryptError
deriving DecidableEq

/-- `DerpResponse`. -/
inductive DerpResponse where
  | ws
  | frameServerKey (key : Block 32)
  | frameRecvPacket (src : Block 32) (data : Bytes)
  | framePeerGonePacket (key : Block 32) (reason : UInt8)
  | frameKeepAlive
  | serverInfo (info : ServerInfo)
  | test
deriving DecidableEq

/-- `CmdType`. -/
inductive CmdType where
  | frameServerKey
  | frameClientInfo
  | frameServerInfo
  | frameSendPacket
  | frameRecvPacket
  | frameKeepAlive
  | framePeerGone
  | frameForwardPacket
  | framePing
  | unknown
deriving DecidableEq

/-- `CmdType::into`: the type byte. -/
def CmdType.toByte : CmdType → UInt8
  | frameServerKey => 0x01
  | frameClientInfo => 0x02
  | frameServerInfo => 0x03
  | frameSendPacket => 0x04
  | frameRecvPacket => 0x05
  | frameKeepAlive => 0x06
  | framePeerGone => 0x08
  | frameForwardPacket => 0x0a
  | framePing => 0x12
  | unknown => 0x13

/-- `CmdType::from`: every other byte is unknown. -/
def CmdType.ofByte (b : UInt8) : CmdType :=
  if b = 0x01 then frameServerKey
  else if b = 0x02 then frameClientInfo
  else if b = 0x03 then frameServerInfo
  else if b = 0x04 then frameSendPacket
  else if b = 0x05 then frameRecvPacket
  else if b = 0x06 then frameKeepAlive
  else if b = 0x08 then framePeerGone
  else if b = 0x0a then frameForwardPacket
  else if b = 0x12 then framePing
  else unknown

/-- `Header`. -/
structure Header where
  cmdType : CmdType
  len : ℕ
deriving DecidableEq

/-- `DerpCodec`. A `SalsaBox` is given by the two keys that it was made from. -/
structure DerpCodec where
  toWsResponse : Bool
  privateKey : Block 32
  publicKey : Block 32
  salsaBox : Option (Block 32 × Block 32)
  header : Option Header
deriving DecidableEq

/-- `httparse::Response` when all of the response has come: its length, the status code (which is
there then), and the reason. -/
structure ParsedResponse where
  len : ℕ
  code : ℕ
  reason : Option String

/-- What other crates do: `httparse::Response::parse` with room for twenty headers, the text of a
string with `Debug`, `SalsaBox::decrypt`, and `serde_json::from_slice` at the type `ServerInfo`. -/
structure Crates where
  parseResponse : Bytes → Except String (Option ParsedResponse)
  debug : String → String
  decrypt : Block 32 × Block 32 → Block 24 → Bytes → Option Bytes
  serverInfo : Bytes → Option ServerInfo

/-- `validate_server_response`: the length of the response, if the server has switched the
protocol. -/
def Crates.validateServerResponse (E : Crates) (data : Bytes) : Except Error (Option ℕ) :=
  match E.parseResponse data with
  | .error e => .error (.httpError e)
  | .ok none => .ok none
  | .ok (some response) =>
    if response.code ≠ 101 then
      let errorMessage := "server responded with HTTP error " ++ toString response.code
      match response.reason with
      | none => .error (.errorMsg errorMessage)
      | some reason => .error (.errorMsg (errorMessage ++ ": " ++ E.debug reason))
    else .ok (some response.len)

/-- `MAGIC`. -/
def magic : String := "DERP🔑"

/-- The largest payload, `1 << 20`. -/
def maxFrameLen : ℕ := 1 <<< 20

/-- `DerpCodec::new`. -/
def DerpCodec.new (publicKey privateKey : Block 32) (fastConnect : Bool) : DerpCodec where
  toWsResponse := !fastConnect
  privateKey := privateKey
  publicKey := publicKey
  salsaBox := none
  header := none

namespace DerpCodec

variable (E : Crates)

/-- `DerpCodec::decrypt_data`. -/
def decryptData (c : DerpCodec) (data : Bytes) : Outcome (Except Error Bytes) := do
  let nonce ← data.block 0 24
  match c.salsaBox with
  | none => return .error .noServerKey
  | some box =>
    let sealed ← data.slice 24 data.length
    match E.decrypt box nonce sealed with
    | none => return .error .decryptError
    | some plain => return .ok plain

/-- `DerpCodec::decode_frame`. -/
def decodeFrame (c : DerpCodec) (header : Header) (data : Bytes) :
    Outcome (Except Error (Option DerpResponse) × DerpCodec) :=
  match header.cmdType with
  | .frameServerKey => do
    -- `copy_from_slice` panics unless the lengths agree
    let tail ← data.slice magic.utf8ByteSize data.length
    let serverKey ← tail.toBlock 32
    return (.ok (some (.frameServerKey serverKey)),
      { c with salsaBox := some (serverKey, c.privateKey) })
  | .frameServerInfo => do
    match ← c.decryptData E data with
    | .error e => return (.error e, c)
    | .ok data =>
      match E.serverInfo data with
      | none => return (.error (.errorMsg "server info error"), c)
      | some info => return (.ok (some (.serverInfo info)), c)
  | .frameKeepAlive => return (.ok (some .frameKeepAlive), c)
  | .frameRecvPacket => do
    let srcKey ← data.block 0 32
    let data ← data.slice 32 data.length
    return (.ok (some (.frameRecvPacket srcKey data)), c)
  | .framePeerGone => do
    let key ← data.block 0 32
    match data[32]? with
    | none => .panic
    | some reason => return (.ok (some (.framePeerGonePacket key reason)), c)
  | _ => return (.ok (some .test), c)

/-- The header of the next frame: the one that was kept, or five bytes of the buffer. -/
def takeHeader (c : DerpCodec) (src : Bytes) :
    Except Error (Option Header) × DerpCodec × Bytes :=
  match c.header with
  | some header => (.ok (some header), { c with header := none }, src)
  | none =>
    match src with
    | ty :: l₀ :: l₁ :: l₂ :: l₃ :: rest =>
      let len := beNat [l₀, l₁, l₂, l₃]
      if maxFrameLen < len then (.error (.maxFrameLength len), c, rest)
      else (.ok (some ⟨.ofByte ty, len⟩), c, rest)
    | _ => (.ok none, c, src)

/-- `DerpCodec::decode`: what it hands back, the codec afterwards, and what is left in the
buffer. -/
def decode (c : DerpCodec) (src : Bytes) :
    Outcome (Except Error (Option DerpResponse) × DerpCodec × Bytes) :=
  if c.toWsResponse then
    match E.validateServerResponse src with
    | .error e => .ret (.error e, c, src)
    | .ok none => .ret (.ok none, c, src)
    | .ok (some n) =>
      if n ≤ src.length then .ret (.ok (some .ws), { c with toWsResponse := false }, src.drop n)
      else .panic
  else
    match c.takeHeader src with
    | (.error e, c, src) => .ret (.error e, c, src)
    | (.ok none, c, src) => .ret (.ok none, c, src)
    | (.ok (some header), c, src) =>
      if src.length < header.len then .ret (.ok none, { c with header := some header }, src)
      else do
        let (r, c) ← c.decodeFrame E header (src.take header.len)
        return (r, c, src.drop header.len)

/-- The decoder of the codec. A header that is kept stands for five bytes. -/
def decoder : Decoder UInt8 DerpCodec DerpResponse (Failure Error) where
  decode c src := .ofCall (c.decode E src)
  weight c := if c.header.isSome then 5 else 0

end DerpCodec

/-- The bytes of a frame: `put_u8`, `put_u32` and `put`. -/
def frameBytes (ty : UInt8) (data : Bytes) : Bytes :=
  ty :: (beBytes 4 (data.length % 2 ^ 32) ++ data)

/-- The five bytes in front of a payload. -/
lemma exists_frameBytes_eq (ty : UInt8) {data : Bytes} (h : data.length < 2 ^ 32) :
    ∃ l₀ l₁ l₂ l₃, beNat [l₀, l₁, l₂, l₃] = data.length ∧
      frameBytes ty data = ty :: l₀ :: l₁ :: l₂ :: l₃ :: data := by
  have hnat : beNat (beBytes 4 (data.length % 2 ^ 32)) = data.length := by
    rw [beNat_beBytes, Nat.mod_eq_of_lt h]
    exact Nat.mod_eq_of_lt h
  obtain ⟨l₀, l₁, l₂, l₃, hlen⟩ := List.length_eq_four.mp (length_beBytes 4 (data.length % 2 ^ 32))
  rw [hlen] at hnat
  refine ⟨l₀, l₁, l₂, l₃, hnat, ?_⟩
  rw [frameBytes, hlen]
  rfl

/-- `write_frame`. -/
def writeFrame (dst : Bytes) (cmdType : CmdType) (data : Bytes) : Bytes :=
  dst ++ frameBytes cmdType.toByte data

/-! ## Reading in turn -/

namespace DerpCodec

variable {E : Crates} {c : DerpCodec}

/-- The number of bytes that the codec is waiting for, in the frame phase. -/
def need (c : DerpCodec) : ℕ :=
  match c.header with
  | none => 5
  | some header => header.len

/-- With a header at hand, the decoder takes the payload when it is complete. -/
lemma decode_pending {header : Header} (hws : c.toWsResponse = false)
    (hh : c.header = some header) (src : Bytes) :
    c.decode E src =
      if src.length < header.len then .ret (.ok none, c, src)
      else do
        let (r, c) ← { c with header := none }.decodeFrame E header (src.take header.len)
        return (r, c, src.drop header.len) := by
  obtain ⟨ws, privateKey, publicKey, salsaBox, kept⟩ := c
  cases hws
  cases hh
  rfl

/-- Five bytes are read as a header, and decoding goes on with it. -/
lemma decode_header (hws : c.toWsResponse = false) (hh : c.header = none)
    (ty l₀ l₁ l₂ l₃ : UInt8) (rest : Bytes) :
    c.decode E (ty :: l₀ :: l₁ :: l₂ :: l₃ :: rest) =
      if maxFrameLen < beNat [l₀, l₁, l₂, l₃] then
        .ret (.error (.maxFrameLength (beNat [l₀, l₁, l₂, l₃])), c, rest)
      else { c with header := some ⟨.ofByte ty, beNat [l₀, l₁, l₂, l₃]⟩ }.decode E rest := by
  obtain ⟨ws, privateKey, publicKey, salsaBox, kept⟩ := c
  cases hws
  cases hh
  by_cases hlong : maxFrameLen < beNat [l₀, l₁, l₂, l₃]
  · simp [decode, takeHeader, hlong]
  · simp [decode, takeHeader, hlong]

/-- Fewer than five bytes are not read. -/
lemma decode_short (hws : c.toWsResponse = false) (hh : c.header = none) {src : Bytes}
    (h : src.length < 5) : c.decode E src = .ret (.ok none, c, src) := by
  match src, h with
  | [], _ | [_], _ | [_, _], _ | [_, _, _], _ | [_, _, _, _], _ =>
    simp [decode, hws, takeHeader, hh]

/-- What `decode_frame` hands back is an error, and then the codec is as before, or an item, and
then phase and header are. -/
lemma decodeFrame_cases (c : DerpCodec) (header : Header) (data : Bytes) :
    c.decodeFrame E header data = .panic ∨
    (∃ e, c.decodeFrame E header data = .ret (.error e, c)) ∨
    ∃ r c', c.decodeFrame E header data = .ret (.ok (some r), c') ∧
      c'.toWsResponse = c.toWsResponse ∧ c'.header = c.header := by
  cases hr : c.decodeFrame E header data with
  | panic => exact .inl rfl
  | ret r =>
    right
    unfold decodeFrame at hr
    split at hr
    · obtain ⟨tail, -, hr⟩ := Outcome.bind_eq_ret.mp hr
      obtain ⟨key, -, hr⟩ := Outcome.bind_eq_ret.mp hr
      cases hr
      exact .inr ⟨_, _, rfl, rfl, rfl⟩
    · obtain ⟨plain, -, hr⟩ := Outcome.bind_eq_ret.mp hr
      split at hr
      · cases hr
        exact .inl ⟨_, rfl⟩
      · split at hr
        · cases hr
          exact .inl ⟨_, rfl⟩
        · cases hr
          exact .inr ⟨_, _, rfl, rfl, rfl⟩
    · cases hr
      exact .inr ⟨_, _, rfl, rfl, rfl⟩
    · obtain ⟨src, -, hr⟩ := Outcome.bind_eq_ret.mp hr
      obtain ⟨rest, -, hr⟩ := Outcome.bind_eq_ret.mp hr
      cases hr
      exact .inr ⟨_, _, rfl, rfl, rfl⟩
    · obtain ⟨key, -, hr⟩ := Outcome.bind_eq_ret.mp hr
      split at hr
      · cases hr
      · cases hr
        exact .inr ⟨_, _, rfl, rfl, rfl⟩
    · cases hr
      exact .inr ⟨_, _, rfl, rfl, rfl⟩

/-- A call of the decoder is a call of `decode`. -/
lemma decoder_decode (src : Bytes) : (decoder E).decode c src = .ofCall (c.decode E src) := rfl

/-- **In the frame phase the decoder reads header and payload in turn.** -/
theorem reads : (decoder E).Reads (fun c => c.toWsResponse = false) need where
  short {c src} hws h := by
    rw [decoder_decode]
    cases hh : c.header with
    | none =>
      have hlen : src.length < 5 := by simpa only [need, hh] using h
      rw [decode_short hws hh hlen]
      rfl
    | some header =>
      have hlen : src.length < header.len := by simpa only [need, hh] using h
      rw [decode_pending hws hh, if_pos hlen]
      rfl
  exact {c p} hws h := by
    simp only [decoder_decode]
    cases hh : c.header with
    | none =>
      have hlen : p.length = 5 := by simpa only [need, hh] using h
      match p, hlen with
      | [ty, l₀, l₁, l₂, l₃], _ =>
        have hd := decode_header (E := E) hws hh ty l₀ l₁ l₂ l₃
        by_cases hlong : maxFrameLen < beNat [l₀, l₁, l₂, l₃]
        · refine .inl ⟨.error (.maxFrameLength (beNat [l₀, l₁, l₂, l₃])), fun rest => ?_⟩
          exact congrArg Answer.ofCall ((hd rest).trans (if_pos hlong))
        · refine .inr (.inr ⟨{ c with header := some ⟨.ofByte ty, beNat [l₀, l₁, l₂, l₃]⟩ }, hws,
            by simp, by simp [decoder], fun rest => ?_⟩)
          exact congrArg Answer.ofCall ((hd rest).trans (if_neg hlong))
    | some header =>
      have hlen : p.length = header.len := by simpa only [need, hh] using h
      have hd : ∀ rest, c.decode E (p ++ rest) = (do
          let (r, c) ← { c with header := none }.decodeFrame E header p
          return (r, c, rest)) := by
        intro rest
        rw [decode_pending hws hh, if_neg (by simp; omega), List.take_left' hlen,
          List.drop_left' hlen]
      rcases decodeFrame_cases (E := E) { c with header := none } header p with
        hf | ⟨e, hf⟩ | ⟨r, c', hf, hws', hh'⟩
      · refine .inl ⟨.panicked, fun rest => ?_⟩
        rw [hd rest, hf]
        rfl
      · refine .inl ⟨.error e, fun rest => ?_⟩
        rw [hd rest, hf]
        rfl
      · refine .inr (.inl ⟨r, c', hws'.trans hws, by simp [decoder, hh, hh'], fun rest => ?_⟩)
        rw [hd rest, hf]
        rfl

end DerpCodec

/-! ## Frames -/

/-- The payload `data` is well formed for the type byte `ty`: it is not too long, and what
`decode_frame` reads of it is there. The sealed frames of type `FrameServerInfo` are left aside. -/
def WellFormed (ty : UInt8) (data : Bytes) : Prop :=
  data.length ≤ maxFrameLen ∧
    match CmdType.ofByte ty with
    | .frameServerKey => data.length = 40
    | .frameRecvPacket => 32 ≤ data.length
    | .framePeerGone => 33 ≤ data.length
    | .frameServerInfo => False
    | _ => True

/-- A frame with a payload that is well formed for its type. -/
structure Frame where
  ty : UInt8
  payload : Bytes
  wellFormed : WellFormed ty payload

/-- The bytes of a frame. -/
def Frame.bytes (f : Frame) : Bytes := frameBytes f.ty f.payload

/-- The response that a frame is to be decoded to. -/
def Frame.response (f : Frame) : DerpResponse :=
  match h : CmdType.ofByte f.ty with
  | .frameServerKey => .frameServerKey ⟨f.payload.drop 8, by
      have hwf := f.wellFormed.2
      rw [h] at hwf
      simp [hwf]⟩
  | .frameRecvPacket => .frameRecvPacket ⟨f.payload.take 32, by
      have hwf := f.wellFormed.2
      rw [h] at hwf
      simp [hwf]⟩ (f.payload.drop 32)
  | .framePeerGone =>
    have hwf : 33 ≤ f.payload.length := by
      have hwf := f.wellFormed.2
      rwa [h] at hwf
    .framePeerGonePacket ⟨f.payload.take 32, by simp; omega⟩ f.payload[32]
  | .frameKeepAlive => .frameKeepAlive
  | _ => .test

/-- A well-formed payload is decoded to its response; no header is kept. -/
lemma DerpCodec.decodeFrame_response (E : Crates) (c : DerpCodec) (f : Frame) :
    ∃ c', c.decodeFrame E ⟨.ofByte f.ty, f.payload.length⟩ f.payload =
        .ret (.ok (some f.response), c') ∧
      c'.toWsResponse = c.toWsResponse ∧ c'.header = c.header := by
  have hwf := f.wellFormed.2
  unfold Frame.response
  split
  · next h =>
    rw [h] at hwf
    have hmagic : magic.utf8ByteSize = 8 := by decide
    have hslice : f.payload.slice magic.utf8ByteSize f.payload.length =
        .ret (f.payload.drop 8) := by
      rw [hmagic, Bytes.slice_of_le (by omega) le_rfl, List.take_of_length_le (by simp)]
    have hlen : (f.payload.drop 8).length = 32 := by simp [hwf]
    simp only [DerpCodec.decodeFrame, h, hslice, Outcome.ret_bind, Bytes.toBlock_of_length hlen,
      Outcome.pure_eq]
    exact ⟨_, rfl, rfl, rfl⟩
  · next h =>
    rw [h] at hwf
    have hslice : f.payload.slice 32 f.payload.length = .ret (f.payload.drop 32) := by
      rw [Bytes.slice_of_le hwf le_rfl, List.take_of_length_le (by simp)]
    simp only [DerpCodec.decodeFrame, h, Bytes.block_eq_ret (Nat.zero_add 32 ▸ hwf),
      Outcome.ret_bind, hslice, Outcome.pure_eq, List.drop_zero]
    exact ⟨_, rfl, rfl, rfl⟩
  · next h =>
    rw [h] at hwf
    have hget : f.payload[32]? = some f.payload[32] := List.getElem?_eq_getElem hwf
    have hlen : 0 + 32 ≤ f.payload.length := by omega
    simp only [DerpCodec.decodeFrame, h, Bytes.block_eq_ret hlen, Outcome.ret_bind, hget,
      Outcome.pure_eq, List.drop_zero]
    exact ⟨_, rfl, rfl, rfl⟩
  · next h =>
    simp only [DerpCodec.decodeFrame, h]
    exact ⟨_, rfl, rfl, rfl⟩
  · next hkey hrecv hgone halive =>
    cases h : CmdType.ofByte f.ty with
    | frameServerKey => exact absurd h hkey
    | frameRecvPacket => exact absurd h hrecv
    | framePeerGone => exact absurd h hgone
    | frameKeepAlive => exact absurd h halive
    | frameServerInfo =>
      rw [h] at hwf
      exact hwf.elim
    | frameClientInfo | frameSendPacket | frameForwardPacket | framePing | unknown =>
      exact ⟨c, rfl, rfl, rfl⟩

/-- A frame that is complete is decoded to its response, whatever follows. -/
lemma DerpCodec.decode_frame {E : Crates} {c : DerpCodec} (hws : c.toWsResponse = false)
    (hh : c.header = none) (f : Frame) (rest : Bytes) :
    ∃ c', (c'.toWsResponse = false ∧ c'.header = none) ∧
      (decoder E).decode c (f.bytes ++ rest) = .item f.response c' rest := by
  have hlen : f.payload.length ≤ maxFrameLen := f.wellFormed.1
  have hmax : maxFrameLen < 2 ^ 32 := by decide
  obtain ⟨l₀, l₁, l₂, l₃, hnat, hframe⟩ := exists_frameBytes_eq f.ty (hlen.trans_lt hmax)
  have hbytes : f.bytes ++ rest = f.ty :: l₀ :: l₁ :: l₂ :: l₃ :: (f.payload ++ rest) := by
    rw [Frame.bytes, hframe]
    rfl
  obtain ⟨c', hf, hws', hh'⟩ := c.decodeFrame_response E f
  have hc : { c with header := none } = c := by rw [← hh]
  have hpayload : { c with header := some ⟨.ofByte f.ty, f.payload.length⟩ }.decode E
      (f.payload ++ rest) = .ret (.ok (some f.response), c', rest) := by
    rw [decode_pending (c := { c with header := some ⟨.ofByte f.ty, f.payload.length⟩ }) hws rfl,
      if_neg (by simp), List.take_left, List.drop_left]
    show (do
      let (r, c) ←
        { c with header := none }.decodeFrame E ⟨.ofByte f.ty, f.payload.length⟩ f.payload
      return (r, c, rest)) = _
    rw [hc, hf]
    rfl
  refine ⟨c', ⟨hws'.trans hws, hh'.trans hh⟩, ?_⟩
  rw [decoder_decode, hbytes, decode_header hws hh, hnat, if_neg (Nat.not_lt.mpr hlen), hpayload]
  rfl

/-- **Framing is lossless under any chunking.** Frames are laid out one after the other, the stream
is cut into chunks, and after each chunk the decoder is called until it waits. It hands back exactly
the responses of the frames, in order and without a failure, and ends with an empty buffer and no
header at hand. -/
theorem frames_decoded (E : Crates) {c : DerpCodec} (hws : c.toWsResponse = false)
    (hh : c.header = none) (fs : List Frame) (chunks : List Bytes)
    (hcut : chunks.flatten = fs.flatMap Frame.bytes) :
    ∃ c', (DerpCodec.decoder E).feed c [] chunks = (fs.map Frame.response, .waiting c' []) ∧
      c'.header = none := by
  have hlaw := DerpCodec.reads (E := E).lawful
  have hidle : ∀ c : DerpCodec, c.toWsResponse = false ∧ c.header = none →
      (DerpCodec.decoder E).decode c [] = .wait c [] := by
    rintro c ⟨hws, hh⟩
    exact DerpCodec.reads.short hws (by simp [DerpCodec.need, hh])
  obtain ⟨c', ⟨hws', hh'⟩, hdrain⟩ := hlaw.drain_frames fs
    (P := fun c => c.toWsResponse = false ∧ c.header = none) And.left
    (fun f _ c rest hc => DerpCodec.decode_frame hc.1 hc.2 f rest) hidle ⟨hws, hh⟩
  refine ⟨c', ?_, hh'⟩
  rw [hlaw.feed_eq_drain hws (hidle c ⟨hws, hh⟩), List.nil_append, hcut, hdrain]

/-- What other crates do, for runs on fixed inputs: no response to the upgrade is complete, and
every box is empty. -/
def Crates.idle : Crates := ⟨fun _ => .ok none, id, fun _ _ _ => none, fun _ => none⟩

/-- Three frames, the second of an unknown type and the third a packet, cut inside both headers and
inside a payload. -/
theorem frames_decoded_sample : ∃ c' : DerpCodec,
    (DerpCodec.decoder .idle).feed
        (.new (Block.zero 32) (Block.zero 32) true) []
        [[6, 0, 0], [0, 0, 0x7f, 0], [0, 0, 2, 1], [2, 5, 0, 0, 0, 33],
          List.replicate 32 7 ++ [9]] =
      ([.frameKeepAlive, .test, .frameRecvPacket ⟨List.replicate 32 7, rfl⟩ [9]],
        .waiting c' []) ∧
      c'.header = none :=
  frames_decoded _ rfl rfl [⟨6, [], ⟨by decide, trivial⟩⟩, ⟨0x7f, [1, 2], ⟨by decide, trivial⟩⟩,
    ⟨5, List.replicate 32 7 ++ [9], ⟨by decide, by simp [CmdType.ofByte]⟩⟩] _ (by decide)

end Vlink.Derp
