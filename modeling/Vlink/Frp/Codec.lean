import Vlink.Lib.Bytes
import Vlink.Lib.Framing

set_option autoImplicit false

/-!
# The messages of an FRP connection

`frp_codec.rs` and `buf_crypto.rs` of `frp-client`: a message is a type byte, the length of its body
in eight bytes and the body, a JSON text. After the response to the login the server sends an
initialisation vector, and from then on the decoder decrypts every message with a stream cipher.

## Main definitions

* `Vlink.Frp.Cipher`, `Vlink.Frp.Cipher.Lawful` — the stream cipher, and what is assumed of it.
* `Vlink.Frp.FrpCodec`, `readMessage`, `decode`, `encode` — the codec, its handling of header and
  body, and one call of decoder and encoder.

## Main results

* `Vlink.Frp.FrpCodec.reads`, `Vlink.Frp.FrpCodec.readMessage_reads` — the decoder, and its handling
  of header and body alone, read pieces of known length in turn.

## Design

AES in CFB mode and `serde_json` are parameters. The state of a cipher is abstract: it stands for
whatever `BufEncryptor` and `BufDecryptor` keep between two calls.
-/

namespace Vlink.Frp

/-! ## The cipher -/

/-- AES-128 in CFB mode under the key derived from a token, with buffered input: the state after the
initialisation vector, and what encrypting or decrypting a buffer gives in a state. -/
structure Cipher where
  State : Type
  init : String → Block 16 → State
  encrypt : State → Bytes → Bytes × State
  decrypt : State → Bytes → Bytes × State

/-- What is assumed of the cipher: buffers keep their length, it does not matter how a stream is cut
into buffers, and decryption inverts encryption. -/
structure Cipher.Lawful (C : Cipher) : Prop where
  length_encrypt : ∀ s p, (C.encrypt s p).1.length = p.length
  length_decrypt : ∀ s p, (C.decrypt s p).1.length = p.length
  encrypt_append : ∀ s p q, C.encrypt s (p ++ q) =
    ((C.encrypt s p).1 ++ (C.encrypt (C.encrypt s p).2 q).1, (C.encrypt (C.encrypt s p).2 q).2)
  decrypt_append : ∀ s p q, C.decrypt s (p ++ q) =
    ((C.decrypt s p).1 ++ (C.decrypt (C.decrypt s p).2 q).1, (C.decrypt (C.decrypt s p).2 q).2)
  decrypt_nil : ∀ s, C.decrypt s [] = ([], s)
  decrypt_encrypt : ∀ token iv p,
    (C.decrypt (C.init token iv) (C.encrypt (C.init token iv) p).1).1 = p

/-- `FrpBufCrypto`. -/
structure FrpBufCrypto (C : Cipher) where
  iv : Bytes
  enc : C.State
  dec : C.State

/-- The errors of `errors.rs` that the codec hands back. -/
inductive Error where
  | serdeJsonError (msg : String)
  | encrypt (msg : String)
  | frpCodecError (msg : String)
deriving DecidableEq

/-- `FrpBufCrypto::new`. -/
def FrpBufCrypto.new (C : Cipher) (token : String) (iv : Bytes) : Except Error (FrpBufCrypto C) :=
  if h : iv.length = 16 then .ok ⟨iv, C.init token ⟨iv, h⟩, C.init token ⟨iv, h⟩⟩
  else .error (.encrypt "Invalid Length")

/-! ## Messages -/

/-- `serde_json` on the types of the messages: texts are bytes, errors are their messages. -/
structure Json where
  Request : Type
  LoginResp : Type
  StartWorkConnResp : Type
  text : Request → Except String Bytes
  loginResp : Bytes → Except String LoginResp
  startWorkConnResp : Bytes → Except String StartWorkConnResp

/-- `MsgType`. -/
abbrev MsgType := UInt8

/-- `TYPE_LOGIN`. -/
def typeLogin : MsgType := 'o'.toUInt8
/-- `TYPE_LOGIN_RESP`. -/
def typeLoginResp : MsgType := '1'.toUInt8
/-- `TYPE_REQ_WORK_CONN`. -/
def typeReqWorkConn : MsgType := 'r'.toUInt8
/-- `TYPE_PING`. -/
def typePing : MsgType := 'h'.toUInt8
/-- `TYPE_NEW_WORK_CONN`. -/
def typeNewWorkConn : MsgType := 'w'.toUInt8
/-- `TYPE_NEW_PROXY`. -/
def typeNewProxy : MsgType := 'p'.toUInt8
/-- `TYPE_NEW_PROXY_RESP`. -/
def typeNewProxyResp : MsgType := '2'.toUInt8
/-- `TYPE_START_WORK_CONN`. -/
def typeStartWorkConn : MsgType := 's'.toUInt8

/-- `FrpRequest`. -/
inductive FrpRequest (J : Json) where
  | login (m : J.Request)
  | reqWorkConn (m : J.Request)
  | ping (m : J.Request)
  | newProxy (m : J.Request)
  | iv

/-- `FrpRequest::is_encrypt`. -/
def FrpRequest.isEncrypt {J : Json} : FrpRequest J → Bool
  | .newProxy _ => true
  | _ => false

/-- The type byte of a request, and the value whose text is its body. -/
def FrpRequest.message {J : Json} : FrpRequest J → Option (MsgType × J.Request)
  | .login m => some (typeLogin, m)
  | .reqWorkConn m => some (typeNewWorkConn, m)
  | .ping m => some (typePing, m)
  | .newProxy m => some (typeNewProxy, m)
  | .iv => none

/-- `FrpResponse`. -/
inductive FrpResponse (J : Json) where
  | loginResp (r : J.LoginResp)
  | iv
  | typeReqWorkConn
  | startWorkConn (r : J.StartWorkConnResp)
  | test

/-- `Header`. -/
structure Header where
  typeByte : MsgType
  len : ℕ
deriving DecidableEq

/-- `Stage`. -/
inductive Stage where
  | login
  | waitIv
  | work
deriving DecidableEq

/-- `FrpCodec`. -/
structure FrpCodec (C : Cipher) where
  token : String
  header : Option Header
  frpCoder : Option (FrpBufCrypto C)
  stage : Stage

/-- The longest body, `2 << 10`. -/
def maxBodyLen : ℕ := 2 <<< 10

namespace FrpCodec

variable {C : Cipher} (J : Json)

/-- `FrpCodec::new`. -/
def new (C : Cipher) (token : String) : FrpCodec C := ⟨token, none, none, .login⟩

/-- `decrypt_buf` of the coder, if there is one. -/
def decryptBuf (c : FrpCodec C) (data : Bytes) : Bytes × FrpCodec C :=
  match c.frpCoder with
  | none => (data, c)
  | some coder =>
    let (data, dec) := C.decrypt coder.dec data
    (data, { c with frpCoder := some { coder with dec } })

/-- The header of the next message: the one that was kept, or nine bytes of the buffer. -/
def takeHeader (c : FrpCodec C) (src : Bytes) : Option (Header × FrpCodec C × Bytes) :=
  match c.header with
  | some header => some (header, { c with header := none }, src)
  | none =>
    if src.length < 9 then none
    else
      let (data, c) := c.decryptBuf (src.take 9)
      some (⟨data.headD 0, beNat (data.drop 1)⟩, c, src.drop 9)

/-- The handling of header and body in `decode`: the header and the decrypted body of the next
message. -/
def readMessage (c : FrpCodec C) (src : Bytes) :
    Except Error (Option (Header × Bytes)) × FrpCodec C × Bytes :=
  match c.takeHeader src with
  | none => (.ok none, c, src)
  | some (header, c, src) =>
    if maxBodyLen < header.len then (.error (.frpCodecError "msg len too long"), c, src)
    else if src.length < header.len then (.ok none, { c with header := some header }, src)
    else
      let (data, c) := c.decryptBuf (src.take header.len)
      (.ok (some (header, data)), c, src.drop header.len)

/-- The response for a message; a type that is not supported panics. -/
def respond (c : FrpCodec C) (header : Header) (data : Bytes) :
    Outcome (Except Error (Option (FrpResponse J)) × FrpCodec C) :=
  if header.typeByte = typeLoginResp then
    match J.loginResp data with
    | .error e => .ret (.error (.serdeJsonError e), c)
    | .ok resp => .ret (.ok (some (.loginResp resp)), { c with stage := .waitIv })
  else if header.typeByte = typeReqWorkConn then .ret (.ok (some .typeReqWorkConn), c)
  else if header.typeByte = typeNewProxyResp then .ret (.ok (some .test), c)
  else if header.typeByte = typeStartWorkConn then
    match J.startWorkConnResp data with
    | .error e => .ret (.error (.serdeJsonError e), c)
    | .ok resp => .ret (.ok (some (.startWorkConn resp)), c)
  else .panic

/-- `FrpCodec::decode`: what it hands back, the codec afterwards, and what is left in the buffer. -/
def decode (c : FrpCodec C) (src : Bytes) :
    Outcome (Except Error (Option (FrpResponse J)) × FrpCodec C × Bytes) :=
  if c.stage = .waitIv then
    if src.length < 16 then .ret (.ok none, c, src)
    else
      match FrpBufCrypto.new C c.token (src.take 16) with
      | .error e => .ret (.error e, c, src.drop 16)
      | .ok coder =>
        .ret (.ok (some .iv), { c with frpCoder := some coder, stage := .work }, src.drop 16)
  else
    match c.readMessage src with
    | (.error e, c, src) => .ret (.error e, c, src)
    | (.ok none, c, src) => .ret (.ok none, c, src)
    | (.ok (some (header, data)), c, src) => do
      let (r, c) ← c.respond J header data
      return (r, c, src)

/-- The bytes of a message before they are encrypted. -/
def messageBytes (ty : MsgType) (body : Bytes) : Bytes := ty :: (beBytes 8 body.length ++ body)

/-- `FrpCodec::encode`: the codec afterwards, and the buffer with what was put into it. -/
def encode (c : FrpCodec C) (item : FrpRequest J) (dst : Bytes) :
    Except Error (FrpCodec C × Bytes) :=
  match item.message with
  | none =>
    match c.frpCoder with
    | none => .error (.frpCodecError "frp_coder is None")
    | some coder => .ok (c, dst ++ coder.iv)
  | some (ty, m) =>
    match J.text m with
    | .error e => .error (.serdeJsonError e)
    | .ok str =>
      let data := messageBytes ty str
      if item.isEncrypt then
        match c.frpCoder with
        | none => .error (.frpCodecError "frp_coder is None")
        | some coder =>
          let (data, enc) := C.encrypt coder.enc data
          .ok ({ c with frpCoder := some { coder with enc } }, dst ++ data)
      else .ok (c, dst ++ data)

/-! ## Reading in turn -/

/-- The decoder of the codec. A header that is kept stands for nine bytes. -/
def decoder (C : Cipher) : Decoder UInt8 (FrpCodec C) (FrpResponse J) (Failure Error) where
  decode c src := .ofCall (c.decode J src)
  weight c := if c.header.isSome then 9 else 0

/-- The handling of header and body alone. -/
def reader (C : Cipher) : Decoder UInt8 (FrpCodec C) (Header × Bytes) (Failure Error) where
  decode c src := .ofCall (.ret (c.readMessage src))
  weight c := if c.header.isSome then 9 else 0

/-- The number of bytes of header or body that the codec is waiting for. -/
def messageNeed (c : FrpCodec C) : ℕ :=
  match c.header with
  | none => 9
  | some header => if maxBodyLen < header.len then 0 else header.len

/-- The number of bytes that the codec is waiting for. -/
def need (c : FrpCodec C) : ℕ := if c.stage = .waitIv then 16 else c.messageNeed

/-- The codec after it has read a header. -/
def withHeader (c : FrpCodec C) (p : Bytes) : FrpCodec C :=
  let (data, c) := c.decryptBuf p
  { c with header := some ⟨data.headD 0, beNat (data.drop 1)⟩ }

section Reads

variable {J} {c : FrpCodec C}

/-- Decryption keeps the header. -/
@[simp] lemma header_decryptBuf (c : FrpCodec C) (data : Bytes) :
    (c.decryptBuf data).2.header = c.header := by
  unfold decryptBuf
  split <;> rfl

/-- Decryption keeps the stage. -/
@[simp] lemma stage_decryptBuf (c : FrpCodec C) (data : Bytes) :
    (c.decryptBuf data).2.stage = c.stage := by
  unfold decryptBuf
  split <;> rfl

/-- A header keeps the stage. -/
@[simp] lemma stage_withHeader (c : FrpCodec C) (p : Bytes) :
    (c.withHeader p).stage = c.stage := stage_decryptBuf c p

/-- Fewer than nine bytes are not read. -/
lemma readMessage_short (hh : c.header = none) {src : Bytes} (h : src.length < 9) :
    c.readMessage src = (.ok none, c, src) := by
  simp [readMessage, takeHeader, hh, h]

/-- With a header at hand, the body is taken when it is complete. -/
lemma readMessage_pending {header : Header} (hh : c.header = some header) (src : Bytes) :
    c.readMessage src =
      if maxBodyLen < header.len then
        (.error (.frpCodecError "msg len too long"), { c with header := none }, src)
      else if src.length < header.len then (.ok none, c, src)
      else
        let (data, c) := { c with header := none }.decryptBuf (src.take header.len)
        (.ok (some (header, data)), c, src.drop header.len) := by
  obtain ⟨token, kept, coder, stage⟩ := c
  cases hh
  rfl

/-- Nine bytes are read as a header, and the handling goes on with it. -/
lemma readMessage_header (hh : c.header = none) {p : Bytes} (hp : p.length = 9) (rest : Bytes) :
    c.readMessage (p ++ rest) = (c.withHeader p).readMessage rest := by
  have hshort : ¬ (p ++ rest).length < 9 := by simp; omega
  have hkept : (c.decryptBuf p).2.header = none := by rw [header_decryptBuf, hh]
  have htake : c.takeHeader (p ++ rest) =
      some (⟨(c.decryptBuf p).1.headD 0, beNat ((c.decryptBuf p).1.drop 1)⟩, (c.decryptBuf p).2,
        rest) := by
    simp only [takeHeader, hh, if_neg hshort, List.take_left' hp, List.drop_left' hp]
  rw [readMessage, htake, withHeader]
  rcases hd : c.decryptBuf p with ⟨data, ⟨token, kept, coder, stage⟩⟩
  rw [hd] at hkept
  cases hkept
  rfl

/-- While the codec is not waiting for the initialisation vector, decoding is reading a message and
finding the response. -/
lemma decode_of_stage (hst : c.stage ≠ .waitIv) (src : Bytes) :
    c.decode J src =
      match c.readMessage src with
      | (.error e, c, src) => .ret (.error e, c, src)
      | (.ok none, c, src) => .ret (.ok none, c, src)
      | (.ok (some (header, data)), c, src) => do
        let (r, c) ← c.respond J header data
        return (r, c, src) := by
  rw [decode, if_neg hst]

/-- What `respond` hands back is an item or an error, and leaves the header alone. -/
lemma respond_cases (c : FrpCodec C) (header : Header) (data : Bytes) :
    c.respond J header data = .panic ∨
    (∃ e c', c.respond J header data = .ret (.error e, c')) ∨
    ∃ r c', c.respond J header data = .ret (.ok (some r), c') ∧ c'.header = c.header := by
  unfold respond
  split_ifs
  · cases J.loginResp data with
    | error e => exact .inr (.inl ⟨_, _, rfl⟩)
    | ok resp => exact .inr (.inr ⟨_, _, rfl, rfl⟩)
  · exact .inr (.inr ⟨_, _, rfl, rfl⟩)
  · exact .inr (.inr ⟨_, _, rfl, rfl⟩)
  · cases J.startWorkConnResp data with
    | error e => exact .inr (.inl ⟨_, _, rfl⟩)
    | ok resp => exact .inr (.inr ⟨_, _, rfl, rfl⟩)
  · exact .inl rfl

/-- The next piece that the handling of header and body reads. -/
lemma readMessage_piece {p : Bytes} (hp : p.length = c.messageNeed) :
    (∃ e c', ∀ rest, c.readMessage (p ++ rest) = (.error e, c', rest)) ∨
    (∃ header data c', c'.header = none ∧ c.header.isSome ∧ c'.stage = c.stage ∧
      ∀ rest, c.readMessage (p ++ rest) = (.ok (some (header, data)), c', rest)) ∨
    c.header = none ∧ p.length = 9 ∧
      ∀ rest, c.readMessage (p ++ rest) = (c.withHeader p).readMessage rest := by
  cases hh : c.header with
  | none =>
    have hlen : p.length = 9 := by simpa only [messageNeed, hh] using hp
    exact .inr (.inr ⟨rfl, hlen, readMessage_header hh hlen⟩)
  | some header =>
    simp only [messageNeed, hh] at hp
    have hd := readMessage_pending hh
    by_cases hlong : maxBodyLen < header.len
    · rw [if_pos hlong] at hp
      obtain rfl := List.eq_nil_of_length_eq_zero hp
      exact .inl ⟨_, _, fun rest => (hd rest).trans (if_pos hlong)⟩
    · rw [if_neg hlong] at hp
      refine .inr (.inl ⟨header, ({ c with header := none }.decryptBuf p).1,
        ({ c with header := none }.decryptBuf p).2, by simp, rfl, by simp, fun rest => ?_⟩)
      rw [hd, if_neg hlong, if_neg (by simp; omega), List.take_left' hp, List.drop_left' hp]

/-- The handling of header and body waits for what it needs. -/
lemma readMessage_wait {src : Bytes} (h : src.length < c.messageNeed) :
    c.readMessage src = (.ok none, c, src) := by
  cases hh : c.header with
  | none =>
    have hlen : src.length < 9 := by simpa only [messageNeed, hh] using h
    exact readMessage_short hh hlen
  | some header =>
    simp only [messageNeed, hh] at h
    split_ifs at h with hlong
    · omega
    · rw [readMessage_pending hh, if_neg hlong, if_pos h]

/-- A call is a call of `readMessage`. -/
lemma reader_decode (src : Bytes) :
    (reader C).decode c src = .ofCall (.ret (c.readMessage src)) := rfl

/-- A call is a call of `decode`. -/
lemma decoder_decode (src : Bytes) :
    (decoder J C).decode c src = .ofCall (c.decode J src) := rfl

/-- **The handling of header and body reads them in turn.** -/
theorem readMessage_reads : (reader C).Reads (fun _ => True) messageNeed where
  short {c src} _ h := by
    rw [reader_decode, readMessage_wait h]
    rfl
  exact {c p} _ h := by
    simp only [reader_decode]
    rcases readMessage_piece h with ⟨e, c', hd⟩ | ⟨header, data, c', hh', hh, -, hd⟩ | ⟨hh, hp, hd⟩
    · refine .inl ⟨.error e, fun rest => ?_⟩
      rw [hd rest]
      rfl
    · refine .inr (.inl ⟨(header, data), c', trivial, by simp [reader, hh, hh'], fun rest => ?_⟩)
      rw [hd rest]
      rfl
    · refine .inr (.inr ⟨c.withHeader p, trivial, by omega, ?_, fun rest => ?_⟩)
      · simp [reader, withHeader, hp]
      · rw [hd rest]

/-- **The decoder reads vector, headers and bodies in turn.** -/
theorem reads : (decoder J C).Reads (fun _ => True) need where
  short {c src} _ h := by
    rw [decoder_decode]
    by_cases hst : c.stage = .waitIv
    · rw [need, if_pos hst] at h
      rw [decode, if_pos hst, if_pos h]
      rfl
    · rw [need, if_neg hst] at h
      rw [decode_of_stage hst, readMessage_wait h]
      rfl
  exact {c p} _ h := by
    simp only [decoder_decode]
    by_cases hst : c.stage = .waitIv
    · rw [need, if_pos hst] at h
      refine .inr (.inl ⟨.iv, { c with
        frpCoder := some ⟨p, C.init c.token ⟨p, h⟩, C.init c.token ⟨p, h⟩⟩, stage := .work },
        trivial, ?_, fun rest => ?_⟩)
      · simp [decoder]
        omega
      · rw [decode, if_pos hst, if_neg (by simp; omega), List.take_left' h, List.drop_left' h,
          FrpBufCrypto.new, dif_pos h]
        rfl
    · rw [need, if_neg hst] at h
      simp only [decode_of_stage hst]
      rcases readMessage_piece h with
        ⟨e, c', hd⟩ | ⟨header, data, c', hh', hh, hst', hd⟩ | ⟨hh, hp, hd⟩
      · refine .inl ⟨.error e, fun rest => ?_⟩
        rw [hd rest]
        rfl
      · simp only [hd]
        rcases respond_cases (J := J) c' header data with hr | ⟨e, c'', hr⟩ | ⟨r, c'', hr, hh''⟩
        · refine .inl ⟨.panicked, fun rest => ?_⟩
          rw [hr]
          rfl
        · refine .inl ⟨.error e, fun rest => ?_⟩
          rw [hr]
          rfl
        · refine .inr (.inl ⟨r, c'', trivial, by simp [decoder, hh, hh', hh''], fun rest => ?_⟩)
          rw [hr]
          rfl
      · refine .inr (.inr ⟨c.withHeader p, trivial, by omega, ?_, fun rest => ?_⟩)
        · simp [decoder, withHeader, hp]
        · rw [decode_of_stage (c := c.withHeader p) (by simpa using hst), hd rest]

end Reads

end FrpCodec

end Vlink.Frp
