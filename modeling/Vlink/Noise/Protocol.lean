import Vlink.Lib.Bytes

set_option autoImplicit false

/-!
# The wire messages of the tunnel

The four packet formats of `noise/protocol.rs` and their parsers. Every field sits at a fixed
offset; the type byte comes first and is followed by three zero bytes. The parsers check the
length of the handshake and cookie packets exactly, but that of a data packet only against
`MIN_PACKET_SIZE`, and take the fields with slice conversions that panic when the buffer is
too short.

## Main definitions

* `Vlink.HandshakeInitiation`, `Vlink.HandshakeResponse`, `Vlink.CookieReply`,
  `Vlink.TransportData` — the packets, each with `tryFrom`, its parser.
* `Vlink.Message.parse`, `Vlink.Message.isHandshake` — parsing by type byte, and the test by
  which `tick_inbound` singles out handshake packets.

## Main results

* `Vlink.Message.parse_encode_initiation`, `Vlink.Message.parse_encode_response`,
  `Vlink.Message.parse_toBytes` — a packet laid out field by field parses back to
  itself.
* `Vlink.Message.parse_eq_panic_iff` — parsing panics exactly on a data packet that is
  shorter than its own header.
-/

namespace Vlink

/-- `noise::Error`. -/
inductive NoiseError where
  | invalidKeyLength
  | encryption
  | decryption
  | invalidPacket
  | invalidHandshakeState
  | receiverIndexNotMatch
deriving DecidableEq, Repr

/-- `MESSAGE_TYPE_HANDSHAKE_INITIATION`. -/
def messageTypeHandshakeInitiation : UInt8 := 1

/-- `MESSAGE_TYPE_HANDSHAKE_RESPONSE`. -/
def messageTypeHandshakeResponse : UInt8 := 2

/-- `MESSAGE_TYPE_COOKIE_REPLY`. -/
def messageTypeCookieReply : UInt8 := 3

/-- `MESSAGE_TYPE_TRANSPORT_DATA`. -/
def messageTypeTransportData : UInt8 := 4

/-- `HANDSHAKE_INITIATION_PACKET_SIZE`. -/
def handshakeInitiationPacketSize : ℕ := 148

/-- `HANDSHAKE_RESPONSE_PACKET_SIZE`. -/
def handshakeResponsePacketSize : ℕ := 92

/-- `COOKIE_REPLY_PACKET_SIZE`. -/
def cookieReplyPacketSize : ℕ := 64

/-- `REJECT_AFTER_MESSAGES`, `u64::MAX - (1 << 13)`. -/
def rejectAfterMessages : ℕ := 2 ^ 64 - 1 - 2 ^ 13

/-- `MIN_PACKET_SIZE`. -/
def minPacketSize : ℕ := 4

/-- The first four bytes of a packet of type `ty`. -/
def typeHeader (ty : UInt8) : Bytes := [ty, 0, 0, 0]

/-- `value[0..4] == [ty, 0, 0, 0]`. -/
def hasType (value : Bytes) (ty : UInt8) : Outcome Bool := do
  let tag ← value.slice 0 4
  return tag = typeHeader ty

/-- The header has four bytes. -/
@[simp] lemma length_typeHeader (ty : UInt8) : (typeHeader ty).length = 4 := by
  simp [typeHeader]

/-- The type test of a packet that starts with the header of type `ty'`. -/
@[simp] lemma hasType_typeHeader_append (ty ty' : UInt8) (rest : Bytes) :
    hasType (typeHeader ty' ++ rest) ty = .ret (decide (ty' = ty)) := by
  simp [hasType, Bytes.slice, typeHeader]

/-- The type test of a buffer with at least four bytes. -/
lemma hasType_of_le {value : Bytes} (h : 4 ≤ value.length) (ty : UInt8) :
    hasType value ty = .ret (decide (value.take 4 = typeHeader ty)) := by
  simp [hasType, Bytes.slice, h]

/-! ## Handshake initiation -/

/-- `protocol::HandshakeInitiation`. -/
structure HandshakeInitiation where
  senderIndex : UInt32
  ephemeralPublicKey : Block 32
  staticPublicKey : Block 48
  timestamp : Block 28
  mac1 : Block 16
  mac2 : Block 16
deriving DecidableEq

namespace HandshakeInitiation

/-- `HandshakeInitiation::try_from`. -/
def tryFrom (value : Bytes) : Outcome (Except NoiseError HandshakeInitiation) := do
  if value.length ≠ handshakeInitiationPacketSize then return .error .invalidPacket
  let ok ← hasType value messageTypeHandshakeInitiation
  if !ok then return .error .invalidPacket
  let senderIndex ← value.block 4 4
  let ephemeralPublicKey ← value.block 8 32
  let staticPublicKey ← value.block 40 48
  let timestamp ← value.block 88 28
  let mac1 ← value.block 116 16
  let mac2 ← value.block 132 16
  return .ok ⟨ofLe32 senderIndex, ephemeralPublicKey, staticPublicKey, timestamp, mac1, mac2⟩

/-- The fields of an initiation in wire order. -/
def encode (p : HandshakeInitiation) : Bytes :=
  typeHeader messageTypeHandshakeInitiation ++ ((le32 p.senderIndex).val ++
    (p.ephemeralPublicKey.val ++ (p.staticPublicKey.val ++ (p.timestamp.val ++
      (p.mac1.val ++ p.mac2.val)))))

/-- An initiation laid out field by field parses back to itself. -/
@[simp] lemma tryFrom_encode (p : HandshakeInitiation) : tryFrom p.encode = .ret (.ok p) := by
  have hm2 : Bytes.block p.mac2.val 0 16 = .ret p.mac2 := by
    simpa using Bytes.block_append_left p.mac2 []
  simp [tryFrom, encode, handshakeInitiationPacketSize, Bytes.block_append_right,
    Bytes.block_append_left, hm2]

/-- A buffer of the right length and type is parsed. -/
lemma tryFrom_of_type {value : Bytes} (hl : value.length = handshakeInitiationPacketSize)
    (ht : value.take 4 = typeHeader messageTypeHandshakeInitiation) :
    ∃ p, tryFrom value = .ret (.ok p) := by
  unfold tryFrom
  simp only [handshakeInitiationPacketSize] at hl ⊢
  simp [hl, hasType_of_le (by omega : 4 ≤ value.length), ht,
    Bytes.block_eq_ret (by omega : 4 + 4 ≤ value.length),
      Bytes.block_eq_ret (by omega : 8 + 32 ≤ value.length),
      Bytes.block_eq_ret (by omega : 40 + 48 ≤ value.length),
      Bytes.block_eq_ret (by omega : 88 + 28 ≤ value.length),
      Bytes.block_eq_ret (by omega : 116 + 16 ≤ value.length),
      Bytes.block_eq_ret (by omega : 132 + 16 ≤ value.length)]

/-- Any other buffer is refused. -/
lemma tryFrom_of_not {value : Bytes} (h : ¬ (value.length = handshakeInitiationPacketSize ∧
    value.take 4 = typeHeader messageTypeHandshakeInitiation)) :
    tryFrom value = .ret (.error .invalidPacket) := by
  unfold tryFrom
  by_cases hl : value.length = handshakeInitiationPacketSize
  · have ht : value.take 4 ≠ typeHeader messageTypeHandshakeInitiation := fun ht => h ⟨hl, ht⟩
    have h4 : 4 ≤ value.length := by
      rw [hl]
      decide
    simp [hl, hasType_of_le h4, ht]
  · simp [hl]

/-- Parsing an initiation never panics: the length is checked first. -/
lemma tryFrom_returns (value : Bytes) : (tryFrom value).Returns := by
  by_cases h : value.length = handshakeInitiationPacketSize ∧
      value.take 4 = typeHeader messageTypeHandshakeInitiation
  · obtain ⟨p, hp⟩ := tryFrom_of_type h.1 h.2
    exact ⟨_, hp⟩
  · exact ⟨_, tryFrom_of_not h⟩

end HandshakeInitiation

/-! ## Handshake response -/

/-- `protocol::HandshakeResponse`. -/
structure HandshakeResponse where
  senderIndex : UInt32
  receiverIndex : UInt32
  ephemeralPublicKey : Block 32
  empty : Block 16
  mac1 : Block 16
  mac2 : Block 16
deriving DecidableEq

namespace HandshakeResponse

/-- `HandshakeResponse::try_from`. -/
def tryFrom (value : Bytes) : Outcome (Except NoiseError HandshakeResponse) := do
  if value.length ≠ handshakeResponsePacketSize then return .error .invalidPacket
  let ok ← hasType value messageTypeHandshakeResponse
  if !ok then return .error .invalidPacket
  let senderIndex ← value.block 4 4
  let receiverIndex ← value.block 8 4
  let ephemeralPublicKey ← value.block 12 32
  let empty ← value.block 44 16
  let mac1 ← value.block 60 16
  let mac2 ← value.block 76 16
  return .ok ⟨ofLe32 senderIndex, ofLe32 receiverIndex, ephemeralPublicKey, empty, mac1, mac2⟩

/-- The fields of a response in wire order. -/
def encode (p : HandshakeResponse) : Bytes :=
  typeHeader messageTypeHandshakeResponse ++ ((le32 p.senderIndex).val ++
    ((le32 p.receiverIndex).val ++ (p.ephemeralPublicKey.val ++ (p.empty.val ++
      (p.mac1.val ++ p.mac2.val)))))

/-- A response laid out field by field parses back to itself. -/
@[simp] lemma tryFrom_encode (p : HandshakeResponse) : tryFrom p.encode = .ret (.ok p) := by
  have hm2 : Bytes.block p.mac2.val 0 16 = .ret p.mac2 := by
    simpa using Bytes.block_append_left p.mac2 []
  simp [tryFrom, encode, handshakeResponsePacketSize, Bytes.block_append_right,
    Bytes.block_append_left, hm2]

/-- A buffer of the right length and type is parsed. -/
lemma tryFrom_of_type {value : Bytes} (hl : value.length = handshakeResponsePacketSize)
    (ht : value.take 4 = typeHeader messageTypeHandshakeResponse) :
    ∃ p, tryFrom value = .ret (.ok p) := by
  unfold tryFrom
  simp only [handshakeResponsePacketSize] at hl ⊢
  simp [hl, hasType_of_le (by omega : 4 ≤ value.length), ht,
    Bytes.block_eq_ret (by omega : 4 + 4 ≤ value.length),
      Bytes.block_eq_ret (by omega : 8 + 4 ≤ value.length),
      Bytes.block_eq_ret (by omega : 12 + 32 ≤ value.length),
      Bytes.block_eq_ret (by omega : 44 + 16 ≤ value.length),
      Bytes.block_eq_ret (by omega : 60 + 16 ≤ value.length),
      Bytes.block_eq_ret (by omega : 76 + 16 ≤ value.length)]

/-- Any other buffer is refused. -/
lemma tryFrom_of_not {value : Bytes} (h : ¬ (value.length = handshakeResponsePacketSize ∧
    value.take 4 = typeHeader messageTypeHandshakeResponse)) :
    tryFrom value = .ret (.error .invalidPacket) := by
  unfold tryFrom
  by_cases hl : value.length = handshakeResponsePacketSize
  · have ht : value.take 4 ≠ typeHeader messageTypeHandshakeResponse := fun ht => h ⟨hl, ht⟩
    have h4 : 4 ≤ value.length := by
      rw [hl]
      decide
    simp [hl, hasType_of_le h4, ht]
  · simp [hl]

/-- Parsing a response never panics: the length is checked first. -/
lemma tryFrom_returns (value : Bytes) : (tryFrom value).Returns := by
  by_cases h : value.length = handshakeResponsePacketSize ∧
      value.take 4 = typeHeader messageTypeHandshakeResponse
  · obtain ⟨p, hp⟩ := tryFrom_of_type h.1 h.2
    exact ⟨_, hp⟩
  · exact ⟨_, tryFrom_of_not h⟩

end HandshakeResponse

/-! ## Cookie reply -/

/-- `protocol::CookieReply`. -/
structure CookieReply where
  receiverIndex : UInt32
  nonce : Block 24
  cookie : Block 32
deriving DecidableEq

/-- `CookieReply::try_from`. -/
def CookieReply.tryFrom (value : Bytes) : Outcome (Except NoiseError CookieReply) := do
  if value.length ≠ cookieReplyPacketSize then return .error .invalidPacket
  let ok ← hasType value messageTypeCookieReply
  if !ok then return .error .invalidPacket
  let receiverIndex ← value.block 4 4
  let nonce ← value.block 8 24
  let cookie ← value.block 32 32
  return .ok ⟨ofLe32 receiverIndex, nonce, cookie⟩

/-- A buffer of the right length and type is parsed. -/
lemma CookieReply.tryFrom_of_type {value : Bytes} (hl : value.length = cookieReplyPacketSize)
    (ht : value.take 4 = typeHeader messageTypeCookieReply) :
    ∃ p, CookieReply.tryFrom value = .ret (.ok p) := by
  unfold CookieReply.tryFrom
  simp only [cookieReplyPacketSize] at hl ⊢
  simp [hl, hasType_of_le (by omega : 4 ≤ value.length), ht,
    Bytes.block_eq_ret (by omega : 4 + 4 ≤ value.length),
      Bytes.block_eq_ret (by omega : 8 + 24 ≤ value.length),
      Bytes.block_eq_ret (by omega : 32 + 32 ≤ value.length)]

/-- Any other buffer is refused. -/
lemma CookieReply.tryFrom_of_not {value : Bytes} (h : ¬ (value.length = cookieReplyPacketSize ∧
    value.take 4 = typeHeader messageTypeCookieReply)) :
    CookieReply.tryFrom value = .ret (.error .invalidPacket) := by
  unfold CookieReply.tryFrom
  by_cases hl : value.length = cookieReplyPacketSize
  · have ht : value.take 4 ≠ typeHeader messageTypeCookieReply := fun ht => h ⟨hl, ht⟩
    have h4 : 4 ≤ value.length := by
      rw [hl]
      decide
    simp [hl, hasType_of_le h4, ht]
  · simp [hl]

/-- Parsing a cookie reply never panics: the length is checked first. -/
lemma CookieReply.tryFrom_returns (value : Bytes) : (CookieReply.tryFrom value).Returns := by
  by_cases h : value.length = cookieReplyPacketSize ∧
      value.take 4 = typeHeader messageTypeCookieReply
  · obtain ⟨p, hp⟩ := CookieReply.tryFrom_of_type h.1 h.2
    exact ⟨_, hp⟩
  · exact ⟨_, CookieReply.tryFrom_of_not h⟩

/-! ## Transport data -/

/-- `protocol::TransportData`. -/
structure TransportData where
  receiverIndex : UInt32
  counter : UInt64
  payload : Bytes
deriving DecidableEq

namespace TransportData

/-- `TransportData::packet_len`. -/
def packetLen (p : TransportData) : ℕ := p.payload.length + 16

/-- `TransportData::to_bytes`. -/
def toBytes (p : TransportData) : Bytes :=
  typeHeader messageTypeTransportData ++ ((le32 p.receiverIndex).val ++
    ((le64 p.counter).val ++ p.payload))

/-- `TransportData::try_from`. The length is only compared with `MIN_PACKET_SIZE`, so the
slices below can run past the end of the buffer. -/
def tryFrom (value : Bytes) : Outcome (Except NoiseError TransportData) := do
  if value.length < minPacketSize then return .error .invalidPacket
  let ok ← hasType value messageTypeTransportData
  if !ok then return .error .invalidPacket
  let receiverIndex ← value.block 4 4
  let counter ← value.block 8 8
  let payload ← value.slice 16 value.length
  return .ok ⟨ofLe32 receiverIndex, ofLe64 counter, payload⟩

/-- A data packet survives the wire. -/
@[simp] lemma tryFrom_toBytes (p : TransportData) : tryFrom p.toBytes = .ret (.ok p) := by
  have hlen : p.toBytes.length = 16 + p.payload.length := by
    simp [toBytes]
    omega
  have hpay : p.toBytes.slice 16 p.toBytes.length = .ret p.payload := by
    rw [Bytes.slice_of_le (by omega) le_rfl, hlen]
    have hsplit : p.toBytes = (typeHeader messageTypeTransportData ++
        ((le32 p.receiverIndex).val ++ (le64 p.counter).val)) ++ p.payload := by
      simp [toBytes]
    rw [hsplit, List.drop_left' (by simp)]
    simp
  unfold tryFrom
  rw [hpay, hlen]
  simp [toBytes, minPacketSize, Bytes.block_append_right, Bytes.block_append_left]
  omega

/-- A buffer of the right type with room for the header is parsed. -/
lemma tryFrom_of_type {value : Bytes} (hl : 16 ≤ value.length)
    (ht : value.take 4 = typeHeader messageTypeTransportData) :
    ∃ p, tryFrom value = .ret (.ok p) := by
  have h4 : ¬ value.length < minPacketSize := by
    rw [minPacketSize]
    omega
  unfold tryFrom
  simp [h4, hasType_of_le (by omega : 4 ≤ value.length), ht,
    Bytes.block_eq_ret (by omega : 4 + 4 ≤ value.length),
    Bytes.block_eq_ret (by omega : 8 + 8 ≤ value.length), Bytes.slice_of_le hl le_rfl]

/-- A buffer of another type is refused. -/
lemma tryFrom_of_not {value : Bytes}
    (ht : ¬ (4 ≤ value.length ∧ value.take 4 = typeHeader messageTypeTransportData)) :
    tryFrom value = .ret (.error .invalidPacket) := by
  unfold tryFrom
  by_cases h4 : 4 ≤ value.length
  · have hne : value.take 4 ≠ typeHeader messageTypeTransportData := fun h => ht ⟨h4, h⟩
    simp [hasType_of_le h4, hne]
  · have hlt : value.length < minPacketSize := Nat.lt_of_not_le h4
    simp [hlt]

/-- Parsing a data packet panics exactly when the type is right but the sixteen bytes of the
header are not all there. -/
lemma tryFrom_eq_panic_iff (value : Bytes) : tryFrom value = .panic ↔
    4 ≤ value.length ∧ value.length < 16 ∧
      value.take 4 = typeHeader messageTypeTransportData := by
  unfold tryFrom
  by_cases hl : 4 ≤ value.length
  · by_cases ht : value.take 4 = typeHeader messageTypeTransportData
    · simp only [minPacketSize, Nat.not_lt.mpr hl, hasType_of_le hl, ht, hl, true_and, and_true]
      by_cases h16 : 16 ≤ value.length
      · simp [Bytes.block_eq_ret (by omega : 4 + 4 ≤ value.length),
          Bytes.block_eq_ret (by omega : 8 + 8 ≤ value.length), Bytes.slice_of_le h16 le_rfl, h16]
      · by_cases h8 : 8 ≤ value.length
        · simp [Bytes.block_eq_ret (by omega : 4 + 4 ≤ value.length),
            Bytes.block_eq_panic (by omega : value.length < 8 + 8)]
          omega
        · simp [Bytes.block_eq_panic (by omega : value.length < 4 + 4)]
          omega
    · simp [minPacketSize, Nat.not_lt.mpr hl, hasType_of_le hl, ht]
  · simp [minPacketSize, Nat.lt_of_not_le hl, hl]

end TransportData

/-! ## Messages -/

/-- `protocol::Message`. -/
inductive Message where
  | handshakeInitiation (p : HandshakeInitiation)
  | handshakeResponse (p : HandshakeResponse)
  | cookieReply (p : CookieReply)
  | transportData (p : TransportData)
deriving DecidableEq

namespace Message

/-- `Message::parse`. -/
def parse (payload : Bytes) : Outcome (Except NoiseError Message) :=
  if payload.length < minPacketSize then .ret (.error .invalidPacket)
  else
    match payload with
    | [] => .panic
    | ty :: _ =>
      if ty = messageTypeHandshakeInitiation then
        (Except.map handshakeInitiation) <$> HandshakeInitiation.tryFrom payload
      else if ty = messageTypeHandshakeResponse then
        (Except.map handshakeResponse) <$> HandshakeResponse.tryFrom payload
      else if ty = messageTypeCookieReply then
        (Except.map cookieReply) <$> CookieReply.tryFrom payload
      else if ty = messageTypeTransportData then
        (Except.map transportData) <$> TransportData.tryFrom payload
      else .ret (.error .invalidPacket)

/-- `Message::is_handshake`: reads the first byte, and panics when there is none. -/
def isHandshake (payload : Bytes) : Outcome Bool :=
  match payload with
  | [] => .panic
  | ty :: _ =>
    .ret (ty = messageTypeHandshakeInitiation ∧ payload.length = handshakeInitiationPacketSize ∨
      ty = messageTypeHandshakeResponse ∧ payload.length = handshakeResponsePacketSize)

/-- Parsing a buffer with at least four bytes goes by its first byte. -/
lemma parse_cons {ty : UInt8} {rest : Bytes} (h : 3 ≤ rest.length) :
    parse (ty :: rest) =
      if ty = messageTypeHandshakeInitiation then
        (Except.map handshakeInitiation) <$> HandshakeInitiation.tryFrom (ty :: rest)
      else if ty = messageTypeHandshakeResponse then
        (Except.map handshakeResponse) <$> HandshakeResponse.tryFrom (ty :: rest)
      else if ty = messageTypeCookieReply then
        (Except.map cookieReply) <$> CookieReply.tryFrom (ty :: rest)
      else if ty = messageTypeTransportData then
        (Except.map transportData) <$> TransportData.tryFrom (ty :: rest)
      else .ret (.error .invalidPacket) := by
  have hl : ¬ (ty :: rest).length < minPacketSize := by
    simp [minPacketSize]
    omega
  unfold parse
  rw [if_neg hl]

/-- Parsing a buffer with fewer than four bytes. -/
lemma parse_short {payload : Bytes} (h : payload.length < 4) :
    parse payload = .ret (.error .invalidPacket) := by
  unfold parse
  exact if_pos h

/-- A buffer with at least four bytes has a first byte and at least three more. -/
lemma exists_cons_of_four_le {payload : Bytes} (h : 4 ≤ payload.length) :
    ∃ ty rest, payload = ty :: rest ∧ 3 ≤ rest.length := by
  cases payload with
  | nil => simp at h
  | cons ty rest => exact ⟨ty, rest, rfl, by simpa using h⟩

/-- An initiation laid out field by field is parsed as that initiation. -/
theorem parse_encode_initiation (p : HandshakeInitiation) :
    parse p.encode = .ret (.ok (.handshakeInitiation p)) := by
  have hty : p.encode = messageTypeHandshakeInitiation :: p.encode.tail := rfl
  have hlen : 3 ≤ p.encode.tail.length := by simp [HandshakeInitiation.encode]
  rw [hty, parse_cons hlen, ← hty, if_pos rfl, HandshakeInitiation.tryFrom_encode]
  rfl

/-- A response laid out field by field is parsed as that response. -/
theorem parse_encode_response (p : HandshakeResponse) :
    parse p.encode = .ret (.ok (.handshakeResponse p)) := by
  have hty : p.encode = messageTypeHandshakeResponse :: p.encode.tail := rfl
  have hlen : 3 ≤ p.encode.tail.length := by simp [HandshakeResponse.encode]
  rw [hty, parse_cons hlen, ← hty, if_neg (by decide), if_pos rfl,
    HandshakeResponse.tryFrom_encode]
  rfl

/-- A data packet is parsed as itself after `to_bytes`. -/
theorem parse_toBytes (p : TransportData) :
    parse p.toBytes = .ret (.ok (.transportData p)) := by
  have hty : p.toBytes = messageTypeTransportData :: p.toBytes.tail := rfl
  have hlen : 3 ≤ p.toBytes.tail.length := by
    simp [TransportData.toBytes]
  rw [hty, parse_cons hlen, ← hty, if_neg (by decide), if_neg (by decide), if_neg (by decide),
    if_pos rfl, TransportData.tryFrom_toBytes]
  rfl

/-- Mapping over a returned result does not panic. -/
private lemma map_tryFrom_ne_panic {α β : Type} {x : Outcome α} (f : α → β) (h : x.Returns) :
    f <$> x ≠ .panic := by
  obtain ⟨a, rfl⟩ := h
  simp

/-- **When parsing panics**: exactly on a data packet shorter than its own header. -/
theorem parse_eq_panic_iff (payload : Bytes) : parse payload = .panic ↔
    4 ≤ payload.length ∧ payload.length < 16 ∧
      payload.take 4 = typeHeader messageTypeTransportData := by
  by_cases hl : payload.length < 4
  · rw [parse_short hl]
    simp
    omega
  · obtain ⟨ty, rest, rfl, hr⟩ := exists_cons_of_four_le (Nat.le_of_not_lt hl)
    rw [parse_cons hr]
    have hne : ∀ ty', ty ≠ ty' → (ty :: rest).take 4 ≠ typeHeader ty' := by
      intro ty' h h'
      exact h (by simpa [typeHeader] using congrArg List.head? h')
    by_cases h1 : ty = messageTypeHandshakeInitiation
    · rw [if_pos h1]
      refine iff_of_false (map_tryFrom_ne_panic _ (HandshakeInitiation.tryFrom_returns _)) ?_
      exact fun h => hne _ (by rw [h1]; decide) h.2.2
    rw [if_neg h1]
    by_cases h2 : ty = messageTypeHandshakeResponse
    · rw [if_pos h2]
      refine iff_of_false (map_tryFrom_ne_panic _ (HandshakeResponse.tryFrom_returns _)) ?_
      exact fun h => hne _ (by rw [h2]; decide) h.2.2
    rw [if_neg h2]
    by_cases h3 : ty = messageTypeCookieReply
    · rw [if_pos h3]
      refine iff_of_false (map_tryFrom_ne_panic _ (CookieReply.tryFrom_returns _)) ?_
      exact fun h => hne _ (by rw [h3]; decide) h.2.2
    rw [if_neg h3]
    by_cases h4 : ty = messageTypeTransportData
    · rw [if_pos h4, ← TransportData.tryFrom_eq_panic_iff]
      cases TransportData.tryFrom (ty :: rest) <;> simp
    · rw [if_neg h4]
      exact iff_of_false (by simp) fun h => hne _ h4 h.2.2

/-- A buffer that counts as a handshake packet has room for the two codes. -/
lemma length_of_isHandshake {payload : Bytes} (h : isHandshake payload = .ret true) :
    32 ≤ payload.length := by
  cases payload with
  | nil => cases h
  | cons ty rest =>
    have := of_decide_eq_true (Outcome.ret.inj h)
    simp only [handshakeInitiationPacketSize, handshakeResponsePacketSize] at this
    omega

end Message

end Vlink
