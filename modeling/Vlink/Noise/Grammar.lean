import Vlink.Noise.Protocol

set_option autoImplicit false

/-!
# The wire grammar

What the parsers of `noise/protocol.rs` accept. A packet is known by its first four bytes, the type
and three zero bytes, and by its length: fixed for the handshake and cookie packets, at least the
sixteen bytes of the header for a data packet. `Message::parse` follows this grammar, except that a
data packet without a full header makes it panic where it should be refused.

## Main definitions

* `Vlink.PacketType`, `Vlink.PacketType.Matches` — the grammar.
* `Vlink.Message.Grammatical` — parsing comes back with what the grammar says.
* `Vlink.Message.Truncated` — a data packet without a full header.

## Main results

* `Vlink.HandshakeInitiation.tryFrom_eq_ok`, and the same for the other packets — a parser takes
  apart exactly what the fields are put together to.
* `Vlink.Message.parse_eq_ok` — a message is parsed exactly from its bytes.
* `Vlink.Message.grammatical_iff` — parsing follows the grammar exactly on the buffers that are not
  truncated data packets.
-/

namespace Vlink

/-! ## The grammar -/

/-- The types of packets. -/
inductive PacketType where
  | handshakeInitiation
  | handshakeResponse
  | cookieReply
  | transportData
deriving DecidableEq

namespace PacketType

/-- The type byte. -/
def byte : PacketType → UInt8
  | handshakeInitiation => 1
  | handshakeResponse => 2
  | cookieReply => 3
  | transportData => 4

/-- The lengths that a packet of the type can have. -/
def Admits : PacketType → ℕ → Prop
  | handshakeInitiation, n => n = 148
  | handshakeResponse, n => n = 92
  | cookieReply, n => n = 64
  | transportData, n => 16 ≤ n

/-- The buffer is a packet of the type. -/
def Matches (t : PacketType) (b : Bytes) : Prop :=
  t.Admits b.length ∧ [t.byte, 0, 0, 0] <+: b

/-- The types have distinct bytes. -/
lemma byte_injective {t t' : PacketType} (h : t.byte = t'.byte) : t = t' := by
  revert h
  cases t <;> cases t' <;> decide

/-- A buffer is a packet of one type at most. -/
lemma Matches.unique {t t' : PacketType} {b : Bytes} (h : t.Matches b) (h' : t'.Matches b) :
    t = t' := by
  apply byte_injective
  obtain ⟨rest, rfl⟩ := h.2
  obtain ⟨rest', heq⟩ := h'.2
  exact (List.cons.inj heq).1.symm

end PacketType

/-- The type of a message. -/
def Message.type : Message → PacketType
  | handshakeInitiation _ => .handshakeInitiation
  | handshakeResponse _ => .handshakeResponse
  | cookieReply _ => .cookieReply
  | transportData _ => .transportData

/-- Parsing the buffer comes back with a message of the type that the grammar says, or with
`InvalidPacket` if the grammar knows no type for it. -/
def Message.Grammatical (b : Bytes) : Prop :=
  ∃ r, Message.parse b = .ret r ∧
    (∀ t : PacketType, (∃ m, r = .ok m ∧ m.type = t) ↔ t.Matches b) ∧
    ((∀ t : PacketType, ¬ t.Matches b) → r = .error .invalidPacket)

/-- The buffer starts like a data packet, and ends before the header does. -/
def Message.Truncated (b : Bytes) : Prop := [4, 0, 0, 0] <+: b ∧ b.length < 16

/-! ## The parsers -/

/-- What a buffer has from the position of a field on: the field, and the rest. -/
lemma Bytes.drop_of_block {b : Bytes} {lo n : ℕ} {f : Block n} (h : b.block lo n = .ret f) :
    b.drop lo = f.val ++ b.drop (lo + n) := by
  by_cases hb : lo + n ≤ b.length
  · rw [Bytes.block_eq_ret hb] at h
    cases h
    rw [← List.drop_drop, List.take_append_drop]
  · rw [Bytes.block_eq_panic (by omega)] at h
    cases h

/-- The test of the type says whether the buffer starts with the type byte and three zeros. -/
lemma take_four_iff {b : Bytes} {ty : UInt8} :
    b.take 4 = typeHeader ty ↔ [ty, 0, 0, 0] <+: b := by
  rw [List.prefix_iff_eq_take]
  exact eq_comm

/-- A buffer that starts with a type header has four bytes. -/
lemma four_le_of_take {b : Bytes} {ty : UInt8} (h : b.take 4 = typeHeader ty) : 4 ≤ b.length := by
  have hlen := congrArg List.length h
  rw [List.length_take, length_typeHeader] at hlen
  omega

/-- A buffer that passes the test of the type. -/
lemma eq_append_of_hasType {b : Bytes} {ty : UInt8} (h : hasType b ty = .ret true) :
    b = typeHeader ty ++ b.drop 4 := by
  by_cases hl : 4 ≤ b.length
  · rw [hasType_of_le hl] at h
    have ht := of_decide_eq_true (Outcome.ret.inj h)
    rw [← ht, List.take_append_drop]
  · rw [hasType, Bytes.slice_of_lt (Nat.lt_of_not_le hl)] at h
    cases h

/-- The parsers of fixed-size packets look at the length and at the type first. -/
lemma of_guards {α : Type} {b : Bytes} {size : ℕ} {ty : UInt8}
    {fields : Outcome (Except NoiseError α)} {p : α}
    (h : (if b.length ≠ size then pure (Except.error NoiseError.invalidPacket) else do
      let ok ← hasType b ty
      if !ok then pure (Except.error NoiseError.invalidPacket) else fields) = .ret (.ok p)) :
    b.length = size ∧ b = typeHeader ty ++ b.drop 4 ∧ fields = .ret (.ok p) := by
  split_ifs at h with hl
  · cases h
  obtain ⟨ok, hok, h⟩ := Outcome.bind_eq_ret.mp h
  cases ok with
  | false => cases h
  | true => exact ⟨not_not.mp hl, eq_append_of_hasType hok, h⟩

/-- An initiation is taken apart exactly if it is what its fields are put together to. -/
theorem HandshakeInitiation.tryFrom_eq_ok {b : Bytes} {p : HandshakeInitiation} :
    tryFrom b = .ret (.ok p) ↔ b = p.encode := by
  constructor
  · intro h
    unfold tryFrom at h
    obtain ⟨hl, htype, h⟩ := of_guards h
    obtain ⟨senderIndex, h₁, h⟩ := Outcome.bind_eq_ret.mp h
    obtain ⟨ephemeral, h₂, h⟩ := Outcome.bind_eq_ret.mp h
    obtain ⟨static, h₃, h⟩ := Outcome.bind_eq_ret.mp h
    obtain ⟨timestamp, h₄, h⟩ := Outcome.bind_eq_ret.mp h
    obtain ⟨mac1, h₅, h⟩ := Outcome.bind_eq_ret.mp h
    obtain ⟨mac2, h₆, h⟩ := Outcome.bind_eq_ret.mp h
    cases h
    have hend : b.drop (132 + 16) = [] := List.drop_eq_nil_of_le hl.le
    rw [htype, Bytes.drop_of_block h₁, Bytes.drop_of_block h₂, Bytes.drop_of_block h₃,
      Bytes.drop_of_block h₄, Bytes.drop_of_block h₅, Bytes.drop_of_block h₆, hend]
    simp [encode]
  · rintro rfl
    exact tryFrom_encode p

/-- A response is taken apart exactly if it is what its fields are put together to. -/
theorem HandshakeResponse.tryFrom_eq_ok {b : Bytes} {p : HandshakeResponse} :
    tryFrom b = .ret (.ok p) ↔ b = p.encode := by
  constructor
  · intro h
    unfold tryFrom at h
    obtain ⟨hl, htype, h⟩ := of_guards h
    obtain ⟨senderIndex, h₁, h⟩ := Outcome.bind_eq_ret.mp h
    obtain ⟨receiverIndex, h₂, h⟩ := Outcome.bind_eq_ret.mp h
    obtain ⟨ephemeral, h₃, h⟩ := Outcome.bind_eq_ret.mp h
    obtain ⟨empty, h₄, h⟩ := Outcome.bind_eq_ret.mp h
    obtain ⟨mac1, h₅, h⟩ := Outcome.bind_eq_ret.mp h
    obtain ⟨mac2, h₆, h⟩ := Outcome.bind_eq_ret.mp h
    cases h
    have hend : b.drop (76 + 16) = [] := List.drop_eq_nil_of_le hl.le
    rw [htype, Bytes.drop_of_block h₁, Bytes.drop_of_block h₂, Bytes.drop_of_block h₃,
      Bytes.drop_of_block h₄, Bytes.drop_of_block h₅, Bytes.drop_of_block h₆, hend]
    simp [encode]
  · rintro rfl
    exact tryFrom_encode p

namespace CookieReply

/-- The fields of a cookie reply in wire order. -/
def encode (p : CookieReply) : Bytes :=
  typeHeader messageTypeCookieReply ++ ((le32 p.receiverIndex).val ++ (p.nonce.val ++ p.cookie.val))

/-- A cookie reply laid out field by field parses back to itself. -/
lemma tryFrom_encode (p : CookieReply) : tryFrom p.encode = .ret (.ok p) := by
  have hcookie : Bytes.block p.cookie.val 0 32 = .ret p.cookie := by
    simpa using Bytes.block_append_left p.cookie []
  simp [tryFrom, encode, cookieReplyPacketSize, Bytes.block_append_right,
    Bytes.block_append_left, hcookie]

/-- A cookie reply is taken apart exactly if it is what its fields are put together to. -/
theorem tryFrom_eq_ok {b : Bytes} {p : CookieReply} :
    tryFrom b = .ret (.ok p) ↔ b = p.encode := by
  constructor
  · intro h
    unfold tryFrom at h
    obtain ⟨hl, htype, h⟩ := of_guards h
    obtain ⟨receiverIndex, h₁, h⟩ := Outcome.bind_eq_ret.mp h
    obtain ⟨nonce, h₂, h⟩ := Outcome.bind_eq_ret.mp h
    obtain ⟨cookie, h₃, h⟩ := Outcome.bind_eq_ret.mp h
    cases h
    have hend : b.drop (32 + 32) = [] := List.drop_eq_nil_of_le hl.le
    rw [htype, Bytes.drop_of_block h₁, Bytes.drop_of_block h₂, Bytes.drop_of_block h₃, hend]
    simp [encode]
  · rintro rfl
    exact tryFrom_encode p

end CookieReply

/-- A data packet is taken apart exactly if it is what `to_bytes` makes of it. -/
theorem TransportData.tryFrom_eq_ok {b : Bytes} {p : TransportData} :
    tryFrom b = .ret (.ok p) ↔ b = p.toBytes := by
  constructor
  · intro h
    unfold tryFrom at h
    split_ifs at h with hl
    · cases h
    obtain ⟨ok, hok, h⟩ := Outcome.bind_eq_ret.mp h
    cases ok with
    | false => cases h
    | true =>
      obtain ⟨receiverIndex, h₁, h⟩ := Outcome.bind_eq_ret.mp h
      obtain ⟨counter, h₂, h⟩ := Outcome.bind_eq_ret.mp h
      obtain ⟨payload, h₃, h⟩ := Outcome.bind_eq_ret.mp h
      cases h
      have hpayload : b.drop (8 + 8) = payload := by
        by_cases hle : 16 ≤ b.length
        · rw [Bytes.slice_of_le hle le_rfl, List.take_of_length_le (by simp)] at h₃
          exact Outcome.ret.inj h₃
        · rw [Bytes.slice, if_neg (by omega)] at h₃
          cases h₃
      rw [eq_append_of_hasType hok, Bytes.drop_of_block h₁, Bytes.drop_of_block h₂, hpayload]
      simp [toBytes]
  · rintro rfl
    exact tryFrom_toBytes p

/-! ## Messages -/

namespace Message

/-- The parser that a buffer with the given first byte is handed to. -/
lemma parse_byte {t : PacketType} {rest : Bytes} (h : 3 ≤ rest.length) :
    parse (t.byte :: rest) = match t with
      | .handshakeInitiation =>
        Except.map handshakeInitiation <$> HandshakeInitiation.tryFrom (t.byte :: rest)
      | .handshakeResponse =>
        Except.map handshakeResponse <$> HandshakeResponse.tryFrom (t.byte :: rest)
      | .cookieReply => Except.map cookieReply <$> CookieReply.tryFrom (t.byte :: rest)
      | .transportData => Except.map transportData <$> TransportData.tryFrom (t.byte :: rest) := by
  rw [parse_cons h]
  cases t <;> rfl

/-- A buffer with any other first byte is refused. -/
lemma parse_other {ty : UInt8} {rest : Bytes} (h : 3 ≤ rest.length)
    (hno : ∀ t : PacketType, t.byte ≠ ty) : parse (ty :: rest) = .ret (.error .invalidPacket) := by
  have h₁ : ty ≠ messageTypeHandshakeInitiation := (hno .handshakeInitiation).symm
  have h₂ : ty ≠ messageTypeHandshakeResponse := (hno .handshakeResponse).symm
  have h₃ : ty ≠ messageTypeCookieReply := (hno .cookieReply).symm
  have h₄ : ty ≠ messageTypeTransportData := (hno .transportData).symm
  rw [parse_cons h, if_neg h₁, if_neg h₂, if_neg h₃, if_neg h₄]

/-- Parsing comes back with a message of a type that the buffer matches. -/
lemma grammatical_of_ok {b : Bytes} {m : Message} (h : parse b = .ret (.ok m))
    (hm : m.type.Matches b) : Grammatical b := by
  refine ⟨_, h, fun t => ⟨?_, fun ht => ⟨m, rfl, hm.unique ht⟩⟩, fun hno => absurd hm (hno _)⟩
  rintro ⟨m', hm', rfl⟩
  cases hm'
  exact hm

/-- Parsing refuses a buffer that matches no type. -/
lemma grammatical_of_error {b : Bytes} (h : parse b = .ret (.error .invalidPacket))
    (hno : ∀ t : PacketType, ¬ t.Matches b) : Grammatical b := by
  refine ⟨_, h, fun t => ⟨?_, fun ht => absurd ht (hno t)⟩, fun _ => rfl⟩
  rintro ⟨m, hm, -⟩
  cases hm

/-- A buffer is handed to the parser of its type. -/
lemma grammatical_of_tryFrom {α : Type} {t : PacketType} {rest : Bytes}
    {parser : Outcome (Except NoiseError α)} {mk : α → Message}
    (hparse : parse (t.byte :: rest) = Except.map mk <$> parser) (htype : ∀ p, (mk p).type = t)
    (yes : t.Matches (t.byte :: rest) → ∃ p, parser = .ret (.ok p))
    (no : ¬ t.Matches (t.byte :: rest) → parser = .ret (.error .invalidPacket)) :
    Grammatical (t.byte :: rest) := by
  by_cases hm : t.Matches (t.byte :: rest)
  · obtain ⟨p, hp⟩ := yes hm
    rw [hp] at hparse
    exact grammatical_of_ok hparse (by rwa [htype])
  · rw [no hm] at hparse
    refine grammatical_of_error hparse fun t' ht' => ?_
    obtain ⟨rest', heq⟩ := ht'.2
    rw [PacketType.byte_injective (List.cons.inj heq).1] at ht'
    exact hm ht'

/-- **The grammar.** Parsing follows the grammar exactly on the buffers that are not truncated data
packets.

**Proof sketch.** A truncated data packet makes `parse` panic. Otherwise the first byte says which
parser is called, if any, and each of them checks the length and the type. -/
theorem grammatical_iff (b : Bytes) : Grammatical b ↔ ¬ Truncated b := by
  constructor
  · rintro ⟨r, hr, -⟩ ⟨htype, hlen⟩
    have hpanic : parse b = .panic := (parse_eq_panic_iff b).mpr
      ⟨four_le_of_take (take_four_iff.mpr htype), hlen, take_four_iff.mpr htype⟩
    rw [hpanic] at hr
    cases hr
  · intro hfull
    by_cases hl : b.length < 4
    · refine grammatical_of_error (parse_short hl) fun t ht => ?_
      have hle := four_le_of_take (take_four_iff.mpr ht.2)
      omega
    obtain ⟨ty, rest, rfl, hrest⟩ := exists_cons_of_four_le (Nat.le_of_not_lt hl)
    by_cases hty : ∃ t : PacketType, t.byte = ty
    · obtain ⟨t, rfl⟩ := hty
      have hparse := parse_byte (t := t) hrest
      cases t with
      | handshakeInitiation =>
        refine grammatical_of_tryFrom hparse (fun _ => rfl) (fun hm => ?_) fun hm => ?_
        · exact HandshakeInitiation.tryFrom_of_type hm.1 (take_four_iff.mpr hm.2)
        · exact HandshakeInitiation.tryFrom_of_not fun h => hm ⟨h.1, take_four_iff.mp h.2⟩
      | handshakeResponse =>
        refine grammatical_of_tryFrom hparse (fun _ => rfl) (fun hm => ?_) fun hm => ?_
        · exact HandshakeResponse.tryFrom_of_type hm.1 (take_four_iff.mpr hm.2)
        · exact HandshakeResponse.tryFrom_of_not fun h => hm ⟨h.1, take_four_iff.mp h.2⟩
      | cookieReply =>
        refine grammatical_of_tryFrom hparse (fun _ => rfl) (fun hm => ?_) fun hm => ?_
        · exact CookieReply.tryFrom_of_type hm.1 (take_four_iff.mpr hm.2)
        · exact CookieReply.tryFrom_of_not fun h => hm ⟨h.1, take_four_iff.mp h.2⟩
      | transportData =>
        refine grammatical_of_tryFrom hparse (fun _ => rfl) (fun hm => ?_) fun hm => ?_
        · exact TransportData.tryFrom_of_type hm.1 (take_four_iff.mpr hm.2)
        · refine TransportData.tryFrom_of_not fun h => ?_
          -- it is not truncated, so the header is there
          have hshort : ¬ (PacketType.transportData.byte :: rest).length < 16 := fun hlt =>
            hfull ⟨take_four_iff.mp h.2, hlt⟩
          exact hm ⟨Nat.le_of_not_lt hshort, take_four_iff.mp h.2⟩
    · have hno : ∀ t : PacketType, t.byte ≠ ty := fun t ht => hty ⟨t, ht⟩
      refine grammatical_of_error (parse_other hrest hno) fun t ht => ?_
      obtain ⟨rest', heq⟩ := ht.2
      exact hno t (List.cons.inj heq).1

/-- A data packet that ends after its type and index makes `Message::parse` panic, although the
grammar knows no type for it. -/
theorem truncated_panics :
    parse [4, 0, 0, 0, 7, 0, 0, 0] = .panic ∧
      (∀ t : PacketType, ¬ t.Matches [4, 0, 0, 0, 7, 0, 0, 0]) ∧
      ¬ Grammatical [4, 0, 0, 0, 7, 0, 0, 0] := by
  refine ⟨rfl, fun t ht => ?_, fun h => ?_⟩
  · have hadmits := ht.1
    cases t <;> simp [PacketType.Admits] at hadmits
  · obtain ⟨r, hr, -⟩ := h
    cases hr

/-! ## Bytes of a message -/

/-- The bytes that a message is parsed from. -/
def bytes : Message → Bytes
  | handshakeInitiation p => p.encode
  | handshakeResponse p => p.encode
  | cookieReply p => p.encode
  | transportData p => p.toBytes

/-- What comes back from the parser of a type. -/
lemma map_eq_ok {α : Type} {parser : Outcome (Except NoiseError α)} {mk : α → Message}
    {m : Message} (h : Except.map mk <$> parser = .ret (.ok m)) :
    ∃ p, parser = .ret (.ok p) ∧ m = mk p := by
  cases parser with
  | panic => cases h
  | ret r =>
    cases r with
    | error e => cases h
    | ok p =>
      cases h
      exact ⟨p, rfl, rfl⟩

/-- A cookie reply laid out field by field is parsed as that cookie reply. -/
lemma parse_encode_cookieReply (p : CookieReply) :
    parse p.encode = .ret (.ok (.cookieReply p)) := by
  have hty : p.encode = PacketType.cookieReply.byte :: p.encode.tail := rfl
  have hlen : 3 ≤ p.encode.tail.length := by simp [CookieReply.encode]
  rw [hty, parse_byte hlen]
  show Except.map cookieReply <$> CookieReply.tryFrom p.encode = _
  rw [CookieReply.tryFrom_encode]
  rfl

/-- **Bytes of a message.** A message is parsed exactly from its bytes. -/
theorem parse_eq_ok {b : Bytes} {m : Message} : parse b = .ret (.ok m) ↔ b = m.bytes := by
  constructor
  · intro h
    by_cases hl : b.length < 4
    · rw [parse_short hl] at h
      cases h
    obtain ⟨ty, rest, rfl, hrest⟩ := exists_cons_of_four_le (Nat.le_of_not_lt hl)
    by_cases hty : ∃ t : PacketType, t.byte = ty
    · obtain ⟨t, rfl⟩ := hty
      rw [parse_byte hrest] at h
      cases t with
      | handshakeInitiation =>
        obtain ⟨p, hp, rfl⟩ := map_eq_ok h
        exact HandshakeInitiation.tryFrom_eq_ok.mp hp
      | handshakeResponse =>
        obtain ⟨p, hp, rfl⟩ := map_eq_ok h
        exact HandshakeResponse.tryFrom_eq_ok.mp hp
      | cookieReply =>
        obtain ⟨p, hp, rfl⟩ := map_eq_ok h
        exact CookieReply.tryFrom_eq_ok.mp hp
      | transportData =>
        obtain ⟨p, hp, rfl⟩ := map_eq_ok h
        exact TransportData.tryFrom_eq_ok.mp hp
    · rw [parse_other hrest fun t ht => hty ⟨t, ht⟩] at h
      cases h
  · rintro rfl
    cases m with
    | handshakeInitiation p => exact parse_encode_initiation p
    | handshakeResponse p => exact parse_encode_response p
    | cookieReply p => exact parse_encode_cookieReply p
    | transportData p => exact parse_toBytes p

/-- What is parsed as a message of the handshake counts as a handshake packet. -/
lemma isHandshake_of_parse {b : Bytes} {m : Message} (h : parse b = .ret (.ok m))
    (hm : m.type = .handshakeInitiation ∨ m.type = .handshakeResponse) :
    isHandshake b = .ret true := by
  obtain rfl := parse_eq_ok.mp h
  cases m with
  | handshakeInitiation p =>
    have hlen : p.encode.length = handshakeInitiationPacketSize := by
      simp [HandshakeInitiation.encode, handshakeInitiationPacketSize]
    exact congrArg Outcome.ret (decide_eq_true (.inl ⟨rfl, hlen⟩))
  | handshakeResponse p =>
    have hlen : p.encode.length = handshakeResponsePacketSize := by
      simp [HandshakeResponse.encode, handshakeResponsePacketSize]
    exact congrArg Outcome.ret (decide_eq_true (.inr ⟨rfl, hlen⟩))
  | cookieReply p | transportData p => rcases hm with hm | hm <;> cases hm

end Message

end Vlink
