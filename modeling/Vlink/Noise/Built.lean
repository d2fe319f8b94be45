import Vlink.Noise.Grammar
import Vlink.Noise.Handshake
import Vlink.Noise.Sample

set_option autoImplicit false

/-!
# The messages that are built

`OutgoingInitiation::new`, `OutgoingResponse::new` and `Cookie::generate_cookie_reply` append their
pieces to a buffer, while the parsers cut at fixed offsets. Since sealed fields are sixteen bytes
longer than what was sealed, the pieces are the fields, and what is built is parsed.

## Main definitions

* `Vlink.HandshakeInitiation.body`, `Vlink.HandshakeResponse.body` — a handshake packet without its
  two codes.
* `Vlink.HandshakeInitiation.coded`, `Vlink.HandshakeResponse.coded` — a handshake packet with the
  codes of a `MacGenerator`.

## Main results

* `Vlink.OutgoingInitiation.new_eq`, `Vlink.OutgoingResponse.new_eq` — the packets that are built,
  and their codes.
* `Vlink.Cookie.generateCookieReply_eq` — the cookie reply that is built.
* `Vlink.built_parses` — every message that is built is parsed as what was built.
-/

namespace Vlink

/-- An initiation without its two codes. -/
def HandshakeInitiation.body (p : HandshakeInitiation) : Bytes :=
  typeHeader messageTypeHandshakeInitiation ++ ((le32 p.senderIndex).val ++
    (p.ephemeralPublicKey.val ++ (p.staticPublicKey.val ++ p.timestamp.val)))

/-- The codes stand at the end. -/
lemma HandshakeInitiation.encode_eq (p : HandshakeInitiation) :
    p.encode = p.body ++ (p.mac1.val ++ p.mac2.val) := by
  simp [encode, body]

/-- A response without its two codes. -/
def HandshakeResponse.body (p : HandshakeResponse) : Bytes :=
  typeHeader messageTypeHandshakeResponse ++ ((le32 p.senderIndex).val ++
    ((le32 p.receiverIndex).val ++ (p.ephemeralPublicKey.val ++ p.empty.val)))

/-- The codes stand at the end. -/
lemma HandshakeResponse.encode_eq (p : HandshakeResponse) :
    p.encode = p.body ++ (p.mac1.val ++ p.mac2.val) := by
  simp [encode, body]

section Lawful

variable {C : Crypto} (hC : C.Lawful)

/-- An initiation with the codes that `macs` makes for it at the time `now`. The first covers what
comes before it, and the second covers the first as well. -/
def HandshakeInitiation.coded (p : HandshakeInitiation) (C : Crypto) (macs : MacGenerator)
    (now : Instant) : HandshakeInitiation :=
  let mac1 := macs.generateMac1 C p.body
  { p with mac1, mac2 := macs.generateMac2 C now (p.body ++ mac1.val) }

/-- A response with the codes that `macs` makes for it at the time `now`. -/
def HandshakeResponse.coded (p : HandshakeResponse) (C : Crypto) (macs : MacGenerator)
    (now : Instant) : HandshakeResponse :=
  let mac1 := macs.generateMac1 C p.body
  { p with mac1, mac2 := macs.generateMac2 C now (p.body ++ mac1.val) }

include hC in
/-- An initiation is built without a panic. -/
lemma OutgoingInitiation.new_returns (i : UInt32) (secret : PeerStaticSecret)
    (macs : MacGenerator) (e : Key) (wall : SystemTime) (now : Instant) :
    (OutgoingInitiation.new C i secret macs e wall now).Returns := by
  unfold OutgoingInitiation.new
  refine Outcome.returns_bind ?_ fun staticKey _ => Outcome.returns_bind ?_ fun timestamp _ => ?_
  · obtain ⟨c, hc, -⟩ := aeadEncrypt_ok hC _ 0 secret.localSecret.publicKey.val _
      (by simp [maxPlaintext])
    exact ⟨c, by rw [hc]; rfl⟩
  · obtain ⟨c, hc, -⟩ := aeadEncrypt_ok hC _ 0 (Timestamp.stamp wall).val _ (by simp [maxPlaintext])
    exact ⟨c, by rw [hc]; rfl⟩
  · exact Outcome.returns_ret _

include hC in
/-- A response is built without a panic. -/
lemma OutgoingResponse.new_returns (initiation : IncomingInitiation) (i : UInt32)
    (secret : PeerStaticSecret) (macs : MacGenerator) (e : Key) (now : Instant) :
    (OutgoingResponse.new C initiation i secret macs e now).Returns := by
  unfold OutgoingResponse.new
  refine Outcome.returns_bind ?_ fun empty _ => Outcome.returns_ret _
  obtain ⟨c, hc, -⟩ := aeadEncrypt_ok hC _ 0 [] _ (by simp [maxPlaintext])
  exact ⟨c, by rw [hc]; rfl⟩

include hC in
/-- The initiation that is built: only its codes depend on `macs`. -/
theorem OutgoingInitiation.new_eq (i : UInt32) (secret : PeerStaticSecret) (e : Key)
    (wall : SystemTime) : ∃ (out : OutgoingInitiation) (packet : HandshakeInitiation),
      packet.senderIndex = i ∧ ∀ macs now,
        OutgoingInitiation.new C i secret macs e wall now =
          .ret (out, (packet.coded C macs now).encode) := by
  obtain ⟨r, hnew⟩ := OutgoingInitiation.new_returns hC i secret (.new C secret) e wall 0
  unfold OutgoingInitiation.new at hnew
  obtain ⟨staticKey, hstatic, hnew⟩ := Outcome.bind_eq_ret.mp hnew
  obtain ⟨timestamp, htime, hnew⟩ := Outcome.bind_eq_ret.mp hnew
  have lstatic : staticKey.length = 48 := by
    simp [length_of_aeadEncrypt hC (Outcome.unwrap_eq_ret.mp hstatic)]
  have ltime : timestamp.length = 28 := by
    simp [length_of_aeadEncrypt hC (Outcome.unwrap_eq_ret.mp htime)]
  refine ⟨r.1, ⟨i, C.publicKey e, ⟨staticKey, lstatic⟩, ⟨timestamp, ltime⟩, Block.zero 16,
    Block.zero 16⟩, rfl, fun macs now => ?_⟩
  cases hnew
  unfold OutgoingInitiation.new
  refine Outcome.bind_eq_ret.mpr ⟨_, hstatic, Outcome.bind_eq_ret.mpr ⟨_, htime, ?_⟩⟩
  simp only [HandshakeInitiation.encode, HandshakeInitiation.coded, HandshakeInitiation.body,
    List.append_assoc]
  rfl

include hC in
/-- The response that is built. -/
theorem OutgoingResponse.new_eq (initiation : IncomingInitiation) (i : UInt32)
    (secret : PeerStaticSecret) (e : Key) :
    ∃ (out : OutgoingResponse) (packet : HandshakeResponse),
      packet.senderIndex = i ∧ packet.receiverIndex = initiation.index ∧ ∀ macs now,
        OutgoingResponse.new C initiation i secret macs e now =
          .ret (out, (packet.coded C macs now).encode) := by
  obtain ⟨r, hnew⟩ := OutgoingResponse.new_returns hC initiation i secret (.new C secret) e 0
  unfold OutgoingResponse.new at hnew
  obtain ⟨empty, hempty, hnew⟩ := Outcome.bind_eq_ret.mp hnew
  have lempty : empty.length = 16 := by
    simp [length_of_aeadEncrypt hC (Outcome.unwrap_eq_ret.mp hempty)]
  refine ⟨r.1, ⟨i, initiation.index, C.publicKey e, ⟨empty, lempty⟩, Block.zero 16, Block.zero 16⟩,
    rfl, rfl, fun macs now => ?_⟩
  cases hnew
  unfold OutgoingResponse.new
  refine Outcome.bind_eq_ret.mpr ⟨_, hempty, ?_⟩
  simp only [HandshakeResponse.encode, HandshakeResponse.coded, HandshakeResponse.body,
    List.append_assoc]
  rfl

include hC in
/-- The cookie reply that is built for a packet with room for the two codes: it names the sender of
the packet, and is sealed with the first code of the packet as associated data. -/
theorem Cookie.generateCookieReply_eq (c : Cookie) {payload : Bytes} (dst : SocketAddr)
    (nonce : Block 24) (rv : Key) (now : Instant) (h : 32 ≤ payload.length) :
    ∃ packet : CookieReply,
      c.generateCookieReply C payload dst nonce rv now =
        .ret ((c.refreshSecret rv now).1, packet.encode) ∧
      (le32 packet.receiverIndex).val = (payload.drop 4).take 4 ∧ packet.nonce = nonce := by
  let receiver : Block 4 := ⟨(payload.drop 4).take 4, by simp; omega⟩
  obtain ⟨sealed, hsealed⟩ := hC.xencrypt_some (c.refreshSecret rv now).1.cookieHash nonce
    (mac C (c.refreshSecret rv now).2.val (encodeDstAddr dst)).val
    ((payload.drop (payload.length - 32)).take 16) (by simp [maxPlaintext])
  have lsealed : sealed.length = 32 := by
    simp [hC.length_xencrypt _ _ _ _ _ hsealed]
  refine ⟨⟨ofLe32 receiver, nonce, ⟨sealed, lsealed⟩⟩, ?_, by rw [le32_ofLe32], rfl⟩
  have hmac : payload.slice (payload.length - 32) (payload.length - 32 + 16) =
      .ret ((payload.drop (payload.length - 32)).take 16) := by
    rw [Bytes.slice_of_le (by omega) (by omega), Nat.add_sub_cancel_left]
  have hreceiver : payload.slice 4 8 = .ret receiver.val :=
    Bytes.slice_of_le (by omega) (by omega)
  simp only [generateCookieReply, hreceiver, Outcome.ret_bind, Outcome.subW_of_le h, hmac,
    xaeadEncrypt, hsealed, Outcome.unwrap_ok, CookieReply.encode, le32_ofLe32]
  rfl

/-- A packet without room for the two codes is not answered. -/
lemma Cookie.generateCookieReply_short (C : Crypto) (c : Cookie) {payload : Bytes}
    (dst : SocketAddr) (nonce : Block 24) (rv : Key) (now : Instant) (h : payload.length < 32) :
    c.generateCookieReply C payload dst nonce rv now = .panic := by
  unfold generateCookieReply
  cases payload.slice 4 8 with
  | panic => rfl
  | ret receiver => simp [Outcome.subW, Nat.not_le.mpr h]

include hC in
/-- **Every message that is built is parsed as what was built.** Initiations, responses and cookie
replies are parsed as packets of their kind, with the indices that they were built with, whose
fields put together are the bytes that were built; a cookie reply is built for every packet with
room for the two codes, and names its bytes 4 to 8. Data packets are parsed as themselves, and
whatever is parsed as a data packet is what `to_bytes` makes of it.

**Proof sketch.** What is built is the encoding of a packet, and the packet is parsed back from it.
-/
theorem built_parses :
    (∀ i secret macs e wall now, ∃ out b p,
      OutgoingInitiation.new C i secret macs e wall now = .ret (out, b) ∧
      Message.parse b = .ret (.ok (.handshakeInitiation p)) ∧ p.senderIndex = i ∧ p.encode = b) ∧
    (∀ initiation i secret macs e now, ∃ out b p,
      OutgoingResponse.new C initiation i secret macs e now = .ret (out, b) ∧
      Message.parse b = .ret (.ok (.handshakeResponse p)) ∧ p.senderIndex = i ∧
      p.receiverIndex = initiation.index ∧ p.encode = b) ∧
    (∀ (c : Cookie) payload dst nonce rv now,
      ((c.generateCookieReply C payload dst nonce rv now).Returns ↔ 32 ≤ payload.length) ∧
      ∀ c' b, c.generateCookieReply C payload dst nonce rv now = .ret (c', b) →
        ∃ p, Message.parse b = .ret (.ok (.cookieReply p)) ∧
          (le32 p.receiverIndex).val = (payload.drop 4).take 4 ∧ p.encode = b) ∧
    (∀ t : TransportData, Message.parse t.toBytes = .ret (.ok (.transportData t))) ∧
    ∀ b t, 16 ≤ b.length → Message.parse b = .ret (.ok (.transportData t)) → t.toBytes = b := by
  refine ⟨?_, ?_, ?_, Message.parse_toBytes, fun b t _ h => (Message.parse_eq_ok.mp h).symm⟩
  · intro i secret macs e wall now
    obtain ⟨out, p, hindex, hnew⟩ := OutgoingInitiation.new_eq hC i secret e wall
    exact ⟨out, _, p.coded C macs now, hnew macs now, Message.parse_encode_initiation _, hindex,
      rfl⟩
  · intro initiation i secret macs e now
    obtain ⟨out, p, hsender, hreceiver, hnew⟩ := OutgoingResponse.new_eq hC initiation i secret e
    exact ⟨out, _, p.coded C macs now, hnew macs now, Message.parse_encode_response _, hsender,
      hreceiver, rfl⟩
  · intro c payload dst nonce rv now
    by_cases hl : 32 ≤ payload.length
    · obtain ⟨p, hreply, hindex, -⟩ := c.generateCookieReply_eq hC dst nonce rv now hl
      refine ⟨iff_of_true ⟨_, hreply⟩ hl, fun c' b h => ?_⟩
      cases hreply.symm.trans h
      exact ⟨p, Message.parse_encode_cookieReply p, hindex, rfl⟩
    · have hpanic := c.generateCookieReply_short C dst nonce rv now (Nat.lt_of_not_le hl)
      rw [hpanic]
      exact ⟨iff_of_false (by simp) hl, fun c' b h => by cases h⟩

end Lawful

/-- An initiation that is built with the sample primitives. -/
theorem built_parses_sample :
    Crypto.sample.Lawful ∧ ∃ out b p,
      OutgoingInitiation.new .sample 7
          ((LocalStaticSecret.new .sample (Block.zero 32)).withPeer (Block.zero 32))
          ⟨Block.zero 32, Block.zero 32, none⟩ (Block.zero 32) 0 0 = .ret (out, b) ∧
        Message.parse b = .ret (.ok (.handshakeInitiation p)) ∧ p.senderIndex = 7 ∧
        p.encode = b :=
  ⟨Crypto.sample_lawful, (built_parses Crypto.sample_lawful).1 _ _ _ _ _ _⟩

end Vlink
