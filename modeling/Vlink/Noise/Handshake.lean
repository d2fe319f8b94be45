import Vlink.Noise.Cookie

set_option autoImplicit false

/-!
# The handshake messages

`noise/handshake/initiation.rs` and `response.rs`: building and reading the two messages of the
handshake. Each side folds what it sends or receives into a transcript hash and a chaining key;
random ephemeral keys and clock readings are inputs of the model.

## Main definitions

* `Vlink.OutgoingInitiation.new`, `Vlink.IncomingInitiation.parse` — the first message.
* `Vlink.OutgoingResponse.new`, `Vlink.IncomingResponse.parse` — the second message.

## Main results

* `Vlink.OutgoingInitiation.new_fields` — index and ephemeral key of an initiation.
* `Vlink.IncomingInitiation.parse_returns` — reading an initiation never panics.
-/

namespace Vlink

/-- `CONSTRUCTION`. -/
def construction : Bytes :=
  ascii ['N', 'o', 'i', 's', 'e', '_', 'I', 'K', 'p', 's', 'k', '2', '_', '2', '5', '5', '1', '9',
    '_', 'C', 'h', 'a', 'C', 'h', 'a', 'P', 'o', 'l', 'y', '_', 'B', 'L', 'A', 'K', 'E', '2', 's']

/-- `IDENTIFIER`. -/
def identifier : Bytes :=
  ascii ['W', 'i', 'r', 'e', 'G', 'u', 'a', 'r', 'd', ' ', 'v', '1', ' ', 'z', 'x', '2', 'c', '4',
    ' ', 'J', 'a', 's', 'o', 'n', '@', 'z', 'x', '2', 'c', '4', '.', 'c', 'o', 'm']

/-- `OutgoingInitiation`: what the initiator keeps until the response arrives. -/
structure OutgoingInitiation where
  index : UInt32
  hash : Key
  chainingKey : Key
  ephemeralPrivateKey : Key
deriving DecidableEq

/-- `IncomingInitiation`: what the responder reads from an initiation. -/
structure IncomingInitiation where
  index : UInt32
  hash : Key
  chainingKey : Key
  timestamp : Timestamp
  ephemeralPublicKey : Key
  staticPublicKey : Key
deriving DecidableEq

/-- `OutgoingResponse`. -/
structure OutgoingResponse where
  hash : Key
  chainingKey : Key
  ephemeralPrivateKey : Key
deriving DecidableEq

/-- `IncomingResponse`. -/
structure IncomingResponse where
  index : UInt32
  ephemeralPublicKey : Key
  hash : Key
  chainingKey : Key
deriving DecidableEq

section

variable (C : Crypto)

/-- `OutgoingInitiation::new`, with the ephemeral private key `ephemeral`, the wall clock
reading `wall` and the monotonic clock reading `now`. -/
def OutgoingInitiation.new (senderIndex : UInt32) (secret : PeerStaticSecret)
    (macs : MacGenerator) (ephemeral : Key) (wall : SystemTime) (now : Instant) :
    Outcome (OutgoingInitiation × Bytes) := do
  let buf := typeHeader messageTypeHandshakeInitiation ++ (le32 senderIndex).val
  let c := Vlink.hash C construction []
  let h := Vlink.hash C (Vlink.hash C c.val identifier).val secret.publicKey.val
  let ephemeralPub := C.publicKey ephemeral
  let c := kdf1 C c.val ephemeralPub.val
  let buf := buf ++ ephemeralPub.val
  let h := Vlink.hash C h.val ephemeralPub.val
  let (c, k) := kdf2 C c.val (C.diffieHellman ephemeral secret.publicKey).val
  let staticKey ← Outcome.unwrap (aeadEncrypt C k 0 secret.localSecret.publicKey.val h.val)
  let buf := buf ++ staticKey
  let h := Vlink.hash C h.val staticKey
  let (c, k) := kdf2 C c.val
    (C.diffieHellman secret.localSecret.privateKey secret.publicKey).val
  let timestamp ← Outcome.unwrap (aeadEncrypt C k 0 (Timestamp.stamp wall).val h.val)
  let buf := buf ++ timestamp
  let h := Vlink.hash C h.val timestamp
  let buf := buf ++ (macs.generateMac1 C buf).val
  let payload := buf ++ (macs.generateMac2 C now buf).val
  return (⟨senderIndex, h, c, ephemeral⟩, payload)

/-- `IncomingInitiation::parse`. -/
def IncomingInitiation.parse (secret : LocalStaticSecret) (packet : HandshakeInitiation) :
    Outcome (Except NoiseError IncomingInitiation) :=
  let c := Vlink.hash C construction []
  let h := Vlink.hash C (Vlink.hash C c.val identifier).val secret.publicKey.val
  let c := kdf1 C c.val packet.ephemeralPublicKey.val
  let h := Vlink.hash C h.val packet.ephemeralPublicKey.val
  let (c, k) := kdf2 C c.val
    (C.diffieHellman secret.privateKey packet.ephemeralPublicKey).val
  Outcome.propagate (aeadDecrypt C k 0 packet.staticPublicKey.val h.val) fun staticKey => do
    let peerStaticPub ← Bytes.toBlock 32 staticKey
    let h := Vlink.hash C h.val packet.staticPublicKey.val
    let (c, k) := kdf2 C c.val (C.diffieHellman secret.privateKey peerStaticPub).val
    Outcome.propagate (aeadDecrypt C k 0 packet.timestamp.val h.val) fun timestamp => do
      let timestamp ← Bytes.toBlock 12 timestamp
      let h := Vlink.hash C h.val packet.timestamp.val
      return .ok ⟨packet.senderIndex, h, c, timestamp, packet.ephemeralPublicKey, peerStaticPub⟩

/-- `OutgoingResponse::new`. -/
def OutgoingResponse.new (initiation : IncomingInitiation) (localIndex : UInt32)
    (secret : PeerStaticSecret) (macs : MacGenerator) (ephemeral : Key) (now : Instant) :
    Outcome (OutgoingResponse × Bytes) := do
  let buf := typeHeader messageTypeHandshakeResponse ++ (le32 localIndex).val
  let buf := buf ++ (le32 initiation.index).val
  let ephemeralPub := C.publicKey ephemeral
  let buf := buf ++ ephemeralPub.val
  let c := kdf1 C initiation.chainingKey.val ephemeralPub.val
  let h := Vlink.hash C initiation.hash.val ephemeralPub.val
  let c := kdf1 C c.val (C.diffieHellman ephemeral initiation.ephemeralPublicKey).val
  let c := kdf1 C c.val (C.diffieHellman ephemeral secret.publicKey).val
  let (c, t, k) := kdf3 C c.val secret.psk.val
  let h := Vlink.hash C h.val t.val
  let empty ← Outcome.unwrap (aeadEncrypt C k 0 [] h.val)
  let buf := buf ++ empty
  let h := Vlink.hash C h.val empty
  let buf := buf ++ (macs.generateMac1 C buf).val
  let payload := buf ++ (macs.generateMac2 C now buf).val
  return (⟨h, c, ephemeral⟩, payload)

/-- `IncomingResponse::parse`. -/
def IncomingResponse.parse (initiation : OutgoingInitiation) (secret : PeerStaticSecret)
    (packet : HandshakeResponse) : Except NoiseError IncomingResponse := do
  let c := kdf1 C initiation.chainingKey.val packet.ephemeralPublicKey.val
  let h := Vlink.hash C initiation.hash.val packet.ephemeralPublicKey.val
  let c := kdf1 C c.val
    (C.diffieHellman initiation.ephemeralPrivateKey packet.ephemeralPublicKey).val
  let c := kdf1 C c.val
    (C.diffieHellman secret.localSecret.privateKey packet.ephemeralPublicKey).val
  let (c, t, k) := kdf3 C c.val secret.psk.val
  let h := Vlink.hash C h.val t.val
  let empty ← aeadDecrypt C k 0 packet.empty.val h.val
  if empty ≠ [] then throw .decryption
  let h := Vlink.hash C h.val packet.empty.val
  return ⟨packet.senderIndex, packet.ephemeralPublicKey, h, c⟩

end

/-- An initiation is kept under the index and the ephemeral key it was built with. -/
theorem OutgoingInitiation.new_fields {C : Crypto} {i : UInt32} {secret : PeerStaticSecret}
    {macs : MacGenerator} {e : Key} {wall : SystemTime} {now : Instant}
    {out : OutgoingInitiation} {payload : Bytes}
    (h : OutgoingInitiation.new C i secret macs e wall now = .ret (out, payload)) :
    out.index = i ∧ out.ephemeralPrivateKey = e := by
  unfold OutgoingInitiation.new at h
  obtain ⟨staticKey, -, h⟩ := Outcome.bind_eq_ret.mp h
  obtain ⟨timestamp, -, h⟩ := Outcome.bind_eq_ret.mp h
  cases h
  exact ⟨rfl, rfl⟩

/-- An array is made of what a block of `n + 16` bytes decrypts to. -/
private lemma toBlock_of_decrypt {C : Crypto} (hC : C.Lawful) {n : ℕ} {key : Key}
    {counter : UInt64} {c : Block (n + 16)} {msg aad : Bytes}
    (h : aeadDecrypt C key counter c.val aad = .ok msg) : (Bytes.toBlock n msg).Returns := by
  have hlen := length_of_aeadDecrypt hC h
  rw [c.2, Nat.add_right_cancel_iff] at hlen
  exact ⟨_, Bytes.toBlock_of_length hlen.symm⟩

/-- Reading an initiation never panics: what is decrypted has the right size. -/
theorem IncomingInitiation.parse_returns {C : Crypto} (hC : C.Lawful) (secret : LocalStaticSecret)
    (packet : HandshakeInitiation) : (IncomingInitiation.parse C secret packet).Returns := by
  unfold IncomingInitiation.parse
  simp only
  refine Outcome.returns_propagate fun staticKey hs => ?_
  refine Outcome.returns_bind (toBlock_of_decrypt hC hs) fun peerStaticPub _ => ?_
  refine Outcome.returns_propagate fun timestamp ht => ?_
  exact Outcome.returns_bind (toBlock_of_decrypt hC ht) fun _ _ => Outcome.returns_ret _

/-- The index of an initiation that was read. -/
lemma IncomingInitiation.index_of_parse {C : Crypto} {secret : LocalStaticSecret}
    {packet : HandshakeInitiation} {inc : IncomingInitiation}
    (h : IncomingInitiation.parse C secret packet = .ret (.ok inc)) :
    inc.index = packet.senderIndex := by
  unfold IncomingInitiation.parse at h
  obtain ⟨staticKey, -, h⟩ := Outcome.propagate_eq_ok.mp h
  obtain ⟨key, -, h⟩ := Outcome.bind_eq_ret.mp h
  obtain ⟨timestamp, -, h⟩ := Outcome.propagate_eq_ok.mp h
  obtain ⟨stamp, -, h⟩ := Outcome.bind_eq_ret.mp h
  cases h
  rfl

end Vlink
