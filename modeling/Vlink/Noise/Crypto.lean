import Vlink.Noise.Protocol

set_option autoImplicit false

/-!
# The cryptographic functions

`noise/crypto.rs` builds its functions from primitives of other crates: X25519, BLAKE2s, its
keyed and HMAC forms, ChaCha20-Poly1305 and XChaCha20-Poly1305. The primitives are a parameter
`C : Crypto` of everything that uses them; the constructions over them are those of the source.

## Main definitions

* `Vlink.Crypto` — the primitives.
* `Vlink.Crypto.Lawful` — what the crates document of them: Diffie-Hellman commutes, opening
  inverts sealing, a ciphertext is sixteen bytes longer than its plaintext, only ciphertexts of
  the same key and nonce are opened, and messages below the length limit can be sealed.
* `Vlink.kdf1`, `Vlink.kdf2`, `Vlink.kdf3`, `Vlink.aeadEncrypt`, `Vlink.aeadDecrypt` — the
  constructions of the source.
* `Vlink.LocalStaticSecret`, `Vlink.PeerStaticSecret` — static keys.
-/

namespace Vlink

/-- An array of 32 bytes: a key, a hash or a shared secret. -/
abbrev Key := Block 32

/-- The primitives that come from other crates. Sealing takes a key, a nonce, a message and
associated data. -/
structure Crypto where
  /-- `PublicKey::from(&private)` of `x25519_dalek`. -/
  publicKey : Key → Key
  /-- `private.diffie_hellman(&public)` of `x25519_dalek`. -/
  diffieHellman : Key → Key → Key
  /-- `Blake2s256` of a byte string. -/
  blake2s : Bytes → Key
  /-- `Blake2sMac` with sixteen bytes of output. -/
  blake2sMac : Bytes → Bytes → Block 16
  /-- `SimpleHmac<Blake2s256>`. -/
  hmacBlake2s : Bytes → Bytes → Key
  /-- `ChaCha20Poly1305::encrypt`. -/
  encrypt : Key → Block 12 → Bytes → Bytes → Option Bytes
  /-- `ChaCha20Poly1305::decrypt`. -/
  decrypt : Key → Block 12 → Bytes → Bytes → Option Bytes
  /-- `XChaCha20Poly1305::encrypt`. -/
  xencrypt : Key → Block 24 → Bytes → Bytes → Option Bytes
  /-- `XChaCha20Poly1305::decrypt`. -/
  xdecrypt : Key → Block 24 → Bytes → Bytes → Option Bytes

/-- The number of bytes from which `ChaCha20Poly1305::encrypt` refuses a message: `u32::MAX`
blocks of 64 bytes. -/
def maxPlaintext : ℕ := 64 * (2 ^ 32 - 1)

/-- What the crates document of the primitives. -/
structure Crypto.Lawful (C : Crypto) : Prop where
  /-- Both ends of a Diffie-Hellman exchange compute the same secret. -/
  dh_comm : ∀ a b, C.diffieHellman a (C.publicKey b) = C.diffieHellman b (C.publicKey a)
  /-- Messages below the length limit are sealed. -/
  encrypt_some : ∀ k n m a, m.length < maxPlaintext → ∃ c, C.encrypt k n m a = some c
  /-- A sealed message opens to itself. -/
  decrypt_encrypt : ∀ k n m a c, C.encrypt k n m a = some c → C.decrypt k n c a = some m
  /-- Only what was sealed under the same key, nonce and associated data is opened. -/
  encrypt_decrypt : ∀ k n m a c, C.decrypt k n c a = some m → C.encrypt k n m a = some c
  /-- The authentication tag has sixteen bytes. -/
  length_encrypt : ∀ k n m a c, C.encrypt k n m a = some c → c.length = m.length + 16
  /-- The same for the cipher with the long nonce. -/
  xencrypt_some : ∀ k n m a, m.length < maxPlaintext → ∃ c, C.xencrypt k n m a = some c
  xdecrypt_xencrypt : ∀ k n m a c, C.xencrypt k n m a = some c → C.xdecrypt k n c a = some m
  length_xencrypt : ∀ k n m a c, C.xencrypt k n m a = some c → c.length = m.length + 16

/-! ## Constructions -/

section

variable (C : Crypto)

/-- `crypto::hash`. -/
def hash (in1 in2 : Bytes) : Key := C.blake2s (in1 ++ in2)

/-- `crypto::mac`. -/
def mac (key in0 : Bytes) : Block 16 := C.blake2sMac key in0

/-- `crypto::hmac1`. -/
def hmac1 (key in0 : Bytes) : Key := C.hmacBlake2s key in0

/-- `crypto::hmac2`. -/
def hmac2 (key in0 in1 : Bytes) : Key := C.hmacBlake2s key (in0 ++ in1)

/-- `crypto::kdf1`. -/
def kdf1 (key in0 : Bytes) : Key := hmac1 C (hmac1 C key in0).val [1]

/-- `crypto::kdf2`. -/
def kdf2 (key in0 : Bytes) : Key × Key :=
  let prk := hmac1 C key in0
  let t0 := hmac1 C prk.val [1]
  let t1 := hmac2 C prk.val t0.val [2]
  (t0, t1)

/-- `crypto::kdf3`. -/
def kdf3 (key in0 : Bytes) : Key × Key × Key :=
  let prk := hmac1 C key in0
  let t0 := hmac1 C prk.val [1]
  let t1 := hmac2 C prk.val t0.val [2]
  let t2 := hmac2 C prk.val t1.val [3]
  (t0, t1, t2)

/-- The nonce of a counter: four zero bytes and the counter in little-endian code. -/
def counterNonce (counter : UInt64) : Block 12 :=
  ⟨(Block.zero 4).val ++ (le64 counter).val, by simp⟩

/-- `crypto::aead_encrypt`, and `ChachaCipher::aead_encrypt` with its key. -/
def aeadEncrypt (key : Key) (counter : UInt64) (msg aad : Bytes) : Except NoiseError Bytes :=
  match C.encrypt key (counterNonce counter) msg aad with
  | some c => .ok c
  | none => .error .encryption

/-- `crypto::xaead_encrypt`. -/
def xaeadEncrypt (key : Key) (nonce : Block 24) (msg aad : Bytes) : Except NoiseError Bytes :=
  match C.xencrypt key nonce msg aad with
  | some c => .ok c
  | none => .error .encryption

/-- `crypto::aead_decrypt`, and `ChachaCipher::aead_decrypt` with its key. -/
def aeadDecrypt (key : Key) (counter : UInt64) (msg aad : Bytes) : Except NoiseError Bytes :=
  match C.decrypt key (counterNonce counter) msg aad with
  | some m => .ok m
  | none => .error .decryption

end

section Lawful

variable {C : Crypto} (hC : C.Lawful)

include hC in
/-- Sealing a message below the length limit succeeds with a ciphertext sixteen bytes longer,
which opens to the message. -/
lemma aeadEncrypt_ok (key : Key) (counter : UInt64) (msg aad : Bytes)
    (hlen : msg.length < maxPlaintext) :
    ∃ c, aeadEncrypt C key counter msg aad = .ok c ∧ c.length = msg.length + 16 ∧
      aeadDecrypt C key counter c aad = .ok msg := by
  obtain ⟨c, hc⟩ := hC.encrypt_some key (counterNonce counter) msg aad hlen
  refine ⟨c, by simp [aeadEncrypt, hc], hC.length_encrypt _ _ _ _ _ hc, ?_⟩
  simp [aeadDecrypt, hC.decrypt_encrypt _ _ _ _ _ hc]

include hC in
/-- Whatever was sealed opens to the message. -/
lemma aeadDecrypt_of_aeadEncrypt {key : Key} {counter : UInt64} {msg aad c : Bytes}
    (h : aeadEncrypt C key counter msg aad = .ok c) :
    aeadDecrypt C key counter c aad = .ok msg := by
  cases he : C.encrypt key (counterNonce counter) msg aad with
  | none => simp [aeadEncrypt, he] at h
  | some c' =>
    simp only [aeadEncrypt, he, Except.ok.injEq] at h
    subst h
    simp [aeadDecrypt, hC.decrypt_encrypt _ _ _ _ _ he]

include hC in
/-- A sealed message is sixteen bytes longer. -/
lemma length_of_aeadEncrypt {key : Key} {counter : UInt64} {msg aad c : Bytes}
    (h : aeadEncrypt C key counter msg aad = .ok c) : c.length = msg.length + 16 := by
  cases he : C.encrypt key (counterNonce counter) msg aad with
  | none => simp [aeadEncrypt, he] at h
  | some c' =>
    simp only [aeadEncrypt, he, Except.ok.injEq] at h
    exact h ▸ hC.length_encrypt _ _ _ _ _ he

include hC in
/-- What opens is sixteen bytes longer than what it opens to. -/
lemma length_of_aeadDecrypt {key : Key} {counter : UInt64} {msg aad c : Bytes}
    (h : aeadDecrypt C key counter c aad = .ok msg) : c.length = msg.length + 16 := by
  cases hd : C.decrypt key (counterNonce counter) c aad with
  | none => simp [aeadDecrypt, hd] at h
  | some m =>
    simp only [aeadDecrypt, hd, Except.ok.injEq] at h
    subst h
    exact hC.length_encrypt _ _ _ _ _ (hC.encrypt_decrypt _ _ _ _ _ hd)

end Lawful

/-! ## Static keys -/

/-- `LocalStaticSecret`: the own static key pair. -/
structure LocalStaticSecret where
  privateKey : Key
  publicKey : Key
deriving DecidableEq

/-- `LocalStaticSecret::new`. -/
def LocalStaticSecret.new (C : Crypto) (privateKey : Key) : LocalStaticSecret :=
  ⟨privateKey, C.publicKey privateKey⟩

/-- `PeerStaticSecret`: the own key pair with the public key of a peer and a shared key. -/
structure PeerStaticSecret where
  localSecret : LocalStaticSecret
  publicKey : Key
  psk : Key
deriving DecidableEq

/-- `LocalStaticSecret::with_peer`; the pre-shared key is zero until it is set. -/
def LocalStaticSecret.withPeer (s : LocalStaticSecret) (peerPublicKey : Key) :
    PeerStaticSecret :=
  ⟨s, peerPublicKey, Block.zero 32⟩

/-- `PeerStaticSecret::set_psk`. -/
def PeerStaticSecret.setPsk (s : PeerStaticSecret) (psk : Key) : PeerStaticSecret :=
  { s with psk }

end Vlink
