import Vlink.Noise.Crypto

set_option autoImplicit false

/-!
# An instance of the cryptographic laws

A small computable instance of `Crypto`: it shows that the laws the development assumes of the
primitives can hold together, and lets runs of the model be evaluated. It offers no secrecy.

## Main definitions

* `Vlink.Crypto.sample` — multiplication modulo `2 ^ 256` as Diffie-Hellman, a polynomial digest
  as hash, and the plaintext with a keyed digest as ciphertext.

## Main results

* `Vlink.Crypto.sample_lawful` — the laws hold.
-/

namespace Vlink.Crypto

/-- The low `n` bytes of a number. -/
def leBlock (n v : ℕ) : Block n := ⟨leBytes n v, length_leBytes n v⟩

/-- A polynomial digest. -/
def digest (b : Bytes) : ℕ := b.foldl (fun a x => (a * 257 + x.toNat + 1) % 2 ^ 256) 7

/-- The tag that seals a message. -/
def tag {n : ℕ} (k : Key) (nonce : Block n) (m a : Bytes) : Bytes :=
  leBytes 16 (digest (k.val ++ (nonce.val ++ (a ++ m))))

/-- The message, followed by its tag. -/
def sealed {n : ℕ} (k : Key) (nonce : Block n) (m a : Bytes) : Bytes := m ++ tag k nonce m a

/-- The message of a ciphertext whose tag is right. -/
def unsealed {n : ℕ} (k : Key) (nonce : Block n) (c a : Bytes) : Option Bytes :=
  let m := c.take (c.length - 16)
  if c = sealed k nonce m a then some m else none

/-- A computable instance of the primitives. -/
def sample : Crypto where
  publicKey k := leBlock 32 (5 * leNat k.val)
  diffieHellman k pub := leBlock 32 (leNat k.val * leNat pub.val)
  blake2s b := leBlock 32 (digest b)
  blake2sMac k b := leBlock 16 (digest (0 :: k ++ b))
  hmacBlake2s k b := leBlock 32 (digest (1 :: k ++ b))
  encrypt k n m a := some (sealed k n m a)
  decrypt k n c a := unsealed k n c a
  xencrypt k n m a := some (sealed k n m a)
  xdecrypt k n c a := unsealed k n c a

/-- Only the low bytes count. -/
lemma leBlock_mod (n v : ℕ) : leBlock n (v % 256 ^ n) = leBlock n v := by
  have h := leBytes_leNat (leBytes n v)
  rw [length_leBytes, leNat_leBytes] at h
  exact Subtype.ext h

/-- A number is read back. -/
lemma leNat_leBlock (n v : ℕ) : leNat (leBlock n v).val = v % 256 ^ n := leNat_leBytes n v

/-- The tag has 16 bytes. -/
@[simp] lemma length_sealed {n : ℕ} (k : Key) (nonce : Block n) (m a : Bytes) :
    (sealed k nonce m a).length = m.length + 16 := by
  simp [sealed, tag]

/-- What is sealed is opened. -/
@[simp] lemma unsealed_sealed {n : ℕ} (k : Key) (nonce : Block n) (m a : Bytes) :
    unsealed k nonce (sealed k nonce m a) a = some m := by
  have hm : (sealed k nonce m a).take ((sealed k nonce m a).length - 16) = m := by
    rw [length_sealed, Nat.add_sub_cancel, sealed, List.take_left]
  simp only [unsealed, hm, if_true]

/-- Only what was sealed is opened. -/
lemma sealed_of_unsealed {n : ℕ} {k : Key} {nonce : Block n} {c a m : Bytes}
    (h : unsealed k nonce c a = some m) : c = sealed k nonce m a := by
  simp only [unsealed] at h
  split_ifs at h with hc
  cases h
  exact hc

/-- The instance obeys the laws. -/
theorem sample_lawful : sample.Lawful where
  dh_comm a b := by
    have key : ∀ x y : ℕ, leBlock 32 (x * ((5 * y) % 256 ^ 32)) = leBlock 32 (5 * (x * y)) := by
      intro x y
      rw [← leBlock_mod, Nat.mul_mod_mod, leBlock_mod, Nat.mul_left_comm]
    simp only [sample, leNat_leBlock, key]
    rw [Nat.mul_comm (leNat a.val)]
  encrypt_some _ _ _ _ _ := ⟨_, rfl⟩
  decrypt_encrypt _ _ _ _ _ h := by
    cases h
    exact unsealed_sealed ..
  encrypt_decrypt _ _ _ _ _ h := congrArg some (sealed_of_unsealed h).symm
  length_encrypt _ _ _ _ _ h := by
    cases h
    exact length_sealed ..
  xencrypt_some _ _ _ _ _ := ⟨_, rfl⟩
  xdecrypt_xencrypt _ _ _ _ _ h := by
    cases h
    exact unsealed_sealed ..
  length_xencrypt _ _ _ _ _ h := by
    cases h
    exact length_sealed ..

end Vlink.Crypto
