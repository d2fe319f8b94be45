import Vlink.Lib.Base64
import Vlink.Noise.Crypto

set_option autoImplicit false

/-!
# Static secrets and the signature of a handshake

`vlink-core/src/secret.rs`: the key pair of a client or of the head server, and what a client sends
to show that it holds its private key.

## Main definitions

* `Vlink.Headlink.VlinkStaticSecret` — a key pair.
* `Vlink.Headlink.SalsaBox` — the public-key encryption of the crate `crypto_box`.
* `Vlink.Headlink.VlinkStaticSecret.helloSign` — the fixed text, sealed for the server.
-/

namespace Vlink.Headlink

/-- `VlinkStaticSecret`. -/
structure VlinkStaticSecret where
  privateKey : Key
  publicKey : Key
deriving DecidableEq

/-- `SalsaBox::new(public, secret)` and `encrypt(nonce, message)`. -/
structure SalsaBox where
  encrypt : (publicKey secretKey : Key) → Block 24 → Bytes → Option Bytes

/-- `HELLO_STR`, as bytes. -/
def helloStr : Bytes := [104, 101, 108, 108, 111]

namespace VlinkStaticSecret

/-- `VlinkStaticSecret::from` a private key. -/
def new (C : Crypto) (privateKey : Key) : VlinkStaticSecret := ⟨privateKey, C.publicKey privateKey⟩

/-- `VlinkStaticSecret::base64_pub`. -/
def base64Pub (s : VlinkStaticSecret) : String := Base64.encode s.publicKey.val

/-- The nonce of a signature: the first bytes of the key it is meant for. -/
def helloNonce (targetPub : Key) : Block 24 :=
  ⟨targetPub.val.take 24, by simp⟩

/-- `VlinkStaticSecret::hello_sign`; `none` if the encryption fails. -/
def helloSign (B : SalsaBox) (s : VlinkStaticSecret) (targetPub : Key) : Option String :=
  (B.encrypt targetPub s.privateKey (helloNonce targetPub) helloStr).map Base64.encode

end VlinkStaticSecret

end Vlink.Headlink
