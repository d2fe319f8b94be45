import Vlink.Lib.Net
import Vlink.Noise.Crypto
import Vlink.Noise.Timestamp

set_option autoImplicit false

/-!
# Message authentication codes and cookies of the handshake

`noise/handshake/cookie.rs`: the sender of a handshake packet appends two codes, the first
keyed by the public key of the receiver, the second all zero unless a cookie is at hand. The
receiver checks the first before it looks at the packet.

## Main definitions

* `Vlink.MacGenerator` — the sender's side: `generateMac1`, `generateMac2`.
* `Vlink.Cookie` — the receiver's side: `validateMac1`, `validateMac2`, `generateCookieReply`.

## Main results

* `Vlink.Cookie.validateMac1_returns` — the check comes back for packets of at least the length
  of the two codes.
-/

namespace Vlink

/-- A byte string literal. -/
def ascii (cs : List Char) : Bytes := cs.map fun c => UInt8.ofNat c.toNat

/-- `LABEL_MAC1`. -/
def labelMac1 : Bytes := ascii ['m', 'a', 'c', '1', '-', '-', '-', '-']

/-- `LABEL_COOKIE`. -/
def labelCookie : Bytes := ascii ['c', 'o', 'o', 'k', 'i', 'e', '-', '-']

/-- `COOKIE_LIFETIME`. -/
def cookieLifetime : Duration := Duration.fromSecs 120

/-! ## The sender's side -/

/-- `MacGenerator`. -/
structure MacGenerator where
  peerMac1Hash : Key
  peerCookieHash : Key
  lastCookie : Option (Block 16 × Instant)
deriving DecidableEq

namespace MacGenerator

variable (C : Crypto)

/-- `MacGenerator::new`. -/
def new (secret : PeerStaticSecret) : MacGenerator where
  peerMac1Hash := hash C labelMac1 secret.publicKey.val
  peerCookieHash := hash C labelCookie secret.publicKey.val
  lastCookie := none

/-- `MacGenerator::generate_mac1`. -/
def generateMac1 (m : MacGenerator) (payload : Bytes) : Block 16 :=
  mac C m.peerMac1Hash.val payload

/-- `MacGenerator::generate_mac2`. -/
def generateMac2 (m : MacGenerator) (now : Instant) (payload : Bytes) : Block 16 :=
  match m.lastCookie with
  | none => Block.zero 16
  | some (_, at_) =>
    if cookieLifetime ≤ at_.elapsed now then Block.zero 16
    else mac C m.peerCookieHash.val payload

end MacGenerator

/-! ## The receiver's side -/

/-- `Cookie`. -/
structure Cookie where
  secret : Option (Key × Instant)
  cookieHash : Key
  mac1Hash : Key
deriving DecidableEq

namespace Cookie

variable (C : Crypto)

/-- `Cookie::new`. -/
def new (secret : LocalStaticSecret) : Cookie where
  secret := none
  cookieHash := hash C labelCookie secret.publicKey.val
  mac1Hash := hash C labelMac1 secret.publicKey.val

/-- `payload.split_at(payload.len() - 32)`: the message, and the sixteen bytes of each code. -/
def splitMacs (payload : Bytes) : Outcome (Bytes × Bytes × Bytes) := do
  let n ← Outcome.subW payload.length 32
  let macs := payload.drop n
  return (payload.take n, macs.take 16, macs.drop 16)

/-- `Cookie::validate_mac1`. -/
def validateMac1 (c : Cookie) (payload : Bytes) : Outcome Bool := do
  let (msg, mac1, _) ← splitMacs payload
  return mac1 = (mac C c.mac1Hash.val msg).val

/-- `Cookie::validate_mac2`. -/
def validateMac2 (c : Cookie) (payload : Bytes) : Outcome Bool := do
  let (msg, _, mac2) ← splitMacs payload
  return mac2 = (mac C c.cookieHash.val msg).val

/-- `Cookie::encode_dst_addr`. -/
def encodeDstAddr (addr : SocketAddr) : Bytes :=
  addr.ip.octets ++ leBytes 2 addr.port.toNat

/-- `Cookie::refresh_secret`: the kept secret while it is young enough, else the fresh random
bytes `rv`. -/
def refreshSecret (c : Cookie) (rv : Key) (now : Instant) : Cookie × Key :=
  match c.secret with
  | some (v, at_) =>
    if at_.elapsed now < cookieLifetime then (c, v) else ({ c with secret := some (rv, now) }, rv)
  | none => ({ c with secret := some (rv, now) }, rv)

/-- `Cookie::generate_cookie_reply`, with the random nonce and the random bytes for a new
secret as inputs. -/
def generateCookieReply (c : Cookie) (payload : Bytes) (dst : SocketAddr) (nonce : Block 24)
    (rv : Key) (now : Instant) : Outcome (Cookie × Bytes) := do
  let receiver ← payload.slice 4 8
  let lo ← Outcome.subW payload.length 32
  let mac1 ← payload.slice lo (lo + 16)
  let (c, secret) := c.refreshSecret rv now
  let msg := mac C secret.val (encodeDstAddr dst)
  let cookie ← Outcome.unwrap (xaeadEncrypt C c.cookieHash nonce msg.val mac1)
  return (c, typeHeader messageTypeCookieReply ++ (receiver ++ (nonce.val ++ cookie)))

/-- The check of the first code comes back for every packet with room for the two codes. -/
theorem validateMac1_returns (c : Cookie) {payload : Bytes} (h : 32 ≤ payload.length) :
    (c.validateMac1 C payload).Returns := by
  simp [validateMac1, splitMacs, Outcome.subW_of_le h]

end Cookie

end Vlink
