import Vlink.Device.Handshake
import Vlink.Noise.Sample

set_option autoImplicit false

/-!
# The two ends of a handshake agree

An undisturbed handshake between two peers succeeds and leaves them with mirrored sessions: what
one seals, the other opens.

## Main definitions

* `Vlink.Paired` — two static secrets that name each other and share the pre-shared key.
* `Vlink.Session.Mirrors`, `Vlink.Session.Delivers` — keys and indexes of two sessions are
  exchanged; what one seals, the other opens.
* `Vlink.Handshake.Completes` — all the steps of an undisturbed handshake succeed.

## Main results

* `Vlink.initiation_agreement`, `Vlink.response_agreement` — reading each of the two messages
  rebuilds the transcript hash and the chaining key of its sender.
* `Vlink.Handshake.agreement` — the whole handshake.
-/

namespace Vlink

/-- Two static secrets whose owners know each other's public key and share a key. -/
structure Paired (C : Crypto) (sa sb : PeerStaticSecret) : Prop where
  own_left : sa.localSecret.publicKey = C.publicKey sa.localSecret.privateKey
  own_right : sb.localSecret.publicKey = C.publicKey sb.localSecret.privateKey
  peer_left : sa.publicKey = sb.localSecret.publicKey
  peer_right : sb.publicKey = sa.localSecret.publicKey
  psk : sa.psk = sb.psk

section Messages

variable {C : Crypto} (hC : C.Lawful) {sa sb : PeerStaticSecret}

include hC in
/-- **The first message.** The initiation that `sa` builds is read by `sb`: it recovers the
static key, the timestamp, the transcript hash and the chaining key. -/
theorem initiation_agreement (hp : Paired C sa sb) (i : UInt32) (macs : MacGenerator) (e : Key)
    (wall : SystemTime) (now : Instant) :
    ∃ out packet,
      OutgoingInitiation.new C i sa macs e wall now = .ret (out, packet.encode) ∧
      out.index = i ∧ out.ephemeralPrivateKey = e ∧
      IncomingInitiation.parse C sb.localSecret packet = .ret (.ok ⟨i, out.hash, out.chainingKey,
        Timestamp.stamp wall, C.publicKey e, sa.localSecret.publicKey⟩) := by
  obtain ⟨⟨out, payload⟩, hnew⟩ := OutgoingInitiation.new_returns hC i sa macs e wall now
  have hnew' := hnew
  unfold OutgoingInitiation.new at hnew'
  obtain ⟨staticKey, hstatic, hnew'⟩ := Outcome.bind_eq_ret.mp hnew'
  obtain ⟨timestamp, htime, hnew'⟩ := Outcome.bind_eq_ret.mp hnew'
  rw [Outcome.unwrap_eq_ret] at hstatic htime
  have lstatic : staticKey.length = 48 := by simp [length_of_aeadEncrypt hC hstatic]
  have ltime : timestamp.length = 28 := by simp [length_of_aeadEncrypt hC htime]
  have dstatic := aeadDecrypt_of_aeadEncrypt hC hstatic
  have dtime := aeadDecrypt_of_aeadEncrypt hC htime
  simp only [Outcome.pure_eq, Outcome.ret.injEq, Prod.mk.injEq] at hnew'
  obtain ⟨hout, hpayload⟩ := hnew'
  generalize macs.generateMac1 C _ = mac1 at hpayload
  generalize macs.generateMac2 C now _ = mac2 at hpayload
  refine ⟨out, ⟨i, C.publicKey e, ⟨staticKey, lstatic⟩, ⟨timestamp, ltime⟩, mac1, mac2⟩,
    ?_, by rw [← hout], by rw [← hout], ?_⟩
  · rw [hnew, ← hpayload]
    simp [HandshakeInitiation.encode]
  · -- Both Diffie-Hellman secrets are those of the sender, so the same keys open the fields.
    have dh₁ : C.diffieHellman sb.localSecret.privateKey (C.publicKey e) =
        C.diffieHellman e sa.publicKey := by
      rw [hp.peer_left, hp.own_right, hC.dh_comm]
    have dh₂ : C.diffieHellman sb.localSecret.privateKey sa.localSecret.publicKey =
        C.diffieHellman sa.localSecret.privateKey sa.publicKey := by
      rw [hp.peer_left, hp.own_right, hp.own_left, hC.dh_comm]
    simp only [IncomingInitiation.parse, kdf2, dh₁, ← hp.peer_left, dstatic, Outcome.propagate_ok,
      Bytes.toBlock_val, Outcome.ret_bind, dh₂, dtime, ← hout]
    rfl

include hC in
/-- **The second message.** The response that `sb` builds for an initiation of `sa` is read by
`sa`, which arrives at the same chaining key. -/
theorem response_agreement (hp : Paired C sa sb) (out : OutgoingInitiation)
    (inc : IncomingInitiation) (hash : inc.hash = out.hash)
    (chain : inc.chainingKey = out.chainingKey)
    (eph : inc.ephemeralPublicKey = C.publicKey out.ephemeralPrivateKey)
    (j : UInt32) (macs : MacGenerator) (e : Key) (now : Instant) :
    ∃ resp packet,
      OutgoingResponse.new C inc j sb macs e now = .ret (resp, packet.encode) ∧
      packet.receiverIndex = inc.index ∧
      IncomingResponse.parse C out sa packet =
        .ok ⟨j, C.publicKey e, resp.hash, resp.chainingKey⟩ := by
  obtain ⟨⟨resp, payload⟩, hnew⟩ := OutgoingResponse.new_returns hC inc j sb macs e now
  have hnew' := hnew
  unfold OutgoingResponse.new at hnew'
  obtain ⟨empty, hempty, hnew'⟩ := Outcome.bind_eq_ret.mp hnew'
  rw [Outcome.unwrap_eq_ret] at hempty
  have lempty : empty.length = 16 := by simp [length_of_aeadEncrypt hC hempty]
  have dempty := aeadDecrypt_of_aeadEncrypt hC hempty
  simp only [Outcome.pure_eq, Outcome.ret.injEq, Prod.mk.injEq] at hnew'
  obtain ⟨hresp, hpayload⟩ := hnew'
  generalize macs.generateMac1 C _ = mac1 at hpayload
  generalize macs.generateMac2 C now _ = mac2 at hpayload
  refine ⟨resp, ⟨j, inc.index, C.publicKey e, ⟨empty, lempty⟩, mac1, mac2⟩, ?_, rfl, ?_⟩
  · rw [hnew, ← hpayload]
    simp [HandshakeResponse.encode]
  · have dh₁ : C.diffieHellman out.ephemeralPrivateKey (C.publicKey e) =
        C.diffieHellman e inc.ephemeralPublicKey := by
      rw [eph, hC.dh_comm]
    have dh₂ : C.diffieHellman sa.localSecret.privateKey (C.publicKey e) =
        C.diffieHellman e sb.publicKey := by
      rw [hp.peer_right, hp.own_left, hC.dh_comm]
    simp only [IncomingResponse.parse, ← hash, ← chain, dh₁, dh₂, hp.psk, kdf3, dempty, ← hresp]
    rfl

end Messages

/-! ## Mirrored sessions -/

namespace Session

/-- The keys and the indexes of two sessions are exchanged. -/
structure Mirrors (s s' : Session) : Prop where
  senderKey : s.senderKey = s'.receiverKey
  receiverKey : s.receiverKey = s'.senderKey
  senderIndex : s.senderIndex = s'.receiverIndex
  receiverIndex : s.receiverIndex = s'.senderIndex

/-- What `s` seals arrives at `s'`: data below the length limit is sealed, and every packet
that comes out of sealing is parsed and opened to the data. -/
def Delivers (C : Crypto) (s s' : Session) : Prop :=
  ∀ heap data,
    (data.length < maxPlaintext → ∃ packet heap', s.encryptData C heap data = (.ok packet, heap')) ∧
    ∀ packet heap', s.encryptData C heap data = (.ok packet, heap') →
      Message.parse packet.toBytes = .ret (.ok (.transportData packet)) ∧
      s'.decryptData C packet = .ok data

variable {C : Crypto} {s s' : Session}

/-- Mirroring is symmetric. -/
lemma Mirrors.symm (h : s.Mirrors s') : s'.Mirrors s :=
  ⟨h.receiverKey.symm, h.senderKey.symm, h.receiverIndex.symm, h.senderIndex.symm⟩

/-- Mirrored sessions understand each other. -/
lemma Mirrors.delivers (hC : C.Lawful) (h : s.Mirrors s') : s.Delivers C s' := by
  intro heap data
  constructor
  · intro hlen
    obtain ⟨c, hc, -⟩ := aeadEncrypt_ok hC s.senderKey (s.nextNonce heap).1 data [] hlen
    exact ⟨⟨s.receiverIndex, (s.nextNonce heap).1, c⟩, _, by simp only [encryptData, hc]; rfl⟩
  · intro packet heap' he
    refine ⟨Message.parse_toBytes packet, ?_⟩
    cases hc : aeadEncrypt C s.senderKey (s.nextNonce heap).1 data [] with
    | error e => simp [encryptData, hc] at he
    | ok c =>
      simp only [encryptData, hc, Prod.mk.injEq, Except.ok.injEq] at he
      obtain ⟨rfl, -⟩ := he
      rw [decryptData, if_neg (by simp [h.receiverIndex]), ← h.senderKey]
      exact aeadDecrypt_of_aeadEncrypt hC hc

end Session

/-! ## The whole handshake -/

/-- Secrets built from two key pairs and a common pre-shared key are paired. -/
lemma paired_withPeer (C : Crypto) (a b psk : Key) :
    Paired C (((LocalStaticSecret.new C a).withPeer (C.publicKey b)).setPsk psk)
      (((LocalStaticSecret.new C b).withPeer (C.publicKey a)).setPsk psk) :=
  ⟨rfl, rfl, rfl, rfl, rfl⟩

/-- An undisturbed handshake of `A`, with the private key `a`, and `B`, with the private key
`b`: the initiation that `A` builds is parsed and read by `B`, which recovers the static key of
`A`; the response of `B` is parsed and finalized by `A`, whatever became of its store in between;
and the two sessions mirror each other and deliver to each other. -/
def Handshake.Completes (C : Crypto) (a b psk : Key) (stateA stateB : HandshakeState)
    (macsA macsB : MacGenerator) (stA stB : Store) (envA envB : Env) : Prop :=
  let secretA := ((LocalStaticSecret.new C a).withPeer (C.publicKey b)).setPsk psk
  let secretB := ((LocalStaticSecret.new C b).withPeer (C.publicKey a)).setPsk psk
  ∃ hsA stA₁ pre initiation p inc stB₁ sB response r,
    Handshake.initiate C ⟨stateA, secretA, macsA⟩ stA envA =
      .ret (hsA, stA₁, pre, initiation) ∧
    Message.parse initiation = .ret (.ok (.handshakeInitiation p)) ∧
    IncomingInitiation.parse C secretB.localSecret p = .ret (.ok inc) ∧
    inc.staticPublicKey = C.publicKey a ∧
    Handshake.respond C ⟨stateB, secretB, macsB⟩ stB envB inc =
      .ret (.ok (stB₁, sB, response)) ∧
    Message.parse response = .ret (.ok (.handshakeResponse r)) ∧
    ∀ stA₂, ∃ stA₃ sA, hsA.finalize C stA₂ r = .ok (stA₃, sA) ∧ sA.Mirrors sB ∧
      sA.Delivers C sB ∧ sB.Delivers C sA

/-- **Agreement.** Every undisturbed handshake completes, whatever keys and indexes are used and
whatever state the two handshakes were in.

**Proof sketch.** `initiation_agreement` and `response_agreement` give the same chaining key on
both sides; `respond` and `finalize` split it in opposite order. -/
theorem Handshake.agreement {C : Crypto} (hC : C.Lawful) (a b psk : Key)
    (stateA stateB : HandshakeState) (macsA macsB : MacGenerator) (stA stB : Store)
    (envA envB : Env) :
    Handshake.Completes C a b psk stateA stateB macsA macsB stA stB envA envB := by
  unfold Handshake.Completes
  intro secretA secretB
  have hp : Paired C secretA secretB := paired_withPeer C a b psk
  obtain ⟨out, p, hnew, hindex, heph, hinc⟩ :=
    initiation_agreement hC hp stA.index.index macsA envA.ephemeral envA.wall envA.now
  obtain ⟨resp, r, hresp, -, hret⟩ :=
    response_agreement hC hp out ⟨stA.index.index, out.hash, out.chainingKey,
      Timestamp.stamp envA.wall, C.publicKey envA.ephemeral, secretA.localSecret.publicKey⟩
      rfl rfl (by rw [heph]) stB.index.index macsB envB.ephemeral envB.now
  refine ⟨_, _, _, _, p, _, _, _, _, r, Handshake.initiate_eq_ret.mpr ⟨out, _, hnew, rfl⟩,
    Message.parse_encode_initiation p, hinc, rfl,
    Handshake.respond_eq_ret.mpr ⟨resp, _, hresp, rfl⟩, Message.parse_encode_response r,
    fun stA₂ => ⟨_, _, Handshake.finalize_eq_ok.mpr ⟨out, _, rfl, hret, rfl⟩, ?_⟩⟩
  have mirrors : Session.Mirrors
      ⟨secretA, out.index, (kdf2 C resp.chainingKey.val []).1, stB.index.index,
        (kdf2 C resp.chainingKey.val []).2, stA₂.heap.size⟩
      ⟨secretB, stB.index.index, (kdf2 C resp.chainingKey.val []).2, stA.index.index,
        (kdf2 C resp.chainingKey.val []).1, stB.heap.size⟩ :=
    ⟨rfl, rfl, hindex, rfl⟩
  exact ⟨mirrors, mirrors.delivers hC, mirrors.symm.delivers hC⟩

/-- The laws hold for the sample instance, and so does agreement. -/
theorem Handshake.agreement_sample :
    Crypto.sample.Lawful ∧
      Handshake.Completes .sample (Crypto.leBlock 32 11) (Crypto.leBlock 32 22)
        (Crypto.leBlock 32 33) .uninit .uninit
        ⟨Block.zero 32, Block.zero 32, none⟩ ⟨Block.zero 32, Block.zero 32, none⟩
        ⟨.new 5, .empty⟩ ⟨.new 7, .empty⟩
        ⟨0, 0, Crypto.leBlock 32 44, Block.zero 24, Block.zero 32, true⟩
        ⟨1, 0, Crypto.leBlock 32 55, Block.zero 24, Block.zero 32, true⟩ :=
  ⟨Crypto.sample_lawful, Handshake.agreement Crypto.sample_lawful ..⟩

end Vlink
