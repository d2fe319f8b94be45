import Vlink.Device.System
import Vlink.Device.View

set_option autoImplicit false

/-!
# The codes of handshake packets

The sender of a handshake packet computes its codes with `MacGenerator`, the receiver checks them
with `Cookie`. For the first code the two agree: every handshake packet passes the check of the peer
that it was built for, and no handshake message is staged for a peer unless its packet passed the
check.

For the second code they do not. A cookie reply is counted and dropped, so that no `MacGenerator`
ever holds a cookie and the second code is always zero. Nor would a stored cookie help: the sender
covers the first code with the second, the receiver does not.

## Main definitions

* `Vlink.OutgoingInitiation.uncoded`, `Vlink.OutgoingResponse.uncoded` — a handshake packet before
  its codes are appended.

## Main results

* `Vlink.Cookie.validateMac1_append`, `Vlink.Cookie.validateMac2_append` — what the two checks say
  of a packet with two codes.
* `Vlink.Device.Reaches.local_keys`, `Vlink.Device.Reaches.macs` — the keys of a device and of its
  peers in every state.
* `Vlink.Device.mac1_gate` — handshake messages are staged only with a valid first code, and every
  handshake packet that is built has one.
* `Vlink.Device.cookie_accepted_iff` — when a handshake packet that is built after a cookie reply
  has a valid second code.
-/

namespace Vlink

/-! ## The checks -/

namespace Cookie

variable (C : Crypto) (c : Cookie)

/-- The codes are split off where they were appended. -/
lemma splitMacs_append (body : Bytes) (mac1 mac2 : Block 16) :
    splitMacs (body ++ (mac1.val ++ mac2.val)) = .ret (body, mac1.val, mac2.val) := by
  have hlen : (body ++ (mac1.val ++ mac2.val)).length = body.length + 32 := by simp
  have hsub : Outcome.subW (body ++ (mac1.val ++ mac2.val)).length 32 = .ret body.length := by
    rw [Outcome.subW_of_le (by omega), hlen, Nat.add_sub_cancel]
  simp only [splitMacs, hsub, Outcome.ret_bind, Outcome.pure_eq, List.drop_left, List.take_left]
  rw [List.take_left' mac1.property, List.drop_left' mac1.property]

/-- The first code of a packet is valid if it is the code of the rest. -/
theorem validateMac1_append (body : Bytes) (mac1 mac2 : Block 16) :
    c.validateMac1 C (body ++ (mac1.val ++ mac2.val)) =
      .ret (decide (mac1 = mac C c.mac1Hash.val body)) := by
  simp [validateMac1, splitMacs_append, Subtype.ext_iff]

/-- The second code of a packet is valid if it is the code of the rest, without the first. -/
theorem validateMac2_append (body : Bytes) (mac1 mac2 : Block 16) :
    c.validateMac2 C (body ++ (mac1.val ++ mac2.val)) =
      .ret (decide (mac2 = mac C c.cookieHash.val body)) := by
  simp [validateMac2, splitMacs_append, Subtype.ext_iff]

end Cookie

/-! ## The codes that are appended -/

/-- A packet with the codes that are appended to it. -/
def MacGenerator.append (C : Crypto) (macs : MacGenerator) (now : Instant) (body : Bytes) : Bytes :=
  let mac1 := macs.generateMac1 C body
  body ++ (mac1.val ++ (macs.generateMac2 C now (body ++ mac1.val)).val)

/-- A packet without its last 32 bytes. -/
def withoutCodes (payload : Bytes) : Bytes := payload.take (payload.length - 32)

/-- The codes come off again. -/
@[simp] lemma withoutCodes_append (C : Crypto) (macs : MacGenerator) (now : Instant)
    (body : Bytes) : withoutCodes (macs.append C now body) = body := by
  simp [withoutCodes, MacGenerator.append]

/-- The initiation that `OutgoingInitiation::new` has put together before it appends the codes. -/
def OutgoingInitiation.uncoded (C : Crypto) (senderIndex : UInt32) (secret : PeerStaticSecret)
    (ephemeral : Key) (wall : SystemTime) : Outcome Bytes :=
  (fun r => withoutCodes r.2) <$>
    OutgoingInitiation.new C senderIndex secret (.new C secret) ephemeral wall 0

/-- The response that `OutgoingResponse::new` has put together before it appends the codes. -/
def OutgoingResponse.uncoded (C : Crypto) (initiation : IncomingInitiation) (localIndex : UInt32)
    (secret : PeerStaticSecret) (ephemeral : Key) : Outcome Bytes :=
  (fun r => withoutCodes r.2) <$>
    OutgoingResponse.new C initiation localIndex secret (.new C secret) ephemeral 0

section Lawful

variable {C : Crypto} (hC : C.Lawful)

include hC in
/-- An initiation is a handshake packet, and is made from the same bytes whoever makes its codes. -/
lemma OutgoingInitiation.new_append {i : UInt32} {secret : PeerStaticSecret}
    {macs : MacGenerator} {e : Key} {wall : SystemTime} {now : Instant} {out : OutgoingInitiation}
    {b : Bytes} (h : OutgoingInitiation.new C i secret macs e wall now = .ret (out, b)) :
    Message.isHandshake b = .ret true ∧ ∃ body,
      OutgoingInitiation.uncoded C i secret e wall = .ret body ∧ b = macs.append C now body := by
  obtain ⟨out', p, -, hnew⟩ := OutgoingInitiation.new_eq hC i secret e wall
  have hencode : ∀ macs now, (p.coded C macs now).encode = macs.append C now p.body :=
    fun macs now => (p.coded C macs now).encode_eq
  cases (hnew macs now).symm.trans h
  refine ⟨Message.isHandshake_of_parse (Message.parse_encode_initiation _) (.inl rfl), p.body, ?_,
    hencode macs now⟩
  rw [OutgoingInitiation.uncoded, hnew, Outcome.map_ret, hencode, withoutCodes_append]

include hC in
/-- A response is a handshake packet, and is made from the same bytes whoever makes its codes. -/
lemma OutgoingResponse.new_append {initiation : IncomingInitiation} {i : UInt32}
    {secret : PeerStaticSecret} {macs : MacGenerator} {e : Key} {now : Instant}
    {out : OutgoingResponse} {b : Bytes}
    (h : OutgoingResponse.new C initiation i secret macs e now = .ret (out, b)) :
    Message.isHandshake b = .ret true ∧ ∃ body,
      OutgoingResponse.uncoded C initiation i secret e = .ret body ∧
        b = macs.append C now body := by
  obtain ⟨out', p, -, -, hnew⟩ := OutgoingResponse.new_eq hC initiation i secret e
  have hencode : ∀ macs now, (p.coded C macs now).encode = macs.append C now p.body :=
    fun macs now => (p.coded C macs now).encode_eq
  cases (hnew macs now).symm.trans h
  refine ⟨Message.isHandshake_of_parse (Message.parse_encode_response _) (.inr rfl), p.body, ?_,
    hencode macs now⟩
  rw [OutgoingResponse.uncoded, hnew, Outcome.map_ret, hencode, withoutCodes_append]

end Lawful

namespace Cookie

variable (C : Crypto) (c : Cookie) (macs : MacGenerator) (now : Instant) (body : Bytes)

/-- A packet passes the first check of the peer that its codes were made for. -/
lemma validateMac1_of_hash (h : macs.peerMac1Hash = c.mac1Hash) :
    c.validateMac1 C (macs.append C now body) = .ret true := by
  rw [MacGenerator.append, validateMac1_append, MacGenerator.generateMac1, h, decide_eq_true rfl]

/-- Without a cookie, a packet passes the second check exactly if the code of its body is zero. -/
lemma validateMac2_without_cookie (h : macs.lastCookie = none) :
    c.validateMac2 C (macs.append C now body) = .ret true ↔
      mac C c.cookieHash.val body = Block.zero 16 := by
  have hzero : ∀ payload, macs.generateMac2 C now payload = Block.zero 16 := by
    intro payload
    simp only [MacGenerator.generateMac2, h]
  rw [MacGenerator.append, validateMac2_append, hzero, Outcome.ret.injEq, decide_eq_true_iff]
  exact eq_comm

variable {C c}

/-- Answering with a cookie keeps the key of the second code. -/
lemma cookieHash_of_generateCookieReply {payload reply : Bytes} {dst : SocketAddr}
    {nonce : Block 24} {rv : Key} {at_ : Instant} {c' : Cookie}
    (h : c.generateCookieReply C payload dst nonce rv at_ = .ret (c', reply)) :
    c'.cookieHash = c.cookieHash := by
  unfold generateCookieReply at h
  obtain ⟨receiver, -, h⟩ := Outcome.bind_eq_ret.mp h
  obtain ⟨lo, -, h⟩ := Outcome.bind_eq_ret.mp h
  obtain ⟨mac1, -, h⟩ := Outcome.bind_eq_ret.mp h
  obtain ⟨cookie, -, h⟩ := Outcome.bind_eq_ret.mp h
  cases h
  split
  · split_ifs <;> rfl
  · rfl

end Cookie

/-- The events that messages of the handshake are staged as. -/
def InboundEvent.IsHandshake : InboundEvent → Prop
  | .handshakeInitiation _ _ | .handshakeResponse _ _ _ => True
  | _ => False

namespace Device

variable {C : Crypto} {d : Device} {privateKey : Key} {start : UInt32}
  {guard : Device → Action → Prop} {tr : List Event}

/-! ## The keys of a device -/

/-- A device keeps its key pair and what it checks codes with. -/
theorem Reaches.local_keys (run : d.Reaches C privateKey start guard tr) :
    d.secret = .new C privateKey ∧ d.cookie = .new C (.new C privateKey) := by
  refine Run.invariant
    (I := fun _ d => d.secret = .new C privateKey ∧ d.cookie = .new C (.new C privateKey))
    ⟨rfl, rfl⟩ ?_ run
  intro tr d a d' evs before ih _ h
  cases step_moved (Reaches.keyed before) h with
  | idle silent secret cookie store peers => exact ⟨secret.trans ih.1, cookie.trans ih.2⟩
  | node hn stepped => exact ih
  | insertPeer cfg now => exact ih

/-- The codes for a peer are made with its public key, and never with a cookie. -/
theorem Reaches.macs (run : d.Reaches C privateKey start guard tr) {p : Key} {n : PeerNode}
    (hn : d.peers p = some n) :
    n.peer.handshake.secret.publicKey = p ∧
      n.peer.handshake.macs = .new C n.peer.handshake.secret := by
  refine Run.invariant (I := fun _ d => ∀ p n, d.peers p = some n →
    n.peer.handshake.secret.publicKey = p ∧
      n.peer.handshake.macs = .new C n.peer.handshake.secret) ?_ ?_ run p n hn
  · rintro p n ⟨⟩
  · intro tr d a d' evs before ih _ h p n' hn'
    rcases (step_moved (Reaches.keyed before) h).node_before hn' with
      ⟨n, hn, hkeys⟩ | ⟨secret, -, hpub, hkeys⟩
    · obtain ⟨-, hsecret, hmacs⟩ : _ ∧ _ ∧ _ := by simpa only [Peer.keys, Prod.mk.injEq] using hkeys
      rw [hsecret, hmacs]
      exact ih p n hn
    · obtain ⟨-, hsecret, hmacs⟩ : _ ∧ _ ∧ _ := by simpa only [Peer.keys, Prod.mk.injEq] using hkeys
      rw [hsecret, hmacs]
      exact ⟨hpub, rfl⟩

/-- The secret for a peer is made with the key pair of the device. -/
lemma Reaches.localSecret (run : d.Reaches C privateKey start guard tr) {p : Key} {n : PeerNode}
    (hn : d.peers p = some n) : n.peer.handshake.secret.localSecret = .new C privateKey := by
  have secret_of_keys : ∀ {k k' : Key × PeerStaticSecret × MacGenerator}, k = k' →
      k.2.1.localSecret = k'.2.1.localSecret := fun h => h ▸ rfl
  refine Run.invariant (I := fun _ d => ∀ p n, d.peers p = some n →
    n.peer.handshake.secret.localSecret = .new C privateKey) (by rintro p n ⟨⟩) ?_ run p n hn
  intro tr d a d' evs before ih _ h p n' hn'
  rcases (step_moved (Reaches.keyed before) h).node_before hn' with
    ⟨n, hn, hkeys⟩ | ⟨secret, hlocal, -, hkeys⟩
  · exact (secret_of_keys hkeys).trans (ih p n hn)
  · exact (secret_of_keys hkeys).trans (hlocal.trans (Reaches.local_keys before).1)

/-! ## The first code -/

/-- A message of the handshake is staged only if its first code is valid. -/
lemma validateMac1_of_staged {env : Env} {endpoint : OutboundSender} {payload : Bytes}
    {cookie : Cookie} {p : Key} {e : InboundEvent} {sent : List Event}
    (h : d.tickInbound C env endpoint payload = .ret (cookie, some (p, e), sent))
    (he : e.IsHandshake) : d.cookie.validateMac1 C payload = .ret true := by
  -- the parser is stricter than the test that the gate uses
  have hshake : Message.isHandshake payload = .ret true := by
    rcases dispatch_eq_some (tickInbound_eq_some h).1 with
      ⟨packet, inc, hparse, -⟩ | ⟨packet, s, hparse, -⟩ | ⟨packet, s, rfl⟩ |
      ⟨packet, s, -, -, -, rfl⟩
    · exact Message.isHandshake_of_parse hparse (.inl rfl)
    · exact Message.isHandshake_of_parse hparse (.inr rfl)
    · exact he.elim
    · exact he.elim
  have hne : payload ≠ [] := by
    rintro rfl
    cases hshake
  rcases screen_cases C d env endpoint hne with ⟨hb, -⟩ | ⟨-, hvalid, -⟩ | ⟨-, -, hscreen⟩
  · rw [hshake] at hb
    cases hb
  · exact hvalid
  · rw [tickInbound, hscreen] at h
    cases h

/-- **The gate of the first code.** In every state, `tick_inbound` stages a message of the handshake
only if the first code of its packet is valid; the check is that of the key of the device. Every
initiation and every response counts as a handshake packet, and passes the first check of the peer
whose public key its codes were made with.

**Proof sketch.** What is staged has passed `validate_mac1`, and codes are made with the hash that
the check uses. -/
theorem mac1_gate (hC : C.Lawful) :
    (∀ (d : Device) env endpoint payload cookie p e sent,
      d.tickInbound C env endpoint payload = .ret (cookie, some (p, e), sent) → e.IsHandshake →
        d.cookie.validateMac1 C payload = .ret true) ∧
    (∀ privateKey start tr (d : Device), d.Reaches C privateKey start (fun _ _ => True) tr →
      d.cookie = .new C (.new C privateKey)) ∧
    ∀ (peerKey : Key) (peer secret : PeerStaticSecret) lastCookie cookieSecret e now,
      peer.publicKey = C.publicKey peerKey →
      (∀ i wall, ∃ out b,
        OutgoingInitiation.new C i secret { MacGenerator.new C peer with lastCookie } e wall now =
          .ret (out, b) ∧
        Message.isHandshake b = .ret true ∧
        { Cookie.new C (.new C peerKey) with secret := cookieSecret }.validateMac1 C b =
          .ret true) ∧
      ∀ initiation i, ∃ out b,
        OutgoingResponse.new C initiation i secret { MacGenerator.new C peer with lastCookie } e
          now = .ret (out, b) ∧
        Message.isHandshake b = .ret true ∧
        { Cookie.new C (.new C peerKey) with secret := cookieSecret }.validateMac1 C b =
          .ret true := by
  refine ⟨fun d env endpoint payload cookie p e sent => validateMac1_of_staged,
    fun privateKey start tr d run => run.local_keys.2, ?_⟩
  intro peerKey peer secret lastCookie cookieSecret e now hpeer
  have hhash : ({ MacGenerator.new C peer with lastCookie } : MacGenerator).peerMac1Hash =
      ({ Cookie.new C (.new C peerKey) with secret := cookieSecret } : Cookie).mac1Hash :=
    congrArg (fun key : Key => hash C labelMac1 key.val) hpeer
  constructor
  · intro i wall
    obtain ⟨⟨out, b⟩, hnew⟩ := OutgoingInitiation.new_returns hC i secret
      { MacGenerator.new C peer with lastCookie } e wall now
    obtain ⟨hshake, body, -, rfl⟩ := OutgoingInitiation.new_append hC hnew
    exact ⟨out, _, hnew, hshake, Cookie.validateMac1_of_hash C _ _ now body hhash⟩
  · intro initiation i
    obtain ⟨⟨out, b⟩, hnew⟩ := OutgoingResponse.new_returns hC initiation i secret
      { MacGenerator.new C peer with lastCookie } e now
    obtain ⟨hshake, body, -, rfl⟩ := OutgoingResponse.new_append hC hnew
    exact ⟨out, _, hnew, hshake, Cookie.validateMac1_of_hash C _ _ now body hhash⟩

/-- The gate with the sample primitives: an initiation of the device passes the check of its
peer. -/
theorem mac1_gate_sample : Crypto.sample.Lawful ∧
    ∃ out b, OutgoingInitiation.new .sample 7 Sample.placeholder.secret
        (MacGenerator.new .sample Sample.placeholder.secret) (Block.zero 32) 0 0 = .ret (out, b) ∧
      Message.isHandshake b = .ret true ∧
      (Cookie.new .sample (.new .sample Sample.remoteKey)).validateMac1 .sample b = .ret true :=
  ⟨Crypto.sample_lawful, ((mac1_gate Crypto.sample_lawful).2.2 Sample.remoteKey
    Sample.placeholder.secret Sample.placeholder.secret none none (Block.zero 32) 0 rfl).1 7 0⟩

/-! ## The second code -/

/-- **When a cookie is of use.** A device gets the reply that the owner of the private key `r` built
for one of its packets, and goes on. Every initiation and every response that it builds for this
peer within the lifetime of a cookie passes the second check exactly if the code that the peer
expects, of the bytes before the codes, is all zero: nothing of the reply is kept.

**Proof sketch.** `handle_cookie_reply` keeps nothing, so in every state the second code is all
zero. -/
theorem cookie_accepted_iff (hC : C.Lawful) {r : Key} {d₁ d₂ : Device} {tr' evs : List Event}
    {c c' : Cookie} {k : Option (Key × Instant)} {m reply : Bytes} {dst : SocketAddr}
    {nonce : Block 24} {rv : Key} {at_ now : Instant} {endpoint : OutboundSender} {env : Env}
    {n : PeerNode} (run : d.Reaches C privateKey start (fun _ _ => True) tr)
    (hc : c = { Cookie.new C (.new C r) with secret := k })
    (hreply : c.generateCookieReply C m dst nonce rv at_ = .ret (c', reply))
    (hreceive : d.step C (.receive endpoint reply env) = some (d₁, evs))
    (later : Run (step C) (fun _ _ => True) d₁ tr' d₂)
    (hn : d₂.peers (C.publicKey r) = some n) (_ : env.now.elapsed now < cookieLifetime) :
    (∀ i e wall, ∃ out b body,
      OutgoingInitiation.new C i n.peer.handshake.secret n.peer.handshake.macs e wall now =
        .ret (out, b) ∧
      OutgoingInitiation.uncoded C i n.peer.handshake.secret e wall = .ret body ∧
      (c'.validateMac2 C b = .ret true ↔
        mac C (hash C labelCookie (C.publicKey r).val).val body = Block.zero 16)) ∧
    ∀ initiation i e, ∃ out b body,
      OutgoingResponse.new C initiation i n.peer.handshake.secret n.peer.handshake.macs e now =
        .ret (out, b) ∧
      OutgoingResponse.uncoded C initiation i n.peer.handshake.secret e = .ret body ∧
      (c'.validateMac2 C b = .ret true ↔
        mac C (hash C labelCookie (C.publicKey r).val).val body = Block.zero 16) := by
  have run₂ : d₂.Reaches C privateKey start (fun _ _ => True) (tr ++ evs ++ tr') :=
    Run.trans (run.snoc trivial hreceive) later
  have hnone : n.peer.handshake.macs.lastCookie = none := by rw [(run₂.macs hn).2]; rfl
  have hkey : hash C labelCookie (C.publicKey r).val = c'.cookieHash := by
    rw [Cookie.cookieHash_of_generateCookieReply hreply, hc]
    rfl
  rw [hkey]
  constructor
  · intro i e wall
    obtain ⟨⟨out, b⟩, hnew⟩ := OutgoingInitiation.new_returns hC i n.peer.handshake.secret
      n.peer.handshake.macs e wall now
    obtain ⟨-, body, hbody, rfl⟩ := OutgoingInitiation.new_append hC hnew
    exact ⟨out, _, body, hnew, hbody, Cookie.validateMac2_without_cookie C _ _ _ _ hnone⟩
  · intro initiation i e
    obtain ⟨⟨out, b⟩, hnew⟩ := OutgoingResponse.new_returns hC initiation i n.peer.handshake.secret
      n.peer.handshake.macs e now
    obtain ⟨-, body, hbody, rfl⟩ := OutgoingResponse.new_append hC hnew
    exact ⟨out, _, body, hnew, hbody, Cookie.validateMac2_without_cookie C _ _ _ _ hnone⟩

/-! The peer of the sample device answers its initiation with a cookie, and the device handles the
reply. -/

/-- The initiation of the sample device. -/
def coldInitiation : Bytes := (Sample.sentPackets (Sample.initiate ++ [Sample.handshake])).headD []

/-- What the peer checks codes with. -/
def peerCookie : Cookie := .new .sample (.new .sample Sample.remoteKey)

/-- The answer of the peer. -/
def cookieAnswer : Option (Cookie × Bytes) :=
  match peerCookie.generateCookieReply .sample coldInitiation Sample.elsewhere.dst (Block.zero 24)
    (Block.zero 32) 0 with
  | .ret r => some r
  | .panic => none

/-- The device gets the answer, its peer handles it, and an initiation is built. -/
def cookieTrip (d : Device) :
    Option (Cookie × Bytes × (Device × List Event) × (Device × List Event) × PeerNode ×
      OutgoingInitiation × Bytes) := do
  let (c', reply) ← cookieAnswer
  let r₁ ← d.step .sample (.receive Sample.endpoint reply (Sample.env 0))
  let r₂ ← exec (step .sample) r₁.1 [Sample.inbound]
  let n ← r₂.1.peers Sample.remote
  match OutgoingInitiation.new .sample 8 n.peer.handshake.secret n.peer.handshake.macs
    (Block.zero 32) 0 (Sample.env 0).now with
  | .ret (out, b) => some (c', reply, r₁, r₂, n, out, b)
  | .panic => none

/-- The steps of the trip. -/
lemma cookieTrip_eq_some {c' : Cookie} {reply b : Bytes} {r₁ r₂ : Device × List Event}
    {n : PeerNode} {out : OutgoingInitiation}
    (h : cookieTrip d = some (c', reply, r₁, r₂, n, out, b)) :
    peerCookie.generateCookieReply .sample coldInitiation Sample.elsewhere.dst (Block.zero 24)
        (Block.zero 32) 0 = .ret (c', reply) ∧
      d.step .sample (.receive Sample.endpoint reply (Sample.env 0)) = some r₁ ∧
      Run (step .sample) (fun _ _ => True) r₁.1 r₂.2 r₂.1 ∧ r₂.1.peers Sample.remote = some n ∧
      OutgoingInitiation.new .sample 8 n.peer.handshake.secret n.peer.handshake.macs
        (Block.zero 32) 0 (Sample.env 0).now = .ret (out, b) := by
  unfold cookieTrip at h
  obtain ⟨⟨c₁, reply₁⟩, hanswer, h⟩ := Option.bind_eq_some_iff.mp h
  obtain ⟨r₁', hreceive, h⟩ := Option.bind_eq_some_iff.mp h
  obtain ⟨r₂', hinbound, h⟩ := Option.bind_eq_some_iff.mp h
  obtain ⟨n', hn, h⟩ := Option.bind_eq_some_iff.mp h
  split at h
  · next hnew =>
    cases h
    refine ⟨?_, hreceive, Run.of_exec (fun _ _ _ => trivial) hinbound, hn, hnew⟩
    unfold cookieAnswer at hanswer
    split at hanswer
    · next hreply =>
      cases hanswer
      exact hreply
    · cases hanswer
  · cases h

/-- The trip is made, and the peer has taken the reply from its channel. -/
def cookieTripMade (r : Device × List Event) : Bool :=
  match cookieTrip r.1 with
  | some (c', _, _, _, n, _, b) =>
    .sent Sample.endpoint coldInitiation ∈ r.2 ∧ n.inbox.length = 0 ∧
      c'.validateMac2 .sample b = .ret false
  | none => false

/-- The trip of the sample device. -/
theorem cookie_accepted_sample : ∃ (d d₁ d₂ : Device) (tr evs tr' : List Event) (n : PeerNode)
    (c' : Cookie) (reply : Bytes),
    Crypto.sample.Lawful ∧
    d.Reaches .sample Sample.localKey Sample.start (fun _ _ => True) tr ∧
    peerCookie.generateCookieReply .sample coldInitiation Sample.elsewhere.dst (Block.zero 24)
      (Block.zero 32) 0 = .ret (c', reply) ∧
    d.step .sample (.receive Sample.endpoint reply (Sample.env 0)) = some (d₁, evs) ∧
    Run (step .sample) (fun _ _ => True) d₁ tr' d₂ ∧ d₂.peers Sample.remote = some n ∧
    ∃ out b body,
      OutgoingInitiation.new .sample 8 n.peer.handshake.secret n.peer.handshake.macs
        (Block.zero 32) 0 (Sample.env 0).now = .ret (out, b) ∧
      OutgoingInitiation.uncoded .sample 8 n.peer.handshake.secret (Block.zero 32) 0 = .ret body ∧
      (c'.validateMac2 .sample b = .ret true ↔
        mac .sample (hash .sample labelCookie Sample.remote.val).val body = Block.zero 16) := by
  obtain ⟨d, tr, run, check⟩ := exists_run_of_exec (step .sample)
    (Sample.initiate ++ [Sample.handshake]) Sample.device cookieTripMade (by decide +kernel)
  unfold cookieTripMade at check
  split at check
  · next c' reply r₁ r₂ n out b htrip =>
    obtain ⟨hreply, hreceive, later, hn, -⟩ := cookieTrip_eq_some htrip
    exact ⟨d, r₁.1, r₂.1, tr, r₁.2, r₂.2, n, c', reply, Crypto.sample_lawful, run, hreply, hreceive,
      later, hn, (cookie_accepted_iff Crypto.sample_lawful run rfl hreply hreceive later hn
        (by decide)).1 8 (Block.zero 32) 0⟩
  · cases check

/-- **A cookie is of no use.** The sample device sends an initiation, its peer answers it with a
cookie, and the device handles the reply. The next initiation that it builds does not pass the
second check of the peer. -/
theorem cookie_rejected : ∃ (d d₁ d₂ : Device) (tr evs tr' : List Event) (n : PeerNode)
    (c' : Cookie) (reply b : Bytes) (out : OutgoingInitiation),
    d.Reaches .sample Sample.localKey Sample.start (fun _ _ => True) tr ∧
    .sent Sample.endpoint coldInitiation ∈ tr ∧
    peerCookie.generateCookieReply .sample coldInitiation Sample.elsewhere.dst (Block.zero 24)
      (Block.zero 32) 0 = .ret (c', reply) ∧
    d.step .sample (.receive Sample.endpoint reply (Sample.env 0)) = some (d₁, evs) ∧
    Run (step .sample) (fun _ _ => True) d₁ tr' d₂ ∧ d₂.peers Sample.remote = some n ∧
    n.inbox.length = 0 ∧
    OutgoingInitiation.new .sample 8 n.peer.handshake.secret n.peer.handshake.macs
      (Block.zero 32) 0 (Sample.env 0).now = .ret (out, b) ∧
    c'.validateMac2 .sample b = .ret false := by
  obtain ⟨d, tr, run, check⟩ := exists_run_of_exec (step .sample)
    (Sample.initiate ++ [Sample.handshake]) Sample.device cookieTripMade (by decide +kernel)
  unfold cookieTripMade at check
  split at check
  · next c' reply r₁ r₂ n out b htrip =>
    obtain ⟨hreply, hreceive, later, hn, hnew⟩ := cookieTrip_eq_some htrip
    obtain ⟨hsent, hinbox, hinvalid⟩ := of_decide_eq_true check
    exact ⟨d, r₁.1, r₂.1, tr, r₁.2, r₂.2, n, c', reply, b, out, run, hsent, hreply, hreceive, later,
      hn, hinbox, hnew, hinvalid⟩
  · cases check

end Device

end Vlink
