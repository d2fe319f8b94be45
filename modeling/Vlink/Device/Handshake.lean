import Vlink.Device.ActiveSession
import Vlink.Noise.Built

set_option autoImplicit false

/-!
# The handshake of a peer

`device/peer/handshake.rs`: the state of the handshake with one peer, and the three operations
that build sessions from it. The index and the heap of sessions, which all peers share, are
passed along.

## Main definitions

* `Vlink.Env` — what a step of the program reads from outside: clocks, random bytes, and whether
  sending succeeds.
* `Vlink.Store` — the session index with the heap of session cells.
* `Vlink.Handshake.initiate`, `respond`, `finalize` — the operations.

## Main results

* `Vlink.Handshake.initiate_eq_ret`, `respond_eq_ret`, `finalize_eq_ok` — the session each
  operation builds: it has a new cell, and the index that was drawn for it.
* `Vlink.Handshake.initiate_returns`, `respond_returns` — sealing the fixed-size fields never
  fails, so neither operation panics.
-/

namespace Vlink

/-- What one step reads from outside: the two clocks, random bytes for a new key and for a
cookie reply, and whether sending to an endpoint succeeds. -/
structure Env where
  now : Instant
  wall : SystemTime
  ephemeral : Key
  rand24 : Block 24
  rand32 : Key
  sendOk : Bool

/-- The sessions of all peers: the index, and the cells. -/
structure Store where
  index : SessionIndex
  heap : Heap

/-- `State` of a handshake. -/
inductive HandshakeState where
  | uninit
  | initiation (i : OutgoingInitiation)
deriving DecidableEq

/-- `Handshake`, without its handle on the index. -/
structure Handshake where
  state : HandshakeState
  secret : PeerStaticSecret
  macs : MacGenerator
deriving DecidableEq

namespace Handshake

variable (C : Crypto)

/-- `Handshake::new`. -/
def new (secret : PeerStaticSecret) : Handshake := ⟨.uninit, secret, .new C secret⟩

/-- `Handshake::initiate`: an initiation packet, and a session whose keys are all zero until
the response arrives. -/
def initiate (hs : Handshake) (st : Store) (env : Env) :
    Outcome (Handshake × Store × Session × Bytes) := do
  let (senderIndex, index) := st.index.nextIndex
  let (state, payload) ←
    OutgoingInitiation.new C senderIndex hs.secret hs.macs env.ephemeral env.wall env.now
  let (pre, heap) := Session.new st.heap hs.secret senderIndex (Block.zero 32) 0 (Block.zero 32)
  return ({ hs with state := .initiation state }, ⟨index, heap⟩, pre, payload)

/-- `Handshake::respond`. It never hands back an error. -/
def respond (hs : Handshake) (st : Store) (env : Env) (initiation : IncomingInitiation) :
    Outcome (Except NoiseError (Store × Session × Bytes)) := do
  let (localIndex, index) := st.index.nextIndex
  let (state, payload) ←
    OutgoingResponse.new C initiation localIndex hs.secret hs.macs env.ephemeral env.now
  let (receiverKey, senderKey) := kdf2 C state.chainingKey.val []
  let (sess, heap) :=
    Session.new st.heap hs.secret localIndex senderKey initiation.index receiverKey
  return .ok (⟨index, heap⟩, sess, payload)

/-- `Handshake::finalize`. The state is left as it is. -/
def finalize (hs : Handshake) (st : Store) (packet : HandshakeResponse) :
    Except NoiseError (Store × Session) :=
  match hs.state with
  | .initiation initiation => do
    let state ← IncomingResponse.parse C initiation hs.secret packet
    let (senderKey, receiverKey) := kdf2 C state.chainingKey.val []
    let (sess, heap) :=
      Session.new st.heap hs.secret initiation.index senderKey state.index receiverKey
    return ({ st with heap }, sess)
  | .uninit => .error .invalidHandshakeState

variable {C}

/-- What `initiate` hands back. -/
theorem initiate_eq_ret {hs : Handshake} {st : Store} {env : Env}
    {r : Handshake × Store × Session × Bytes} :
    hs.initiate C st env = .ret r ↔ ∃ out payload,
      OutgoingInitiation.new C st.index.index hs.secret hs.macs env.ephemeral env.wall env.now =
        .ret (out, payload) ∧
      r = ({ hs with state := .initiation out }, ⟨st.index.nextIndex.2, st.heap.alloc⟩,
        ⟨hs.secret, st.index.index, Block.zero 32, 0, Block.zero 32, st.heap.size⟩, payload) := by
  simp only [initiate, SessionIndex.nextIndex, Session.new, Outcome.bind_eq_ret, Prod.exists,
    Outcome.pure_eq, Outcome.ret.injEq]
  exact exists₂_congr fun _ _ => and_congr_right fun _ => eq_comm

/-- What `respond` hands back. -/
theorem respond_eq_ret {hs : Handshake} {st : Store} {env : Env} {inc : IncomingInitiation}
    {r : Except NoiseError (Store × Session × Bytes)} :
    hs.respond C st env inc = .ret r ↔ ∃ out payload,
      OutgoingResponse.new C inc st.index.index hs.secret hs.macs env.ephemeral env.now =
        .ret (out, payload) ∧
      r = .ok (⟨st.index.nextIndex.2, st.heap.alloc⟩,
        ⟨hs.secret, st.index.index, (kdf2 C out.chainingKey.val []).2, inc.index,
          (kdf2 C out.chainingKey.val []).1, st.heap.size⟩, payload) := by
  simp only [respond, SessionIndex.nextIndex, Session.new, Outcome.bind_eq_ret, Prod.exists,
    Outcome.pure_eq, Outcome.ret.injEq]
  exact exists₂_congr fun _ _ => and_congr_right fun _ => eq_comm

/-- What `finalize` hands back. -/
theorem finalize_eq_ok {hs : Handshake} {st : Store} {packet : HandshakeResponse}
    {r : Store × Session} :
    hs.finalize C st packet = .ok r ↔ ∃ out inc, hs.state = .initiation out ∧
      IncomingResponse.parse C out hs.secret packet = .ok inc ∧
      r = ({ st with heap := st.heap.alloc },
        ⟨hs.secret, out.index, (kdf2 C inc.chainingKey.val []).1, inc.index,
          (kdf2 C inc.chainingKey.val []).2, st.heap.size⟩) := by
  unfold finalize
  cases hs.state with
  | uninit => simp
  | initiation out =>
    cases hp : IncomingResponse.parse C out hs.secret packet with
    | error e => simp [hp, bind, Except.bind]
    | ok inc => simp [hp, bind, Except.bind, pure, Except.pure, Session.new, eq_comm]

end Handshake

/-! ## The operations come back -/

section Lawful

variable {C : Crypto} (hC : C.Lawful)

include hC in
/-- `initiate` never panics. -/
theorem Handshake.initiate_returns (hs : Handshake) (st : Store) (env : Env) :
    (hs.initiate C st env).Returns := by
  obtain ⟨⟨out, payload⟩, h⟩ := OutgoingInitiation.new_returns hC st.index.index hs.secret hs.macs
    env.ephemeral env.wall env.now
  exact ⟨_, Handshake.initiate_eq_ret.mpr ⟨out, payload, h, rfl⟩⟩

include hC in
/-- `respond` never panics and never fails. -/
theorem Handshake.respond_returns (hs : Handshake) (st : Store) (env : Env)
    (inc : IncomingInitiation) : ∃ r, hs.respond C st env inc = .ret (.ok r) := by
  obtain ⟨⟨out, payload⟩, h⟩ := OutgoingResponse.new_returns hC inc st.index.index hs.secret hs.macs
    env.ephemeral env.now
  exact ⟨_, Handshake.respond_eq_ret.mpr ⟨out, payload, h, rfl⟩⟩

end Lawful

end Vlink
