import Vlink.Device.Device
import Vlink.Lib.Runs
import Vlink.Noise.Sample

set_option autoImplicit false

/-!
# The tasks of a device as a transition system

A running device consists of its two loops and of three loops for every peer
(`device/handle.rs`, `device/peer/handler.rs`). They run concurrently and meet at locks,
channels and atomic counters. A step of the system is one task going from one such meeting point
to the next; any interleaving of steps is a run.

## Main definitions

* `Vlink.PeerNode.handshakeStep`, `inboundStep`, `outboundStep`, `keepaliveStep` — the steps of
  the tasks of a peer.
* `Vlink.Action`, `Vlink.Device.step` — the steps of a device: its tasks, and the calls that other
  parts of the program make (`insert_peer`, `set_online`, `update_endpoint`, `clear_endpoint`).
* `Vlink.Device.Reaches` — some run leads from a new device to a state and emits a trace.
* `Vlink.PeerNode.HandshakeMove`, `InboundMove`, `Moves`, `Vlink.Device.Effect` — what a step of the
  two loops, or any step, can do to a peer, and to the peers of a device.

## Main results

* `Vlink.PeerNode.handshakeStep_move`, `inboundStep_move`, `Vlink.Device.step_effect` — the steps do
  nothing else. Results about the data of peers are read off these.

## Design

What a step reads from outside comes with the action: a datagram and where it came from, clock
readings, random bytes, whether sending succeeds. Nothing is assumed of it, so an attacker may
choose all datagrams, and clocks may even run backwards. A panic ends the task it happens in.

A session is looked up in the index between two operations on the index. A look-up in the middle
of one, when an entry has been removed and is about to be inserted again, finds nothing; the
datagram is dropped then, which is what its loss would do.
-/

namespace Vlink

/-! ## The tasks of a peer -/

namespace PeerNode

variable (C : Crypto)

/-- What a task does next: `none` if it has to wait; otherwise it panics, or goes on with the
shared sessions and the peer as they are afterwards. -/
abbrev TaskStep := Option (Outcome (Store × PeerNode × List Event))

/-- `Peer::send_outbound`. -/
def sendOutbound (n : PeerNode) (env : Env) (buf : Bytes) : List Event :=
  match n.peer.endpoint with
  | some endpoint => if env.sendOk then [.sent endpoint buf] else []
  | none => [.published (.noEndpoint n.peer.pubKey n.peer.ipAddr)]

/-- `loop_handshake`. -/
def handshakeStep (n : PeerNode) (st : Store) (env : Env) : TaskStep :=
  match n.handshakeTask with
  | .waiting =>
    -- `await_online` comes back once the peer is online
    if n.peer.online then
      let (can, monitor) := n.peer.monitor.canHandshake env.now
      some (.ret (st, { n with
        peer := { n.peer with monitor }
        handshakeTask := if can then .initiating else .resting }, []))
    else none
  | .initiating => some do
    let (handshake, st, next, packet) ← n.peer.handshake.initiate C st env
    return (st, { n with
      peer := { n.peer with handshake }
      handshakeTask := .preparing next packet }, [.initiated n.peer.pubKey env.ephemeral next])
  | .preparing next packet => some do
    let (index, sessions) ← n.peer.sessions.prepareUninit st.index next
    return ({ st with index }, { n with
      peer := { n.peer with sessions }
      handshakeTask := .sending packet }, [])
  | .sending packet =>
    some (.ret (st, { n with handshakeTask := .sent }, n.sendOutbound env packet))
  | .sent => some (.ret (st, { n with
      peer := n.peer.initiated env.now
      handshakeTask := .resting }, []))
  | .resting => some (.ret (st, { n with
      handshakeTask := .sleeping (n.peer.monitor.handshake.willInitiateIn env.now) }, []))
  | .sleeping wake =>
    if wake ≤ env.now then some (.ret (st, { n with handshakeTask := .waiting }, [])) else none
  | .dead => none

/-- What a step of the handshake loop makes of the store and the peer, and its events, by the place
that the loop is at. -/
inductive HandshakeMove (n : PeerNode) (st : Store) (env : Env) :
    Store → PeerNode → List Event → Prop
  | check (ht : n.handshakeTask = .waiting) :
      HandshakeMove n st env st { n with
        peer := { n.peer with monitor := (n.peer.monitor.canHandshake env.now).2 }
        handshakeTask := if (n.peer.monitor.canHandshake env.now).1 then .initiating
          else .resting } []
  | initiate {handshake : Handshake} {st' : Store} {next : Session} {packet : Bytes}
      (ht : n.handshakeTask = .initiating)
      (h : n.peer.handshake.initiate C st env = .ret (handshake, st', next, packet)) :
      HandshakeMove n st env st' { n with
        peer := { n.peer with handshake }
        handshakeTask := .preparing next packet } [.initiated n.peer.pubKey env.ephemeral next]
  | prepare {next : Session} {packet : Bytes} {index : SessionIndex} {sessions : ActiveSession}
      (ht : n.handshakeTask = .preparing next packet)
      (h : n.peer.sessions.prepareUninit st.index next = .ret (index, sessions)) :
      HandshakeMove n st env { st with index } { n with
        peer := { n.peer with sessions }
        handshakeTask := .sending packet } []
  | send {packet : Bytes} (ht : n.handshakeTask = .sending packet) :
      HandshakeMove n st env st { n with handshakeTask := .sent } (n.sendOutbound env packet)
  | initiated (ht : n.handshakeTask = .sent) :
      HandshakeMove n st env st { n with
        peer := n.peer.initiated env.now
        handshakeTask := .resting } []
  | rest (ht : n.handshakeTask = .resting) :
      HandshakeMove n st env st { n with
        handshakeTask := .sleeping (n.peer.monitor.handshake.willInitiateIn env.now) } []
  | wake {wakeAt : Instant} (ht : n.handshakeTask = .sleeping wakeAt) :
      HandshakeMove n st env st { n with handshakeTask := .waiting } []

/-- The first section of the handler for an event, in `loop_inbound`. -/
def takeEvent (n : PeerNode) (st : Store) (env : Env) :
    InboundEvent → Outcome (Store × PeerNode × List Event)
  | .handshakeInitiation endpoint initiation => do
    let (st, peer, reply, evs) ← n.peer.respond C st env initiation
    return (st, { n with
      peer
      inboundTask := match reply with
        | some (session, packet) => .responded endpoint session packet
        | none => .idle }, evs)
  | .handshakeResponse endpoint packet _ =>
    let (st, peer, session, evs) := n.peer.finalize C st packet
    .ret (st, { n with
      peer
      inboundTask := match session with
        | some session => .finalized endpoint session
        | none => .idle }, evs)
  | .cookieReply _ _ _ => .ret (st, { n with peer := n.peer.handleCookieReply }, [])
  | .transportData endpoint packet session => do
    let (st, peer, evs) ← n.peer.promote st env packet session
    return (st, { n with peer, inboundTask := .checking endpoint packet session }, evs)

/-- `loop_inbound` of a peer. -/
def inboundStep (n : PeerNode) (st : Store) (env : Env) : TaskStep :=
  match n.inboundTask with
  | .idle =>
    match n.inbox with
    | [] => none
    | e :: inbox => some ({ n with inbox }.takeEvent C st env e)
  | .responded endpoint session packet => some do
    let (st, peer) ← n.peer.prepareNext st session
    return (st, { n with peer, inboundTask := .prepared endpoint packet }, [])
  | .prepared endpoint packet => some (.ret (st, { n with
      peer := n.peer.updateEndpoint endpoint
      inboundTask := .replying endpoint packet }, []))
  | .replying endpoint packet => some do
    let sent ← Peer.sendUnwrap env endpoint packet
    return (st, { n with inboundTask := .replied }, sent)
  | .replied => some (.ret (st, { n with
      peer := n.peer.initiated env.now
      inboundTask := .idle }, []))
  | .finalized endpoint session => some do
    let (done, st, peer, evs) ← n.peer.completeUninit st session
    return (st, { n with
      peer
      inboundTask := if done then .completed endpoint else .idle }, evs)
  | .completed endpoint => some (.ret (st, { n with
      peer := n.peer.completed env.now env.wall
      inboundTask := .confirming endpoint }, []))
  | .confirming endpoint => some (.ret (st, { n with
      peer := n.peer.updateEndpoint endpoint
      outbox := n.outbox ++ [[]]
      inboundTask := .idle },
      [.published (.handshakeComplete n.peer.pubKey endpoint.protocol)]))
  | .checking endpoint packet session => some do
    let (st, peer, evs) ← n.peer.receive C st endpoint packet session
    return (st, { n with peer, inboundTask := .idle }, evs)
  | .dead => none

/-- What a step of the inbound loop makes of the store and the peer, and its events, by the place
that the loop is at. -/
inductive InboundMove (n : PeerNode) (st : Store) (env : Env) : Store → PeerNode → List Event → Prop
  | respond {endpoint : OutboundSender} {inc : IncomingInitiation} {inbox : List InboundEvent}
      {st' : Store} {peer : Peer} {reply : Option (Session × Bytes)} {evs : List Event}
      (ht : n.inboundTask = .idle) (hbox : n.inbox = .handshakeInitiation endpoint inc :: inbox)
      (h : n.peer.respond C st env inc = .ret (st', peer, reply, evs)) :
      InboundMove n st env st' { n with
        peer
        inbox
        inboundTask := reply.elim .idle fun (session, packet) =>
          .responded endpoint session packet } evs
  | finalize {endpoint : OutboundSender} {packet : HandshakeResponse} {session : Session}
      {inbox : List InboundEvent} {st' : Store} {peer : Peer} {found : Option Session}
      {evs : List Event} (ht : n.inboundTask = .idle)
      (hbox : n.inbox = .handshakeResponse endpoint packet session :: inbox)
      (h : n.peer.finalize C st packet = (st', peer, found, evs)) :
      InboundMove n st env st' { n with
        peer
        inbox
        inboundTask := found.elim .idle (.finalized endpoint) } evs
  | cookie {endpoint : OutboundSender} {packet : CookieReply} {session : Session}
      {inbox : List InboundEvent} (ht : n.inboundTask = .idle)
      (hbox : n.inbox = .cookieReply endpoint packet session :: inbox) :
      InboundMove n st env st { n with
        peer := n.peer.handleCookieReply
        inbox
        inboundTask := .idle } []
  | promote {endpoint : OutboundSender} {packet : TransportData} {session : Session}
      {inbox : List InboundEvent} {st' : Store} {peer : Peer} {evs : List Event}
      (ht : n.inboundTask = .idle)
      (hbox : n.inbox = .transportData endpoint packet session :: inbox)
      (h : n.peer.promote st env packet session = .ret (st', peer, evs)) :
      InboundMove n st env st' { n with
        peer
        inbox
        inboundTask := .checking endpoint packet session } evs
  | prepareNext {endpoint : OutboundSender} {session : Session} {packet : Bytes} {st' : Store}
      {peer : Peer} (ht : n.inboundTask = .responded endpoint session packet)
      (h : n.peer.prepareNext st session = .ret (st', peer)) :
      InboundMove n st env st' { n with peer, inboundTask := .prepared endpoint packet } []
  | updateEndpoint {endpoint : OutboundSender} {packet : Bytes}
      (ht : n.inboundTask = .prepared endpoint packet) :
      InboundMove n st env st { n with
        peer := n.peer.updateEndpoint endpoint
        inboundTask := .replying endpoint packet } []
  | reply {endpoint : OutboundSender} {packet : Bytes}
      (ht : n.inboundTask = .replying endpoint packet) :
      InboundMove n st env st { n with inboundTask := .replied } [.sent endpoint packet]
  | initiated (ht : n.inboundTask = .replied) :
      InboundMove n st env st { n with
        peer := n.peer.initiated env.now
        inboundTask := .idle } []
  | completeUninit {endpoint : OutboundSender} {session : Session} {done : Bool} {st' : Store}
      {peer : Peer} {evs : List Event} (ht : n.inboundTask = .finalized endpoint session)
      (h : n.peer.completeUninit st session = .ret (done, st', peer, evs)) :
      InboundMove n st env st' { n with
        peer
        inboundTask := if done then .completed endpoint else .idle } evs
  | completed {endpoint : OutboundSender} (ht : n.inboundTask = .completed endpoint) :
      InboundMove n st env st { n with
        peer := n.peer.completed env.now env.wall
        inboundTask := .confirming endpoint } []
  | confirm {endpoint : OutboundSender} (ht : n.inboundTask = .confirming endpoint) :
      InboundMove n st env st { n with
        peer := n.peer.updateEndpoint endpoint
        outbox := n.outbox ++ [[]]
        inboundTask := .idle } [.published (.handshakeComplete n.peer.pubKey endpoint.protocol)]
  | receive {endpoint : OutboundSender} {packet : TransportData} {session : Session} {st' : Store}
      {peer : Peer} {evs : List Event} (ht : n.inboundTask = .checking endpoint packet session)
      (h : n.peer.receive C st endpoint packet session = .ret (st', peer, evs)) :
      InboundMove n st env st' { n with peer, inboundTask := .idle } evs

/-- `loop_outbound` of a peer, with `tick_outbound`. The send counter of a session is used by
this task alone, so taking the current session and sealing are one step. -/
def outboundStep (n : PeerNode) (st : Store) (env : Env) : TaskStep :=
  match n.outboundTask with
  | .idle =>
    match n.outbox with
    | [] => none
    | data :: outbox =>
      match n.peer.sessions.current with
      | none => some (.ret (st, { n with outbox }, [.published (.sessionFailed n.peer.pubKey)]))
      | some session =>
        let used := [Event.encrypted n.peer.pubKey session (session.nextNonce st.heap).1]
        match session.encryptData C st.heap data with
        | (.ok packet, heap) =>
          some (.ret ({ st with heap },
            { n with outbox, outboundTask := .sending packet.toBytes }, used))
        | (.error _, heap) => some (.ret ({ st with heap }, { n with outbox }, used))
  | .sending buf =>
    some (.ret (st, { n with outboundTask := .sent buf.length }, n.sendOutbound env buf))
  | .sent len => some (.ret (st, { n with
      peer := n.peer.countOutbound len env.now
      outboundTask := .idle }, []))

/-- `Peer::keepalive`, which `loop_outbound` calls when the timer fires. -/
def keepaliveStep (n : PeerNode) (st : Store) (env : Env) : TaskStep :=
  match n.outboundTask with
  | .idle =>
    if n.peer.monitor.keepalive.can n.peer.monitor.traffic env.now ∧ n.peer.online then
      some (.ret (st, { n with
        peer := { n.peer with
          monitor := { n.peer.monitor with
            keepalive := n.peer.monitor.keepalive.attempt env.now } }
        outbox := n.outbox ++ [[]] }, []))
    else some (.ret (st, n, []))
  | _ => none

section Frames

variable {C} {n n' : PeerNode} {st st' : Store} {env : Env} {evs : List Event}

/-- **What the steps of the handshake loop do.** -/
theorem handshakeStep_move (h : n.handshakeStep C st env = some (.ret (st', n', evs))) :
    n.HandshakeMove C st env st' n' evs := by
  cases ht : n.handshakeTask with
  | waiting =>
    simp only [handshakeStep, ht] at h
    split at h
    · cases h
      exact .check ht
    · cases h
  | initiating =>
    simp only [handshakeStep, ht, Option.some.injEq] at h
    obtain ⟨r, hr, heq⟩ := Outcome.bind_eq_ret.mp h
    cases heq
    exact .initiate ht hr
  | preparing next packet =>
    simp only [handshakeStep, ht, Option.some.injEq] at h
    obtain ⟨r, hr, heq⟩ := Outcome.bind_eq_ret.mp h
    cases heq
    exact .prepare ht hr
  | sending packet =>
    simp only [handshakeStep, ht] at h
    cases h
    exact .send ht
  | sent =>
    simp only [handshakeStep, ht] at h
    cases h
    exact .initiated ht
  | resting =>
    simp only [handshakeStep, ht] at h
    cases h
    exact .rest ht
  | sleeping wake =>
    simp only [handshakeStep, ht] at h
    split_ifs at h
    cases h
    exact .wake ht
  | dead => simp [handshakeStep, ht] at h

/-- What the handshake task writes: its own place and the peer, whose endpoint stays. -/
lemma handshakeStep_writes (h : n.handshakeStep C st env = some (.ret (st', n', evs))) :
    ∃ peer task, n' = { n with peer, handshakeTask := task } ∧
      peer.endpoint = n.peer.endpoint := by
  cases handshakeStep_move h <;> exact ⟨_, _, rfl, rfl⟩

/-- The handshake task leaves the inbound task and the outbound channel alone. -/
lemma handshakeStep_frame (h : n.handshakeStep C st env = some (.ret (st', n', evs))) :
    n'.inboundTask = n.inboundTask ∧ n'.outbox = n.outbox := by
  obtain ⟨peer, task, rfl, -⟩ := handshakeStep_writes h
  exact ⟨rfl, rfl⟩

/-- What the outbound task writes: its own place, the channel, from which it takes at most one
packet, and the peer, whose endpoint stays. -/
lemma outboundStep_writes (h : n.outboundStep C st env = some (.ret (st', n', evs))) :
    ∃ peer outbox task, n' = { n with peer, outbox, outboundTask := task } ∧
      peer.endpoint = n.peer.endpoint ∧
      (outbox = n.outbox ∨ ∃ data, n.outbox = data :: outbox) := by
  cases ht : n.outboundTask with
  | idle =>
    cases hbox : n.outbox with
    | nil => simp [outboundStep, ht, hbox] at h
    | cons data outbox =>
      simp only [outboundStep, ht, hbox] at h
      split at h
      · cases h
        exact ⟨_, _, _, rfl, rfl, .inr ⟨data, rfl⟩⟩
      · split at h <;> cases h <;> exact ⟨_, _, _, rfl, rfl, .inr ⟨data, rfl⟩⟩
  | sending _ | sent _ =>
    simp only [outboundStep, ht] at h
    cases h
    exact ⟨_, _, _, rfl, rfl, .inl rfl⟩

/-- The outbound task leaves the inbound task alone, and takes at most one packet from the
channel. -/
lemma outboundStep_frame (h : n.outboundStep C st env = some (.ret (st', n', evs))) :
    n'.inboundTask = n.inboundTask ∧
      (n'.outbox = n.outbox ∨ ∃ data, n.outbox = data :: n'.outbox) := by
  obtain ⟨peer, outbox, task, rfl, -, hbox⟩ := outboundStep_writes h
  exact ⟨rfl, hbox⟩

/-- **What the steps of the inbound loop do.** -/
theorem inboundStep_move (h : n.inboundStep C st env = some (.ret (st', n', evs))) :
    n.InboundMove C st env st' n' evs := by
  cases ht : n.inboundTask with
  | idle =>
    cases hbox : n.inbox with
    | nil => simp [inboundStep, ht, hbox] at h
    | cons e inbox =>
      simp only [inboundStep, ht, hbox, Option.some.injEq] at h
      cases e with
      | handshakeInitiation endpoint inc =>
        obtain ⟨⟨st₁, peer, reply, evs₁⟩, hr, h⟩ := Outcome.bind_eq_ret.mp h
        cases h
        cases reply <;> exact .respond ht hbox hr
      | handshakeResponse endpoint packet session =>
        rcases hf : n.peer.finalize C st packet with ⟨st₁, peer, found, evs₁⟩
        simp only [takeEvent, hf] at h
        cases h
        cases found <;> exact .finalize ht hbox hf
      | cookieReply endpoint packet session =>
        cases h
        exact .cookie ht hbox
      | transportData endpoint packet session =>
        obtain ⟨r, hr, h⟩ := Outcome.bind_eq_ret.mp h
        cases h
        exact .promote ht hbox hr
  | responded endpoint session packet =>
    simp only [inboundStep, ht, Option.some.injEq] at h
    obtain ⟨r, hr, h⟩ := Outcome.bind_eq_ret.mp h
    cases h
    exact .prepareNext ht hr
  | prepared endpoint packet =>
    simp only [inboundStep, ht, Option.some.injEq] at h
    cases h
    exact .updateEndpoint ht
  | replying endpoint packet =>
    simp only [inboundStep, ht, Option.some.injEq] at h
    obtain ⟨sent, hsent, h⟩ := Outcome.bind_eq_ret.mp h
    unfold Peer.sendUnwrap at hsent
    split_ifs at hsent
    cases hsent
    cases h
    exact .reply ht
  | replied =>
    simp only [inboundStep, ht, Option.some.injEq] at h
    cases h
    exact .initiated ht
  | finalized endpoint session =>
    simp only [inboundStep, ht, Option.some.injEq] at h
    obtain ⟨r, hr, h⟩ := Outcome.bind_eq_ret.mp h
    cases h
    exact .completeUninit ht hr
  | completed endpoint =>
    simp only [inboundStep, ht, Option.some.injEq] at h
    cases h
    exact .completed ht
  | confirming endpoint =>
    simp only [inboundStep, ht, Option.some.injEq] at h
    cases h
    exact .confirm ht
  | checking endpoint packet session =>
    simp only [inboundStep, ht, Option.some.injEq] at h
    obtain ⟨r, hr, h⟩ := Outcome.bind_eq_ret.mp h
    cases h
    exact .receive ht hr
  | dead => simp [inboundStep, ht] at h

/-- A step of the inbound loop derives the session for a response, or sends one, or it does
neither. -/
lemma inboundStep_events (h : n.inboundStep C st env = some (.ret (st', n', evs))) :
    (∃ endpoint inc s, n.inbox = .handshakeInitiation endpoint inc :: n'.inbox ∧
      evs = [.responded n.peer.pubKey inc env.ephemeral s]) ∨
    n'.inbox.length ≤ n.inbox.length ∧
      ((∃ endpoint packet, evs = [.sent endpoint packet]) ∨ ∀ e ∈ evs, e.inner = true) := by
  cases inboundStep_move h with
  | respond _ hbox hr =>
    obtain ⟨_, _, -, s, -, heq⟩ := Peer.respond_eq_ret.mp hr
    cases heq
    exact .inl ⟨_, _, s, hbox, rfl⟩
  | finalize _ hbox hf => exact .inr ⟨by simp [hbox], .inr (Peer.finalize_inner hf)⟩
  | cookie _ hbox => exact .inr ⟨by simp [hbox], .inr (by simp)⟩
  | promote _ hbox hp => exact .inr ⟨by simp [hbox], .inr (Peer.promote_inner hp)⟩
  | reply => exact .inr ⟨le_rfl, .inl ⟨_, _, rfl⟩⟩
  | completeUninit _ hc => exact .inr ⟨le_rfl, .inr (Peer.completeUninit_inner hc)⟩
  | receive _ hr => exact .inr ⟨le_rfl, .inr (Peer.receive_inner hr)⟩
  | _ => exact .inr ⟨le_rfl, .inr (by simp [Event.inner])⟩

/-- A step that leaves the networks and the endpoint of a peer alone. -/
structure Kept (n n' : PeerNode) : Prop where
  allowedIps : n'.allowedIps = n.allowedIps
  endpoint : n'.peer.endpoint = n.peer.endpoint

/-- The handshake task keeps them. -/
lemma handshakeStep_kept (h : n.handshakeStep C st env = some (.ret (st', n', evs))) :
    Kept n n' := by
  obtain ⟨peer, task, rfl, hend⟩ := handshakeStep_writes h
  exact ⟨rfl, hend⟩

/-- The outbound task keeps them. -/
lemma outboundStep_kept (h : n.outboundStep C st env = some (.ret (st', n', evs))) :
    Kept n n' := by
  obtain ⟨peer, outbox, task, rfl, hend, -⟩ := outboundStep_writes h
  exact ⟨rfl, hend⟩

/-- The timer keeps them. -/
lemma keepaliveStep_kept (h : n.keepaliveStep st env = some (.ret (st', n', evs))) :
    Kept n n' := by
  unfold keepaliveStep at h
  split at h
  · split_ifs at h <;> cases h <;> exact ⟨rfl, rfl⟩
  · cases h

/-- The outbound task has no call that can panic. -/
lemma outboundStep_ne_panic : n.outboundStep C st env ≠ some .panic := by
  intro h
  unfold outboundStep at h
  split at h
  · split at h
    · cases h
    · split at h
      · cases h
      · dsimp only at h
        split at h <;> cases h
  · cases h
  · cases h

/-- Nor has the timer. -/
lemma keepaliveStep_ne_panic : n.keepaliveStep st env ≠ some .panic := by
  intro h
  unfold keepaliveStep at h
  split at h
  · split_ifs at h <;> cases h
  · cases h

end Frames

/-- A task of a peer on its own, as long as it does not panic. -/
def alone (task : PeerNode → Store → Env → TaskStep) (x : Store × PeerNode) (env : Env) :
    Option ((Store × PeerNode) × List Event) :=
  match task x.2 x.1 env with
  | some (.ret (st, n, evs)) => some ((st, n), evs)
  | _ => none

/-- The task makes one more step. -/
lemma run_alone {task : PeerNode → Store → Env → TaskStep} {x₀ : Store × PeerNode}
    {st st' : Store} {n n' : PeerNode} {evs tr : List Event}
    (run : Run (alone task) (fun _ _ => True) x₀ tr (st, n)) (env : Env)
    (h : task n st env = some (.ret (st', n', evs))) :
    Run (alone task) (fun _ _ => True) x₀ (tr ++ evs) (st', n') :=
  run.snoc trivial (a := env) (by rw [alone, h])

/-- The task makes one more step, with the same readings. -/
lemma run_alone_same {task : PeerNode → Store → Env → TaskStep} {x₀ : Store × PeerNode}
    {env : Env} {st st' : Store} {n n' : PeerNode} {evs tr : List Event}
    (run : Run (alone task) (fun _ a => a = env) x₀ tr (st, n))
    (h : task n st env = some (.ret (st', n', evs))) :
    Run (alone task) (fun _ a => a = env) x₀ (tr ++ evs) (st', n') :=
  run.snoc rfl (by rw [alone, h])

end PeerNode

/-! ## The device -/

/-- The steps of a device. -/
inductive Action where
  /-- `loop_inbound` handles a datagram. -/
  | receive (endpoint : OutboundSender) (payload : Bytes) (env : Env)
  /-- `loop_outbound` handles a packet from the TUN device. -/
  | tunRecv (buf : Bytes)
  /-- The tasks of the peer `p`. -/
  | handshake (p : Key) (env : Env)
  | inbound (p : Key) (env : Env)
  | outbound (p : Key) (env : Env)
  | keepalive (p : Key) (env : Env)
  /-- Calls from other parts of the program. -/
  | insertPeer (cfg : PeerConfig) (now : Instant)
  | setOnline (p : Key) (val : Bool)
  | updateEndpoint (p : Key) (endpoint : OutboundSender)
  | clearEndpoint (p : Key)

/-- The datagram that is handled. -/
def Action.datagram : Action → Option Bytes
  | .receive _ payload _ => some payload
  | _ => none

namespace Device

variable (C : Crypto)

/-- Replace a peer. -/
def setPeer (d : Device) (p : Key) (n : PeerNode) : Device :=
  { d with peers := Function.update d.peers p (some n) }

/-- One peer is a new one. -/
@[simp] lemma peers_setPeer (d : Device) (p : Key) (n : PeerNode) :
    (d.setPeer p n).peers = Function.update d.peers p (some n) := rfl

/-- Carry out a step of a task of the peer `p`; `dead` is the peer without the task. -/
def taskStep (d : Device) (p : Key) (task : PeerNode → Store → PeerNode.TaskStep)
    (dead : PeerNode → PeerNode) : Option (Device × List Event) :=
  match d.peers p with
  | none => none
  | some n =>
    match task n d.store with
    | none => none
    | some .panic => some (d.setPeer p (dead n), [.panicked (some p)])
    | some (.ret (st, n, evs)) => some ({ d with store := st }.setPeer p n, evs)

/-- A call that changes the data of a peer. -/
def callPeer (d : Device) (p : Key) (f : Peer → Peer) : Option (Device × List Event) :=
  (d.peers p).map fun n => (d.setPeer p { n with peer := f n.peer }, [])

/-- `stage_inbound`. -/
def stageInbound (d : Device) (p : Key) (e : InboundEvent) : Device × List Event :=
  match d.peers p with
  | none => (d, [])
  | some n =>
    (d.setPeer p { n with inbox := n.inbox ++ [e] },
      match e with
      | .transportData _ packet session => [.staged p packet session]
      | _ => [])

/-- `stage_outbound`. -/
def stageOutbound (d : Device) (p : Key) (buf : Bytes) : Device × List Event :=
  match d.peers p with
  | none => (d, [])
  | some n => (d.setPeer p { n with outbox := n.outbox ++ [buf] }, [.routed p buf])

/-- One step of a device; `none` if the action is not possible. -/
def step (d : Device) : Action → Option (Device × List Event)
  | .receive endpoint payload env =>
    if d.inboundUp then
      match d.tickInbound C env endpoint payload with
      | .panic => some ({ d with inboundUp := false }, [.panicked none])
      | .ret (cookie, none, sent) => some ({ d with cookie }, sent)
      | .ret (cookie, some (p, e), sent) =>
        let (d, evs) := { d with cookie }.stageInbound p e
        some (d, sent ++ evs)
    else none
  | .tunRecv buf =>
    if d.outboundUp then
      match d.tickOutbound buf with
      | .panic => some ({ d with outboundUp := false }, [.panicked none])
      | .ret none => some (d, [])
      | .ret (some p) => some (d.stageOutbound p buf)
    else none
  | .handshake p env =>
    d.taskStep p (fun n st => n.handshakeStep C st env) fun n => { n with handshakeTask := .dead }
  | .inbound p env =>
    d.taskStep p (fun n st => n.inboundStep C st env) fun n => { n with inboundTask := .dead }
  -- the outbound task has no call that can panic
  | .outbound p env => d.taskStep p (fun n st => n.outboundStep C st env) id
  | .keepalive p env => d.taskStep p (fun n st => n.keepaliveStep st env) id
  | .insertPeer cfg now => some (d.insertPeer C cfg now, [])
  | .setOnline p val => d.callPeer p (·.setOnline val)
  | .updateEndpoint p endpoint => d.callPeer p (·.updateEndpoint endpoint)
  | .clearEndpoint p => d.callPeer p (·.clearEndpoint)

end Device

/-! ## What a step does to the peers -/

/-- What a step does to the peer that it is about, which is kept under the key `q`. -/
inductive PeerNode.Moves (C : Crypto) (st : Store) (q : Key) (n : PeerNode) :
    Action → PeerNode → Prop
  | staged {endpoint : OutboundSender} {payload : Bytes} {env : Env} (e : InboundEvent) :
      Moves C st q n (.receive endpoint payload env) { n with inbox := n.inbox ++ [e] }
  | routed {buf : Bytes} : Moves C st q n (.tunRecv buf) { n with outbox := n.outbox ++ [buf] }
  | handshake {env : Env} {st' : Store} {n' : PeerNode} {evs : List Event}
      (h : n.handshakeStep C st env = some (.ret (st', n', evs))) :
      Moves C st q n (.handshake q env) n'
  | handshakePanic {env : Env} (h : n.handshakeStep C st env = some .panic) :
      Moves C st q n (.handshake q env) { n with handshakeTask := .dead }
  | inbound {env : Env} {st' : Store} {n' : PeerNode} {evs : List Event}
      (h : n.inboundStep C st env = some (.ret (st', n', evs))) : Moves C st q n (.inbound q env) n'
  | inboundPanic {env : Env} (h : n.inboundStep C st env = some .panic) :
      Moves C st q n (.inbound q env) { n with inboundTask := .dead }
  | outbound {env : Env} {st' : Store} {n' : PeerNode} {evs : List Event}
      (h : n.outboundStep C st env = some (.ret (st', n', evs))) :
      Moves C st q n (.outbound q env) n'
  | keepalive {env : Env} {st' : Store} {n' : PeerNode} {evs : List Event}
      (h : n.keepaliveStep st env = some (.ret (st', n', evs))) :
      Moves C st q n (.keepalive q env) n'
  | setOnline {val : Bool} :
      Moves C st q n (.setOnline q val) { n with peer := n.peer.setOnline val }
  | updateEndpoint {endpoint : OutboundSender} :
      Moves C st q n (.updateEndpoint q endpoint) { n with peer := n.peer.updateEndpoint endpoint }
  | clearEndpoint : Moves C st q n (.clearEndpoint q) { n with peer := n.peer.clearEndpoint }

/-- What a step does to the peers of a device: a packet is dropped, or one peer makes a move, or
a peer is inserted. -/
inductive Device.Effect (C : Crypto) (d : Device) : Action → Device → Prop
  | dropped {endpoint : OutboundSender} {payload : Bytes} {env : Env} {d' : Device}
      (peers : d'.peers = d.peers) (ips : d'.ips = d.ips) :
      Effect C d (.receive endpoint payload env) d'
  | unrouted {buf : Bytes} {d' : Device} (peers : d'.peers = d.peers) (ips : d'.ips = d.ips)
      (up : d'.inboundUp = d.inboundUp) : Effect C d (.tunRecv buf) d'
  | node {a : Action} {q : Key} {n n' : PeerNode} {d' : Device} (hn : d.peers q = some n)
      (peers : d'.peers = Function.update d.peers q (some n')) (ips : d'.ips = d.ips)
      (up : d'.inboundUp = d.inboundUp) (moves : n.Moves C d.store q a n') : Effect C d a d'
  | insertPeer (cfg : PeerConfig) (now : Instant) :
      Effect C d (.insertPeer cfg now) (d.insertPeer C cfg now)

namespace Device

variable {C : Crypto} {d d' : Device} {q : Key} {a : Action} {evs : List Event}

/-- A step of a task of a peer. -/
lemma taskStep_effect {task : PeerNode → Store → PeerNode.TaskStep} {dead : PeerNode → PeerNode}
    (h : d.taskStep q task dead = some (d', evs))
    (hret : ∀ {n st' n' evs}, task n d.store = some (.ret (st', n', evs)) →
      n.Moves C d.store q a n')
    (hpanic : ∀ {n}, task n d.store = some .panic → n.Moves C d.store q a (dead n)) :
    d.Effect C a d' := by
  unfold taskStep at h
  split at h
  · cases h
  · next n hn =>
    split at h
    · cases h
    · next hp =>
      cases h
      exact .node hn rfl rfl rfl (hpanic hp)
    · next hr =>
      cases h
      exact .node hn rfl rfl rfl (hret hr)

/-- A call that changes the data of a peer. -/
lemma callPeer_effect {f : Peer → Peer} (h : d.callPeer q f = some (d', evs))
    (hf : ∀ n : PeerNode, n.Moves C d.store q a { n with peer := f n.peer }) :
    d.Effect C a d' := by
  obtain ⟨n, hn, heq⟩ := Option.map_eq_some_iff.mp h
  cases heq
  exact .node hn rfl rfl rfl (hf n)

/-- **What the steps of a device do to its peers.**

**Proof sketch.** Each action is a step of one task or a call that changes one peer. -/
theorem step_effect (h : d.step C a = some (d', evs)) : d.Effect C a d' := by
  cases a with
  | receive endpoint payload env =>
    rw [step] at h
    split_ifs at h
    split at h
    · cases h
      exact .dropped rfl rfl
    · cases h
      exact .dropped rfl rfl
    · next cookie q e sent _ =>
      obtain rfl : (({ d with cookie } : Device).stageInbound q e).1 = d' :=
        congrArg Prod.fst (Option.some.inj h)
      unfold stageInbound
      split
      · exact .dropped rfl rfl
      · next n hn => exact .node hn rfl rfl rfl (.staged e)
  | tunRecv buf =>
    rw [step] at h
    split_ifs at h
    split at h
    · cases h
      exact .unrouted rfl rfl rfl
    · cases h
      exact .unrouted rfl rfl rfl
    · next q _ =>
      obtain rfl : (d.stageOutbound q buf).1 = d' := congrArg Prod.fst (Option.some.inj h)
      unfold stageOutbound
      split
      · exact .unrouted rfl rfl rfl
      · next n hn => exact .node hn rfl rfl rfl .routed
  | handshake q env =>
    rw [step] at h
    exact taskStep_effect h .handshake .handshakePanic
  | inbound q env =>
    rw [step] at h
    exact taskStep_effect h .inbound .inboundPanic
  | outbound q env =>
    rw [step] at h
    exact taskStep_effect h .outbound fun hp => absurd hp PeerNode.outboundStep_ne_panic
  | keepalive q env =>
    rw [step] at h
    exact taskStep_effect h .keepalive fun hp => absurd hp PeerNode.keepaliveStep_ne_panic
  | insertPeer cfg now =>
    cases h
    exact .insertPeer cfg now
  | setOnline q val =>
    rw [step] at h
    exact callPeer_effect h fun _ => .setOnline
  | updateEndpoint q endpoint =>
    rw [step] at h
    exact callPeer_effect h fun _ => .updateEndpoint
  | clearEndpoint q =>
    rw [step] at h
    exact callPeer_effect h fun _ => .clearEndpoint

variable (C)

/-- What a task of a peer can do on its own, the device can do. -/
lemma run_of_alone {C : Crypto} {p : Key} {task : PeerNode → Store → Env → PeerNode.TaskStep}
    {dead : PeerNode → PeerNode} (act : Env → Action)
    (hact : ∀ d env, step C d (act env) = d.taskStep p (fun n st => task n st env) dead)
    {ok : Store × PeerNode → Env → Prop} {guard : Device → Action → Prop}
    (hok : ∀ {d x env}, d.peers p = some x.2 → ok x env → guard d (act env))
    {d : Device} {n : PeerNode} {tr : List Event} {x : Store × PeerNode} (hn : d.peers p = some n)
    (run : Run (PeerNode.alone task) ok (d.store, n) tr x) :
    Run (step C) guard d tr ({ d with store := x.1 }.setPeer p x.2) := by
  induction run with
  | nil =>
    have hd : ({ d with store := d.store } : Device).setPeer p n = d := by
      rw [setPeer, ← hn, Function.update_eq_self]
    rw [hd]
    exact .nil
  | @snoc tr x x' env evs run ok h ih =>
    refine ih.snoc (hok (by simp) ok) ?_
    rw [PeerNode.alone] at h
    split at h
    · next st n' evs hstep =>
      cases h
      simp only [hact, taskStep, peers_setPeer, Function.update_self]
      show (match task x.2 x.1 env with
        | none => none
        | some .panic => _
        | some (.ret (st, n, evs)) => _) = _
      rw [hstep]
      simp [setPeer, Function.update_idem]
    · cases h

/-- A run of a new device, all of whose steps meet `guard`, leads to `d` and emits `tr`. -/
def Reaches (d : Device) (privateKey : Key) (start : UInt32) (guard : Device → Action → Prop)
    (tr : List Event) : Prop :=
  Run (step C) guard (Device.new C privateKey start) tr d

end Device

/-! ## A device and a peer to run

Runs of a device can be evaluated with the sample primitives: a device, and the packets that its
peer, or an attacker, sends to it. The peer is the same program, so its packets come from the same
functions. -/

namespace Sample

/-- The private key of the device. -/
def localKey : Key := Crypto.leBlock 32 11

/-- The private key of the peer. -/
def remoteKey : Key := Crypto.leBlock 32 22

/-- The public key of the peer. -/
def remote : Key := Crypto.sample.publicKey remoteKey

/-- Where the peer is. -/
def endpoint : OutboundSender := ⟨0, ⟨.v4 0xC0000202#32, 51820⟩, "Udp"⟩

/-- Where an attacker is. -/
def elsewhere : OutboundSender := ⟨0, ⟨.v4 0xC0000263#32, 4000⟩, "Udp"⟩

/-- The peer as it is configured, with one address. -/
def config : PeerConfig where
  publicKey := remote
  allowedIps := [⟨.v4 0x0A000002#32, 32⟩]
  endpoint := some endpoint.dst
  presharedKey := none
  isOnline := true
  persistentKeepalive := none
  ipAddr := ""

/-- Ten minutes after the start, with the ephemeral key `e`; sending succeeds. -/
def env (e : ℕ) : Env :=
  ⟨Duration.fromSecs 600, 0, Crypto.leBlock 32 e, Block.zero 24, Block.zero 32, true⟩

/-- The first session index of the device. -/
def start : UInt32 := 7

/-- The device when it is new. -/
def device : Device := .new .sample localKey start

/-- A step of the handshake task of the peer. -/
def handshake : Action := .handshake remote (env 44)

/-- A step of the handshake task of the peer, ten minutes later. -/
def handshakeLater : Action := .handshake remote { env 66 with now := Duration.fromSecs 1200 }

/-- A step of the inbound task of the peer. -/
def inbound : Action := .inbound remote (env 55)

/-- A step of the outbound task of the peer. -/
def outbound : Action := .outbound remote (env 0)

/-- The device initiates a handshake with the peer. -/
def initiate : List Action := [.insertPeer config 0, handshake, handshake, handshake]

/-- The half-initialised session of that handshake. -/
def placeholder : Session :=
  ⟨(LocalStaticSecret.new .sample localKey).withPeer remote, start, Block.zero 32, 0, Block.zero 32,
    0⟩

/-- The packets that the device sends in a run. -/
def sentPackets (as : List Action) : List Bytes :=
  match exec (Device.step .sample) device as with
  | some (_, tr) => (tr.filterMap Event.sent?).map Prod.snd
  | none => []

/-- The static secret of the peer for the device. -/
def remoteSecret : PeerStaticSecret :=
  (LocalStaticSecret.new .sample remoteKey).withPeer (Crypto.sample.publicKey localKey)

/-- The sessions of the peer before it has any. -/
def remoteStore : Store := ⟨.new 900, .empty⟩

/-- The response of the peer to the initiation of the device. -/
def response : Bytes :=
  match (sentPackets (initiate ++ [handshake])).head?.map Message.parse with
  | some (.ret (.ok (.handshakeInitiation p))) =>
    match IncomingInitiation.parse .sample (.new .sample remoteKey) p with
    | .ret (.ok inc) =>
      match (Handshake.new .sample remoteSecret).respond .sample remoteStore (env 77) inc with
      | .ret (.ok (_, _, packet)) => packet
      | _ => []
    | _ => []
  | _ => []

/-- The handshake of the peer with the device, and its initiation. -/
def initiation : Handshake × Bytes :=
  match (Handshake.new .sample remoteSecret).initiate .sample remoteStore (env 33) with
  | .ret (handshake, _, _, packet) => (handshake, packet)
  | .panic => (.new .sample remoteSecret, [])

/-- The device gets the initiation of the peer and answers it. -/
def answer : List Action :=
  [.insertPeer config 0, .receive endpoint initiation.2 (env 0), inbound, inbound, inbound, inbound,
    inbound]

/-- The session that the peer has after the answer of the device. -/
def session : Option Session :=
  match (sentPackets answer).head?.map Message.parse with
  | some (.ret (.ok (.handshakeResponse r))) =>
    match initiation.1.finalize .sample remoteStore r with
    | .ok (_, s) => some s
    | .error _ => none
  | _ => none

/-- A data packet of the peer. -/
def packet (counter : UInt64) (data : Bytes) : Bytes :=
  match session with
  | some s =>
    (TransportData.mk s.receiverIndex counter
      (Crypto.sealed s.senderKey (counterNonce counter) data [])).toBytes
  | none => []

/-- An IPv4 packet without payload. -/
def ipPacket (src dst : Bytes) : Bytes := 0x45 :: List.replicate 11 0 ++ src ++ dst

/-- A packet from the TUN device for the peer. -/
def tunRecv : Action := .tunRecv (ipPacket [10, 0, 0, 1] [10, 0, 0, 2])

end Sample

end Vlink
