import Vlink.Device.System

set_option autoImplicit false

/-!
# What a step does to the sessions

The view of a device keeps what the life of sessions depends on: the index and the cells, and for
every peer its slots, the sessions its tasks hold on their way into a slot, and the data packets
that are waiting for it with the sessions they were staged with. Endpoints, monitors, clocks and
the contents of most packets are left out.

`PeerView.Step` says everything that a step can do to the view of one peer and to the shared
sessions. Statements about sessions are proved from it and hold for the device because every step
of the device is such a step of one peer.

## Main definitions

* `Vlink.PeerView`, `Vlink.View` — the view of a peer and of a device.
* `Vlink.PeerView.Step`, `Vlink.View.Step` — the steps of a view.
* `Vlink.Device.Moved` — what a step does to the parts of a device.

## Main results

* `Vlink.Device.step_moved` — every step of a device leaves it alone, is a step of one peer, or adds
  a peer.
* `Vlink.Device.step_view` — every step of a device is a step of its view.
-/

namespace Vlink

/-! ## Views -/

/-- The view of a peer. -/
structure PeerView where
  /-- The slots. -/
  slots : ActiveSession
  /-- Index and ephemeral private key of the last initiation. -/
  initiation : Option (UInt32 × Key)
  /-- The session that the handshake task is about to put into the slots. -/
  preparing : Option Session
  /-- The session that the inbound task is about to put into the slots after `respond`. -/
  responding : Option Session
  /-- The session that the inbound task is about to put into the slots after `finalize`. -/
  finalized : Option Session
  /-- The data packets that are staged or being handled, with their sessions. -/
  queue : List (TransportData × Session)

/-- The view of a device. -/
structure View where
  store : Store
  peer : Key → PeerView

/-- The view of a new peer, and of one that is not there. -/
def PeerView.empty : PeerView := ⟨.new, none, none, none, none, []⟩

/-- Index and ephemeral key of an initiation. -/
def HandshakeState.initiation? : HandshakeState → Option (UInt32 × Key)
  | .initiation i => some (i.index, i.ephemeralPrivateKey)
  | .uninit => none

/-- The session that the handshake task holds. -/
def HandshakeTask.preparing? : HandshakeTask → Option Session
  | .preparing next _ => some next
  | _ => none

/-- The session that the inbound task holds after `respond`. -/
def InboundTask.responding? : InboundTask → Option Session
  | .responded _ session _ => some session
  | _ => none

/-- The session that the inbound task holds after `finalize`. -/
def InboundTask.finalized? : InboundTask → Option Session
  | .finalized _ session => some session
  | _ => none

/-- The data packet that the inbound task handles. -/
def InboundTask.handling : InboundTask → List (TransportData × Session)
  | .checking _ packet session => [(packet, session)]
  | _ => []

/-- The data packet of an event. -/
def InboundEvent.packet? : InboundEvent → Option (TransportData × Session)
  | .transportData _ packet session => some (packet, session)
  | _ => none

/-- What a peer never changes: its public key, the static secret of its handshake, and what the
codes of its handshake packets are made with. -/
def Peer.keys (peer : Peer) : Key × PeerStaticSecret × MacGenerator :=
  (peer.pubKey, peer.handshake.secret, peer.handshake.macs)

/-- The view of a peer. -/
def PeerNode.view (n : PeerNode) : PeerView where
  slots := n.peer.sessions
  initiation := n.peer.handshake.state.initiation?
  preparing := n.handshakeTask.preparing?
  responding := n.inboundTask.responding?
  finalized := n.inboundTask.finalized?
  queue := n.inboundTask.handling ++ n.inbox.filterMap (·.packet?)

/-- The view of a device. -/
def Device.view (d : Device) : View where
  store := d.store
  peer p := match d.peers p with
    | some n => n.view
    | none => .empty

/-! ## Steps of a view -/

/-- Events that say nothing about sessions. -/
def Event.Silent : Event → Prop
  | .sent _ _ | .routed _ _ | .published _ | .panicked _ => True
  | _ => False

/-- What a step can do to the view `v` of the peer `p` and to the shared sessions `st`; `inp` is
the datagram that the step handles, if any. -/
inductive PeerView.Step (C : Crypto) (inp : Option Bytes) (p : Key) (st : Store) (v : PeerView) :
    List Event → Store → PeerView → Prop
  /-- Nothing, or a task gives up what it holds. -/
  | lose {v' : PeerView} {evs : List Event} (silent : ∀ e ∈ evs, e.Silent)
      (slots : v'.slots = v.slots) (initiation : v'.initiation = v.initiation)
      (preparing : ∀ {s}, v'.preparing = some s → v.preparing = some s)
      (responding : ∀ {s}, v'.responding = some s → v.responding = some s)
      (finalized : ∀ {s}, v'.finalized = some s → v.finalized = some s)
      (queue : ∀ x ∈ v'.queue, x ∈ v.queue) : Step C inp p st v evs st v'
  /-- `initiate`. -/
  | initiate {e : Key} {s : Session} (free : v.preparing = none)
      (index : s.senderIndex = st.index.index) (cell : s.shared = st.heap.size) :
      Step C inp p st v [.initiated p e s] ⟨st.index.nextIndex.2, st.heap.alloc⟩
        { v with initiation := some (st.index.index, e), preparing := some s }
  /-- `prepare_uninit`. -/
  | prepareUninit {s : Session} {t : SessionIndex} (held : v.preparing = some s)
      (index : t.index = st.index.index)
      (indexes : t.indexes = Function.update (ActiveSession.forget st.index.indexes v.slots.uninit)
        s.senderIndex (some s)) :
      Step C inp p st v [] { st with index := t }
        { v with slots := { v.slots with uninit := some s }, preparing := none }
  /-- `respond`. -/
  | respond {inc : IncomingInitiation} {e : Key} {s : Session} (free : v.responding = none)
      (index : s.senderIndex = st.index.index) (cell : s.shared = st.heap.size) :
      Step C inp p st v [.responded p inc e s] ⟨st.index.nextIndex.2, st.heap.alloc⟩
        { v with responding := some s }
  /-- `prepare_next`. -/
  | prepareNext {s : Session} {t : SessionIndex} (held : v.responding = some s)
      (index : t.index = st.index.index)
      (indexes : t.indexes = Function.update
        (if v.slots.next.isSome then ActiveSession.forget st.index.indexes v.slots.previous
          else st.index.indexes) s.senderIndex (some s)) :
      Step C inp p st v [] { st with index := t }
        { v with
          slots := { v.slots with previous := v.slots.next.or v.slots.previous, next := some s }
          responding := none }
  /-- `finalize`. -/
  | finalize {i : UInt32} {e : Key} {s : Session} (initiation : v.initiation = some (i, e))
      (index : s.senderIndex = i) (cell : s.shared = st.heap.size) :
      Step C inp p st v [.finalized p e s] { st with heap := st.heap.alloc }
        { v with finalized := some s }
  /-- `complete_uninit` that finds the session half-initialised. -/
  | completeUninit {s u : Session} {t : SessionIndex} (held : v.finalized = some s)
      (uninit : v.slots.uninit = some u) (same : u.senderIndex = s.senderIndex)
      (index : t.index = st.index.index)
      (indexes : t.indexes = ActiveSession.forget
        (Function.update (ActiveSession.forget st.index.indexes (some u)) s.senderIndex (some s))
        v.slots.previous) :
      Step C inp p st v [.installed p s] { st with index := t }
        { v with
          slots := { v.slots with
            uninit := none, previous := v.slots.current, current := some s }
          finalized := none }
  /-- A data packet is staged. -/
  | stage {payload : Bytes} {packet : TransportData} {s : Session} (received : inp = some payload)
      (parsed : Message.parse payload = .ret (.ok (.transportData packet)))
      (found : st.index.indexes packet.receiverIndex = some s)
      (counter : packet.counter.toNat ≤ rejectAfterMessages) (owner : s.secret.publicKey = p) :
      Step C inp p st v [.staged p packet s] st { v with queue := v.queue ++ [(packet, s)] }
  /-- `complete_next` that finds the session of a data packet waiting. -/
  | completeNext {packet : TransportData} {s n : Session} {t : SessionIndex}
      (held : (packet, s) ∈ v.queue) (next : v.slots.next = some n)
      (same : n.senderIndex = s.senderIndex) (index : t.index = st.index.index)
      (indexes : t.indexes = Function.update
        (ActiveSession.forget (ActiveSession.forget st.index.indexes (some n)) v.slots.previous)
        s.senderIndex (some s)) :
      Step C inp p st v [.installed p s] { st with index := t }
        { v with
          slots := { v.slots with next := none, previous := v.slots.current, current := some s } }
  /-- A data packet passes the replay check and cannot be decrypted. -/
  | forged {packet : TransportData} {s : Session} {ep : OutboundSender}
      {queue : List (TransportData × Session)} (handled : v.queue = (packet, s) :: queue)
      (fresh : s.canAccept st.heap packet.counter = .ret true) :
      Step C inp p st v [.passed p s packet.counter ep] st { v with queue }
  /-- An empty data packet passes the replay check and is decrypted. -/
  | keepalive {packet : TransportData} {s : Session} {ep : OutboundSender}
      {queue : List (TransportData × Session)} (handled : v.queue = (packet, s) :: queue)
      (fresh : s.canAccept st.heap packet.counter = .ret true)
      (decrypted : s.decryptData C packet = .ok []) :
      Step C inp p st v [.passed p s packet.counter ep, .opened p s packet.counter []] st
        { v with queue }
  /-- A data packet passes the replay check, is decrypted and passed on. -/
  | deliver {packet : TransportData} {s : Session} {ep : OutboundSender} {data : Bytes}
      {queue : List (TransportData × Session)} {heap : Heap}
      (handled : v.queue = (packet, s) :: queue)
      (fresh : s.canAccept st.heap packet.counter = .ret true) (nonempty : data ≠ [])
      (decrypted : s.decryptData C packet = .ok data)
      (accepted : s.aceept st.heap packet.counter = .ret heap) :
      Step C inp p st v
        [.passed p s packet.counter ep, .opened p s packet.counter data, .tunSend p s data]
        { st with heap } { v with queue }
  /-- `encrypt_data` with the current session. -/
  | encrypt {s : Session} (current : v.slots.current = some s) :
      Step C inp p st v [.encrypted p s (s.nextNonce st.heap).1]
        { st with heap := (s.nextNonce st.heap).2 } v

/-- **Delivered data.** What holds whenever data is written to the TUN device still does after a
step, if it holds of the data packet that the step may handle. -/
lemma PeerView.Step.historically_tunSend {C : Crypto} {inp : Option Bytes} {p : Key}
    {st st' : Store} {v v' : PeerView} {tr evs : List Event}
    {P : List Event → Key → Session → Bytes → Prop}
    (hstep : PeerView.Step C inp p st v evs st' v')
    (hdeliver : ∀ {packet s data} (opened : List Event), (packet, s) ∈ v.queue → data ≠ [] →
      s.decryptData C packet = .ok data → P (tr ++ opened) p s data)
    (ht : Historically (fun past e => ∀ q s data, e = .tunSend q s data → P past q s data) tr) :
    Historically (fun past e => ∀ q s data, e = .tunSend q s data → P past q s data)
      (tr ++ evs) := by
  cases hstep with
  | lose silent =>
    refine ht.append fun past e he q s data heq => ?_
    subst heq
    exact absurd (silent _ he) id
  | prepareUninit => simpa using ht
  | prepareNext => simpa using ht
  | keepalive => exact historically_concat₂.mpr ⟨ht, by simp, by simp⟩
  | deliver handled _ nonempty decrypted =>
    refine historically_concat₃.mpr ⟨ht, by simp, by simp, fun q s data heq => ?_⟩
    cases heq
    exact hdeliver _ (handled ▸ List.mem_cons_self) nonempty decrypted
  | _ => exact historically_concat.mpr ⟨ht, by simp⟩

/-- A step of a view is a step of one peer. -/
inductive View.Step (C : Crypto) (inp : Option Bytes) (v : View) (evs : List Event) : View → Prop
  | mk {p st pv} (h : PeerView.Step C inp p v.store (v.peer p) evs st pv) :
      View.Step C inp v evs ⟨st, Function.update v.peer p pv⟩

/-! ## The steps of a device are steps of its view -/

/-- A step that leaves the view of a peer alone. -/
lemma PeerView.Step.same {C : Crypto} {inp : Option Bytes} {p : Key} {st : Store} {v : PeerView}
    {evs : List Event} (silent : ∀ e ∈ evs, e.Silent) : PeerView.Step C inp p st v evs st v :=
  .lose silent rfl rfl id id id fun _ => id

namespace PeerNode

variable {C : Crypto} {n n' : PeerNode} {st st' : Store} {env : Env} {evs : List Event}

/-- A task of a peer makes a step of the view, and the peer keeps its keys. -/
structure Stepped (C : Crypto) (inp : Option Bytes) (n : PeerNode) (st : Store) (evs : List Event)
    (st' : Store) (n' : PeerNode) : Prop where
  view : PeerView.Step C inp n.peer.pubKey st n.view evs st' n'.view
  keys : n'.peer.keys = n.peer.keys

/-- What `send_outbound` does says nothing about sessions. -/
lemma silent_sendOutbound (n : PeerNode) (env : Env) (buf : Bytes) :
    ∀ e ∈ n.sendOutbound env buf, e.Silent := by
  intro e he
  unfold sendOutbound at he
  split at he
  · split_ifs at he
    · cases List.mem_singleton.mp he
      trivial
    · cases he
  · cases List.mem_singleton.mp he
    trivial

/-- The handshake task goes on without a session in hand. -/
private lemma lose_preparing {task : HandshakeTask} {peer : Peer}
    (silent : ∀ e ∈ evs, e.Silent) (slots : peer.sessions = n.peer.sessions)
    (state : peer.handshake.state = n.peer.handshake.state)
    (keys : peer.keys = n.peer.keys) (ht : task.preparing? = none) :
    Stepped C none n st evs st { n with peer, handshakeTask := task } where
  view := .lose silent slots (congrArg HandshakeState.initiation? state)
    (fun h => by rw [PeerNode.view, ht] at h; cases h) id id fun _ => id
  keys := keys

/-- A step of the handshake task in the view. -/
lemma handshakeStep_view (h : n.handshakeStep C st env = some (.ret (st', n', evs))) :
    Stepped C none n st evs st' n' := by
  cases handshakeStep_move h with
  | check => exact lose_preparing (by simp) rfl rfl rfl (by split_ifs <;> rfl)
  | @initiate _ _ next packet ht hi =>
    obtain ⟨out, payload, hout, heq⟩ := Handshake.initiate_eq_ret.mp hi
    simp only [Prod.mk.injEq] at heq
    obtain ⟨rfl, rfl, hnext, rfl⟩ := heq
    obtain ⟨hidx, heph⟩ := OutgoingInitiation.new_fields hout
    have hview : ({ n with
        peer := { n.peer with handshake := { n.peer.handshake with state := .initiation out } }
        handshakeTask := .preparing next packet } : PeerNode).view =
        { n.view with
          initiation := some (st.index.index, env.ephemeral), preparing := some next } := by
      simp [view, HandshakeState.initiation?, HandshakeTask.preparing?, hidx, heph]
    refine ⟨?_, rfl⟩
    rw [hview]
    exact .initiate (by rw [view, ht]; rfl) (by rw [hnext]) (by rw [hnext])
  | @prepare next _ _ _ ht hp =>
    obtain ⟨t', hspec, hidx, htab⟩ := ActiveSession.prepareUninit_spec st.index n.peer.sessions next
    rw [hspec] at hp
    cases hp
    exact ⟨.prepareUninit (s := next) (by rw [PeerNode.view, ht]; rfl) hidx htab, rfl⟩
  | send => exact lose_preparing (n.silent_sendOutbound env _) rfl rfl rfl rfl
  | initiated | rest | wake => exact lose_preparing (by simp) rfl rfl rfl rfl

/-- The inbound task goes on without a session in hand, and may be done with a data packet. -/
private lemma lose_inbound {task : InboundTask} {peer : Peer} {inbox : List InboundEvent}
    {outbox : List Bytes} (silent : ∀ e ∈ evs, e.Silent)
    (slots : peer.sessions = n.peer.sessions)
    (state : peer.handshake.state = n.peer.handshake.state)
    (keys : peer.keys = n.peer.keys) (hr : task.responding? = none)
    (hf : task.finalized? = none)
    (queue : ∀ x ∈ task.handling ++ inbox.filterMap (·.packet?), x ∈ n.view.queue) :
    Stepped C none n st evs st { n with peer, inbox, outbox, inboundTask := task } where
  view := .lose silent slots (congrArg HandshakeState.initiation? state) id
    (fun h => by rw [PeerNode.view, hr] at h; cases h)
    (fun h => by rw [PeerNode.view, hf] at h; cases h) queue
  keys := keys

/-- What is left in the channel after an event was taken from it. -/
lemma mem_queue_of_inbox {e : InboundEvent} {inbox : List InboundEvent}
    (hinbox : n.inbox = e :: inbox) {x : TransportData × Session}
    (hx : x ∈ inbox.filterMap (·.packet?)) : x ∈ n.view.queue := by
  rw [view, hinbox]
  obtain ⟨e', he', hx⟩ := List.mem_filterMap.mp hx
  exact List.mem_append_right _ (List.mem_filterMap.mpr ⟨e', by simp [he'], hx⟩)

/-- A step of the inbound task in the view. -/
lemma inboundStep_view (h : n.inboundStep C st env = some (.ret (st', n', evs))) :
    Stepped C none n st evs st' n' := by
  cases inboundStep_move h with
  | @respond endpoint inc inbox _ _ _ _ ht hinbox hr =>
    obtain ⟨out, payload, -, s, hs, heq⟩ := Peer.respond_eq_ret.mp hr
    cases heq
    have hview : ({ n with
        peer := n.peer.countInbound handshakeInitiationPacketSize
        inbox
        inboundTask := .responded endpoint s payload } : PeerNode).view =
        { n.view with responding := some s } := by
      simp [view, ht, hinbox, InboundTask.responding?, InboundTask.finalized?,
        InboundTask.handling, InboundEvent.packet?, Peer.countInbound]
    refine ⟨?_, rfl⟩
    rw [Option.elim, hview]
    exact .respond (by rw [view, ht]; rfl) (by rw [hs]) (by rw [hs])
  | @finalize endpoint packet _ inbox _ _ _ _ ht hinbox hf =>
    rcases Peer.finalize_cases (C := C) n.peer st packet with
      hfin | ⟨out, inc, hstate, -, s, hs, hfin⟩
    · rw [hfin] at hf
      cases hf
      exact lose_inbound (by simp) rfl rfl rfl rfl rfl fun x => mem_queue_of_inbox hinbox
    · rw [hfin] at hf
      cases hf
      have hview : ({ n with
          peer := n.peer.countInbound handshakeResponsePacketSize
          inbox
          inboundTask := .finalized endpoint s } : PeerNode).view =
          { n.view with finalized := some s } := by
        simp [view, ht, hinbox, InboundTask.responding?, InboundTask.finalized?,
          InboundTask.handling, InboundEvent.packet?, Peer.countInbound]
      refine ⟨?_, rfl⟩
      rw [Option.elim, hview]
      exact .finalize (by rw [view, hstate]; rfl) (by rw [hs]) (by rw [hs])
  | cookie ht hinbox =>
    exact lose_inbound (by simp) rfl rfl rfl rfl rfl fun x => mem_queue_of_inbox hinbox
  | @promote endpoint packet session inbox _ _ _ ht hinbox hp =>
    have hmem : (packet, session) ∈ n.view.queue := by
      simp [view, hinbox, InboundEvent.packet?]
    have hqueue : InboundTask.handling (.checking endpoint packet session) ++
        inbox.filterMap (·.packet?) = n.view.queue := by
      simp [view, ht, hinbox, InboundTask.handling, InboundEvent.packet?]
    rcases Peer.promote_cases n.peer st env packet session with
      ⟨-, heq⟩ | ⟨next, t, hnext, hsame, hidx, htab, heq⟩
    · rw [heq] at hp
      cases hp
      exact lose_inbound (by simp) rfl rfl rfl rfl rfl (fun x hx => hqueue ▸ hx)
    · rw [heq] at hp
      cases hp
      have hview : ∀ peer : Peer, peer.handshake.state = n.peer.handshake.state →
          ({ n with peer, inbox, inboundTask := .checking endpoint packet session } :
            PeerNode).view = { n.view with slots := peer.sessions } := by
        intro peer hstate
        simp [view, ht, hinbox, hstate, InboundTask.responding?, InboundTask.finalized?,
          InboundTask.handling, InboundEvent.packet?]
      refine ⟨?_, rfl⟩
      rw [hview]
      · exact .completeNext hmem hnext hsame hidx htab
      · rfl
  | @prepareNext endpoint session packet _ _ ht hp =>
    obtain ⟨⟨t, slots⟩, hn, hp⟩ := Outcome.bind_eq_ret.mp hp
    obtain ⟨t', hspec, hidx, htab⟩ :=
      ActiveSession.prepareNext_spec st.index n.peer.sessions session
    rw [hspec] at hn
    cases hn
    cases hp
    have hview : ({ n with
        peer := { n.peer with sessions := { n.peer.sessions with
          previous := n.peer.sessions.next.or n.peer.sessions.previous, next := some session } }
        inboundTask := .prepared endpoint packet } : PeerNode).view =
        { n.view with
          slots := { n.view.slots with
            previous := n.view.slots.next.or n.view.slots.previous, next := some session }
          responding := none } := by
      simp [view, ht, InboundTask.responding?, InboundTask.finalized?, InboundTask.handling]
    refine ⟨?_, rfl⟩
    rw [hview]
    exact .prepareNext (by rw [view, ht]; rfl) hidx htab
  | @completeUninit endpoint session _ _ _ _ ht hc =>
    rcases Peer.completeUninit_cases n.peer st session with
      hno | ⟨u, t, hu, hsame, hidx, htab, hyes⟩
    · rw [hno] at hc
      cases hc
      exact lose_inbound (by simp) rfl rfl rfl rfl rfl (by simp [view, ht, InboundTask.handling])
    · rw [hyes] at hc
      cases hc
      have hview : ({ n with
          peer := { n.peer with sessions := { n.peer.sessions with
            uninit := none, previous := n.peer.sessions.current, current := some session } }
          inboundTask := .completed endpoint } : PeerNode).view =
          { n.view with
            slots := { n.view.slots with
              uninit := none, previous := n.view.slots.current, current := some session }
            finalized := none } := by
        simp [view, ht, InboundTask.responding?, InboundTask.finalized?, InboundTask.handling]
      refine ⟨?_, rfl⟩
      rw [if_pos rfl, hview]
      exact .completeUninit (by rw [view, ht]; rfl) hu hsame hidx htab
  | @receive _ packet session _ _ _ ht hc =>
    have hqueue : n.view.queue = (packet, session) :: n.inbox.filterMap (·.packet?) := by
      simp [view, ht, InboundTask.handling]
    have hview : ∀ endpoint,
        ({ n with peer := n.peer.updateEndpoint endpoint, inboundTask := .idle } : PeerNode).view =
        { n.view with queue := n.inbox.filterMap (·.packet?) } := by
      intro endpoint
      simp [view, ht, InboundTask.responding?, InboundTask.finalized?, InboundTask.handling,
        Peer.updateEndpoint]
    rcases Peer.receive_cases hc with ⟨-, heq⟩ | ⟨hfresh, hrest⟩
    · cases heq
      exact lose_inbound (by simp) rfl rfl rfl rfl rfl fun x hx =>
        hqueue ▸ List.mem_cons_of_mem _ hx
    · rcases hrest with ⟨e, -, heq⟩ | ⟨hd, heq⟩ | ⟨data, heap, hne, hd, ha, heq⟩
      all_goals
        cases heq
        refine ⟨?_, rfl⟩
        rw [hview]
      · exact .forged hqueue hfresh
      · exact .keepalive hqueue hfresh hd
      · exact .deliver hqueue hfresh hne hd ha
  | updateEndpoint ht | reply ht | initiated ht | completed ht | confirm ht =>
    exact lose_inbound (by simp [Event.Silent]) rfl rfl rfl rfl rfl
      (by simp [view, ht, InboundTask.handling])

/-- A step of the outbound task in the view. -/
lemma outboundStep_view (h : n.outboundStep C st env = some (.ret (st', n', evs))) :
    Stepped C none n st evs st' n' := by
  cases ht : n.outboundTask with
  | idle =>
    simp only [outboundStep, ht] at h
    split at h
    · cases h
    · next data outbox hout =>
      split at h
      · cases h
        exact ⟨.same (by simp [Event.Silent]), rfl⟩
      · next session hcur =>
        have hheap := session.encryptData_heap C st.heap data
        cases henc : session.encryptData C st.heap data with
        | mk r heap =>
          rw [henc] at h hheap
          subst hheap
          cases r with
          | ok packet =>
            cases h
            exact ⟨.encrypt hcur, rfl⟩
          | error e =>
            cases h
            exact ⟨.encrypt hcur, rfl⟩
  | sending buf =>
    simp only [outboundStep, ht] at h
    cases h
    exact ⟨.same (n.silent_sendOutbound env buf), rfl⟩
  | sent len =>
    simp only [outboundStep, ht] at h
    cases h
    exact ⟨.same (by simp), rfl⟩

/-- A keepalive in the view. -/
lemma keepaliveStep_view (h : n.keepaliveStep st env = some (.ret (st', n', evs))) :
    Stepped C none n st evs st' n' := by
  unfold keepaliveStep at h
  split at h
  · split_ifs at h
    · cases h
      exact ⟨.same (by simp), rfl⟩
    · cases h
      exact ⟨.same (by simp), rfl⟩
  · cases h

/-- A peer whose handshake task is gone. -/
lemma handshakeDead_view (n : PeerNode) (st : Store) (hevs : ∀ e ∈ evs, e.Silent) :
    Stepped C none n st evs st { n with handshakeTask := .dead } :=
  lose_preparing hevs rfl rfl rfl rfl

/-- A peer whose inbound task is gone. -/
lemma inboundDead_view (n : PeerNode) (st : Store) (hevs : ∀ e ∈ evs, e.Silent) :
    Stepped C none n st evs st { n with inboundTask := .dead } :=
  lose_inbound hevs rfl rfl rfl rfl rfl fun _ hx => List.mem_append_right _ hx

end PeerNode

namespace Device

variable {C : Crypto} {d d' : Device} {p : Key} {evs : List Event}

/-- Peers are kept under their own public key. -/
def Keyed (d : Device) : Prop := ∀ {p n}, d.peers p = some n → n.peer.pubKey = p

/-- The view of a peer. -/
lemma view_peer_some {n : PeerNode} (h : d.peers p = some n) : d.view.peer p = n.view := by
  simp [view, h]

/-- Replacing a peer in the view. -/
lemma view_setPeer (d : Device) (p : Key) (n : PeerNode) :
    (d.setPeer p n).view = ⟨d.store, Function.update d.view.peer p n.view⟩ := by
  simp only [view, setPeer, View.mk.injEq, true_and]
  funext q
  by_cases hq : q = p
  · subst hq
    simp
  · simp [hq]

end Device

/-- Nothing happens to the view. -/
lemma View.Step.same {C : Crypto} {inp : Option Bytes} {v : View} {evs : List Event}
    (silent : ∀ e ∈ evs, e.Silent) : View.Step C inp v evs v := by
  have step : View.Step C inp v evs ⟨v.store, Function.update v.peer (Block.zero 32) (v.peer _)⟩ :=
    ⟨PeerView.Step.same silent⟩
  rwa [Function.update_eq_self] at step

namespace Device

variable {C : Crypto} {d d' : Device} {p : Key} {evs : List Event}

/-- What a step does to a device, apart from its two loops: nothing, a step of one peer, or a new
peer; `inp` is the datagram that the step handles, if any. -/
inductive Moved (C : Crypto) (inp : Option Bytes) (d : Device) : List Event → Device → Prop
  | idle {evs : List Event} {d' : Device} (silent : ∀ e ∈ evs, e.Silent)
      (secret : d'.secret = d.secret) (cookie : d'.cookie = d.cookie) (store : d'.store = d.store)
      (peers : d'.peers = d.peers) : Moved C inp d evs d'
  | node {p : Key} {n n' : PeerNode} {st : Store} {evs : List Event} (hn : d.peers p = some n)
      (stepped : PeerNode.Stepped C inp n d.store evs st n') :
      Moved C inp d evs ({ d with store := st }.setPeer p n')
  | insertPeer (cfg : PeerConfig) (now : Instant) : Moved C inp d [] (d.insertPeer C cfg now)

/-- A step of a task of a peer. -/
private lemma taskStep_moved {task : PeerNode → Store → PeerNode.TaskStep}
    {dead : PeerNode → PeerNode}
    (htask : ∀ {n st st' n' evs}, task n st = some (.ret (st', n', evs)) →
      PeerNode.Stepped C none n st evs st' n')
    (hdead : ∀ {n st evs}, (∀ e ∈ evs, e.Silent) → PeerNode.Stepped C none n st evs st (dead n))
    (h : d.taskStep p task dead = some (d', evs)) : Moved C none d evs d' := by
  unfold taskStep at h
  split at h
  · cases h
  · next n hn =>
    split at h
    · cases h
    · cases h
      exact .node hn (hdead (by simp [Event.Silent]))
    · next st n' evs ht =>
      cases h
      exact .node hn (htask ht)

/-- A call that changes neither slots nor handshake nor key of a peer. -/
private lemma callPeer_moved {f : Peer → Peer}
    (hf : ∀ peer, (f peer).sessions = peer.sessions ∧ (f peer).handshake = peer.handshake ∧
      (f peer).pubKey = peer.pubKey)
    (h : d.callPeer p f = some (d', evs)) : Moved C none d evs d' := by
  obtain ⟨n, hn, heq⟩ := Option.map_eq_some_iff.mp h
  cases heq
  obtain ⟨hs, hh, hp⟩ := hf n.peer
  refine .node hn ⟨?_, by simp [Peer.keys, hh, hp]⟩
  have hview : ({ n with peer := f n.peer } : PeerNode).view = n.view := by
    simp [PeerNode.view, hs, hh]
  rw [hview]
  exact .same (by simp)

/-- Staging an event for a peer. -/
private lemma stageInbound_moved (hk : d.Keyed) {payload : Bytes} {e : InboundEvent}
    (he : ∀ {packet s}, e.packet? = some (packet, s) →
      Message.parse payload = .ret (.ok (.transportData packet)) ∧
        d.store.index.indexes packet.receiverIndex = some s ∧
        packet.counter.toNat ≤ rejectAfterMessages ∧ s.secret.publicKey = p) :
    Moved C (some payload) d (d.stageInbound p e).2 (d.stageInbound p e).1 := by
  unfold stageInbound
  split
  · exact .idle (by simp) rfl rfl rfl rfl
  · next n hn =>
    refine .node hn ⟨?_, rfl⟩
    cases e with
    | transportData endpoint packet s =>
      obtain ⟨hparsed, hfound, hcount, howner⟩ := he rfl
      have hview : ({ n with inbox := n.inbox ++ [.transportData endpoint packet s] } :
          PeerNode).view = { n.view with queue := n.view.queue ++ [(packet, s)] } := by
        simp [PeerNode.view, InboundEvent.packet?]
      rw [hview, hk hn]
      exact .stage rfl hparsed hfound hcount howner
    | _ =>
      refine .lose (by simp) rfl rfl id id id fun x hx => ?_
      simpa [PeerNode.view, InboundEvent.packet?] using hx

/-- A datagram. -/
private lemma receive_moved (hk : d.Keyed) {endpoint : OutboundSender} {payload : Bytes}
    {env : Env} (h : d.step C (.receive endpoint payload env) = some (d', evs)) :
    Moved C (some payload) d evs d' := by
  rw [step] at h
  split_ifs at h
  split at h
  · cases h
    exact .idle (by simp [Event.Silent]) rfl rfl rfl rfl
  · next cookie sent ht =>
    obtain ⟨rfl, rfl⟩ := tickInbound_eq_none ht
    cases h
    exact .idle (by simp) rfl rfl rfl rfl
  · next cookie p e sent ht =>
    cases h
    obtain ⟨hd, rfl, rfl⟩ := tickInbound_eq_some ht
    rw [List.nil_append]
    refine stageInbound_moved hk fun {packet s} hp => ?_
    rcases dispatch_eq_some hd with ⟨_, _, -, -, -, rfl⟩ | ⟨_, _, -, rfl⟩ | ⟨_, _, rfl⟩ |
      ⟨packet', s', hparsed, hs, hcount, rfl⟩
    · cases hp
    · cases hp
    · cases hp
    · cases hp
      obtain ⟨hfound, howner, -⟩ := getSessionByIndex_eq_some.mp hs
      exact ⟨hparsed, hfound, hcount, howner⟩

/-- What the steps of a device do. -/
theorem step_moved (hk : d.Keyed) {a : Action} (h : d.step C a = some (d', evs)) :
    Moved C a.datagram d evs d' := by
  cases a with
  | receive endpoint payload env => exact receive_moved hk h
  | tunRecv buf =>
    rw [step] at h
    split_ifs at h
    split at h
    · cases h
      exact .idle (by simp [Event.Silent]) rfl rfl rfl rfl
    · cases h
      exact .idle (by simp) rfl rfl rfl rfl
    · next p ht =>
      simp only [stageOutbound] at h
      split at h
      · cases h
        exact .idle (by simp) rfl rfl rfl rfl
      · next n hn =>
        cases h
        exact .node hn ⟨.same (by simp [Event.Silent]), rfl⟩
  | handshake p env =>
    exact taskStep_moved PeerNode.handshakeStep_view (PeerNode.handshakeDead_view _ _) h
  | inbound p env =>
    exact taskStep_moved PeerNode.inboundStep_view (PeerNode.inboundDead_view _ _) h
  | outbound p env =>
    exact taskStep_moved PeerNode.outboundStep_view (fun hs => ⟨.same hs, rfl⟩) h
  | keepalive p env =>
    exact taskStep_moved PeerNode.keepaliveStep_view (fun hs => ⟨.same hs, rfl⟩) h
  | insertPeer cfg now =>
    cases h
    exact .insertPeer cfg now
  | setOnline p val => exact callPeer_moved (f := (·.setOnline val)) (fun _ => ⟨rfl, rfl, rfl⟩) h
  | updateEndpoint p endpoint =>
    exact callPeer_moved (f := (·.updateEndpoint endpoint)) (fun _ => ⟨rfl, rfl, rfl⟩) h
  | clearEndpoint p => exact callPeer_moved (f := (·.clearEndpoint)) (fun _ => ⟨rfl, rfl, rfl⟩) h

/-- A peer after a step was there before it, with the same keys, or is new. -/
lemma Moved.node_before {inp : Option Bytes} {n' : PeerNode} (h : Moved C inp d evs d')
    (hn' : d'.peers p = some n') :
    (∃ n, d.peers p = some n ∧ n'.peer.keys = n.peer.keys) ∨
      ∃ secret : PeerStaticSecret, secret.localSecret = d.secret ∧ secret.publicKey = p ∧
        n'.peer.keys = (p, secret, .new C secret) := by
  cases h with
  | idle silent secret cookie store peers => exact .inl ⟨n', peers ▸ hn', rfl⟩
  | @node q n m st _ hn stepped =>
    rw [peers_setPeer, Function.update_apply] at hn'
    split_ifs at hn' with hq
    · cases hn'
      exact .inl ⟨n, hq ▸ hn, stepped.keys⟩
    · exact .inl ⟨n', hn', rfl⟩
  | insertPeer cfg now =>
    simp only [Device.insertPeer, Function.update_apply] at hn'
    split_ifs at hn' with hq
    · subst hq
      cases hn'
      cases hold : d.peers cfg.publicKey with
      | some n => exact .inl ⟨n, rfl, rfl⟩
      | none => cases hpsk : cfg.presharedKey <;> exact .inr ⟨_, rfl, rfl, rfl⟩
    · exact .inl ⟨n', hn', rfl⟩

/-- Steps keep peers under their own public key. -/
lemma Moved.keyed {inp : Option Bytes} (h : Moved C inp d evs d') (hk : d.Keyed) : d'.Keyed := by
  intro p n' hn'
  rcases h.node_before hn' with ⟨n, hn, hkeys⟩ | ⟨secret, -, -, hkeys⟩
  · exact (congrArg Prod.fst hkeys).trans (hk hn)
  · exact congrArg Prod.fst hkeys

/-- What is done to a device is a step of its view. -/
lemma Moved.view {inp : Option Bytes} (h : Moved C inp d evs d') (hk : d.Keyed) :
    View.Step C inp d.view evs d'.view := by
  cases h with
  | idle silent secret cookie store peers =>
    have hview : d'.view = d.view := by simp only [Device.view, store, peers]
    rw [hview]
    exact .same silent
  | @node p n n' st _ hn stepped =>
    obtain rfl : n.peer.pubKey = p := hk hn
    rw [view_setPeer]
    have step := stepped.view
    rw [← view_peer_some hn] at step
    exact ⟨step⟩
  | insertPeer cfg now =>
    -- a peer that is there stays, and a new one looks like none
    have hview : (d.insertPeer C cfg now).view = d.view := by
      simp only [Device.view, View.mk.injEq]
      refine ⟨rfl, funext fun q => ?_⟩
      simp only [Device.insertPeer, Function.update_apply]
      split_ifs with hq
      · subst hq
        cases d.peers cfg.publicKey <;> rfl
      · rfl
    rw [hview]
    exact .same (by simp)

/-- **Simulation.** Every step of a device is a step of its view. -/
theorem step_view (hk : d.Keyed) {a : Action} (h : d.step C a = some (d', evs)) :
    View.Step C a.datagram d.view evs d'.view ∧ d'.Keyed :=
  ⟨(step_moved hk h).view hk, (step_moved hk h).keyed hk⟩

/-- The view of a new device. -/
def initialView (start : UInt32) : View := ⟨⟨.new start, .empty⟩, fun _ => .empty⟩

/-- **Invariants of views.** What holds of the view of a new device, and is kept by every step of
a view that a guarded step of the device can make, holds of the view of every device reached. -/
lemma Reaches.view_invariant {privateKey : Key} {start : UInt32}
    {guard : Device → Action → Prop} {tr : List Event} {I : List Event → View → Prop}
    (run : d.Reaches C privateKey start guard tr) (init : I [] (initialView start))
    (next : ∀ {d tr a d' evs}, d.Reaches C privateKey start guard tr → I tr d.view → guard d a →
      d.step C a = some (d', evs) → View.Step C a.datagram d.view evs d'.view →
      I (tr ++ evs) d'.view) :
    I tr d.view ∧ d.Keyed := by
  refine Run.invariant (I := fun tr d => I tr d.view ∧ d.Keyed) ⟨init, ?_⟩ ?_ run
  · rintro p n ⟨⟩
  · rintro tr d a d' evs run ⟨hI, hk⟩ ok h
    obtain ⟨hview, hk'⟩ := step_view hk h
    exact ⟨next run hI ok h hview, hk'⟩

/-- Peers are kept under their own public key in every state. -/
lemma Reaches.keyed {privateKey : Key} {start : UInt32} {guard : Device → Action → Prop}
    {tr : List Event} (run : d.Reaches C privateKey start guard tr) : d.Keyed :=
  (run.view_invariant (I := fun _ _ => True) trivial fun _ _ _ _ _ => trivial).2

end Device

end Vlink
