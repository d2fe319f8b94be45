import Vlink.Device.Nonces
import Vlink.Device.Outbox
import Vlink.Device.Rounds
import Vlink.Device.Survival
import Vlink.Device.Timed

set_option autoImplicit false

/-!
# The tasks of a peer come to rest

Whatever a device has been through, the tasks of a peer that have not ended can work off what waits
for them: the inbound and the outbound channel become empty, and the handshake loop comes back to
its head. On the way the peer keeps its keys, sends only to endpoints that it knew of before, and
finds no channel full.

## Main definitions

* `Vlink.Timed.Works` — a step of a task of a peer that finds the room it needs.
* `Vlink.PeerNode.endpoints` — where packets of the peer have come from.
* `Vlink.PeerNode.Later` — what a peer keeps when its tasks go on.
* `Vlink.PeerNode.Quiet` — nothing waits.

## Main results

* `Vlink.Device.Reaches.handshakeTask_alive` — the handshake loop never ends.
* `Vlink.Timed.exists_quiet` — the channels become empty.
* `Vlink.Timed.exists_waiting` — the handshake loop comes back to its head.
-/

namespace Vlink

/-! ## Steps with a clock -/

/-- A step of a task of the peer `p`; sending succeeds. -/
def Action.OfTask (p : Key) : Action → Prop
  | .handshake q env | .inbound q env | .outbound q env => q = p ∧ env.sendOk = true
  | _ => False

/-- The peer `p` and the shared sessions have become `n` and `st`. -/
def Device.become (d : Device) (p : Key) (st : Store) (n : PeerNode) : Device :=
  { d with store := st }.setPeer p n

namespace Device

variable (d : Device) (p : Key) (st st' : Store) (n n' : PeerNode)

/-- The store is the new one. -/
@[simp] lemma store_become : (d.become p st n).store = st := rfl

/-- One peer is a new one. -/
@[simp] lemma peers_become : (d.become p st n).peers = Function.update d.peers p (some n) := rfl

/-- The second change counts. -/
@[simp] lemma become_become : (d.become p st n).become p st' n' = d.become p st' n' := by
  simp [become, setPeer]

/-- A change to what it was. -/
lemma become_self (hn : d.peers p = some n) : d.become p d.store n = d := by
  simp [become, setPeer, ← hn, Function.update_eq_self]

end Device

namespace Timed

variable {C : Crypto}

/-- A step of a task of the peer `p` that finds no channel full; sending succeeds. -/
def Works (C : Crypto) (p : Key) (s : Timed) (a : Action) : Prop :=
  a.OfTask p ∧ s.device.Roomy C a

/-- The steps of a device with a clock are steps of the device. -/
lemma run_device {guard : Timed → Action → Prop} {s s' : Timed} {tr : List Event}
    (run : Run (tick C) guard s tr s') :
    Run (Device.step C) (fun _ _ => True) s.device tr s'.device := by
  induction run with
  | nil => exact .nil
  | snoc _ _ h ih => exact ih.snoc trivial (tick_eq_some.mp h).2.2

/-- What a device does with one reading of the clock, it can do at that time. -/
lemma run_at {guard : Device → Action → Prop} {now : Instant}
    (hread : ∀ {d a}, guard d a → a.reading = some now) {d d' : Device} {clock : Instant}
    (hclock : clock ≤ now) {tr : List Event} (run : Run (Device.step C) guard d tr d') :
    ∃ clock' ≤ now, Run (tick C) (fun s a => guard s.device a) ⟨d, clock⟩ tr ⟨d', clock'⟩ := by
  induction run with
  | nil => exact ⟨clock, hclock, .nil⟩
  | @snoc tr d₁ d₂ a evs _ ok h ih =>
    obtain ⟨clock₁, hle, run⟩ := ih
    refine ⟨now, le_rfl, run.snoc ok (tick_eq_some.mpr ?_)⟩
    rw [hread ok]
    exact ⟨hle, rfl, h⟩

/-- What a task of a peer does on its own with one reading of the clock, the device can do at that
time. -/
lemma run_of_alone {p : Key} {task : PeerNode → Store → Env → PeerNode.TaskStep}
    {dead : PeerNode → PeerNode} (act : Env → Action)
    (hact : ∀ d env, Device.step C d (act env) = d.taskStep p (fun n st => task n st env) dead)
    {env : Env} {ok : Store × PeerNode → Env → Prop}
    (hok : ∀ {d : Device} {x a}, d.peers p = some x.2 → ok x a → a = env ∧ d.Roomy C (act a))
    (htask : (act env).OfTask p) (hread : (act env).reading = some env.now) {s : Timed}
    (hclock : s.clock ≤ env.now) {n : PeerNode} {tr : List Event} {x : Store × PeerNode}
    (hn : s.device.peers p = some n)
    (run : Run (PeerNode.alone task) ok (s.device.store, n) tr x) :
    ∃ clock ≤ env.now,
      Run (tick C) (Works C p) s tr ⟨s.device.become p x.1 x.2, clock⟩ := by
  have tasks : Run (Device.step C) (fun d a => a = act env ∧ d.Roomy C a) s.device tr
      (s.device.become p x.1 x.2) := by
    refine Device.run_of_alone act hact (fun hn h => ?_) hn run
    obtain ⟨rfl, hroom⟩ := hok hn h
    exact ⟨rfl, hroom⟩
  have hreads : ∀ {d : Device} {a : Action}, a = act env ∧ d.Roomy C a → a.reading = some env.now :=
    fun h => h.1 ▸ hread
  obtain ⟨clock, hle, run⟩ := run_at hreads hclock tasks
  exact ⟨clock, hle, run.mono fun _ a (h : a = act env ∧ _) => ⟨h.1 ▸ htask, h.2⟩⟩

end Timed

/-! ## What a peer keeps -/

/-- Where an event came from. -/
def InboundEvent.endpoint : InboundEvent → OutboundSender
  | .handshakeInitiation endpoint _ => endpoint
  | .handshakeResponse endpoint _ _ => endpoint
  | .cookieReply endpoint _ _ => endpoint
  | .transportData endpoint _ _ => endpoint

/-- Where the event came from that the inbound task is at. -/
def InboundTask.endpoint? : InboundTask → Option OutboundSender
  | .responded endpoint _ _ | .prepared endpoint _ | .replying endpoint _
  | .finalized endpoint _ | .completed endpoint | .confirming endpoint
  | .checking endpoint _ _ => some endpoint
  | .idle | .replied | .dead => none

/-- How many indexes the handshake loop is about to draw. -/
def HandshakeTask.draws : HandshakeTask → ℕ
  | .initiating => 1
  | _ => 0

/-- At most one index is drawn. -/
lemma HandshakeTask.draws_le (t : HandshakeTask) : t.draws ≤ 1 := by
  cases t <;> simp [draws]

namespace PeerNode

/-- The endpoint of the peer, and where the packets came from that wait for its inbound task. -/
def endpoints (n : PeerNode) : List OutboundSender :=
  n.peer.endpoint.toList ++ n.inboundTask.endpoint?.toList ++ n.inbox.map (·.endpoint)

/-- What the tasks of a peer keep: its keys, that it is online, and that it has an endpoint, which
is one that was known before. -/
structure Later (n n' : PeerNode) : Prop where
  keys : n'.peer.keys = n.peer.keys
  online : n'.peer.online = n.peer.online
  endpoints : ∀ ep ∈ n'.endpoints, ep ∈ n.endpoints
  located : n.peer.endpoint.isSome → n'.peer.endpoint.isSome
  handshakeTask : n.handshakeTask ≠ .dead → n'.handshakeTask ≠ .dead

/-- A peer is not earlier than itself. -/
lemma Later.refl (n : PeerNode) : Later n n := ⟨rfl, rfl, fun _ h => h, id, id⟩

/-- Steps after steps. -/
lemma Later.trans {n n' n'' : PeerNode} (h : Later n n') (h' : Later n' n'') : Later n n'' where
  keys := h'.keys.trans h.keys
  online := h'.online.trans h.online
  endpoints ep hep := h.endpoints ep (h'.endpoints ep hep)
  located := h'.located ∘ h.located
  handshakeTask := h'.handshakeTask ∘ h.handshakeTask

/-- The static secret of the handshake is one of the keys. -/
lemma Later.secret {n n' : PeerNode} (h : Later n n') :
    n'.peer.handshake.secret = n.peer.handshake.secret :=
  congrArg (fun k : Key × PeerStaticSecret × MacGenerator => k.2.1) h.keys

/-- Nothing waits for the inbound and the outbound task. -/
structure Quiet (n : PeerNode) : Prop where
  inboundTask : n.inboundTask = .idle
  inbox : n.inbox = []
  outboundTask : n.outboundTask = .idle
  outbox : n.outbox = []

/-! ## The inbound task -/

variable {C : Crypto} {n n' : PeerNode} {st st' : Store} {env : Env} {evs : List Event}

/-- Where an endpoint is kept. -/
lemma mem_endpoints {ep : OutboundSender} : ep ∈ n.endpoints ↔
    n.peer.endpoint = some ep ∨ n.inboundTask.endpoint? = some ep ∨
      ∃ e ∈ n.inbox, e.endpoint = ep := by
  simp [endpoints]

/-- The inbound task takes an event from its channel. -/
lemma Later.take {e : InboundEvent} {inbox : List InboundEvent} {peer : Peer} {task : InboundTask}
    (hbox : n.inbox = e :: inbox) (hkeys : peer.keys = n.peer.keys)
    (honline : peer.online = n.peer.online) (hep : peer.endpoint = n.peer.endpoint)
    (ht : ∀ ep, task.endpoint? = some ep → ep = e.endpoint) :
    n.Later { n with peer, inbox, inboundTask := task } where
  keys := hkeys
  online := honline
  endpoints ep h := by
    rw [mem_endpoints] at h ⊢
    rcases h with h | h | ⟨e', he', h⟩
    · exact .inl (hep ▸ h)
    · exact .inr (.inr ⟨e, by simp [hbox], (ht ep h).symm⟩)
    · exact .inr (.inr ⟨e', by simp [hbox, he'], h⟩)
  located h := by rwa [hep]
  handshakeTask := id

/-- The inbound task goes on with the event it is at. -/
lemma Later.go {peer : Peer} {outbox : List Bytes} {task : InboundTask}
    (hkeys : peer.keys = n.peer.keys) (honline : peer.online = n.peer.online)
    (hep : peer.endpoint = n.peer.endpoint ∨
      ∃ ep, n.inboundTask.endpoint? = some ep ∧ peer.endpoint = some ep)
    (ht : ∀ ep, task.endpoint? = some ep → n.inboundTask.endpoint? = some ep) :
    n.Later { n with peer, outbox, inboundTask := task } where
  keys := hkeys
  online := honline
  endpoints ep h := by
    rw [mem_endpoints] at h ⊢
    rcases h with h | h | h
    · rcases hep with hep | ⟨ep', ht', hep⟩
      · exact .inl (hep ▸ h)
      · exact .inr (.inl (ht'.trans (hep.symm.trans h)))
    · exact .inr (.inl (ht ep h))
    · exact .inr (.inr h)
  located h := by
    rcases hep with hep | ⟨ep', -, hep⟩
    · rwa [hep]
    · simp [hep]
  handshakeTask := id

/-- How many steps the inbound task has before it, at most. -/
def inboundLoad (n : PeerNode) : ℕ :=
  5 * n.inbox.length + match n.inboundTask with
    | .idle | .dead => 0
    | .replied | .confirming _ | .checking _ _ _ => 1
    | .replying _ _ | .completed _ => 2
    | .prepared _ _ | .finalized _ _ => 3
    | .responded _ _ _ => 4

/-- The peer keeps its keys and its endpoint in a step of the inbound task. -/
lemma inboundStep_later (h : n.inboundStep C st env = some (.ret (st', n', evs))) :
    n.Later n' := by
  cases inboundStep_move h with
  | @respond _ _ _ _ _ reply _ ht hbox hr =>
    obtain rfl := Peer.respond_peer hr
    refine .take hbox rfl rfl rfl fun ep hep => ?_
    cases reply <;> cases hep
    rfl
  | @finalize _ _ _ _ _ _ found _ ht hbox hf =>
    obtain rfl := Peer.finalize_peer hf
    refine .take hbox rfl rfl rfl fun ep hep => ?_
    cases found <;> cases hep
    rfl
  | cookie ht hbox => exact .take hbox rfl rfl rfl (by simp [InboundTask.endpoint?])
  | promote ht hbox hp =>
    rcases n.peer.promote_cases st env _ _ with ⟨-, heq⟩ | ⟨_, _, -, -, -, -, heq⟩
    all_goals
      rw [heq] at hp
      cases hp
      refine .take hbox rfl rfl rfl fun ep hep => ?_
      cases hep
      rfl
  | prepareNext ht hp =>
    obtain ⟨sessions, rfl⟩ := Peer.prepareNext_peer hp
    exact .go rfl rfl (.inl rfl) fun ep hep => by rw [ht]; exact hep
  | updateEndpoint ht =>
    exact .go rfl rfl (.inr ⟨_, by rw [ht]; rfl, rfl⟩) fun ep hep => by rw [ht]; exact hep
  | reply ht => exact .go rfl rfl (.inl rfl) (by simp [InboundTask.endpoint?])
  | initiated ht => exact .go rfl rfl (.inl rfl) (by simp [InboundTask.endpoint?])
  | @completeUninit _ _ done _ _ _ ht hp =>
    obtain ⟨sessions, rfl⟩ := Peer.completeUninit_peer hp
    refine .go rfl rfl (.inl rfl) fun ep hep => ?_
    rw [ht]
    cases done <;> cases hep
    rfl
  | completed ht => exact .go rfl rfl (.inl rfl) fun ep hep => by rw [ht]; exact hep
  | confirm ht =>
    exact .go rfl rfl (.inr ⟨_, by rw [ht]; rfl, rfl⟩) (by simp [InboundTask.endpoint?])
  | receive ht hp =>
    rcases Peer.receive_peer hp with ⟨-, rfl⟩ | ⟨-, rfl⟩
    · exact .go rfl rfl (.inl rfl) (by simp [InboundTask.endpoint?])
    · exact .go rfl rfl (.inr ⟨_, by rw [ht]; rfl, rfl⟩) (by simp [InboundTask.endpoint?])

/-- A step of the inbound task works off a part of what waits for it. -/
lemma inboundStep_load (h : n.inboundStep C st env = some (.ret (st', n', evs))) :
    n'.inboundLoad < n.inboundLoad := by
  cases inboundStep_move h with
  | @respond _ _ _ _ _ reply _ ht hbox =>
    cases reply <;> simp only [inboundLoad, ht, hbox, Option.elim, List.length_cons] <;> omega
  | @finalize _ _ _ _ _ _ found _ ht hbox =>
    cases found <;> simp only [inboundLoad, ht, hbox, Option.elim, List.length_cons] <;> omega
  | cookie ht hbox | promote ht hbox =>
    simp only [inboundLoad, ht, hbox, List.length_cons]
    omega
  | @completeUninit _ _ done _ _ _ ht =>
    cases done <;> simp [inboundLoad, ht]
  | _ ht => simp [inboundLoad, ht]

/-- The inbound task draws an index only for an event that it takes from its channel. -/
lemma inboundStep_draws (h : n.inboundStep C st env = some (.ret (st', n', evs))) :
    (drawnIndexes evs).length + n'.inbox.length ≤ n.inbox.length := by
  rcases inboundStep_events h with ⟨_, _, s, hbox, rfl⟩ | ⟨hlen, ⟨_, _, rfl⟩ | hinner⟩
  · simp [hbox, drawnIndexes, Event.drawnIndex?, Nat.add_comm]
  · simpa [drawnIndexes, List.filterMap_cons, Event.drawnIndex?] using hlen
  · have hnone : drawnIndexes evs = [] := List.filterMap_eq_nil_iff.mpr fun e he => by
      have hin := hinner e he
      cases e <;> first | rfl | cases hin
    simpa [hnone] using hlen

/-- The inbound task can go on unless it has nothing to do. -/
lemma inboundStep_isSome (C : Crypto) (st : Store) (env : Env) (halive : n.inboundTask ≠ .dead)
    (hbusy : ¬ (n.inboundTask = .idle ∧ n.inbox = [])) : ∃ r, n.inboundStep C st env = some r := by
  refine Option.ne_none_iff_exists'.mp ?_
  cases ht : n.inboundTask with
  | idle =>
    cases hbox : n.inbox with
    | nil => exact absurd ⟨ht, hbox⟩ hbusy
    | cons e inbox => simp [inboundStep, ht, hbox]
  | dead => exact absurd ht halive
  | _ => simp [inboundStep, ht]

/-! ## The outbound task -/

/-- Sending draws no index. -/
lemma drawnIndexes_sendOutbound (n : PeerNode) (env : Env) (buf : Bytes) :
    drawnIndexes (n.sendOutbound env buf) = [] := by
  unfold sendOutbound
  split
  · split_ifs <;> rfl
  · rfl

/-- How many steps the outbound task has before it. -/
def outboundLoad (n : PeerNode) : ℕ :=
  3 * n.outbox.length + match n.outboundTask with
    | .idle => 0
    | .sending _ => 2
    | .sent _ => 1

/-- A step of the outbound task works off a part of what waits for it, draws no index, and changes
nothing of the peer but its monitor. -/
lemma outboundStep_load (h : n.outboundStep C st env = some (.ret (st', n', evs))) :
    (∃ monitor outbox task,
      n' = { n with peer := { n.peer with monitor }, outbox, outboundTask := task }) ∧
      drawnIndexes evs = [] ∧ n'.outboundLoad < n.outboundLoad := by
  cases ht : n.outboundTask with
  | idle =>
    cases hbox : n.outbox with
    | nil => simp [outboundStep, ht, hbox] at h
    | cons data outbox =>
      simp only [outboundStep, ht, hbox] at h
      split at h
      · cases h
        exact ⟨⟨_, _, _, rfl⟩, rfl, by simp [outboundLoad, ht, hbox]⟩
      · split at h
        · cases h
          refine ⟨⟨_, _, _, rfl⟩, rfl, ?_⟩
          simp only [outboundLoad, ht, hbox, List.length_cons]
          omega
        · cases h
          exact ⟨⟨_, _, _, rfl⟩, rfl, by simp [outboundLoad, ht, hbox]⟩
  | sending buf =>
    simp only [outboundStep, ht] at h
    cases h
    exact ⟨⟨_, _, _, rfl⟩, drawnIndexes_sendOutbound n env buf, by simp [outboundLoad, ht]⟩
  | sent _ =>
    simp only [outboundStep, ht] at h
    cases h
    exact ⟨⟨_, _, _, rfl⟩, rfl, by simp [outboundLoad, ht]⟩

/-- The outbound task can go on unless it has nothing to do. -/
lemma outboundStep_goes (C : Crypto) (st : Store) (env : Env)
    (hbusy : ¬ (n.outboundTask = .idle ∧ n.outbox = [])) :
    ∃ st' n' evs, n.outboundStep C st env = some (.ret (st', n', evs)) := by
  have hsome : n.outboundStep C st env ≠ none := by
    cases ht : n.outboundTask with
    | idle =>
      cases hbox : n.outbox with
      | nil => exact absurd ⟨ht, hbox⟩ hbusy
      | cons data outbox =>
        simp only [outboundStep, ht, hbox]
        split
        · simp
        · split <;> simp
    | _ => simp [outboundStep, ht]
  obtain ⟨r, hr⟩ := Option.ne_none_iff_exists'.mp hsome
  cases r with
  | panic => exact absurd hr outboundStep_ne_panic
  | ret x => exact ⟨x.1, x.2.1, x.2.2, hr⟩

/-- The inbound task puts at most one packet in the outbound channel, and works off more than
that. -/
lemma inboundStep_weight (h : n.inboundStep C st env = some (.ret (st', n', evs))) :
    4 * n'.inboundLoad + n'.outboundLoad < 4 * n.inboundLoad + n.outboundLoad := by
  have hload := inboundStep_load h
  have hout : n'.outboundLoad ≤ n.outboundLoad + 3 := by
    cases inboundStep_move h with
    | confirm =>
      simp only [outboundLoad, List.length_append, List.length_singleton]
      omega
    | _ => exact Nat.le_add_right _ _
  omega

/-- The outbound task does not touch the inbound channel. -/
lemma outboundStep_weight (h : n.outboundStep C st env = some (.ret (st', n', evs))) :
    4 * n'.inboundLoad + n'.outboundLoad < 4 * n.inboundLoad + n.outboundLoad := by
  obtain ⟨⟨monitor, outbox, task, rfl⟩, -, hload⟩ := outboundStep_load h
  exact Nat.add_lt_add_left hload _

/-! ## Room in the outbound channel -/

/-- How many packets are in the outbound channel, or may yet be put there for the events that
wait. -/
def pending (n : PeerNode) : ℕ :=
  n.outbox.length + n.inbox.length + match n.inboundTask with
    | .idle | .dead => 0
    | _ => 1

/-- The inbound task puts at most one packet in the outbound channel for each event. -/
lemma inboundStep_pending (h : n.inboundStep C st env = some (.ret (st', n', evs))) :
    n'.pending ≤ n.pending := by
  cases inboundStep_move h with
  | @respond _ _ _ _ _ reply _ ht hbox =>
    cases reply <;> simp only [pending, ht, hbox, Option.elim, List.length_cons] <;> omega
  | @finalize _ _ _ _ _ _ found _ ht hbox =>
    cases found <;> simp only [pending, ht, hbox, Option.elim, List.length_cons] <;> omega
  | cookie ht hbox | promote ht hbox =>
    simp only [pending, ht, hbox, List.length_cons]
    omega
  | @completeUninit _ _ done _ _ _ ht =>
    cases done <;> simp [pending, ht]
  | confirm ht =>
    simp only [pending, ht, List.length_append, List.length_singleton]
    omega
  | _ ht => simp [pending, ht]

/-- An inbound task that handles what it has finds room for its confirmations, if there is a place
for each of them at the start. -/
lemma run_inbound_roomy (hroom : n.pending ≤ peerCapacity) {tr : List Event} {x : Store × PeerNode}
    (run : Run (alone (inboundStep C)) (fun _ a => a = env) (st, n) tr x) :
    Run (alone (inboundStep C))
      (fun x a => a = env ∧ (x.2.confirms = true → x.2.outbox.length < peerCapacity))
      (st, n) tr x := by
  refine run.upgrade fun {past x a x' evs rest} run ok _ _ => ⟨ok, fun hconfirms => ?_⟩
  have hle : x.2.pending ≤ n.pending := by
    refine Run.invariant (I := fun _ x => x.2.pending ≤ n.pending) le_rfl ?_ run
    intro tr x a x' evs _ ih _ h
    rw [alone] at h
    split at h
    · next hstep =>
      cases h
      exact (inboundStep_pending hstep).trans ih
    · cases h
  cases ht : x.2.inboundTask with
  | confirming endpoint =>
    simp only [pending, ht] at hle hroom
    omega
  | _ => simp [confirms, ht] at hconfirms

/-! ## The handshake loop -/

/-- How many steps the handshake loop has before it until it is back at its head. -/
def handshakeLoad (n : PeerNode) : ℕ :=
  match n.handshakeTask with
  | .waiting | .dead => 0
  | .sleeping _ => 1
  | .resting => 2
  | .sent => 3
  | .sending _ => 4
  | .preparing _ _ => 5
  | .initiating => 6

/-- The peer keeps its keys and its endpoint in a step of the handshake loop. -/
lemma handshakeStep_later (h : n.handshakeStep C st env = some (.ret (st', n', evs))) :
    n.Later n' := by
  have later : ∀ {peer : Peer} {task : HandshakeTask}, peer.keys = n.peer.keys →
      peer.online = n.peer.online → peer.endpoint = n.peer.endpoint → task ≠ .dead →
      n.Later { n with peer, handshakeTask := task } := by
    intro peer task hkeys honline hep ht
    exact ⟨hkeys, honline, fun ep h => by simpa [mem_endpoints, hep] using h, by simp [hep],
      fun _ => ht⟩
  cases handshakeStep_move h with
  | check => exact later rfl rfl rfl (by split_ifs <;> simp)
  | initiate _ hr =>
    obtain ⟨out, packet, -, heq⟩ := Handshake.initiate_eq_ret.mp hr
    cases heq
    exact later rfl rfl rfl (by simp)
  | _ => exact later rfl rfl rfl (by simp)

/-- The handshake loop draws an index only when it initiates. -/
lemma handshakeStep_draws (h : n.handshakeStep C st env = some (.ret (st', n', evs)))
    (hhead : n.handshakeTask ≠ .waiting) :
    (drawnIndexes evs).length + n'.handshakeTask.draws ≤ n.handshakeTask.draws := by
  cases handshakeStep_move h with
  | check ht => exact absurd ht hhead
  | send ht => simp [drawnIndexes_sendOutbound, HandshakeTask.draws, ht]
  | _ ht => simp [drawnIndexes, Event.drawnIndex?, HandshakeTask.draws, ht]

/-- Away from its head the handshake loop can always go on, once the time has come if it is
asleep. -/
lemma handshakeStep_goes (hC : C.Lawful) (n : PeerNode) (st : Store) (clock : Instant)
    (env : Env) (halive : n.handshakeTask ≠ .dead) (hhead : n.handshakeTask ≠ .waiting) :
    ∃ now, clock ≤ now ∧ ∃ st' n' evs,
      n.handshakeStep C st { env with now } = some (.ret (st', n', evs)) ∧
      n'.handshakeLoad < n.handshakeLoad := by
  cases ht : n.handshakeTask with
  | waiting => exact absurd ht hhead
  | dead => exact absurd ht halive
  | initiating =>
    obtain ⟨r, hinit⟩ := Handshake.initiate_returns hC n.peer.handshake st { env with now := clock }
    refine ⟨clock, le_rfl, _, _, _, by simp only [handshakeStep, ht, hinit]; rfl, ?_⟩
    simp [handshakeLoad, ht]
  | preparing next packet =>
    obtain ⟨t, hprep, -⟩ := ActiveSession.prepareUninit_spec st.index n.peer.sessions next
    refine ⟨clock, le_rfl, _, _, _, by simp only [handshakeStep, ht, hprep]; rfl, ?_⟩
    simp [handshakeLoad, ht]
  | sleeping wake =>
    refine ⟨max clock wake, Int.le_max_left .., _, _, _, by
      simp only [handshakeStep, ht]; exact if_pos (Int.le_max_right ..), ?_⟩
    simp [handshakeLoad, ht]
  | sending _ | sent | resting =>
    refine ⟨clock, le_rfl, _, _, _, by simp only [handshakeStep, ht]; rfl, ?_⟩
    simp [handshakeLoad, ht]

/-- The handshake loop has no call that can panic. -/
lemma handshakeStep_ne_panic (hC : C.Lawful) : n.handshakeStep C st env ≠ some .panic := by
  intro h
  cases ht : n.handshakeTask with
  | initiating =>
    obtain ⟨r, hinit⟩ := Handshake.initiate_returns hC n.peer.handshake st env
    simp [handshakeStep, ht, hinit] at h
  | preparing next packet =>
    obtain ⟨t, hprep, -⟩ := ActiveSession.prepareUninit_spec st.index n.peer.sessions next
    simp [handshakeStep, ht, hprep] at h
  | waiting | sleeping _ =>
    simp only [handshakeStep, ht] at h
    split_ifs at h <;> cases h
  | sending _ | sent | resting | dead => simp [handshakeStep, ht] at h

end PeerNode

/-! ## The device -/

namespace Device

variable {C : Crypto} {privateKey : Key} {start : UInt32} {guard : Device → Action → Prop}
  {tr : List Event} {d : Device}

/-- **The handshake loop never ends.** -/
theorem Reaches.handshakeTask_alive (hC : C.Lawful) (run : d.Reaches C privateKey start guard tr)
    {p : Key} {n : PeerNode} (hn : d.peers p = some n) : n.handshakeTask ≠ .dead := by
  refine Run.invariant (I := fun _ d => ∀ p n, d.peers p = some n → n.handshakeTask ≠ .dead)
    (by rintro p n ⟨⟩) ?_ run p n hn
  intro tr d a d' evs _ ih _ h p n hn
  cases step_effect h with
  | dropped peers => exact ih p n (peers ▸ hn)
  | unrouted peers => exact ih p n (peers ▸ hn)
  | @node _ q m m' _ hm peers _ _ moves =>
    rw [peers, Function.update_apply] at hn
    split_ifs at hn
    · cases hn
      have alive := ih q m hm
      cases moves with
      | handshake hstep => exact (PeerNode.handshakeStep_later hstep).handshakeTask alive
      | handshakePanic hstep => exact absurd hstep (PeerNode.handshakeStep_ne_panic hC)
      | inbound hstep => exact (PeerNode.inboundStep_later hstep).handshakeTask alive
      | outbound hstep =>
        obtain ⟨⟨_, _, _, rfl⟩, -⟩ := PeerNode.outboundStep_load hstep
        exact alive
      | keepalive hstep =>
        unfold PeerNode.keepaliveStep at hstep
        split at hstep
        · split_ifs at hstep <;> cases hstep <;> exact alive
        · cases hstep
      | staged | routed | inboundPanic | setOnline | updateEndpoint | clearEndpoint => exact alive
    · exact ih p n hn
  | insertPeer cfg now =>
    simp only [insertPeer, Function.update_apply] at hn
    split_ifs at hn
    · cases hn
      cases hold : d.peers cfg.publicKey with
      | none => simp
      | some m => exact ih _ m hold
    · exact ih p n hn

end Device

namespace Timed

variable {C : Crypto} {privateKey : Key} {start : UInt32} {tr₀ : List Event} {s : Timed} {p : Key}
  {n : PeerNode}

/-- **The channels become empty.** The inbound and the outbound task of a peer work off what waits
for them; an index is drawn at most for each packet that waits.

**Proof sketch.** A packet is sent whenever there is one. If there is none, the outbound channel is
empty, so that the inbound task finds a place in it. -/
lemma exists_quiet (hC : C.Lawful)
    (reached : s.device.Reaches C privateKey start (fun _ _ => True) tr₀)
    (hn : s.device.peers p = some n) (halive : n.inboundTask ≠ .dead) {env : Env}
    (hclock : s.clock ≤ env.now) (hsend : env.sendOk = true) :
    ∃ tr s' st' n', Run (tick C) (Works C p) s tr s' ∧
      s'.device = s.device.become p st' n' ∧ n.Later n' ∧ n'.Quiet ∧
      (drawnIndexes tr).length ≤ n.inbox.length := by
  obtain ⟨tr, x, run, ⟨-, -, st', n', hd, later, -, hdraws⟩, n'', hn'', quiet⟩ :
      ∃ tr x, Run (tick C) (Works C p) s tr x ∧
        (x.device.Reaches C privateKey start (fun _ _ => True) (tr₀ ++ tr) ∧ x.clock ≤ env.now ∧
          ∃ st' n', x.device = s.device.become p st' n' ∧ n.Later n' ∧ n'.inboundTask ≠ .dead ∧
            (drawnIndexes tr).length + n'.inbox.length ≤ n.inbox.length) ∧
        ∃ n', x.device.peers p = some n' ∧ n'.Quiet := by
    refine Run.exists_final _ _ (fun x : Timed => (x.device.peers p).elim 0 fun n =>
      4 * n.inboundLoad + n.outboundLoad) ⟨by rwa [List.append_nil], hclock, _, n,
        (s.device.become_self p n hn).symm, .refl n, halive, by simp [drawnIndexes]⟩ ?_
    rintro tr ⟨d, clock⟩ ⟨reached₁, hclock₁, st₁, n₁, hd, later₁, alive₁, hdraws⟩ hbusy
    obtain rfl : d = _ := hd
    have hn₁ : (s.device.become p st₁ n₁).peers p = some n₁ := by simp
    -- a step of one of the two tasks
    obtain ⟨a, st₂, n₂, evs, htask, hroom, hread, hstep, later₂, alive₂, hdraws₂, hweight⟩ :
        ∃ a st₂ n₂ evs, Action.OfTask p a ∧ (s.device.become p st₁ n₁).Roomy C a ∧
          a.reading = some env.now ∧ (s.device.become p st₁ n₁).step C a =
            some (s.device.become p st₂ n₂, evs) ∧ n₁.Later n₂ ∧ n₂.inboundTask ≠ .dead ∧
          (drawnIndexes evs).length + n₂.inbox.length ≤ n₁.inbox.length ∧
          4 * n₂.inboundLoad + n₂.outboundLoad < 4 * n₁.inboundLoad + n₁.outboundLoad := by
      by_cases hout : n₁.outboundTask = .idle ∧ n₁.outbox = []
      · obtain ⟨r, hr⟩ := PeerNode.inboundStep_isSome C st₁ env alive₁
          fun h => hbusy ⟨n₁, hn₁, ⟨h.1, h.2, hout.1, hout.2⟩⟩
        obtain ⟨⟨st₂, n₂, evs⟩, rfl⟩ :=
          (Device.inboundStep_returns_iff hC reached₁.filters hn₁ hr).mpr fun _ _ _ => hsend
        refine ⟨.inbound p env, st₂, n₂, evs, ⟨rfl, hsend⟩, fun _ => ?_, rfl, ?_,
          PeerNode.inboundStep_later hr, PeerNode.inboundStep_alive hr,
          PeerNode.inboundStep_draws hr, PeerNode.inboundStep_weight hr⟩
        · rw [Device.outbox_eq hn₁, hout.2]
          decide
        · rw [Device.step_inbound env hn₁ hr]
          exact congrArg (fun d => some (d, evs)) (Device.become_become ..)
      · obtain ⟨st₂, n₂, evs, h⟩ := PeerNode.outboundStep_goes C st₁ env hout
        have hstep : (s.device.become p st₁ n₁).step C (.outbound p env) =
            some (s.device.become p st₂ n₂, evs) := by
          simp only [Device.step, Device.taskStep, hn₁, Device.store_become, h]
          exact congrArg (fun d => some (d, evs)) (Device.become_become ..)
        have hweight := PeerNode.outboundStep_weight h
        obtain ⟨⟨monitor, outbox, task, rfl⟩, hnone, -⟩ := PeerNode.outboundStep_load h
        exact ⟨.outbound p env, st₂, _, evs, ⟨rfl, hsend⟩, trivial, rfl, hstep,
          ⟨rfl, rfl, fun _ h => h, id, id⟩, alive₁, by simp [hnone], hweight⟩
    refine ⟨a, ⟨s.device.become p st₂ n₂, env.now⟩, evs, ⟨htask, hroom⟩,
      tick_eq_some.mpr ⟨by rw [hread]; exact hclock₁, by rw [hread]; rfl, hstep⟩,
      ⟨?_, le_rfl, st₂, n₂, rfl, later₁.trans later₂, alive₂, ?_⟩, by simpa using hweight⟩
    · rw [← List.append_assoc]
      exact Run.snoc reached₁ trivial hstep
    · rw [drawnIndexes, List.filterMap_append, List.length_append]
      simp only [drawnIndexes] at hdraws hdraws₂
      omega
  obtain rfl : n' = n'' := by simpa [hd] using hn''
  exact ⟨tr, x, st', n', run, hd, later, quiet, Nat.le_of_add_right_le hdraws⟩

/-- **The handshake loop comes back to its head.** It draws at most one index on the way. -/
theorem exists_waiting (hC : C.Lawful) (hn : s.device.peers p = some n)
    (halive : n.handshakeTask ≠ .dead) (hquiet : n.Quiet) {env : Env} (hsend : env.sendOk = true) :
    ∃ tr s' st' n', Run (tick C) (Works C p) s tr s' ∧
      s'.device = s.device.become p st' n' ∧ n.Later n' ∧ n'.Quiet ∧
      n'.handshakeTask = .waiting ∧ (drawnIndexes tr).length ≤ 1 := by
  obtain ⟨tr, x, run, ⟨st', n', hd, later, quiet, hdraws⟩, n'', hn'', hwait⟩ :
      ∃ tr x, Run (tick C) (Works C p) s tr x ∧
        (∃ st' n', x.device = s.device.become p st' n' ∧ n.Later n' ∧ n'.Quiet ∧
          (drawnIndexes tr).length + n'.handshakeTask.draws ≤ 1) ∧
        ∃ n', x.device.peers p = some n' ∧ n'.handshakeTask = .waiting := by
    refine Run.exists_final _ _ (fun x : Timed => (x.device.peers p).elim 0 PeerNode.handshakeLoad)
      ⟨_, n, (s.device.become_self p n hn).symm, .refl n, hquiet, ?_⟩ ?_
    · simpa [drawnIndexes] using n.handshakeTask.draws_le
    rintro tr ⟨d, clock⟩ ⟨st₁, n₁, hd, later₁, quiet₁, hdraws⟩ hhead
    obtain rfl : d = _ := hd
    have hn₁ : (s.device.become p st₁ n₁).peers p = some n₁ := by simp
    have away : n₁.handshakeTask ≠ .waiting := fun h => hhead ⟨n₁, hn₁, h⟩
    obtain ⟨now, hle, st₂, n₂, evs, hstep, hload⟩ := PeerNode.handshakeStep_goes hC n₁ st₁ clock env
      (later₁.handshakeTask halive) away
    have hquiet₂ : n₂.Quiet := by
      obtain ⟨peer, task, rfl, -⟩ := PeerNode.handshakeStep_writes hstep
      exact ⟨quiet₁.1, quiet₁.2, quiet₁.3, quiet₁.4⟩
    refine ⟨.handshake p { env with now }, ⟨s.device.become p st₂ n₂, now⟩, evs,
      ⟨⟨rfl, hsend⟩, trivial⟩,
      tick_eq_some.mpr ⟨hle, rfl, ?_⟩, ⟨st₂, n₂, rfl,
        later₁.trans (PeerNode.handshakeStep_later hstep), hquiet₂, ?_⟩, by simpa using hload⟩
    · simp only [Device.step, Device.taskStep, hn₁, Device.store_become, hstep]
      exact congrArg (fun d => some (d, evs)) (Device.become_become ..)
    · have := PeerNode.handshakeStep_draws hstep away
      rw [drawnIndexes, List.filterMap_append, List.length_append]
      simp only [drawnIndexes] at hdraws this
      omega
  obtain rfl : n' = n'' := by simpa [hd] using hn''
  exact ⟨tr, x, st', n', run, hd, later, quiet, hwait, Nat.le_of_add_right_le hdraws⟩

end Timed

end Vlink
