import Vlink.Device.System
import Vlink.Headlink.Abi

set_option autoImplicit false

/-!
# Who writes the endpoint of a peer

Four kinds of tasks write the endpoint of a peer: the inbound loop of the peer sets it to where a
packet came from; `ExtTransportSelector` (`vlinkd/src/transport/ext_transport_selector.rs`) opens a
TCP connection or a UDP socket when there is no endpoint, and sets it to that; a relay transport
replaces it; and the task that reads a TCP connection clears it when the connection ends
(`NatTcpTransportClient::spawn` in `nat_tcp.rs`). The last one does not look whose endpoint it
clears.

## Main definitions

* `Vlink.Device.writes` — what a step of the device writes to the endpoint of a peer.
* `Vlink.Transport.Links`, `Vlink.Transport.Links.step` — a device with the selectors and the TCP
  connections of one peer.
* `Vlink.Transport.lastWritten` — the endpoint that was written last.
* `Vlink.Transport.ClosesOwn` — a connection that ends clears no endpoint but its own.

## Main results

* `Vlink.Device.step_endpoint` — the endpoint after a step of the device.
* `Vlink.Transport.Links.endpoint_eq` — the endpoint is the one that was written last.
* `Vlink.Transport.closesOwn_iff` — a connection that ends clears no endpoint but its own, if and
  only if no sender of another one was written last.
* `Vlink.Transport.foreign_cleared` — a connection that clears the endpoint of another transport.
-/

namespace Vlink

/-! ## What the device writes -/

/-- The endpoint of a peer. -/
def Device.endpointOf (d : Device) (p : Key) : Option OutboundSender :=
  (d.peers p).bind fun n => n.peer.endpoint

/-- What the next step of the inbound loop sets the endpoint to. A data packet has to pass the
replay check first. -/
def PeerNode.installs (C : Crypto) (n : PeerNode) (st : Store) : Option OutboundSender :=
  match n.inboundTask with
  | .prepared endpoint _ => some endpoint
  | .confirming endpoint => some endpoint
  | .checking endpoint packet session =>
    match session.canAccept st.heap packet.counter, n.peer.receive C st endpoint packet session with
    | .ret true, .ret _ => some endpoint
    | _, _ => none
  | _ => none

/-- What a step writes to the endpoint of the peer `p`; `none` if it does not. -/
def Device.writes (C : Crypto) (p : Key) (d : Device) : Action → Option (Option OutboundSender)
  | .inbound q _ =>
    if q = p then (d.peers p).bind fun n => (n.installs C d.store).map some else none
  | .updateEndpoint q endpoint => if q = p then some (some endpoint) else none
  | .clearEndpoint q => if q = p then some none else none
  | .insertPeer cfg _ =>
    if cfg.publicKey = p ∧ (d.peers p).isNone then some (cfg.endpoint.map Device.endpointFor)
    else none
  | _ => none

namespace PeerNode

variable {C : Crypto} {n n' : PeerNode} {st st' : Store} {env : Env} {evs : List Event}

/-- The inbound loop writes the endpoint at three places. -/
lemma inboundStep_endpoint (h : n.inboundStep C st env = some (.ret (st', n', evs))) :
    n'.peer.endpoint = (n.installs C st).or n.peer.endpoint := by
  cases inboundStep_move h with
  | respond ht _ hr =>
    rw [Peer.respond_peer hr]
    simp only [installs, ht]
    rfl
  | finalize ht _ hf =>
    rw [Peer.finalize_peer hf]
    simp only [installs, ht]
    rfl
  | promote ht _ hp =>
    rw [Peer.promote_endpoint hp]
    simp only [installs, ht]
    rfl
  | prepareNext ht hp =>
    obtain ⟨_, rfl⟩ := Peer.prepareNext_peer hp
    simp only [installs, ht]
    rfl
  | completeUninit ht hc =>
    obtain ⟨_, rfl⟩ := Peer.completeUninit_peer hc
    simp only [installs, ht]
    rfl
  | receive ht hc =>
    simp only [installs, ht, hc]
    rcases Peer.receive_peer hc with ⟨hno, rfl⟩ | ⟨hyes, rfl⟩
    · simp [hno]
    · rw [hyes]
      rfl
  | cookie ht | updateEndpoint ht | reply ht | initiated ht | completed ht | confirm ht =>
    simp only [installs, ht]
    rfl

/-- The inbound loop sets no endpoint when it panics. -/
lemma inboundPanic_installs (h : n.inboundStep C st env = some .panic) :
    n.installs C st = none := by
  cases ht : n.inboundTask with
  | checking endpoint packet session =>
    simp only [inboundStep, ht, Option.some.injEq] at h
    cases hc : n.peer.receive C st endpoint packet session with
    | ret r =>
      rw [hc] at h
      cases h
    | panic =>
      simp only [installs, ht, hc]
      cases session.canAccept st.heap packet.counter with
      | panic => rfl
      | ret accepted => cases accepted <;> rfl
  | prepared _ _ | confirming _ => simp [inboundStep, ht] at h
  | _ => simp [installs, ht]

end PeerNode

namespace Device

variable {C : Crypto} {p q : Key} {d d' : Device} {a : Action} {evs : List Event}

/-- One peer is replaced. -/
lemma endpointOf_update {n' : PeerNode}
    (hpeers : d'.peers = Function.update d.peers q (some n')) :
    d'.endpointOf p = if q = p then n'.peer.endpoint else d.endpointOf p := by
  unfold endpointOf
  rw [hpeers]
  by_cases hq : q = p
  · subst hq
    simp
  · simp [hq, Ne.symm hq]

/-- One peer is replaced by one with the same endpoint. -/
lemma endpointOf_update_same {n n' : PeerNode} (hn : d.peers q = some n)
    (hpeers : d'.peers = Function.update d.peers q (some n'))
    (h : n'.peer.endpoint = n.peer.endpoint) : d'.endpointOf p = d.endpointOf p := by
  rw [endpointOf_update hpeers]
  split_ifs with hq
  · subst hq
    simp [endpointOf, hn, h]
  · rfl

/-- The inbound loop writes what `installs` says. -/
lemma endpointOf_update_installs {n n' : PeerNode} {env : Env} (hn : d.peers q = some n)
    (hpeers : d'.peers = Function.update d.peers q (some n'))
    (h : n'.peer.endpoint = (n.installs C d.store).or n.peer.endpoint) :
    d'.endpointOf p = (d.writes C p (.inbound q env)).getD (d.endpointOf p) := by
  rw [endpointOf_update hpeers]
  simp only [writes]
  split_ifs with hq
  · subst hq
    rw [h]
    cases hw : n.installs C d.store <;> simp [endpointOf, hn, hw]
  · rfl

/-- A peer that is there already keeps its endpoint. -/
lemma insertPeer_endpoint (d : Device) (cfg : PeerConfig) (now : Instant) :
    (d.insertPeer C cfg now).endpointOf p =
      if cfg.publicKey = p ∧ (d.peers p).isNone then cfg.endpoint.map endpointFor
      else d.endpointOf p := by
  by_cases hq : cfg.publicKey = p
  · subst hq
    cases hn : d.peers cfg.publicKey with
    | none => simp [insertPeer, endpointOf, hn, Peer.new]
    | some n => simp [insertPeer, endpointOf, hn]
  · simp [insertPeer, endpointOf, hq, Ne.symm hq]

/-- **Step lemma.** The endpoint after a step of the device. -/
theorem step_endpoint (h : d.step C a = some (d', evs)) :
    d'.endpointOf p = (d.writes C p a).getD (d.endpointOf p) := by
  cases step_effect h with
  | dropped hpeers => exact congrArg (Option.bind · _) (congrFun hpeers p)
  | unrouted hpeers => exact congrArg (Option.bind · _) (congrFun hpeers p)
  | node hn hpeers _ _ hmoves =>
    cases hmoves with
    | handshake h => exact endpointOf_update_same hn hpeers (PeerNode.handshakeStep_kept h).endpoint
    | outbound h => exact endpointOf_update_same hn hpeers (PeerNode.outboundStep_kept h).endpoint
    | keepalive h => exact endpointOf_update_same hn hpeers (PeerNode.keepaliveStep_kept h).endpoint
    | staged | routed | handshakePanic | setOnline => exact endpointOf_update_same hn hpeers rfl
    | inbound h => exact endpointOf_update_installs hn hpeers (PeerNode.inboundStep_endpoint h)
    | inboundPanic hpanic =>
      refine endpointOf_update_installs hn hpeers ?_
      rw [PeerNode.inboundPanic_installs hpanic, Option.none_or]
    | updateEndpoint | clearEndpoint =>
      rw [endpointOf_update hpeers]
      simp only [writes]
      split_ifs <;> rfl
  | insertPeer cfg now =>
    rw [insertPeer_endpoint]
    simp only [writes]
    split_ifs <;> rfl

end Device

/-! ## The other writers -/

namespace Transport

/-- What the task of an `ExtTransportSelector` does next. -/
inductive SelectorTask where
  /-- `await_online`, and the pause of a round before it. -/
  | waiting
  /-- The peer is online: look for its endpoint. -/
  | looking
  /-- There was none: open the first transport. -/
  | opening
  /-- The transport is open: `update_endpoint`. -/
  | installing (endpoint : OutboundSender)
  /-- The task has panicked. -/
  | dead
deriving DecidableEq

/-- `ExtTransportSelector`. -/
structure Selector where
  transports : List Headlink.PeerExtraTransport
  task : SelectorTask
deriving DecidableEq

/-- A device, and the tasks that write the endpoint of one of its peers. -/
structure Links where
  device : Device
  /-- The number of the next socket or connection. -/
  sockets : ℕ
  /-- One for each call of `ExtTransportSelector::new`: the call is evaluated before `or_insert`
  looks whether there is a selector. -/
  selectors : List Selector
  /-- The TCP connections that are read. -/
  reading : List ℕ
  /-- Those whose last read has failed, or was at the end, but whose task has not cleared the
  endpoint yet. -/
  leaving : List ℕ

/-- What can happen. The relay replaces the endpoint by `updateEndpoint` of the device, and
`PeerEndpointFailed` is handled by `clearEndpoint`. -/
inductive LinkAction where
  | device (a : Action)
  | newSelector (transports : List Headlink.PeerExtraTransport)
  /-- The task of the selector `i`; `ok` if the system opens the socket. -/
  | awaitOnline (i : ℕ)
  | look (i : ℕ)
  | openFirst (i : ℕ) (ok : Bool)
  | install (i : ℕ)
  /-- The task that reads the connection `c`. -/
  | stop (c : ℕ)
  | clear (c : ℕ)
  /-- The device no longer takes what is read, and the `unwrap` of `send` panics. -/
  | abort (c : ℕ)

/-- What is recorded of a step: the writes to the endpoint. For the task of a connection, the
endpoint before and after it ends is recorded too. -/
inductive LinkEvent where
  | installed (endpoint : OutboundSender)
  | cleared
  | readerEnded (c : ℕ) (before after : Option OutboundSender)
deriving DecidableEq

/-- The record of a write. -/
def written : Option (Option OutboundSender) → List LinkEvent
  | none => []
  | some none => [.cleared]
  | some (some endpoint) => [.installed endpoint]

namespace Links

/-- The endpoint of the peer. -/
def endpoint (p : Key) (s : Links) : Option OutboundSender := s.device.endpointOf p

/-- The selector `i` goes on with `task`. -/
def setTask (s : Links) (i : ℕ) (task : SelectorTask) : Links :=
  { s with selectors := s.selectors.modify i fun sel => { sel with task } }

/-- A selector opens its first transport. `parse` reads the address in the configuration. Without a
transport the relay is asked for, which writes no endpoint here. -/
def openFirst (parse : String → Option SocketAddr) (s : Links) (i : ℕ)
    (transports : List Headlink.PeerExtraTransport) (ok : Bool) : Links :=
  match transports.head? with
  | none => s.setTask i .waiting
  | some t =>
    let addr := if ok then parse t.endpoint else none
    if t.proto = "NatUdp" then
      match addr with
      -- the result of `NatUdpTransportClient::new` is unwrapped
      | none => s.setTask i .dead
      | some dst =>
        { s with sockets := s.sockets + 1 }.setTask i (.installing ⟨s.sockets, dst, "NatUdp"⟩)
    else if t.proto = "NatTcp" then
      match addr with
      | none => s.setTask i .waiting
      | some dst =>
        { s with sockets := s.sockets + 1, reading := s.sockets :: s.reading }.setTask i
          (.installing ⟨s.sockets, dst, "NatTcp"⟩)
    else s.setTask i .waiting

/-- One step; `none` if the action is not possible. -/
def step (C : Crypto) (parse : String → Option SocketAddr) (p : Key) (s : Links) :
    LinkAction → Option (Links × List LinkEvent)
  | .device a =>
    (s.device.step C a).map fun (device, _) =>
      ({ s with device }, written (s.device.writes C p a))
  | .newSelector transports =>
    if (s.device.peers p).isSome then
      some ({ s with selectors := s.selectors ++ [⟨transports, .waiting⟩] }, [])
    else none
  | .awaitOnline i =>
    match s.selectors[i]?, s.device.peers p with
    | some ⟨_, .waiting⟩, some n =>
      if n.peer.online then some (s.setTask i .looking, []) else none
    | _, _ => none
  | .look i =>
    match s.selectors[i]? with
    | some ⟨_, .looking⟩ =>
      some (s.setTask i (if (s.endpoint p).isNone then .opening else .waiting), [])
    | _ => none
  | .openFirst i ok =>
    match s.selectors[i]? with
    | some ⟨transports, .opening⟩ => some (s.openFirst parse i transports ok, [])
    | _ => none
  | .install i =>
    match s.selectors[i]? with
    | some ⟨_, .installing endpoint⟩ =>
      (s.device.step C (.updateEndpoint p endpoint)).map fun (device, _) =>
        ({ s with device }.setTask i .waiting, [.installed endpoint])
    | _ => none
  | .stop c =>
    if c ∈ s.reading then
      some ({ s with reading := s.reading.erase c, leaving := c :: s.leaving }, [])
    else none
  | .clear c =>
    if c ∈ s.leaving then
      (s.device.step C (.clearEndpoint p)).map fun (device, _) =>
        ({ s with device, leaving := s.leaving.erase c },
          [.readerEnded c (s.endpoint p) (device.endpointOf p)])
    else none
  | .abort c =>
    if c ∈ s.reading then some ({ s with reading := s.reading.erase c }, []) else none

end Links

/-! ## The endpoint is the one that was written last -/

/-- The endpoint after the writes of a trace; a connection that ends clears it. -/
def lastWritten (e₀ : Option OutboundSender) (tr : List LinkEvent) : Option OutboundSender :=
  tr.foldl
    (fun _ ev => match ev with
      | .installed endpoint => some endpoint
      | .cleared | .readerEnded _ _ _ => none)
    e₀

section LastWritten

variable {C : Crypto} {parse : String → Option SocketAddr} {p : Key} {s₀ s s' : Links}
  {a : LinkAction} {tr evs : List LinkEvent} {e₀ : Option OutboundSender}

/-- The endpoint after a longer trace. -/
lemma lastWritten_append (tr evs : List LinkEvent) :
    lastWritten e₀ (tr ++ evs) = lastWritten (lastWritten e₀ tr) evs :=
  List.foldl_append

/-- The endpoint that was written. -/
lemma lastWritten_written (w : Option (Option OutboundSender)) :
    lastWritten e₀ (written w) = w.getD e₀ := by
  rcases w with _ | _ | e <;> rfl

/-- A selector that opens a transport has not written the endpoint yet. -/
lemma Links.endpoint_openFirst (s : Links) (i : ℕ)
    (transports : List Headlink.PeerExtraTransport) (ok : Bool) :
    (s.openFirst parse i transports ok).endpoint p = s.endpoint p := by
  unfold openFirst
  split
  · rfl
  · next t _ =>
    dsimp only
    generalize (if ok = true then parse t.endpoint else none) = addr
    split_ifs
    · cases addr <;> rfl
    · cases addr <;> rfl
    · rfl

/-- **Step lemma.** A step writes the endpoint and records it, or it is the end of a connection. -/
lemma Links.step_cases (h : s.step C parse p a = some (s', evs)) :
    (∃ w, evs = written w ∧ s'.endpoint p = w.getD (s.endpoint p)) ∨
      ∃ c, evs = [.readerEnded c (s.endpoint p) none] ∧ s'.endpoint p = none := by
  cases a with
  | device a =>
    obtain ⟨⟨d, devs⟩, hd, heq⟩ := Option.map_eq_some_iff.mp h
    cases heq
    exact .inl ⟨_, rfl, Device.step_endpoint hd⟩
  | newSelector transports =>
    simp only [step] at h
    split_ifs at h
    cases h
    exact .inl ⟨none, rfl, rfl⟩
  | awaitOnline i =>
    simp only [step] at h
    split at h
    · split_ifs at h
      cases h
      exact .inl ⟨none, rfl, rfl⟩
    · cases h
  | look i =>
    simp only [step] at h
    split at h <;> cases h
    exact .inl ⟨none, rfl, rfl⟩
  | openFirst i ok =>
    simp only [step] at h
    split at h <;> cases h
    exact .inl ⟨none, rfl, s.endpoint_openFirst i _ ok⟩
  | install i =>
    simp only [step] at h
    split at h
    · next endpoint _ =>
      obtain ⟨⟨d, devs⟩, hd, heq⟩ := Option.map_eq_some_iff.mp h
      cases heq
      have hw := Device.step_endpoint (p := p) hd
      simp only [Device.writes, if_true] at hw
      exact .inl ⟨some (some endpoint), rfl, hw⟩
    · cases h
  | stop c | abort c =>
    simp only [step] at h
    split_ifs at h
    cases h
    exact .inl ⟨none, rfl, rfl⟩
  | clear c =>
    simp only [step] at h
    split_ifs at h
    obtain ⟨⟨d, devs⟩, hd, heq⟩ := Option.map_eq_some_iff.mp h
    cases heq
    have hw : d.endpointOf p = none := by
      have hw := Device.step_endpoint (p := p) hd
      simp only [Device.writes, if_true, Option.getD_some] at hw
      exact hw
    exact .inr ⟨c, by rw [hw], hw⟩

/-- The endpoint after a step is the one that the step wrote last. -/
theorem Links.step_endpoint (h : s.step C parse p a = some (s', evs)) :
    s'.endpoint p = lastWritten (s.endpoint p) evs := by
  rcases step_cases h with ⟨w, rfl, hw⟩ | ⟨c, rfl, hc⟩
  · rw [hw, lastWritten_written]
  · exact hc

/-- **Run lemma.** The endpoint is the one that was written last. -/
theorem Links.endpoint_eq (run : Run (Links.step C parse p) (fun _ _ => True) s₀ tr s) :
    s.endpoint p = lastWritten (s₀.endpoint p) tr := by
  refine run.invariant (I := fun tr s => s.endpoint p = lastWritten (s₀.endpoint p) tr) rfl ?_
  intro tr s a s' evs _ ih _ h
  rw [lastWritten_append, ← ih]
  exact step_endpoint h

/-! ## A connection that ends -/

/-- What is asked of the end of the connection `c`: the endpoint becomes `none` only if it was a
sender of `c`, and the endpoint of another transport is kept. -/
def ClosesOwn (c : ℕ) (before after : Option OutboundSender) : Prop :=
  (after = none → ∀ e, before = some e → e.socket = c) ∧
    ∀ e, before = some e → e.socket ≠ c → after = some e

/-- Where the endpoint is cleared in any case, it has to be one of `c`. -/
lemma closesOwn_none {c : ℕ} {before : Option OutboundSender} :
    ClosesOwn c before none ↔ ∀ e, before = some e → e.socket = c :=
  ⟨fun h => h.1 rfl, fun h => ⟨fun _ => h, fun e he hne => absurd (h e he) hne⟩⟩

/-- A connection that ends clears no endpoint but its own if and only if no sender of another
transport was written last. This holds at the end of each connection, in every run. -/
theorem closesOwn_iff (run : Run (Links.step C parse p) (fun _ _ => True) s₀ tr s) :
    Historically
      (fun past ev => ∀ c before after, ev = .readerEnded c before after →
        (ClosesOwn c before after ↔
          ∀ e, lastWritten (s₀.endpoint p) past = some e → e.socket = c)) tr := by
  refine run.invariant (I := fun tr _ => Historically _ tr) historically_nil ?_
  intro tr s a s' evs run ih _ h
  rcases Links.step_cases h with ⟨w, rfl, -⟩ | ⟨c, rfl, -⟩
  · refine ih.append fun past ev hev c before after heq => ?_
    rcases w with _ | _ | e <;> simp [written, heq] at hev
  · refine historically_concat.mpr ⟨ih, fun c' before after heq => ?_⟩
    cases heq
    rw [Links.endpoint_eq run]
    exact closesOwn_none

end LastWritten

namespace Sample

/-- A new device; its own socket has the number 0. -/
def links : Links := ⟨Vlink.Sample.device, 1, [], [], []⟩

/-- The peer can be reached over TCP. -/
def transport : Headlink.PeerExtraTransport := ⟨"", "NatTcp", "192.0.2.9:7000", 0⟩

/-- Its address. -/
def parse (_ : String) : Option SocketAddr := some ⟨.v4 0xC0000209#32, 7000⟩

/-- The connection that is opened. -/
def connection : OutboundSender := ⟨1, ⟨.v4 0xC0000209#32, 7000⟩, "NatTcp"⟩

/-- The selector of a peer that has no endpoint opens a connection. -/
def connect : List LinkAction :=
  [.device (.insertPeer { Vlink.Sample.config with endpoint := none } 0), .newSelector [transport],
    .awaitOnline 0, .look 0, .openFirst 0 true, .install 0]

/-- An initiation of the peer comes in over UDP, and is answered. -/
def answer : List LinkAction := (Vlink.Sample.answer.drop 1).map .device

/-- The connection ends. -/
def disconnect : List LinkAction := [.stop 1, .clear 1]

end Sample

/-- A reader that closes its own link. -/
theorem closesOwn_iff_sample : ∃ s,
    Run (Links.step .sample Sample.parse Vlink.Sample.remote) (fun _ _ => True) Sample.links
      [.cleared, .installed Sample.connection, .readerEnded 1 (some Sample.connection) none] s ∧
    ClosesOwn 1 (some Sample.connection) none := by
  obtain ⟨s, tr, run, hcheck⟩ := exists_run_of_exec
    (Links.step .sample Sample.parse Vlink.Sample.remote) (Sample.connect ++ Sample.disconnect)
    Sample.links
    (fun r => decide (r.2 =
      [.cleared, .installed Sample.connection, .readerEnded 1 (some Sample.connection) none]))
    (by decide +kernel)
  obtain rfl := of_decide_eq_true hcheck
  refine ⟨s, run, (closesOwn_iff run [.cleared, .installed Sample.connection] _ [] rfl _ _ _
    rfl).mpr ?_⟩
  rintro e he
  cases he
  rfl

/-- A connection that was replaced by UDP ends, and the peer cannot be reached any more. -/
theorem foreign_cleared : ∃ s,
    Run (Links.step .sample Sample.parse Vlink.Sample.remote) (fun _ _ => True) Sample.links
      [.cleared, .installed Sample.connection, .installed Vlink.Sample.endpoint,
        .readerEnded 1 (some Vlink.Sample.endpoint) none] s ∧
    s.endpoint Vlink.Sample.remote = none ∧
    ¬ ClosesOwn 1 (some Vlink.Sample.endpoint) none := by
  obtain ⟨s, tr, run, hcheck⟩ := exists_run_of_exec
    (Links.step .sample Sample.parse Vlink.Sample.remote)
    (Sample.connect ++ Sample.answer ++ Sample.disconnect) Sample.links
    (fun r => decide (r.2 = [.cleared, .installed Sample.connection,
      .installed Vlink.Sample.endpoint, .readerEnded 1 (some Vlink.Sample.endpoint) none]))
    (by decide +kernel)
  obtain rfl := of_decide_eq_true hcheck
  refine ⟨s, run, Links.endpoint_eq run, fun h => ?_⟩
  have hown : (0 : ℕ) = 1 := closesOwn_none.mp h _ rfl
  cases hown

end Transport

end Vlink
