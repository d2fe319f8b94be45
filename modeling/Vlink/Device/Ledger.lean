import Vlink.Device.Nonces
import Vlink.Device.Outbox

set_option autoImplicit false

/-!
# The order of packets for a peer

The TUN loop of a device stages a packet in the channel of the peer that it is for, `loop_outbound`
of the peer takes packets out of it and seals them. In between packets are neither reordered nor
repeated nor lost: what was taken, and what still waits, is what was staged, with empty packets for
keepalives and confirmations in between.

## Main definitions

* `Vlink.Device.takes` — the packet that a step takes from a channel, with the session and the nonce
  that it is sealed with.
* `Vlink.routedTo` — the packets from the TUN device that were staged for a peer.

## Main results

* `Vlink.Device.outbound_fifo` — packets leave the channel of a peer in the order in which they were
  staged.
-/

namespace Vlink

/-- The data from the TUN device that was handed to the peer `p`. -/
def Event.routed? (p : Key) : Event → Option Bytes
  | .routed q data => if q = p then some data else none
  | _ => none

/-- The data from the TUN device that was handed to the peer `p`, in order. -/
def routedTo (p : Key) (tr : List Event) : List Bytes := tr.filterMap (Event.routed? p)

/-- The packets for a peer in a longer trace. -/
@[simp] lemma routedTo_append (p : Key) (tr tr' : List Event) :
    routedTo p (tr ++ tr') = routedTo p tr ++ routedTo p tr' := List.filterMap_append

/-- The packets that are not empty. -/
def nonempty (data : List Bytes) : List Bytes := data.filter (· ≠ [])

/-- The packets of two lists that are not empty. -/
@[simp] lemma nonempty_append (l l' : List Bytes) :
    nonempty (l ++ l') = nonempty l ++ nonempty l' := List.filter_append ..

/-- An empty packet does not count. -/
@[simp] lemma nonempty_empty : nonempty [[]] = [] := rfl

/-- Another packet counts. -/
lemma nonempty_singleton {data : Bytes} (h : data ≠ []) : nonempty [data] = [data] :=
  List.filter_cons_of_pos (by simpa using h)

/-- Data was staged for a peer, or sealed. -/
def Event.outward : Event → Bool
  | .routed _ _ | .encrypted _ _ _ => true
  | _ => false

/-- Where nothing is staged, nothing is routed to a peer. -/
lemma routedTo_of_inward {evs : List Event} (h : evs.filter Event.outward = []) (p : Key) :
    routedTo p evs = [] := by
  refine List.filterMap_eq_nil_iff.mpr fun e he => ?_
  have hout := List.filter_eq_nil_iff.mp h e he
  cases e with
  | routed => exact absurd rfl hout
  | _ => rfl

/-- Where nothing is sealed, no session is used. -/
lemma sealCount_of_inward {evs : List Event} (h : evs.filter Event.outward = []) (r : ℕ) :
    sealCount evs r = 0 := by
  refine List.countP_eq_zero.mpr fun e he hseals => ?_
  have hout := List.filter_eq_nil_iff.mp h e he
  cases e with
  | encrypted => exact absurd rfl hout
  | _ => cases hseals

/-! ## The tasks of a peer -/

namespace PeerNode

variable {C : Crypto} {n n' : PeerNode} {st st' : Store} {env : Env} {evs : List Event}

/-- Sending takes nothing from the channel. -/
lemma sendOutbound_inward (n : PeerNode) (env : Env) (buf : Bytes) :
    (n.sendOutbound env buf).filter Event.outward = [] := by
  unfold sendOutbound
  split
  · split_ifs <;> rfl
  · rfl

/-- The handshake task neither stages nor seals data. -/
lemma handshakeStep_inward (h : n.handshakeStep C st env = some (.ret (st', n', evs))) :
    evs.filter Event.outward = [] := by
  cases handshakeStep_move h with
  | send => exact n.sendOutbound_inward env _
  | _ => rfl

/-- Nor does the inbound task. -/
lemma inboundStep_inward (h : n.inboundStep C st env = some (.ret (st', n', evs))) :
    evs.filter Event.outward = [] := by
  rcases inboundStep_events h with ⟨_, _, _, -, rfl⟩ | ⟨-, ⟨_, _, rfl⟩ | hinner⟩
  · rfl
  · rfl
  · refine List.filter_eq_nil_iff.mpr fun e he hout => ?_
    have hin := hinner e he
    cases e <;> cases hout <;> cases hin

end PeerNode

/-! ## What leaves the channels -/

/-- A packet that `loop_outbound` of a peer took from its channel. If the peer had a current
session then it was sealed with this session and a nonce, and else it was given up. -/
structure Taken where
  peer : Key
  sealing : Option (Session × UInt64)
  data : Bytes

namespace Device

variable {C : Crypto} {d d' : Device} {p q : Key} {a : Action} {evs : List Event}

/-- What a step takes from the channel of a peer. -/
def takes (d : Device) : Action → List Taken
  | .outbound p _ =>
    match d.peers p with
    | none => []
    | some n =>
      match n.outboundTask, n.outbox with
      | .idle, data :: _ =>
        let sealing := n.peer.sessions.current.map fun s => (s, (s.nextNonce d.store.heap).1)
        [⟨p, sealing, data⟩]
      | _, _ => []
  | _ => []

/-- The data that was taken from the channel of a peer. -/
def takenFor (p : Key) (log : List Taken) : List Bytes :=
  (log.filter (·.peer = p)).map (·.data)

/-- The packets of a peer in a longer log. -/
@[simp] lemma takenFor_append (p : Key) (log log' : List Taken) :
    takenFor p (log ++ log') = takenFor p log ++ takenFor p log' := by
  simp [takenFor]

/-- The nonces that were used with the session with the cell `r`. -/
def noncesOf (r : ℕ) (log : List Taken) : List UInt64 :=
  log.filterMap fun x => (x.sealing.filter (·.1.shared = r)).map Prod.snd

/-- The counters of a session in a longer log. -/
@[simp] lemma noncesOf_append (r : ℕ) (log log' : List Taken) :
    noncesOf r (log ++ log') = noncesOf r log ++ noncesOf r log' := List.filterMap_append

/-- What goes into the channel of a peer in a step comes after what was there before, and after what
is taken from it; what is sealed is recorded. -/
structure Fifo (d : Device) (a : Action) (evs : List Event) (d' : Device) : Prop where
  channel : ∀ p, nonempty (takenFor p (d.takes a) ++ d'.outbox p) =
    nonempty (d.outbox p) ++ routedTo p evs
  nonces : ∀ r, noncesOf r (d.takes a) = (List.range (sealCount evs r)).map fun i =>
    (d.store.heap.cell r).senderNonce + UInt64.ofNat i

/-- A step that neither takes nor stages data. -/
lemma Fifo.of_same (htakes : d.takes a = [])
    (hbox : ∀ p, nonempty (d'.outbox p) = nonempty (d.outbox p))
    (hevs : evs.filter Event.outward = []) : d.Fifo a evs d' := by
  refine ⟨fun p => ?_, fun r => ?_⟩
  · rw [htakes, routedTo_of_inward hevs, List.append_nil]
    exact hbox p
  · rw [htakes, sealCount_of_inward hevs]
    rfl

/-- A task of a peer other than the outbound one stages at most empty packets. -/
lemma Fifo.of_task {task : PeerNode → Store → PeerNode.TaskStep} {dead : PeerNode → PeerNode}
    (h : d.taskStep q task dead = some (d', evs)) (htakes : d.takes a = [])
    (hdead : ∀ n, (dead n).outbox = n.outbox)
    (htask : ∀ {n st' n' evs}, task n d.store = some (.ret (st', n', evs)) →
      evs.filter Event.outward = [] ∧ (n'.outbox = n.outbox ∨ n'.outbox = n.outbox ++ [[]])) :
    d.Fifo a evs d' := by
  unfold taskStep at h
  split at h
  · cases h
  · next n hn =>
    split at h
    · cases h
    · cases h
      refine .of_same htakes (fun p => ?_) rfl
      rw [outbox_setPeer, hdead, ← outbox_eq hn]
      split_ifs with hq
      · rw [hq]
      · rfl
    · next st n' evs hr =>
      cases h
      obtain ⟨hevs, hbox⟩ := htask hr
      refine .of_same htakes (fun p => ?_) hevs
      rw [outbox_setPeer]
      split_ifs with hq
      · rw [hq, outbox_eq hn]
        rcases hbox with hbox | hbox <;> simp [hbox]
      · rfl

/-- The TUN loop stages a packet, which is not empty. -/
lemma Fifo.of_tunRecv {buf : Bytes} (h : d.step C (.tunRecv buf) = some (d', evs)) :
    d.Fifo (.tunRecv buf) evs d' := by
  rw [step] at h
  split_ifs at h
  split at h
  · cases h
    exact .of_same rfl (fun _ => rfl) rfl
  · cases h
    exact .of_same rfl (fun _ => rfl) rfl
  · next q ht =>
    have hbuf : buf ≠ [] := by
      rintro rfl
      cases ht
    simp only [stageOutbound] at h
    split at h
    · cases h
      exact .of_same rfl (fun _ => rfl) rfl
    · next n hn =>
      cases h
      refine ⟨fun p => ?_, fun r => rfl⟩
      show nonempty ((d.setPeer q _).outbox p) = nonempty (d.outbox p) ++ _
      rw [outbox_setPeer]
      by_cases hq : p = q
      · subst hq
        simp [outbox_eq hn, nonempty_singleton hbuf, routedTo, Event.routed?]
      · simp [hq, routedTo, Event.routed?, Ne.symm hq]

/-- Only the channel of the peer whose task goes on is concerned. -/
lemma takenFor_takes (d : Device) (p q : Key) (env : Env) :
    takenFor p (d.takes (.outbound q env)) =
      if p = q then (d.takes (.outbound q env)).map (·.data) else [] := by
  have hpeer : ∀ x ∈ d.takes (.outbound q env), x.peer = q := by
    intro x hx
    simp only [takes] at hx
    split at hx
    · cases hx
    · split at hx
      · rw [List.mem_singleton.mp hx]
      · cases hx
  rw [takenFor]
  split_ifs with hq
  · rw [List.filter_eq_self.mpr fun x hx => by simp [hpeer x hx, hq]]
  · rw [List.filter_eq_nil_iff.mpr fun x hx => by simp [hpeer x hx, Ne.symm hq], List.map_nil]

/-- What `loop_outbound` of a peer takes is the first packet of its channel, and it is sealed with
the nonce that the current session has next. -/
lemma takes_outbound {env : Env} {n n' : PeerNode} {st : Store} (hn : d.peers q = some n)
    (h : n.outboundStep C d.store env = some (.ret (st, n', evs))) :
    (∀ p, routedTo p evs = []) ∧
      (d.takes (.outbound q env)).map (·.data) ++ n'.outbox = n.outbox ∧
      ∀ r, noncesOf r (d.takes (.outbound q env)) = (List.range (sealCount evs r)).map fun i =>
        (d.store.heap.cell r).senderNonce + UInt64.ofNat i := by
  cases ht : n.outboundTask with
  | idle =>
    cases hbox : n.outbox with
    | nil => simp [PeerNode.outboundStep, ht, hbox] at h
    | cons data outbox =>
      simp only [PeerNode.outboundStep, ht, hbox] at h
      cases hcur : n.peer.sessions.current with
      | none =>
        simp only [hcur] at h
        simp only [takes, hn, ht, hbox, hcur]
        cases h
        exact ⟨fun _ => rfl, rfl, fun _ => rfl⟩
      | some s =>
        simp only [hcur] at h
        have hevs : evs = [.encrypted n.peer.pubKey s (s.nextNonce d.store.heap).1] ∧
            n'.outbox = outbox := by
          split at h <;> cases h <;> exact ⟨rfl, rfl⟩
        obtain ⟨rfl, rfl⟩ := hevs
        simp only [takes, hn, ht, hbox, hcur]
        refine ⟨fun _ => rfl, rfl, fun r => ?_⟩
        by_cases hr : s.shared = r
        · subst hr
          simp [noncesOf, sealCount, Event.seals, Session.nextNonce, Option.filter]
        · simp [noncesOf, sealCount, Event.seals, Option.filter, hr]
  | sending buf =>
    simp only [PeerNode.outboundStep, ht] at h
    cases h
    have inward := n.sendOutbound_inward env buf
    refine ⟨routedTo_of_inward inward, ?_, fun r => ?_⟩
    · simp [takes, hn, ht]
    · simp [takes, hn, ht, sealCount_of_inward inward, noncesOf]
  | sent len =>
    simp only [PeerNode.outboundStep, ht] at h
    cases h
    refine ⟨fun _ => rfl, by simp [takes, hn, ht], fun r => ?_⟩
    simp [takes, hn, ht, noncesOf, sealCount]

/-- `loop_outbound` of a peer takes the first packet. -/
lemma Fifo.of_outbound {env : Env} (h : d.step C (.outbound q env) = some (d', evs)) :
    d.Fifo (.outbound q env) evs d' := by
  rw [step, taskStep] at h
  cases hn : d.peers q with
  | none => simp [hn] at h
  | some n =>
    simp only [hn] at h
    split at h
    · cases h
    · next hp => exact absurd hp PeerNode.outboundStep_ne_panic
    · next st n' evs hr =>
      cases h
      obtain ⟨hevs, hbox, hnonces⟩ := takes_outbound hn hr
      refine ⟨fun p => ?_, hnonces⟩
      rw [takenFor_takes, outbox_setPeer, hevs, List.append_nil]
      split_ifs with hq
      · rw [hbox, hq, outbox_eq hn]
      · rfl

/-- A packet from the network is staged for the inbound loop. -/
lemma receive_inward {endpoint : OutboundSender} {payload : Bytes} {env : Env}
    (h : d.step C (.receive endpoint payload env) = some (d', evs)) :
    evs.filter Event.outward = [] := by
  rw [step] at h
  split_ifs at h
  split at h
  · cases h
    rfl
  · next ht =>
    obtain ⟨-, rfl⟩ := tickInbound_eq_none ht
    cases h
    rfl
  · next e _ ht =>
    obtain ⟨-, rfl, rfl⟩ := tickInbound_eq_some ht
    cases h
    dsimp only
    split
    · rfl
    · cases e <;> rfl

/-- Each step keeps the order of the packets for a peer. -/
lemma fifo_step (h : d.step C a = some (d', evs)) : d.Fifo a evs d' := by
  cases a with
  | receive =>
    exact .of_same rfl (fun _ => congrArg nonempty (receive_outbox h)) (receive_inward h)
  | tunRecv => exact .of_tunRecv h
  | handshake q env =>
    rw [step] at h
    exact .of_task h rfl (fun _ => rfl) fun hr =>
      ⟨PeerNode.handshakeStep_inward hr, .inl (PeerNode.handshakeStep_frame hr).2⟩
  | inbound q env =>
    rw [step] at h
    refine .of_task h rfl (fun _ => rfl) fun hr => ⟨PeerNode.inboundStep_inward hr, ?_⟩
    exact (PeerNode.inboundStep_outbox hr).imp_right And.right
  | outbound => exact .of_outbound h
  | keepalive q env =>
    rw [step] at h
    refine .of_task h rfl (fun _ => rfl) fun hr => ?_
    unfold PeerNode.keepaliveStep at hr
    split at hr
    · split_ifs at hr
      · cases hr
        exact ⟨rfl, .inr rfl⟩
      · cases hr
        exact ⟨rfl, .inl rfl⟩
    · cases hr
  | insertPeer cfg now =>
    cases h
    exact .of_same rfl (fun _ => congrArg nonempty (insertPeer_outbox d cfg now)) rfl
  | setOnline | updateEndpoint | clearEndpoint =>
    have hevs : evs = [] := by
      obtain ⟨_, -, heq⟩ := Option.map_eq_some_iff.mp h
      cases heq
      rfl
    subst hevs
    rw [step] at h
    exact .of_same rfl (fun _ => congrArg nonempty (callPeer_outbox h)) rfl

section Runs

variable {privateKey : Key} {start : UInt32} {guard : Device × List Taken → Action → Prop}
  {tr : List Event} {log : List Taken}

/-- What was taken from a channel and what still waits in it is what was staged. -/
lemma taken_eq_routedTo
    (run : Run (recorded (step C) takes) guard (.new C privateKey start, []) tr (d, log))
    (p : Key) : nonempty (takenFor p log ++ d.outbox p) = routedTo p tr := by
  refine run.invariant (I := fun tr x =>
    nonempty (takenFor p x.2 ++ x.1.outbox p) = routedTo p tr) rfl ?_
  rintro tr ⟨d, log⟩ a ⟨d', log'⟩ evs - ih - h
  obtain ⟨hstep, rfl⟩ := recorded_eq_some.mp h
  have channel := (fifo_step hstep).channel p
  simp only [nonempty_append] at channel ih ⊢
  rw [takenFor_append, nonempty_append, List.append_assoc, channel, ← List.append_assoc, ih,
    routedTo_append]

/-- The nonces of a session count from zero. -/
lemma noncesOf_eq
    (run : Run (recorded (step C) takes) guard (.new C privateKey start, []) tr (d, log))
    (hlt : (drawnIndexes tr).length < 2 ^ 32) (r : ℕ) :
    noncesOf r log = (List.range (sealCount tr r)).map UInt64.ofNat := by
  refine run.invariant (I := fun tr x => (drawnIndexes tr).length < 2 ^ 32 →
    noncesOf r x.2 = (List.range (sealCount tr r)).map UInt64.ofNat) (fun _ => rfl) ?_ hlt
  rintro tr ⟨d, log⟩ a ⟨d', log'⟩ evs run ih - h hlt
  obtain ⟨hstep, rfl⟩ := recorded_eq_some.mp h
  have hlt := length_drawnIndexes_lt hlt
  have reached : d.Reaches C privateKey start (fun _ _ => True) tr :=
    run.of_recorded fun _ _ _ => trivial
  obtain ⟨-, -, sealing⟩ := reached.installs hlt
  have hcount : sealCount (tr ++ evs) r = sealCount tr r + sealCount evs r := List.countP_append
  rw [noncesOf_append, ih hlt, (fifo_step hstep).nonces, hcount, List.range_add, List.map_append,
    List.map_map]
  congr 1
  refine List.map_congr_left fun i _ => ?_
  rw [Function.comp_apply, UInt64.ofNat_add]
  exact congrArg (· + _) (sealing.counter r)

/-- **First in, first out.** In every run of a device, the packets that were taken from the channel
of a peer, whether they were sealed or given up, followed by those that still wait in it, are the
packets from the TUN device that were routed to this peer, in the same order, with nothing but
empty packets in between. And as long as indexes are not reused, the packets that were sealed with
one session carry the nonces zero, one, two and so on, in the order in which they were taken.

**Proof sketch.** Each step either puts a packet at the end of the channel or takes the first one
from it, and seals it with the next nonce of the session; `Fifo` says so for what is recorded of the
step. -/
theorem outbound_fifo (C : Crypto) (privateKey : Key) (start : UInt32)
    (run : Run (recorded (step C) takes) (fun _ _ => True) (.new C privateKey start, []) tr
      (d, log)) :
    (∀ p, nonempty (takenFor p log ++ d.outbox p) = routedTo p tr) ∧
      ((drawnIndexes tr).length < 2 ^ 32 →
        ∀ r, noncesOf r log = (List.range (noncesOf r log).length).map UInt64.ofNat) := by
  refine ⟨taken_eq_routedTo run, fun hlt r => ?_⟩
  have hnonces := noncesOf_eq run hlt r
  rw [hnonces, List.length_map, List.length_range]

/-- A packet is given up, for there is no session; when there is one, two are sealed, and a third
one waits. -/
theorem outbound_fifo_sample : ∃ (d : Device) (tr : List Event) (log : List Taken),
    Run (recorded (step .sample) takes) (fun _ _ => True) (Sample.device, []) tr (d, log) ∧
      log.map (fun x => (x.sealing.isSome, x.data.take 1)) =
        [(false, [0x45]), (true, [0x45]), (true, [0x45])] ∧
      (d.outbox Sample.remote).length = 1 ∧ noncesOf 0 log = [0, 1] ∧
      (∀ p, nonempty (takenFor p log ++ d.outbox p) = routedTo p tr) := by
  let run : List Action := Sample.answer ++
    [Sample.tunRecv, Sample.outbound, .receive Sample.endpoint (Sample.packet 0 []) (Sample.env 0),
      Sample.inbound, Sample.inbound, Sample.tunRecv, Sample.tunRecv, Sample.outbound,
      Sample.outbound, Sample.outbound, Sample.outbound, Sample.tunRecv]
  obtain ⟨⟨d, log⟩, tr, run, check⟩ := exists_run_of_exec (recorded (step .sample) takes) run
    (Sample.device, [])
    (fun r => r.1.2.map (fun x => (x.sealing.isSome, x.data.take 1)) =
        [(false, [0x45]), (true, [0x45]), (true, [0x45])] ∧
      (r.1.1.outbox Sample.remote).length = 1 ∧ noncesOf 0 r.1.2 = [0, 1])
    (by decide +kernel)
  obtain ⟨hlog, hbox, hnonces⟩ := of_decide_eq_true check
  exact ⟨d, tr, log, run, hlog, hbox, hnonces, (outbound_fifo .sample _ _ run).1⟩

end Runs

end Device

end Vlink
