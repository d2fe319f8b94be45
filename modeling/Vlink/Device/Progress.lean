import Vlink.Device.Outbox
import Vlink.Device.Quiet

set_option autoImplicit false

/-!
# The inbound loops go on

A datagram is handled by the inbound loop of the device and then by that of a peer. A loop that does
not panic can still wait: the one of the device for a place in the inbound channel of a peer, and
the one of a peer for a place in its outbound channel, when it confirms a handshake. The latter may
be for ever, if `loop_outbound` of the peer waits for itself. If this does not happen, what waits
for a peer can always be worked off, and the device can handle the next datagram.

## Main definitions

* `Vlink.Bounded.Safe` — the step leads no inbound loop to a panic, and does not make a
  `loop_outbound` wait for itself.
* `Vlink.BoundedAction.OfTask` — a step of the inbound or the outbound loop of a peer.
* `Vlink.Bounded.load` — how much the two loops have to do.

## Main results

* `Vlink.Bounded.deviceStep` — what a step does to the device: the device with bounded channels is
  tied to the device without limits.
* `Vlink.Bounded.Reaches.exists_drained` — the loops of a peer work off what waits for it.
* `Vlink.Bounded.inbound_survives` — when the inbound loops come back, and that they go on.
* `Vlink.Bounded.inbound_killed` — what ends them, or makes them wait for ever.
-/

namespace Vlink

namespace Bounded

variable {C : Crypto} {s s' : Bounded} {b : BoundedAction} {p : Key} {evs tr : List Event}
  {privateKey : Key} {start : UInt32} {guard : Bounded → BoundedAction → Prop}

/-! ## What a step does to the device -/

/-- Resting takes no datagram. -/
@[simp] lemma rx_rest (s : Bounded) (q : Key) (now : Instant) : (s.rest q now).rx = s.rx := by
  unfold rest
  split <;> rfl

/-- Settling takes no datagram. -/
@[simp] lemma rx_settle (s : Bounded) (q : Key) (now : Instant) : (s.settle q now).rx = s.rx := by
  unfold settle
  split_ifs <;> simp

/-- What a step does to the device: a step of the device, or a part of one that concerns only what
is sent to a peer. -/
inductive DeviceStep (C : Crypto) (s : Bounded) (b : BoundedAction) (evs : List Event)
    (s' : Bounded) : Prop
  /-- The next datagram is handled. -/
  | receive (endpoint : OutboundSender) (payload : Bytes) (env : Env)
      (act : b = .act (.receive endpoint payload env)) (ready : s.isReceiving = true)
      (rx : s'.rx = s.device.recipient C env endpoint payload)
      (h : s.device.step C (.receive endpoint payload env) = some (s'.device, evs))
  /-- Another step of the device. -/
  | act (a : Action) (act : b = .act a) (other : a.datagram = none) (rx : s'.rx = s.rx)
      (h : s.device.step C a = some (s'.device, evs))
  /-- A task begins to wait. -/
  | same (device : s'.device = s.device) (rx : s'.rx = s.rx) (events : evs = [])
  /-- A keepalive is begun. -/
  | attempt {q : Key} {n : PeerNode} (now : Instant) (hn : s.device.peers q = some n)
      (device : s'.device = s.device.setPeer q (n.attemptKeepalive now)) (rx : s'.rx = s.rx)
      (events : evs = [])
  /-- A packet is staged. -/
  | staged (q : Key) (buf : Bytes) (device : s'.device = (s.device.stageOutbound q buf).1)
      (rx : s'.rx = s.rx) (events : evs = (s.device.stageOutbound q buf).2 ∨ evs = [])

/-- A packet from the TUN device. -/
private lemma tunRecv_device {buf : Bytes} (h : s.tunRecv buf = some (s', evs)) :
    DeviceStep C s (.act (.tunRecv buf)) evs s' := by
  unfold tunRecv at h
  split_ifs at h with hup
  split at h
  · next hr =>
    cases h
    exact .act _ rfl rfl rfl (by rw [Device.step, if_pos hup.1, hr])
  · cases h
    exact .same rfl rfl rfl
  · cases h
    exact .same rfl rfl rfl

/-- The timer of a `loop_outbound`. -/
private lemma keepalive_device {q : Key} {env : Env} (h : s.keepalive q env = some (s', evs)) :
    DeviceStep C s b evs s' := by
  unfold keepalive at h
  split at h
  · next n deadline hn hloop =>
    split at h
    · split_ifs at h
      · cases h
        exact .attempt env.now hn rfl rfl rfl
      · cases h
        exact .same (device_rest _ _ _) (rx_rest _ _ _) rfl
    · cases h
  · cases h

/-- A new peer. -/
private lemma insertPeer_device (s : Bounded) (cfg : PeerConfig) (now : Instant) :
    DeviceStep C s (.act (.insertPeer cfg now)) [] (s.insertPeer C cfg now) := by
  unfold insertPeer
  cases s.device.peers cfg.publicKey with
  | none =>
    refine .act _ rfl rfl (rx_rest _ _ _) ?_
    dsimp only
    rw [device_rest]
    rfl
  | some n => exact .act _ rfl rfl rfl rfl

/-- **What a step does to the device.** -/
lemma deviceStep (h : s.step C b = some (s', evs)) : DeviceStep C s b evs s' := by
  cases b with
  | act a =>
    have pass : a.datagram = none → (s.device.step C a).map (fun r =>
        ({ s with device := r.1 }, r.2)) = some (s', evs) → DeviceStep C s (.act a) evs s' := by
      intro hother hmap
      obtain ⟨⟨d', evs'⟩, hstep, heq⟩ := Option.map_eq_some_iff.mp hmap
      cases heq
      exact .act a rfl hother rfl hstep
    cases a with
    | tunRecv buf => exact tunRecv_device h
    | keepalive q env => exact keepalive_device h
    | receive endpoint payload env =>
      obtain ⟨hready, device, hstep, rfl⟩ := receive_eq_some.mp h
      exact .receive endpoint payload env rfl hready rfl hstep
    | outbound q env =>
      simp only [step, outbound] at h
      split at h
      · cases h
      · obtain ⟨r, hstep, heq⟩ := Option.map_eq_some_iff.mp h
        cases heq
        exact .act _ rfl rfl (rx_settle _ _ _) (by rw [device_settle, hstep])
    | inbound q env =>
      simp only [step, inbound] at h
      split_ifs at h
      exact pass rfl h
    | insertPeer cfg now =>
      cases h
      exact insertPeer_device s cfg now
    | handshake | setOnline | updateEndpoint | clearEndpoint => exact pass rfl h
  | tunStage =>
    rw [step] at h
    split at h
    · cases h
    · split_ifs at h
      cases h
      exact .staged _ _ rfl rfl (.inl rfl)
  | stage q env =>
    rw [step] at h
    split at h
    · cases h
    · split_ifs at h
      cases h
      exact .staged q [] (device_rest _ _ _) (rx_rest _ _ _) (.inr rfl)

/-- The steps of the device with bounded channels do to the device what steps of the device do. -/
lemma DeviceStep.moved (h : DeviceStep C s b evs s') (hk : s.device.Keyed) :
    ∃ inp, Device.Moved C inp s.device evs s'.device := by
  cases h with
  | receive _ _ _ _ _ _ hstep => exact ⟨_, Device.step_moved hk hstep⟩
  | act a _ _ _ hstep => exact ⟨_, Device.step_moved hk hstep⟩
  | same device _ events =>
    subst events
    exact ⟨none, by rw [device]; exact .idle (by simp) rfl rfl rfl rfl⟩
  | attempt now hn device _ events =>
    subst events
    exact ⟨none, by rw [device]; exact .node hn ⟨.same (by simp), rfl⟩⟩
  | staged q buf device _ events =>
    refine ⟨none, ?_⟩
    rw [device]
    unfold Device.stageOutbound at events ⊢
    cases hn : s.device.peers q with
    | none =>
      obtain rfl : evs = [] := by simpa [hn] using events
      exact .idle (by simp) rfl rfl rfl rfl
    | some n =>
      rw [hn] at events
      refine .node hn ⟨.same fun e he => ?_, rfl⟩
      rcases events with rfl | rfl
      · cases List.mem_singleton.mp he
        trivial
      · cases he

/-- The filters of the sessions remember what they have let through, and peers are kept under their
own public key, in every state. -/
lemma Reaches.filters (run : s.Reaches C privateKey start guard tr) :
    Filters tr s.device.view ∧ s.device.Keyed := by
  have init : Filters [] (new C privateKey start).device.view := .initial start
  refine Run.invariant (I := fun tr s => Filters tr (Bounded.device s).view ∧ s.device.Keyed)
    ⟨init, by rintro p n ⟨⟩⟩ ?_ run
  rintro tr s b s' evs _ ⟨filters, keyed⟩ - hstep
  obtain ⟨inp, moved⟩ := (deviceStep hstep).moved keyed
  exact ⟨filters.step (moved.view keyed), moved.keyed keyed⟩

/-! ## The inbound loops -/

/-- The step leads no inbound loop to a panic. -/
def Survivable (C : Crypto) (s : Bounded) (b : BoundedAction) : Prop :=
  ∀ a, b = .act a → s.device.Survivable C a

/-- The step leads no inbound loop to a panic, and does not make a `loop_outbound` wait for
itself. -/
structure Safe (C : Crypto) (s : Bounded) (b : BoundedAction) : Prop where
  survivable : s.Survivable C b
  spares : ∀ p, s.sparesLast p b = true

/-- What an inbound loop is at, in a device that a packet is staged in. -/
private lemma inboundTask_stageOutbound (d : Device) (q : Key) (buf : Bytes) :
    (d.stageOutbound q buf).1.inboundTask p = d.inboundTask p := by
  unfold Device.stageOutbound
  cases hn : d.peers q with
  | none => rfl
  | some n =>
    dsimp only
    rw [Device.inboundTask_of_update (Device.peers_setPeer _ _ _)]
    split_ifs with hp
    · rw [hp, Device.inboundTask, hn]
      rfl
    · rfl

/-- A step is a step of the device, or leaves the inbound loops alone. -/
lemma DeviceStep.inbound (h : DeviceStep C s b evs s') :
    (∃ a, b = .act a ∧ s.device.step C a = some (s'.device, evs)) ∨
      s'.device.inboundUp = s.device.inboundUp ∧
        ∀ p, s'.device.inboundTask p = s.device.inboundTask p := by
  cases h with
  | receive _ _ _ act _ _ hstep => exact .inl ⟨_, act, hstep⟩
  | act a act _ _ hstep => exact .inl ⟨a, act, hstep⟩
  | same device => exact .inr ⟨by rw [device], fun p => by rw [device]⟩
  | @attempt q n now hn device =>
    refine .inr ⟨by rw [device]; rfl, fun p => ?_⟩
    rw [device, Device.inboundTask_of_update (Device.peers_setPeer _ _ _)]
    split_ifs with hp
    · rw [hp, Device.inboundTask, hn]
      rfl
    · rfl
  | staged q buf device =>
    refine .inr ⟨?_, fun p => by rw [device, inboundTask_stageOutbound]⟩
    rw [device, Device.stageOutbound]
    split <;> rfl

/-- **The inbound loops stay alive** in every run without the four cases. -/
lemma Reaches.inboundAlive (hC : C.Lawful) (run : s.Reaches C privateKey start (Survivable C) tr) :
    s.device.InboundAlive := by
  refine Run.invariant (I := fun _ s => (Bounded.device s).InboundAlive)
    ⟨rfl, by rintro p n ⟨⟩⟩ ?_ run
  intro tr s b s' evs run alive ok hstep
  rcases (deviceStep hstep).inbound with ⟨a, hb, h⟩ | ⟨hup, htask⟩
  · exact alive.step hC (filters run).1 (ok a hb) h
  · rw [Device.inboundAlive_iff] at alive ⊢
    exact ⟨hup.trans alive.1, fun p => htask p ▸ alive.2 p⟩

/-- While `loop_outbound` of a peer waits for itself, an inbound loop that is about to confirm a
handshake stays where it is. -/
lemma Stuck.confirms_step (hs : s.Stuck p) (hc : (s.device.peers p).any PeerNode.confirms = true)
    (h : s.step C b = some (s', evs)) : (s'.device.peers p).any PeerNode.confirms = true := by
  have htask : ∀ {d : Device}, (d.peers p).any PeerNode.confirms = true ↔
      ∃ endpoint, d.inboundTask p = some (.confirming endpoint) := by
    intro d
    cases hn : d.peers p with
    | none => simp [Device.inboundTask, hn]
    | some n => cases ht : n.inboundTask <;> simp [Device.inboundTask, hn, PeerNode.confirms, ht]
  obtain ⟨endpoint, hconfirming⟩ := htask.mp hc
  refine htask.mpr ⟨endpoint, ?_⟩
  rcases (deviceStep h).inbound with ⟨a, rfl, hstep⟩ | ⟨-, hsame⟩
  · cases Device.step_inboundLoop hstep p with
    | same task => exact task.trans hconfirming
    | new before => simp [before] at hconfirming
    | goes act | panics act =>
      subst act
      rw [Bounded.step, inbound, if_pos ⟨hc, by simp [hs.2]⟩] at h
      cases h
  · exact (hsame p).trans hconfirming

/-! ## The loops of a peer work off their channels -/

/-- How much the two loops of a peer have to do. The inbound loop weighs more, since it may put a
packet in the outbound channel. -/
def load (s : Bounded) (p : Key) : ℕ :=
  ((s.device.peers p).elim 0 fun n => 4 * n.inboundLoad + n.outboundLoad) +
    if s.loop p = .staging then 4 else 0

/-- `loop_outbound` stages its keepalive, if there is a place. -/
lemma exists_stage {n : PeerNode} (hn : s.device.peers p = some n) (env : Env)
    (hloop : s.loop p = .staging) (hroom : s.hasRoom p = true) :
    ∃ s' n', s.step C (.stage p env) = some (s', []) ∧ s'.device.peers p = some n' ∧
      s'.rx = s.rx ∧ s'.load p < s.load p := by
  refine ⟨_, { n with outbox := n.outbox ++ [[]] }, by rw [step, hloop]; exact if_pos hroom, ?_, ?_,
    ?_⟩
  · simp [Device.stageOutbound, hn]
  · simp
  · simp only [load, rest, Device.stageOutbound, hn, hloop, Device.peers_setPeer,
      Function.update_self, Option.elim_some, PeerNode.inboundLoad, PeerNode.outboundLoad,
      List.length_append, List.length_singleton, reduceCtorEq, if_false, if_true]
    omega

/-- `loop_outbound` goes on with what it has to send. -/
lemma exists_outbound {n : PeerNode} (hn : s.device.peers p = some n) (env : Env)
    (hloop : s.loop p ≠ .staging) (hbusy : ¬ (n.outboundTask = .idle ∧ n.outbox = [])) :
    ∃ s' n' evs, s.step C (.act (.outbound p env)) = some (s', evs) ∧
      s'.device.peers p = some n' ∧ s'.rx = s.rx ∧ s'.load p < s.load p := by
  obtain ⟨st', n', evs, h⟩ := PeerNode.outboundStep_goes C s.device.store env hbusy
  have hstep : s.device.step C (.outbound p env) = some (s.device.become p st' n', evs) := by
    simp only [Device.step, Device.taskStep, hn, h]
    rfl
  cases hwait : s.loop p with
  | staging => exact absurd hwait hloop
  | waiting deadline =>
    refine ⟨({ s with device := s.device.become p st' n' } : Bounded).settle p env.now, n', evs, ?_,
      by simp, by simp, ?_⟩
    · simp only [step, outbound, hwait, hstep, Option.map_some]
    · have hnext : (({ s with device := s.device.become p st' n' } : Bounded).settle p
          env.now).loop p ≠ .staging := by
        rcases loop_settle (p := p) { s with device := s.device.become p st' n' } p env.now with
          heq | ⟨-, hne⟩
        · rwa [heq]
        · exact hne
      have hweight := PeerNode.outboundStep_weight h
      simpa [load, hn, hloop, hnext] using hweight

/-- The inbound loop goes on, if the outbound channel is empty and a response can be sent. -/
lemma exists_inbound (hC : C.Lawful) (filters : Filters tr s.device.view) {n : PeerNode}
    (hn : s.device.peers p = some n) {env : Env} (hsend : env.sendOk = true)
    (halive : n.inboundTask ≠ .dead) (hbusy : ¬ (n.inboundTask = .idle ∧ n.inbox = []))
    (hempty : n.outbox = []) :
    ∃ s' n' evs, s.step C (.act (.inbound p env)) = some (s', evs) ∧
      s'.device.peers p = some n' ∧ s'.rx = s.rx ∧ s'.load p < s.load p := by
  obtain ⟨r, hr⟩ := PeerNode.inboundStep_isSome C s.device.store env halive hbusy
  obtain ⟨⟨st', n', evs⟩, rfl⟩ := (Device.inboundStep_returns_iff hC filters hn hr).mpr
    fun _ _ _ => hsend
  have hroom : s.hasRoom p = true := by simp [hasRoom, Device.outbox_eq hn, hempty, peerCapacity]
  have hstep : s.device.step C (.inbound p env) = some (s.device.become p st' n', evs) := by
    simp only [Device.step, Device.taskStep, hn, hr]
    rfl
  refine ⟨{ s with device := s.device.become p st' n' }, n', evs, ?_, by simp, rfl, ?_⟩
  · simp [step, inbound, hroom, hstep]
  · have hweight := PeerNode.inboundStep_weight hr
    simpa [load, hn] using hweight

end Bounded

/-- A step of the inbound or the outbound loop of the peer `p`, with the readings `env`. -/
def BoundedAction.OfTask (p : Key) (env : Env) (b : BoundedAction) : Prop :=
  b = .act (.inbound p env) ∨ b = .act (.outbound p env) ∨ b = .stage p env

namespace Bounded

variable {C : Crypto} {s s' : Bounded} {b : BoundedAction} {p : Key} {evs tr : List Event}
  {privateKey : Key} {start : UInt32}

/-- A step that puts no packet of another task in a channel, and is not a timer, is harmless for
every `loop_outbound`. -/
lemma safe_of_task {env : Env} (hsend : env.sendOk = true) (hb : b.OfTask p env)
    (hloop : b = .act (.inbound p env) → s.loop p ≠ .staging) : s.Safe C b := by
  rcases hb with rfl | rfl | rfl
  · refine ⟨fun a ha => ?_, fun q => ?_⟩
    · cases ha
      exact fun _ _ _ _ _ => hsend
    · by_cases hq : q = p
      · simp [sparesLast, hq, hloop rfl]
      · simp [sparesLast, fills, Ne.symm hq]
  · refine ⟨fun a ha => ?_, fun q => by simp [sparesLast, fills]⟩
    cases ha
    trivial
  · refine ⟨fun a ha => ?_, fun q => by simp [sparesLast, fills]⟩
    cases ha

/-- **What waits for a peer can be worked off.** The inbound and the outbound loop of the peer empty
the inbound channel on their own.

**Proof sketch.** As long as there is an event, one of three steps is possible. If `loop_outbound`
stages a keepalive, there is a place for it (`not_stuck`). Otherwise it sends a packet, if there is
one. If there is none, the outbound channel is empty, and nothing holds up the inbound loop. Each of
the steps makes `load` smaller. -/
lemma Reaches.exists_drained (hC : C.Lawful) (run : s.Reaches C privateKey start (Safe C) tr)
    {n : PeerNode} (hn : s.device.peers p = some n) {env : Env} (hsend : env.sendOk = true) :
    ∃ tr' s' n', Run (step C) (fun s b => s.Safe C b ∧ b.OfTask p env) s tr' s' ∧
      s'.device.peers p = some n' ∧ n'.inboundTask = .idle ∧ n'.inbox = [] ∧ s'.rx = s.rx := by
  obtain ⟨tr', s', run', ⟨-, -, hrx⟩, n', hn', hidle, hbox⟩ :
      ∃ tr' s', Run (step C) (fun s b => s.Safe C b ∧ b.OfTask p env) s tr' s' ∧
        (s'.Reaches C privateKey start (Safe C) (tr ++ tr') ∧
          (∃ n', s'.device.peers p = some n') ∧ s'.rx = s.rx) ∧
        ∃ n', s'.device.peers p = some n' ∧ n'.inboundTask = .idle ∧ n'.inbox = [] := by
    refine Run.exists_final _ _ (fun s => s.load p) ⟨by rwa [List.append_nil], ⟨n, hn⟩, rfl⟩ ?_
    rintro tr' x ⟨reached, ⟨m, hm⟩, hrx⟩ hbusy
    have alive := (Reaches.inboundAlive hC (reached.mono fun _ _ h => h.survivable)).2 p m hm
    have filters := (Reaches.filters reached).1
    -- a step of one of the two loops that makes the load smaller
    obtain ⟨b, x', m', evs, hb, hsafe, hstep, hm', hrx', hload⟩ : ∃ b x' m' evs, b.OfTask p env ∧
        x.Safe C b ∧ x.step C b = some (x', evs) ∧ x'.device.peers p = some m' ∧ x'.rx = x.rx ∧
        x'.load p < x.load p := by
      by_cases hloop : x.loop p = .staging
      · have hroom : x.hasRoom p = true := by
          have hfree := not_stuck (p := p) (reached.mono fun _ _ h => h.spares p)
          by_contra hfull
          exact hfree ⟨hloop, by simpa using hfull⟩
        obtain ⟨x', m', hstep, h⟩ := exists_stage (C := C) hm env hloop hroom
        exact ⟨_, x', m', [], .inr (.inr rfl), safe_of_task hsend (.inr (.inr rfl)) (by simp),
          hstep, h⟩
      · by_cases hout : m.outboundTask = .idle ∧ m.outbox = []
        · obtain ⟨x', m', evs, hstep, h⟩ := exists_inbound hC filters hm hsend alive
            (fun h => hbusy ⟨m, hm, h⟩) hout.2
          exact ⟨_, x', m', evs, .inl rfl, safe_of_task hsend (.inl rfl) fun _ => hloop, hstep, h⟩
        · obtain ⟨x', m', evs, hstep, h⟩ := exists_outbound (C := C) hm env hloop hout
          exact ⟨_, x', m', evs, .inr (.inl rfl), safe_of_task hsend (.inr (.inl rfl)) (by simp),
            hstep, h⟩
    refine ⟨b, x', evs, ⟨hsafe, hb⟩, hstep, ⟨?_, ⟨m', hm'⟩, hrx'.trans hrx⟩, hload⟩
    rw [← List.append_assoc]
    exact Run.snoc reached hsafe hstep
  exact ⟨tr', s', n', run', hn', hidle, hbox, hrx⟩

/-- **The next datagram can be handled.** If the loop of the device waits for a place in a channel,
then the loops of that peer make one. -/
lemma Reaches.exists_receiving (hC : C.Lawful) (run : s.Reaches C privateKey start (Safe C) tr)
    {env : Env} (hsend : env.sendOk = true) :
    ∃ tr' s', Run (step C) (fun s b => s.Safe C b ∧ ∃ p, b.OfTask p env) s tr' s' ∧
      ∀ endpoint payload env',
        (s'.step C (.act (.receive endpoint payload env'))).isSome = true := by
  -- a loop that is running and does not wait takes every datagram
  have receives : ∀ {s : Bounded}, s.device.InboundAlive → s.isReceiving = true →
      ∀ endpoint payload env',
        (s.step C (.act (.receive endpoint payload env'))).isSome = true := by
    intro s alive hrx endpoint payload env'
    rw [step, receive, if_pos hrx, Option.isSome_map, Device.step, if_pos alive.1]
    split <;> rfl
  have alive : ∀ {tr : List Event} {s : Bounded}, s.Reaches C privateKey start (Safe C) tr →
      s.device.InboundAlive :=
    fun run => Reaches.inboundAlive hC (run.mono fun _ _ h => h.survivable)
  cases hwait : s.isReceiving with
  | true => exact ⟨[], s, .nil, receives (alive run) hwait⟩
  | false =>
    obtain ⟨p, n, hrx, hn⟩ : ∃ p n, s.rx = some p ∧ s.device.peers p = some n := by
      cases hrx : s.rx with
      | none => simp [isReceiving, hrx] at hwait
      | some p =>
        cases hn : s.device.peers p with
        | none => simp [isReceiving, hrx, Device.inbox, hn] at hwait
        | some n => exact ⟨p, n, rfl, hn⟩
    obtain ⟨tr', s', n', run', hn', -, hbox, hrx'⟩ := exists_drained hC run hn hsend
    refine ⟨tr', s', run'.mono fun _ _ h => ⟨h.1, p, h.2⟩,
      receives (alive (run.trans (run'.mono fun _ _ h => h.1))) ?_⟩
    simp [isReceiving, hrx', hrx, Device.inbox, hn', hbox]

/-- **What the device survives.** In every state that a device reaches, `tick_inbound` comes back
from a datagram exactly if this is digestible, and the inbound loop of a peer goes on exactly if the
response it may be about to send can be sent. After every run that avoids the four cases and in
which no `loop_outbound` is made to wait for itself, the inbound loops of the device and of all
peers are running; the events that wait for a peer can all be handled, by the loops of that peer
alone; and the device can come to handle the next datagram, whatever it is.

**Proof sketch.** The first part is `Device.tickInbound_returns_iff` and
`Device.inboundStep_returns_iff`, whose condition on the filters is `Reaches.filters`. The second
part is `Reaches.inboundAlive`, `Reaches.exists_drained` and `Reaches.exists_receiving`. -/
theorem inbound_survives (hC : C.Lawful) (privateKey : Key) (start : UInt32) :
    (∀ (tr : List Event) (s : Bounded), s.Reaches C privateKey start (fun _ _ => True) tr →
      (∀ env endpoint payload,
        (s.device.tickInbound C env endpoint payload).Returns ↔ s.device.Digestible C payload) ∧
      ∀ p n env r, s.device.peers p = some n → n.inboundStep C s.device.store env = some r →
        (r.Returns ↔ ∀ endpoint packet, n.inboundTask = .replying endpoint packet →
          env.sendOk = true)) ∧
    ∀ (tr : List Event) (s : Bounded), s.Reaches C privateKey start (Safe C) tr →
      s.device.InboundAlive ∧
      ∀ env : Env, env.sendOk = true →
        (∀ p n, s.device.peers p = some n → ∃ tr' s' n',
          Run (step C) (fun s b => s.Safe C b ∧ b.OfTask p env) s tr' s' ∧
            s'.device.peers p = some n' ∧ n'.inboundTask = .idle ∧ n'.inbox = []) ∧
        ∃ tr' s', Run (step C) (fun s b => s.Safe C b ∧ ∃ p, b.OfTask p env) s tr' s' ∧
          ∀ endpoint payload env',
            (s'.step C (.act (.receive endpoint payload env'))).isSome = true := by
  refine ⟨fun tr s run => ⟨fun env endpoint _ => Device.tickInbound_returns_iff hC env endpoint,
    fun p n env r hn h => Device.inboundStep_returns_iff hC run.filters.1 hn h⟩,
    fun tr s run => ⟨Reaches.inboundAlive hC (run.mono fun _ _ h => h.survivable),
      fun env hsend => ⟨fun p n hn => ?_, Reaches.exists_receiving hC run hsend⟩⟩⟩
  obtain ⟨tr', s', n', run', hn', hidle, hbox, -⟩ := Reaches.exists_drained hC run hn hsend
  exact ⟨tr', s', n', run', hn', hidle, hbox⟩

end Bounded

section Examples

open Sample

/-- Whether a step is survivable, for steps that send. -/
def Device.survives (d : Device) : Action → Bool
  | .receive endpoint payload env =>
    match d.tickInbound .sample env endpoint payload with
    | .ret _ => true
    | .panic => false
  | .inbound _ env => env.sendOk
  | _ => true

namespace Bounded

/-- Whether a step is survivable, for steps that send. -/
def survives (s : Bounded) : BoundedAction → Bool
  | .act a => s.device.survives a
  | _ => true

/-- The peer whose outbound channel a step is about. -/
def subject (s : Bounded) : BoundedAction → Option Key
  | .act (.keepalive q _) | .act (.inbound q _) => some q
  | .tunStage => s.tun.map Prod.fst
  | _ => none

variable {s : Bounded} {b : BoundedAction}

/-- A step that passes the check leads no inbound loop to a panic. -/
lemma survivable_of_survives (h : s.survives b = true) : s.Survivable .sample b := by
  rintro a rfl
  cases a with
  | receive endpoint payload env =>
    refine (Device.tickInbound_returns_iff Crypto.sample_lawful env endpoint).mp ?_
    simp only [survives, Device.survives] at h
    split at h
    · next r hr => exact ⟨r, hr⟩
    · cases h
  | inbound p env => exact fun _ _ _ _ _ => h
  | _ => trivial

/-- A step takes no place in the channels that it is not about. -/
lemma sparesLast_of_subject (h : (s.subject b).all (s.sparesLast · b) = true) (p : Key) :
    s.sparesLast p b = true := by
  cases b with
  | act a =>
    cases a with
    | keepalive q env =>
      by_cases hq : q = p
      · exact hq ▸ h
      · simp [sparesLast, hq]
    | inbound q env =>
      by_cases hq : q = p
      · exact hq ▸ h
      · simp [sparesLast, fills, hq]
    | _ => simp [sparesLast, fills]
  | tunStage =>
    cases htun : s.tun with
    | none => simp [sparesLast, fills, htun]
    | some x =>
      by_cases hq : x.1 = p
      · simpa [subject, htun, hq] using h
      · simp [sparesLast, fills, htun, hq]
  | stage q env => simp [sparesLast, fills]

end Bounded

/-- The device answers an initiation of the peer, and gets a data packet from it. -/
def answerThenData : List BoundedAction :=
  (answer ++ [Action.receive endpoint (packet 0 [1]) (env 0)]).map .act

/-- A device that has answered an initiation and has a data packet to handle can handle it, and the
next datagram. -/
theorem Bounded.inbound_survives_sample :
    ∃ s tr, Bounded.Reaches .sample s localKey start (Bounded.Safe .sample) tr ∧
      (s.device.inbox remote).length = 1 ∧ s.device.InboundAlive ∧
      (∃ tr' s' n', Run (Bounded.step .sample)
        (fun s b => s.Safe .sample b ∧ b.OfTask remote (env 55)) s tr' s' ∧
          s'.device.peers remote = some n' ∧ n'.inboundTask = .idle ∧ n'.inbox = []) ∧
      ∃ tr' s', Run (Bounded.step .sample)
        (fun s b => s.Safe .sample b ∧ ∃ p, b.OfTask p (env 55)) s tr' s' ∧
        ∀ endpoint payload env',
          (s'.step .sample (.act (.receive endpoint payload env'))).isSome = true := by
  obtain ⟨s, tr, run, hcheck⟩ := exists_run_of_exec
    (checked (Bounded.step .sample) fun s b =>
      s.survives b && (s.subject b).all (s.sparesLast · b))
    answerThenData (.new .sample localKey start)
    (fun r => decide ((r.1.device.inbox remote).length = 1) && (r.1.device.peers remote).isSome)
    (by decide +kernel)
  have safe : s.Reaches .sample localKey start (Bounded.Safe .sample) tr := by
    refine run.of_checked.mono fun s b hb => ?_
    obtain ⟨hsurvives, hspares⟩ := Bool.and_eq_true_iff.mp hb
    exact ⟨Bounded.survivable_of_survives hsurvives, Bounded.sparesLast_of_subject hspares⟩
  obtain ⟨hlen, hsome⟩ := Bool.and_eq_true_iff.mp hcheck
  obtain ⟨n, hn⟩ := Option.isSome_iff_exists.mp hsome
  obtain ⟨alive, goes⟩ := (Bounded.inbound_survives Crypto.sample_lawful _ _).2 tr s safe
  obtain ⟨drained, receiving⟩ := goes (env 55) rfl
  exact ⟨s, tr, safe, of_decide_eq_true hlen, alive, drained remote n hn, receiving⟩

/-- An initiation that is all zero but for its type and a valid code, which anyone who knows the
public key of the device can compute. -/
def undecryptable : Bytes :=
  let msg := typeHeader messageTypeHandshakeInitiation ++ List.replicate 112 0
  msg ++ (mac .sample Sample.device.cookie.mac1Hash.val msg).val ++ List.replicate 16 0

/-- The device answers an initiation, and the response cannot be sent. -/
def unsent : List BoundedAction :=
  [.insertPeer config 0, .receive endpoint initiation.2 (env 0), inbound, inbound, inbound,
    .inbound remote { env 55 with sendOk := false }].map .act

/-- The timer of the peer fires when its outbound channel is full. Then the device initiates a
handshake, and gets the response. -/
def unconfirmed : List BoundedAction :=
  stagings 32 ++ timer :: [handshake, handshake, handshake, handshake,
    .receive endpoint response (env 0), inbound, inbound, inbound].map .act

/-- A datagram that is not survived ends the inbound loop of the device. -/
lemma Bounded.receive_of_panic {s : Bounded} {endpoint : OutboundSender} {payload : Bytes}
    {env : Env} (h : s.device.survives (.receive endpoint payload env) = false)
    (hup : s.device.inboundUp = true) (hrx : s.isReceiving = true) :
    s.step .sample (.act (.receive endpoint payload env)) =
      some ({ s with device := { s.device with inboundUp := false }, rx := none },
        [.panicked none]) := by
  simp only [Device.survives] at h
  split at h
  · cases h
  · next hp =>
    simp only [step, receive, hrx, if_true, Device.step, hup, hp, Device.recipient, Option.map_some]

/-- **What kills the inbound loops.** An empty datagram, the type of a data packet without the rest
of its header, and an initiation with a valid code that cannot be decrypted each end the inbound
loop of a new device: it handles no datagram any more. A response that cannot be sent ends the
inbound loop of the peer. And without any panic, the inbound loop of a peer waits for ever with the
confirmation of a handshake, if the `loop_outbound` of the peer waits for itself. -/
theorem Bounded.inbound_killed :
    (∀ payload ∈ [[], typeHeader messageTypeTransportData, undecryptable],
      ∃ s tr, Bounded.Reaches .sample s localKey start (fun _ _ => True) tr ∧
        (Bounded.new .sample localKey start).step .sample
          (.act (.receive elsewhere payload (env 0))) = some (s, tr) ∧
        ∀ endpoint payload env, s.step .sample (.act (.receive endpoint payload env)) = none) ∧
    (∃ s tr, Bounded.Reaches .sample s localKey start (fun _ _ => True) tr ∧
      (s.device.peers remote).any PeerNode.inboundGone = true) ∧
    ∃ s tr, Bounded.Reaches .sample s localKey start (Bounded.Survivable .sample) tr ∧
      s.Stuck remote ∧ ∀ s' tr', Run (Bounded.step .sample) (fun _ _ => True) s tr' s' →
        (s'.device.peers remote).any PeerNode.confirms = true := by
  refine ⟨fun payload hp => ?_, ?_, ?_⟩
  · have hpanic : ∀ payload ∈ [[], typeHeader messageTypeTransportData, undecryptable],
        Sample.device.survives (.receive elsewhere payload (env 0)) = false := by
      decide +kernel
    have hstep := Bounded.receive_of_panic (s := .new .sample localKey start) (hpanic payload hp)
      rfl rfl
    exact ⟨_, _, .snoc .nil trivial hstep, hstep, fun _ _ _ => rfl⟩
  · exact exists_run_of_exec (Bounded.step .sample) unsent (.new .sample localKey start)
      (fun r => (r.1.device.peers remote).any PeerNode.inboundGone) (by decide +kernel)
  · obtain ⟨s, tr, run, hcheck⟩ := exists_run_of_exec
      (checked (Bounded.step .sample) Bounded.survives) unconfirmed (.new .sample localKey start)
      (fun r => decide (r.1.loop remote = .staging) && !r.1.hasRoom remote &&
        (r.1.device.peers remote).any PeerNode.confirms) (by decide +kernel)
    simp only [Bool.and_eq_true, Bool.not_eq_true', decide_eq_true_eq] at hcheck
    obtain ⟨stuck, hconfirms⟩ := hcheck
    refine ⟨s, tr, run.of_checked.mono fun _ _ h => Bounded.survivable_of_survives h, stuck,
      fun s' tr' run' => ?_⟩
    have hkeeps := Run.invariant (I := fun _ s' => Bounded.Stuck s' remote ∧
      (s'.device.peers remote).any PeerNode.confirms = true) ⟨stuck, hconfirms⟩
      (fun _ h _ hstep => ⟨(h.1.step hstep).1, h.1.confirms_step h.2 hstep⟩) run'
    exact hkeeps.2

end Examples

end Vlink
