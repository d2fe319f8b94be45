import Vlink.Device.Exchange
import Vlink.Device.System

set_option autoImplicit false

/-!
# Two devices and the network between them

A link is made of two devices with the packets that each has sent. The network may lose, repeat,
delay and reorder packets, and the clocks of the two devices are unrelated.

## Main definitions

* `Vlink.Link`, `Vlink.Link.step` — two devices and the packets they have sent; a step of one of
  them.
* `Vlink.Link.Roomy` — a step that finds no channel full.
* `Vlink.Link.Carried` — what happens without help, when no channel is full: tasks go on, and the
  network delivers a packet that was sent. `Vlink.Link.Used` has packets from the TUN devices as
  well.
* `Vlink.Link.Reaches` — a run of two new devices, with anything received and any calls.
* `Vlink.Link.seen` — what has happened at one end.

## Main results

* `Vlink.Link.run_tasks` — what the tasks of one end do is a run of the link.
* `Vlink.Link.run_deliver` — a packet is delivered and handled.
* `Vlink.Link.SameRoutes.of_run` — none of this changes the routes of the devices.
* `Vlink.Link.Reaches.device` — each end of a link is a device that was reached.
-/

namespace Vlink

/-- The two ends of a link. -/
inductive Side where
  | left
  | right
deriving DecidableEq

namespace Side

/-- The other end. -/
def other : Side → Side
  | left => right
  | right => left

/-- The other end of the other end. -/
@[simp] lemma other_other (e : Side) : e.other.other = e := by cases e <;> rfl

/-- The other end is another one. -/
@[simp] lemma other_ne (e : Side) : e.other ≠ e := by cases e <;> simp [other]

/-- The other end is another one. -/
@[simp] lemma ne_other (e : Side) : e ≠ e.other := (other_ne e).symm

/-- What holds of an end and of the other one holds of both. -/
lemma forall_of {P : Side → Prop} (e : Side) (h : P e) (h' : P e.other) : ∀ e, P e := by
  intro e'
  cases e <;> cases e' <;> assumption

end Side

namespace Device

variable {C : Crypto} {d d' : Device} {evs : List Event}

/-- A step of a task of a peer leaves the routes as they are. -/
lemma routes_of_task {q : Key} {task : PeerNode → Store → PeerNode.TaskStep}
    {dead : PeerNode → PeerNode} (h : d.taskStep q task dead = some (d', evs)) :
    d'.ips = d.ips ∧ d'.outboundUp = d.outboundUp := by
  unfold taskStep at h
  split at h
  · cases h
  · split at h
    · cases h
    all_goals
      cases h
      exact ⟨rfl, rfl⟩

/-- So does a packet from the network. -/
lemma routes_of_receive {endpoint : OutboundSender} {payload : Bytes} {env : Env}
    (h : d.step C (.receive endpoint payload env) = some (d', evs)) :
    d'.ips = d.ips ∧ d'.outboundUp = d.outboundUp := by
  rw [step] at h
  split_ifs at h
  split at h
  · cases h
    exact ⟨rfl, rfl⟩
  · cases h
    exact ⟨rfl, rfl⟩
  · next cookie q e sent _ =>
    obtain rfl : (({ d with cookie } : Device).stageInbound q e).1 = d' :=
      congrArg Prod.fst (Option.some.inj h)
    unfold stageInbound
    split <;> exact ⟨rfl, rfl⟩

end Device

/-- Two devices with their clocks, and all packets that each of them has sent, with the endpoints
they were sent to. -/
@[ext]
structure Link where
  node : Side → Timed
  wire : Side → List (OutboundSender × Bytes)

namespace Link

/-- The device at the end `e` has become `s`, and has done what `evs` says. -/
def put (l : Link) (e : Side) (s : Timed) (evs : List Event) : Link where
  node := Function.update l.node e s
  wire := Function.update l.wire e (l.wire e ++ evs.filterMap Event.sent?)

section Put

variable (l : Link) (e : Side) (s s' : Timed) (evs evs' : List Event)

/-- The end that has changed. -/
@[simp] lemma node_put_self : (l.put e s evs).node e = s := Function.update_self ..

/-- The other end stays. -/
@[simp] lemma node_put_other : (l.put e s evs).node e.other = l.node e.other :=
  Function.update_of_ne e.other_ne ..

/-- The other end stays. -/
@[simp] lemma node_other_put : (l.put e.other s evs).node e = l.node e :=
  Function.update_of_ne e.ne_other ..

/-- What the end has sent is on the wire. -/
@[simp] lemma wire_put_self :
    (l.put e s evs).wire e = l.wire e ++ evs.filterMap Event.sent? :=
  Function.update_self ..

/-- What the other end has sent stays. -/
@[simp] lemma wire_put_other : (l.put e s evs).wire e.other = l.wire e.other :=
  Function.update_of_ne e.other_ne ..

/-- What the other end has sent stays. -/
@[simp] lemma wire_other_put : (l.put e.other s evs).wire e = l.wire e :=
  Function.update_of_ne e.ne_other ..

/-- An end changes twice. -/
@[simp] lemma put_put : (l.put e s evs).put e s' evs' = l.put e s' (evs ++ evs') := by
  simp [put, Function.update_idem]

/-- An end that does not change. -/
lemma put_node : l.put e (l.node e) [] = l := by
  simp [put, Function.update_eq_self]

end Put

/-- One step of the device at one end; `none` if the action is not possible there. -/
def step (C : Crypto) (l : Link) (x : Side × Action) : Option (Link × List (Side × Event)) :=
  ((l.node x.1).tick C x.2).map fun r => (l.put x.1 r.1 r.2, r.2.map (Prod.mk x.1))

/-- The step finds no channel full. -/
def Roomy (C : Crypto) (l : Link) (x : Side × Action) : Prop := (l.node x.1).device.Roomy C x.2

/-- What happens without help: tasks of peers go on, and the network delivers a packet. The packets
that reach an end are those that the other end has sent to an endpoint that leads there, and they
come from an endpoint that leads back. -/
def Unaided (route : Side → OutboundSender → Prop) (l : Link) : Side × Action → Prop
  | (e, .receive endpoint payload _) =>
    route e endpoint ∧ ∃ ep, route e.other ep ∧ (ep, payload) ∈ l.wire e.other
  | (_, a) => ∃ p, a.OfTask p

/-- The same, and no channel is full. -/
def Carried (C : Crypto) (route : Side → OutboundSender → Prop) (l : Link) (x : Side × Action) :
    Prop :=
  Unaided route l x ∧ l.Roomy C x

/-- The same while the TUN devices are in use. -/
def Used (C : Crypto) (route : Side → OutboundSender → Prop) (l : Link) (x : Side × Action) :
    Prop :=
  (Unaided route l x ∨ ∃ buf, x.2 = .tunRecv buf) ∧ l.Roomy C x

/-- Two new devices. -/
def new (C : Crypto) (key : Side → Key) (start : Side → UInt32) (clock : Side → Instant) :
    Link where
  node e := ⟨.new C (key e) (start e), clock e⟩
  wire _ := []

/-- A run of two new devices leads to `l` and emits `tr`. Nothing is assumed of what they
receive, nor of the calls from other parts of the program. -/
def Reaches (C : Crypto) (l : Link) (key : Side → Key) (start : Side → UInt32)
    (clock : Side → Instant) (tr : List (Side × Event)) : Prop :=
  Run (step C) (fun _ _ => True) (new C key start clock) tr l

variable {C : Crypto} {l l' : Link} {e : Side} {route : Side → OutboundSender → Prop}

/-- What happens without help may happen while the TUN devices are in use. -/
lemma Carried.used {x : Side × Action} (h : l.Carried C route x) : l.Used C route x :=
  ⟨.inl h.1, h.2⟩

/-- A step is a step of one end. -/
lemma step_eq_some {a : Action} {evs : List (Side × Event)} :
    l.step C (e, a) = some (l', evs) ↔ ∃ s evs', (l.node e).tick C a = some (s, evs') ∧
      l' = l.put e s evs' ∧ evs = evs'.map (Prod.mk e) := by
  simp only [step, Option.map_eq_some_iff, Prod.exists, Prod.mk.injEq]
  constructor
  · rintro ⟨s, evs', h, rfl, rfl⟩
    exact ⟨s, evs', h, rfl, rfl⟩
  · rintro ⟨s, evs', h, rfl, rfl⟩
    exact ⟨s, evs', h, rfl, rfl⟩

section Seen

variable {τ : Type}

/-- What has happened at the end `e`. -/
def seen (e : Side) (tr : List (Side × τ)) : List τ := (tr.filter fun x => x.1 = e).map Prod.snd

/-- What an end does in a longer trace. -/
@[simp] lemma seen_append (e : Side) (tr tr' : List (Side × τ)) :
    seen e (tr ++ tr') = seen e tr ++ seen e tr' := by
  simp [seen]

/-- What the end itself does. -/
@[simp] lemma seen_self (e : Side) (evs : List τ) : seen e (evs.map (Prod.mk e)) = evs := by
  simp [seen, List.filter_map, Function.comp_def]

/-- What another end does is not seen. -/
lemma seen_of_ne {e e' : Side} (h : e' ≠ e) (evs : List τ) :
    seen e (evs.map (Prod.mk e')) = [] := by
  simp [seen, List.filter_map, Function.comp_def, h]

end Seen

/-- **Each end is a device.** -/
theorem Reaches.device {key : Side → Key} {start : Side → UInt32} {clock : Side → Instant}
    {tr : List (Side × Event)} (reached : l.Reaches C key start clock tr) (e : Side) :
    (l.node e).device.Reaches C (key e) (start e) (fun _ _ => True) (seen e tr) := by
  refine Run.invariant (I := fun tr l => (l.node e).device.Reaches C (key e) (start e)
    (fun _ _ => True) (seen e tr)) .nil ?_ reached
  rintro tr l ⟨e', a⟩ l' evs _ ih _ h
  obtain ⟨s, evs', hs, rfl, rfl⟩ := step_eq_some.mp h
  by_cases he : e = e'
  · subst he
    rw [node_put_self, seen_append, seen_self]
    exact Run.snoc ih trivial (Timed.tick_eq_some.mp hs).2.2
  · rw [seen_append, seen_of_ne (Ne.symm he), List.append_nil]
    simpa [put, Function.update_of_ne he] using ih

/-! ## Parts of a run -/

/-- What the tasks of a peer do at one end is a run of the link. -/
theorem run_tasks (route : Side → OutboundSender → Prop) {p : Key} {tr : List Event} {s : Timed}
    (run : Run (Timed.tick C) (Timed.Works C p) (l.node e) tr s) :
    Run (step C) (Carried C route) l (tr.map (Prod.mk e)) (l.put e s tr) := by
  induction run with
  | nil =>
    rw [put_node]
    exact .nil
  | @snoc tr s s' a evs run ok h ih =>
    have hstep : (l.put e s tr).step C (e, a) =
        some (l.put e s' (tr ++ evs), evs.map (Prod.mk e)) := by
      refine step_eq_some.mpr ⟨s', evs, by simpa using h, ?_, rfl⟩
      rw [put_put]
    rw [List.map_append]
    refine ih.snoc ⟨?_, by simpa [Roomy] using ok.2⟩ hstep
    cases a with
    | handshake | inbound | outbound => exact ⟨p, ok.1⟩
    | _ => exact ok.1.elim

/-- A packet of the other end is delivered, and the inbound task of the peer that it is staged for
handles it. -/
theorem run_deliver {endpoint ep : OutboundSender} {payload : Bytes} {env : Env} {p : Key}
    {n : PeerNode} {ev : InboundEvent} {evs : List Event} {x : Store × PeerNode}
    (hroute : route e endpoint) (hback : route e.other ep)
    (hwire : (ep, payload) ∈ l.wire e.other) (hup : (l.node e).device.inboundUp = true)
    (hclock : (l.node e).clock ≤ env.now) (hsend : env.sendOk = true)
    (hn : (l.node e).device.peers p = some n) (quiet : n.Quiet)
    (ht : (l.node e).device.tickInbound C env endpoint payload =
      .ret ((l.node e).device.cookie, some (p, ev), []))
    (run : Run (PeerNode.alone (PeerNode.inboundStep C)) (fun _ a => a = env)
      ((l.node e).device.store, { n with inbox := [ev] }) evs x) :
    ∃ clock staged,
      Run (step C) (Carried C route) l ((staged ++ evs).map (Prod.mk e))
        (l.put e ⟨(l.node e).device.become p x.1 x.2, clock⟩ (staged ++ evs)) ∧
      ∀ e' ∈ staged, ∃ q packet s, e' = .staged q packet s := by
  obtain ⟨staged, hstep, hstaged⟩ := Device.step_receive hup ht hn quiet.inbox
  let s : Timed :=
    ⟨(l.node e).device.become p (l.node e).device.store { n with inbox := [ev] }, env.now⟩
  -- the channels are empty, so there is room
  have hroom : (l.node e).device.Roomy C (.receive endpoint payload env) := by
    intro q hq
    obtain rfl : p = q := by simpa [Device.recipient, ht] using hq
    simp [Device.inbox, hn, quiet.inbox, peerCapacity]
  have ok : Carried C route l (e, .receive endpoint payload env) :=
    ⟨⟨hroute, ep, hback, hwire⟩, hroom⟩
  have hrecv : l.step C (e, .receive endpoint payload env) =
      some (l.put e s staged, staged.map (Prod.mk e)) :=
    step_eq_some.mpr ⟨s, staged, Timed.tick_eq_some.mpr ⟨hclock, rfl, hstep⟩, rfl, rfl⟩
  have first : Run (step C) (Carried C route) l (staged.map (Prod.mk e)) (l.put e s staged) :=
    .snoc .nil ok hrecv
  have hpending : ({ n with inbox := [ev] } : PeerNode).pending ≤ peerCapacity := by
    simp [PeerNode.pending, quiet.inboundTask, quiet.outbox, peerCapacity]
  obtain ⟨clock, -, tasks⟩ := Timed.run_of_alone (s := s) (.inbound p) (fun _ _ => rfl)
    (fun {d x a} hd h => ⟨h.1, fun hc => by
      rw [Device.outbox_eq hd]
      exact h.2 (by simpa [hd] using hc)⟩)
    ⟨rfl, hsend⟩ rfl le_rfl (by simp [s]) (PeerNode.run_inbound_roomy hpending run)
  refine ⟨clock, staged, ?_, hstaged⟩
  have second := run_tasks (l := l.put e _ staged) route (by rw [node_put_self]; exact tasks)
  rw [List.map_append]
  simpa [s] using first.trans second

/-! ## Routes -/

/-- The routes of the devices are the same, and so is whether their outbound loops are running. -/
structure SameRoutes (l l' : Link) : Prop where
  ips : ∀ e, (l'.node e).device.ips = (l.node e).device.ips
  up : ∀ e, (l'.node e).device.outboundUp = (l.node e).device.outboundUp

/-- The network and the tasks of the peers leave the routes as they are. -/
theorem SameRoutes.of_run {tr : List (Side × Event)}
    (run : Run (step C) (Carried C route) l tr l') : SameRoutes l l' := by
  refine run.invariant (I := fun _ => SameRoutes l) ⟨fun _ => rfl, fun _ => rfl⟩ ?_
  rintro tr l₁ ⟨e, a⟩ l₂ evs _ ih ok h
  obtain ⟨s, evs', hs, rfl, rfl⟩ := step_eq_some.mp h
  obtain ⟨hips, hup⟩ : s.device.ips = (l₁.node e).device.ips ∧
      s.device.outboundUp = (l₁.node e).device.outboundUp := by
    have hstep := (Timed.tick_eq_some.mp hs).2.2
    cases a with
    | receive => exact Device.routes_of_receive hstep
    | handshake | inbound | outbound =>
      rw [Device.step] at hstep
      exact Device.routes_of_task hstep
    | _ => exact ok.1.elim fun _ h => h.elim
  refine ⟨Side.forall_of e ?_ ?_, Side.forall_of e ?_ ?_⟩
  · rw [node_put_self, hips, ih.ips]
  · rw [node_put_other, ih.ips]
  · rw [node_put_self, hup, ih.up]
  · rw [node_put_other, ih.up]

/-- A packet from the TUN device goes to the same peer. -/
lemma SameRoutes.tickOutbound (h : SameRoutes l l') (e : Side) (buf : Bytes) :
    (l'.node e).device.tickOutbound buf = (l.node e).device.tickOutbound buf := by
  simp only [Device.tickOutbound, Device.getByIp, h.ips]

end Link

/-! ## Two devices to run -/

namespace Sample

/-- The private keys of the two devices. -/
def keys : Side → Key
  | .left => localKey
  | .right => remoteKey

/-- The addresses of the two devices in the network. -/
def address : Side → IpAddr
  | .left => .v4 0x0A000001#32
  | .right => .v4 0x0A000002#32

/-- A device as the other one has it configured. -/
def peerConfig (e : Side) : PeerConfig :=
  { config with publicKey := Crypto.sample.publicKey (keys e), allowedIps := [⟨address e, 32⟩] }

end Sample

end Vlink
