import Vlink.Headlink.Presence
import Vlink.Headlink.Replies

set_option autoImplicit false

/-!
# Who is told about whom

What a client learns about the presence of other peers reaches it in two ways: the configuration
says who is online when it is built, and every later change is broadcast. Both take several
sections of the server and then pass through the send queue of a connection. This module says once
what a step does to broadcasts, to configurations under way and to the messages on their way to a
client.

## Main definitions

* `Vlink.Headlink.Conn.way` — the messages on their way to the client.
* `Vlink.Headlink.Broadcast`, `Phase.broadcast?` — the broadcast that a connection is engaged in.
* `Vlink.Headlink.BroadcastStep` — what a step does to it.
* `Vlink.Headlink.Phase.snapshot?` — the list of peers that a connection has taken for a
  configuration.

## Main results

* `Vlink.Headlink.Conn.Step.broadcast`, `Conn.Step.way`, `Conn.Step.snapshot`, `Conn.Step.id` —
  what a step of a connection does to them.
* `Vlink.Headlink.Server.After.way` — the messages on their way to a client after a step.
-/

namespace Vlink.Headlink

/-! ## Messages on their way -/

/-- What a message says about who is online. -/
def ToClientData.word? : ToClientData → Option (String × Bool)
  | .peerEnter e => some (e.pubKey, true)
  | .peerLeave e => some (e.pubKey, false)
  | _ => none

/-- The list of peers in a configuration. -/
def ToClientData.peers? : ToClientData → Option (List BcPeerEnter)
  | .respConfig cfg => some cfg.peers
  | _ => none

/-- The messages on their way to the client: those that are written, then those in the send
queue. -/
def Conn.way (conn : Conn) : List ToClientData :=
  conn.downstream.map (·.toClientData) ++ conn.queue.map (·.2)

/-- A message is put in the queue. -/
lemma Conn.way_enqueue (conn : Conn) (origin : Option ℕ) (data : ToClientData) :
    (conn.enqueue origin data).way = conn.way ++ [data] := by
  simp [way, enqueue]

/-- What a step of the connection `c` does to the messages on their way to its client. -/
inductive WayStep (c : ConnId) (conn conn' : Conn) : List Event → Prop
  | same {evs : List Event} (way : conn'.way = conn.way) (got : ∀ m, .clientGot c m ∉ evs)
      (closed : .closed c ∉ evs) : WayStep c conn conn' evs
  | read {m : ToClient} (way : conn.way = m.toClientData :: conn'.way)
      (phase : conn'.phase = conn.phase) : WayStep c conn conn' [.clientGot c m]
  | close (way : conn'.way <+: conn.way) : WayStep c conn conn' [.closed c]

/-- Nothing is added on the way. -/
lemma WayStep.subset {c : ConnId} {conn conn' : Conn} {evs : List Event}
    (h : WayStep c conn conn' evs) : conn'.way ⊆ conn.way := by
  cases h with
  | same way _ _ => simp [way]
  | read way _ => simp [way]
  | close way => exact way.subset

/-- A step of a connection lets its messages be, or the client reads the first one, or the event
loop ends and what is in the send queue is lost. -/
theorem Conn.Step.way {inner : ServerInner} {c : ConnId} {conn : Conn}
    {conns : ConnId → Option Conn} {a : ConnAction} {m : Move}
    (step : Conn.Step inner c conn conns a m) : WayStep c conn m.conn m.events := by
  cases step with
  | clientSend _ => exact .same rfl (by simp) (by simp)
  | clientRecv front => exact .read (by simp [Conn.way, front]) rfl
  | recv _ _ => exact .same rfl (by simp) (by simp)
  | reply _ front | notify _ front =>
    exact .same (by simp [Conn.way, front]) (by simp) (by simp)
  | hangup _ => exact .close (by simp [Conn.way, Conn.close])
  | process running move =>
    cases move with
    | stop _ => exact .close (by simp [Conn.way, Conn.close])
    | handle hstep =>
      have hevs := hstep.inner_step.2
      refine .same rfl (fun m hm => ?_) fun hm => ?_
      · rcases Handler.eq_of_mem_events (hevs ▸ hm) with h | h | ⟨_, h⟩ | ⟨_, h⟩ <;> cases h
      · rcases Handler.eq_of_mem_events (hevs ▸ hm) with h | h | ⟨_, h⟩ | ⟨_, h⟩ <;> cases h
    | _ => exact .same rfl (by simp) (by simp)
  | main move =>
    generalize conn.phase = phase at move
    cases move <;> exact .same rfl (by simp) (by simp)

/-- What a step sends to the connection `x`. -/
def Letter.to? (send : Option Letter) (x : ConnId) : Option ToClientData :=
  send.bind fun l => if l.dst = x then some l.data else none

/-- The messages on their way to a client after a step: what the step of its own connection leaves,
and what is sent to it, unless its event loop has ended. -/
theorem Server.After.way {s s' : Server} {c : ConnId} {m : Move} {post : List Event}
    (after : After s c m s' post) {x : ConnId} {conn' : Conn} (hx : s'.conns x = some conn') :
    ∃ conn, Function.update s.conns c (some m.conn) x = some conn ∧ conn'.phase = conn.phase ∧
      conn'.way = conn.way ++ if conn.isOpen then (Letter.to? m.send x).toList else [] := by
  rcases after.conns with ⟨hconns, -, hshut⟩ | ⟨l, conn, hsend, hdst, hopen, -, hconns, -⟩
  · rw [hconns] at hx
    refine ⟨conn', hx, rfl, ?_⟩
    cases hsend : m.send with
    | none => simp [Letter.to?]
    | some l =>
      by_cases hl : l.dst = x
      · have := hshut l hsend conn' (hl ▸ hx)
        simp [this]
      · simp [Letter.to?, hl]
  · rw [hconns, Function.update_apply] at hx
    split_ifs at hx with hl
    · cases hx
      refine ⟨conn, hl ▸ hdst, rfl, ?_⟩
      simp [Conn.way_enqueue, hopen, hsend, Letter.to?, hl]
    · refine ⟨conn', hx, rfl, ?_⟩
      have hne : l.dst ≠ x := fun h => hl h.symm
      simp [hsend, Letter.to?, hne]

/-! ## Broadcasts -/

/-- A broadcast: before the lock of the peers of a network, or with the messages still to be
sent. -/
inductive Broadcast where
  | called (networkId : ℤ) (audience : Audience) (data : ToClientData)
  | sending (targets : List ConnId) (data : ToClientData)
deriving DecidableEq

namespace Broadcast

/-- What is broadcast. -/
def data : Broadcast → ToClientData
  | called _ _ data | sending _ data => data

end Broadcast

/-- The broadcast that a handler of the client `id` is engaged in. -/
def Handler.broadcast? (id : ClientId) : Handler → Option Broadcast
  | .broadcast audience data => some (.called id.networkId audience data)
  | .sending targets data => some (.sending targets data)
  | _ => none

/-- The broadcast that a connection is engaged in. -/
def Phase.broadcast? : Phase → Option Broadcast
  | .running (.handling id _ h) => h.broadcast? id
  | .leaving id => some (.called id.networkId (.except id.pubKey) (leaveNotice id.pubKey))
  | .sending targets data => some (.sending targets data)
  | _ => none

/-- The list of peers that a handler has taken for a configuration. -/
def Handler.snapshot? : Handler → Option (List BcPeerEnter)
  | .configIp _ peers | .configUpdate _ peers _ | .configRefresh _ peers _
  | .configTransports _ peers _ | .configEndpoints _ peers _ _ => some peers
  | .configReply resp => some resp.peers
  | _ => none

/-- The list of peers that a connection has taken for a configuration. -/
def Phase.snapshot? : Phase → Option (List BcPeerEnter)
  | .running (.handling _ _ h) => h.snapshot?
  | _ => none

/-- The list of peers was taken for a configuration that is under way. -/
def Conn.Taken (conn : Conn) (peers : List BcPeerEnter) : Prop :=
  conn.phase.snapshot? = some peers ∨ ∃ d ∈ conn.way, d.peers? = some peers

/-- The identity that a connection works for, once the handshake has been accepted. -/
def Task.id? : Task → Option ClientId
  | .reply _ (.ok id) | .replySent _ (.ok id) | .admitted id | .subscribed id | .ready id
  | .handling id _ _ | .failing id _ _ | .waiting id _ => some id
  | _ => none

/-- The identity that a connection works for. -/
def Phase.id? : Phase → Option ClientId
  | .running task => task.id?
  | _ => none

/-- The handshake has not come back yet. -/
def Phase.isEarly : Phase → Bool
  | .starting | .running .hello | .running (.helloSent _) | .running .awaiting
  | .running (.handshake _ _) => true
  | _ => false

/-- The connection handles `PeerEnter`. -/
def Phase.enters : Phase → Bool
  | .running (.handling _ _ (.enterLoad _)) | .running (.handling _ _ (.enterWrite _)) => true
  | _ => false

/-- A request has been taken up: the connection still works for its client, and has neither begun
a broadcast nor taken a list of peers. -/
structure Phase.Fresh (id : ClientId) (phase : Phase) : Prop where
  broadcast? : phase.broadcast? = none
  snapshot? : phase.snapshot? = none
  id? : phase.id? = some id
  isEarly : phase.isEarly = false

/-- A new task is fresh. -/
lemma Phase.fresh_taskFor (id : ClientId) (m : ToServer) :
    (Phase.running (Conn.taskFor id m)).Fresh id := by
  unfold Conn.taskFor
  cases m.toServerData with
  | none => exact ⟨rfl, rfl, rfl, rfl⟩
  | some data => cases data <;> exact ⟨rfl, rfl, rfl, rfl⟩

/-- What a step of the connection `c` does to the broadcast it is engaged in, what it sends and
what is seen of it. -/
inductive BroadcastStep (s : ServerInner) (c : ConnId) :
    Option Broadcast → Option Broadcast → Option Letter → List Event → Prop
  /-- At most a reply is sent, and nobody's presence changes. -/
  | same {b : Option Broadcast} {send : Option Letter} {evs : List Event}
      (reply : ∀ l, send = some l → l.data.word? = none)
      (still : ∀ c id, .entered c id ∉ evs ∧ .offline c id ∉ evs) : BroadcastStep s c b b send evs
  /-- A broadcast that is not about who is online. -/
  | call {n : ℤ} {audience : Audience} {data : ToClientData} (word : data.word? = none) :
      BroadcastStep s c none (some (.called n audience data)) none []
  | enter {id : ClientId} {data : ToClientData} (word : data.word? = some (id.pubKey, true)) :
      BroadcastStep s c none (some (.called id.networkId (.except id.pubKey) data)) none
        [.entered c id]
  | offline {c' : ConnId} {id : ClientId} {data : ToClientData}
      (word : data.word? = some (id.pubKey, false)) :
      BroadcastStep s c none (some (.called id.networkId (.except id.pubKey) data)) none
        [.offline c' id]
  | lock {n : ℤ} {audience : Audience} {data : ToClientData} {net : VlinkNetwork}
      (network : s.networks.lookup n = some net) :
      BroadcastStep s c (some (.called n audience data))
        (some (.sending (net.targets audience) data)) none []
  | send {targets : List ConnId} {data : ToClientData} {i : ℕ} {dst : ConnId}
      (next : targets[i]? = some dst) :
      BroadcastStep s c (some (.sending targets data)) (some (.sending (targets.eraseIdx i) data))
        (some ⟨dst, none, data⟩) []
  | done {data : ToClientData} : BroadcastStep s c (some (.sending [] data)) none none []
  | close {b : Option Broadcast} : BroadcastStep s c b none none [.closed c]

/-- When the messages of a broadcast have all been sent. -/
lemma eq_nil_of_getElem?_mod {α : Type*} {l : List α} {n : ℕ}
    (h : l[n % l.length]? = none) : l = [] := by
  rw [List.getElem?_eq_none_iff] at h
  by_contra hne
  exact absurd (Nat.mod_lt n (List.length_pos_iff.mpr hne)) (by omega)

/-- A section of a handler. -/
lemma Handler.Step.announce {s s' : ServerInner} {id : ClientId} {c : ConnId} {env : Env}
    {h : Handler} {next : Next} {evs : List Event} {number ticket : ℕ}
    (step : Handler.Step s id c env h s' next evs) :
    BroadcastStep s c (h.broadcast? id) (Phase.running (next.task id number ticket)).broadcast?
      (next.send c number) evs := by
  cases step with
  | enter _ _ => exact .enter rfl
  | leave _ => exact .offline rfl
  | broadcast network => exact .lock network
  | sent last =>
    obtain rfl := eq_nil_of_getElem?_mod last
    exact .done
  | send next => exact .send next
  | forward _ | endpointTell => exact .call rfl
  | configured =>
    refine .same (fun l hl => ?_) (by simp)
    cases hl
    rfl
  | _ => exact .same (fun l hl => by cases hl) (by simp)

/-- A step of a connection. -/
theorem Conn.Step.broadcast {inner : ServerInner} {c : ConnId} {conn : Conn}
    {conns : ConnId → Option Conn} {a : ConnAction} {m : Move}
    (step : Conn.Step inner c conn conns a m) :
    BroadcastStep inner c conn.phase.broadcast? m.conn.phase.broadcast? m.send m.events := by
  cases step with
  | clientSend _ | clientRecv _ | recv _ _ | reply _ _ | notify _ _ =>
    exact .same (fun l hl => by cases hl) (by simp)
  | hangup _ => exact .close
  | process running move =>
    rw [running]
    cases move with
    | hello | fail =>
      refine .same (fun l hl => ?_) (by simp)
      cases hl
      rfl
    | @reply _ result =>
      refine .same (fun l hl => ?_) (by simp)
      cases hl
      cases result <;> rfl
    | dispatch _ =>
      show BroadcastStep _ _ _ (Phase.running (taskFor _ _)).broadcast? _ _
      rw [(Phase.fresh_taskFor _ _).broadcast?]
      exact .same (fun l hl => by cases hl) (by simp)
    | handle hstep => exact hstep.announce
    | stop _ => exact .close
    | _ => exact .same (fun l hl => by cases hl) (by simp)
  | main move =>
    generalize conn.phase = phase at move
    cases move with
    | offline => exact .offline rfl
    | leave network => exact .lock network
    | finish last =>
      obtain rfl := eq_nil_of_getElem?_mod last
      exact .done
    | send next => exact .send next
    | _ => exact .same (fun l hl => by cases hl) (by simp)

/-! ## Configurations -/

section Configurations

variable {inner : ServerInner} {c : ConnId} {conn : Conn} {conns : ConnId → Option Conn}
  {a : ConnAction} {m : Move}

/-- Where the list of peers comes from: it is taken from the registry, and passed on. -/
theorem Conn.Step.snapshot (step : Conn.Step inner c conn conns a m) {peers : List BcPeerEnter}
    (h : m.conn.phase.snapshot? = some peers) :
    conn.phase.snapshot? = some peers ∨ ∃ id net, conn.phase.id? = some id ∧ m.inner = inner ∧
      inner.networks.lookup id.networkId = some net ∧ peers = configEntries net.peers := by
  cases step with
  | clientSend _ | clientRecv _ | recv _ _ | reply _ _ | notify _ _ => exact .inl h
  | hangup _ => cases h
  | process running move =>
    rw [running]
    cases move with
    | dispatch _ =>
      replace h : (Phase.running (taskFor _ _)).snapshot? = some peers := h
      rw [(Phase.fresh_taskFor _ _).snapshot?] at h
      cases h
    | handle hstep =>
      cases hstep with
      | configPeers network =>
        cases h
        exact .inr ⟨_, _, rfl, rfl, network, rfl⟩
      | choose _ _ _ | keep _ _ | update _ | refresh _ | transports | endpoints _ => exact .inl h
      | _ => cases h
    | _ => cases h
  | main move =>
    generalize conn.phase = phase at move
    cases move <;> cases h

/-- The identity is that of the handshake. -/
theorem Conn.Step.id (step : Conn.Step inner c conn conns a m) {id : ClientId}
    (h : m.conn.phase.id? = some id) :
    conn.phase.id? = some id ∨ m.events = [.handshaken c (.ok id)] := by
  cases step with
  | clientSend _ | clientRecv _ | recv _ _ | reply _ _ | notify _ _ => exact .inl h
  | hangup _ => cases h
  | process running move =>
    rw [running]
    cases move with
    | dispatch _ =>
      replace h : (Phase.running (taskFor _ _)).id? = some id := h
      rw [(Phase.fresh_taskFor _ _).id?] at h
      exact .inl h
    | @handshaken _ _ _ _ result _ =>
      cases result with
      | error e => cases h
      | ok id' =>
        cases h
        exact .inr rfl
    | @handle _ _ _ _ next _ _ => cases next <;> exact .inl h
    | @reply _ result => cases result <;> exact .inl h
    | welcome _ | subscribe | ready _ | fail | resume _ => exact .inl h
    | _ => cases h
  | main move =>
    generalize conn.phase = phase at move
    cases move <;> cases h

/-- After a handshake is accepted the connection does not come back to it. -/
lemma Conn.Step.accepted (step : Conn.Step inner c conn conns a m) {c' : ConnId} {id : ClientId}
    (h : .handshaken c' (.ok id) ∈ m.events) : c' = c ∧ m.conn.phase.isEarly = false := by
  cases step with
  | clientSend _ | clientRecv _ | reply _ _ | notify _ _ | hangup _ =>
    cases List.mem_singleton.mp h
  | recv _ _ => cases h
  | process running move =>
    cases move with
    | hello | await _ | begin _ _ | handshake _ | reply | welcome _ | subscribe | ready _ | fail
    | resume _ => cases h
    | refuse _ _ | dispatch _ | stop _ => cases List.mem_singleton.mp h
    | handshaken hstep =>
      cases List.mem_singleton.mp h
      cases hstep with
      | accept free => exact ⟨rfl, rfl⟩
    | handle hstep =>
      rw [hstep.inner_step.2] at h
      rcases Handler.eq_of_mem_events h with h | h | ⟨_, h⟩ | ⟨_, h⟩ <;> cases h
  | main move =>
    generalize conn.phase = phase at move
    cases move with
    | offline => cases List.mem_singleton.mp h
    | _ => cases h

/-- The handshake comes back once. -/
lemma Conn.Step.isEarly (step : Conn.Step inner c conn conns a m)
    (h : m.conn.phase.isEarly = true) : conn.phase.isEarly = true := by
  cases step with
  | clientSend _ | clientRecv _ | recv _ _ | reply _ _ | notify _ _ => exact h
  | hangup _ => cases h
  | process running move =>
    rw [running]
    cases move with
    | hello | await _ | begin _ _ | handshake _ => rfl
    | dispatch _ =>
      replace h : (Phase.running (taskFor _ _)).isEarly = true := h
      rw [(Phase.fresh_taskFor _ _).isEarly] at h
      cases h
    | @handle _ _ _ _ next _ _ => cases next <;> cases h
    | _ => cases h
  | main move =>
    generalize conn.phase = phase at move
    cases move with
    | start => rfl
    | _ => cases h

/-- Whoever handles `PeerEnter` was asked to. -/
lemma Conn.Step.enters (step : Conn.Step inner c conn conns a m)
    (h : m.conn.phase.enters = true) :
    conn.phase.enters = true ∨ ∃ r msg data, conn.recv = some r ∧ msg ∈ r.queue ∧
      msg.toServerData = some (.peerEnter data) := by
  cases step with
  | clientSend _ | clientRecv _ | recv _ _ | reply _ _ | notify _ _ => exact .inl h
  | hangup _ => cases h
  | process running move =>
    rw [running]
    cases move with
    | @dispatch id msg _ took =>
      obtain ⟨r, hr, hmem, -⟩ := took_item took
      replace h : (Phase.running (taskFor id msg)).enters = true := h
      unfold taskFor at h
      cases hdata : msg.toServerData with
      | none =>
        rw [hdata] at h
        cases h
      | some data =>
        rw [hdata] at h
        cases data with
        | peerEnter data => exact .inr ⟨r, msg, data, hr, hmem, hdata⟩
        | _ => cases h
    | handle hstep =>
      cases hstep with
      | enterLoad _ => exact .inl rfl
      | _ => cases h
    | _ => cases h
  | main move =>
    generalize conn.phase = phase at move
    cases move <;> cases h

end Configurations

/-! ## What the trace says -/

/-- The trace shows that a peer with the public key entered or was marked offline. -/
def About (tr : List Event) (pubKey : String) : Prop :=
  ∃ c id, id.pubKey = pubKey ∧ (.entered c id ∈ tr ∨ .offline c id ∈ tr)

/-- More events change nothing. -/
lemma About.append {tr : List Event} {pubKey : String} (h : About tr pubKey)
    (evs : List Event) : About (tr ++ evs) pubKey := by
  obtain ⟨c, id, hkey, h⟩ := h
  exact ⟨c, id, hkey, h.imp (List.mem_append_left _) (List.mem_append_left _)⟩

/-- What the trace says of a connection and of the broadcast it is engaged in. -/
structure Conn.Told (tr : List Event) (c : ConnId) (conn : Conn) : Prop where
  early : conn.phase.isEarly = true → ∀ id, .handshaken c (.ok id) ∉ tr
  id : ∀ id, conn.phase.id? = some id → .handshaken c (.ok id) ∈ tr
  enters : conn.phase.enters = true →
    ∃ m data, m.toServerData = some (.peerEnter data) ∧ .clientSent c m ∈ tr
  targets : ∀ targets data, conn.phase.broadcast? = some (.sending targets data) →
    ∀ x ∈ targets, ∃ id, .entered x id ∈ tr
  about : ∀ b, conn.phase.broadcast? = some b → ∀ pubKey v, b.data.word? = some (pubKey, v) →
    About tr pubKey

section Runs

variable {db : Database} {info : ServerInfo} {guard : Server → Action → Prop} {tr : List Event}
  {s : Server} {c : ConnId} {conn : Conn} {id : ClientId}

/-- Who is online has entered through the connection that the registry shows. -/
lemma Server.Reaches.entered_of_presence (run : s.Reaches db info guard tr) {online : OnlineInfo}
    (h : s.inner.presence id = some online) : .entered online.connect id ∈ tr := by
  refine Run.invariant (I := fun tr s => ∀ id online, (Server.inner s).presence id = some online →
    Event.entered online.connect id ∈ tr) (fun id online h => ?_) ?_ run id online h
  · simp [Server.new, ServerInner.presence, ServerInner.peer?] at h
  intro tr s a s' evs _ ih _ hstep id online h
  have hinner := (step_inner hstep).1
  by_cases hin : ∃ c, s.change a = some (.entered c id)
  · obtain ⟨c, hchange⟩ := hin
    have hmem : .entered c id ∈ evs := (mem_events hstep rfl).mpr hchange
    rw [hchange] at hinner
    obtain ⟨online', hpresence, hconnect⟩ := hinner.presence_entered
    rw [h] at hpresence
    cases hpresence
    rw [hconnect]
    exact List.mem_append_right _ hmem
  by_cases hout : ∃ c, s.change a = some (.offline c id)
  · obtain ⟨c, hchange⟩ := hout
    rw [hchange] at hinner
    rw [hinner.presence_offline] at h
    cases h
  · rw [hinner.presence_of_ne (fun c heq => hin ⟨c, heq⟩) fun c heq => hout ⟨c, heq⟩] at h
    exact List.mem_append_left _ (ih id online h)

/-- The connections that a broadcast goes to are those of peers that are online in the network and
belong to the audience. -/
lemma ServerInner.exists_of_mem_targets {inner : ServerInner} {n : ℤ} {net : VlinkNetwork}
    {audience : Audience} {x : ConnId} (network : inner.networks.lookup n = some net)
    (h : x ∈ net.targets audience) : ∃ k online, audience.includes k = true ∧
      inner.presence ⟨k, n⟩ = some online ∧ online.connect = x := by
  obtain ⟨⟨k, p⟩, hmem, hx⟩ := List.mem_filterMap.mp h
  dsimp only at hx
  split_ifs at hx with hincludes
  obtain ⟨online, honline, rfl⟩ := Option.map_eq_some_iff.mp hx
  have hp : net.peers.lookup k = some p := AList.mem_lookup_iff.mpr hmem
  exact ⟨k, online, hincludes, by simp [presence, peer?, network, hp, honline], rfl⟩

/-- A step of a connection. -/
lemma Conn.Step.told {a : ConnAction} {m : Move} (run : s.Reaches db info guard tr)
    (hc : s.conns c = some conn) (h : conn.Told tr c)
    (step : Conn.Step s.inner c conn s.conns a m) : m.conn.Told (tr ++ m.events) c := by
  have hcast := step.broadcast
  refine ⟨fun hearly id hmem => ?_, fun id hid => ?_, fun henters => ?_,
    fun targets data hb x hx => ?_, fun b hb pubKey v hword => ?_⟩
  · rcases List.mem_append.mp hmem with hmem | hmem
    · exact h.early (step.isEarly hearly) id hmem
    · rw [(step.accepted hmem).2] at hearly
      cases hearly
  · rcases step.id hid with hid | hevs
    · exact List.mem_append_left _ (h.id id hid)
    · simp [hevs]
  · rcases step.enters henters with henters | ⟨r, msg, data, hr, hmsg, hdata⟩
    · obtain ⟨msg, data, hdata, hsent⟩ := h.enters henters
      exact ⟨msg, data, hdata, List.mem_append_left _ hsent⟩
    · exact ⟨msg, data, hdata, List.mem_append_left _ ((run.heard hc).recv r hr msg hmsg)⟩
  · have old := h.targets
    rw [hb] at hcast
    generalize conn.phase.broadcast? = b₀, m.send = send, m.events = evs at hcast old ⊢
    cases hcast with
    | same _ _ =>
      obtain ⟨id, hmem⟩ := old _ _ rfl x hx
      exact ⟨id, List.mem_append_left _ hmem⟩
    | lock network =>
      obtain ⟨k, online, -, hpresence, rfl⟩ := ServerInner.exists_of_mem_targets network hx
      exact ⟨_, List.mem_append_left _ (run.entered_of_presence hpresence)⟩
    | send next =>
      obtain ⟨id, hmem⟩ := old _ _ rfl x (List.mem_of_mem_eraseIdx hx)
      exact ⟨id, List.mem_append_left _ hmem⟩
  · have old := h.about
    rw [hb] at hcast
    generalize conn.phase.broadcast? = b₀, m.send = send, m.events = evs at hcast old ⊢
    cases hcast with
    | same _ _ => exact (old _ rfl pubKey v hword).append _
    | call word =>
      rw [Broadcast.data, word] at hword
      cases hword
    | @enter id _ word =>
      rw [Broadcast.data, word] at hword
      cases hword
      exact ⟨c, id, rfl, .inl (by simp)⟩
    | @offline c' id _ word =>
      rw [Broadcast.data, word] at hword
      cases hword
      exact ⟨c', id, rfl, .inr (by simp)⟩
    | lock _ | send _ => exact (old _ rfl pubKey v hword).append _

/-- The trace goes on, and the task of the connection stands where it stood. -/
lemma Conn.Told.append {conn' : Conn} (h : conn.Told tr c) {evs : List Event}
    (phase : conn'.phase = conn.phase) (fresh : ∀ id, .handshaken c (.ok id) ∉ evs) :
    conn'.Told (tr ++ evs) c := by
  refine ⟨fun hearly id hmem => ?_, fun id hid => ?_, fun henters => ?_,
    fun targets data hb x hx => ?_, fun b hb pubKey v hword => ?_⟩
  · rcases List.mem_append.mp hmem with hmem | hmem
    · exact h.early (phase ▸ hearly) id hmem
    · exact fresh id hmem
  · exact List.mem_append_left _ (h.id id (phase ▸ hid))
  · obtain ⟨m, data, hdata, hsent⟩ := h.enters (phase ▸ henters)
    exact ⟨m, data, hdata, List.mem_append_left _ hsent⟩
  · obtain ⟨id, hmem⟩ := h.targets targets data (phase ▸ hb) x hx
    exact ⟨id, List.mem_append_left _ hmem⟩
  · exact (h.about b (phase ▸ hb) pubKey v hword).append _

/-- In every run, what the trace says of the connections and their broadcasts. -/
lemma Server.Reaches.told (run : s.Reaches db info guard tr) (hc : s.conns c = some conn) :
    conn.Told tr c := by
  refine run.conns (J := fun tr c conn => Conn.Told tr c conn) ?_ ?_ ?_ ?_ hc
  · intro tr s addr run
    refine ⟨fun _ id hmem => ?_, fun id hid => (by cases hid), fun h => (by cases h),
      fun targets data hb => (by cases hb), fun b hb => (by cases hb)⟩
    rcases List.mem_append.mp hmem with hmem | hmem
    · exact absurd rfl (run.conn_ne_count hmem (by simp))
    · cases List.mem_singleton.mp hmem
  · intro tr s c conn a m run _ hc h step
    exact step.told run hc h
  · intro tr c conn origin data h
    exact h.append rfl (by simp)
  · intro tr c conn evs h hothers
    refine h.append rfl fun id hmem => ?_
    obtain ⟨id', heq⟩ := hothers _ hmem rfl
    cases heq

/-- A configuration is sent by the connection that it is for, with the list of peers that was
taken for it. -/
lemma Server.Reaches.config_of_send (run : s.Reaches db info guard tr)
    (hc : s.conns c = some conn) {a : ConnAction} {m : Move}
    (step : Conn.Step s.inner c conn s.conns a m) {l : Letter} (hsend : m.send = some l)
    {peers : List BcPeerEnter} (hpeers : l.data.peers? = some peers) :
    l.dst = c ∧ conn.phase.snapshot? = some peers ∧ ∃ id, .handshaken c (.ok id) ∈ tr := by
  cases run.letter hc step hsend with
  | @config id _ _ phase eq =>
    subst eq
    cases hpeers
    refine ⟨rfl, by rw [phase]; rfl, id, (run.told hc).id id (by rw [phase]; rfl)⟩
  | notice _ notice =>
    cases hdata : l.data with
    | respConfig _ =>
      rw [hdata] at notice
      cases notice
    | _ =>
      rw [hdata] at hpeers
      cases hpeers
  | hello _ eq | error _ eq =>
    subst eq
    cases hpeers
  | @handshake _ result _ _ eq =>
    subst eq
    cases result <;> cases hpeers

/-- What is sent to a connection. -/
lemma Letter.to?_eq_some {send : Option Letter} {x : ConnId} {data : ToClientData} :
    Letter.to? send x = some data ↔ ∃ l, send = some l ∧ l.dst = x ∧ l.data = data := by
  simp [Letter.to?, Option.bind_eq_some_iff]

/-- A list of peers that is taken after a step was taken before, or is taken from the registry in
this step. -/
lemma Server.Reaches.taken (run : s.Reaches db info guard tr) {s' : Server} {a : Action}
    {evs : List Event} (h : s.step a = some (s', evs)) {x : ConnId} {conn' : Conn}
    (hx : s'.conns x = some conn') {peers : List BcPeerEnter} (ht : conn'.Taken peers) :
    ∃ conn, s.conns x = some conn ∧ (conn.Taken peers ∨ ∃ id net, conn.phase.id? = some id ∧
      s'.inner = s.inner ∧ s.inner.networks.lookup id.networkId = some net ∧
      peers = configEntries net.peers) := by
  cases a with
  | accept addr =>
    cases h
    simp only [Function.update_apply] at hx
    split_ifs at hx
    · cases hx
      rcases ht with ht | ⟨d, hd, -⟩
      · cases ht
      · cases hd
    · exact ⟨conn', hx, .inl ht⟩
  | act c a =>
    obtain ⟨conn₀, m, post, hconn, hact, -, after⟩ := step_act h
    have step := Conn.act_step hact
    obtain ⟨conn₁, hconn₁, hphase, hway⟩ := after.way hx
    rw [after.inner]
    -- a configuration is sent on the connection it is for
    have sent : ∀ d ∈ (Letter.to? m.send x).toList, d.peers? = some peers →
        x = c ∧ conn₀.phase.snapshot? = some peers := by
      intro d hd hpeers
      obtain ⟨l, hsend, hdst, rfl⟩ := Letter.to?_eq_some.mp (Option.mem_toList.mp hd)
      obtain ⟨hc, hsnapshot, -⟩ := run.config_of_send hconn step hsend hpeers
      exact ⟨hdst.symm.trans hc, hsnapshot⟩
    have hnew : ∀ d ∈ conn'.way, d ∈ conn₁.way ∨ d ∈ (Letter.to? m.send x).toList := by
      intro d hd
      rw [hway, List.mem_append] at hd
      refine hd.imp_right fun hd => ?_
      split_ifs at hd
      · exact hd
      · cases hd
    by_cases hxc : x = c
    · subst hxc
      rw [Function.update_self] at hconn₁
      cases hconn₁
      refine ⟨conn₀, hconn, ?_⟩
      rcases ht with ht | ⟨d, hd, hpeers⟩
      · rw [hphase] at ht
        exact (step.snapshot ht).imp_left .inl
      · rcases hnew d hd with hd | hd
        · exact .inl (.inr ⟨d, step.way.subset hd, hpeers⟩)
        · exact .inl (.inl (sent d hd hpeers).2)
    · rw [Function.update_of_ne hxc] at hconn₁
      refine ⟨conn₁, hconn₁, .inl ?_⟩
      rcases ht with ht | ⟨d, hd, hpeers⟩
      · rw [hphase] at ht
        exact .inl ht
      · rcases hnew d hd with hd | hd
        · exact .inr ⟨d, hd, hpeers⟩
        · exact absurd (sent d hd hpeers).1 hxc

end Runs

end Vlink.Headlink
