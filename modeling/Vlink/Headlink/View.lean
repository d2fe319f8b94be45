import Vlink.Headlink.Steps

set_option autoImplicit false

/-!
# What a step does to the registry

The state that all connections share changes in few ways: a network is loaded, a peer enters or
goes offline, a pair is entered in the table of connections, the row of a peer is replaced. This
module says once what each step of the server does to it.

## Main definitions

* `Vlink.Headlink.Server.change` — who is about to enter, to go offline or to be entered in the
  table of connections.
* `Vlink.Headlink.InnerStep` — the changes of the shared state.

## Main results

* `Vlink.Headlink.Server.step_inner` — a step makes the change it is about to make, and the trace
  shows it.
* `Vlink.Headlink.InnerStep.presence_entered`, `presence_offline`, `presence_of_ne` — who is
  online after a change.
* `Vlink.Headlink.Server.Reaches.conns_of_send`, `Reaches.conns` — the rule for what holds of every
  connection.
-/

namespace Vlink.Headlink

/-! ## Changes -/

/-- The connection that an event is about. -/
def Event.conn : Event → ConnId
  | .accepted c _ | .clientSent c _ | .clientGot c _ | .handshaken c _ | .dispatched c _
  | .entered c _ | .offline c _ | .connected c _ _ | .configured c _ _ | .pushed c _ _
  | .wrote c _ _ | .closed c => c

/-- The event records a change of the registry. -/
def Event.isChange : Event → Bool
  | .entered .. | .offline .. | .connected .. => true
  | _ => false

/-- The peer enters. -/
def Event.entersFor (id : ClientId) : Event → Bool
  | .entered _ id' => id' = id
  | _ => false

/-- The peer is marked offline. -/
def Event.offlineFor (id : ClientId) : Event → Bool
  | .offline _ id' => id' = id
  | _ => false

/-- The check names one event. -/
lemma Event.entersFor_iff {id : ClientId} {e : Event} :
    e.entersFor id = true ↔ ∃ c, e = .entered c id := by
  cases e <;> simp [entersFor]

/-- The check names one event. -/
lemma Event.offlineFor_iff {id : ClientId} {e : Event} :
    e.offlineFor id = true ↔ ∃ c, e = .offline c id := by
  cases e <;> simp [offlineFor]

/-- According to the trace, the peer has entered and was not marked offline since. -/
def Online (tr : List Event) (id : ClientId) : Prop :=
  Since (fun e => e.entersFor id = true) (fun e => e.offlineFor id = true) tr

/-- The change that the next section of a handler makes. -/
def Handler.change (s : ServerInner) (id : ClientId) (c : ConnId) : Handler → Option Event
  | .enterWrite m =>
    match s.peer? id with
    | none => none
    | some p => if m.ip = p.model.ip.getD "" then some (.entered c id) else none
  | .leaveWrite => some (.offline c id)
  | .connected m => some (.connected c id m.targetPubKey)
  | _ => none

/-- What is seen of the next section of a handler. -/
def Handler.events (s : ServerInner) (id : ClientId) (c : ConnId) : Handler → List Event
  | .configReply resp => [.configured c id resp.address]
  | h => (h.change s id c).toList

/-- The change that the next section of `process_client` makes. -/
def Task.change (inner : ServerInner) (c : ConnId) : Task → Option Event
  | .handling id _ h => h.change inner id c
  | _ => none

/-- The change that the task of a connection makes next, outside its event loop. -/
def Phase.change : Phase → Option Event
  | .offline c' id => some (.offline c' id)
  | _ => none

/-- The change that the next step of a connection makes. -/
def Conn.change (inner : ServerInner) (c : ConnId) (conn : Conn) : ConnAction → Option Event
  | .process _ =>
    match conn.phase with
    | .running task => task.change inner c
    | _ => none
  | .main _ => conn.phase.change
  | _ => none

/-- The change that a step makes. -/
def Server.change (s : Server) : Action → Option Event
  | .accept _ => none
  | .act c a => (s.conns c).bind fun conn => conn.change s.inner c a

/-- What a step can do to the shared state. -/
inductive InnerStep (s : ServerInner) : Option Event → ServerInner → Prop
  | same : InnerStep s none s
  | clients (clients : Map SocketAddr ConnId) : InnerStep s none { s with clients }
  | endpoints (endpoints : List (Map String String)) : InnerStep s none { s with endpoints }
  | load {n : ℤ} {env : Env} {net : VlinkNetwork} (absent : s.networks.lookup n = none)
      (loaded : s.loadNetwork n env = .ok net) :
      InnerStep s none { s with networks := s.networks.insert n net }
  | update {id : ℤ} {ip : String} {db : Database} (updated : s.db.updateIp id ip = some db) :
      InnerStep s none { s with db }
  | refresh (n : ℤ) (model : PeerModel) :
      InnerStep s none (s.modifyPeer ⟨model.pubKey, n⟩ fun p => { p with model })
  | enter {c : ConnId} {id : ClientId} {p : VlinkPeer} {info : OnlineInfo}
      (endpoints : List (Map String String)) (found : s.peer? id = some p)
      (own : info.connect = c) :
      InnerStep s (some (.entered c id))
        { s.modifyPeer id fun p => { p with onlineInfo := some info } with endpoints }
  | offline (c : ConnId) (id : ClientId) :
      InnerStep s (some (.offline c id)) (s.modifyPeer id fun p => { p with onlineInfo := none })
  | connect {c : ConnId} {id : ClientId} {net : VlinkNetwork} (target proto : String)
      (found : s.networks.lookup id.networkId = some net) :
      InnerStep s (some (.connected c id target)) (s.addConnect id target proto)

/-! ## Steps -/

section Steps

variable {s s' : ServerInner} {id : ClientId} {c : ConnId} {env : Env} {next : Next}
  {evs : List Event}

/-- A section that begins with `get_network`. -/
lemma InnerStep.of_getNetwork {n : ℤ} {net : VlinkNetwork}
    (h : s.getNetwork n env = .ok (net, s')) : InnerStep s none s' := by
  rcases ServerInner.getNetwork_eq_ok h with ⟨-, rfl⟩ | ⟨absent, loaded, rfl⟩
  · exact .same
  · exact .load absent loaded

/-- What a section of a handler does to the shared state, and what is seen of it. -/
lemma Handler.Step.inner_step {h : Handler} (hstep : Handler.Step s id c env h s' next evs) :
    InnerStep s (h.change s id c) s' ∧ evs = h.events s id c := by
  cases hstep with
  | enterLoad network | configLoad network => exact ⟨.of_getNetwork network, rfl⟩
  | enterUnknown absent =>
    simp only [events, change, absent]
    exact ⟨.same, rfl⟩
  | enterRefused found ip =>
    simp only [events, change, found, if_neg ip]
    exact ⟨.same, rfl⟩
  | enter found ip =>
    simp only [events, change, found, if_pos ip]
    exact ⟨.enter _ found rfl, rfl⟩
  | leave _ => exact ⟨.offline c id, rfl⟩
  | update updated => exact ⟨.update updated, rfl⟩
  | @refresh self _ ip _ _ =>
    exact ⟨.refresh id.networkId { self.model with ip := some ip.toText }, rfl⟩
  | endpointInsert _ => exact ⟨.endpoints _, rfl⟩
  | connected network => exact ⟨.connect _ _ network, rfl⟩
  | _ => exact ⟨.same, rfl⟩

/-- The changes among what is seen of a section of a handler. -/
lemma Handler.filter_events (h : Handler) :
    (h.events s id c).filter Event.isChange = (h.change s id c).toList := by
  cases h with
  | enterWrite m =>
    simp only [events, change]
    split
    · rfl
    · split_ifs <;> rfl
  | _ => rfl

/-- What can be seen of a section of a handler. -/
lemma Handler.eq_of_mem_events {h : Handler} {e : Event} (he : e ∈ h.events s id c) :
    e = .entered c id ∨ e = .offline c id ∨ (∃ target, e = .connected c id target) ∨
      ∃ addr, e = .configured c id addr := by
  cases h with
  | enterWrite m =>
    simp only [events, change] at he
    split at he
    · cases he
    · split_ifs at he
      · exact .inl (List.mem_singleton.mp he)
      · cases he
  | leaveWrite => exact .inr (.inl (List.mem_singleton.mp he))
  | connected m => exact .inr (.inr (.inl ⟨_, List.mem_singleton.mp he⟩))
  | configReply resp => exact .inr (.inr (.inr ⟨_, List.mem_singleton.mp he⟩))
  | _ => cases he

/-- A section of the handshake does nothing to the shared state, or calls `get_network`. -/
lemma HandshakeTask.Step.eq_or_getNetwork {cell cell' : Option ClientId} {h : HandshakeTask}
    {next : HandshakeNext} (hstep : HandshakeTask.Step s cell env h s' cell' next) :
    s' = s ∨ ∃ n net, s.getNetwork n env = .ok (net, s') := by
  cases hstep with
  | byToken _ _ _ | byPeer _ _ _ | refused | accept _ => exact .inl rfl
  | join network _ | reused network | load network => exact .inr ⟨_, _, network⟩

/-- What a section of `process_client` does to the shared state. -/
lemma Conn.ProcessStep.inner_step {conn : Conn} {task : Task} {m : Move}
    (h : ProcessStep s c conn env task m) :
    InnerStep s (task.change s c) m.inner ∧
      m.events.filter Event.isChange = (task.change s c).toList := by
  cases h with
  | hello | await _ | begin _ _ | refuse _ _ | reply | welcome _ | subscribe | dispatch _ | fail
  | resume _ => exact ⟨.same, rfl⟩
  | handshake hstep | handshaken hstep =>
    refine ⟨?_, rfl⟩
    rcases hstep.eq_or_getNetwork with rfl | ⟨n, net, hnet⟩
    · exact .same
    · exact .of_getNetwork hnet
  | ready network => exact ⟨.of_getNetwork network, rfl⟩
  | handle hstep =>
    obtain ⟨hs, rfl⟩ := hstep.inner_step
    exact ⟨hs, Handler.filter_events _⟩
  | stop idle =>
    have hchange : task.change s c = none := by
      cases task with
      | handling id number h => exact absurd rfl (idle id number h)
      | _ => rfl
    rw [hchange]
    exact ⟨.same, rfl⟩

/-- What the task of a connection does to the shared state outside its event loop. -/
lemma Conn.MainStep.inner_step {conn : Conn} {conns : ConnId → Option Conn} {phase : Phase}
    {m : Move} (h : MainStep s c conn env conns phase m) :
    InnerStep s phase.change m.inner ∧
      m.events.filter Event.isChange = phase.change.toList := by
  cases h with
  | start | remove _ => exact ⟨.clients _, rfl⟩
  | unlisted _ | unknown _ _ _ | identify _ _ _ | lost | leave _ | finish _ | send _ =>
    exact ⟨.same, rfl⟩
  | load network => exact ⟨.of_getNetwork network, rfl⟩
  | offline => exact ⟨.offline _ _, rfl⟩

/-- What a step of a connection does to the shared state. -/
lemma Conn.Step.inner_step {conn : Conn} {conns : ConnId → Option Conn} {a : ConnAction}
    {m : Move} (h : Step s c conn conns a m) :
    InnerStep s (conn.change s c a) m.inner ∧
      m.events.filter Event.isChange = (conn.change s c a).toList := by
  cases h with
  | clientSend _ | clientRecv _ | recv _ _ | reply _ _ | notify _ _ | hangup _ =>
    exact ⟨.same, rfl⟩
  | process running move =>
    simp only [change, running]
    exact move.inner_step
  | main move => exact move.inner_step

end Steps

/-- A step makes the change that it is about to make, and the trace shows it. -/
theorem Server.step_inner {s s' : Server} {a : Action} {evs : List Event}
    (h : s.step a = some (s', evs)) :
    InnerStep s.inner (s.change a) s'.inner ∧
      evs.filter Event.isChange = (s.change a).toList := by
  cases a with
  | accept addr =>
    cases h
    exact ⟨.same, rfl⟩
  | act c a =>
    obtain ⟨conn, m, post, hconn, hact, rfl, after⟩ := step_act h
    have hpost : post.filter Event.isChange = [] := by
      rw [List.filter_eq_nil_iff]
      intro e he
      obtain ⟨l, -, rfl⟩ := after.mem_post he
      simp [Event.isChange]
    rw [after.inner, List.filter_append, hpost, List.append_nil, change, hconn]
    exact (Conn.act_step hact).inner_step

/-- The trace shows the change of a step. -/
lemma Server.mem_events {s s' : Server} {a : Action} {evs : List Event}
    (h : s.step a = some (s', evs)) {e : Event} (he : e.isChange = true) :
    e ∈ evs ↔ s.change a = some e := by
  have hmem : e ∈ evs ↔ e ∈ evs.filter Event.isChange := by simp [he]
  rw [hmem, (step_inner h).2, Option.mem_toList]

/-- Where the trace shows the change of a step. -/
lemma Server.events_split {s s' : Server} {a : Action} {evs : List Event} {e : Event}
    (h : s.step a = some (s', evs)) (hchange : s.change a = some e) :
    ∃ pre post, evs = pre ++ e :: post ∧ (∀ x ∈ pre, x.isChange = false) ∧
      ∀ x ∈ post, x.isChange = false := by
  have hfilter := (step_inner h).2
  rw [hchange, Option.toList_some] at hfilter
  obtain ⟨pre, post, rfl, hpre, he, hpost⟩ := List.filter_eq_cons_iff.mp hfilter
  refine ⟨pre, post, rfl, fun x hx => ?_, fun x hx => ?_⟩
  · simpa using hpre x hx
  · simpa using List.filter_eq_nil_iff.mp hpost x hx

/-- For properties of changes, the step adds its change to the trace. -/
lemma Server.since_step {P Q : Event → Prop} (hP : ∀ e, P e → e.isChange = true)
    (hQ : ∀ e, Q e → e.isChange = true) {s s' : Server} {a : Action} {tr evs : List Event}
    (h : s.step a = some (s', evs)) :
    Since P Q (tr ++ evs) ↔ Since P Q (tr ++ (s.change a).toList) := by
  have hfilter : (tr ++ evs).filter Event.isChange =
      (tr ++ (s.change a).toList).filter Event.isChange := by
    rw [List.filter_append, List.filter_append, ← (step_inner h).2, List.filter_filter]
    simp
  rw [← since_filter hP hQ, hfilter, since_filter hP hQ]

/-- Who is online after a step. -/
lemma online_step {s s' : Server} {a : Action} {tr evs : List Event} {id : ClientId}
    (h : s.step a = some (s', evs)) :
    Online (tr ++ evs) id ↔ (∃ c, s.change a = some (.entered c id)) ∨
      Online tr id ∧ ∀ c, s.change a ≠ some (.offline c id) := by
  have hstep : Online (tr ++ evs) id ↔ Online (tr ++ (s.change a).toList) id := by
    refine Server.since_step (fun e he => ?_) (fun e he => ?_) h
    · obtain ⟨c, rfl⟩ := Event.entersFor_iff.mp he
      rfl
    · obtain ⟨c, rfl⟩ := Event.offlineFor_iff.mp he
      rfl
  rw [hstep]
  cases s.change a with
  | none => simp
  | some e =>
    rw [Option.toList_some, Online, since_concat, Event.entersFor_iff, Event.offlineFor_iff]
    simp [Online]

/-! ## Who makes a change -/

section Who

variable {s : Server} {a : Action} {c : ConnId} {id : ClientId}

/-- The change of a step is that of a section of a handler, or that of a connection that has
ended. -/
lemma Server.change_eq_some {e : Event} (h : s.change a = some e) :
    (∃ c env conn id number hd, a = .act c (.process env) ∧ s.conns c = some conn ∧
      conn.phase = .running (.handling id number hd) ∧ hd.change s.inner id c = some e) ∨
    ∃ c env conn c' id, a = .act c (.main env) ∧ s.conns c = some conn ∧
      conn.phase = .offline c' id ∧ e = .offline c' id := by
  cases a with
  | accept addr => cases h
  | act c a =>
    obtain ⟨conn, hconn, hchange⟩ := Option.bind_eq_some_iff.mp h
    cases a with
    | process env =>
      simp only [Conn.change] at hchange
      split at hchange
      · next task hphase =>
        cases task with
        | handling id number hd =>
          exact .inl ⟨c, env, conn, id, number, hd, rfl, hconn, hphase, hchange⟩
        | _ => cases hchange
      · cases hchange
    | main env =>
      simp only [Conn.change] at hchange
      cases hphase : conn.phase with
      | offline c' id =>
        rw [hphase] at hchange
        cases hchange
        exact .inr ⟨c, env, conn, c', id, rfl, hconn, hphase, rfl⟩
      | _ =>
        rw [hphase] at hchange
        cases hchange
    | _ => cases hchange

/-- A peer goes offline when its connection handles `PeerLeave`, or after its connection has
ended. -/
lemma Server.change_offline (h : s.change a = some (.offline c id)) :
    (∃ env conn number, a = .act c (.process env) ∧ s.conns c = some conn ∧
      conn.phase = .running (.handling id number .leaveWrite)) ∨
    ∃ c₀ env conn, a = .act c₀ (.main env) ∧ s.conns c₀ = some conn ∧
      conn.phase = .offline c id := by
  rcases change_eq_some h with ⟨c₀, env, conn, id₀, number, hd, rfl, hconn, hphase, hchange⟩ |
    ⟨c₀, env, conn, c', id', rfl, hconn, hphase, heq⟩
  · cases hd with
    | enterWrite m =>
      simp only [Handler.change] at hchange
      split at hchange
      · cases hchange
      · split_ifs at hchange
        cases hchange
    | leaveWrite =>
      cases hchange
      exact .inl ⟨env, conn, number, rfl, hconn, hphase⟩
    | _ => cases hchange
  · cases heq
    exact .inr ⟨c₀, env, conn, rfl, hconn, hphase⟩

end Who

/-! ## What the changes do -/

namespace InnerStep

variable {s s' : ServerInner} {e : Option Event} {c : ConnId} {id : ClientId}

/-- Who enters is online through the connection. -/
theorem presence_entered (h : InnerStep s (some (.entered c id)) s') :
    ∃ info, s'.presence id = some info ∧ info.connect = c := by
  cases h with
  | @enter _ _ p info endpoints found own =>
    refine ⟨info, ?_, own⟩
    have hpeer : ServerInner.peer?
        { s.modifyPeer id fun p => { p with onlineInfo := some info } with endpoints } id =
          (s.peer? id).map fun p => { p with onlineInfo := some info } := by
      have hp := s.peer?_modifyPeer id id fun p => { p with onlineInfo := some info }
      rwa [if_pos rfl] at hp
    rw [ServerInner.presence, hpeer, found]
    rfl

/-- Who is marked offline is not online. -/
theorem presence_offline (h : InnerStep s (some (.offline c id)) s') : s'.presence id = none := by
  cases h with
  | offline =>
    rw [ServerInner.presence, ServerInner.peer?_modifyPeer, if_pos rfl]
    cases s.peer? id <;> rfl

/-- A network that is loaded has nobody online. -/
lemma presence_load {n : ℤ} {env : Env} {net : VlinkNetwork}
    (absent : s.networks.lookup n = none) (loaded : s.loadNetwork n env = .ok net) :
    ServerInner.presence { s with networks := s.networks.insert n net } id = s.presence id := by
  simp only [ServerInner.presence, ServerInner.peer?, Map.lookup_set]
  split_ifs with hn
  · rw [hn, absent]
    show (net.peers.lookup id.pubKey).bind (·.onlineInfo) = none
    rw [Option.bind_eq_none_iff]
    intro p hp
    rw [(ServerInner.loadNetwork_eq_ok loaded).2.2, Database.lookup_new] at hp
    obtain ⟨m, -, -, -, rfl⟩ := hp
    rfl
  · rfl

/-- Nobody else's presence changes. -/
theorem presence_of_ne (h : InnerStep s e s') (hin : ∀ c, e ≠ some (.entered c id))
    (hout : ∀ c, e ≠ some (.offline c id)) : s'.presence id = s.presence id := by
  cases h with
  | same | clients _ | endpoints _ | update _ => rfl
  | load absent loaded => exact presence_load absent loaded
  | refresh n model =>
    simp only [ServerInner.presence, ServerInner.peer?_modifyPeer]
    split_ifs with hid
    · rw [hid]
      cases s.peer? ⟨model.pubKey, n⟩ <;> rfl
    · rfl
  | @enter c id' _ info endpoints found own =>
    have hne : id ≠ id' := fun heq => hin c (by rw [heq])
    have hp := s.peer?_modifyPeer id' id fun p => { p with onlineInfo := some info }
    rw [if_neg hne] at hp
    exact congrArg (·.bind (·.onlineInfo)) hp
  | offline c id' =>
    have hne : id ≠ id' := fun heq => hout c (by rw [heq])
    rw [ServerInner.presence, ServerInner.peer?_modifyPeer, if_neg hne]
    rfl
  | connect target proto _ =>
    rw [ServerInner.presence, ServerInner.peer?_addConnect]
    rfl

/-- The server's own data stay the same. -/
lemma info (h : InnerStep s e s') : s'.info = s.info := by
  cases h <;> rfl

/-- Once a network is loaded, its peers stay the same. -/
lemma isSome_peer? (h : InnerStep s e s') (hn : (s.networks.lookup id.networkId).isSome) :
    (s'.peer? id).isSome = (s.peer? id).isSome := by
  have modified : ∀ id' f, ((s.modifyPeer id' f).peer? id).isSome = (s.peer? id).isSome := by
    intro id' f
    rw [ServerInner.peer?_modifyPeer]
    split_ifs with hid
    · rw [Option.isSome_map, hid]
    · rfl
  cases h with
  | same | clients _ | endpoints _ | update _ => rfl
  | @load n _ net absent loaded =>
    have hne : id.networkId ≠ n := by
      rintro rfl
      rw [absent] at hn
      cases hn
    simp only [ServerInner.peer?, Map.lookup_set, if_neg hne]
  | refresh n model => exact modified _ _
  | enter endpoints _ _ => exact modified _ _
  | offline c id' => exact modified _ _
  | connect target proto _ => rw [ServerInner.peer?_addConnect]

/-- The table of connections changes only where a pair is entered. -/
lemma connect?_of_ne {n : ℤ} {key : String} (h : InnerStep s e s')
    (hne : ∀ c id target, e = some (.connected c id target) →
      ¬ (n = id.networkId ∧ key = (unionPubKey id.pubKey target).1)) :
    s'.connect? n key = s.connect? n key := by
  cases h with
  | same | clients _ | endpoints _ | update _ => rfl
  | @load n' _ net absent loaded =>
    simp only [ServerInner.connect?, Map.lookup_set]
    split_ifs with hn
    · rw [hn, absent, Option.bind_some, (ServerInner.loadNetwork_eq_ok loaded).2.1]
      rfl
    · rfl
  | refresh n' model => exact s.connect?_modifyPeer _ _ n key
  | enter endpoints _ _ => exact s.connect?_modifyPeer _ _ n key
  | offline c id' => exact s.connect?_modifyPeer _ _ n key
  | connect target proto _ =>
    rw [ServerInner.connect?_addConnect, if_neg (hne _ _ _ rfl)]

end InnerStep

/-! ## One connection at a time -/

section Events

variable {inner : ServerInner} {c : ConnId} {conn : Conn} {conns : ConnId → Option Conn}
  {a : ConnAction} {m : Move} {e : Event}

/-- The events of a step of a connection are about it, or say that it tidied up after another one.
Those that show a message show what the step was. -/
lemma Conn.Step.io (h : Conn.Step inner c conn conns a m) (he : e ∈ m.events) :
    match e with
    | .clientSent c' msg => c' = c ∧ a = .clientSend msg
    | .clientGot c' _ => c' = c ∧ a = .clientRecv
    | .wrote c' _ _ => c' = c ∧ a = .deliver
    | .offline _ _ => True
    | e => e.conn = c := by
  cases h with
  | clientSend _ | clientRecv _ | reply _ _ | notify _ _ =>
    cases List.mem_singleton.mp he
    exact ⟨rfl, rfl⟩
  | recv _ _ => cases he
  | hangup _ =>
    cases List.mem_singleton.mp he
    rfl
  | process running move =>
    cases move with
    | hello | await _ | begin _ _ | handshake _ | reply | welcome _ | subscribe | ready _ | fail
    | resume _ => cases he
    | refuse _ _ | handshaken _ | dispatch _ | stop _ =>
      cases List.mem_singleton.mp he
      rfl
    | handle hstep =>
      rw [hstep.inner_step.2] at he
      rcases Handler.eq_of_mem_events he with rfl | rfl | ⟨_, rfl⟩ | ⟨_, rfl⟩ <;> trivial
  | main move =>
    generalize conn.phase = phase at move
    cases move with
    | offline =>
      cases List.mem_singleton.mp he
      trivial
    | _ => cases he

/-- The connection that an event is about. -/
lemma Conn.Step.conn_of_mem (h : Conn.Step inner c conn conns a m) (he : e ∈ m.events) :
    e.conn = c ∨ ∃ c' id, e = .offline c' id := by
  have hio := h.io he
  cases e with
  | clientSent | clientGot | wrote => exact .inl hio.1
  | offline => exact .inr ⟨_, _, rfl⟩
  | _ => exact .inl hio

end Events

/-- Where an event comes from that is neither a new connection nor a message put in a send queue. -/
lemma Server.step_of_mem {s s' : Server} {a : Action} {evs : List Event} {e : Event}
    (h : s.step a = some (s', evs)) (he : e ∈ evs) (hnew : ∀ c addr, e ≠ .accepted c addr)
    (hpush : ∀ c origin data, e ≠ .pushed c origin data) :
    ∃ c act conn m, a = .act c act ∧ s.conns c = some conn ∧
      Conn.Step s.inner c conn s.conns act m ∧ e ∈ m.events := by
  cases a with
  | accept addr =>
    cases h
    exact absurd (List.mem_singleton.mp he) (hnew _ _)
  | act c a =>
    obtain ⟨conn, m, post, hconn, hact, rfl, after⟩ := step_act h
    exact ⟨c, a, conn, m, rfl, hconn, Conn.act_step hact, after.mem_events he hpush⟩

/-- What a client is seen to send, it sends. -/
lemma Server.action_of_clientSent {s s' : Server} {a : Action} {evs : List Event} {c : ConnId}
    {m : ToServer} (h : s.step a = some (s', evs)) (he : .clientSent c m ∈ evs) :
    a = .act c (.clientSend m) := by
  obtain ⟨c', act, conn, move, rfl, -, hstep, hmem⟩ := step_of_mem h he (by simp) (by simp)
  obtain ⟨rfl, rfl⟩ := hstep.io hmem
  rfl

namespace Server

variable {db : Database} {info : ServerInfo} {guard : Server → Action → Prop}
  {tr : List Event} {s : Server}

/-- **The rule for connections.** What holds of a new connection, is kept by its own steps, by the
messages that are put in its send queue and by what others do, holds of every connection. -/
theorem Reaches.conns_of_send {J : List Event → ConnId → Conn → Prop}
    (new : ∀ {tr} {s : Server} {addr}, s.Reaches db info guard tr →
      J (tr ++ [.accepted s.count addr]) s.count { addr })
    (own : ∀ {tr} {s : Server} {c conn a m}, s.Reaches db info guard tr → guard s (.act c a) →
      s.conns c = some conn → J tr c conn → Conn.Step s.inner c conn s.conns a m →
      J (tr ++ m.events) c m.conn)
    (queued : ∀ {tr} {s : Server} {c conn a m l conn'}, s.Reaches db info guard tr →
      s.conns c = some conn → Conn.Step s.inner c conn s.conns a m → m.send = some l →
      Function.update s.conns c (some m.conn) l.dst = some conn' → J (tr ++ m.events) l.dst conn' →
      J (tr ++ m.events ++ [.pushed l.dst l.origin l.data]) l.dst
        (Conn.enqueue conn' l.origin l.data))
    (others : ∀ {tr x conn evs}, J tr x conn →
      (∀ e ∈ evs, Event.conn e = x → ∃ id, e = .offline x id) → J (tr ++ evs) x conn)
    (run : s.Reaches db info guard tr) : ∀ {x conn}, s.conns x = some conn → J tr x conn := by
  refine Run.invariant (I := fun tr s => ∀ {x conn}, s.conns x = some conn → J tr x conn)
    (fun h => by cases h) ?_ run
  intro tr s a s' evs run ih ok h x conn' hx
  cases a with
  | accept addr =>
    cases h
    simp only [Function.update_apply] at hx
    split_ifs at hx with hcount
    · cases hx
      rw [hcount]
      exact new run
    · refine others (ih hx) fun e he heq => ?_
      cases List.mem_singleton.mp he
      exact absurd heq.symm hcount
  | act c a =>
    obtain ⟨conn, m, post, hconn, hact, rfl, after⟩ := step_act h
    have hstep := Conn.act_step hact
    -- before the message is sent
    have base : ∀ {conn'}, Function.update s.conns c (some m.conn) x = some conn' →
        J (tr ++ m.events) x conn' := by
      intro conn' hx
      simp only [Function.update_apply] at hx
      split_ifs at hx with hc
      · cases hx
        rw [hc]
        exact own run ok hconn (ih hconn) hstep
      · refine others (ih hx) fun e he heq => ?_
        rcases hstep.conn_of_mem he with hce | ⟨c', id, rfl⟩
        · exact absurd (heq.symm.trans hce) hc
        · cases heq
          exact ⟨id, rfl⟩
    rw [← List.append_assoc]
    rcases after.conns with ⟨hconns, rfl, -⟩ | ⟨l, conn₁, hsend, hdst, -, -, hconns, rfl⟩
    · rw [List.append_nil]
      exact base (hconns ▸ hx)
    · rw [hconns, Function.update_apply] at hx
      split_ifs at hx with hl
      · cases hx
        subst hl
        exact queued run hconn hstep hsend hdst (base hdst)
      · refine others (base hx) fun e he heq => ?_
        cases List.mem_singleton.mp he
        exact absurd heq.symm hl

/-- The rule for properties that do not depend on what is put in the send queue. -/
theorem Reaches.conns {J : List Event → ConnId → Conn → Prop}
    (new : ∀ {tr} {s : Server} {addr}, s.Reaches db info guard tr →
      J (tr ++ [.accepted s.count addr]) s.count { addr })
    (own : ∀ {tr} {s : Server} {c conn a m}, s.Reaches db info guard tr → guard s (.act c a) →
      s.conns c = some conn → J tr c conn → Conn.Step s.inner c conn s.conns a m →
      J (tr ++ m.events) c m.conn)
    (queued : ∀ {tr x conn origin data}, J tr x conn →
      J (tr ++ [.pushed x origin data]) x (Conn.enqueue conn origin data))
    (others : ∀ {tr x conn evs}, J tr x conn →
      (∀ e ∈ evs, Event.conn e = x → ∃ id, e = .offline x id) → J (tr ++ evs) x conn)
    (run : s.Reaches db info guard tr) : ∀ {x conn}, s.conns x = some conn → J tr x conn :=
  run.conns_of_send new own (fun _ _ _ _ _ h => queued h) others

/-- The connections are those that were accepted. -/
lemma Reaches.isSome_conns (run : s.Reaches db info guard tr) (x : ConnId) :
    (s.conns x).isSome ↔ x < s.count := by
  refine Run.invariant (I := fun _ s => ∀ x, (Server.conns s x).isSome ↔ x < s.count)
    (fun x => by simp [Server.new]) ?_ run x
  intro tr s a s' evs _ ih _ h x
  cases a with
  | accept addr =>
    cases h
    simp only [Function.update_apply]
    split_ifs with hx
    · simp [hx]
    · rw [ih]
      exact ⟨Nat.lt_succ_of_lt, fun hlt => lt_of_le_of_ne (Nat.le_of_lt_succ hlt) hx⟩
  | act c a =>
    obtain ⟨conn, m, post, hconn, -, -, after⟩ := step_act h
    have hmap := after.map_conns (f := fun _ => ()) (fun _ _ _ => rfl) x
    rw [after.count, ← ih, ← Option.isSome_map (f := fun _ => ()), hmap]
    split_ifs with hx
    · simp [hx, hconn]
    · rw [Option.isSome_map]

/-- What is seen of a connection is seen after it was accepted. -/
lemma Reaches.conn_lt_count (run : s.Reaches db info guard tr) {e : Event} (he : e ∈ tr)
    (hne : ∀ c id, e ≠ .offline c id) : e.conn < s.count := by
  refine Run.invariant
    (I := fun tr s => ∀ e ∈ tr, (∀ c id, e ≠ .offline c id) → e.conn < Server.count s)
    (by simp) ?_ run e he hne
  intro tr s a s' evs run ih _ h e he hne
  cases a with
  | accept addr =>
    cases h
    rcases List.mem_append.mp he with he | he
    · exact Nat.lt_succ_of_lt (ih e he hne)
    · cases List.mem_singleton.mp he
      exact Nat.lt_succ_self _
  | act c a =>
    obtain ⟨conn, m, post, hconn, hact, rfl, after⟩ := step_act h
    rw [after.count]
    have hc : c < s.count := (Reaches.isSome_conns run c).mp (by simp [hconn])
    rcases List.mem_append.mp he with he | he
    · exact ih e he hne
    rcases List.mem_append.mp he with he | he
    · rcases (Conn.act_step hact).conn_of_mem he with heq | ⟨c', id, rfl⟩
      · rwa [heq]
      · exact absurd rfl (hne c' id)
    · rcases after.conns with ⟨-, rfl, -⟩ | ⟨l, conn₁, -, hdst, -, -, -, rfl⟩
      · cases he
      · cases List.mem_singleton.mp he
        show l.dst < s.count
        rw [Function.update_apply] at hdst
        split_ifs at hdst with hl
        · rwa [hl]
        · exact (Reaches.isSome_conns run _).mp (by simp [hdst])

/-- Nothing has been seen of a connection that is accepted now. -/
lemma Reaches.conn_ne_count (run : s.Reaches db info guard tr) {e : Event} (he : e ∈ tr)
    (hne : ∀ c id, e ≠ .offline c id) : e.conn ≠ s.count :=
  (run.conn_lt_count he hne).ne

/-- The server's own data stay the same. -/
lemma Reaches.info_eq (run : s.Reaches db info guard tr) : s.inner.info = info := by
  refine Run.invariant (I := fun _ s => (Server.inner s).info = info) rfl ?_ run
  intro tr s a s' evs _ ih _ h
  rw [(step_inner h).1.info, ih]

/-- The registry shows who is online according to the trace. -/
lemma Reaches.isSome_presence (run : s.Reaches db info guard tr) (id : ClientId) :
    (s.inner.presence id).isSome ↔ Online tr id := by
  refine Run.invariant (I := fun tr s => ∀ id, ((Server.inner s).presence id).isSome ↔ Online tr id)
    (fun id => ?_) ?_ run id
  · exact iff_of_false (by simp [Server.new, ServerInner.presence, ServerInner.peer?]) not_since_nil
  intro tr s a s' evs _ ih _ h id
  have hinner := (step_inner h).1
  rw [online_step h, ← ih]
  by_cases hin : ∃ c, s.change a = some (.entered c id)
  · obtain ⟨c, hchange⟩ := hin
    rw [hchange] at hinner
    obtain ⟨online, hpresence, -⟩ := hinner.presence_entered
    simp [hpresence, hchange]
  by_cases hout : ∃ c, s.change a = some (.offline c id)
  · obtain ⟨c, hchange⟩ := hout
    rw [hchange] at hinner
    simp [hinner.presence_offline, hchange]
  · rw [hinner.presence_of_ne (fun c heq => hin ⟨c, heq⟩) fun c heq => hout ⟨c, heq⟩]
    simp [hin, not_exists.mp hout]

/-- Who is online is registered. -/
lemma Reaches.isSome_peer? (run : s.Reaches db info guard tr) {id : ClientId}
    (h : Online tr id) : (s.inner.peer? id).isSome := by
  obtain ⟨online, hpresence⟩ := Option.isSome_iff_exists.mp ((run.isSome_presence id).mpr h)
  obtain ⟨p, hp, -⟩ := Option.bind_eq_some_iff.mp hpresence
  rw [hp]
  rfl

end Server

end Vlink.Headlink
