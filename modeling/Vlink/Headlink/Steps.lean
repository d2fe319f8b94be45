import Vlink.Headlink.Server

set_option autoImplicit false

/-!
# Everything that a connection can do

The step functions of a connection, read backwards: if a connection takes a step, then it is one of
the moves listed here. Later proofs go through these lists and do not unfold the step functions.

## Main definitions

* `Vlink.Headlink.Handler.Step`, `HandshakeTask.Step` — the moves of a handler and of the handshake.
* `Vlink.Headlink.Conn.ProcessStep` — the moves of `process_client`.
* `Vlink.Headlink.Conn.MainStep` — the moves of the task outside the event loop.
* `Vlink.Headlink.Conn.Step` — all moves of a connection.

## Main results

* `Vlink.Headlink.Conn.act_step` — a step of a connection is one of the moves.
-/

namespace Vlink.Headlink

/-! ## Handlers -/

namespace Handler

/-- The moves of a handler of the client `id` at the connection `c`: from where it stands to the
shared state afterwards, how the section ends, and what is seen of it. -/
inductive Step (s : ServerInner) (id : ClientId) (c : ConnId) (env : Env) :
    Handler → ServerInner → Next → List Event → Prop
  | enterFails {m : PeerEnter} {e : String} (error : s.getNetwork id.networkId env = .error e) :
      Step s id c env (.enterLoad m) s (.fail (.anyhowError e)) []
  | enterLoad {m : PeerEnter} {net : VlinkNetwork} {s' : ServerInner}
      (network : s.getNetwork id.networkId env = .ok (net, s')) :
      Step s id c env (.enterLoad m) s' (.go (.enterWrite m)) []
  | enterUnknown {m : PeerEnter} (absent : s.peer? id = none) :
      Step s id c env (.enterWrite m) s (.fail .peerNotFound) []
  | enterRefused {m : PeerEnter} {p : VlinkPeer} (found : s.peer? id = some p)
      (ip : m.ip ≠ p.model.ip.getD "") : Step s id c env (.enterWrite m) s (.fail .ipNotMatch) []
  | enter {m : PeerEnter} {p : VlinkPeer} (found : s.peer? id = some p)
      (ip : m.ip = p.model.ip.getD "") :
      Step s id c env (.enterWrite m)
        { s.modifyPeer id fun p => { p with
            onlineInfo := some ⟨c, m.port, m.endpointAddr, s.endpoints.length⟩ } with
          endpoints := s.endpoints ++
            [.ofList (m.extraEndpoints.map fun x => (x.proto, x.endpoint))] }
        (.go (.broadcast (.except id.pubKey) (enterNotice id.pubKey m))) [.entered c id]
  | leave {net : VlinkNetwork} (network : s.networks.lookup id.networkId = some net) :
      Step s id c env .leaveWrite (s.modifyPeer id fun p => { p with onlineInfo := none })
        (.go (.broadcast (.except id.pubKey) (leaveNotice id.pubKey))) [.offline c id]
  | broadcast {audience : Audience} {data : ToClientData} {net : VlinkNetwork}
      (network : s.networks.lookup id.networkId = some net) :
      Step s id c env (.broadcast audience data) s (.go (.sending (net.targets audience) data)) []
  | sent {targets : List ConnId} {data : ToClientData}
      (last : targets[env.pick % targets.length]? = none) :
      Step s id c env (.sending targets data) s .done []
  | send {targets : List ConnId} {data : ToClientData} {dst : ConnId}
      (next : targets[env.pick % targets.length]? = some dst) :
      Step s id c env (.sending targets data) s
        (.push dst data (.sending (targets.eraseIdx (env.pick % targets.length)) data)) []
  | forwardNothing {m : PeerForward} (data : m.data = none) :
      Step s id c env (.forward m) s .done []
  | forward {m : PeerForward} {r : RequireReply} (data : m.data = some r) :
      Step s id c env (.forward m) s
        (.go (.broadcast (.only [m.targetPubKey]) (.requireReply r))) []
  | configFails {e : String} (error : s.getNetwork id.networkId env = .error e) :
      Step s id c env .configLoad s (.fail (.anyhowError e)) []
  | configLoad {net : VlinkNetwork} {s' : ServerInner}
      (network : s.getNetwork id.networkId env = .ok (net, s')) :
      Step s id c env .configLoad s' (.go .configSelf) []
  | configUnknown (absent : s.peer? id = none) :
      Step s id c env .configSelf s (.fail .peerNotFound) []
  | configSelf {p : VlinkPeer} (found : s.peer? id = some p) :
      Step s id c env .configSelf s (.go (.configPeers p)) []
  | configPeers {self : VlinkPeer} {net : VlinkNetwork}
      (network : s.networks.lookup id.networkId = some net) :
      Step s id c env (.configPeers self) s (.go (.configIp self (configEntries net.peers))) []
  | exhausted {self : VlinkPeer} {peers : List BcPeerEnter} {net : VlinkNetwork} {e : String}
      (network : s.networks.lookup id.networkId = some net) (unset : self.model.ip = none)
      (error : generateIp net.cidr net.peers = .error e) :
      Step s id c env (.configIp self peers) s (.fail (.anyhowError e)) []
  | choose {self : VlinkPeer} {peers : List BcPeerEnter} {net : VlinkNetwork} {ip : Ipv4Addr}
      (network : s.networks.lookup id.networkId = some net) (unset : self.model.ip = none)
      (free : generateIp net.cidr net.peers = .ok ip) :
      Step s id c env (.configIp self peers) s (.go (.configUpdate self peers ip)) []
  | malformed {self : VlinkPeer} {peers : List BcPeerEnter} {text : String}
      (set : self.model.ip = some text) (parsed : Ipv4Addr.parse text = none) :
      Step s id c env (.configIp self peers) s (.fail (.parseError env.text)) []
  | keep {self : VlinkPeer} {peers : List BcPeerEnter} {text : String} {addr : Ipv4Addr}
      (set : self.model.ip = some text) (parsed : Ipv4Addr.parse text = some addr) :
      Step s id c env (.configIp self peers) s (.go (.configTransports self peers addr)) []
  | updateFails {self : VlinkPeer} {peers : List BcPeerEnter} {ip : Ipv4Addr} :
      Step s id c env (.configUpdate self peers ip) s (.fail (.dbError env.text)) []
  | update {self : VlinkPeer} {peers : List BcPeerEnter} {ip : Ipv4Addr} {db : Database}
      (updated : s.db.updateIp self.model.id ip.toText = some db) :
      Step s id c env (.configUpdate self peers ip) { s with db }
        (.go (.configRefresh self peers ip)) []
  | refresh {self : VlinkPeer} {peers : List BcPeerEnter} {ip : Ipv4Addr} {net : VlinkNetwork}
      (network : s.networks.lookup id.networkId = some net) :
      Step s id c env (.configRefresh self peers ip)
        (s.modifyPeer ⟨self.model.pubKey, id.networkId⟩ fun p =>
          { p with model := { self.model with ip := some ip.toText } })
        (.go (.configTransports self peers ip)) []
  | transportsFail {self : VlinkPeer} {peers : List BcPeerEnter} {addr : Ipv4Addr} :
      Step s id c env (.configTransports self peers addr) s (.fail (.dbError env.text)) []
  | transports {self : VlinkPeer} {peers : List BcPeerEnter} {addr : Ipv4Addr} :
      Step s id c env (.configTransports self peers addr) s
        (.go (.configEndpoints self peers addr
          ((s.db.transportsOf self.model.id).map fun t => ⟨t.proto, t.params⟩))) []
  | endpoints {self : VlinkPeer} {peers : List BcPeerEnter} {addr : Ipv4Addr}
      {transports : List ExtraTransport} {net : VlinkNetwork}
      (network : s.networks.lookup id.networkId = some net) :
      Step s id c env (.configEndpoints self peers addr transports) s
        (.go (.configReply (buildConfig s net self peers addr transports))) []
  | configured {resp : RespConfig} :
      Step s id c env (.configReply resp) s (.reply (.respConfig resp))
        [.configured c id resp.address]
  | endpointUnknown {m : ExtraEndpoint} (absent : s.peer? id = none) :
      Step s id c env (.endpointSelf m) s (.fail .peerNotFound) []
  | endpointSelf {m : ExtraEndpoint} {p : VlinkPeer} (found : s.peer? id = some p) :
      Step s id c env (.endpointSelf m) s (.go (.endpointInsert m p)) []
  | endpointSkip {m : ExtraEndpoint} {self : VlinkPeer} (gone : self.onlineInfo = none) :
      Step s id c env (.endpointInsert m self) s (.go (.endpointAudience m self)) []
  | endpointInsert {m : ExtraEndpoint} {self : VlinkPeer} {info : OnlineInfo}
      (present : self.onlineInfo = some info) :
      Step s id c env (.endpointInsert m self)
        { s with endpoints := s.endpoints.modify info.extraEndpoints (·.insert m.proto m.endpoint) }
        (.go (.endpointAudience m self)) []
  | endpointAudience {m : ExtraEndpoint} {self : VlinkPeer} {net : VlinkNetwork}
      (network : s.networks.lookup id.networkId = some net) :
      Step s id c env (.endpointAudience m self) s
        (.go (.endpointLook m self (onlineOthers net id.pubKey) [])) []
  | endpointLook {m : ExtraEndpoint} {self : VlinkPeer} {k : String} {rest keys : List String}
      {net : VlinkNetwork} (network : s.networks.lookup id.networkId = some net) :
      Step s id c env (.endpointLook m self (k :: rest) keys) s (.go (.endpointLook m self rest
        (nextBroadTo net id.pubKey (isDefault self m.proto) k keys))) []
  | endpointTell {m : ExtraEndpoint} {self : VlinkPeer} {keys : List String} :
      Step s id c env (.endpointLook m self [] keys) s (.go (.broadcast (.only keys)
        (.updateExtraEndpoint ⟨self.pubKey, m.proto, m.endpoint⟩))) []
  | connected {m : DevHandshakeComplete} {net : VlinkNetwork}
      (network : s.networks.lookup id.networkId = some net) :
      Step s id c env (.connected m) (s.addConnect id m.targetPubKey m.proto) .done
        [.connected c id m.targetPubKey]

variable {s s' : ServerInner} {id : ClientId} {c : ConnId} {env : Env} {next : Next}
  {evs : List Event}

/-- A section that begins with `get_network`. -/
lemma load_step {h h' : Handler} (hload : load s id env h = some (s', next, evs))
    (hfail : ∀ {e}, s.getNetwork id.networkId env = .error e →
      Step s id c env h' s (.fail (.anyhowError e)) [])
    (hstep : ∀ {net s'}, s.getNetwork id.networkId env = .ok (net, s') →
      Step s id c env h' s' (.go h) []) : Step s id c env h' s' next evs := by
  unfold load at hload
  cases hn : s.getNetwork id.networkId env with
  | error e =>
    simp only [hn, Option.some.injEq, Prod.mk.injEq] at hload
    obtain ⟨rfl, rfl, rfl⟩ := hload
    exact hfail hn
  | ok r =>
    simp only [hn, Option.some.injEq, Prod.mk.injEq] at hload
    obtain ⟨rfl, rfl, rfl⟩ := hload
    exact hstep hn

/-- A section on the network of the client. -/
lemma onNetwork_eq_some {f : VlinkNetwork → ServerInner × Next × List Event}
    (h : onNetwork s id f = some (s', next, evs)) :
    ∃ net, s.networks.lookup id.networkId = some net ∧ f net = (s', next, evs) :=
  Option.map_eq_some_iff.mp h

/-- The look at the own peer, on the network of the client. -/
lemma peer?_eq {net : VlinkNetwork} (network : s.networks.lookup id.networkId = some net) :
    s.peer? id = net.peers.lookup id.pubKey := by
  rw [ServerInner.peer?, network, Option.bind_some]

/-- A section of a handler is one of its moves. -/
lemma step_step {h : Handler} (hstep : h.step s id c env = some (s', next, evs)) :
    Step s id c env h s' next evs := by
  cases h with
  | enterLoad m => exact load_step hstep .enterFails .enterLoad
  | enterWrite m =>
    obtain ⟨net, hnet, hf⟩ := onNetwork_eq_some hstep
    unfold enter at hf
    split at hf
    · next absent =>
      cases hf
      exact .enterUnknown ((peer?_eq hnet).trans absent)
    · next p found =>
      split_ifs at hf with hip
      · cases hf
        exact .enterRefused ((peer?_eq hnet).trans found) hip
      · cases hf
        exact .enter ((peer?_eq hnet).trans found) (not_not.mp hip)
  | leaveWrite =>
    obtain ⟨net, hnet, hf⟩ := onNetwork_eq_some hstep
    cases hf
    exact .leave hnet
  | broadcast audience data =>
    obtain ⟨net, hnet, hf⟩ := onNetwork_eq_some hstep
    cases hf
    exact .broadcast hnet
  | sending targets data =>
    rw [step] at hstep
    split at hstep
    · next last =>
      cases hstep
      exact .sent last
    · next dst next =>
      cases hstep
      exact .send next
  | forward m =>
    rw [step] at hstep
    split at hstep
    · next data =>
      cases hstep
      exact .forwardNothing data
    · next r data =>
      cases hstep
      exact .forward data
  | configLoad => exact load_step hstep .configFails .configLoad
  | configSelf =>
    obtain ⟨net, hnet, hf⟩ := onNetwork_eq_some hstep
    split at hf
    · next absent =>
      cases hf
      exact .configUnknown ((peer?_eq hnet).trans absent)
    · next self found =>
      cases hf
      exact .configSelf ((peer?_eq hnet).trans found)
  | configPeers self =>
    obtain ⟨net, hnet, hf⟩ := onNetwork_eq_some hstep
    cases hf
    exact .configPeers hnet
  | configIp self peers =>
    obtain ⟨net, hnet, hf⟩ := onNetwork_eq_some hstep
    unfold chooseIp at hf
    split at hf
    · next unset =>
      split at hf
      · next e error =>
        cases hf
        exact .exhausted hnet unset error
      · next ip free =>
        cases hf
        exact .choose hnet unset free
    · next text set =>
      split at hf
      · next parsed =>
        cases hf
        exact .malformed set parsed
      · next addr parsed =>
        cases hf
        exact .keep set parsed
  | configUpdate self peers ip =>
    rw [step] at hstep
    split_ifs at hstep
    · cases hstep
      exact .updateFails
    · split at hstep
      · cases hstep
        exact .updateFails
      · next db updated =>
        cases hstep
        exact .update updated
  | configRefresh self peers ip =>
    obtain ⟨net, hnet, hf⟩ := onNetwork_eq_some hstep
    cases hf
    exact .refresh hnet
  | configTransports self peers addr =>
    rw [step] at hstep
    split_ifs at hstep
    · cases hstep
      exact .transportsFail
    · cases hstep
      exact .transports
  | configEndpoints self peers addr transports =>
    obtain ⟨net, hnet, hf⟩ := onNetwork_eq_some hstep
    cases hf
    exact .endpoints hnet
  | configReply resp =>
    cases hstep
    exact .configured
  | endpointSelf m =>
    obtain ⟨net, hnet, hf⟩ := onNetwork_eq_some hstep
    split at hf
    · next absent =>
      cases hf
      exact .endpointUnknown ((peer?_eq hnet).trans absent)
    · next self found =>
      cases hf
      exact .endpointSelf ((peer?_eq hnet).trans found)
  | endpointInsert m self =>
    rw [step] at hstep
    split at hstep
    · next gone =>
      cases hstep
      exact .endpointSkip gone
    · next info present =>
      cases hstep
      exact .endpointInsert present
  | endpointAudience m self =>
    obtain ⟨net, hnet, hf⟩ := onNetwork_eq_some hstep
    cases hf
    exact .endpointAudience hnet
  | endpointLook m self rest keys =>
    cases rest with
    | nil =>
      cases hstep
      exact .endpointTell
    | cons k rest =>
      obtain ⟨net, hnet, hf⟩ := onNetwork_eq_some hstep
      cases hf
      exact .endpointLook hnet
  | connected m =>
    obtain ⟨net, hnet, hf⟩ := onNetwork_eq_some hstep
    cases hf
    exact .connected hnet

end Handler

/-! ## The handshake -/

namespace HandshakeTask

/-- The moves of `handshake0`: from where it stands to the shared state and the cell of the client
afterwards, and how the section ends. -/
inductive Step (s : ServerInner) (cell : Option ClientId) (env : Env) :
    HandshakeTask → ServerInner → Option ClientId → HandshakeNext → Prop
  | byToken {data : ReqHandshake} {token : String} {row : NetworkTokenModel}
      (given : data.token = some token) (found : s.db.findToken token = some row)
      (enabled : row.disabled = false) :
      Step s cell env (.lookup data) s cell (.inl (.token ⟨data.pubKey, row.networkId⟩))
  | byPeer {data : ReqHandshake} {peer : PeerModel} (absent : data.token = none)
      (found : s.db.findPeer data.pubKey = some peer) (unset : cell = none) :
      Step s cell env (.lookup data) s (some ⟨data.pubKey, peer.networkId⟩)
        (.inl (.network ⟨data.pubKey, peer.networkId⟩))
  | refused {h : HandshakeTask} {e : String} : Step s cell env h s cell (.inr (.error e))
  | join {id : ClientId} {n : VlinkNetwork} {s' : ServerInner}
      (network : s.getNetwork id.networkId env = .ok (n, s')) (unset : cell = none) :
      Step s cell env (.token id) s' (some ⟨id.pubKey, n.networkId⟩)
        (.inl (.network ⟨id.pubKey, n.networkId⟩))
  | reused {id : ClientId} {n : VlinkNetwork} {s' : ServerInner} {e : String}
      (network : s.getNetwork id.networkId env = .ok (n, s')) :
      Step s cell env (.token id) s' cell (.inr (.error e))
  | load {id : ClientId} {n : VlinkNetwork} {s' : ServerInner}
      (network : s.getNetwork id.networkId env = .ok (n, s')) :
      Step s cell env (.network id) s' cell (.inl (.check id))
  | accept {id : ClientId} (free : handshakeCheck s id = .ok id) :
      Step s cell env (.check id) s cell (.inr (.ok id))

variable {s s' : ServerInner} {cell cell' : Option ClientId} {env : Env} {next : HandshakeNext}

/-- What the first query finds. -/
lemma handshakeLookup_eq_ok {data : ReqHandshake} {h : HandshakeTask}
    (hok : handshakeLookup s env data = .ok h) :
    (∃ token row, data.token = some token ∧ s.db.findToken token = some row ∧
      row.disabled = false ∧ h = .token ⟨data.pubKey, row.networkId⟩) ∨
    ∃ peer, data.token = none ∧ s.db.findPeer data.pubKey = some peer ∧
      h = .network ⟨data.pubKey, peer.networkId⟩ := by
  unfold handshakeLookup at hok
  split_ifs at hok
  split at hok
  · next token given =>
    split at hok
    · cases hok
    · next row found =>
      split_ifs at hok with hdisabled
      cases hok
      exact .inl ⟨token, row, given, found, by simpa using hdisabled, rfl⟩
  · next absent =>
    split at hok
    · cases hok
    · next peer found =>
      cases hok
      exact .inr ⟨peer, absent, found, rfl⟩

/-- The cell is set once. -/
lemma setClientId_eq_ok {id : ClientId} (h : setClientId cell id = .ok cell') :
    cell = none ∧ cell' = some id := by
  cases cell with
  | none =>
    cases h
    exact ⟨rfl, rfl⟩
  | some id' => cases h

/-- A section of `handshake0` is one of its moves. -/
lemma step_step {h : HandshakeTask} (hstep : h.step s cell env = (s', cell', next)) :
    Step s cell env h s' cell' next := by
  cases h with
  | lookup data =>
    rw [step] at hstep
    split at hstep
    · cases hstep
      exact .refused
    · next id hok =>
      rcases handshakeLookup_eq_ok hok with ⟨_, _, _, _, _, heq⟩ | ⟨peer, absent, found, heq⟩
      · cases heq
      · cases heq
        split at hstep
        · cases hstep
          exact .refused
        · next hset =>
          obtain ⟨unset, rfl⟩ := setClientId_eq_ok hset
          cases hstep
          exact .byPeer absent found unset
    · next hne hok =>
      cases hstep
      rcases handshakeLookup_eq_ok hok with ⟨token, row, given, found, enabled, rfl⟩ |
        ⟨peer, _, _, rfl⟩
      · exact .byToken given found enabled
      · exact absurd rfl (hne _)
  | token id =>
    rw [step] at hstep
    split at hstep
    · cases hstep
      exact .refused
    · next network =>
      split at hstep
      · cases hstep
        exact .reused network
      · next hset =>
        obtain ⟨unset, rfl⟩ := setClientId_eq_ok hset
        cases hstep
        exact .join network unset
  | network id =>
    rw [step] at hstep
    split at hstep
    · cases hstep
      exact .refused
    · next network =>
      cases hstep
      exact .load network
  | check id =>
    rw [step] at hstep
    cases hcheck : handshakeCheck s id with
    | error e =>
      rw [hcheck] at hstep
      cases hstep
      exact .refused
    | ok id' =>
      have hid : id' = id := by
        unfold handshakeCheck at hcheck
        split_ifs at hcheck
        cases hcheck
        rfl
      subst hid
      rw [hcheck] at hstep
      cases hstep
      exact .accept hcheck

end HandshakeTask

/-! ## Connections -/

namespace Conn

variable (inner : ServerInner) (c : ConnId) (conn : Conn) (env : Env)

/-- The moves of `process_client`. -/
inductive ProcessStep : Task → Move → Prop
  | hello : ProcessStep .hello {
      inner
      conn := conn.goto (.helloSent (conn.pushed + 1))
      send := some ⟨c, none, serverInfo inner⟩ }
  | await {ticket : ℕ} (written : ticket ≤ conn.written) :
      ProcessStep (.helloSent ticket) { inner, conn := conn.goto .awaiting }
  | begin {m : ToServer} {rest : Receiver ToServer} {data : ReqHandshake}
      (took : conn.rx.map Receiver.recv = some (.item m rest))
      (first : m.toServerData = some (.handshake data)) :
      ProcessStep .awaiting {
        inner
        conn := { conn with rx := some rest }.goto (.handshake m.id (.lookup data)) }
  | refuse {m : ToServer} {rest : Receiver ToServer}
      (took : conn.rx.map Receiver.recv = some (.item m rest))
      (first : ∀ data, m.toServerData ≠ some (.handshake data)) :
      ProcessStep .awaiting {
        inner
        conn := { conn with rx := some rest }.goto (.reply m.id badHandshake)
        events := [.handshaken c badHandshake] }
  | handshake {number : ℕ} {h h' : HandshakeTask} {inner' : ServerInner}
      {clientId : Option ClientId}
      (section_ : HandshakeTask.Step inner conn.clientId env h inner' clientId (.inl h')) :
      ProcessStep (.handshake number h) {
        inner := inner'
        conn := { conn with clientId }.goto (.handshake number h') }
  | handshaken {number : ℕ} {h : HandshakeTask} {inner' : ServerInner}
      {clientId : Option ClientId} {result : Except String ClientId}
      (section_ : HandshakeTask.Step inner conn.clientId env h inner' clientId (.inr result)) :
      ProcessStep (.handshake number h) {
        inner := inner'
        conn := { conn with clientId }.goto (.reply number result)
        events := [.handshaken c result] }
  | reply {number : ℕ} {result : Except String ClientId} :
      ProcessStep (.reply number result) {
        inner
        conn := conn.goto (.replySent (conn.pushed + 1) result)
        send := some ⟨c, some number, respHandshake result⟩ }
  | welcome {ticket : ℕ} {id : ClientId} (written : ticket ≤ conn.written) :
      ProcessStep (.replySent ticket (.ok id)) {
        inner
        conn := { conn with rx := none }.goto (.admitted id) }
  | subscribe {id : ClientId} :
      ProcessStep (.admitted id) {
        inner
        conn := { conn with recv := some {} }.goto (.subscribed id) }
  | ready {id : ClientId} {n : VlinkNetwork} {inner' : ServerInner}
      (network : inner.getNetwork id.networkId env = .ok (n, inner')) :
      ProcessStep (.subscribed id) { inner := inner', conn := conn.goto (.ready id) }
  | dispatch {id : ClientId} {m : ToServer} {rest : Receiver ToServer}
      (took : conn.recv.map Receiver.recv = some (.item m rest)) :
      ProcessStep (.ready id) {
        inner
        conn := { conn with recv := some rest }.goto (taskFor id m)
        events := [.dispatched c m] }
  | handle {id : ClientId} {number : ℕ} {h : Handler} {inner' : ServerInner} {next : Next}
      {events : List Event} (section_ : Handler.Step inner id c env h inner' next events) :
      ProcessStep (.handling id number h) {
        inner := inner'
        conn := conn.goto (next.task id number (conn.pushed + 1))
        send := next.send c number
        events }
  | fail {id : ClientId} {number : ℕ} {e : ExecuteError} :
      ProcessStep (.failing id number e) {
        inner
        conn := conn.goto (.waiting id (conn.pushed + 1))
        send := some ⟨c, some number, e.notice⟩ }
  | resume {id : ClientId} {ticket : ℕ} (written : ticket ≤ conn.written) :
      ProcessStep (.waiting id ticket) { inner, conn := conn.goto (.ready id) }
  | stop {task : Task} (idle : ∀ id number h, task ≠ .handling id number h) :
      ProcessStep task { inner, conn := conn.close, events := [.closed c] }

/-- The moves of the task of a connection outside its event loop. -/
inductive MainStep (conns : ConnId → Option Conn) : Phase → Move → Prop
  | start : MainStep conns .starting {
      inner := { inner with clients := inner.clients.insert conn.addr c }
      conn := conn.goto .hello }
  | unlisted (absent : inner.clients.lookup conn.addr = none) :
      MainStep conns .stopped { inner, conn := conn.enterPhase .finished }
  | remove {c' : ConnId} (listed : inner.clients.lookup conn.addr = some c') :
      MainStep conns .stopped {
        inner := { inner with clients := inner.clients.erase conn.addr }
        conn := conn.enterPhase (.closing c') }
  | unknown {c' : ConnId} {conn' : Conn} (other : conns c' = some conn')
      (shut : conn'.isOpen = false) (unset : conn'.clientId = none) :
      MainStep conns (.closing c') { inner, conn := conn.enterPhase .finished }
  | identify {c' : ConnId} {conn' : Conn} {id : ClientId} (other : conns c' = some conn')
      (shut : conn'.isOpen = false) (set : conn'.clientId = some id) :
      MainStep conns (.closing c') { inner, conn := conn.enterPhase (.loading c' id) }
  | lost {c' : ConnId} {id : ClientId} :
      MainStep conns (.loading c' id) { inner, conn := conn.enterPhase .finished }
  | load {c' : ConnId} {id : ClientId} {n : VlinkNetwork} {inner' : ServerInner}
      (network : inner.getNetwork id.networkId env = .ok (n, inner')) :
      MainStep conns (.loading c' id) {
        inner := inner'
        conn := conn.enterPhase (.offline c' id) }
  | offline {c' : ConnId} {id : ClientId} :
      MainStep conns (.offline c' id) {
        inner := inner.modifyPeer id fun p => { p with onlineInfo := none }
        conn := conn.enterPhase (.leaving id)
        events := [.offline c' id] }
  | leave {id : ClientId} {n : VlinkNetwork}
      (network : inner.networks.lookup id.networkId = some n) :
      MainStep conns (.leaving id) {
        inner
        conn := conn.enterPhase
          (.sending (n.targets (.except id.pubKey)) (leaveNotice id.pubKey)) }
  | finish {targets : List ConnId} {data : ToClientData}
      (last : targets[env.pick % targets.length]? = none) :
      MainStep conns (.sending targets data) { inner, conn := conn.enterPhase .finished }
  | send {targets : List ConnId} {data : ToClientData} {dst : ConnId}
      (next : targets[env.pick % targets.length]? = some dst) :
      MainStep conns (.sending targets data) {
        inner
        conn := conn.enterPhase (.sending (targets.eraseIdx (env.pick % targets.length)) data)
        send := some ⟨dst, none, data⟩ }

/-- The moves of a connection. -/
inductive Step (conns : ConnId → Option Conn) : ConnAction → Move → Prop
  | clientSend (m : ToServer) : Step conns (.clientSend m) {
      inner
      conn := { conn with upstream := conn.upstream ++ [m] }
      events := [.clientSent c m] }
  | clientRecv {m : ToClient} {downstream : List ToClient}
      (front : conn.downstream = m :: downstream) : Step conns .clientRecv {
      inner
      conn := { conn with downstream }
      events := [.clientGot c m] }
  | recv {task : Task} {m : ToServer} {upstream : List ToServer}
      (running : conn.phase = .running task) (front : conn.upstream = m :: upstream) :
      Step conns .recv {
        inner
        conn := { conn with
          upstream
          rx := conn.rx.map (·.push capacity m)
          recv := conn.recv.map (·.push capacity m) } }
  | reply {task : Task} {number : ℕ} {data : ToClientData} {queue : List (Option ℕ × ToClientData)}
      (running : conn.phase = .running task) (front : conn.queue = (some number, data) :: queue) :
      Step conns .deliver {
        inner
        conn := { conn with
          queue
          written := conn.written + 1
          downstream := conn.downstream ++ [⟨number, data⟩] }
        events := [.wrote c (some number) ⟨number, data⟩] }
  | notify {task : Task} {data : ToClientData} {queue : List (Option ℕ × ToClientData)}
      (running : conn.phase = .running task) (front : conn.queue = (none, data) :: queue) :
      Step conns .deliver {
        inner
        conn := { conn with
          queue
          counter := conn.counter + 1
          written := conn.written + 1
          downstream := conn.downstream ++ [⟨conn.counter + 1, data⟩] }
        events := [.wrote c none ⟨conn.counter + 1, data⟩] }
  | process {env : Env} {task : Task} {m : Move} (running : conn.phase = .running task)
      (move : ProcessStep inner c conn env task m) : Step conns (.process env) m
  | hangup {task : Task} (running : conn.phase = .running task) :
      Step conns .hangup { inner, conn := conn.close, events := [.closed c] }
  | main {env : Env} {m : Move} (move : MainStep inner c conn env conns conn.phase m) :
      Step conns (.main env) m

variable {inner c conn env} {conns : ConnId → Option Conn} {m : Move}

/-- A section of `process_client` is one of its moves. -/
lemma process_step {task : Task} (h : conn.process inner c env task = some m) :
    ProcessStep inner c conn env task m := by
  cases task with
  | hello =>
    cases h
    exact .hello
  | helloSent ticket =>
    rw [process] at h
    split_ifs at h with hw
    cases h
    exact .await hw
  | awaiting =>
    rw [process] at h
    split at h
    · cases h
    · cases h
    · cases h
      exact .stop (by simp)
    · next m rest took =>
      split at h
      · next data first =>
        cases h
        exact .begin took first
      · next first =>
        cases h
        exact .refuse took first
  | handshake number hs =>
    simp only [process] at h
    split at h
    · next heq =>
      cases h
      exact .handshake (HandshakeTask.step_step heq)
    · next heq =>
      cases h
      exact .handshaken (HandshakeTask.step_step heq)
  | reply number result =>
    cases h
    exact .reply
  | replySent ticket result =>
    cases result with
    | error e =>
      rw [process] at h
      split_ifs at h
      cases h
      exact .stop (by simp)
    | ok id =>
      rw [process] at h
      split_ifs at h with hw
      cases h
      exact .welcome hw
  | admitted id =>
    cases h
    exact .subscribe
  | subscribed id =>
    rw [process] at h
    split at h
    · cases h
      exact .stop (by simp)
    · next n inner' hn =>
      cases h
      exact .ready hn
  | ready id =>
    rw [process] at h
    split at h
    · cases h
    · cases h
    · cases h
      exact .stop (by simp)
    · next m rest took =>
      cases h
      exact .dispatch took
  | handling id number hd =>
    obtain ⟨⟨inner', next, evs⟩, hstep, rfl⟩ := Option.map_eq_some_iff.mp h
    exact .handle (Handler.step_step hstep)
  | failing id number e =>
    cases h
    exact .fail
  | waiting id ticket =>
    rw [process] at h
    split_ifs at h with hw
    cases h
    exact .resume hw

/-- What the task of a connection does outside its event loop is one of its moves. -/
lemma main_step {phase : Phase} (h : conn.main inner c conns env phase = some m) :
    MainStep inner c conn env conns phase m := by
  cases phase with
  | starting =>
    cases h
    exact .start
  | running task => cases h
  | stopped =>
    rw [main] at h
    split at h
    · next absent =>
      cases h
      exact .unlisted absent
    · next c' listed =>
      cases h
      exact .remove listed
  | closing c' =>
    rw [main] at h
    split at h
    · cases h
    · next conn' other =>
      split_ifs at h with hopen
      have shut : conn'.isOpen = false := by simpa using hopen
      split at h
      · next unset =>
        cases h
        exact .unknown other shut unset
      · next id set =>
        cases h
        exact .identify other shut set
  | loading c' id =>
    rw [main] at h
    split at h
    · cases h
      exact .lost
    · next n inner' hn =>
      cases h
      exact .load hn
  | offline c' id =>
    cases h
    exact .offline
  | leaving id =>
    rw [main] at h
    split at h
    · cases h
    · next n hn =>
      cases h
      exact .leave hn
  | sending targets data =>
    rw [main] at h
    split at h
    · next last =>
      cases h
      exact .finish last
    · next dst next =>
      cases h
      exact .send next
  | finished => cases h

/-- A step of a connection is one of its moves. -/
theorem act_step {a : ConnAction} (h : conn.act inner c conns a = some m) :
    Step inner c conn conns a m := by
  cases a with
  | clientSend msg =>
    cases h
    exact .clientSend msg
  | clientRecv =>
    rw [act] at h
    split at h
    · cases h
    · next m downstream front =>
      cases h
      exact .clientRecv front
  | recv =>
    rw [act, receive] at h
    split at h
    · next task m upstream running front =>
      cases h
      exact .recv running front
    · cases h
  | deliver =>
    rw [act, deliver] at h
    split at h
    · next task origin data queue running front =>
      cases origin with
      | none =>
        cases h
        exact .notify running front
      | some number =>
        cases h
        exact .reply running front
    · cases h
  | process env =>
    rw [act] at h
    split at h
    · next task running => exact .process running (process_step h)
    · cases h
  | hangup =>
    rw [act] at h
    split at h
    · next task running =>
      cases h
      exact .hangup running
    · cases h
  | main env => exact .main (main_step h)

end Conn

end Vlink.Headlink
