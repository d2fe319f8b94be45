import Vlink.Headlink.Registry

set_option autoImplicit false

/-!
# The handlers of the head server

`headlink/src/client/handler`: what the server does with a request of a client that has been
admitted. A handler waits at locks, at queries of the database and at channels, and other
connections run in between; so it is cut into sections, each from one such point to the next. A
value of type `Handler` says where a handler stands and what it remembers.

## Main definitions

* `Vlink.Headlink.Handler` — where a handler stands.
* `Vlink.Headlink.dispatch` — the handler of a request.
* `Vlink.Headlink.Handler.step` — carry out the next section.
* `Vlink.Headlink.Event` — what an observer of the server sees.
* `Vlink.Headlink.Handler.pushes` — what a handler sends to other clients.

## Main results

* `Vlink.Headlink.Handler.pushes_forward` — a request to another client is forwarded as it is.
-/

namespace Vlink.Headlink

/-! ## Errors -/

/-- `ExecuteError`. -/
inductive ExecuteError where
  | message (text : String)
  | strMessage (text : String)
  | dbError (text : String)
  | anyhowError (text : String)
  | parseError (text : String)
  | peerNotFound
  | ipNotMatch
  | ipNotFound
deriving DecidableEq

/-- `ExecuteError::code`. -/
def ExecuteError.code (_ : ExecuteError) : Int32 := -1

/-- The text that is sent to the client. -/
def ExecuteError.toText : ExecuteError → String
  | message text | strMessage text | dbError text | anyhowError text | parseError text => text
  | peerNotFound => "PeerNotFound"
  | ipNotMatch => "IpNotMatch"
  | ipNotFound => "IpNotFound"

/-- The reply with an error. -/
def ExecuteError.notice (e : ExecuteError) : ToClientData := .error ⟨e.code, e.toText⟩

/-! ## Events -/

/-- What can be observed of a step, in the order in which it happens. -/
inductive Event where
  /-- A connection was accepted. -/
  | accepted (c : ConnId) (addr : SocketAddr)
  /-- The client at the other end wrote a message, or read one. -/
  | clientSent (c : ConnId) (m : ToServer)
  | clientGot (c : ConnId) (m : ToClient)
  /-- `handshake0` came back. -/
  | handshaken (c : ConnId) (result : Except String ClientId)
  /-- The dispatch loop took up a message. -/
  | dispatched (c : ConnId) (m : ToServer)
  /-- `PeerEnter` was completed: the peer is online through `c`. -/
  | entered (c : ConnId) (id : ClientId)
  /-- The peer was marked offline, on behalf of the connection `c`. -/
  | offline (c : ConnId) (id : ClientId)
  /-- The pair was entered in the table of connections. -/
  | connected (c : ConnId) (id : ClientId) (target : String)
  /-- The configuration was built for the client. -/
  | configured (c : ConnId) (id : ClientId) (address : Ipv4Addr)
  /-- A message was put in the send queue of the connection: a reply to the message with the
  given number, or a message that the server sends on its own. -/
  | pushed (c : ConnId) (origin : Option ℕ) (data : ToClientData)
  /-- The message left the send queue with its number. -/
  | wrote (c : ConnId) (origin : Option ℕ) (m : ToClient)
  /-- The event loop of the connection ended. -/
  | closed (c : ConnId)
deriving DecidableEq

/-! ## Handlers -/

/-- Where a handler stands. -/
inductive Handler where
  /-- `PeerEnter::execute`: before `get_network`, and before the lock of the peers. -/
  | enterLoad (m : PeerEnter)
  | enterWrite (m : PeerEnter)
  /-- `PeerLeave::execute`: before the lock of the peers in `offline`. -/
  | leaveWrite
  /-- `broadcast_by`: before the lock of the peers, and with the messages still to be sent. -/
  | broadcast (audience : Audience) (data : ToClientData)
  | sending (targets : List ConnId) (data : ToClientData)
  /-- `PeerForward::execute`. -/
  | forward (m : PeerForward)
  /-- `ReqConfig::execute`: before `get_network`; before the two looks at the peers; before the
  address is chosen, written to the database and to the registry; before the transports are
  queried and the extra endpoints collected; before the reply. -/
  | configLoad
  | configSelf
  | configPeers (self : VlinkPeer)
  | configIp (self : VlinkPeer) (peers : List BcPeerEnter)
  | configUpdate (self : VlinkPeer) (peers : List BcPeerEnter) (ip : Ipv4Addr)
  | configRefresh (self : VlinkPeer) (peers : List BcPeerEnter) (ip : Ipv4Addr)
  | configTransports (self : VlinkPeer) (peers : List BcPeerEnter) (addr : Ipv4Addr)
  | configEndpoints (self : VlinkPeer) (peers : List BcPeerEnter) (addr : Ipv4Addr)
      (transports : List ExtraTransport)
  | configReply (resp : RespConfig)
  /-- `ExtraEndpoint::execute`: before the look at the peer, before the endpoint is inserted, before
  the peers are gone through, and before each look at the table of connections. -/
  | endpointSelf (m : ExtraEndpoint)
  | endpointInsert (m : ExtraEndpoint) (self : VlinkPeer)
  | endpointAudience (m : ExtraEndpoint) (self : VlinkPeer)
  | endpointLook (m : ExtraEndpoint) (self : VlinkPeer) (rest broadTo : List String)
  /-- `DevHandshakeComplete::execute`. -/
  | connected (m : DevHandshakeComplete)
deriving DecidableEq

/-- `Dispatcher::dispatch`. -/
def dispatch : ToServerData → Except ExecuteError Handler
  | .peerEnter m => .ok (.enterLoad m)
  | .peerLeave => .ok .leaveWrite
  | .peerForward m => .ok (.forward m)
  | .reqConfig => .ok .configLoad
  | .updateExtraEndpoint m => .ok (.endpointSelf m)
  | .devHandshakeComplete m => .ok (.connected m)
  | .handshake _ | .peerChange | .peerMessage | .peerReport =>
    .error (.strMessage "Dispatcher::dispatch: unknown data type")

/-- How a section ends. -/
inductive Next where
  /-- Go on with the next section. -/
  | go (h : Handler)
  /-- Send a message on the server's own account to the connection, and go on. -/
  | push (dst : ConnId) (data : ToClientData) (h : Handler)
  /-- `send_resp`, and return. -/
  | reply (data : ToClientData)
  /-- Return. -/
  | done
  /-- Return an error. -/
  | fail (e : ExecuteError)

/-! ## What the handlers build -/

/-- The entry for a peer in the configuration; peers without an address have none. -/
def configEntry (p : String × VlinkPeer) : Option BcPeerEnter :=
  p.2.model.ip.map fun ip => {
    pubKey := p.1
    ip
    endpointAddr := p.2.onlineInfo.bind (·.endpointAddr)
    port := (p.2.onlineInfo.map (·.port)).getD 0
    lastConType := none
    mode := .none
    isOnline := p.2.onlineInfo.isSome }

/-- The entries for all peers. -/
def configEntries (peers : Peers) : List BcPeerEnter :=
  peers.entries.filterMap fun e => configEntry (e.1, e.2)

/-- The extra endpoints of the peers that are online. The map has one place for a peer. -/
def extraEndpointsMap (s : ServerInner) (peers : Peers) : Map String (String × String) :=
  peers.entries.foldl (fun acc e =>
    match e.2.onlineInfo with
    | none => acc
    | some info =>
      ((s.endpoints.getD info.extraEndpoints ∅).entries).foldl
        (fun acc x => acc.insert e.1 (x.1, x.2)) acc) ∅

/-- The configuration. -/
def buildConfig (s : ServerInner) (n : VlinkNetwork) (self : VlinkPeer) (peers : List BcPeerEnter)
    (addr : Ipv4Addr) (transports : List ExtraTransport) : RespConfig where
  networkId := n.networkId
  address := addr
  mask := n.cidr.netmask
  network := n.cidr.address
  port := (self.model.port.getD 0).toUInt32
  ipv6Addr := none
  peers := peers
  extraTransports := transports
  peerExtraTransports := (extraEndpointsMap s n.peers).entries.map fun e =>
    { targetPubKey := e.1, proto := e.2.1, endpoint := e.2.2, index := 0 }

/-- What the others are told when a peer enters. -/
def enterNotice (pubKey : String) (m : PeerEnter) : ToClientData :=
  .peerEnter {
    pubKey
    ip := m.ip
    endpointAddr := m.endpointAddr
    port := m.port
    lastConType := none
    mode := .bidirectional
    isOnline := true }

/-- What the others are told when a peer goes offline. -/
def leaveNotice (pubKey : String) : ToClientData := .peerLeave ⟨pubKey⟩

/-- Whether the protocol is the default one of the peer. -/
def isDefault (self : VlinkPeer) (proto : String) : Bool := self.model.defaultProto == some proto

/-- The peers that are gone through for a new endpoint: those online, other than the peer itself.
The lock on the peers is held until the end. -/
def onlineOthers (n : VlinkNetwork) (pubKey : String) : List String :=
  n.peers.entries.filterMap fun e => if e.1 = pubKey ∨ ¬ e.2.isOnline then none else some e.1

/-- `broad_to` after the peer `k`. It is told about a new endpoint if the table of connections has
no entry for the pair, and only of the default protocol. -/
def nextBroadTo (n : VlinkNetwork) (pubKey : String) (isDefault : Bool) (k : String)
    (broadTo : List String) : List String :=
  match n.connects.lookup (unionPubKey pubKey k).1 with
  | none => if isDefault then broadTo ++ [k] else broadTo
  | some _ => broadTo

/-! ## Sections -/

namespace Handler

/-- A section on the network of the client. `RequestContext` holds the network, so it has been
loaded. -/
def onNetwork (s : ServerInner) (id : ClientId)
    (f : VlinkNetwork → ServerInner × Next × List Event) :
    Option (ServerInner × Next × List Event) :=
  (s.networks.lookup id.networkId).map f

/-- `get_network`, and then the next section. -/
def load (s : ServerInner) (id : ClientId) (env : Env) (h : Handler) :
    Option (ServerInner × Next × List Event) :=
  match s.getNetwork id.networkId env with
  | .error e => some (s, .fail (.anyhowError e), [])
  | .ok (_, s) => some (s, .go h, [])

/-- The write of `PeerEnter::execute`, under the lock of the peers. -/
def enter (s : ServerInner) (id : ClientId) (c : ConnId) (m : PeerEnter) (n : VlinkNetwork) :
    ServerInner × Next × List Event :=
  match n.peers.lookup id.pubKey with
  | none => (s, .fail .peerNotFound, [])
  | some peer =>
    if m.ip ≠ peer.model.ip.getD "" then (s, .fail .ipNotMatch, [])
    else
      let info : OnlineInfo := {
        connect := c
        port := m.port
        endpointAddr := m.endpointAddr
        extraEndpoints := s.endpoints.length }
      ({ s.modifyPeer id fun p => { p with onlineInfo := some info } with
          endpoints := s.endpoints ++
            [.ofList (m.extraEndpoints.map fun x => (x.proto, x.endpoint))] },
        .go (.broadcast (.except id.pubKey) (enterNotice id.pubKey m)), [.entered c id])

/-- The choice of the address in `ReqConfig::execute`. -/
def chooseIp (s : ServerInner) (env : Env) (self : VlinkPeer) (peers : List BcPeerEnter)
    (n : VlinkNetwork) : ServerInner × Next × List Event :=
  match self.model.ip with
  | none =>
    match generateIp n.cidr n.peers with
    | .error e => (s, .fail (.anyhowError e), [])
    | .ok ip => (s, .go (.configUpdate self peers ip), [])
  | some text =>
    match Ipv4Addr.parse text with
    | none => (s, .fail (.parseError env.text), [])
    | some addr => (s, .go (.configTransports self peers addr), [])

/-- Carry out the next section of the handler of the client `id` at the connection `c`. -/
def step (s : ServerInner) (id : ClientId) (c : ConnId) (env : Env) :
    Handler → Option (ServerInner × Next × List Event)
  | enterLoad m => load s id env (enterWrite m)
  | enterWrite m => onNetwork s id (enter s id c m)
  | leaveWrite => onNetwork s id fun _ =>
    (s.modifyNetwork id.networkId fun n => { n with peers := n.peers.offline id.pubKey },
      .go (broadcast (.except id.pubKey) (leaveNotice id.pubKey)), [.offline c id])
  | broadcast audience data => onNetwork s id fun n =>
    (s, .go (sending (n.targets audience) data), [])
  | sending targets data =>
    -- the sends of a broadcast run side by side, so any of them may be next
    match targets[env.pick % targets.length]? with
    | none => some (s, .done, [])
    | some dst =>
      some (s, .push dst data (sending (targets.eraseIdx (env.pick % targets.length)) data), [])
  | forward m =>
    match m.data with
    | none => some (s, .done, [])
    | some r => some (s, .go (broadcast (.only [m.targetPubKey]) (.requireReply r)), [])
  | configLoad => load s id env configSelf
  | configSelf => onNetwork s id fun n =>
    match n.peers.lookup id.pubKey with
    | none => (s, .fail .peerNotFound, [])
    | some self => (s, .go (configPeers self), [])
  | configPeers self => onNetwork s id fun n => (s, .go (configIp self (configEntries n.peers)), [])
  | configIp self peers => onNetwork s id (chooseIp s env self peers)
  | configUpdate self peers ip =>
    if env.dbFails then some (s, .fail (.dbError env.text), [])
    else
      match s.db.updateIp self.model.id ip.toText with
      | none => some (s, .fail (.dbError env.text), [])
      | some db => some ({ s with db }, .go (configRefresh self peers ip), [])
  | configRefresh self peers ip => onNetwork s id fun _ =>
    (s.modifyNetwork id.networkId fun n =>
      { n with peers := n.peers.refreshModel { self.model with ip := some ip.toText } },
      .go (configTransports self peers ip), [])
  | configTransports self peers addr =>
    if env.dbFails then some (s, .fail (.dbError env.text), [])
    else some (s, .go (configEndpoints self peers addr
      ((s.db.transportsOf self.model.id).map fun t => ⟨t.proto, t.params⟩)), [])
  | configEndpoints self peers addr transports => onNetwork s id fun n =>
    (s, .go (configReply (buildConfig s n self peers addr transports)), [])
  | configReply resp => some (s, .reply (.respConfig resp), [.configured c id resp.address])
  | endpointSelf m => onNetwork s id fun n =>
    match n.peers.lookup id.pubKey with
    | none => (s, .fail .peerNotFound, [])
    | some self => (s, .go (endpointInsert m self), [])
  | endpointInsert m self =>
    match self.onlineInfo with
    | none => some (s, .go (.endpointAudience m self), [])
    | some info => some ({ s with
        endpoints := s.endpoints.modify info.extraEndpoints (·.insert m.proto m.endpoint) },
        .go (.endpointAudience m self), [])
  | endpointAudience m self => onNetwork s id fun n =>
    (s, .go (.endpointLook m self (onlineOthers n id.pubKey) []), [])
  | endpointLook m self (k :: rest) broadTo => onNetwork s id fun n =>
    (s, .go (.endpointLook m self rest
      (nextBroadTo n id.pubKey (isDefault self m.proto) k broadTo)), [])
  | endpointLook m self [] broadTo =>
    some (s, .go (broadcast (.only broadTo)
      (.updateExtraEndpoint ⟨self.pubKey, m.proto, m.endpoint⟩)), [])
  | connected m => onNetwork s id fun _ =>
    (s.addConnect id m.targetPubKey m.proto, .done, [.connected c id m.targetPubKey])

/-! ## What a handler sends -/

/-- What the handler `h` of the client `id` at the connection `c` sends to other clients;
`seen i` is the state of the server, and what is read from outside, at its section `i`. -/
def pushes (seen : ℕ → ServerInner × Env) (id : ClientId) (c : ConnId) :
    ℕ → ℕ → Handler → List (ConnId × ToClientData)
  | 0, _, _ => []
  | fuel + 1, i, h =>
    match h.step (seen i).1 id c (seen i).2 with
    | some (_, .go h', _) => pushes seen id c fuel (i + 1) h'
    | some (_, .push dst data h', _) => (dst, data) :: pushes seen id c fuel (i + 1) h'
    | _ => []

section Pushes

variable {seen : ℕ → ServerInner × Env} {id : ClientId} {c : ConnId} {fuel i : ℕ}
  {x : ConnId × ToClientData}

/-- A broadcast sends its data to its targets. -/
lemma pushes_sending {targets : List ConnId} {data : ToClientData}
    (h : x ∈ pushes seen id c fuel i (.sending targets data)) : x.1 ∈ targets ∧ x.2 = data := by
  induction fuel generalizing i targets with
  | zero => simp [pushes] at h
  | succ fuel ih =>
    simp only [pushes, step] at h
    cases hpick : targets[(seen i).2.pick % targets.length]? with
    | none => simp [hpick] at h
    | some dst =>
      simp only [hpick, List.mem_cons] at h
      rcases h with rfl | h
      · exact ⟨List.mem_of_getElem? hpick, rfl⟩
      · obtain ⟨hmem, hdata⟩ := ih h
        exact ⟨List.mem_of_mem_eraseIdx hmem, hdata⟩

/-- `PeerForward::execute` sends the data of the request, as it is, to the client that the
registry has under the name of the target. -/
lemma pushes_forward {m : PeerForward} (h : x ∈ pushes seen id c fuel i (.forward m)) :
    ∃ r, m.data = some r ∧ x.2 = .requireReply r ∧
      ∃ j net, (seen j).1.networks.lookup id.networkId = some net ∧
        x.1 ∈ net.targets (.only [m.targetPubKey]) := by
  cases fuel with
  | zero => simp [pushes] at h
  | succ fuel =>
    simp only [pushes, step] at h
    cases hdata : m.data with
    | none => simp [hdata] at h
    | some r =>
      refine ⟨r, rfl, ?_⟩
      simp only [hdata] at h
      cases fuel with
      | zero => simp [pushes] at h
      | succ fuel =>
        simp only [pushes, step, onNetwork] at h
        cases hnet : (seen (i + 1)).1.networks.lookup id.networkId with
        | none => simp [hnet] at h
        | some net =>
          simp only [hnet, Option.map_some] at h
          obtain ⟨hmem, hx⟩ := pushes_sending h
          exact ⟨hx, i + 1, net, hnet, hmem⟩

end Pushes

end Handler

end Vlink.Headlink
