import Vlink.Headlink.Handler
import Vlink.Lib.Channel
import Vlink.Lib.Runs

set_option autoImplicit false

/-!
# The head server as a transition system

`headlink/src/main.rs` and `client.rs`: the server accepts any number of connections. Each has a
task of its own, which runs an event loop and cleans up after it. The event loop polls three
futures: `recv_handler` reads messages from the client and broadcasts them inside the connection,
`to_client_handler` writes the messages of the send queue, and `process_client` admits the client
and then handles its requests. A step of the system is one of these going from one point where it
may have to wait to the next; any interleaving is a run.

## Main definitions

* `Vlink.Headlink.Conn` — a connection: its channels, and where its task stands.
* `Vlink.Headlink.HandshakeTask.step` — the sections of the admission of a client.
* `Vlink.Headlink.Conn.act` — what one of the futures of a connection does next.
* `Vlink.Headlink.Server.step` — one step of the server.
* `Vlink.Headlink.Server.Reaches` — some run leads from the start of the server to a state.

## Main results

* `Vlink.Headlink.Server.step_act` — a step of a connection replaces the connection and the shared
  state, and puts at most one message in a send queue.

## Design

Clients are not modelled here: they may write any message at any time. A connection may end at
any time, which covers lost connections, timeouts and messages that cannot be decoded. The send
queue of a connection holds 128 messages; who wants to send more has to wait. A future that sends
a reply waits until the reply has been written; a broadcast goes on without waiting, which gives
more runs than the code has.
-/

namespace Vlink.Headlink

/-! ## Connections -/

/-- Where `handshake0` stands. -/
inductive HandshakeTask where
  /-- Before the query for the token or the peer. -/
  | lookup (data : ReqHandshake)
  /-- Before `get_network` for the network of the token. -/
  | token (id : ClientId)
  /-- The identity is set; before `get_network`. -/
  | network (id : ClientId)
  /-- Before the look at the peer. -/
  | check (id : ClientId)
deriving DecidableEq

/-- Where `process_client` stands. A ticket is the number of messages that have to be written
before it goes on. -/
inductive Task where
  /-- `await_handshake`: before the server's own message; waiting for it to be written; waiting
  for the first message of the client. -/
  | hello
  | helloSent (ticket : ℕ)
  | awaiting
  /-- In `handshake0` for the message with that number. -/
  | handshake (number : ℕ) (h : HandshakeTask)
  /-- Before the reply; waiting for it to be written. -/
  | reply (number : ℕ) (result : Except String ClientId)
  | replySent (ticket : ℕ) (result : Except String ClientId)
  /-- `await_handshake` has come back; before the subscription; before `get_network`. -/
  | admitted (id : ClientId)
  | subscribed (id : ClientId)
  /-- The dispatch loop: waiting for a message; in a handler; before the reply with an error;
  waiting for a reply to be written. -/
  | ready (id : ClientId)
  | handling (id : ClientId) (number : ℕ) (h : Handler)
  | failing (id : ClientId) (number : ℕ) (e : ExecuteError)
  | waiting (id : ClientId) (ticket : ℕ)

/-- Where the task of a connection stands. -/
inductive Phase where
  /-- Before `insert_client`. -/
  | starting
  /-- In the event loop. -/
  | running (task : Task)
  /-- The event loop has ended; before `remove_client`. -/
  | stopped
  /-- `remove_client` took the connection `c` from the table; waiting for its channel to be
  closed. -/
  | closing (c : ConnId)
  /-- Before `get_network`, before the lock of the peers, and in the broadcast, of `offline`. -/
  | loading (c : ConnId) (id : ClientId)
  | offline (c : ConnId) (id : ClientId)
  | leaving (id : ClientId)
  | sending (targets : List ConnId) (data : ToClientData)
  | finished

/-- A connection. -/
structure Conn where
  addr : SocketAddr
  /-- `ClientConnect::client_id`, a cell that is set once. -/
  clientId : Option ClientId := none
  phase : Phase := .starting
  /-- The receivers of `await_handshake` and of the dispatch loop, on the broadcast channel of
  the connection. -/
  rx : Option (Receiver ToServer) := some {}
  recv : Option (Receiver ToServer) := none
  /-- The send queue, how many messages were put in it and how many were written. -/
  queue : List (Option ℕ × ToClientData) := []
  pushed : ℕ := 0
  written : ℕ := 0
  /-- The counter of `to_client_handler`. -/
  counter : ℕ := 0
  /-- Messages on their way from the client and to the client. -/
  upstream : List ToServer := []
  downstream : List ToClient := []

namespace Conn

/-- The event loop has not ended. -/
def isOpen (conn : Conn) : Bool :=
  match conn.phase with
  | .starting | .running _ => true
  | _ => false

/-- The event loop ends: its channels are dropped. -/
def close (conn : Conn) : Conn :=
  { conn with phase := .stopped, rx := none, recv := none, queue := [] }

/-- `process_client` goes on to `task`. -/
def goto (conn : Conn) (task : Task) : Conn := { conn with phase := .running task }

/-- The task of the connection goes on to `phase`. -/
def enterPhase (conn : Conn) (phase : Phase) : Conn := { conn with phase }

/-- A message is put in the send queue. -/
def enqueue (conn : Conn) (origin : Option ℕ) (data : ToClientData) : Conn :=
  { conn with queue := conn.queue ++ [(origin, data)], pushed := conn.pushed + 1 }

end Conn

/-! ## The handshake -/

/-- The first query of `handshake0`. It finds the network, which has to be loaded if it comes
from a token. -/
def handshakeLookup (s : ServerInner) (env : Env) (data : ReqHandshake) :
    Except String HandshakeTask :=
  if env.dbFails then .error env.text
  else
    match data.token with
    | some token =>
      match s.db.findToken token with
      | none => .error "token不存在"
      | some token =>
        if token.disabled then .error "token已禁用" else .ok (.token ⟨data.pubKey, token.networkId⟩)
    | none =>
      match s.db.findPeer data.pubKey with
      | none => .error "peer 未注册"
      | some peer => .ok (.network ⟨data.pubKey, peer.networkId⟩)

/-- `client.client_id.set(..)`. -/
def setClientId (cell : Option ClientId) (id : ClientId) : Except String (Option ClientId) :=
  match cell with
  | none => .ok (some id)
  | some _ => .error "set error"

/-- The last section of `handshake0`: a peer that is online already is refused. -/
def handshakeCheck (s : ServerInner) (id : ClientId) : Except String ClientId :=
  if ((s.peer? id).map (·.isOnline)).getD false then
    .error ("peer已连接,pub(" ++ id.pubKey ++ ")")
  else .ok id

/-- How a section of `handshake0` ends: with the next section, or with the result. -/
abbrev HandshakeNext := HandshakeTask ⊕ Except String ClientId

/-- Carry out the next section of `handshake0`. -/
def HandshakeTask.step (s : ServerInner) (cell : Option ClientId) (env : Env) :
    HandshakeTask → ServerInner × Option ClientId × HandshakeNext
  | lookup data =>
    match handshakeLookup s env data with
    | .error e => (s, cell, .inr (.error e))
    | .ok (.network id) =>
      -- nothing is waited for between the query and the cell
      match setClientId cell id with
      | .error e => (s, cell, .inr (.error e))
      | .ok cell => (s, cell, .inl (.network id))
    | .ok next => (s, cell, .inl next)
  | token id =>
    match s.getNetwork id.networkId env with
    | .error e => (s, cell, .inr (.error e))
    | .ok (n, s) =>
      match setClientId cell ⟨id.pubKey, n.networkId⟩ with
      | .error e => (s, cell, .inr (.error e))
      | .ok cell => (s, cell, .inl (.network ⟨id.pubKey, n.networkId⟩))
  | network id =>
    match s.getNetwork id.networkId env with
    | .error e => (s, cell, .inr (.error e))
    | .ok (_, s) => (s, cell, .inl (.check id))
  | check id => (s, cell, .inr (handshakeCheck s id))

/-- The result for a first message that is not a handshake. -/
def badHandshake : Except String ClientId := .error "握手包数据错误"

/-- `RespHandshake` for a result. -/
def respHandshake (result : Except String ClientId) : ToClientData :=
  match result with
  | .ok _ => .respHandshake ⟨true, none⟩
  | .error e => .respHandshake ⟨false, some e⟩

/-! ## Steps of a connection -/

/-- A message for the send queue of a connection. -/
structure Letter where
  dst : ConnId
  origin : Option ℕ
  data : ToClientData
deriving DecidableEq

/-- What a step of a connection does: the shared state and the connection as they are afterwards,
a message it sends, and what is observed. -/
structure Move where
  inner : ServerInner
  conn : Conn
  send : Option Letter := none
  events : List Event := []

/-- Where `process_client` goes on after a section of the handler for the message `number`. -/
def Next.task (id : ClientId) (number ticket : ℕ) : Next → Task
  | go h | push _ _ h => .handling id number h
  | reply _ => .waiting id ticket
  | done => .ready id
  | fail e => .failing id number e

/-- What a section of the handler for the message `number` sends. -/
def Next.send (c : ConnId) (number : ℕ) : Next → Option Letter
  | push dst data _ => some ⟨dst, none, data⟩
  | reply data => some ⟨c, some number, data⟩
  | _ => none

/-- The steps that a connection can be asked to take. -/
inductive ConnAction where
  /-- The client at the other end writes a message, or reads one. -/
  | clientSend (m : ToServer)
  | clientRecv
  /-- `recv_handler`, `to_client_handler` and `process_client`. -/
  | recv
  | deliver
  | process (env : Env)
  /-- The event loop ends for a reason from outside. -/
  | hangup
  /-- The task of the connection outside its event loop. -/
  | main (env : Env)

/-- The size of the channels of a connection. -/
def capacity : ℕ := 128

namespace Conn

variable (inner : ServerInner)

/-- Go on, with nothing to be seen. -/
def stay (conn : Conn) : Option Move := some { inner, conn }

/-- Go on, with events. -/
def report (conn : Conn) (events : List Event) : Option Move := some { inner, conn, events }

variable (c : ConnId) (conn : Conn)

/-- Send a message on the own connection, and wait for it to be written. -/
def sendSelf (origin : Option ℕ) (data : ToClientData) (task : ℕ → Task) : Option Move :=
  some { inner, conn := conn.goto (task (conn.pushed + 1)), send := some ⟨c, origin, data⟩ }

/-- The event loop ends. -/
def stop : Option Move := some { inner, conn := conn.close, events := [.closed c] }

/-- What the server says first. -/
def serverInfo : ToClientData :=
  .respServerInfo ⟨inner.info.version, inner.info.secret.base64Pub, none⟩

/-- Where the dispatch loop goes on with a message. -/
def taskFor (id : ClientId) (m : ToServer) : Task :=
  match m.toServerData.map dispatch with
  | none => .ready id
  | some (.ok h) => .handling id m.id h
  | some (.error e) => .failing id m.id e

/-- `process_client`. -/
def process (env : Env) : Task → Option Move
  | .hello => conn.sendSelf inner c none (serverInfo inner) .helloSent
  | .helloSent ticket =>
    if ticket ≤ conn.written then stay inner (conn.goto .awaiting) else none
  | .awaiting =>
    match conn.rx.map Receiver.recv with
    | none | some .empty => none
    | some (.lagged _) => conn.stop inner c
    | some (.item m rest) =>
      match m.toServerData with
      | some (.handshake data) =>
        stay inner ({ conn with rx := some rest }.goto (.handshake m.id (.lookup data)))
      | _ =>
        report inner ({ conn with rx := some rest }.goto (.reply m.id badHandshake))
          [.handshaken c badHandshake]
  | .handshake number h =>
    match h.step inner conn.clientId env with
    | (inner, clientId, .inl h) => stay inner ({ conn with clientId }.goto (.handshake number h))
    | (inner, clientId, .inr result) =>
      report inner ({ conn with clientId }.goto (.reply number result)) [.handshaken c result]
  | .reply number result => conn.sendSelf inner c (some number) (respHandshake result) fun ticket =>
      .replySent ticket result
  | .replySent ticket result =>
    if ticket ≤ conn.written then
      match result with
      | .error _ => conn.stop inner c
      | .ok id => stay inner ({ conn with rx := none }.goto (.admitted id))
    else none
  | .admitted id => stay inner ({ conn with recv := some {} }.goto (.subscribed id))
  | .subscribed id =>
    match inner.getNetwork id.networkId env with
    | .error _ => conn.stop inner c
    | .ok (_, inner) => stay inner (conn.goto (.ready id))
  | .ready id =>
    match conn.recv.map Receiver.recv with
    | none | some .empty => none
    | some (.lagged _) => conn.stop inner c
    | some (.item m rest) =>
      report inner ({ conn with recv := some rest }.goto (taskFor id m)) [.dispatched c m]
  | .handling id number h =>
    (h.step inner id c env).map fun (inner, next, events) => {
      inner
      conn := conn.goto (next.task id number (conn.pushed + 1))
      send := next.send c number
      events }
  | .failing id number e => conn.sendSelf inner c (some number) e.notice (.waiting id)
  | .waiting id ticket => if ticket ≤ conn.written then stay inner (conn.goto (.ready id)) else none

/-- The task of a connection outside its event loop, in `main`; `conns` are the connections of
the server. -/
def main (conns : ConnId → Option Conn) (env : Env) : Phase → Option Move
  | .starting => stay { inner with clients := inner.clients.insert conn.addr c } (conn.goto .hello)
  | .running _ => none
  | .stopped =>
    match inner.clients.lookup conn.addr with
    | none => stay inner (conn.enterPhase .finished)
    | some c' => stay { inner with clients := inner.clients.erase conn.addr }
        (conn.enterPhase (.closing c'))
  | .closing c' =>
    match conns c' with
    | none => none
    | some conn' =>
      if conn'.isOpen then none
      else
        match conn'.clientId with
        | none => stay inner (conn.enterPhase .finished)
        | some id => stay inner (conn.enterPhase (.loading c' id))
  | .loading c' id =>
    match inner.getNetwork id.networkId env with
    | .error _ => stay inner (conn.enterPhase .finished)
    | .ok (_, inner) => stay inner (conn.enterPhase (.offline c' id))
  | .offline c' id =>
    report (inner.modifyNetwork id.networkId fun n => { n with peers := n.peers.offline id.pubKey })
      (conn.enterPhase (.leaving id)) [.offline c' id]
  | .leaving id =>
    match inner.networks.lookup id.networkId with
    | none => none
    | some n => stay inner (conn.enterPhase
        (.sending (n.targets (.except id.pubKey)) (leaveNotice id.pubKey)))
  | .sending targets data =>
    match targets[env.pick % targets.length]? with
    | none => stay inner (conn.enterPhase .finished)
    | some dst => some {
        inner
        conn := conn.enterPhase (.sending (targets.eraseIdx (env.pick % targets.length)) data)
        send := some ⟨dst, none, data⟩ }
  | .finished => none

/-- `recv_handler`: the next message goes to the receivers. -/
def receive : Option Move :=
  match conn.phase, conn.upstream with
  | .running _, m :: upstream => stay inner { conn with
      upstream
      rx := conn.rx.map (·.push capacity m)
      recv := conn.recv.map (·.push capacity m) }
  | _, _ => none

/-- `to_client_handler`: the next message of the send queue is written. A message that is not a
reply gets the next number of the counter. -/
def deliver : Option Move :=
  match conn.phase, conn.queue with
  | .running _, (origin, data) :: queue =>
    let counter := match origin with
      | none => conn.counter + 1
      | some _ => conn.counter
    let m : ToClient := ⟨origin.getD counter, data⟩
    report inner { conn with
      queue
      counter
      written := conn.written + 1
      downstream := conn.downstream ++ [m] } [.wrote c origin m]
  | _, _ => none

/-- What the connection `c` does when it is asked to take a step; `none` if it cannot. -/
def act (conns : ConnId → Option Conn) : ConnAction → Option Move
  | .clientSend m => report inner { conn with upstream := conn.upstream ++ [m] } [.clientSent c m]
  | .clientRecv =>
    match conn.downstream with
    | [] => none
    | m :: downstream => report inner { conn with downstream } [.clientGot c m]
  | .recv => conn.receive inner
  | .deliver => conn.deliver inner c
  | .process env =>
    match conn.phase with
    | .running task => conn.process inner c env task
    | _ => none
  | .hangup =>
    match conn.phase with
    | .running _ => conn.stop inner c
    | _ => none
  | .main env => conn.main inner c conns env conn.phase

end Conn

/-! ## The server -/

/-- The server with its connections. -/
structure Server where
  inner : ServerInner
  conns : ConnId → Option Conn
  /-- How many connections were accepted. -/
  count : ConnId

/-- The steps of the server. -/
inductive Action where
  /-- The listener accepts a connection. -/
  | accept (addr : SocketAddr)
  /-- A connection takes a step. -/
  | act (c : ConnId) (a : ConnAction)

namespace Server

/-- `ClientConnect::send`, up to the point where the message is in the send queue; `none` if the
queue is full. A connection whose event loop has ended takes no messages. -/
def push (s : Server) (l : Letter) : Option (Server × List Event) :=
  match s.conns l.dst with
  | none => some (s, [])
  | some conn =>
    if conn.isOpen then
      if conn.queue.length < capacity then
        some ({ s with
          conns := Function.update s.conns l.dst (some (conn.enqueue l.origin l.data)) },
          [.pushed l.dst l.origin l.data])
      else none
    else some (s, [])

/-- Carry out what a connection does. -/
def apply (s : Server) (c : ConnId) (m : Move) : Option (Server × List Event) :=
  let s : Server := { s with inner := m.inner, conns := Function.update s.conns c (some m.conn) }
  match m.send with
  | none => some (s, m.events)
  | some l => (s.push l).map fun r => (r.1, m.events ++ r.2)

/-- One step of the server; `none` if the action is not possible. -/
def step (s : Server) : Action → Option (Server × List Event)
  | .accept addr => some ({ s with
      conns := Function.update s.conns s.count (some { addr })
      count := s.count + 1 }, [.accepted s.count addr])
  | .act c a =>
    match s.conns c with
    | none => none
    | some conn => (conn.act s.inner c s.conns a).bind (s.apply c)

section Frame

variable {s s' : Server} {c : ConnId} {evs : List Event}

/-- A message is put in the send queue of its connection, unless the connection has ended. -/
lemma push_eq_some {l : Letter} (h : s.push l = some (s', evs)) :
    (s' = s ∧ evs = [] ∧ ∀ conn, s.conns l.dst = some conn → conn.isOpen = false) ∨
    ∃ conn, s.conns l.dst = some conn ∧ conn.isOpen = true ∧ conn.queue.length < capacity ∧
      s' = { s with
        conns := Function.update s.conns l.dst (some (conn.enqueue l.origin l.data)) } ∧
      evs = [.pushed l.dst l.origin l.data] := by
  unfold push at h
  cases hc : s.conns l.dst with
  | none =>
    simp only [hc, Option.some.injEq, Prod.mk.injEq] at h
    exact .inl ⟨h.1.symm, h.2.symm, by simp⟩
  | some conn =>
    simp only [hc] at h
    split_ifs at h with hopen hlen
    · simp only [Option.some.injEq, Prod.mk.injEq] at h
      exact .inr ⟨conn, rfl, hopen, hlen, h.1.symm, h.2.symm⟩
    · simp only [Option.some.injEq, Prod.mk.injEq] at h
      refine .inl ⟨h.1.symm, h.2.symm, ?_⟩
      rintro conn' ⟨⟩
      simpa using hopen

/-- The server after the connection `c` did `m`; `post` are the events of the message it sent. -/
structure After (s : Server) (c : ConnId) (m : Move) (s' : Server) (post : List Event) :
    Prop where
  inner : s'.inner = m.inner
  count : s'.count = s.count
  conns : (s'.conns = Function.update s.conns c (some m.conn) ∧ post = [] ∧
      ∀ l, m.send = some l → ∀ conn, Function.update s.conns c (some m.conn) l.dst = some conn →
        conn.isOpen = false) ∨
    ∃ l conn, m.send = some l ∧ Function.update s.conns c (some m.conn) l.dst = some conn ∧
      conn.isOpen = true ∧ conn.queue.length < capacity ∧
      s'.conns = Function.update (Function.update s.conns c (some m.conn)) l.dst
        (some (conn.enqueue l.origin l.data)) ∧
      post = [.pushed l.dst l.origin l.data]

/-- A step of a connection replaces the connection and the shared state, and puts at most one
message in a send queue. -/
theorem step_act {a : ConnAction} (h : s.step (.act c a) = some (s', evs)) :
    ∃ conn m post, s.conns c = some conn ∧ conn.act s.inner c s.conns a = some m ∧
      evs = m.events ++ post ∧ After s c m s' post := by
  unfold step at h
  cases hc : s.conns c with
  | none => simp [hc] at h
  | some conn =>
    simp only [hc, Option.bind_eq_some_iff] at h
    obtain ⟨m, hm, happly⟩ := h
    refine ⟨conn, m, ?_⟩
    unfold apply at happly
    cases hsend : m.send with
    | none =>
      simp only [hsend, Option.some.injEq, Prod.mk.injEq] at happly
      obtain ⟨rfl, rfl⟩ := happly
      exact ⟨[], rfl, hm, by simp, rfl, rfl, .inl ⟨rfl, rfl, by simp [hsend]⟩⟩
    | some l =>
      simp only [hsend, Option.map_eq_some_iff, Prod.mk.injEq] at happly
      obtain ⟨⟨s₁, post⟩, hpush, rfl, rfl⟩ := happly
      refine ⟨post, rfl, hm, rfl, ?_⟩
      rcases push_eq_some hpush with ⟨rfl, rfl, hshut⟩ | ⟨conn', hdst, hopen, hlen, rfl, rfl⟩
      · refine ⟨rfl, rfl, .inl ⟨rfl, rfl, ?_⟩⟩
        rintro l' hl'
        rw [hsend] at hl'
        cases hl'
        exact hshut
      · exact ⟨rfl, rfl, .inr ⟨l, conn', hsend, hdst, hopen, hlen, rfl, rfl⟩⟩

/-- The events of a message that was sent. -/
lemma After.mem_post {m : Move} {post : List Event} (h : After s c m s' post) {e : Event}
    (he : e ∈ post) : ∃ l, m.send = some l ∧ e = .pushed l.dst l.origin l.data := by
  rcases h.conns with ⟨-, rfl, -⟩ | ⟨l, conn, hl, -, -, -, -, rfl⟩
  · cases he
  · exact ⟨l, hl, List.mem_singleton.mp he⟩

/-- Other events are those of the connection that takes the step. -/
lemma After.mem_events {m : Move} {post : List Event} (h : After s c m s' post) {e : Event}
    (he : e ∈ m.events ++ post) (hpush : ∀ x origin data, e ≠ .pushed x origin data) :
    e ∈ m.events := by
  rcases List.mem_append.mp he with he | he
  · exact he
  · obtain ⟨l, -, heq⟩ := h.mem_post he
    exact absurd heq (hpush _ _ _)

/-- Apart from the send queues, only the connection that takes the step changes. -/
lemma After.map_conns {m : Move} {post : List Event} (h : After s c m s' post) {β : Type*}
    {f : Conn → β} (hf : ∀ conn origin data, f (Conn.enqueue conn origin data) = f conn)
    (x : ConnId) :
    (s'.conns x).map f = if x = c then some (f m.conn) else (s.conns x).map f := by
  have base : (Function.update s.conns c (some m.conn) x).map f =
      if x = c then some (f m.conn) else (s.conns x).map f := by
    by_cases hx : x = c <;> simp [hx]
  rcases h.conns with ⟨hconns, -, -⟩ | ⟨l, conn, -, hdst, -, -, hconns, -⟩
  · rw [hconns, base]
  · rw [hconns, ← base]
    by_cases hx : x = l.dst
    · subst hx
      rw [Function.update_self, hdst]
      simp [hf]
    · rw [Function.update_of_ne hx]

end Frame

/-- A server that has just been started, with the tables as they are. -/
def new (db : Database) (info : ServerInfo) : Server where
  inner := { clients := ∅, db, networks := ∅, info, endpoints := [] }
  conns := fun _ => none
  count := 0

/-- A run of a new server, all of whose steps meet `guard`, leads to `s` and emits `tr`. -/
def Reaches (s : Server) (db : Database) (info : ServerInfo) (guard : Server → Action → Prop)
    (tr : List Event) : Prop :=
  Run step guard (new db info) tr s

end Server

/-! ## A small network to run

Tables with one network of three peers, and the steps in which a client is admitted, asks for its
configuration and enters. Runs on fixed inputs are put together from these. -/

namespace Sample

/-- Three public keys. -/
def keyA : String := Base64.encode (List.replicate 32 1)
def keyB : String := Base64.encode (List.replicate 32 2)
def keyC : String := Base64.encode (List.replicate 32 3)

/-- The identities of the three peers. -/
def idA : ClientId := ⟨keyA, 1⟩
def idB : ClientId := ⟨keyB, 1⟩
def idC : ClientId := ⟨keyC, 1⟩

/-- One network with three peers; the first two have no address yet. -/
def db : Database where
  peers := [
    { id := 1, pubKey := keyA, ip := none, defaultProto := some "NatTcp", port := none,
      networkId := 1, disabled := false },
    { id := 2, pubKey := keyB, ip := none, defaultProto := none, port := none,
      networkId := 1, disabled := false },
    { id := 3, pubKey := keyC, ip := some "10.0.0.9", defaultProto := none, port := none,
      networkId := 1, disabled := true }]
  tokens := [{ token := "t", networkId := 1, disabled := false }]
  networks := [{ networkId := 1, cidr := "10.0.0.0/24" }]
  transports := []
  nodup_ids := by decide
  nodup_keys := by decide +kernel

/-- The server's own data. -/
def info : ServerInfo := ⟨"1.0.0", ⟨Block.zero 32, Block.zero 32⟩⟩

/-- The server at its start. -/
def start : Server := .new db info

/-- An address for the connection `c`. -/
def addr (c : ConnId) : SocketAddr := ⟨.v4 0, UInt16.ofNat c⟩

/-- `process_client` goes on, with an environment in which nothing fails. -/
def go (c : ConnId) : Action := .act c (.process {})

/-- The task of the connection goes on outside its event loop. -/
def tidy (c : ConnId) : Action := .act c (.main {})

/-- The client writes a message, and `recv_handler` takes it in. -/
def say (c : ConnId) (number : ℕ) (data : ToServerData) : List Action :=
  [.act c (.clientSend ⟨number, some data⟩), .act c .recv]

/-- The connection is accepted, and the client sends its handshake. -/
def greeting (c : ConnId) (key : String) : List Action :=
  [.accept (addr c), tidy c, go c, .act c .deliver, go c] ++
    say c 1 (.handshake ⟨0, key, none, ""⟩)

/-- The client is admitted. -/
def admission (c : ConnId) (key : String) : List Action :=
  greeting c key ++ List.replicate 5 (go c) ++ [.act c .deliver] ++ List.replicate 3 (go c)

/-- The client asks for its configuration, for the first time. -/
def configuration (c : ConnId) (number : ℕ) : List Action :=
  say c number .reqConfig ++ List.replicate 10 (go c) ++ [.act c .deliver, go c]

/-- The client enters while nobody else is online. -/
def entrance (c : ConnId) (number : ℕ) (ip : String) : List Action :=
  say c number (.peerEnter ⟨ip, none, 0, []⟩) ++ List.replicate 5 (go c)

/-- The handshake that a client has sent. -/
def helloOf : Event → Option ReqHandshake
  | .clientSent _ ⟨_, some (.handshake data)⟩ => some data
  | _ => none

end Sample

end Vlink.Headlink
