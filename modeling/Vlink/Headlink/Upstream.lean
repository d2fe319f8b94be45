import Mathlib.Tactic.Lemma
import Vlink.Headlink.View

set_option autoImplicit false

/-!
# What connections have of their clients

The messages of a client wait in the stream, and then in the receivers of `await_handshake` and of
the dispatch loop, until `process_client` takes them up. The identity that `handshake0` gives to a
connection is that of a handshake among them: it has the public key of the handshake, and the
network that the tables have for its token or, without a token, for its public key.

## Main definitions

* `Vlink.Headlink.Conn.Heard` — what waits was sent by the client.
* `Vlink.Headlink.Database.networkOf?` — the network that a handshake is for.
* `Vlink.Headlink.Claimed` — the client sent a handshake with the public key and for the network of
  an identity.

## Main results

* `Vlink.Headlink.Server.Reaches.heard` — in every run, what waits was sent by the client.
* `Vlink.Headlink.Server.Reaches.identified` — and the identity of a connection was claimed by its
  client.
* `Vlink.Headlink.Server.Reaches.closed` — a connection whose event loop has ended was closed.
-/

namespace Vlink.Headlink

/-! ## Messages -/

/-- What waits in the stream and in the receivers of a connection was sent by its client. -/
structure Conn.Heard (tr : List Event) (c : ConnId) (conn : Conn) : Prop where
  upstream : ∀ m ∈ conn.upstream, .clientSent c m ∈ tr
  rx : ∀ r, conn.rx = some r → ∀ m ∈ r.queue, .clientSent c m ∈ tr
  recv : ∀ r, conn.recv = some r → ∀ m ∈ r.queue, .clientSent c m ∈ tr

namespace Conn

variable {tr : List Event} {c : ConnId} {conn conn' : Conn}

/-- A message that is taken up from a receiver was in it. -/
lemma took_item {rx : Option (Receiver ToServer)} {m : ToServer} {rest : Receiver ToServer}
    (took : rx.map Receiver.recv = some (.item m rest)) :
    ∃ r, rx = some r ∧ m ∈ r.queue ∧ rest.queue ⊆ r.queue := by
  obtain ⟨r, hr, hitem⟩ := Option.map_eq_some_iff.mp took
  obtain ⟨-, rfl⟩ := Receiver.recv_eq_item.mp hitem
  exact ⟨_, hr, by simp, List.subset_cons_self m rest.queue⟩

/-- The connection goes on with what it has, or with less. -/
lemma Heard.append (h : Heard tr c conn) (evs : List Event)
    (upstream : conn'.upstream = conn.upstream)
    (rx : ∀ r, conn'.rx = some r → ∃ r₀, conn.rx = some r₀ ∧ r.queue ⊆ r₀.queue)
    (recv : ∀ r, conn'.recv = some r → r.queue = [] ∨ ∃ r₀, conn.recv = some r₀ ∧
      r.queue ⊆ r₀.queue) : Heard (tr ++ evs) c conn' := by
  refine ⟨fun m hm => ?_, fun r hr m hm => ?_, fun r hr m hm => ?_⟩
  · exact List.mem_append_left _ (h.upstream m (upstream ▸ hm))
  · obtain ⟨r₀, hr₀, hsub⟩ := rx r hr
    exact List.mem_append_left _ (h.rx r₀ hr₀ m (hsub hm))
  · rcases recv r hr with hnil | ⟨r₀, hr₀, hsub⟩
    · rw [hnil] at hm
      cases hm
    · exact List.mem_append_left _ (h.recv r₀ hr₀ m (hsub hm))

/-- The connection goes on with what it has. -/
lemma Heard.same (h : Heard tr c conn) (evs : List Event)
    (upstream : conn'.upstream = conn.upstream) (rx : conn'.rx = conn.rx)
    (recv : conn'.recv = conn.recv) : Heard (tr ++ evs) c conn' :=
  h.append evs upstream (fun r hr => ⟨r, rx ▸ hr, List.Subset.refl _⟩)
    fun r hr => .inr ⟨r, recv ▸ hr, List.Subset.refl _⟩

/-- The event loop ends, and the receivers are dropped. -/
lemma Heard.close (h : Heard tr c conn) (evs : List Event) : Heard (tr ++ evs) c conn.close :=
  h.append evs rfl (fun r hr => by cases hr) fun r hr => by cases hr

/-- A section of `process_client` takes up messages. -/
lemma ProcessStep.heard {inner : ServerInner} {env : Env} {task : Task} {m : Move}
    (step : ProcessStep inner c conn env task m) (h : Heard tr c conn) :
    Heard (tr ++ m.events) c m.conn := by
  cases step with
  | hello | await _ | ready _ | resume _ | fail | reply | handshake _ | handshaken _ | handle _ =>
    exact h.same _ rfl rfl rfl
  | welcome _ =>
    exact h.append _ rfl (fun r hr => by cases hr) fun r hr => .inr ⟨r, hr, List.Subset.refl _⟩
  | subscribe =>
    refine h.append _ rfl (fun r hr => ⟨r, hr, List.Subset.refl _⟩) fun r hr => ?_
    cases hr
    exact .inl rfl
  | begin took _ | refuse took _ =>
    obtain ⟨r₀, hr₀, -, hsub⟩ := took_item took
    refine h.append _ rfl (fun r hr => ?_) fun r hr => .inr ⟨r, hr, List.Subset.refl _⟩
    cases hr
    exact ⟨r₀, hr₀, hsub⟩
  | dispatch took =>
    obtain ⟨r₀, hr₀, -, hsub⟩ := took_item took
    refine h.append _ rfl (fun r hr => ⟨r, hr, List.Subset.refl _⟩) fun r hr => ?_
    cases hr
    exact .inr ⟨r₀, hr₀, hsub⟩
  | stop _ => exact h.close _

/-- **Step lemma.** What waits was sent by the client.

**Proof sketch.** A message comes into the stream with the event that the client sent it, and goes
from the stream to the receivers; all other steps leave the waiting messages or drop some. -/
lemma Step.heard {inner : ServerInner} {conns : ConnId → Option Conn} {a : ConnAction} {m : Move}
    (step : Step inner c conn conns a m) (h : Heard tr c conn) :
    Heard (tr ++ m.events) c m.conn := by
  cases step with
  | clientSend msg =>
    refine ⟨fun m hm => ?_, fun r hr m hm => ?_, fun r hr m hm => ?_⟩
    · rcases List.mem_append.mp hm with hm | hm
      · exact List.mem_append_left _ (h.upstream m hm)
      · rw [List.mem_singleton.mp hm]
        exact List.mem_append_right _ (List.mem_singleton_self _)
    · exact List.mem_append_left _ (h.rx r hr m hm)
    · exact List.mem_append_left _ (h.recv r hr m hm)
  | clientRecv _ | reply _ _ | notify _ _ => exact h.same _ rfl rfl rfl
  | @recv task msg upstream running front =>
    have hmsg : .clientSent c msg ∈ tr := h.upstream msg (by simp [front])
    have push : ∀ {r₀ : Receiver ToServer}, (∀ m ∈ r₀.queue, .clientSent c m ∈ tr) →
        ∀ m ∈ (r₀.push capacity msg).queue, .clientSent c m ∈ tr := by
      intro r₀ hr₀ m hm
      rcases Receiver.mem_push hm with hm | rfl
      · exact hr₀ m hm
      · exact hmsg
    rw [List.append_nil]
    refine ⟨fun m hm => ?_, fun r hr m hm => ?_, fun r hr m hm => ?_⟩
    · exact h.upstream m (by rw [front]; exact List.mem_cons_of_mem _ hm)
    · obtain ⟨r₀, hr₀, rfl⟩ := Option.map_eq_some_iff.mp hr
      exact push (h.rx r₀ hr₀) m hm
    · obtain ⟨r₀, hr₀, rfl⟩ := Option.map_eq_some_iff.mp hr
      exact push (h.recv r₀ hr₀) m hm
  | process running move => exact move.heard h
  | hangup _ => exact h.close _
  | main move =>
    generalize conn.phase = phase at move
    cases move with
    | _ => exact h.same _ rfl rfl rfl

/-- Once its event loop has ended, a connection was closed. -/
lemma Step.closed {inner : ServerInner} {conns : ConnId → Option Conn} {a : ConnAction} {m : Move}
    (step : Step inner c conn conns a m) (h : conn.isOpen = false → .closed c ∈ tr)
    (shut : m.conn.isOpen = false) : .closed c ∈ tr ++ m.events := by
  cases step with
  | clientSend _ | clientRecv _ | recv _ _ | reply _ _ | notify _ _ =>
    exact List.mem_append_left _ (h shut)
  | hangup _ => exact List.mem_append_right _ (List.mem_singleton_self _)
  | process running move =>
    cases move with
    | stop _ => exact List.mem_append_right _ (List.mem_singleton_self _)
    | _ => cases shut
  | main move =>
    generalize hphase : conn.phase = phase at move
    cases move with
    | start => cases shut
    | _ => exact List.mem_append_left _ (h (by rw [isOpen, hphase]))

end Conn

/-! ## Identities -/

/-- The network that a handshake is for: that of its token or, without a token, that of its public
key. -/
def Database.networkOf? (db : Database) (data : ReqHandshake) : Option ℤ :=
  match data.token with
  | some token => (db.findToken token).map (·.networkId)
  | none => (db.findPeer data.pubKey).map (·.networkId)

/-- The addresses of the peers do not matter. -/
lemma Database.networkOf?_updateIp {db db' : Database} {id : ℤ} {ip : String}
    (h : db.updateIp id ip = some db') : db'.networkOf? = db.networkOf? := by
  unfold updateIp at h
  split_ifs at h
  cases h
  funext data
  unfold networkOf?
  cases data.token with
  | some token => rfl
  | none =>
    simp only [findPeer, List.find?_map, Option.map_map, Function.comp_def, pubKey_withIp,
      networkId_withIp]

/-- The client of the connection `c` sent this handshake. -/
def Shook (tr : List Event) (c : ConnId) (data : ReqHandshake) : Prop :=
  ∃ m, .clientSent c m ∈ tr ∧ m.toServerData = some (.handshake data)

/-- The client of the connection `c` sent a handshake with the public key of `id` and for its
network. -/
def Claimed (db : Database) (tr : List Event) (c : ConnId) (id : ClientId) : Prop :=
  ∃ data, Shook tr c data ∧ data.pubKey = id.pubKey ∧ db.networkOf? data = some id.networkId

/-- What `handshake0` works on is what the client sent. -/
def HandshakeTask.Claimed (db : Database) (tr : List Event) (c : ConnId) : HandshakeTask → Prop
  | .lookup data => Shook tr c data
  | .token id | .network id | .check id => Headlink.Claimed db tr c id

/-- The client has claimed the identity that its connection has or is about to get. -/
structure Conn.Identified (db : Database) (tr : List Event) (c : ConnId) (conn : Conn) :
    Prop where
  task : ∀ number h, conn.phase = .running (.handshake number h) → h.Claimed db tr c
  cell : ∀ id, conn.clientId = some id → Claimed db tr c id

section Append

variable {db : Database} {tr : List Event} {c : ConnId}

/-- More events change nothing. -/
lemma Shook.append {data : ReqHandshake} (h : Shook tr c data) (evs : List Event) :
    Shook (tr ++ evs) c data := by
  obtain ⟨m, hmem, hdata⟩ := h
  exact ⟨m, List.mem_append_left _ hmem, hdata⟩

/-- More events change nothing. -/
lemma Claimed.append {id : ClientId} (h : Claimed db tr c id) (evs : List Event) :
    Claimed db (tr ++ evs) c id := by
  obtain ⟨data, shook, hkey, hnetwork⟩ := h
  exact ⟨data, shook.append evs, hkey, hnetwork⟩

/-- More events change nothing. -/
lemma HandshakeTask.Claimed.append {h : HandshakeTask} (hc : h.Claimed db tr c)
    (evs : List Event) : h.Claimed db (tr ++ evs) c := by
  cases h with
  | lookup data => exact Shook.append hc evs
  | token id | network id | check id => exact Headlink.Claimed.append hc evs

/-- The connection goes on without a handshake that it did not have. -/
lemma Conn.Identified.append {conn conn' : Conn} (h : conn.Identified db tr c) (evs : List Event)
    (task : ∀ number h, conn'.phase = .running (.handshake number h) →
      conn.phase = .running (.handshake number h))
    (cell : conn'.clientId = conn.clientId) : conn'.Identified db (tr ++ evs) c :=
  ⟨fun number hd hphase => (h.task number hd (task number hd hphase)).append evs,
    fun id hid => (h.cell id (cell ▸ hid)).append evs⟩

end Append

section Steps

variable {db : Database} {tr : List Event} {c : ConnId} {conn : Conn} {inner : ServerInner}

/-- The tables still have the networks of the handshakes, and each loaded network has its number. -/
structure ServerInner.Faithful (db : Database) (s : ServerInner) : Prop where
  networkOf? : s.db.networkOf? = db.networkOf?
  number : ∀ n net, s.networks.lookup n = some net → net.networkId = n

/-- A section of `handshake0` works on, and puts in the cell, what the client has claimed. -/
lemma HandshakeTask.Step.claimed (faithful : inner.Faithful db) {s' : ServerInner}
    {cell cell' : Option ClientId} {env : Env} {h : HandshakeTask} {next : HandshakeNext}
    (step : Step inner cell env h s' cell' next) (hc : h.Claimed db tr c)
    (hcell : ∀ id, cell = some id → Headlink.Claimed db tr c id) :
    (∀ h', next = .inl h' → h'.Claimed db tr c) ∧
      ∀ id, cell' = some id → Headlink.Claimed db tr c id := by
  cases step with
  | @byToken data token row given found _ =>
    refine ⟨?_, hcell⟩
    rintro _ ⟨⟩
    refine ⟨data, hc, rfl, ?_⟩
    rw [← faithful.networkOf?]
    simp [Database.networkOf?, given, found]
  | @byPeer data peer absent found _ =>
    have claimed : Headlink.Claimed db tr c ⟨data.pubKey, peer.networkId⟩ := by
      refine ⟨data, hc, rfl, ?_⟩
      rw [← faithful.networkOf?]
      simp [Database.networkOf?, absent, found]
    refine ⟨?_, ?_⟩ <;> rintro _ ⟨⟩ <;> exact claimed
  | @join id n _ network _ =>
    have hn : n.networkId = id.networkId := by
      rcases ServerInner.getNetwork_eq_ok network with ⟨listed, -⟩ | ⟨-, loaded, -⟩
      · exact faithful.number _ _ listed
      · exact (ServerInner.loadNetwork_eq_ok loaded).1
    have claimed : Headlink.Claimed db tr c ⟨id.pubKey, n.networkId⟩ := by
      rw [hn]
      exact hc
    refine ⟨?_, ?_⟩ <;> rintro _ ⟨⟩ <;> exact claimed
  | load _ =>
    refine ⟨?_, hcell⟩
    rintro _ ⟨⟩
    exact hc
  | refused | reused _ | accept _ => exact ⟨fun _ h => (by cases h), hcell⟩

/-- The dispatch loop does not go back to the handshake. -/
lemma taskFor_ne_handshake {id : ClientId} {m : ToServer} {number : ℕ} {h : HandshakeTask} :
    Conn.taskFor id m ≠ .handshake number h := by
  unfold Conn.taskFor
  split <;> simp

/-- A section of `process_client`. -/
lemma Conn.ProcessStep.identified (faithful : inner.Faithful db) {env : Env} {task : Task}
    {m : Move} (step : ProcessStep inner c conn env task m) (running : conn.phase = .running task)
    (heard : conn.Heard tr c) (h : conn.Identified db tr c) :
    m.conn.Identified db (tr ++ m.events) c := by
  cases step with
  | hello | await _ | reply | subscribe | ready _ | fail | resume _ | welcome _ | refuse _ _ =>
    exact h.append _ (fun number hd hphase => by cases hphase) rfl
  | dispatch _ =>
    refine h.append _ (fun number hd hphase => ?_) rfl
    exact absurd (Phase.running.inj hphase) taskFor_ne_handshake
  | @handle id number hd _ next _ _ =>
    refine h.append _ (fun number hd hphase => ?_) rfl
    cases next <;> cases hphase
  | @begin msg rest data took first =>
    refine ⟨fun number hd hphase => ?_, fun id hid => (h.cell id hid).append _⟩
    cases hphase
    obtain ⟨r, hr, hmem, -⟩ := took_item took
    exact Shook.append ⟨msg, heard.rx r hr msg hmem, first⟩ _
  | handshake hstep =>
    obtain ⟨hnext, hcell⟩ := hstep.claimed faithful (h.task _ _ running) h.cell
    refine ⟨fun number' h' hphase => ?_, fun id hid => (hcell id hid).append _⟩
    cases hphase
    exact (hnext _ rfl).append _
  | handshaken hstep =>
    obtain ⟨-, hcell⟩ := hstep.claimed faithful (h.task _ _ running) h.cell
    exact ⟨fun number' h' hphase => (by cases hphase), fun id hid => (hcell id hid).append _⟩
  | stop _ => exact h.append _ (fun number hd hphase => by cases hphase) rfl

/-- **Step lemma.** The identity of a connection was claimed by its client. -/
lemma Conn.Step.identified (faithful : inner.Faithful db) {conns : ConnId → Option Conn}
    {a : ConnAction} {m : Move} (step : Step inner c conn conns a m) (heard : conn.Heard tr c)
    (h : conn.Identified db tr c) : m.conn.Identified db (tr ++ m.events) c := by
  cases step with
  | clientSend _ | clientRecv _ | recv _ _ | reply _ _ | notify _ _ =>
    exact h.append _ (fun _ _ h => h) rfl
  | process running move => exact move.identified faithful running heard h
  | hangup _ => exact h.append _ (fun number hd hphase => by cases hphase) rfl
  | main move =>
    generalize conn.phase = phase at move
    cases move with
    | _ => exact h.append _ (fun number hd hphase => by cases hphase) rfl

/-- A step of the shared state keeps the networks of the handshakes. -/
lemma InnerStep.faithful {e : Option Event} {inner' : ServerInner} (step : InnerStep inner e inner')
    (h : inner.Faithful db) : inner'.Faithful db := by
  have modified : ∀ n f, (∀ net : VlinkNetwork, (f net).networkId = net.networkId) →
      (inner.modifyNetwork n f).Faithful db := by
    intro n f hf
    refine ⟨h.networkOf?, fun k net hk => ?_⟩
    rw [ServerInner.modifyNetwork, Map.lookup_modify] at hk
    split_ifs at hk with hn
    · obtain ⟨net₀, hnet₀, rfl⟩ := Option.map_eq_some_iff.mp hk
      rw [hf]
      exact h.number k net₀ (hn ▸ hnet₀)
    · exact h.number k net hk
  cases step with
  | same | clients _ | endpoints _ => exact ⟨h.networkOf?, h.number⟩
  | update updated => exact ⟨(Database.networkOf?_updateIp updated).trans h.networkOf?, h.number⟩
  | @load n env net absent loaded =>
    refine ⟨h.networkOf?, fun k net' hk => ?_⟩
    simp only [Map.lookup_set] at hk
    split_ifs at hk with hn
    · cases hk
      rw [hn]
      exact (ServerInner.loadNetwork_eq_ok loaded).1
    · exact h.number k net' hk
  | refresh _ _ | offline _ _ | connect _ _ _ => exact modified _ _ fun _ => rfl
  | @enter c id p info endpoints _ _ =>
    have entered : (inner.modifyPeer id fun p => { p with onlineInfo := some info }).Faithful db :=
      modified _ _ fun _ => rfl
    exact ⟨entered.networkOf?, entered.number⟩

end Steps

/-! ## Runs -/

section Runs

variable {db : Database} {info : ServerInfo} {guard : Server → Action → Prop} {tr : List Event}
  {s : Server} {c : ConnId} {conn : Conn}

/-- **Run lemma.** What waits in a connection was sent by its client. -/
lemma Server.Reaches.heard (run : s.Reaches db info guard tr) (hc : s.conns c = some conn) :
    conn.Heard tr c := by
  refine run.conns (J := fun tr c conn => Conn.Heard tr c conn) ?_ ?_ ?_ ?_ hc
  · intro tr s addr _
    exact ⟨by simp, by simp, by simp⟩
  · intro tr s c conn a m _ _ _ h step
    exact step.heard h
  · intro tr c conn origin data h
    exact h.same _ rfl rfl rfl
  · intro tr c conn evs h _
    exact h.same _ rfl rfl rfl

/-- **Run lemma.** A connection whose event loop has ended was closed. -/
lemma Server.Reaches.closed (run : s.Reaches db info guard tr) (hc : s.conns c = some conn)
    (shut : conn.isOpen = false) : .closed c ∈ tr := by
  refine run.conns (J := fun tr c conn => Conn.isOpen conn = false → Event.closed c ∈ tr)
    ?_ ?_ ?_ ?_ hc shut
  · intro tr s addr _ shut
    cases shut
  · intro tr s c conn a m _ _ _ h step shut
    exact step.closed h shut
  · intro tr c conn origin data h shut
    exact List.mem_append_left _ (h shut)
  · intro tr c conn evs h _ shut
    exact List.mem_append_left _ (h shut)

/-- **Run lemma.** The networks of the handshakes are those of the first tables. -/
lemma Server.Reaches.faithful (run : s.Reaches db info guard tr) : s.inner.Faithful db := by
  refine Run.invariant (I := fun _ s => (Server.inner s).Faithful db) ?_ ?_ run
  · exact ⟨rfl, fun n net h => by simp [Server.new] at h⟩
  · intro tr s a s' evs _ ih _ hstep
    exact (Server.step_inner hstep).1.faithful ih

/-- **Run lemma.** The identity of a connection was claimed by its client: the client has sent a
handshake with this public key, and for this network. -/
lemma Server.Reaches.identified (run : s.Reaches db info guard tr) (hc : s.conns c = some conn) :
    conn.Identified db tr c := by
  refine run.conns (J := fun tr c conn => Conn.Identified db tr c conn) ?_ ?_ ?_ ?_ hc
  · intro tr s addr _
    exact ⟨fun number h hphase => (by cases hphase), fun id hid => by cases hid⟩
  · intro tr s c conn a m run _ hc h step
    exact step.identified (Server.Reaches.faithful run) (Server.Reaches.heard run hc) h
  · intro tr c conn origin data h
    exact h.append _ (fun _ _ h => h) rfl
  · intro tr c conn evs h _
    exact h.append _ (fun _ _ h => h) rfl

end Runs

end Vlink.Headlink
