import Vlink.Headlink.Book
import Vlink.Headlink.Server
import Vlink.Headlink.View

set_option autoImplicit false

/-!
# The addresses that the head server hands out

`ReqConfig` chooses an address that no peer in the registry has, writes it to the database and
then to the registry, and other requests run in between. So two requests can choose the same
address. The server is an address book; if requests keep to the rules of the book, the addresses
of a network stay distinct, and every peer is told the address that is recorded for it.

## Main definitions

* `Vlink.Headlink.Server.book` — the address book of the server.
* `Vlink.Headlink.Server.configsApart` — the step keeps to the rules of the book for a network.

## Main results

* `Vlink.Headlink.Server.step_book` — such a step of the server is a step of the book.
* `Vlink.Headlink.addresses_distinct` — in every run with such steps, addresses are distinct and
  those handed out are recorded.
* `Vlink.Headlink.same_address_twice` — without the rules, two peers get one address.
-/

namespace Vlink.Headlink

/-! ## The address book of the server -/

/-- How far a handler has come with an address. -/
def Handler.stage : Handler → Option Stage
  | .configPeers self | .configIp self _ => some (.reading self.model)
  | .configUpdate self _ ip => some (.chosen self.model ip)
  | .configRefresh self _ ip => some (.written self.model ip)
  | .configTransports _ _ addr | .configEndpoints _ _ addr _ => some (.settled addr)
  | .configReply resp => some (.settled resp.address)
  | _ => none

/-- How far the handler has come after a section. -/
def Next.stage : Next → Option Stage
  | go h | push _ _ h => h.stage
  | _ => none

/-- The request of a connection. -/
def Conn.claim (conn : Conn) : Option (ClientId × Stage) :=
  match conn.phase with
  | .running (.handling id _ h) => h.stage.map (id, ·)
  | _ => none

/-- The copies of the rows in the registry. -/
def ServerInner.models (s : ServerInner) (id : ClientId) : Option PeerModel :=
  (s.peer? id).map (·.model)

/-- The address book of the server. -/
def Server.book (s : Server) : Book where
  db := s.inner.db
  models := s.inner.models
  claims c := (s.conns c).bind Conn.claim

/-- All requests meet the condition. -/
def Server.allClaims (s : Server) (p : ClientId → Stage → Bool) : Bool :=
  (List.range s.count).all fun c => (s.book.claims c).all fun x => p x.1 x.2

/-- The rules for the network `n`: a request reads the row of its peer only while no other request
for the peer is under way; an address is chosen only while no address of the network is chosen
and not yet in the registry; and no connection ends between the two writes. -/
def Server.configsApart (n : ℤ) (s : Server) : Action → Bool
  | .act c (.process _) =>
    match (s.conns c).map Conn.phase with
    | some (.running (.handling id _ .configSelf)) =>
      id.networkId ≠ n || s.allClaims fun id' st => id' ≠ id || st.model?.isNone
    | some (.running (.handling id _ (.configIp self _))) =>
      id.networkId ≠ n || self.model.ip.isSome ||
        s.allClaims fun id' st => id'.networkId ≠ n || !st.isPending
    | _ => true
  | .act c .hangup =>
    match s.book.claims c with
    | some (id, .written ..) => id.networkId ≠ n
    | _ => true
  | _ => true

/-- No two peers of the network have the same address. -/
def Database.DistinctIps (db : Database) (n : ℤ) : Prop :=
  ∀ m ∈ db.peers, ∀ m' ∈ db.peers, m.networkId = n → m'.networkId = n →
    m.ip.isSome → m.ip = m'.ip → m = m'

instance (db : Database) (n : ℤ) : Decidable (db.DistinctIps n) :=
  inferInstanceAs (Decidable (∀ m ∈ db.peers, ∀ m' ∈ db.peers, _ → _ → _ → _ → _))

/-! ## Steps of the server are steps of the book -/

namespace ServerInner

variable {s s' : ServerInner}

/-- Whether somebody is online does not matter for the copies. -/
lemma models_modifyPeer (id : ClientId) (info : Option OnlineInfo) :
    (s.modifyPeer id fun p => { p with onlineInfo := info }).models = s.models := by
  funext id'
  rw [models, peer?_modifyPeer]
  split_ifs with hid
  · rw [hid, Option.map_map]
    rfl
  · rfl

/-- Nor does the table of connections. -/
lemma models_addConnect (id : ClientId) (target proto : String) :
    (s.addConnect id target proto).models = s.models := by
  funext id'
  rw [models, peer?_addConnect]
  rfl

/-- The copies after one of them was replaced. -/
lemma models_refresh (id : ClientId) (m : PeerModel) (id' : ClientId) :
    (s.modifyPeer id fun p => { p with model := m }).models id' =
      if id' = id then (s.models id').map fun _ => m else s.models id' := by
  rw [models, peer?_modifyPeer]
  split_ifs with hid
  · rw [hid, models, Option.map_map, Option.map_map]
    rfl
  · rfl

end ServerInner

/-- `get_network` does nothing to the book, or loads a network. -/
lemma Book.Step.of_getNetwork {n n' : ℤ} {s s' : ServerInner} {env : Env} {net : VlinkNetwork}
    {claims : ConnId → Option (ClientId × Stage)} (h : s.getNetwork n' env = .ok (net, s')) :
    Book.Step n ⟨s.db, s.models, claims⟩ ⟨s'.db, s'.models, claims⟩ := by
  rcases ServerInner.getNetwork_eq_ok h with ⟨-, rfl⟩ | ⟨absent, loaded, rfl⟩
  · exact .skip
  · refine @Book.Step.load n ⟨s.db, s.models, claims⟩ n' _ (fun k => ?_) (fun k m => ?_)
      fun id hid => ?_
    · show (ServerInner.peer? s ⟨k, n'⟩).map _ = none
      rw [ServerInner.peer?, absent]
      rfl
    · have hpeer : ServerInner.peer? { s with networks := s.networks.insert n' net } ⟨k, n'⟩ =
          net.peers.lookup k := by
        simp only [ServerInner.peer?, Map.lookup_set, if_true, Option.bind_some]
      rw [ServerInner.models, hpeer, Option.map_eq_some_iff,
        (ServerInner.loadNetwork_eq_ok loaded).2.2]
      simp only [Database.lookup_new]
      constructor
      · rintro ⟨p, ⟨m', hm', hn, hk, rfl⟩, rfl⟩
        exact ⟨hm', hn, hk⟩
      · rintro ⟨hm, hn, hk⟩
        exact ⟨_, ⟨m, hm, hn, hk, rfl⟩, rfl⟩
    · simp only [ServerInner.models, ServerInner.peer?, Map.lookup_set, if_neg hid]

section Steps

variable {n : ℤ} {s s' : ServerInner} {id : ClientId} {c : ConnId} {env : Env}
  {claims : ConnId → Option (ClientId × Stage)}

/-- A request that is not between its two writes ends, or had not begun. -/
lemma Book.Step.end_of_ne {x : Option (ClientId × Stage)} (hc : claims c = x)
    (hx : ∀ id m ip, x ≠ some (id, .written m ip)) :
    Book.Step n ⟨s.db, s.models, claims⟩ ⟨s.db, s.models, Function.update claims c none⟩ :=
  .release (b := ⟨s.db, s.models, claims⟩) fun id m ip hw => absurd (hc.symm.trans hw) (hx id m ip)

/-- A request that goes on without anything new. -/
lemma Book.Step.skip_of_eq {x : Option (ClientId × Stage)} (hc : claims c = x) :
    Book.Step n ⟨s.db, s.models, claims⟩ ⟨s.db, s.models, Function.update claims c x⟩ := by
  rw [← hc, Function.update_eq_self]
  exact .skip

/-- A section of a handler is a step of the book. -/
lemma Handler.Step.book {h : Handler} {next : Next} {evs : List Event}
    (step : Handler.Step s id c env h s' next evs) (hc : claims c = h.stage.map (id, ·))
    (read : h = .configSelf → id.networkId = n → ∀ c' st, claims c' = some (id, st) →
      st.model? = none)
    (first : ∀ self peers, h = .configIp self peers → self.model.ip = none → id.networkId = n →
      ∀ c' id' st, claims c' = some (id', st) → id'.networkId = n → st.isPending = false) :
    Book.Step n ⟨s.db, s.models, claims⟩
      ⟨s'.db, s'.models, Function.update claims c (next.stage.map (id, ·))⟩ := by
  cases step with
  | enterLoad network | configLoad network =>
    rw [show Next.stage _ = none from rfl, Option.map_none, ← show claims c = none from hc,
      Function.update_eq_self]
    exact .of_getNetwork network
  | configSelf found =>
    refine .read (b := ⟨s.db, s.models, claims⟩) hc ?_ (read rfl)
    show (s.peer? id).map _ = _
    rw [found, Option.map_some]
  | @choose self peers net ip network unset free =>
    refine .choose (b := ⟨s.db, s.models, claims⟩) hc unset (fun k m' hm => ?_)
      (first self peers rfl unset)
    obtain ⟨p, hp, rfl⟩ := Option.map_eq_some_iff.mp hm
    rw [ServerInner.peer?, network, Option.bind_some] at hp
    exact generateIp_eq_ok free hp
  | keep set parsed => exact .accept (b := ⟨s.db, s.models, claims⟩) hc set parsed
  | update updated => exact .write (b := ⟨s.db, s.models, claims⟩) hc updated
  | refresh network =>
    exact .refresh (b := ⟨s.db, s.models, claims⟩) hc fun id' => ServerInner.models_refresh _ _ id'
  | configPeers _ | transports | endpoints _ => exact .skip_of_eq hc
  | @enter m _ _ _ =>
    show Book.Step n _ ⟨s.db, (s.modifyPeer id fun p => { p with
      onlineInfo := some ⟨c, m.port, m.endpointAddr, s.endpoints.length⟩ }).models, _⟩
    rw [ServerInner.models_modifyPeer]
    exact .end_of_ne hc (by simp [stage])
  | leave _ =>
    rw [ServerInner.models_modifyPeer]
    exact .end_of_ne hc (by simp [stage])
  | connected _ =>
    rw [ServerInner.models_addConnect]
    exact .end_of_ne hc (by simp [stage])
  | endpointInsert _ => exact .end_of_ne (s := s) hc (by simp [stage])
  | _ => exact .end_of_ne hc (by simp [stage])

/-- A step that may load a network, of a connection without a request. -/
lemma Book.Step.load_of_none {n' : ℤ} {net : VlinkNetwork} (hc : claims c = none)
    (h : s.getNetwork n' env = .ok (net, s')) : Book.Step n ⟨s.db, s.models, claims⟩
      ⟨s'.db, s'.models, Function.update claims c none⟩ := by
  rw [← hc, Function.update_eq_self]
  exact .of_getNetwork h

/-- A section of the handshake is a step of the book. -/
lemma HandshakeTask.Step.book {cell cell' : Option ClientId} {h : HandshakeTask}
    {next : HandshakeNext} (step : HandshakeTask.Step s cell env h s' cell' next)
    (hc : claims c = none) :
    Book.Step n ⟨s.db, s.models, claims⟩ ⟨s'.db, s'.models, Function.update claims c none⟩ := by
  rcases step.eq_or_getNetwork with rfl | ⟨n', net, hnet⟩
  · exact .skip_of_eq hc
  · exact .load_of_none hc hnet

/-- A request that is taken up has not read anything yet. -/
lemma Conn.claim_taskFor (conn : Conn) (m : ToServer) :
    (conn.goto (taskFor id m)).claim = none := by
  unfold taskFor
  cases m.toServerData with
  | none => rfl
  | some data => cases data <;> rfl

/-- A section of `process_client` is a step of the book. -/
lemma Conn.ProcessStep.book {conn : Conn} {task : Task} {m : Move}
    (move : ProcessStep s c conn env task m) (running : conn.phase = .running task)
    (hc : claims c = conn.claim)
    (read : ∀ id number, task = .handling id number .configSelf → id.networkId = n →
      ∀ c' st, claims c' = some (id, st) → st.model? = none)
    (first : ∀ id number self peers, task = .handling id number (.configIp self peers) →
      self.model.ip = none → id.networkId = n →
      ∀ c' id' st, claims c' = some (id', st) → id'.networkId = n → st.isPending = false) :
    Book.Step n ⟨s.db, s.models, claims⟩
      ⟨m.inner.db, m.inner.models, Function.update claims c m.conn.claim⟩ := by
  rw [claim, running] at hc
  cases move with
  | hello | await _ | begin _ _ | refuse _ _ | reply | welcome _ | subscribe | fail | resume _ =>
    exact .skip_of_eq hc
  | handshake hstep | handshaken hstep => exact hstep.book hc
  | ready network => exact .load_of_none hc network
  | dispatch took =>
    rw [claim_taskFor]
    exact .skip_of_eq hc
  | @handle id number h _ next _ hstep =>
    have hclaim : (conn.goto (next.task id number (conn.pushed + 1))).claim =
        next.stage.map (id, ·) := by
      cases next <;> rfl
    rw [hclaim]
    exact hstep.book hc (fun heq => read id number (by rw [heq]))
      fun self peers heq => first id number self peers (by rw [heq])
  | stop idle =>
    refine .end_of_ne hc fun id m ip heq => ?_
    cases task with
    | handling id number h => exact idle _ _ _ rfl
    | _ => cases heq

/-- What the task of a connection does outside its event loop is a step of the book. -/
lemma Conn.MainStep.book {conn : Conn} {conns : ConnId → Option Conn} {phase : Phase} {m : Move}
    (move : MainStep s c conn env conns phase m) (hphase : conn.phase = phase)
    (hc : claims c = conn.claim) :
    Book.Step n ⟨s.db, s.models, claims⟩
      ⟨m.inner.db, m.inner.models, Function.update claims c m.conn.claim⟩ := by
  rw [claim, hphase] at hc
  cases move with
  | start | unlisted _ | remove _ | unknown _ _ _ | identify _ _ _ | lost | leave _ | finish _
  | send _ => exact .skip_of_eq (s := s) hc
  | load network => exact .load_of_none hc network
  | offline =>
    rw [ServerInner.models_modifyPeer]
    exact .skip_of_eq hc

end Steps

/-- The request of the connection that takes a step goes on; the others stay where they are. -/
lemma Server.After.claims {s s' : Server} {c : ConnId} {m : Move} {post : List Event}
    (h : Server.After s c m s' post) :
    s'.book.claims = Function.update s.book.claims c m.conn.claim := by
  funext x
  have hmap := h.map_conns (f := Conn.claim) (fun _ _ _ => rfl) x
  have hbind : ∀ o : Option Conn, o.bind Conn.claim = (o.map Conn.claim).join := by
    intro o
    cases o <;> rfl
  rw [Function.update_apply]
  show (s'.conns x).bind Conn.claim = _
  rw [hbind, hmap]
  split_ifs
  · rfl
  · exact (hbind _).symm

/-- What a check of all requests says. -/
lemma Server.claim_of_allClaims {s : Server} {p : ClientId → Stage → Bool}
    (hs : ∀ x, (s.conns x).isSome ↔ x < s.count) (h : s.allClaims p = true) {c : ConnId}
    {id : ClientId} {st : Stage} (hc : s.book.claims c = some (id, st)) : p id st = true := by
  obtain ⟨conn, hconn, -⟩ := Option.bind_eq_some_iff.mp hc
  have hlt : c < s.count := (hs c).mp (by rw [hconn]; rfl)
  have hall := List.all_eq_true.mp h c (List.mem_range.mpr hlt)
  rw [hc, Option.all_some] at hall
  exact hall

/-- A step of the server that keeps to the rules is a step of the book.

**Proof sketch.** The sections of `ReqConfig` are steps of the book, and so is loading a network.
What ends a connection releases its request. -/
theorem Server.step_book {n : ℤ} {s s' : Server} {a : Action} {evs : List Event}
    (hs : ∀ x, (s.conns x).isSome ↔ x < s.count) (ok : s.configsApart n a = true)
    (h : s.step a = some (s', evs)) : Book.Step n s.book s'.book := by
  cases a with
  | accept addr =>
    cases h
    have hclaims : (fun c => (Function.update s.conns s.count (some { addr }) c).bind Conn.claim) =
        s.book.claims := by
      funext c
      rw [Function.update_apply]
      split_ifs with hcount
      · have hnone : s.conns s.count = none := by
          rw [← Option.not_isSome_iff_eq_none, hs]
          exact lt_irrefl _
        show none = (s.conns c).bind Conn.claim
        rw [hcount, hnone, Option.bind_none]
      · rfl
    show Book.Step n s.book ⟨s.inner.db, s.inner.models, _⟩
    rw [hclaims]
    exact .skip
  | act c a =>
    obtain ⟨conn, m, post, hconn, hact, rfl, after⟩ := step_act h
    have hc : s.book.claims c = conn.claim := by
      show (s.conns c).bind Conn.claim = _
      rw [hconn, Option.bind_some]
    have hbook : s'.book = ⟨m.inner.db, m.inner.models,
        Function.update s.book.claims c m.conn.claim⟩ := by
      rw [← after.claims, ← after.inner]
      rfl
    rw [hbook]
    show Book.Step n ⟨s.inner.db, s.inner.models, s.book.claims⟩ _
    cases Conn.act_step hact with
    | clientSend _ | clientRecv _ | recv _ _ | reply _ _ | notify _ _ => exact .skip_of_eq hc
    | hangup running =>
      refine .release (b := s.book) fun id m ip hw => ?_
      simpa [configsApart, hw] using ok
    | process running move =>
      refine move.book running hc ?_ ?_
      · rintro id number rfl hn c' st hc'
        simp only [configsApart, hconn, Option.map_some, running, hn, ne_eq, not_true_eq_false,
          decide_false, Bool.false_or] at ok
        simpa using claim_of_allClaims hs ok hc'
      · rintro id number self peers rfl unset hn c' id' st hc' hn'
        simp only [configsApart, hconn, Option.map_some, running, hn, ne_eq, not_true_eq_false,
          decide_false, Bool.false_or, unset, Option.isSome_none] at ok
        simpa [hn'] using claim_of_allClaims hs ok hc'
    | main move => exact move.book rfl hc

/-! ## Addresses are distinct -/

/-- The configuration is built from what the request settled on. -/
lemma Server.claim_of_configured {s s' : Server} {a : Action} {evs : List Event} {c : ConnId}
    {id : ClientId} {addr : Ipv4Addr} (h : s.step a = some (s', evs))
    (he : .configured c id addr ∈ evs) : s.book.claims c = some (id, .settled addr) := by
  obtain ⟨c₀, act, conn, m, rfl, hconn, hstep, he⟩ := step_of_mem h he (by simp) (by simp)
  cases hstep with
  | clientSend _ | clientRecv _ | reply _ _ | notify _ _ | hangup _ =>
    cases List.mem_singleton.mp he
  | recv _ _ => cases he
  | process running move =>
    cases move with
    | hello | await _ | begin _ _ | handshake _ | reply | welcome _ | subscribe | ready _ | fail
    | resume _ => cases he
    | refuse _ _ | handshaken _ | dispatch _ | stop _ => cases List.mem_singleton.mp he
    | handle hstep =>
      cases hstep with
      | enter _ _ | leave _ | connected _ => cases List.mem_singleton.mp he
      | configured =>
        cases List.mem_singleton.mp he
        show (s.conns c).bind Conn.claim = _
        rw [hconn, Option.bind_some, Conn.claim, running]
        rfl
      | _ => cases he
  | main move =>
    generalize conn.phase = phase at move
    cases move with
    | offline => cases List.mem_singleton.mp he
    | _ => cases he

section Runs

variable {db : Database} {info : ServerInfo} {n : ℤ} {tr : List Event} {s : Server}

/-- The book of a new server is in order, if the addresses in the database are distinct. -/
lemma Server.inv_new (h : db.DistinctIps n) : (Server.new db info).book.Inv n where
  keyed := by constructor <;> intros <;> contradiction
  orderly := by constructor <;> intros <;> contradiction
  distinct := by
    constructor
    · intro r r' text hr hr' hn hn' hip hip'
      exact h r hr r' hr' hn hn' (by simp [hip]) (hip.trans hip'.symm)
    all_goals intros; contradiction

/-- In every run with such steps, the book is in order, and the addresses that were handed out are
recorded. -/
lemma Server.Reaches.book (h : db.DistinctIps n)
    (run : s.Reaches db info (fun s a => s.configsApart n a = true) tr) :
    s.book.Inv n ∧ ∀ c k addr, .configured c ⟨k, n⟩ addr ∈ tr → s.book.Recorded ⟨k, n⟩ addr := by
  refine Run.invariant (I := fun tr s => (Server.book s).Inv n ∧
    ∀ c k addr, .configured c ⟨k, n⟩ addr ∈ tr → s.book.Recorded ⟨k, n⟩ addr)
    ⟨inv_new h, by simp⟩ ?_ run
  rintro tr s a s' evs run ⟨inv, recorded⟩ ok h
  have step := Server.step_book (Server.Reaches.isSome_conns run) ok h
  refine ⟨step.inv inv, fun c k addr hmem => ?_⟩
  refine step.recorded inv.keyed inv.orderly inv.distinct ?_
  rcases List.mem_append.mp hmem with hmem | hmem
  · exact recorded c k addr hmem
  · exact inv.distinct.settled (Server.claim_of_configured h hmem)

/-- In every run that starts with distinct addresses in the network and in which the requests for
configurations keep to the rules: no two rows and no two peers of the registry have the same
address, and each address that was handed out is the one that is recorded for the peer, in the
registry and in the database.

**Proof sketch.** All of it is read off the invariant of the book of requests,
`Server.Reaches.book`. -/
theorem addresses_distinct (h : db.DistinctIps n)
    (run : s.Reaches db info (fun s a => s.configsApart n a = true) tr) :
    s.inner.db.DistinctIps n ∧
    (∀ k k' p p' text, s.inner.peer? ⟨k, n⟩ = some p → s.inner.peer? ⟨k', n⟩ = some p' →
      p.model.ip = some text → p'.model.ip = some text → k = k') ∧
    ∀ c k addr, .configured c ⟨k, n⟩ addr ∈ tr → ∃ p text, s.inner.peer? ⟨k, n⟩ = some p ∧
      p.model ∈ s.inner.db.peers ∧ p.model.ip = some text ∧ Ipv4Addr.parse text = some addr := by
  obtain ⟨inv, recorded⟩ := run.book h
  refine ⟨?_, ?_, ?_⟩
  · intro m hm m' hm' hn hn' hsome hip
    obtain ⟨text, htext⟩ := Option.isSome_iff_exists.mp hsome
    exact inv.distinct.rows hm hm' hn hn' htext (hip.symm.trans htext)
  · intro k k' p p' text hp hp' hip hip'
    have model : ∀ {k p}, s.inner.peer? ⟨k, n⟩ = some p → s.book.models ⟨k, n⟩ = some p.model := by
      intro k p hp
      show (s.inner.peer? ⟨k, n⟩).map _ = _
      rw [hp, Option.map_some]
    exact inv.models_distinct (model hp) (model hp') hip hip'
  · intro c k addr hmem
    obtain ⟨m, text, hm, hrow, hip, hparse⟩ := recorded c k addr hmem
    obtain ⟨p, hp, rfl⟩ := Option.map_eq_some_iff.mp hm
    exact ⟨p, text, hp, hrow, hip, hparse⟩

end Runs

section Examples

open Sample

/-- One peer after the other asks for its configuration. -/
theorem addresses_distinct_sample :
    ∃ s tr, Server.Reaches s db info (fun s a => s.configsApart 1 a = true) tr ∧
      s.inner.db.DistinctIps 1 ∧
      ∃ p text, s.inner.peer? idB = some p ∧ p.model ∈ s.inner.db.peers ∧
        p.model.ip = some text ∧ Ipv4Addr.parse text = some (Ipv4Addr.ofOctets 10 0 0 3) := by
  obtain ⟨s, tr, run, hcheck⟩ := exists_run_of_exec (checked Server.step (Server.configsApart 1))
    (admission 0 keyA ++ admission 1 keyB ++ configuration 0 2 ++ configuration 1 2)
    start (fun r => decide (.configured 1 idB (Ipv4Addr.ofOctets 10 0 0 3) ∈ r.2))
    (by decide +kernel)
  have h := addresses_distinct (n := 1) (by decide +kernel) run.of_checked
  exact ⟨s, tr, run.of_checked, h.1, h.2.2 1 keyB _ (of_decide_eq_true hcheck)⟩

/-- Two peers ask for their configurations at the same time. Both are given the same address, which
is recorded for both of them. -/
theorem same_address_twice :
    db.DistinctIps 1 ∧ ∃ s tr p p', Server.Reaches s db info (fun _ _ => True) tr ∧
      s.inner.peer? idA = some p ∧ s.inner.peer? idB = some p' ∧ idA ≠ idB ∧
      p.model.ip = some "10.0.0.2" ∧ p'.model.ip = some "10.0.0.2" ∧
      ¬ s.inner.db.DistinctIps 1 := by
  refine ⟨by decide +kernel, ?_⟩
  obtain ⟨s, tr, run, hcheck⟩ := exists_run_of_exec Server.step
    (admission 0 keyA ++ admission 1 keyB ++ say 0 2 .reqConfig ++ List.replicate 5 (go 0) ++
      say 1 2 .reqConfig ++ List.replicate 5 (go 1) ++ List.replicate 5 (go 0) ++
      List.replicate 5 (go 1))
    start (fun r =>
      (r.1.inner.peer? idA).any (fun p : VlinkPeer => decide (p.model.ip = some "10.0.0.2")) &&
      (r.1.inner.peer? idB).any (fun p : VlinkPeer => decide (p.model.ip = some "10.0.0.2")) &&
      decide (¬ r.1.inner.db.DistinctIps 1)) (by decide +kernel)
  simp only [Bool.and_eq_true, decide_eq_true_eq, Option.any_eq_true] at hcheck
  obtain ⟨⟨⟨p, hp, hip⟩, p', hp', hip'⟩, hrows⟩ := hcheck
  exact ⟨s, tr, p, p', run, hp, hp', by decide +kernel, hip, hip', hrows⟩

end Examples

end Vlink.Headlink
