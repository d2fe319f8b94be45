import Vlink.Headlink.Broadcasts
import Vlink.Headlink.Letters
import Vlink.Headlink.Server

set_option autoImplicit false

/-!
# Networks are kept apart

One server serves many networks, and all handlers send through the connections of other clients.
Whatever reaches a client on the server's own account was issued in the network that the client has
entered, for an audience that the client belongs to. It comes from a request of a client that was
admitted to that network, or from the end of a connection whose client had sent a handshake for that
network. The latter need not have been admitted: a second connection that is refused because its
peer is online leaves in the name of the peer, too.

## Main definitions

* `Vlink.Headlink.Requested` — a client that was admitted has made a request.
* `Vlink.Headlink.Issued` — what a broadcast can come from: the network, the audience and the
  message.
* `Vlink.Headlink.Phase.Backed` — the trace accounts for what a connection is about to send.

## Main results

* `Vlink.Headlink.Server.Reaches.backed` — in every run.
* `Vlink.Headlink.notices_issued` — each notice in a send queue was issued for the client, in its
  network.
-/

namespace Vlink.Headlink

/-! ## What broadcasts come from -/

/-- The client that was admitted as `id` on the connection `c` has made the request. -/
structure Requested (tr : List Event) (c : ConnId) (id : ClientId) (data : ToServerData) :
    Prop where
  admitted : .handshaken c (.ok id) ∈ tr
  dispatched : ∃ number, .clientSent c ⟨number, some data⟩ ∈ tr ∧
    .dispatched c ⟨number, some data⟩ ∈ tr

/-- What a broadcast in the network `n` comes from. -/
inductive Issued (db : Database) (tr : List Event) : (n : ℤ) → Audience → ToClientData → Prop
  | enter {c : ConnId} {id : ClientId} {m : PeerEnter} (req : Requested tr c id (.peerEnter m)) :
      Issued db tr id.networkId (.except id.pubKey) (enterNotice id.pubKey m)
  | leave {c : ConnId} {id : ClientId} (req : Requested tr c id .peerLeave) :
      Issued db tr id.networkId (.except id.pubKey) (leaveNotice id.pubKey)
  /-- The connection has ended, whether or not its client was admitted. -/
  | ended {c : ConnId} {id : ClientId} (claimed : Claimed db tr c id) (closed : .closed c ∈ tr) :
      Issued db tr id.networkId (.except id.pubKey) (leaveNotice id.pubKey)
  | forward {c : ConnId} {id : ClientId} {target : String} {r : RequireReply}
      (req : Requested tr c id (.peerForward ⟨target, some r⟩)) :
      Issued db tr id.networkId (.only [target]) (.requireReply r)
  | endpoint {c : ConnId} {id : ClientId} {m : ExtraEndpoint} {keys : List String}
      (req : Requested tr c id (.updateExtraEndpoint m)) (others : id.pubKey ∉ keys) :
      Issued db tr id.networkId (.only keys) (.updateExtraEndpoint ⟨id.pubKey, m.proto, m.endpoint⟩)

/-- The message was issued in a network that all these connections have entered, for an audience
that they belong to. -/
def SentTo (db : Database) (tr : List Event) (targets : List ConnId) (data : ToClientData) :
    Prop :=
  ∃ n audience, Issued db tr n audience data ∧
    ∀ x ∈ targets, ∃ k, audience.includes k = true ∧ .entered x ⟨k, n⟩ ∈ tr

/-- The trace accounts for a handler of the client `id` at the connection `c`. -/
def Handler.Backed (db : Database) (tr : List Event) (c : ConnId) (id : ClientId) :
    Handler → Prop
  | .enterLoad m | .enterWrite m => Requested tr c id (.peerEnter m)
  | .leaveWrite => Requested tr c id .peerLeave
  | .forward m => Requested tr c id (.peerForward m)
  | .endpointSelf m => Requested tr c id (.updateExtraEndpoint m)
  | .endpointInsert m self | .endpointAudience m self =>
    Requested tr c id (.updateExtraEndpoint m) ∧ self.pubKey = id.pubKey
  | .endpointLook m self rest keys => Requested tr c id (.updateExtraEndpoint m) ∧
    self.pubKey = id.pubKey ∧ id.pubKey ∉ rest ∧ id.pubKey ∉ keys
  | .broadcast audience data => Issued db tr id.networkId audience data
  | .sending targets data => SentTo db tr targets data
  | .configLoad | .configSelf | .configPeers _ | .configIp _ _ | .configUpdate _ _ _
  | .configRefresh _ _ _ | .configTransports _ _ _ | .configEndpoints _ _ _ _ | .configReply _ =>
    Requested tr c id .reqConfig
  | .connected _ => True

/-- The trace accounts for what a connection is about to send. -/
def Phase.Backed (db : Database) (tr : List Event) (c : ConnId) : Phase → Prop
  | .running (.handling id _ h) => h.Backed db tr c id
  | .loading c' id | .offline c' id => Claimed db tr c' id ∧ .closed c' ∈ tr
  | .leaving id => Issued db tr id.networkId (.except id.pubKey) (leaveNotice id.pubKey)
  | .sending targets data => SentTo db tr targets data
  | _ => True

section Append

variable {db : Database} {tr : List Event} {c : ConnId} {id : ClientId}

/-- More events change nothing. -/
lemma Requested.append {data : ToServerData} (h : Requested tr c id data) (evs : List Event) :
    Requested (tr ++ evs) c id data := by
  obtain ⟨number, hsent, hmem⟩ := h.dispatched
  exact ⟨List.mem_append_left _ h.admitted, number, List.mem_append_left _ hsent,
    List.mem_append_left _ hmem⟩

/-- More events change nothing. -/
lemma Issued.append {n : ℤ} {audience : Audience} {data : ToClientData}
    (h : Issued db tr n audience data) (evs : List Event) :
    Issued db (tr ++ evs) n audience data := by
  cases h with
  | enter req => exact .enter (req.append evs)
  | leave req => exact .leave (req.append evs)
  | ended claimed closed => exact .ended (claimed.append evs) (List.mem_append_left _ closed)
  | forward req => exact .forward (req.append evs)
  | endpoint req others => exact .endpoint (req.append evs) others

/-- More events change nothing. -/
lemma SentTo.append {targets : List ConnId} {data : ToClientData}
    (h : SentTo db tr targets data) (evs : List Event) : SentTo db (tr ++ evs) targets data := by
  obtain ⟨n, audience, issued, entered⟩ := h
  refine ⟨n, audience, issued.append evs, fun x hx => ?_⟩
  obtain ⟨k, hk, hmem⟩ := entered x hx
  exact ⟨k, hk, List.mem_append_left _ hmem⟩

/-- Fewer targets remain. -/
lemma SentTo.eraseIdx {targets : List ConnId} {data : ToClientData}
    (h : SentTo db tr targets data) (i : ℕ) : SentTo db tr (targets.eraseIdx i) data := by
  obtain ⟨n, audience, issued, entered⟩ := h
  exact ⟨n, audience, issued, fun x hx => entered x (List.mem_of_mem_eraseIdx hx)⟩

/-- More events change nothing. -/
lemma Handler.Backed.append {h : Handler} (hb : h.Backed db tr c id) (evs : List Event) :
    h.Backed db (tr ++ evs) c id := by
  cases h with
  | enterLoad | enterWrite | leaveWrite | forward | endpointSelf | configLoad | configSelf
  | configPeers | configIp | configUpdate | configRefresh | configTransports | configEndpoints
  | configReply => exact Requested.append hb evs
  | endpointInsert | endpointAudience | endpointLook => exact ⟨Requested.append hb.1 evs, hb.2⟩
  | broadcast => exact Issued.append hb evs
  | sending => exact SentTo.append hb evs
  | connected => trivial

/-- More events change nothing. -/
lemma Phase.Backed.append {phase : Phase} (h : phase.Backed db tr c) (evs : List Event) :
    phase.Backed db (tr ++ evs) c := by
  cases phase with
  | running task =>
    cases task with
    | handling id number hd => exact Handler.Backed.append h evs
    | _ => trivial
  | loading c' id | offline c' id =>
    exact ⟨Claimed.append h.1 evs, List.mem_append_left _ h.2⟩
  | leaving id => exact Issued.append h evs
  | sending targets data => exact SentTo.append h evs
  | _ => trivial

end Append

/-! ## Steps -/

/-- A peer is not among the others. -/
lemma notMem_onlineOthers (net : VlinkNetwork) (pubKey : String) :
    pubKey ∉ onlineOthers net pubKey := by
  intro hmem
  obtain ⟨e, -, he⟩ := List.mem_filterMap.mp hmem
  split_ifs at he with hself
  cases he
  exact hself (.inl rfl)

/-- Only the peer that is looked at can be added to those that are told. -/
lemma nextBroadTo_subset (net : VlinkNetwork) (pubKey : String) (isDefault : Bool) (k : String)
    (keys : List String) : nextBroadTo net pubKey isDefault k keys ⊆ keys ++ [k] := by
  unfold nextBroadTo
  split
  · split_ifs
    · exact List.Subset.refl _
    · exact List.subset_append_left ..
  · exact List.subset_append_left ..

section Runs

variable {db : Database} {info : ServerInfo} {guard : Server → Action → Prop} {tr : List Event}
  {s : Server} {c : ConnId} {conn : Conn} {id : ClientId}

/-- The registry has each peer under its own key. -/
lemma Server.Reaches.pubKey_of_peer (run : s.Reaches db info guard tr) {p : VlinkPeer}
    (h : s.inner.peer? id = some p) : p.pubKey = id.pubKey := by
  refine Run.invariant (I := fun _ s => ∀ id p, (Server.inner s).peer? id = some p →
    p.pubKey = id.pubKey) (fun id p h => ?_) ?_ run id p h
  · simp [Server.new, ServerInner.peer?] at h
  intro tr s a s' evs _ ih _ hstep id p h
  have modified : ∀ id' f, (∀ p : VlinkPeer, (f p).pubKey = p.pubKey) →
      (s.inner.modifyPeer id' f).peer? id = some p → p.pubKey = id.pubKey := by
    intro id' f hf h
    rw [ServerInner.peer?_modifyPeer] at h
    split_ifs at h with hid
    · obtain ⟨q, hq, rfl⟩ := Option.map_eq_some_iff.mp h
      rw [hf, hid]
      exact ih id' q hq
    · exact ih id p h
  have hinner := (Server.step_inner hstep).1
  generalize s.change a = e, s'.inner = inner' at hinner h
  cases hinner with
  | same | clients _ | endpoints _ | update _ => exact ih id p h
  | @load n env net absent loaded =>
    simp only [ServerInner.peer?, Map.lookup_set] at h
    split_ifs at h with hn
    · rw [Option.bind_some, (ServerInner.loadNetwork_eq_ok loaded).2.2, Database.lookup_new] at h
      obtain ⟨m, -, -, hkey, rfl⟩ := h
      exact hkey
    · exact ih id p h
  | refresh n model => exact modified _ (fun p => { p with model }) (fun _ => rfl) h
  | @enter c id' q info endpoints found own =>
    exact modified id' (fun p => { p with onlineInfo := some info }) (fun _ => rfl) h
  | offline c id' => exact modified id' (fun p => { p with onlineInfo := none }) (fun _ => rfl) h
  | connect target proto _ =>
    rw [ServerInner.peer?_addConnect] at h
    exact ih id p h

/-- The connections that a broadcast goes to have entered the network. -/
lemma Server.Reaches.sentTo (run : s.Reaches db info guard tr) {n : ℤ} {net : VlinkNetwork}
    {audience : Audience} {data : ToClientData} (network : s.inner.networks.lookup n = some net)
    (issued : Issued db tr n audience data) : SentTo db tr (net.targets audience) data := by
  refine ⟨n, audience, issued, fun x hx => ?_⟩
  obtain ⟨k, online, hk, hpresence, rfl⟩ := ServerInner.exists_of_mem_targets network hx
  exact ⟨k, hk, run.entered_of_presence hpresence⟩

/-- A section of a handler. -/
theorem Handler.Step.backed (run : s.Reaches db info guard tr) {s' : ServerInner} {env : Env}
    {h : Handler} {next : Next} {evs : List Event} (hb : h.Backed db tr c id)
    (step : Handler.Step s.inner id c env h s' next evs) (number ticket : ℕ) :
    (Phase.running (next.task id number ticket)).Backed db (tr ++ evs) c := by
  cases step with
  | enterLoad _ | configLoad _ | configSelf _ | configPeers _ | choose _ _ _ | keep _ _ | update _
  | refresh _ | transports | endpoints _ => exact Requested.append hb _
  | enter _ _ => exact .enter (Requested.append hb _)
  | leave _ => exact .leave (Requested.append hb _)
  | broadcast network => exact (run.sentTo network hb).append _
  | send _ => exact (SentTo.eraseIdx hb _).append _
  | @forward m r data =>
    obtain ⟨target, data'⟩ := m
    cases data
    exact .forward (Requested.append hb _)
  | endpointSelf found => exact ⟨Requested.append hb _, run.pubKey_of_peer found⟩
  | endpointSkip _ | endpointInsert _ => exact ⟨Requested.append hb.1 _, hb.2⟩
  | @endpointAudience m self net network =>
    exact ⟨Requested.append hb.1 _, hb.2, notMem_onlineOthers net id.pubKey, List.not_mem_nil⟩
  | endpointLook network =>
    obtain ⟨req, own, hrest, hkeys⟩ := hb
    rw [List.mem_cons, not_or] at hrest
    refine ⟨req.append _, own, hrest.2, fun hmem => ?_⟩
    rcases List.mem_append.mp (nextBroadTo_subset _ _ _ _ _ hmem) with hmem | hmem
    · exact hkeys hmem
    · exact hrest.1 (List.mem_singleton.mp hmem)
  | @endpointTell m self keys =>
    obtain ⟨req, own, -, hkeys⟩ := hb
    show Issued _ _ _ _ (.updateExtraEndpoint ⟨self.pubKey, m.proto, m.endpoint⟩)
    rw [own]
    exact .endpoint (req.append _) hkeys
  | _ => trivial

/-- A step of a connection. -/
theorem Conn.Step.backed {a : ConnAction} {m : Move} (run : s.Reaches db info guard tr)
    (hc : s.conns c = some conn) (h : conn.phase.Backed db tr c)
    (step : Conn.Step s.inner c conn s.conns a m) : m.conn.phase.Backed db (tr ++ m.events) c := by
  have admitted := (run.told hc).id
  cases step with
  | clientSend _ | clientRecv _ | recv _ _ | reply _ _ | notify _ _ => exact h.append _
  | hangup _ => trivial
  | process running move =>
    rw [running] at h admitted
    cases move with
    | @dispatch id m rest took =>
      -- the request of a client that was admitted
      have requested : ∀ data, m.toServerData = some data →
          Requested (tr ++ [.dispatched c m]) c id data := by
        intro data hdata
        obtain ⟨r, hr, hmem, -⟩ := took_item took
        have hsent := (run.heard hc).recv r hr m hmem
        obtain ⟨number, _⟩ := m
        cases hdata
        exact ⟨List.mem_append_left _ (admitted id rfl), number, List.mem_append_left _ hsent,
          by simp⟩
      show (Phase.running (taskFor id m)).Backed db _ c
      unfold taskFor
      cases hdata : m.toServerData with
      | none => trivial
      | some data =>
        cases data with
        | peerEnter | peerLeave | peerForward | updateExtraEndpoint | reqConfig =>
          exact requested _ hdata
        | _ => trivial
    | handle hstep => exact hstep.backed run h _ _
    | _ => trivial
  | main move =>
    generalize conn.phase = phase at move h
    cases move with
    | @identify c' conn' id other shut set =>
      -- the connection that is tidied up after has ended, and its client has claimed the identity
      exact ⟨((run.identified other).cell id set).append _,
        List.mem_append_left _ (run.closed other shut)⟩
    | load _ => exact ⟨Claimed.append h.1 _, List.mem_append_left _ h.2⟩
    | @offline c' id => exact .ended (Claimed.append h.1 _) (List.mem_append_left _ h.2)
    | leave network => exact (run.sentTo network h).append _
    | send _ => exact (SentTo.eraseIdx h _).append _
    | _ => trivial

/-- **Run lemma.** The trace accounts for what the connections are about to send. -/
theorem Server.Reaches.backed (run : s.Reaches db info guard tr) (hc : s.conns c = some conn) :
    conn.phase.Backed db tr c := by
  refine run.conns (J := fun tr c conn => Phase.Backed db tr c (Conn.phase conn)) ?_ ?_ ?_ ?_ hc
  · intro tr s addr _
    trivial
  · intro tr s c conn a m run _ hc h step
    exact step.backed run hc h
  · intro tr c conn origin data h
    exact h.append _
  · intro tr c conn evs h _
    exact h.append _

/-- A notice is sent by a broadcast. -/
lemma Conn.Step.sentTo {a : ConnAction} {m : Move} (h : conn.phase.Backed db tr c)
    (step : Conn.Step s.inner c conn s.conns a m) {l : Letter} (hsend : m.send = some l)
    (hnotice : l.data.isNotice = true) : SentTo db tr [l.dst] l.data := by
  have one : ∀ {targets data dst} {i : ℕ}, SentTo db tr targets data → targets[i]? = some dst →
      SentTo db tr [dst] data := by
    rintro targets data dst i ⟨n, audience, issued, entered⟩ hi
    refine ⟨n, audience, issued, fun x hx => ?_⟩
    rw [List.mem_singleton.mp hx]
    exact entered dst (List.mem_of_getElem? hi)
  cases step with
  | clientSend _ | clientRecv _ | recv _ _ | reply _ _ | notify _ _ | hangup _ => cases hsend
  | process running move =>
    rw [running] at h
    cases move with
    | hello =>
      cases hsend
      cases hnotice
    | @reply _ result =>
      cases hsend
      cases result <;> cases hnotice
    | @fail _ _ e =>
      cases hsend
      cases hnotice
    | handle hstep =>
      cases hstep with
      | send next =>
        cases hsend
        exact one h next
      | configured =>
        cases hsend
        cases hnotice
      | _ => cases hsend
    | _ => cases hsend
  | main move =>
    generalize conn.phase = phase at move h
    cases move with
    | send next =>
      cases hsend
      exact one h next
    | _ => cases hsend

/-- Messages are put in a send queue after everything else. -/
lemma Conn.Step.pushed_notMem {a : ConnAction} {m : Move}
    (step : Conn.Step s.inner c conn s.conns a m) (x : ConnId) (origin : Option ℕ)
    (data : ToClientData) : .pushed x origin data ∉ m.events := by
  intro hmem
  cases step with
  | clientSend _ | clientRecv _ | reply _ _ | notify _ _ | hangup _ =>
    cases List.mem_singleton.mp hmem
  | recv _ _ => cases hmem
  | process running move =>
    cases move with
    | refuse _ _ | handshaken _ | dispatch _ | stop _ => cases List.mem_singleton.mp hmem
    | handle hstep =>
      rw [hstep.inner_step.2] at hmem
      rcases Handler.eq_of_mem_events hmem with h | h | ⟨_, h⟩ | ⟨_, h⟩ <;> cases h
    | _ => cases hmem
  | main move =>
    generalize conn.phase = phase at move
    cases move with
    | offline => cases List.mem_singleton.mp hmem
    | _ => cases hmem

/-- **Networks are kept apart.** In every run of the server, with any number of networks and clients
and any interleaving of their requests: when a notice is put in the send queue of a connection, then
the client of this connection has entered a network before, the notice was issued in that network,
and the client belongs to its audience. A notice that somebody has entered, or has another endpoint,
comes from the request of that client, who was admitted to the network, and goes to others; a
forwarded request comes from a client that was admitted to the network and goes to its target alone.
A notice that somebody has left goes to others, and comes from the request of that client or from
the end of a connection on which a handshake with that public key and for that network was sent.

**Proof sketch.** What a connection is about to send is accounted for by the trace
(`Server.Reaches.backed`), and a notice is put in a send queue only by a broadcast
(`Conn.Step.sentTo`), whose targets have entered the network. -/
theorem notices_issued (run : s.Reaches db info guard tr) :
    Historically (fun past e => ∀ x origin data, e = .pushed x origin data →
      data.isNotice = true → ∃ n audience k, Issued db past n audience data ∧
        audience.includes k = true ∧ .entered x ⟨k, n⟩ ∈ past) tr := by
  refine run.invariant (I := fun tr _ => Historically _ tr) historically_nil ?_
  intro tr s a s' evs run ih _ hstep
  cases a with
  | accept addr =>
    cases hstep
    exact historically_concat.mpr ⟨ih, by simp⟩
  | act c a =>
    obtain ⟨conn, m, post, hconn, hact, rfl, after⟩ := Server.step_act hstep
    have step := Conn.act_step hact
    have own : Historically _ (tr ++ m.events) := ih.append fun past e he x origin data heq =>
      absurd (heq ▸ he) (step.pushed_notMem x origin data)
    rw [← List.append_assoc]
    rcases after.conns with ⟨-, rfl, -⟩ | ⟨l, _, hsend, -, -, -, -, rfl⟩
    · rwa [List.append_nil]
    · refine historically_concat.mpr ⟨own, fun x origin data heq hnotice => ?_⟩
      cases heq
      obtain ⟨n, audience, issued, entered⟩ :=
        step.sentTo (Server.Reaches.backed run hconn) hsend hnotice
      obtain ⟨k, hk, hmem⟩ := entered l.dst (List.mem_singleton_self _)
      exact ⟨n, audience, k, issued.append _, hk, List.mem_append_left _ hmem⟩

end Runs

section Examples

open Sample

/-- Two clients enter, one after the other. -/
def entering₂ : List Action :=
  admission 0 keyA ++ configuration 0 2 ++ entrance 0 3 "10.0.0.2" ++ admission 1 keyB ++
    configuration 1 2 ++ say 1 3 (.peerEnter ⟨"10.0.0.3", none, 0, []⟩) ++ List.replicate 5 (go 1)

/-- The first one hears of the second. -/
theorem notices_issued_sample : ∃ s past rest data n audience k,
    Server.Reaches s db info (fun _ _ => True) (past ++ .pushed 0 none data :: rest) ∧
    data = enterNotice keyB ⟨"10.0.0.3", none, 0, []⟩ ∧ Issued db past n audience data ∧
    audience.includes k = true ∧ .entered 0 ⟨k, n⟩ ∈ past := by
  obtain ⟨s, tr, run, hcheck⟩ := exists_run_of_exec Server.step entering₂ start
    (fun r => decide (.pushed 0 none (enterNotice keyB ⟨"10.0.0.3", none, 0, []⟩) ∈ r.2))
    (by decide +kernel)
  obtain ⟨past, rest, rfl⟩ := List.append_of_mem (of_decide_eq_true hcheck)
  obtain ⟨n, audience, k, issued, hk, entered⟩ :=
    notices_issued run past _ rest rfl 0 none _ rfl rfl
  exact ⟨s, past, rest, _, n, audience, k, run, rfl, issued, hk, entered⟩

end Examples

end Vlink.Headlink
