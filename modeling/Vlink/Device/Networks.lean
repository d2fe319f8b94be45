import Vlink.Device.System

set_option autoImplicit false

/-!
# The networks of peers

`device/mod.rs` and `device/peer/peers.rs`: `insert_peer` enters the networks of a peer in a table
that is shared by all peers, and `get_by_ip` looks up the longest prefix there. `reset_peers` begins
with an empty table. When a peer is inserted that is already there, its entry is kept with the
networks that it had. These are entered again, and the new ones are ignored.

## Main definitions

* `Vlink.Device.resetPeers` — `reset_peers`.
* `Vlink.Device.routeStep` — the steps of a device, with `reset_peers`.
* `Vlink.latest` — the most recent configuration of each peer.
* `Vlink.IsRoute` — the peer whose most recent configuration has the longest prefix of an address.
* `Vlink.owner` — the peer that a network belongs to in the table.
* `Vlink.Device.keepsNetworks` — a peer that is inserted again has the networks that it had.

## Main results

* `Vlink.Tabled` holds throughout — the table belongs to the owners.
* `Vlink.getByIp_iff_route` — `get_by_ip` follows the most recent configurations, if peers keep
  their networks.
* `Vlink.networks_ignored` — otherwise it does not.
-/

namespace Vlink

/-! ## Inserting and resetting peers -/

namespace Device

variable (C : Crypto)

/-- `PeerList::clear`. The tasks of the peers are cancelled. -/
def clear (d : Device) : Device :=
  { d with
    store := { d.store with index := d.store.index.clear }
    ips := []
    peers := fun _ => none }

/-- `DeviceInner::reset_peers`. -/
def resetPeers (d : Device) (cfgs : List PeerConfig) (now : Instant) : Device :=
  cfgs.foldl (fun d cfg => d.insertPeer C cfg now) d.clear

end Device

/-- A step of the device, or `reset_peers`. -/
inductive RouteAction where
  | step (a : Action)
  | resetPeers (cfgs : List PeerConfig) (now : Instant)

/-- What is configured. -/
inductive RouteEvent where
  | inserted (cfg : PeerConfig)
  | reset

/-- The configuration that an action brings. -/
def Action.inserted : Action → List RouteEvent
  | .insertPeer cfg _ => [.inserted cfg]
  | _ => []

/-- One step; `none` if the action is not possible. -/
def Device.routeStep (C : Crypto) (d : Device) : RouteAction → Option (Device × List RouteEvent)
  | .step a => (d.step C a).map fun r => (r.1, a.inserted)
  | .resetPeers cfgs now => some (d.resetPeers C cfgs now, .reset :: cfgs.map .inserted)

/-! ## What routing is for -/

/-- A configuration comes before those that are there, and a reset removes them. -/
def configure (h : List PeerConfig) : RouteEvent → List PeerConfig
  | .inserted cfg => cfg :: h
  | .reset => []

/-- The configurations since the last reset, the newest one in front. -/
def configs (tr : List RouteEvent) : List PeerConfig := tr.foldl configure []

/-- The most recent configuration of each peer, the newest one in front. -/
def latest : List PeerConfig → List PeerConfig
  | [] => []
  | c :: h => c :: (latest h).filter fun c' => c'.publicKey ≠ c.publicKey

/-- The peer `p` has the longest prefix that contains the address, among the most recent
configurations of all peers; and no peer with a newer one has a prefix of this length. -/
def IsRoute (h : List PeerConfig) (ip : IpAddr) (p : Key) : Prop :=
  ∃ newer cfg older n, latest h = newer ++ cfg :: older ∧ cfg.publicKey = p ∧
    n ∈ cfg.allowedIps ∧ n.contains ip = true ∧
    (∀ c ∈ latest h, ∀ m ∈ c.allowedIps, m.contains ip = true → m.netmask ≤ n.netmask) ∧
    ∀ c ∈ newer, ∀ m ∈ c.allowedIps, m.contains ip = true → m.netmask ≠ n.netmask

/-! ## What the table has -/

/-- The networks of the entry of a peer: those of its first configuration. -/
def entryNetworks : List PeerConfig → Key → Option (List IpNetwork)
  | [], _ => none
  | c :: h, p => (entryNetworks h p).or (if c.publicKey = p then some c.allowedIps else none)

/-- The peer that has entered a network last. -/
def owner : List PeerConfig → IpNetwork → Option Key
  | [], _ => none
  | c :: h, n =>
    if n ∈ (entryNetworks (c :: h) c.publicKey).getD [] then some c.publicKey else owner h n

/-- The entries of a device and its table, after the configurations `h`. -/
structure Tabled (h : List PeerConfig) (d : Device) : Prop where
  entries : ∀ p, (d.peers p).map PeerNode.allowedIps = entryNetworks h p
  distinct : d.ips.Distinct
  table : ∀ n, d.ips.get n = owner h n

section Tables

variable {C : Crypto} {h : List PeerConfig} {d d' : Device} {p : Key} {n : IpNetwork}

/-- `insert_peer`. -/
lemma Tabled.insertPeer (ht : Tabled h d) (cfg : PeerConfig) (now : Instant) :
    Tabled (cfg :: h) (d.insertPeer C cfg now) := by
  have hentry : ∀ e : PeerNode, e.allowedIps = cfg.allowedIps →
      ((d.peers cfg.publicKey).getD e).allowedIps =
        (entryNetworks (cfg :: h) cfg.publicKey).getD [] := by
    intro e he
    rw [entryNetworks, if_pos rfl, ← ht.entries]
    cases d.peers cfg.publicKey with
    | none => simpa using he
    | some m => rfl
  refine ⟨fun p => ?_, ht.distinct.foldl_insert _, fun n => ?_⟩
  · by_cases hp : p = cfg.publicKey
    · subst hp
      simp only [Device.insertPeer, Function.update_self, Option.map_some]
      rw [hentry _ rfl, entryNetworks, if_pos rfl]
      cases entryNetworks h cfg.publicKey <;> rfl
    · simp only [Device.insertPeer, Function.update_of_ne hp]
      rw [ht.entries, entryNetworks, if_neg (Ne.symm hp), Option.or_none]
  · simp only [Device.insertPeer]
    rw [IpNetwork.Table.get_foldl_insert, hentry _ rfl, ht.table]
    rfl

/-- A cleared device has no networks. -/
lemma tabled_clear (d : Device) : Tabled [] d.clear :=
  ⟨fun _ => rfl, IpNetwork.Table.distinct_nil, fun _ => rfl⟩

/-- `reset_peers`. -/
lemma tabled_resetPeers (d : Device) (cfgs : List PeerConfig) (now : Instant) :
    Tabled cfgs.reverse (d.resetPeers C cfgs now) := by
  have hfold : ∀ {h : List PeerConfig} {d : Device}, Tabled h d →
      Tabled (cfgs.reverse ++ h) (cfgs.foldl (fun d cfg => d.insertPeer C cfg now) d) := by
    induction cfgs with
    | nil => exact id
    | cons cfg cfgs ih =>
      intro h d ht
      rw [List.reverse_cons, List.append_assoc]
      exact ih (ht.insertPeer cfg now)
  have hall := hfold (tabled_clear d)
  rwa [List.append_nil] at hall

/-- Who owns a network has an entry. -/
lemma isSome_entryNetworks_of_owner (ho : owner h n = some p) : (entryNetworks h p).isSome := by
  induction h with
  | nil => cases ho
  | cons c h ih =>
    rw [owner] at ho
    rw [entryNetworks, Option.isSome_or, Bool.or_eq_true]
    split_ifs at ho with hmem
    · cases ho
      exact .inr (by simp)
    · exact .inl (ih ho)

/-- Whom the table finds is a peer of the device. -/
lemma Tabled.isSome_peers (ht : Tabled h d) {ip : IpAddr} (hfound : d.getByIp ip = some p) :
    (d.peers p).isSome := by
  obtain ⟨⟨n, q⟩, hmatch, rfl⟩ := Option.map_eq_some_iff.mp hfound
  have ho : owner h n = some q := by
    rw [← ht.table]
    exact ht.distinct.get_eq_some_iff.mpr (IpNetwork.Table.longestMatch_eq_some hmatch).1
  have hentry := isSome_entryNetworks_of_owner ho
  rwa [← ht.entries, Option.isSome_map] at hentry

end Tables

/-! ## The other steps -/

namespace PeerNode

variable {C : Crypto} {n n' : PeerNode} {st st' : Store} {env : Env} {evs : List Event}

/-- The networks of a peer are those that it was made with. -/
lemma Moves.allowedIps {q : Key} {a : Action} (h : n.Moves C st q a n') :
    n'.allowedIps = n.allowedIps := by
  cases h with
  | handshake h => exact (handshakeStep_kept h).allowedIps
  | inbound h => cases inboundStep_move h <;> rfl
  | outbound h => exact (outboundStep_kept h).allowedIps
  | keepalive h => exact (keepaliveStep_kept h).allowedIps
  | staged | routed | handshakePanic | inboundPanic | setOnline | updateEndpoint | clearEndpoint =>
    rfl

end PeerNode

section Frames

variable {C : Crypto} {h : List PeerConfig} {d d' : Device} {p q : Key} {evs : List Event}

/-- A step that leaves the table and the peers alone. -/
lemma Tabled.same (ht : Tabled h d) (hpeers : d'.peers = d.peers) (hips : d'.ips = d.ips) :
    Tabled h d' :=
  ⟨fun p => hpeers ▸ ht.entries p, hips ▸ ht.distinct, fun n => hips ▸ ht.table n⟩

/-- A step that leaves the table alone, and the networks of the one peer that it changes. -/
lemma Tabled.one (ht : Tabled h d) {n n' : PeerNode} (hn : d.peers q = some n)
    (hpeers : d'.peers = Function.update d.peers q (some n')) (hips : d'.ips = d.ips)
    (hn' : n'.allowedIps = n.allowedIps) : Tabled h d' := by
  refine ⟨fun p => ?_, hips ▸ ht.distinct, fun n => hips ▸ ht.table n⟩
  rw [← ht.entries, hpeers]
  by_cases hp : p = q
  · subst hp
    simp [hn, hn']
  · simp [hp]

/-- **Step lemma.** -/
lemma Tabled.step (ht : Tabled h d) {a : Action} (hstep : d.step C a = some (d', evs)) :
    Tabled (a.inserted.foldl configure h) d' := by
  cases Device.step_effect hstep with
  | dropped hpeers hips => exact ht.same hpeers hips
  | unrouted hpeers hips => exact ht.same hpeers hips
  | node hn hpeers hips _ hmoves =>
    have hd' : Tabled h d' := ht.one hn hpeers hips hmoves.allowedIps
    cases hmoves <;> exact hd'
  | insertPeer cfg now => exact ht.insertPeer cfg now

/-- **Run lemma.** In every run of a device, whom its table finds is one of its peers. -/
lemma Device.Reaches.isSome_peers {privateKey : Key} {start : UInt32} {tr : List Event}
    {guard : Device → Action → Prop} (run : d.Reaches C privateKey start guard tr) {ip : IpAddr}
    (hfound : d.getByIp ip = some p) : (d.peers p).isSome := by
  obtain ⟨h, ht⟩ : ∃ h, Tabled h d := by
    refine Run.invariant (I := fun _ d => ∃ h, Tabled h d) ?_ ?_ run
    · exact ⟨[], fun _ => rfl, IpNetwork.Table.distinct_nil, fun _ => rfl⟩
    · rintro tr d a d' evs - ⟨h, ht⟩ - hstep
      exact ⟨_, ht.step hstep⟩
  exact ht.isSome_peers hfound

end Frames

/-! ## Whole runs -/

section Runs

variable {C : Crypto} {d d' : Device} {a : RouteAction} {tr evs : List RouteEvent}
  {guard : Device → RouteAction → Prop}

/-- The networks after a longer trace. -/
lemma configs_append (tr evs : List RouteEvent) :
    configs (tr ++ evs) = evs.foldl configure (configs tr) :=
  List.foldl_append

/-- After a reset only the new configurations are there. -/
lemma configs_reset (tr : List RouteEvent) (cfgs : List PeerConfig) :
    configs (tr ++ .reset :: cfgs.map .inserted) = cfgs.reverse := by
  have hfold : ∀ h, (cfgs.map RouteEvent.inserted).foldl configure h = cfgs.reverse ++ h := by
    induction cfgs with
    | nil => exact fun _ => rfl
    | cons cfg cfgs ih =>
      intro h
      rw [List.map_cons, List.foldl_cons, ih, List.reverse_cons, List.append_assoc]
      rfl
  rw [configs_append, List.foldl_cons, hfold]
  exact List.append_nil _

/-- A step of the device, or a reset. -/
lemma Tabled.routeStep (ht : Tabled (configs tr) d) (hstep : d.routeStep C a = some (d', evs)) :
    Tabled (configs (tr ++ evs)) d' := by
  cases a with
  | step a =>
    obtain ⟨r, hr, heq⟩ := Option.map_eq_some_iff.mp hstep
    cases heq
    rw [configs_append]
    exact ht.step hr
  | resetPeers cfgs now =>
    cases hstep
    rw [configs_reset]
    exact tabled_resetPeers d cfgs now

/-- **Run lemma.** The table belongs to the owners of the networks. -/
lemma run_tabled {privateKey : Key} {start : UInt32}
    (run : Run (Device.routeStep C) guard (.new C privateKey start) tr d) :
    Tabled (configs tr) d :=
  Run.invariant (I := fun tr d => Tabled (configs tr) d)
    ⟨fun _ => rfl, IpNetwork.Table.distinct_nil, fun _ => rfl⟩
    (fun _ ih _ hstep => ih.routeStep hstep) run

end Runs

/-! ## Peers that keep their networks -/

/-- Two lists have the same networks. -/
def sameNetworks (ns ms : List IpNetwork) : Bool :=
  ns.all (fun n => decide (n ∈ ms)) && ms.all fun m => decide (m ∈ ns)

/-- The check compares two sets. -/
lemma sameNetworks_iff {ns ms : List IpNetwork} :
    sameNetworks ns ms = true ↔ ∀ n, n ∈ ns ↔ n ∈ ms := by
  simp only [sameNetworks, Bool.and_eq_true, List.all_eq_true, decide_eq_true_eq]
  exact ⟨fun h n => ⟨h.1 n, h.2 n⟩, fun h => ⟨fun n => (h n).mp, fun n => (h n).mpr⟩⟩

/-- The networks of a configuration are such as `Cidr::new` makes them. -/
def PeerConfig.truncated (cfg : PeerConfig) : Bool := cfg.allowedIps.all (·.isTruncated)

/-- A peer that is inserted again has the networks of its entry; and if it is inserted twice by
`reset_peers`, then with the same networks. -/
def Device.keepsNetworks (d : Device) : RouteAction → Bool
  | .step (.insertPeer cfg _) => cfg.truncated &&
    (d.peers cfg.publicKey).all fun n => sameNetworks cfg.allowedIps n.allowedIps
  | .step _ => true
  | .resetPeers cfgs _ => cfgs.all fun c => c.truncated &&
    cfgs.all fun c' =>
      decide (c'.publicKey ≠ c.publicKey) || sameNetworks c'.allowedIps c.allowedIps

/-- All configurations of a peer have the same networks, and they are such as `Cidr::new` makes
them. -/
structure Steady (h : List PeerConfig) : Prop where
  truncated : ∀ c ∈ h, ∀ n ∈ c.allowedIps, n.isTruncated = true
  same : ∀ c ∈ h, ∀ c' ∈ h, c'.publicKey = c.publicKey → ∀ n, n ∈ c'.allowedIps ↔ n ∈ c.allowedIps

section Steady

variable {C : Crypto} {h : List PeerConfig} {c cfg : PeerConfig} {p : Key} {n : IpNetwork}
  {ip : IpAddr} {d d' : Device} {tr evs : List RouteEvent} {a : RouteAction}

/-- The networks of an entry are those of a configuration of the peer. -/
lemma exists_of_entryNetworks {ns : List IpNetwork} (hns : entryNetworks h p = some ns) :
    ∃ c ∈ h, c.publicKey = p ∧ c.allowedIps = ns := by
  induction h with
  | nil => cases hns
  | cons c h ih =>
    rw [entryNetworks] at hns
    cases hold : entryNetworks h p with
    | some ms =>
      rw [hold, Option.some_or] at hns
      cases hns
      obtain ⟨c', hc', hkey⟩ := ih hold
      exact ⟨c', List.mem_cons_of_mem _ hc', hkey⟩
    | none =>
      rw [hold, Option.none_or] at hns
      split_ifs at hns with hp
      cases hns
      exact ⟨c, List.mem_cons_self, hp, rfl⟩

/-- A peer that is configured has an entry. -/
lemma entryNetworks_isSome (hc : c ∈ h) : ∃ ns, entryNetworks h c.publicKey = some ns := by
  induction h with
  | nil => cases hc
  | cons c' h ih =>
    rw [entryNetworks]
    rcases List.mem_cons.mp hc with rfl | hc
    · cases entryNetworks h c.publicKey with
      | none => exact ⟨c.allowedIps, by simp⟩
      | some ns => exact ⟨ns, by simp⟩
    · obtain ⟨ns, hns⟩ := ih hc
      exact ⟨ns, by simp [hns]⟩

/-- A part of a steady history is steady. -/
lemma Steady.tail (hs : Steady (c :: h)) : Steady h where
  truncated c' hc' := hs.truncated c' (List.mem_cons_of_mem _ hc')
  same c' hc' c'' hc'' := hs.same c' (List.mem_cons_of_mem _ hc') c'' (List.mem_cons_of_mem _ hc'')

/-- The entry of a peer has the networks of each of its configurations. -/
lemma Steady.entry (hs : Steady h) (hc : c ∈ h) :
    n ∈ (entryNetworks h c.publicKey).getD [] ↔ n ∈ c.allowedIps := by
  obtain ⟨ns, hns⟩ := entryNetworks_isSome hc
  obtain ⟨c', hc', hkey, rfl⟩ := exists_of_entryNetworks hns
  rw [hns]
  exact hs.same c hc c' hc' hkey n

/-- The latest entries are entries. -/
lemma mem_of_mem_latest (hc : c ∈ latest h) : c ∈ h := by
  induction h with
  | nil => cases hc
  | cons c' h ih =>
    rcases List.mem_cons.mp hc with rfl | hc
    · exact List.mem_cons_self
    · exact List.mem_cons_of_mem _ (ih (List.mem_filter.mp hc).1)

/-- No one owns a network that no recent configuration has. -/
lemma Steady.owner_none (hs : Steady h) (ho : owner h n = none) :
    ∀ c ∈ latest h, n ∉ c.allowedIps := by
  induction h with
  | nil => simp [latest]
  | cons c h ih =>
    rw [owner] at ho
    split_ifs at ho with hmem
    rw [hs.entry List.mem_cons_self] at hmem
    intro c' hc'
    rcases List.mem_cons.mp hc' with rfl | hc'
    · exact hmem
    · exact ih hs.tail ho c' (List.mem_filter.mp hc').1

/-- The owner of a network is the peer whose recent configuration with it is the newest. -/
lemma Steady.owner_some (hs : Steady h) (ho : owner h n = some p) :
    ∃ newer cfg older, latest h = newer ++ cfg :: older ∧ cfg.publicKey = p ∧
      n ∈ cfg.allowedIps ∧ ∀ c ∈ newer, n ∉ c.allowedIps := by
  induction h with
  | nil => cases ho
  | cons c h ih =>
    rw [owner] at ho
    split_ifs at ho with hmem
    · cases ho
      rw [hs.entry List.mem_cons_self] at hmem
      exact ⟨[], c, _, rfl, rfl, hmem, by simp⟩
    · rw [hs.entry List.mem_cons_self] at hmem
      obtain ⟨newer, cfg, older, hsplit, hkey, hn, hnewer⟩ := ih hs.tail ho
      have hcfg : cfg ∈ c :: h := by
        refine List.mem_cons_of_mem _ (mem_of_mem_latest ?_)
        rw [hsplit]
        exact List.mem_append_right _ List.mem_cons_self
      -- a configuration of the same peer would have the network too
      have hne : cfg.publicKey ≠ c.publicKey := fun heq =>
        hmem ((hs.same c List.mem_cons_self cfg hcfg heq n).mp hn)
      refine ⟨c :: newer.filter fun c' => c'.publicKey ≠ c.publicKey, cfg,
        older.filter fun c' => c'.publicKey ≠ c.publicKey, ?_, hkey, hn, fun c' hc' => ?_⟩
      · rw [latest, hsplit, List.filter_append, List.filter_cons_of_pos (by simpa using hne)]
        rfl
      · rcases List.mem_cons.mp hc' with rfl | hc'
        · exact hmem
        · exact hnewer c' (List.mem_filter.mp hc').1

/-- One more configuration. -/
lemma Steady.cons (hs : Steady h) (htrunc : cfg.truncated = true)
    (hsame : ∀ c ∈ h, c.publicKey = cfg.publicKey → ∀ n, n ∈ c.allowedIps ↔ n ∈ cfg.allowedIps) :
    Steady (cfg :: h) := by
  refine ⟨fun c hc n hn => ?_, fun c hc c' hc' hkey n => ?_⟩
  · rcases List.mem_cons.mp hc with rfl | hc
    · exact List.all_eq_true.mp htrunc n hn
    · exact hs.truncated c hc n hn
  · rcases List.mem_cons.mp hc with hcfg | hold
    · rcases List.mem_cons.mp hc' with hcfg' | hold'
      · rw [hcfg, hcfg']
      · rw [hcfg] at hkey ⊢
        exact hsame c' hold' hkey n
    · rcases List.mem_cons.mp hc' with hcfg' | hold'
      · rw [hcfg'] at hkey ⊢
        exact (hsame c hold hkey.symm n).symm
      · exact hs.same c hold c' hold' hkey n

/-- **Step lemma.** Peers keep their networks. -/
lemma Steady.routeStep (hs : Steady (configs tr)) (ht : Tabled (configs tr) d)
    (ok : d.keepsNetworks a = true) (hstep : d.routeStep C a = some (d', evs)) :
    Steady (configs (tr ++ evs)) := by
  cases a with
  | step a =>
    obtain ⟨r, -, heq⟩ := Option.map_eq_some_iff.mp hstep
    cases heq
    rw [configs_append]
    cases a with
    | insertPeer cfg now =>
      simp only [Device.keepsNetworks, Bool.and_eq_true] at ok
      refine hs.cons ok.1 fun c hc hkey n => ?_
      have hentry := hs.entry (n := n) hc
      obtain ⟨ns, hns⟩ := entryNetworks_isSome hc
      rw [hkey, ← ht.entries] at hns
      obtain ⟨e, he, rfl⟩ := Option.map_eq_some_iff.mp hns
      rw [he] at ok
      rw [hkey, ← ht.entries, he] at hentry
      exact hentry.symm.trans (sameNetworks_iff.mp ok.2 n).symm
    | _ => exact hs
  | resetPeers cfgs now =>
    cases hstep
    rw [configs_reset]
    simp only [Device.keepsNetworks, List.all_eq_true, Bool.and_eq_true, Bool.or_eq_true,
      decide_eq_true_eq] at ok
    refine ⟨fun c hc => ?_, fun c hc c' hc' hkey => ?_⟩
    · exact List.all_eq_true.mp (ok c (List.mem_reverse.mp hc)).1
    · rcases (ok c (List.mem_reverse.mp hc)).2 c' (List.mem_reverse.mp hc') with hne | hsame
      · exact absurd hkey hne
      · exact sameNetworks_iff.mp hsame

/-- **Run lemma.** Peers keep their networks throughout. -/
lemma run_steady {privateKey : Key} {start : UInt32}
    (run : Run (Device.routeStep C) (fun d a => d.keepsNetworks a = true)
      (.new C privateKey start) tr d) : Steady (configs tr) :=
  Run.invariant (I := fun tr _ => Steady (configs tr))
    ⟨fun c hc => (by cases hc), fun c hc => (by cases hc)⟩
    (fun run ih ok hstep => ih.routeStep (run_tabled run) ok hstep) run

/-- The networks of recent configurations are in the table. -/
lemma Tabled.mem_ips (ht : Tabled h d) (hs : Steady h) (hc : c ∈ latest h)
    (hn : n ∈ c.allowedIps) : ∃ q, (n, q) ∈ d.ips := by
  cases ho : owner h n with
  | none => exact absurd hn (hs.owner_none ho c hc)
  | some q =>
    rw [← ht.table] at ho
    exact ⟨q, ht.distinct.get_eq_some_iff.mp ho⟩

/-- There is one route at most. -/
lemma IsRoute.unique {q : Key} (hp : IsRoute h ip p) (hq : IsRoute h ip q) : p = q := by
  obtain ⟨newer, cfg, older, n, hsplit, rfl, hn, hc, hmax, hnewer⟩ := hp
  obtain ⟨newer', cfg', older', n', hsplit', rfl, hn', hc', hmax', hnewer'⟩ := hq
  have hmem : cfg ∈ latest h := by
    rw [hsplit]
    exact List.mem_append_right _ List.mem_cons_self
  have hmem' : cfg' ∈ latest h := by
    rw [hsplit']
    exact List.mem_append_right _ List.mem_cons_self
  have hlen : n.netmask = n'.netmask :=
    le_antisymm (hmax' cfg hmem n hn hc) (hmax cfg' hmem' n' hn' hc')
  -- the newest configuration with a prefix of this length comes first in both splits
  rcases List.append_eq_append_iff.mp (hsplit.symm.trans hsplit') with
    ⟨l, rfl, hl⟩ | ⟨l, rfl, hl⟩
  · cases l with
    | nil => exact congrArg PeerConfig.publicKey (List.cons.inj hl).1
    | cons x l =>
      obtain ⟨rfl, -⟩ := List.cons.inj hl
      exact absurd hlen (hnewer' cfg (by simp) n hn hc)
  · cases l with
    | nil => exact congrArg PeerConfig.publicKey (List.cons.inj hl).1.symm
    | cons x l =>
      obtain ⟨rfl, -⟩ := List.cons.inj hl
      exact absurd hlen.symm (hnewer cfg' (by simp) n' hn' hc')

/-- What is found in the table is the route. -/
lemma Tabled.isRoute (ht : Tabled h d) (hs : Steady h) (hfound : d.getByIp ip = some p) :
    IsRoute h ip p := by
  obtain ⟨⟨n, q⟩, hmatch, rfl⟩ := Option.map_eq_some_iff.mp hfound
  obtain ⟨hmem, hc, hmax⟩ := IpNetwork.Table.longestMatch_eq_some hmatch
  have ho : owner h n = some q := by
    rw [← ht.table]
    exact ht.distinct.get_eq_some_iff.mpr hmem
  obtain ⟨newer, cfg, older, hsplit, hkey, hn, hnewer⟩ := hs.owner_some ho
  refine ⟨newer, cfg, older, n, hsplit, hkey, hn, hc, fun c hc' m hm hcm => ?_,
    fun c hc' m hm hcm hlen => ?_⟩
  · obtain ⟨q', hq'⟩ := ht.mem_ips hs hc' hm
    exact hmax _ hq' hcm
  · have hcfg : cfg ∈ h := mem_of_mem_latest (by
      rw [hsplit]
      exact List.mem_append_right _ List.mem_cons_self)
    have hc'' : c ∈ h := mem_of_mem_latest (by
      rw [hsplit]
      exact List.mem_append_left _ hc')
    obtain rfl := IpNetwork.eq_of_contains (hs.truncated c hc'' m hm) (hs.truncated cfg hcfg n hn)
      hlen hcm hc
    exact hnewer c hc' hm

/-- Nothing is found if and only if no recent configuration contains the address. -/
lemma Tabled.getByIp_eq_none (ht : Tabled h d) (hs : Steady h) :
    d.getByIp ip = none ↔ ∀ c ∈ latest h, ∀ n ∈ c.allowedIps, n.contains ip = false := by
  unfold Device.getByIp
  rw [Option.map_eq_none_iff, IpNetwork.Table.longestMatch_eq_none]
  constructor
  · intro hall c hc n hn
    obtain ⟨q, hq⟩ := ht.mem_ips hs hc hn
    exact hall _ hq
  · rintro hall ⟨n, q⟩ hmem
    have ho : owner h n = some q := by
      rw [← ht.table]
      exact ht.distinct.get_eq_some_iff.mpr hmem
    obtain ⟨newer, cfg, older, hsplit, -, hn, -⟩ := hs.owner_some ho
    refine hall cfg ?_ n hn
    rw [hsplit]
    exact List.mem_append_right _ List.mem_cons_self

end Steady

/-- **Main theorem.** In every run in which peers that are inserted again keep their networks,
`get_by_ip` finds the peer whose most recent configuration has the longest prefix of an address, the
newest one if there are several, and nothing if no most recent configuration contains the address.

**Proof sketch.** By `Tabled` the table has the networks of the latest configurations, and in a
steady history the lookup finds the route. -/
theorem getByIp_iff_route {C : Crypto} {privateKey : Key} {start : UInt32} {d : Device}
    {tr : List RouteEvent}
    (run : Run (Device.routeStep C) (fun d a => d.keepsNetworks a = true)
      (.new C privateKey start) tr d) (ip : IpAddr) :
    (∀ p, d.getByIp ip = some p ↔ IsRoute (configs tr) ip p) ∧
      (d.getByIp ip = none ↔
        ∀ c ∈ latest (configs tr), ∀ n ∈ c.allowedIps, n.contains ip = false) := by
  have hs := run_steady run
  have ht := run_tabled run
  refine ⟨fun p => ⟨ht.isRoute hs, fun hroute => ?_⟩, ht.getByIp_eq_none hs⟩
  cases hfound : d.getByIp ip with
  | some q => rw [hroute.unique (ht.isRoute hs hfound)]
  | none =>
    obtain ⟨newer, cfg, older, n, hsplit, -, hn, hc, -⟩ := hroute
    have hmem : cfg ∈ latest (configs tr) := by
      rw [hsplit]
      exact List.mem_append_right _ List.mem_cons_self
    rw [(ht.getByIp_eq_none hs).mp hfound cfg hmem n hn] at hc
    cases hc

namespace Sample

/-- The peer with other networks. -/
def configWith (allowedIps : List IpNetwork) : PeerConfig := { config with allowedIps }

/-- The peer has the address 10.0.0.2, and then the network 10.1.0.0/16. -/
def firstNetwork : IpNetwork := ⟨.v4 0x0A000002#32, 32⟩

def secondNetwork : IpNetwork := .newTruncate (.v4 0x0A010000#32) 16

end Sample

/-- A peer is inserted again with its network, and a packet for it finds it. -/
theorem getByIp_iff_route_sample : ∃ d tr,
    Run (Device.routeStep .sample) (fun d a => d.keepsNetworks a = true)
      (.new .sample Sample.localKey Sample.start) tr d ∧
    d.getByIp (.v4 0x0A000002#32) = some Sample.remote ∧
    IsRoute (configs tr) (.v4 0x0A000002#32) Sample.remote := by
  obtain ⟨d, tr, run, hcheck⟩ := exists_run_of_exec
    (checked (Device.routeStep .sample) Device.keepsNetworks)
    [.step (.insertPeer Sample.config 0), .step (.insertPeer Sample.config 0)] Sample.device
    (fun r => decide (r.1.getByIp (.v4 0x0A000002#32) = some Sample.remote)) (by decide +kernel)
  have hfound := of_decide_eq_true hcheck
  exact ⟨d, tr, run.of_checked, hfound, ((getByIp_iff_route run.of_checked _).1 _).mp hfound⟩

/-- A peer is inserted again with another network. There is no route to its new network, and the one
to its old address stays. -/
theorem networks_ignored : ∃ d,
    Run (Device.routeStep .sample) (fun _ _ => True) (.new .sample Sample.localKey Sample.start)
      [.inserted (Sample.configWith [Sample.firstNetwork]),
        .inserted (Sample.configWith [Sample.secondNetwork])] d ∧
    d.getByIp (.v4 0x0A010001#32) = none ∧
    IsRoute [Sample.configWith [Sample.secondNetwork], Sample.configWith [Sample.firstNetwork]]
      (.v4 0x0A010001#32) Sample.remote ∧
    d.getByIp (.v4 0x0A000002#32) = some Sample.remote ∧
    ∀ p, ¬ IsRoute [Sample.configWith [Sample.secondNetwork],
      Sample.configWith [Sample.firstNetwork]] (.v4 0x0A000002#32) p := by
  have hlatest : latest [Sample.configWith [Sample.secondNetwork],
      Sample.configWith [Sample.firstNetwork]] = [Sample.configWith [Sample.secondNetwork]] := by
    simp [latest, Sample.configWith]
  refine ⟨(Sample.device.insertPeer .sample (Sample.configWith [Sample.firstNetwork]) 0).insertPeer
    .sample (Sample.configWith [Sample.secondNetwork]) 0, ?_, by decide +kernel, ?_,
    by decide +kernel, ?_⟩
  · have first : Run (Device.routeStep .sample) (fun _ _ => True)
        (.new .sample Sample.localKey Sample.start)
        [.inserted (Sample.configWith [Sample.firstNetwork])]
        (Sample.device.insertPeer .sample (Sample.configWith [Sample.firstNetwork]) 0) :=
      Run.nil.snoc trivial
        (a := RouteAction.step (.insertPeer (Sample.configWith [Sample.firstNetwork]) 0)) rfl
    exact first.snoc trivial
      (a := RouteAction.step (.insertPeer (Sample.configWith [Sample.secondNetwork]) 0)) rfl
  · refine ⟨[], _, [], Sample.secondNetwork, hlatest, rfl, by simp [Sample.configWith], by decide,
      ?_, by simp⟩
    rw [hlatest]
    simp [Sample.configWith]
  · rintro p ⟨newer, cfg, older, n, hsplit, -, hn, hc, -⟩
    have hcfg : cfg ∈ [Sample.configWith [Sample.secondNetwork]] := by
      rw [← hlatest, hsplit]
      exact List.mem_append_right _ List.mem_cons_self
    rw [List.mem_singleton.mp hcfg] at hn
    rw [List.mem_singleton.mp hn] at hc
    exact absurd hc (by decide)

end Vlink
