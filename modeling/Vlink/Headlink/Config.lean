import Vlink.Headlink.Server

set_option autoImplicit false

/-!
# The extra endpoints in the configuration

`ReqConfig::execute` collects the extra endpoints of the peers that are online in a map before it
lists them. A peer can have an endpoint for each protocol, but the key of the map is the peer alone,
so the last endpoint that the iteration comes to replaces those before it.

## Main definitions

* `Vlink.Headlink.extraEndpointsOf` — the extra endpoints of a peer.
* `Vlink.Headlink.endpointPairs` — all extra endpoints of the peers that are online.
* `Vlink.Headlink.CarriesEndpoints` — the configuration has each of them once.

## Main results

* `Vlink.Headlink.extraEndpointsMap_eq` — the map is that of the list of all endpoints.
* `Vlink.Headlink.carriesEndpoints_iff` — the configuration has each endpoint once if and only if no
  peer has more than one.
* `Vlink.Headlink.endpoint_lost` — of two endpoints of one peer, the order of iteration decides
  which is sent.
-/

namespace Vlink.Headlink

/-- The extra endpoints of a peer by protocol; none if it is offline. -/
def extraEndpointsOf (s : ServerInner) (p : VlinkPeer) : List (String × String) :=
  match p.onlineInfo with
  | none => []
  | some info => (s.endpoints.getD info.extraEndpoints ∅).pairs

/-- The extra endpoints of the peers that are online, each with the key of the peer. -/
def endpointPairs (s : ServerInner) (peers : Peers) : List (String × String × String) :=
  peers.entries.flatMap fun e => (extraEndpointsOf s e.2).map fun x => (e.1, x)

/-- The configuration lists each extra endpoint of a peer that is online once, and nothing else. -/
def CarriesEndpoints (s : ServerInner) (n : VlinkNetwork) (resp : RespConfig) : Prop :=
  (resp.peerExtraTransports.map fun t => (t.targetPubKey, t.proto, t.endpoint)).Perm
    (endpointPairs s n.peers)

/-- The map that the endpoints are collected in is that of their list, in the order of the
iteration. -/
theorem extraEndpointsMap_eq (s : ServerInner) (peers : Peers) :
    extraEndpointsMap s peers = Map.ofList (endpointPairs s peers) := by
  unfold extraEndpointsMap endpointPairs Map.ofList
  rw [List.foldl_flatMap]
  congr 1
  funext acc e
  unfold extraEndpointsOf
  cases e.2.onlineInfo with
  | none => rfl
  | some info => simp only [Map.pairs, List.foldl_map]

/-- No key occurs twice in the list if and only if no peer has two endpoints. -/
lemma nodup_endpointPairs_iff (s : ServerInner) (peers : Peers) :
    ((endpointPairs s peers).map Prod.fst).Nodup ↔
      ∀ e ∈ peers.entries, (extraEndpointsOf s e.2).length ≤ 1 := by
  have hkeys : (endpointPairs s peers).map Prod.fst =
      peers.entries.flatMap fun e => List.replicate (extraEndpointsOf s e.2).length e.1 := by
    simp only [endpointPairs, List.map_flatMap, List.map_map, Function.comp_def, List.map_const']
  have hdisjoint : peers.entries.Pairwise fun e e' =>
      (List.replicate (extraEndpointsOf s e.2).length e.1).Disjoint
        (List.replicate (extraEndpointsOf s e'.2).length e'.1) := by
    have hne : peers.entries.Pairwise fun e e' => e.1 ≠ e'.1 :=
      List.pairwise_map.mp peers.keys_nodup
    refine hne.imp fun {e e'} hne k hk hk' => hne ?_
    rw [← List.eq_of_mem_replicate hk, List.eq_of_mem_replicate hk']
  rw [hkeys, List.nodup_flatMap]
  simp only [List.nodup_replicate]
  exact and_iff_left hdisjoint

/-- **The configuration carries all extra endpoints if and only if no peer that is online has more
than one**, in whatever order the maps are gone through.

**Proof sketch.** A map has all pairs of a list exactly if no key is repeated; the keys are those of
the peers, each as often as the peer has endpoints. -/
theorem carriesEndpoints_iff (s : ServerInner) (n : VlinkNetwork) (self : VlinkPeer)
    (peers : List BcPeerEnter) (addr : Ipv4Addr) (transports : List ExtraTransport) :
    CarriesEndpoints s n (buildConfig s n self peers addr transports) ↔
      ∀ e ∈ n.peers.entries, (extraEndpointsOf s e.2).length ≤ 1 := by
  have hlist : (buildConfig s n self peers addr transports).peerExtraTransports.map
      (fun t => (t.targetPubKey, t.proto, t.endpoint)) = (extraEndpointsMap s n.peers).pairs := by
    simp only [buildConfig, List.map_map, Map.pairs, Function.comp_def]
  rw [CarriesEndpoints, hlist, extraEndpointsMap_eq, Map.perm_ofList_iff, nodup_endpointPairs_iff]

section Examples

open Sample

/-- The first peer enters with extra endpoints. -/
def entering (extraEndpoints : List ExtraEndpoint) : List Action :=
  admission 0 keyA ++ configuration 0 2 ++
    say 0 3 (.peerEnter ⟨"10.0.0.2", none, 0, extraEndpoints⟩) ++ List.replicate 5 (go 0)

/-- A server on which the peer `keyA` is online with two extra endpoints, of which only that for
`proto` is in the configuration. -/
def LosesAllBut (proto : String) (s : Server) : Prop :=
  ∃ n self, s.inner.networks.lookup 1 = some n ∧ n.peers.lookup keyA = some self ∧
    (extraEndpointsOf s.inner self).Perm [("NatTcp", "a:1"), ("NatUdp", "a:2")] ∧
    (buildConfig s.inner n self [] 0 []).peerExtraTransports.map (·.proto) = [proto] ∧
    ¬ CarriesEndpoints s.inner n (buildConfig s.inner n self [] 0 [])

/-- A check that finds such a server. -/
def losesAllBut (proto : String) (s : Server) : Bool :=
  (s.inner.networks.lookup 1).any fun n => (n.peers.lookup keyA).any fun self =>
    decide ((extraEndpointsOf s.inner self).Perm [("NatTcp", "a:1"), ("NatUdp", "a:2")]) &&
    decide ((buildConfig s.inner n self [] 0 []).peerExtraTransports.map (·.proto) = [proto]) &&
    decide ((endpointPairs s.inner n.peers).length = 2)

/-- The check is enough. -/
lemma losesAllBut_eq_true {proto : String} {s : Server} (h : losesAllBut proto s = true) :
    LosesAllBut proto s := by
  simp only [losesAllBut, Option.any_eq_true, Bool.and_eq_true, decide_eq_true_eq] at h
  obtain ⟨n, hn, self, hself, ⟨hends, hsent⟩, hlength⟩ := h
  refine ⟨n, self, hn, hself, hends, hsent, fun hcarries => ?_⟩
  have hone := congrArg List.length hsent
  have htwo := hcarries.length_eq
  rw [List.length_map] at hone htwo
  rw [hone, hlength] at htwo
  cases htwo

/-- The peer enters with two extra endpoints. Which of them is sent depends on the order in which
the map is gone through. -/
theorem endpoint_lost : ∃ s s' tr tr', Server.Reaches s db info (fun _ _ => True) tr ∧
    Server.Reaches s' db info (fun _ _ => True) tr' ∧ LosesAllBut "NatTcp" s ∧
    LosesAllBut "NatUdp" s' := by
  obtain ⟨s, tr, run, h⟩ := exists_run_of_exec Server.step
    (entering [⟨"NatTcp", "a:1"⟩, ⟨"NatUdp", "a:2"⟩]) start (fun r => losesAllBut "NatTcp" r.1)
    (by decide +kernel)
  obtain ⟨s', tr', run', h'⟩ := exists_run_of_exec Server.step
    (entering [⟨"NatUdp", "a:2"⟩, ⟨"NatTcp", "a:1"⟩]) start (fun r => losesAllBut "NatUdp" r.1)
    (by decide +kernel)
  exact ⟨s, s', tr, tr', run, run', losesAllBut_eq_true h, losesAllBut_eq_true h'⟩

end Examples

end Vlink.Headlink
