import Vlink.Headlink.Server
import Vlink.Headlink.View

set_option autoImplicit false

/-!
# The table of connections

`DevHandshakeComplete` enters a pair of public keys in the table of connections of the network,
and `ExtraEndpoint` tells a new endpoint only to peers without an entry. Nothing checks that the
other peer exists or that the two are online, and nothing removes an entry. If pairs are entered
only while both are online, and nobody goes offline who is in the table, then the table shows live
pairs, and a peer that comes back is told about new endpoints again.

## Main definitions

* `Vlink.Headlink.LivePair` — the entry was written while the two peers were online, and they have
  been online ever since.
* `Vlink.Headlink.Server.keepsPairs` — the step enters a pair of peers that are online, or marks a
  peer offline that is not in the table.

## Main results

* `Vlink.Headlink.connects_live` — in every run with such steps, all entries are live, and a peer
  that went offline and came back is told about new endpoints.
* `Vlink.Headlink.stale_connect` — without the condition, an entry survives the connection of a
  peer, and the peer is told nothing when it comes back.
-/

namespace Vlink.Headlink

/-! ## Definitions -/

/-- The entry of the table is written. -/
def Event.records (n : ℤ) (key : String) : Event → Bool
  | .connected _ id target => n = id.networkId ∧ key = (unionPubKey id.pubKey target).1
  | _ => false

/-- Which events record a connection. -/
lemma Event.records_iff {n : ℤ} {key : String} {e : Event} :
    e.records n key = true ↔ ∃ c id target, e = .connected c id target ∧
      n = id.networkId ∧ key = (unionPubKey id.pubKey target).1 := by
  cases e with
  | connected c id target =>
    simp only [records, decide_eq_true_eq]
    constructor
    · rintro ⟨hn, hkey⟩
      exact ⟨c, id, target, rfl, hn, hkey⟩
    · rintro ⟨c', id', target', heq, hn, hkey⟩
      cases heq
      exact ⟨hn, hkey⟩
  | _ => simp [records]

/-- The entry was written last at some event, and at every moment since then the two peers were
online. -/
def LivePair (tr : List Event) (n : ℤ) (key a b : String) : Prop :=
  ∃ past e rest, tr = past ++ e :: rest ∧ e.records n key = true ∧
    (∀ x ∈ rest, x.records n key = false) ∧
    ∀ r, r <+: rest → Online (past ++ e :: r) ⟨a, n⟩ ∧ Online (past ++ e :: r) ⟨b, n⟩

/-- The peer went offline, and the entry was not written since. -/
def GoneSince (tr : List Event) (n : ℤ) (key k : String) : Prop :=
  Since (fun e => e.offlineFor ⟨k, n⟩ = true) (fun e => e.records n key = true) tr

instance (tr : List Event) (n : ℤ) (key k : String) : Decidable (GoneSince tr n key k) :=
  inferInstanceAs (Decidable (Since _ _ tr))

/-- A pair is entered only if the two are different peers and online, and a peer is marked offline
only if the table has no entry for it and another peer of the network. -/
def Server.keepsPairs (s : Server) (a : Action) : Bool :=
  match s.change a with
  | some (.connected _ id target) =>
    id.pubKey ≠ target && (s.inner.presence id).isSome &&
      (s.inner.presence ⟨target, id.networkId⟩).isSome
  | some (.offline _ id) =>
    (s.inner.networks.lookup id.networkId).all fun net =>
      net.peers.entries.all fun e =>
        (net.connects.lookup (unionPubKey id.pubKey e.1).1).isNone
  | _ => true

/-! ## Keys of pairs -/

/-- The key of a pair does not depend on the order of the two. -/
lemma unionPubKey_comm (a b : String) : (unionPubKey a b).1 = (unionPubKey b a).1 := by
  unfold unionPubKey
  by_cases hab : a < b
  · rw [if_pos hab, if_neg (String.lt_asymm hab)]
  by_cases hba : b < a
  · rw [if_neg hab, if_pos hba]
  · obtain rfl := String.le_antisymm (String.not_lt.mp hba) (String.not_lt.mp hab)
    rfl

/-! ## Live pairs -/

/-- A pair stays live while neither of the two is marked offline. -/
lemma LivePair.append {tr evs : List Event} {n : ℤ} {key a b : String}
    (h : LivePair tr n key a b) (records : ∀ x ∈ evs, x.records n key = false)
    (offline : ∀ x ∈ evs, x.offlineFor ⟨a, n⟩ = false ∧ x.offlineFor ⟨b, n⟩ = false) :
    LivePair (tr ++ evs) n key a b := by
  obtain ⟨past, e, rest, rfl, he, hrest, hlive⟩ := h
  refine ⟨past, e, rest ++ evs, by simp, he, fun x hx => ?_, fun r hr => ?_⟩
  · rcases List.mem_append.mp hx with hx | hx
    · exact hrest x hx
    · exact records x hx
  · obtain ⟨t, ht⟩ := hr
    rcases List.append_eq_append_iff.mp ht with ⟨r', hr', -⟩ | ⟨r', rfl, hr'⟩
    · exact hlive r ⟨r', hr'.symm⟩
    · -- after the old trace, as nobody was marked offline
      have hold := hlive rest List.prefix_rfl
      have hsub : ∀ x ∈ r', x ∈ evs := fun x hx => by
        rw [hr']
        exact List.mem_append_left _ hx
      rw [← List.cons_append, ← List.append_assoc]
      refine ⟨since_append.mpr (.inr ⟨hold.1, fun x hx => ?_⟩),
        since_append.mpr (.inr ⟨hold.2, fun x hx => ?_⟩)⟩
      · simp [(offline x (hsub x hx)).1]
      · simp [(offline x (hsub x hx)).2]

/-- The two peers are online now. -/
lemma LivePair.online {tr : List Event} {n : ℤ} {key a b : String} (h : LivePair tr n key a b) :
    Online tr ⟨a, n⟩ ∧ Online tr ⟨b, n⟩ := by
  obtain ⟨past, e, rest, rfl, -, -, hlive⟩ := h
  exact hlive rest List.prefix_rfl

/-- Neither of the two went offline since the entry was written. -/
lemma LivePair.not_goneSince {tr : List Event} {n : ℤ} {key a b : String}
    (h : LivePair tr n key a b) : ¬ GoneSince tr n key a ∧ ¬ GoneSince tr n key b := by
  have absurd_of_online : ∀ {k}, (∃ past e rest, tr = past ++ e :: rest ∧ e.records n key = true ∧
      ∀ r, r <+: rest → Online (past ++ e :: r) ⟨k, n⟩) → ¬ GoneSince tr n key k := by
    rintro k ⟨past, e, rest, htr, he, honline⟩ hgone
    have hsince : Since (fun e => e.records n key = true)
        (fun e => e.offlineFor ⟨k, n⟩ = true) tr := by
      refine ⟨past, e, rest, htr, he, fun x hx hoff => ?_⟩
      obtain ⟨r, r', rfl⟩ := List.append_of_mem hx
      have hlast : Online ((past ++ e :: r) ++ [x]) ⟨k, n⟩ := by
        simpa using honline (r ++ [x]) ⟨r', by simp⟩
      obtain ⟨c, rfl⟩ := Event.offlineFor_iff.mp hoff
      rcases since_concat.mp hlast with henter | ⟨-, hnot⟩
      · cases henter
      · exact hnot hoff
    obtain ⟨x, -, hx, hoff⟩ := hsince.meet hgone (fun _ h => h) fun _ h => h
    obtain ⟨c, rfl⟩ := Event.offlineFor_iff.mp hoff
    cases hx
  obtain ⟨past, e, rest, htr, he, -, hlive⟩ := h
  exact ⟨absurd_of_online ⟨past, e, rest, htr, he, fun r hr => (hlive r hr).1⟩,
    absurd_of_online ⟨past, e, rest, htr, he, fun r hr => (hlive r hr).2⟩⟩

section Steps

variable {s s' : Server} {a : Action} {tr evs : List Event} {n : ℤ} {key : String}

/-- What the condition says of a peer that is marked offline. -/
lemma Server.connect?_of_keepsPairs {c : ConnId} {k y : String}
    (hchange : s.change a = some (.offline c ⟨k, n⟩)) (ok : s.keepsPairs a = true)
    (hy : (s.inner.peer? ⟨y, n⟩).isSome) : s.inner.connect? n (unionPubKey k y).1 = none := by
  simp only [keepsPairs, hchange] at ok
  rw [ServerInner.peer?] at hy
  rw [ServerInner.connect?]
  cases hnet : s.inner.networks.lookup n with
  | none => rfl
  | some net =>
    simp only [hnet, Option.all_some, List.all_eq_true, Option.isNone_iff_eq_none] at ok
    rw [hnet, Option.bind_some] at hy
    obtain ⟨p, hp⟩ := Option.isSome_iff_exists.mp hy
    exact ok ⟨y, p⟩ (AList.mem_lookup_iff.mp hp)

/-- Which entry a step writes. -/
lemma Server.records_step (h : s.step a = some (s', evs)) :
    (∃ x ∈ evs, x.records n key = true) ↔
      ∃ c id target, s.change a = some (.connected c id target) ∧
      n = id.networkId ∧ key = (unionPubKey id.pubKey target).1 := by
  constructor
  · rintro ⟨x, hx, hrec⟩
    obtain ⟨c, id, target, rfl, hkey⟩ := Event.records_iff.mp hrec
    exact ⟨c, id, target, (mem_events h rfl).mp hx, hkey⟩
  · rintro ⟨c, id, target, hchange, hkey⟩
    exact ⟨_, (mem_events h rfl).mpr hchange, Event.records_iff.mpr ⟨c, id, target, rfl, hkey⟩⟩

/-- A step that writes no such entry leaves the entry as it is. -/
lemma Server.connect?_step (h : s.step a = some (s', evs))
    (hrec : ¬ ∃ x ∈ evs, x.records n key = true) :
    s'.inner.connect? n key = s.inner.connect? n key := by
  refine (step_inner h).1.connect?_of_ne fun c id target hchange hkey => hrec ?_
  exact (records_step h).mpr ⟨c, id, target, hchange, hkey⟩

/-- Who is marked offline in a step. -/
lemma Server.offlineFor_step {id : ClientId} (h : s.step a = some (s', evs)) {x : Event}
    (hx : x ∈ evs) (hout : ∀ c, s.change a ≠ some (.offline c id)) : x.offlineFor id = false := by
  rw [← Bool.not_eq_true, Event.offlineFor_iff]
  rintro ⟨c, rfl⟩
  exact hout c ((mem_events h rfl).mp hx)

/-- Who has gone offline after a step. -/
lemma goneSince_step {k : String} (h : s.step a = some (s', evs)) :
    GoneSince (tr ++ evs) n key k ↔ (∃ c, s.change a = some (.offline c ⟨k, n⟩)) ∨
      GoneSince tr n key k ∧ ¬ ∃ x ∈ evs, x.records n key = true := by
  have hstep : GoneSince (tr ++ evs) n key k ↔ GoneSince (tr ++ (s.change a).toList) n key k := by
    refine Server.since_step (fun e he => ?_) (fun e he => ?_) h
    · obtain ⟨c, rfl⟩ := Event.offlineFor_iff.mp he
      rfl
    · obtain ⟨c, id, target, rfl, -⟩ := Event.records_iff.mp he
      rfl
  rw [hstep, Server.records_step h]
  cases s.change a with
  | none => simp
  | some e =>
    rw [Option.toList_some, GoneSince, since_concat, Event.offlineFor_iff, Event.records_iff]
    simp [GoneSince]

end Steps

section Runs

variable {db : Database} {info : ServerInfo} {tr : List Event} {s : Server}

/-- In every run with such steps, all entries are live. -/
lemma Server.Reaches.livePair
    (run : s.Reaches db info (fun s a => s.keepsPairs a = true) tr) {n : ℤ} {key : String}
    (hkey : (s.inner.connect? n key).isSome) :
    ∃ a b, a ≠ b ∧ key = (unionPubKey a b).1 ∧ LivePair tr n key a b := by
  refine Run.invariant (I := fun tr s => ∀ n key, ((Server.inner s).connect? n key).isSome →
    ∃ a b, a ≠ b ∧ key = (unionPubKey a b).1 ∧ LivePair tr n key a b) ?_ ?_ run n key hkey
  · intro n key hkey
    cases hkey
  intro tr s a s' evs run ih ok h n key hkey
  by_cases hrec : ∃ x ∈ evs, x.records n key = true
  · -- the entry is written now, and both peers are online
    obtain ⟨c, id, target, hchange, rfl, rfl⟩ := (Server.records_step h).mp hrec
    have hok : (id.pubKey ≠ target ∧ (s.inner.presence id).isSome) ∧
        (s.inner.presence ⟨target, id.networkId⟩).isSome := by
      simpa [Server.keepsPairs, hchange] using ok
    obtain ⟨pre, post, rfl, hpre, hpost⟩ := Server.events_split h hchange
    have online : ∀ {id'}, (s.inner.presence id').isSome → ∀ r, r <+: post →
        Online ((tr ++ pre) ++ .connected c id target :: r) id' := by
      intro id' hid r hr
      rw [List.append_assoc]
      refine since_append.mpr (.inr ⟨(Server.Reaches.isSome_presence run id').mp hid, ?_⟩)
      intro x hx hoff
      obtain ⟨c', rfl⟩ := Event.offlineFor_iff.mp hoff
      rcases List.mem_append.mp hx with hx | hx
      · cases hpre _ hx
      rcases List.mem_cons.mp hx with hx | hx
      · cases hx
      · cases hpost _ (hr.subset hx)
    refine ⟨id.pubKey, target, hok.1.1, rfl, tr ++ pre, _, post, by simp,
      by simp [Event.records], fun x hx => ?_, fun r hr => ⟨online hok.1.2 r hr, online hok.2 r hr⟩⟩
    rw [← Bool.not_eq_true, Event.records_iff]
    rintro ⟨c', id', target', rfl, -⟩
    cases hpost _ hx
  · -- the entry was there before, and whoever goes offline is not in the table
    rw [Server.connect?_step h hrec] at hkey
    obtain ⟨k, y, hne, rfl, hlive⟩ := ih n key hkey
    have hk := Server.Reaches.isSome_peer? run hlive.online.1
    have hy := Server.Reaches.isSome_peer? run hlive.online.2
    refine ⟨k, y, hne, rfl, hlive.append ?_ fun x hx => ⟨?_, ?_⟩⟩
    · intro x hx
      simpa using fun hx' => hrec ⟨x, hx, hx'⟩
    · refine Server.offlineFor_step h hx fun c hchange => ?_
      rw [Server.connect?_of_keepsPairs hchange ok hy] at hkey
      cases hkey
    · refine Server.offlineFor_step h hx fun c hchange => ?_
      rw [unionPubKey_comm, Server.connect?_of_keepsPairs hchange ok hk] at hkey
      cases hkey

/-- In every run with such steps, a peer that went offline has no entry with another peer of the
network, until one is written. -/
lemma Server.Reaches.connect?_of_goneSince
    (run : s.Reaches db info (fun s a => s.keepsPairs a = true) tr) {n : ℤ} {x k : String}
    (hx : (s.inner.peer? ⟨x, n⟩).isSome) (hgone : GoneSince tr n (unionPubKey x k).1 k) :
    s.inner.connect? n (unionPubKey x k).1 = none := by
  refine Run.invariant (I := fun tr s => ((Server.inner s).peer? ⟨x, n⟩).isSome →
    GoneSince tr n (unionPubKey x k).1 k → s.inner.connect? n (unionPubKey x k).1 = none)
    (fun _ h => absurd h not_since_nil) ?_ run hx hgone
  intro tr s a s' evs run ih ok h hx hgone
  have hrec : ¬ ∃ e ∈ evs, e.records n (unionPubKey x k).1 = true := by
    rcases (goneSince_step h).mp hgone with ⟨c, hchange⟩ | ⟨-, hrec⟩
    · rw [Server.records_step h, hchange]
      rintro ⟨c', id, target, heq, -⟩
      cases heq
    · exact hrec
  rw [Server.connect?_step h hrec]
  cases hnet : s.inner.networks.lookup n with
  | none => rw [ServerInner.connect?, hnet, Option.bind_none]
  | some net =>
    rw [(Server.step_inner h).1.isSome_peer? (by simp [hnet])] at hx
    rcases (goneSince_step h).mp hgone with ⟨c, hchange⟩ | ⟨hgone, -⟩
    · rw [unionPubKey_comm]
      exact Server.connect?_of_keepsPairs hchange ok hx
    · exact ih hx hgone

/-- Whatever the server is like in its further sections, the handler ends in a broadcast of `data`
to `k`, among others. -/
inductive Handler.Tells (id : ClientId) (c : ConnId) (k : String) (data : ToClientData) :
    Handler → Prop
  | broadcast {keys : List String} (mem : k ∈ keys) :
      Tells id c k data (.broadcast (.only keys) data)
  | go {h : Handler}
      (goes : ∀ t env r, h.step t id c env = some r → ∃ h', r = (t, .go h', []))
      (next : ∀ t env h', h.step t id c env = some (t, .go h', []) → Tells id c k data h') :
      Tells id c k data h

/-- Who is to be told about a new endpoint is told. -/
lemma Handler.tells_of_mem {id : ClientId} {c : ConnId} {k : String} {m : ExtraEndpoint}
    {self : VlinkPeer} {rest keys : List String} (hk : k ∈ keys) :
    Handler.Tells id c k (.updateExtraEndpoint ⟨self.pubKey, m.proto, m.endpoint⟩)
      (.endpointLook m self rest keys) := by
  induction rest generalizing keys with
  | nil =>
    refine .go (fun t env r hr => ⟨_, (Option.some.inj hr).symm⟩) fun t env h' hr => ?_
    cases hr
    exact .broadcast hk
  | cons k' rest ih =>
    refine .go (fun t env r hr => ?_) fun t env h' hr => ?_
    · obtain ⟨net, -, hf⟩ := Option.map_eq_some_iff.mp hr
      exact ⟨_, hf.symm⟩
    obtain ⟨net, -, hf⟩ := Option.map_eq_some_iff.mp hr
    cases hf
    refine ih ?_
    unfold nextBroadTo
    split
    · split_ifs
      · exact List.mem_append_left _ hk
      · exact hk
    · exact hk

/-- In every run in which pairs are entered only while both peers are online, and nobody is marked
offline who is in the table: each entry of the table belongs to two registered peers that have been
online ever since the entry was written. And a peer that went offline and entered again is told
about a new endpoint for the default protocol of another peer, as long as no connection between
the two was reported since: it is among those that are gone through, and when it is its turn it is
added to those that are told.

**Proof sketch.** The invariant is that both peers of an entry have been online since it was
written. So there is no entry for a peer that went offline, and `nextBroadTo` adds it. -/
theorem connects_live (run : s.Reaches db info (fun s a => s.keepsPairs a = true) tr) :
    (∀ n key, (s.inner.connect? n key).isSome → ∃ a b, a ≠ b ∧ key = (unionPubKey a b).1 ∧
      (s.inner.peer? ⟨a, n⟩).isSome ∧ (s.inner.peer? ⟨b, n⟩).isSome ∧ LivePair tr n key a b) ∧
    ∀ n x k, x ≠ k → (s.inner.peer? ⟨x, n⟩).isSome → (s.inner.presence ⟨k, n⟩).isSome →
      GoneSince tr n (unionPubKey x k).1 k → ∀ c env m self, isDefault self m.proto = true →
      (∃ others, (Handler.endpointAudience m self).step s.inner ⟨x, n⟩ c env =
        some (s.inner, .go (.endpointLook m self others []), []) ∧ k ∈ others) ∧
      ∀ rest keys, ∃ h, (Handler.endpointLook m self (k :: rest) keys).step s.inner ⟨x, n⟩ c env =
        some (s.inner, .go h, []) ∧
        h.Tells ⟨x, n⟩ c k (.updateExtraEndpoint ⟨self.pubKey, m.proto, m.endpoint⟩) := by
  constructor
  · intro n key hkey
    obtain ⟨a, b, hne, hk, hlive⟩ := run.livePair hkey
    exact ⟨a, b, hne, hk, run.isSome_peer? hlive.online.1, run.isSome_peer? hlive.online.2, hlive⟩
  · intro n x k hne hx honline hgone c env m self hdefault
    have hnone := run.connect?_of_goneSince hx hgone
    obtain ⟨online, hpresence⟩ := Option.isSome_iff_exists.mp honline
    obtain ⟨p, hp, honline⟩ := Option.bind_eq_some_iff.mp hpresence
    obtain ⟨net, hnet, hp⟩ := Option.bind_eq_some_iff.mp hp
    rw [ServerInner.connect?, hnet, Option.bind_some] at hnone
    refine ⟨⟨onlineOthers net x, ?_, ?_⟩, fun rest keys => ⟨.endpointLook m self rest (keys ++ [k]),
      ?_, Handler.tells_of_mem (List.mem_append_right _ List.mem_cons_self)⟩⟩
    · rw [Handler.step, Handler.onNetwork, hnet, Option.map_some]
    · refine List.mem_filterMap.mpr ⟨⟨k, p⟩, AList.mem_lookup_iff.mp hp, ?_⟩
      simp [hne.symm, VlinkPeer.isOnline, honline]
    · rw [Handler.step, Handler.onNetwork, hnet, Option.map_some, nextBroadTo, hnone, hdefault]
      rfl

end Runs

section Examples

open Sample

/-- The first and the third peer enter and are connected; the second enters, is cut off and enters
again. -/
theorem connects_live_sample :
    ∃ s tr, Server.Reaches s db info (fun s a => s.keepsPairs a = true) tr ∧
      (s.inner.connect? 1 (unionPubKey keyA keyC).1).isSome ∧
      GoneSince tr 1 (unionPubKey keyA keyB).1 keyB ∧
      (∃ a b, a ≠ b ∧ (unionPubKey keyA keyC).1 = (unionPubKey a b).1 ∧
        LivePair tr 1 (unionPubKey keyA keyC).1 a b) ∧
      ∀ self, isDefault self "NatTcp" = true → (∃ others,
        (Handler.endpointAudience ⟨"NatTcp", ""⟩ self).step s.inner idA 0 {} =
          some (s.inner, .go (.endpointLook ⟨"NatTcp", ""⟩ self others []), []) ∧ keyB ∈ others) ∧
        ∃ h, (Handler.endpointLook ⟨"NatTcp", ""⟩ self [keyB] []).step s.inner idA 0 {} =
          some (s.inner, .go h, []) ∧
          h.Tells idA 0 keyB (.updateExtraEndpoint ⟨self.pubKey, "NatTcp", ""⟩) := by
  obtain ⟨s, tr, run, hcheck⟩ := exists_run_of_exec (checked Server.step Server.keepsPairs)
    (admission 0 keyA ++ configuration 0 2 ++ entrance 0 3 "10.0.0.2" ++
      admission 1 keyC ++ entrance 1 2 "10.0.0.9" ++ [go 1] ++
      say 0 4 (.devHandshakeComplete ⟨keyC, "NatTcp"⟩) ++ [go 0, go 0] ++
      admission 2 keyB ++ configuration 2 2 ++ entrance 2 3 "10.0.0.3" ++ [go 2, go 2] ++
      .act 2 .hangup :: List.replicate 8 (tidy 2) ++
      admission 3 keyB ++ entrance 3 2 "10.0.0.3" ++ [go 3, go 3])
    start (fun r => (r.1.inner.connect? 1 (unionPubKey keyA keyC).1).isSome &&
      (r.1.inner.peer? idA).isSome && (r.1.inner.presence idB).isSome &&
      decide (GoneSince r.2 1 (unionPubKey keyA keyB).1 keyB)) (by decide +kernel)
  simp only [Bool.and_eq_true, decide_eq_true_eq] at hcheck
  obtain ⟨⟨⟨hconnect, hA⟩, hB⟩, hgone⟩ := hcheck
  have hlive := connects_live run.of_checked
  refine ⟨s, tr, run.of_checked, hconnect, hgone, ?_, fun self hdefault => ?_⟩
  · obtain ⟨a, b, hne, hkey, -, -, hpair⟩ := hlive.1 1 _ hconnect
    exact ⟨a, b, hne, hkey, hpair⟩
  · obtain ⟨hothers, hlook⟩ :=
      hlive.2 1 keyA keyB (by decide +kernel) hA hB hgone 0 {} ⟨"NatTcp", ""⟩ self hdefault
    exact ⟨hothers, hlook [] []⟩

/-- The first two peers enter, and report that they are connected. Then the second is cut off and
enters again. The entry is still there, and the second peer is not told about a new endpoint of
the first, although it was offline since the entry was written. -/
theorem stale_connect :
    ∃ s tr, Server.Reaches s db info (fun _ _ => True) tr ∧
      (s.inner.connect? 1 (unionPubKey keyA keyB).1).isSome ∧
      (¬ ∃ a b, (unionPubKey keyA keyB).1 = (unionPubKey a b).1 ∧
        (s.inner.peer? ⟨a, 1⟩).isSome ∧ (s.inner.peer? ⟨b, 1⟩).isSome ∧
        LivePair tr 1 (unionPubKey keyA keyB).1 a b) ∧
      (s.inner.presence idB).isSome ∧ GoneSince tr 1 (unionPubKey keyA keyB).1 keyB ∧
      ∃ self, s.inner.peer? idA = some self ∧ isDefault self "NatTcp" = true ∧ ∀ rest keys,
        (Handler.endpointLook ⟨"NatTcp", ""⟩ self (keyB :: rest) keys).step s.inner idA 0 {} =
          some (s.inner, .go (.endpointLook ⟨"NatTcp", ""⟩ self rest keys), []) := by
  obtain ⟨s, tr, run, hcheck⟩ := exists_run_of_exec Server.step
    (admission 0 keyA ++ configuration 0 2 ++ entrance 0 3 "10.0.0.2" ++
      admission 1 keyB ++ configuration 1 2 ++ entrance 1 3 "10.0.0.3" ++ [go 1] ++
      say 0 4 (.devHandshakeComplete ⟨keyB, "NatTcp"⟩) ++ [go 0, go 0] ++
      .act 1 .hangup :: List.replicate 7 (tidy 1) ++
      admission 2 keyB ++ entrance 2 2 "10.0.0.3" ++ [go 2])
    start (fun r => (r.1.inner.connect? 1 (unionPubKey keyA keyB).1).isSome &&
      (r.1.inner.presence idB).isSome && decide (GoneSince r.2 1 (unionPubKey keyA keyB).1 keyB) &&
      (r.1.inner.peer? idA).any (isDefault · "NatTcp") &&
      (r.1.inner.networks.lookup 1).any fun net =>
        net.peers.entries.all (fun e => net.peers.entries.all fun e' =>
          decide ((unionPubKey keyA keyB).1 = (unionPubKey e.1 e'.1).1 →
            e.1 = keyB ∨ e'.1 = keyB)) &&
        (net.connects.lookup (unionPubKey keyA keyB).1).isSome) (by decide +kernel)
  simp only [Bool.and_eq_true, decide_eq_true_eq, Option.any_eq_true] at hcheck
  obtain ⟨⟨⟨⟨hconnect, hB⟩, hgone⟩, self, hself, hdefault⟩, net, hnet, hpairs, hnot⟩ := hcheck
  refine ⟨s, tr, run, hconnect, ?_, hB, hgone, self, hself, hdefault, ?_⟩
  · rintro ⟨a, b, hkey, ha, hb, hlive⟩
    have entry : ∀ {k}, (s.inner.peer? ⟨k, 1⟩).isSome → ∃ p, ⟨k, p⟩ ∈ net.peers.entries := by
      intro k hk
      rw [ServerInner.peer?, hnet, Option.bind_some] at hk
      obtain ⟨p, hp⟩ := Option.isSome_iff_exists.mp hk
      exact ⟨p, AList.mem_lookup_iff.mp hp⟩
    obtain ⟨p, hp⟩ := entry ha
    obtain ⟨q, hq⟩ := entry hb
    simp only [List.all_eq_true, decide_eq_true_eq] at hpairs
    rcases hpairs _ hp _ hq hkey with rfl | rfl
    · exact hlive.not_goneSince.1 hgone
    · exact hlive.not_goneSince.2 hgone
  · intro rest keys
    obtain ⟨connect, hconnect⟩ := Option.isSome_iff_exists.mp hnot
    rw [Handler.step, Handler.onNetwork, show idA.networkId = 1 from rfl, hnet, Option.map_some,
      nextBroadTo, show idA.pubKey = keyA from rfl, hconnect]

end Examples

end Vlink.Headlink
