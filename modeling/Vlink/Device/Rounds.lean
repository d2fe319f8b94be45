import Vlink.Device.Lifecycle

set_option autoImplicit false

/-!
# The handshake loop goes round

Whatever the other tasks do meanwhile, `loop_handshake` of a peer that is online can always go on:
once enough time has passed it sends another initiation. Each round draws one index, allocates one
cell and replaces the half-initialised session. Nothing else of the peer changes.

## Main results

* `Vlink.PeerNode.handshake_round` — one round.
* `Vlink.Device.handshake_rounds` — any number of rounds.
-/

namespace Vlink

namespace PeerNode

variable {C : Crypto}

/-- From every time on there is one at which the monitor lets the loop initiate. -/
lemma exists_canHandshake (m : PeerMonitor) (t : Instant) :
    ∃ now, t ≤ now ∧ (m.canHandshake now).1 = true := by
  have late : ∀ (a b : ℤ) (k l : ℕ), a ≤ b → k ≤ (b + ((k + l : ℕ) : ℤ) - a).toNat ∧
      l ≤ (b + ((k + l : ℕ) : ℤ) - a).toNat := by
    intro a b k l hab
    omega
  have after : ∀ (a b : ℤ) (k : ℕ), a ≤ b → a ≤ b + k := by
    intro a b k hab
    omega
  let last := max t (max m.handshake.lastCompleteAt.toStd m.handshake.lastAttemptAt.toStd)
  have complete : m.handshake.lastCompleteAt.toStd ≤ last :=
    (Int.le_max_left ..).trans (Int.le_max_right ..)
  have attempt : m.handshake.lastAttemptAt.toStd ≤ last :=
    (Int.le_max_right ..).trans (Int.le_max_right ..)
  exact ⟨last + ((rekeyAfterTime + rekeyTimeout : ℕ) : ℤ), after _ _ _ (Int.le_max_left ..),
    (PeerMonitor.canHandshake_of_elapsed (late _ last _ _ complete).1
      (late _ last _ _ attempt).2).1⟩

/-- The peer, with another state of its data and of its handshake task. -/
def withHandshake (n : PeerNode) (peer : Peer) (task : HandshakeTask) : PeerNode :=
  { n with peer, handshakeTask := task }

/-- Two states of a peer that differ at most in monitor and handshake. -/
structure Alike (peer peer' : Peer) : Prop where
  pubKey : peer'.pubKey = peer.pubKey
  online : peer'.online = peer.online
  sessions : peer'.sessions = peer.sessions

section Steps

variable (n : PeerNode) (peer : Peer) (st : Store)

/-- From the head of the loop, when the time has come. -/
lemma step_waiting (env : Env) (honline : peer.online = true)
    (hcan : (peer.monitor.canHandshake env.now).1 = true) :
    ∃ peer', Alike peer peer' ∧ (n.withHandshake peer .waiting).handshakeStep C st env =
      some (.ret (st, n.withHandshake peer' .initiating, [])) := by
  cases hc : peer.monitor.canHandshake env.now with
  | mk can monitor =>
    rw [hc] at hcan
    cases hcan
    refine ⟨{ peer with monitor }, ⟨rfl, rfl, rfl⟩, ?_⟩
    simp only [withHandshake, handshakeStep, hc, honline, if_true]

/-- `initiate`. -/
lemma step_initiating (env : Env) (hC : C.Lawful) :
    ∃ peer' packet u, Alike peer peer' ∧ u.senderIndex = st.index.index ∧
      (n.withHandshake peer .initiating).handshakeStep C st env =
        some (.ret (⟨st.index.nextIndex.2, st.heap.alloc⟩,
          n.withHandshake peer' (.preparing u packet),
          [.initiated peer.pubKey env.ephemeral u])) := by
  obtain ⟨r, hinit⟩ := Handshake.initiate_returns hC peer.handshake st env
  obtain ⟨out, packet, hout, rfl⟩ := Handshake.initiate_eq_ret.mp hinit
  refine ⟨{ peer with handshake := { peer.handshake with state := .initiation out } }, packet,
    ⟨peer.handshake.secret, st.index.index, Block.zero 32, 0, Block.zero 32, st.heap.size⟩,
    ⟨rfl, rfl, rfl⟩, rfl, ?_⟩
  show some (peer.handshake.initiate C st env >>= _) = _
  rw [hinit]
  rfl

/-- `prepare_uninit`. -/
lemma step_preparing (env : Env) (u : Session) (packet : Bytes) :
    ∃ index : SessionIndex, index.index = st.index.index ∧
      (n.withHandshake peer (.preparing u packet)).handshakeStep C st env =
        some (.ret ({ st with index }, n.withHandshake
          { peer with sessions := { peer.sessions with uninit := some u } } (.sending packet),
          [])) := by
  obtain ⟨t, ht, hidx, -⟩ := ActiveSession.prepareUninit_spec st.index peer.sessions u
  refine ⟨t, hidx, ?_⟩
  show some (peer.sessions.prepareUninit st.index u >>= _) = _
  rw [ht]
  rfl

/-- The rest of the loop. -/
lemma steps_after (env : Env) (packet : Bytes) :
    ∃ peer' sent, Alike peer peer' ∧ (∀ e ∈ sent, e.Silent) ∧
    Run (alone (handshakeStep C)) (fun _ _ => True)
      (st, n.withHandshake peer (.sending packet)) sent
      (st, n.withHandshake peer' .waiting) := by
  let peer' := peer.initiated env.now
  let wake := peer'.monitor.handshake.willInitiateIn env.now
  have h₁ : (n.withHandshake peer (.sending packet)).handshakeStep C st env = some (.ret (st,
      n.withHandshake peer .sent,
      (n.withHandshake peer (.sending packet)).sendOutbound env packet)) := rfl
  have h₂ : (n.withHandshake peer .sent).handshakeStep C st env =
      some (.ret (st, n.withHandshake peer' .resting, [])) := rfl
  have h₃ : (n.withHandshake peer' .resting).handshakeStep C st env =
      some (.ret (st, n.withHandshake peer' (.sleeping wake), [])) := rfl
  have h₄ : (n.withHandshake peer' (.sleeping wake)).handshakeStep C st { env with now := wake } =
      some (.ret (st, n.withHandshake peer' .waiting, [])) := if_pos le_rfl
  have run := run_alone (run_alone (run_alone (run_alone .nil _ h₁) _ h₂) _ h₃) _ h₄
  refine ⟨peer', _, ⟨rfl, rfl, rfl⟩, ?_, run⟩
  simpa using silent_sendOutbound (n.withHandshake peer (.sending packet)) env packet

end Steps

/-- **One round.** A peer that is online and whose handshake loop is at its head sends an
initiation and comes back to the head of the loop. -/
theorem handshake_round (hC : C.Lawful) (n : PeerNode) (peer : Peer) (st : Store) (env : Env)
    (honline : peer.online = true) :
    ∃ st' peer' u sent, Run (alone (handshakeStep C)) (fun _ _ => True)
        (st, n.withHandshake peer .waiting) (.initiated peer.pubKey env.ephemeral u :: sent)
        (st', n.withHandshake peer' .waiting) ∧
      (∀ e ∈ sent, e.Silent) ∧
      Alike { peer with sessions := { peer.sessions with uninit := some u } } peer' ∧
      u.senderIndex = st.index.index ∧ st'.index.index = st.index.index + 1 ∧
      st'.heap = st.heap.alloc := by
  obtain ⟨now, -, hcan⟩ := exists_canHandshake peer.monitor env.now
  obtain ⟨peer₁, alike₁, h₁⟩ :=
    step_waiting (C := C) n peer st { env with now } honline hcan
  obtain ⟨peer₂, packet, u, alike₂, hu, h₂⟩ := step_initiating n peer₁ st env hC
  obtain ⟨index, hindex, h₃⟩ := step_preparing (C := C) n peer₂
    ⟨st.index.nextIndex.2, st.heap.alloc⟩ env u packet
  obtain ⟨peer', sent, alike', hsent, run'⟩ := steps_after (C := C) n
    { peer₂ with sessions := { peer₂.sessions with uninit := some u } } ⟨index, st.heap.alloc⟩ env
    packet
  have run := run_alone (run_alone (run_alone .nil _ h₁) _ h₂) _ h₃
  refine ⟨⟨index, st.heap.alloc⟩, peer', u, sent, ?_, hsent, ⟨?_, ?_, ?_⟩, hu, hindex, rfl⟩
  · rw [alike₁.pubKey] at run
    exact run.trans run'
  · exact alike'.pubKey.trans (alike₂.pubKey.trans alike₁.pubKey)
  · exact alike'.online.trans (alike₂.online.trans alike₁.online)
  · rw [alike'.sessions]
    show { peer₂.sessions with uninit := some u } = { peer.sessions with uninit := some u }
    rw [alike₂.sessions, alike₁.sessions]

end PeerNode

namespace Device

variable {C : Crypto} {p : Key}

/-- **Any number of rounds.** The handshake loop of a peer that is online can send `k` initiations
in a row, with any ephemeral keys, while all other tasks stand still.

**Proof sketch.** Induction on `k`: each round goes through all places of the loop. -/
theorem handshake_rounds (hC : C.Lawful) (env : Env) (keys : ℕ → Key) {d : Device} {n : PeerNode}
    (hn : d.peers p = some n) (honline : n.peer.online = true)
    (hwaiting : n.handshakeTask = .waiting) (k : ℕ) :
    ∃ d' peer' uninit tr, Run (step C) (fun _ _ => True) d tr d' ∧
      d'.peers p = some (n.withHandshake peer' .waiting) ∧
      PeerNode.Alike { n.peer with sessions := { n.peer.sessions with uninit } } peer' ∧
      (0 < k → ∃ u, uninit = some u ∧ u.senderIndex + 1 = d'.store.index.index) ∧
      d'.store.index.index = d.store.index.index + UInt32.ofNat k ∧
      (∀ r < d.store.heap.size, d'.store.heap.cell r = d.store.heap.cell r) ∧
      d.store.heap.size ≤ d'.store.heap.size ∧
      tr.filterMap Event.ephemeral? = (List.range k).map keys ∧
      ∀ e ∈ tr, e.Silent ∨ ∃ q a u, e = .initiated q a u := by
  induction k with
  | zero =>
    have hn' : n.withHandshake n.peer .waiting = n := by
      rw [PeerNode.withHandshake, ← hwaiting]
    refine ⟨d, n.peer, n.peer.sessions.uninit, [], .nil, by rw [hn', hn], ⟨rfl, rfl, rfl⟩, by simp,
      by simp, fun r _ => rfl, le_rfl, rfl, by simp⟩
  | succ k ih =>
    obtain ⟨d₁, peer₁, uninit₁, tr₁, run₁, hn₁, alike₁, -, hindex₁, hcell₁, hsize₁, heph₁,
      hevs₁⟩ := ih
    obtain ⟨st, peer', u, sent, run, hsent, alike, hu, hindex, hheap⟩ :=
      PeerNode.handshake_round hC n peer₁ d₁.store { env with ephemeral := keys k }
        (alike₁.online.trans honline)
    have run' := run₁.trans (run_of_alone (.handshake p) (fun _ _ => rfl) (fun _ _ => trivial)
      hn₁ run)
    refine ⟨_, peer', some u, _, run', by simp, ⟨?_, ?_, ?_⟩, fun _ => ⟨u, rfl, ?_⟩, ?_,
      fun r hr => ?_, ?_, ?_, ?_⟩
    · exact alike.pubKey.trans alike₁.pubKey
    · exact alike.online.trans alike₁.online
    · rw [alike.sessions]
      show { peer₁.sessions with uninit := some u } = { n.peer.sessions with uninit := some u }
      rw [alike₁.sessions]
    · show u.senderIndex + 1 = st.index.index
      rw [hindex, hu]
    · show st.index.index = _
      rw [hindex, hindex₁, UInt32.ofNat_add, UInt32.add_assoc]
      rfl
    · show st.heap.cell r = _
      rw [hheap, Heap.cell_alloc_of_ne _ (by omega), hcell₁ r hr]
    · show _ ≤ st.heap.size
      rw [hheap, Heap.size_alloc]
      omega
    · have hsilent : sent.filterMap Event.ephemeral? = [] := by
        refine List.filterMap_eq_nil_iff.mpr fun e he => ?_
        have hs := hsent e he
        cases e <;> first | rfl | exact hs.elim
      rw [List.filterMap_append, heph₁, List.range_succ, List.map_append]
      simp [Event.ephemeral?, hsilent]
    · intro e he
      rcases List.mem_append.mp he with he | he
      · exact hevs₁ e he
      · rcases List.mem_cons.mp he with rfl | he
        · exact .inr ⟨_, _, _, rfl⟩
        · exact .inl (hsent e he)

end Device

end Vlink
