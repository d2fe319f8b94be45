import Vlink.Device.Networks
import Vlink.Device.Replay

set_option autoImplicit false

/-!
# Which peer a packet belongs to

`tick_outbound` hands a packet from the TUN device to the peer whose networks contain its
destination. In the other direction the networks are not consulted: what the session of a peer has
decrypted is written to the TUN device as it is, whatever source address it carries.

## Main definitions

* `Vlink.Device.source` — the source address of an IP packet.

## Main results

* `Vlink.Device.tunSend_routing` — what is written for a peer, and what is handed to it.
* `Vlink.Device.source_spoofed` — a peer injects a packet with the address of another one.
-/

namespace Vlink

/-- What is written to the TUN device for a peer is the plaintext, which is not empty, of a data
packet that was staged for this peer with a session of this peer. -/
def DeliversStaged (C : Crypto) (tr : List Event) : Prop :=
  Historically (fun past e => ∀ p s data, e = .tunSend p s data →
    data ≠ [] ∧ s.secret.publicKey = p ∧
      ∃ packet, .staged p packet s ∈ past ∧ s.decryptData C packet = .ok data) tr

/-- The data packets of a peer were staged for it, with sessions of this peer. -/
structure Staged (C : Crypto) (tr : List Event) (v : View) : Prop where
  queue : ∀ {p x}, x ∈ (v.peer p).queue → .staged p x.1 x.2 ∈ tr ∧ x.2.secret.publicKey = p
  delivered : DeliversStaged C tr

section Steps

variable {C : Crypto} {inp : Option Bytes} {p : Key} {tr evs : List Event} {v v' : View}
  {st st' : Store} {pv pv' : PeerView}

/-- What a step writes to the TUN device was staged before. -/
lemma Staged.delivered_step (h : Staged C tr v)
    (hstep : PeerView.Step C inp p v.store (v.peer p) evs st pv) :
    DeliversStaged C (tr ++ evs) := by
  refine hstep.historically_tunSend (fun {packet s data} opened hmem nonempty decrypted => ?_)
    h.delivered
  obtain ⟨staged, owner⟩ := h.queue hmem
  exact ⟨nonempty, owner, packet, List.mem_append_left _ staged, decrypted⟩

/-- A step keeps the invariant. -/
lemma Staged.step (h : Staged C tr v) (hstep : View.Step C inp v evs v') :
    Staged C (tr ++ evs) v' := by
  obtain @⟨p, st, pv, hpeer⟩ := hstep
  refine ⟨fun {q x} hx => ?_, h.delivered_step hpeer⟩
  have old : ∀ {q}, x ∈ (v.peer q).queue →
      .staged q x.1 x.2 ∈ tr ++ evs ∧ x.2.secret.publicKey = q :=
    fun hx => (h.queue hx).imp_left (List.mem_append_left _)
  simp only [Function.update_apply] at hx
  split_ifs at hx with hq
  · subst hq
    rcases hpeer.queue_from hx with hx | ⟨-, hs, owner⟩
    · exact old hx
    · exact ⟨List.mem_append_right _ hs, owner⟩
  · exact old hx

end Steps

namespace Device

variable {C : Crypto} {tr : List Event} {d : Device}

/-- What is written to the TUN device was staged, in every run. -/
lemma Reaches.staged {privateKey : Key} {start : UInt32} {guard : Device → Action → Prop}
    (run : d.Reaches C privateKey start guard tr) : Staged C tr d.view :=
  (run.view_invariant
    (I := Staged C) ⟨fun hx => absurd hx List.not_mem_nil, historically_nil⟩
    fun _ h _ _ hstep => h.step hstep).1

/-- A packet from the TUN device is handed to the peer whose networks contain its destination. -/
lemma routed_iff {buf : Bytes} {d' : Device} {evs : List Event} {p : Key}
    (h : d.step C (.tunRecv buf) = some (d', evs)) :
    .routed p buf ∈ evs ↔
      ∃ dst, destination buf = .ret (some dst) ∧ d.getByIp dst = some p ∧ (d.peers p).isSome := by
  rw [step] at h
  split_ifs at h
  unfold tickOutbound at h
  cases hdst : destination buf with
  | panic =>
    simp only [hdst, Outcome.panic_bind] at h
    cases h
    simp
  | ret o =>
    cases o with
    | none =>
      simp only [hdst, Outcome.ret_bind, Outcome.pure_eq] at h
      cases h
      simp
    | some dst =>
      simp only [hdst, Outcome.ret_bind, Outcome.pure_eq] at h
      cases hip : d.getByIp dst with
      | none =>
        simp only [hip] at h
        cases h
        simp [hip]
      | some q =>
        simp only [hip, Option.some.injEq, stageOutbound] at h
        cases hq : d.peers q with
        | none =>
          simp only [hq] at h
          cases h
          simp only [List.not_mem_nil, false_iff, not_exists, not_and, Outcome.ret.injEq,
            Option.some.injEq]
          rintro _ rfl hp
          rw [hip] at hp
          cases hp
          simp [hq]
        | some n =>
          simp only [hq] at h
          cases h
          simp only [List.mem_singleton, Event.routed.injEq, and_true, Outcome.ret.injEq,
            Option.some.injEq, exists_eq_left', hip]
          constructor
          · rintro rfl
            exact ⟨rfl, by simp [hq]⟩
          · rintro ⟨rfl, -⟩
            rfl

/-- A data packet that passes the replay check and has a plaintext that is not empty is written to
the TUN device. -/
lemma tunSend_of_decrypted {st : Store} (hrem : st.heap.Remembers tr) (peer : Peer) (env : Env)
    (endpoint : OutboundSender) {packet : TransportData} {session : Session} {data : Bytes}
    (hc : packet.counter.toNat ≤ rejectAfterMessages)
    (fresh : session.canAccept st.heap packet.counter = .ret true)
    (decrypted : session.decryptData C packet = .ok data) (nonempty : data ≠ []) :
    ∃ st' peer' evs, peer.handleTransportData C st env endpoint packet session =
      .ret (st', peer', evs) ∧ .tunSend peer.pubKey session data ∈ evs := by
  obtain ⟨heap, hh, -⟩ := hrem.aceept hc fresh
  obtain ⟨b, data, rfl⟩ := List.exists_cons_of_ne_nil nonempty
  -- promoting the session leaves the cells and the public key alone
  have hp : ∃ st₁ peer₁ evs₁, peer.promote st env packet session = .ret (st₁, peer₁, evs₁) ∧
      st₁.heap = st.heap ∧ peer₁.pubKey = peer.pubKey := by
    rcases peer.promote_cases st env packet session with ⟨-, hp⟩ | ⟨_, _, -, -, -, -, hp⟩
    · exact ⟨_, _, _, hp, rfl, rfl⟩
    · exact ⟨_, _, _, hp, rfl, rfl⟩
  obtain ⟨st₁, peer₁, evs₁, hp, hheap, hkey⟩ := hp
  rw [← hheap] at fresh hh
  refine ⟨{ st₁ with heap }, peer₁.updateEndpoint endpoint, _, by
    simp only [Peer.handleTransportData, hp, Outcome.ret_bind, Peer.receive, fresh, decrypted, hh]
    rfl, ?_⟩
  rw [← hkey]
  exact List.mem_append_right _ (List.mem_cons_of_mem _ (List.mem_cons_of_mem _
    List.mem_cons_self))

/-- **Packets and their peers.** In every run, what is written to the TUN device for a peer is the
plaintext of a data packet that was staged for this peer and decrypted by a session of this peer.
Every such plaintext that passes the replay check and is not empty is written; its addresses are not
looked at. In the other direction, a packet from the TUN device is handed to a peer exactly if the
networks route its destination to that peer. -/
theorem tunSend_routing (C : Crypto) (privateKey : Key) (start : UInt32)
    (run : d.Reaches C privateKey start (fun _ _ => True) tr) :
    Historically (fun past e => ∀ p s data, e = .tunSend p s data →
      data ≠ [] ∧ s.secret.publicKey = p ∧
        ∃ packet, .staged p packet s ∈ past ∧ s.decryptData C packet = .ok data) tr ∧
    (∀ (peer : Peer) env endpoint packet session data,
      packet.counter.toNat ≤ rejectAfterMessages →
      session.canAccept d.store.heap packet.counter = .ret true →
      session.decryptData C packet = .ok data → data ≠ [] →
      ∃ st' peer' evs, peer.handleTransportData C d.store env endpoint packet session =
        .ret (st', peer', evs) ∧ .tunSend peer.pubKey session data ∈ evs) ∧
    ∀ buf d' evs p, d.step C (.tunRecv buf) = some (d', evs) →
      (.routed p buf ∈ evs ↔
        ∃ dst, destination buf = .ret (some dst) ∧ d.getByIp dst = some p) := by
  have hrem : d.store.heap.Remembers tr := run.filters.remembers
  refine ⟨run.staged.delivered, ?_, fun buf d' evs p h => (routed_iff h).trans ?_⟩
  · intro peer env endpoint packet session data hc fresh decrypted nonempty
    exact tunSend_of_decrypted hrem peer env endpoint hc fresh decrypted nonempty
  · refine exists_congr fun dst => and_congr_right fun _ => and_iff_left_of_imp fun hfound => ?_
    exact run.isSome_peers hfound

/-- The source address of an IP packet; `none` for packets that are too short or of another
version. -/
def source (buf : Bytes) : Option IpAddr :=
  match buf with
  | [] => none
  | b :: _ =>
    if b &&& 0xF0 = 0x40 then
      match buf.block 12 4 with
      | .ret addr => if buf.length < 20 then none else some (.ofOctets4 addr)
      | .panic => none
    else if b &&& 0xF0 = 0x60 then
      match buf.block 8 16 with
      | .ret addr => if buf.length < 40 then none else some (.ofOctets16 addr)
      | .panic => none
    else none

/-- Another peer, with an address of its own. -/
def another : PeerConfig :=
  { Sample.config with
    publicKey := Crypto.sample.publicKey (Crypto.leBlock 32 99)
    allowedIps := [⟨.v4 0x0A000003#32, 32⟩] }

/-- The address of the other peer. -/
def anotherIp : Bytes := [10, 0, 0, 3]

/-- The device knows both peers. The first one sends a packet that carries the address of the other
as its source. -/
def spoof : List Action :=
  .insertPeer another 0 :: Sample.answer ++
    [.receive Sample.endpoint (Sample.packet 0 (Sample.ipPacket anotherIp [10, 0, 0, 1]))
      (Sample.env 0), Sample.inbound, Sample.inbound]

/-- The packet of the first peer is written to the TUN device. -/
def spoofed (r : Device × List Event) : Bool :=
  (r.2.any fun
    | .tunSend p _ data => p = Sample.remote ∧ data = Sample.ipPacket anotherIp [10, 0, 0, 1]
    | _ => false) &&
  decide (r.1.getByIp (.v4 0x0A000003#32) = some another.publicKey)

/-- The outcome of `spoof`. -/
lemma exists_spoofed : ∃ (d : Device) (tr : List Event) (s : Session),
    d.Reaches .sample Sample.localKey Sample.start (fun _ _ => True) tr ∧
      .tunSend Sample.remote s (Sample.ipPacket anotherIp [10, 0, 0, 1]) ∈ tr ∧
      d.getByIp (.v4 0x0A000003#32) = some another.publicKey := by
  obtain ⟨d, tr, run, check⟩ := exists_run_of_exec (step .sample) spoof Sample.device spoofed
    (by decide +kernel)
  obtain ⟨hany, hip⟩ := Bool.and_eq_true_iff.mp check
  obtain ⟨e, he, hsend⟩ := List.any_eq_true.mp hany
  cases e with
  | tunSend p s data =>
    obtain ⟨rfl, rfl⟩ := of_decide_eq_true hsend
    exact ⟨d, tr, s, run, he, of_decide_eq_true hip⟩
  | _ => cases hsend

/-- The packet that is written was staged for the peer that sent it. -/
theorem tunSend_routing_sample : ∃ (d : Device) (tr : List Event) (s : Session)
    (packet : TransportData),
    d.Reaches .sample Sample.localKey Sample.start (fun _ _ => True) tr ∧
      s.secret.publicKey = Sample.remote ∧ .staged Sample.remote packet s ∈ tr ∧
      s.decryptData .sample packet = .ok (Sample.ipPacket anotherIp [10, 0, 0, 1]) := by
  obtain ⟨d, tr, s, run, hsend, -⟩ := exists_spoofed
  obtain ⟨past, rest, rfl⟩ := List.append_of_mem hsend
  obtain ⟨-, owner, packet, staged, decrypted⟩ :=
    (tunSend_routing _ _ _ run).1 past _ rest rfl _ _ _ rfl
  exact ⟨d, _, s, packet, run, owner, List.mem_append_left _ staged, decrypted⟩

/-- **A peer injects a packet with the address of another peer.** The source address of the packet
that is written for one peer is routed to the other. -/
theorem source_spoofed : ∃ (d : Device) (tr : List Event) (s : Session) (src : IpAddr) (q : Key),
    d.Reaches .sample Sample.localKey Sample.start (fun _ _ => True) tr ∧
      .tunSend Sample.remote s (Sample.ipPacket anotherIp [10, 0, 0, 1]) ∈ tr ∧
      source (Sample.ipPacket anotherIp [10, 0, 0, 1]) = some src ∧
      d.getByIp src = some q ∧ q ≠ Sample.remote := by
  obtain ⟨d, tr, s, run, hsend, hip⟩ := exists_spoofed
  exact ⟨d, tr, s, .v4 0x0A000003#32, another.publicKey, run, hsend, by decide +kernel, hip,
    by decide +kernel⟩

end Device

end Vlink
