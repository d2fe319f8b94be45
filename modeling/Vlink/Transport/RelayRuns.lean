import Vlink.Transport.Relay

set_option autoImplicit false

/-!
# Calls of `connect_derp_server`, one after the other

A relay transport keeps the connections to relays that it has made. Calls of `connect_derp_server`
for any servers and peers follow one another, and in between the connections may break. An entry is
never removed from the map of connections, and the call that makes a connection returns before the
endpoint of the peer is replaced. So a call gives a usable endpoint exactly if the relay was
connected before and its connection is still there.

## Main definitions

* `Vlink.Transport.Relays`, `Vlink.Transport.Relays.step` — a relay transport with the connections
  that it has made: calls, and ends of connections.
* `Vlink.Transport.Relays.Usable` — the connection is running, and the endpoint of the peer is at
  it.

## Main results

* `Vlink.Transport.Relays.Inv.step` — an entry belongs to its server, and no endpoint is ahead of
  the connections.
* `Vlink.Transport.usable_iff` — when a call that comes back with a sender gives a usable endpoint.
* `Vlink.Transport.not_usable` — calls that do not: the first for a relay, and one after the
  connection has ended.
-/

namespace Vlink.Transport

open Headlink (ToClient)

/-- What comes of a new connection. `await_handshake` also hands back a stream that the server has
closed during the handshake. -/
inductive Attempt where
  | notCreated (e : String)
  | notConnected (e : String)
  | connected (isOpen : Bool)

/-- The outcome for `connect_derp_server`, when the connection gets the number `n`. -/
def Attempt.dial (n : ℕ) : Attempt → Dial
  | .notCreated e => .notCreated e
  | .notConnected e => .notConnected e
  | .connected _ => .connected n

/-- A relay transport with all connections that it has made: the server of each, and whether it is
still running. -/
structure Relays where
  relay : Relay
  conns : List (String × Bool)

/-- A call of `connect_derp_server`, or the end of a connection. -/
inductive RelaysAction where
  | connect (server : String) (target : Key) (attempt : Attempt)
  | terminate (n : ℕ)

/-- A call has returned. -/
inductive RelaysEvent where
  | returned (server : String) (target : Key) (r : Except String ℕ)
deriving DecidableEq

namespace Relays

/-- `connect_derp_server`: the transport afterwards, and what it returns. -/
def connect (s : Relays) (server : String) (target : Key) (attempt : Attempt) :
    Relays × Except String ℕ :=
  let (relay, r) := s.relay.connectDerpServer server target (attempt.dial s.conns.length)
  match s.relay.derpClientMap.lookup server, attempt with
  | none, .connected isOpen => (⟨relay, s.conns ++ [(server, isOpen)]⟩, r)
  | _, _ => (⟨relay, s.conns⟩, r)

/-- One step. -/
def step (s : Relays) : RelaysAction → Option (Relays × List RelaysEvent)
  | .connect server target attempt =>
    let (s, r) := s.connect server target attempt
    some (s, [.returned server target r])
  | .terminate n =>
    match s.conns[n]? with
    | some (server, true) => some ({ s with conns := s.conns.set n (server, false) }, [])
    | _ => none

/-- The transport after `spawn`. -/
def start (device : Device) (rx : Receiver ToClient) : Relays := ⟨⟨∅, device, rx, .receiving⟩, []⟩

/-- The sender `tx` belongs to a running connection to the server, and the endpoint of the peer is
its key at this connection. -/
def Usable (s : Relays) (server : String) (target : Key) (tx : ℕ) : Prop :=
  s.conns[tx]? = some (server, true) ∧ s.relay.endpoint? target = some (derpSender target tx)

/-- If there is such a peer, then the relay has an entry, and its connection is running, or it has
none, and no new connection is made. -/
def Ready (s : Relays) (server : String) (target : Key) (attempt : Attempt) : Prop :=
  (s.relay.device.getByKey target).isSome →
    match s.relay.derpClientMap.lookup server with
    | some n => s.conns[n]?.map (·.2) = some true
    | none => ∀ isOpen, attempt ≠ .connected isOpen

/-! ## Entries and endpoints -/

/-- Every entry is a connection to its server. An endpoint at a relay is at a connection that was
made. -/
structure Inv (s : Relays) : Prop where
  entry : ∀ server n, s.relay.derpClientMap.lookup server = some n →
    ∃ isOpen, s.conns[n]? = some (server, isOpen)
  endpoint : ∀ k k' n, s.relay.endpoint? k = some (derpSender k' n) → n < s.conns.length

variable {s s' : Relays} {server : String} {target : Key} {attempt : Attempt}

/-- A sender names its connection. -/
lemma derpSender_inj {k k' : Key} {n n' : ℕ} (h : derpSender k n = derpSender k' n') :
    n = n' := by
  have hpair : Nat.pair n (leNat k.val) = Nat.pair n' (leNat k'.val) := by
    simpa [derpSender] using h
  exact (Nat.pair_eq_pair.mp hpair).1

/-- A call for a relay that has an entry. -/
lemma connect_of_some {n : ℕ} (h : s.relay.derpClientMap.lookup server = some n) :
    s.connect server target attempt = (⟨s.relay.replaceEndpoint target n, s.conns⟩, .ok n) := by
  simp [connect, Relay.connectDerpServer, h]

/-- A call that makes a connection. -/
lemma connect_connected (h : s.relay.derpClientMap.lookup server = none) (isOpen : Bool) :
    s.connect server target (.connected isOpen) =
      (⟨{ s.relay with derpClientMap := s.relay.derpClientMap.insert server s.conns.length },
        s.conns ++ [(server, isOpen)]⟩, .ok s.conns.length) := by
  simp [connect, Relay.connectDerpServer, h, Attempt.dial]

/-- A call that fails changes nothing. -/
lemma connect_failed (target : Key) (h : s.relay.derpClientMap.lookup server = none)
    (hfail : ∀ isOpen, attempt ≠ .connected isOpen) :
    ∃ e, s.connect server target attempt = (s, .error e) := by
  cases attempt with
  | notCreated e => exact ⟨_, by simp [connect, Relay.connectDerpServer, h, Attempt.dial]; rfl⟩
  | notConnected e => exact ⟨_, by simp [connect, Relay.connectDerpServer, h, Attempt.dial]; rfl⟩
  | connected isOpen => exact absurd rfl (hfail isOpen)

/-- The invariant at the start. -/
lemma inv_start {device : Device} {rx : Receiver ToClient}
    (hdev : ∀ k k' n, (start device rx).relay.endpoint? k ≠ some (derpSender k' n)) :
    Inv (start device rx) where
  entry server n h := by simp [start] at h
  endpoint k k' n h := absurd h (hdev k k' n)

/-- Replacing an endpoint leaves the entries alone. -/
lemma derpClientMap_replaceEndpoint (t : Relay) (target : Key) (n : ℕ) :
    (t.replaceEndpoint target n).derpClientMap = t.derpClientMap := by
  unfold Relay.replaceEndpoint
  split <;> rfl

/-- A call keeps the invariant. -/
lemma Inv.connect (hs : Inv s) : Inv (s.connect server target attempt).1 := by
  cases hlookup : s.relay.derpClientMap.lookup server with
  | some n =>
    obtain ⟨isOpen, hn⟩ := hs.entry server n hlookup
    rw [connect_of_some hlookup]
    refine ⟨fun server' n' h => ?_, fun k k' n' h => ?_⟩
    · rw [derpClientMap_replaceEndpoint] at h
      exact hs.entry server' n' h
    · by_cases hk : k = target
      · subst hk
        simp only [Relay.endpoint?_replaceEndpoint_self, Option.map_eq_some_iff] at h
        obtain ⟨-, -, heq⟩ := h
        rw [← derpSender_inj heq]
        exact (List.getElem?_eq_some_iff.mp hn).1
      · rw [Relay.endpoint?_replaceEndpoint_of_ne hk] at h
        exact hs.endpoint k k' n' h
  | none =>
    by_cases hfail : ∀ isOpen, attempt ≠ .connected isOpen
    · obtain ⟨e, h⟩ := connect_failed target hlookup hfail
      rwa [h]
    · obtain ⟨isOpen, hopen⟩ := not_forall_not.mp hfail
      rw [hopen, connect_connected hlookup]
      refine ⟨fun server' n h => ?_, fun k k' n h => ?_⟩
      · rw [Map.lookup_set] at h
        split_ifs at h with hserver
        · cases h
          exact ⟨isOpen, by simp [hserver]⟩
        · obtain ⟨isOpen', hn⟩ := hs.entry server' n h
          refine ⟨isOpen', ?_⟩
          rw [List.getElem?_append_left (List.getElem?_eq_some_iff.mp hn).1, hn]
      · have hlt := hs.endpoint k k' n h
        rw [List.length_append]
        omega

/-- The end of a connection leaves entries and endpoints alone. -/
lemma Inv.terminate (hs : Inv s) {n : ℕ} (hn : s.conns[n]? = some (server, true)) :
    Inv { s with conns := s.conns.set n (server, false) } where
  entry server' m h := by
    obtain ⟨isOpen, hm⟩ := hs.entry server' m h
    by_cases hmn : n = m
    · subst hmn
      rw [hn] at hm
      cases hm
      exact ⟨false, List.getElem?_set_self (List.getElem?_eq_some_iff.mp hn).1⟩
    · exact ⟨isOpen, by rw [List.getElem?_set_ne hmn, hm]⟩
  endpoint k k' m h := by
    rw [List.length_set]
    exact hs.endpoint k k' m h

/-- **Step lemma.** A step keeps it. -/
theorem Inv.step (hs : Inv s) {a : RelaysAction} {evs : List RelaysEvent}
    (h : s.step a = some (s', evs)) : Inv s' := by
  cases a with
  | connect server target attempt =>
    cases h
    exact hs.connect
  | terminate n =>
    simp only [Relays.step] at h
    split at h
    · next server hn =>
      cases h
      exact hs.terminate hn
    · cases h

/-! ## Usable endpoints -/

/-- A call for a relay that has an entry. -/
lemma usable_of_entry (hs : Inv s) {n : ℕ} (hn : s.relay.derpClientMap.lookup server = some n)
    (htarget : (s.relay.device.getByKey target).isSome) :
    (s.connect server target attempt).1.Usable server target n ↔
      s.conns[n]?.map (·.2) = some true := by
  obtain ⟨isOpen, hconn⟩ := hs.entry server n hn
  obtain ⟨node, hnode⟩ := Option.isSome_iff_exists.mp htarget
  rw [connect_of_some hn, Usable]
  simp only [Relay.endpoint?_replaceEndpoint_self, hnode, hconn, Option.map_some]
  simp

/-- A call that makes a connection does not give a usable endpoint: the endpoint is what it was, and
the connection is new. -/
lemma not_usable_connected (hs : Inv s) (hn : s.relay.derpClientMap.lookup server = none)
    (isOpen : Bool) :
    ¬ (s.connect server target (.connected isOpen)).1.Usable server target s.conns.length := by
  rw [connect_connected hn]
  rintro ⟨-, hend⟩
  exact lt_irrefl _ (hs.endpoint target target _ hend)

end Relays

/-- **When a call gives a usable endpoint.** After any calls and any ends of connections, a call
returns a sender for a known peer only so that it belongs to a running connection to that server and
is the endpoint of the peer, if and only if the peer is not known, or the relay has an entry whose
connection is running, or it has none and no connection is made.

**Proof sketch.** Every entry is a connection to its server, so that an entry gives a usable
endpoint exactly if it is running. A new connection is at no endpoint. -/
theorem usable_iff {device : Device} {rx : Receiver ToClient} {s : Relays} {tr : List RelaysEvent}
    (hdev : ∀ k k' n, (Relays.start device rx).relay.endpoint? k ≠ some (derpSender k' n))
    (run : Run Relays.step (fun _ _ => True) (Relays.start device rx) tr s)
    (server : String) (target : Key) (attempt : Attempt) :
    (∀ tx, (s.connect server target attempt).2 = .ok tx →
      (s.relay.device.getByKey target).isSome →
        (s.connect server target attempt).1.Usable server target tx) ↔
      s.Ready server target attempt := by
  have hs : s.Inv := run.invariant (I := fun _ s => s.Inv) (Relays.inv_start hdev)
    fun _ hs _ h => hs.step h
  unfold Relays.Ready
  cases hn : s.relay.derpClientMap.lookup server with
  | some n =>
    constructor
    · intro h htarget
      exact (Relays.usable_of_entry hs hn htarget).mp
        (h n (by rw [Relays.connect_of_some hn]) htarget)
    · intro h tx htx htarget
      rw [Relays.connect_of_some hn] at htx
      cases htx
      exact (Relays.usable_of_entry hs hn htarget).mpr (h htarget)
  | none =>
    by_cases hfail : ∀ isOpen, attempt ≠ .connected isOpen
    · obtain ⟨e, he⟩ := Relays.connect_failed target hn hfail
      rw [he]
      exact ⟨fun _ _ => hfail, fun _ tx htx => by cases htx⟩
    · obtain ⟨isOpen, rfl⟩ := not_forall_not.mp hfail
      constructor
      · intro h htarget
        exact absurd (h _ (by rw [Relays.connect_connected hn]) htarget)
          (Relays.not_usable_connected hs hn isOpen)
      · intro h tx _ htarget
        exact absurd rfl (h htarget isOpen)

section Examples

/-- A transport that has just been started, and whose device has one peer. -/
def spawned : Relays :=
  .start (Sample.device.insertPeer .sample Sample.config 0) ⟨[], false⟩

/-- The endpoint of the peer is where it was configured. -/
lemma spawned_endpoint (k k' : Key) (n : ℕ) :
    spawned.relay.endpoint? k ≠ some (derpSender k' n) := by
  intro h
  by_cases hk : k = Sample.remote
  · subst hk
    have hudp : spawned.relay.endpoint? Sample.remote = some Sample.endpoint := rfl
    rw [hudp] at h
    have hprotocol : "Udp" = "Reply" := congrArg OutboundSender.protocol (Option.some.inj h)
    exact absurd hprotocol (by decide)
  · have hnone : spawned.relay.endpoint? k = none := by
      simp [spawned, Relays.start, Relay.endpoint?, Device.getByKey, Device.insertPeer,
        Sample.device, Device.new, Sample.config, hk]
    rw [hnone] at h
    cases h

/-- After the first call for a relay, the second gives a usable endpoint. -/
theorem usable_iff_sample : ∃ tr s, Run Relays.step (fun _ _ => True) spawned tr s ∧
    (s.connect derp Sample.remote (.connected true)).2 = .ok 0 ∧
    (s.connect derp Sample.remote (.connected true)).1.Usable derp Sample.remote 0 := by
  obtain ⟨s, tr, run, hcheck⟩ := exists_run_of_exec Relays.step
    [.connect derp Sample.remote (.connected true)] spawned
    (fun r => decide (r.1.relay.derpClientMap.lookup derp = some 0 ∧ r.1.conns = [(derp, true)] ∧
      (r.1.relay.device.getByKey Sample.remote).isSome)) (by decide +kernel)
  obtain ⟨hentry, hconns, hpeer⟩ : s.relay.derpClientMap.lookup derp = some 0 ∧
    s.conns = [(derp, true)] ∧ (s.relay.device.getByKey Sample.remote).isSome :=
      of_decide_eq_true hcheck
  have hready : s.Ready derp Sample.remote (.connected true) := by
    simp [Relays.Ready, hentry, hconns]
  have hok : (s.connect derp Sample.remote (.connected true)).2 = .ok 0 := by
    rw [Relays.connect_of_some hentry]
  exact ⟨tr, s, run, hok, (usable_iff spawned_endpoint run derp Sample.remote (.connected true)).mpr
    hready 0 hok hpeer⟩

/-- The first call for a relay makes a connection and leaves the endpoint of the peer as it was.
When the connection has ended, another call makes it the endpoint all the same. -/
theorem not_usable :
    (∃ tr s, Run Relays.step (fun _ _ => True) spawned tr s ∧
      .returned derp Sample.remote (.ok 0) ∈ tr ∧ s.conns[0]? = some (derp, true) ∧
      s.relay.endpoint? Sample.remote = some Sample.endpoint ∧
      Sample.endpoint ≠ derpSender Sample.remote 0) ∧
    ∃ tr s, Run Relays.step (fun _ _ => True) spawned tr s ∧
      tr = [.returned derp Sample.remote (.ok 0), .returned derp Sample.remote (.ok 0)] ∧
      s.relay.endpoint? Sample.remote = some (derpSender Sample.remote 0) ∧
      s.conns[0]? = some (derp, false) := by
  constructor
  · obtain ⟨s, tr, run, hcheck⟩ := exists_run_of_exec Relays.step
      [.connect derp Sample.remote (.connected true)] spawned
      (fun r => decide (.returned derp Sample.remote (.ok 0) ∈ r.2 ∧
        r.1.conns[0]? = some (derp, true) ∧
        r.1.relay.endpoint? Sample.remote = some Sample.endpoint)) (by decide +kernel)
    obtain ⟨hret, hconn, hend⟩ := of_decide_eq_true hcheck
    refine ⟨tr, s, run, hret, hconn, hend, fun heq => ?_⟩
    exact spawned_endpoint Sample.remote Sample.remote 0 (congrArg some heq)
  · obtain ⟨s, tr, run, hcheck⟩ := exists_run_of_exec Relays.step
      [.connect derp Sample.remote (.connected true), .terminate 0,
        .connect derp Sample.remote (.connected true)] spawned
      (fun r => decide (r.2 = [.returned derp Sample.remote (.ok 0),
          .returned derp Sample.remote (.ok 0)] ∧
        r.1.relay.endpoint? Sample.remote = some (derpSender Sample.remote 0) ∧
        r.1.conns[0]? = some (derp, false))) (by decide +kernel)
    obtain ⟨hret, hend, hconn⟩ := of_decide_eq_true hcheck
    exact ⟨tr, s, run, hret, hend, hconn⟩

end Examples

end Vlink.Transport
