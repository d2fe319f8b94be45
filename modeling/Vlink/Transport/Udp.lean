import Vlink.Lib.Net
import Vlink.Lib.Runs

set_option autoImplicit false

/-!
# Datagrams from two sockets

`vlink-tun/src/device/transport/udp.rs`: a `UdpTransport` has a socket for each version of IP, and a
buffer for each socket. `recv_from` waits for a datagram at either socket, and hands back its sender
and a copy of the bytes in the buffer. The buffers are allocated in the first call. But the test for
the buffer of the IPv6 socket allocates the other one: the buffer of the IPv6 socket stays empty,
and so does every payload that is received there.

## Main definitions

* `Vlink.Transport.UdpTransport.recvFrom` — `recv_from`, when a socket has a datagram.
* `Vlink.Transport.Udp`, `Vlink.Transport.Udp.step` — the transport with the queues of its sockets.
* `Vlink.Transport.arrivals`, `Vlink.Transport.returns` — the datagrams that arrived at a socket,
  and what was handed back from it.

## Main results

* `Vlink.Transport.Udp.Reaches.inv` — each call hands back the next datagram of a socket, cut to the
  length of its buffer.
* `Vlink.Transport.intact_iff` — all datagrams are handed back as they arrived if and only if those
  of the IPv6 socket were empty.
* `Vlink.Transport.payload_lost` — a datagram whose payload is lost.
-/

namespace Vlink.Transport

/-! ## `recv_from` -/

/-- The two sockets. -/
inductive Family where
  | ipv4
  | ipv6
deriving DecidableEq

/-- A datagram: its sender and its payload. -/
abbrev Datagram := SocketAddr × Bytes

/-- The size that a buffer is allocated with. -/
def udpBufSize : ℕ := 2048

/-- `UdpTransport`, without its sockets. -/
structure UdpTransport where
  ipv4Buf : Bytes := []
  ipv6Buf : Bytes := []
deriving DecidableEq

/-- `recv_from` of a socket: as much of the payload as fits is copied to the front of the buffer.
Hands back how many bytes this was. -/
def copyInto (buf payload : Bytes) : Bytes × ℕ :=
  let n := min payload.length buf.length
  (payload.take n ++ buf.drop n, n)

namespace UdpTransport

/-- The beginning of `UdpTransport::recv_from`. Both tests allocate the buffer of the IPv4
socket. -/
def allocate (t : UdpTransport) : UdpTransport :=
  let t := if t.ipv4Buf.isEmpty then { t with ipv4Buf := List.replicate udpBufSize 0 } else t
  if t.ipv6Buf.isEmpty then { t with ipv4Buf := List.replicate udpBufSize 0 } else t

/-- `UdpTransport::recv_from`, when the socket `f` is the one that answers, with a datagram or with
an error. -/
def recvFrom (t : UdpTransport) (f : Family) (answer : Except String Datagram) :
    Outcome (Except String Datagram × UdpTransport) :=
  let t := t.allocate
  match answer with
  | .error e => .ret (.error e, t)
  | .ok (addr, payload) =>
    match f with
    | .ipv4 => do
      let (buf, n) := copyInto t.ipv4Buf payload
      let data ← buf.slice 0 n
      return (.ok (addr, data), { t with ipv4Buf := buf })
    | .ipv6 => do
      let (buf, n) := copyInto t.ipv6Buf payload
      let data ← buf.slice 0 n
      return (.ok (addr, data), { t with ipv6Buf := buf })

end UdpTransport

/-! ## The transport and its sockets -/

/-- The transport with the datagrams that wait at its sockets, and whether the loop of `spawn` is
running. -/
structure Udp where
  transport : UdpTransport := {}
  queue : Family → List Datagram := fun _ => []
  running : Bool := true

/-- What can be observed. -/
inductive UdpEvent where
  | arrived (f : Family) (d : Datagram)
  | returned (f : Family) (d : Datagram)
  | failed (e : String)
  | panicked
deriving DecidableEq

/-- A datagram arrives; or a call of `recv_from` takes one from a socket; or the socket reports an
error. -/
inductive UdpAction where
  | arrive (f : Family) (d : Datagram)
  | recv (f : Family)
  | fail (f : Family) (e : String)

namespace Udp

/-- What the loop does with the outcome of a call. -/
def afterCall (s : Udp) (f : Family) :
    Outcome (Except String Datagram × UdpTransport) → Udp × List UdpEvent
  | .panic => ({ s with running := false }, [.panicked])
  | .ret (.ok d, transport) => ({ s with transport }, [.returned f d])
  | .ret (.error e, transport) => ({ s with transport, running := false }, [.failed e])

/-- One step; `none` if the action is not possible. -/
def step (s : Udp) : UdpAction → Option (Udp × List UdpEvent)
  | .arrive f d =>
    some ({ s with queue := Function.update s.queue f (s.queue f ++ [d]) }, [.arrived f d])
  | .recv f =>
    match s.running, s.queue f with
    | true, d :: rest =>
      some ({ s with queue := Function.update s.queue f rest }.afterCall f
        (s.transport.recvFrom f (.ok d)))
    | _, _ => none
  | .fail f e =>
    if s.running then some (s.afterCall f (s.transport.recvFrom f (.error e))) else none

/-- The datagram that arrives fits a buffer. -/
def fits : Udp → UdpAction → Bool
  | _, .arrive _ d => decide (d.2.length ≤ udpBufSize)
  | _, _ => true

/-- A run of a new transport, at which only datagrams arrive that fit, leads to `s` and emits
`tr`. -/
def Reaches (s : Udp) (tr : List UdpEvent) : Prop :=
  Run step (fun s a => s.fits a = true) {} tr s

end Udp

/-- The datagrams that arrived at a socket, in order. -/
def arrivals (f : Family) (tr : List UdpEvent) : List Datagram :=
  tr.filterMap fun
    | .arrived g d => if g = f then some d else none
    | _ => none

/-- What was handed back from a socket, in order. -/
def returns (f : Family) (tr : List UdpEvent) : List Datagram :=
  tr.filterMap fun
    | .returned g d => if g = f then some d else none
    | _ => none

/-! ## What a call hands back -/

/-- What the buffer of a socket leaves of a datagram. -/
def cut : Family → Datagram → Datagram
  | .ipv4, d => d
  | .ipv6, d => (d.1, [])

/-- The front of the buffer is the payload, as far as it fits. -/
lemma slice_copyInto (buf payload : Bytes) :
    Bytes.slice (copyInto buf payload).1 0 (copyInto buf payload).2 =
      .ret (payload.take buf.length) := by
  have hlen : (payload.take (min payload.length buf.length)).length =
      min payload.length buf.length := by simp
  rw [Bytes.slice_of_le (Nat.zero_le _) (by simp [copyInto])]
  simp only [copyInto, List.drop_zero, Nat.sub_zero]
  rw [List.take_left' hlen]
  congr 1
  rcases Nat.le_total payload.length buf.length with h | h
  · rw [min_eq_left h, List.take_length, List.take_of_length_le h]
  · rw [min_eq_right h]

namespace UdpTransport

variable {t : UdpTransport}

/-- The IPv4 socket gets its buffer in every call, and the IPv6 socket in none. -/
lemma allocate_eq (h : t.ipv6Buf = []) : t.allocate = ⟨List.replicate udpBufSize 0, []⟩ := by
  unfold allocate
  by_cases h4 : t.ipv4Buf.isEmpty = true
  · simp [h4, h]
  · simp [h4, h]

/-- As long as the IPv6 socket has no buffer, a call hands back the datagram without what does not
fit, and the socket still has none. -/
lemma recvFrom_ok (h : t.ipv6Buf = []) (f : Family) {d : Datagram}
    (hd : d.2.length ≤ udpBufSize) :
    ∃ t', t.recvFrom f (.ok d) = .ret (.ok (cut f d), t') ∧ t'.ipv6Buf = [] := by
  obtain ⟨addr, payload⟩ := d
  unfold recvFrom
  rw [allocate_eq h]
  cases f with
  | ipv4 =>
    refine ⟨⟨(copyInto (List.replicate udpBufSize 0) payload).1, []⟩, ?_, rfl⟩
    simp only [slice_copyInto, Outcome.ret_bind, Outcome.pure_eq, cut]
    rw [List.length_replicate, List.take_of_length_le hd]
  | ipv6 =>
    refine ⟨⟨List.replicate udpBufSize 0, (copyInto [] payload).1⟩, ?_, by simp [copyInto]⟩
    simp only [slice_copyInto, Outcome.ret_bind, Outcome.pure_eq, cut]
    rfl

/-- An error is handed back. -/
lemma recvFrom_error (h : t.ipv6Buf = []) (f : Family) (e : String) :
    ∃ t', t.recvFrom f (.error e) = .ret (.error e, t') ∧ t'.ipv6Buf = [] := by
  refine ⟨t.allocate, rfl, ?_⟩
  rw [allocate_eq h]

end UdpTransport

/-! ## Whole runs -/

/-- The IPv6 socket has no buffer, the datagrams that wait fit a buffer, what was handed back and
what waits are together what has arrived, and no call has panicked. -/
structure Udp.Inv (tr : List UdpEvent) (s : Udp) : Prop where
  buf : s.transport.ipv6Buf = []
  fits : ∀ f, ∀ d ∈ s.queue f, d.2.length ≤ udpBufSize
  conserved : ∀ f, ∃ taken, arrivals f tr = taken ++ s.queue f ∧ returns f tr = taken.map (cut f)
  sound : .panicked ∉ tr

namespace Udp

variable {s s' : Udp} {a : UdpAction} {tr evs : List UdpEvent}

/-- A datagram arrives. -/
lemma Inv.arrive (h : s.Inv tr) {f : Family} {d : Datagram} (hd : d.2.length ≤ udpBufSize) :
    ({ s with queue := Function.update s.queue f (s.queue f ++ [d]) } : Udp).Inv
      (tr ++ [.arrived f d]) where
  buf := h.buf
  fits g x hx := by
    simp only [Function.update_apply] at hx
    split_ifs at hx with hg
    · rcases List.mem_append.mp hx with hx | hx
      · exact h.fits f x hx
      · rwa [List.mem_singleton.mp hx]
    · exact h.fits g x hx
  conserved g := by
    obtain ⟨taken, harr, hret⟩ := h.conserved g
    refine ⟨taken, ?_, by simpa [returns] using hret⟩
    simp only [Function.update_apply]
    by_cases hg : g = f
    · subst hg
      simp only [if_true, ← List.append_assoc, ← harr]
      simp [arrivals]
    · rw [if_neg hg, ← harr]
      simp [arrivals, Ne.symm hg]
  sound := by simpa using h.sound

/-- A call hands back the next datagram of a socket. -/
lemma Inv.recv (h : s.Inv tr) {f : Family} {d : Datagram} {rest : List Datagram}
    (hq : s.queue f = d :: rest) {t : UdpTransport} (ht : t.ipv6Buf = []) :
    ({ s with transport := t, queue := Function.update s.queue f rest } : Udp).Inv
      (tr ++ [.returned f (cut f d)]) where
  buf := ht
  fits g x hx := by
    simp only [Function.update_apply] at hx
    split_ifs at hx with hg
    · exact h.fits f x (hq ▸ List.mem_cons_of_mem _ hx)
    · exact h.fits g x hx
  conserved g := by
    obtain ⟨taken, harr, hret⟩ := h.conserved g
    by_cases hg : g = f
    · subst hg
      refine ⟨taken ++ [d], ?_, ?_⟩
      · rw [hq] at harr
        simp [arrivals] at harr ⊢
        exact harr
      · simp [returns] at hret ⊢
        rw [hret]
    · refine ⟨taken, ?_, ?_⟩
      · simpa [arrivals, Function.update_apply, hg] using harr
      · simpa [returns, Ne.symm hg] using hret
  sound := by simpa using h.sound

/-- **Step lemma.** -/
lemma Inv.step (h : s.Inv tr) (ok : s.fits a = true) (hstep : s.step a = some (s', evs)) :
    s'.Inv (tr ++ evs) := by
  cases a with
  | arrive f d =>
    cases hstep
    exact h.arrive (of_decide_eq_true ok)
  | recv f =>
    simp only [Udp.step] at hstep
    split at hstep
    · next d rest hrun hq =>
      obtain ⟨t, ht, hbuf⟩ :=
        UdpTransport.recvFrom_ok h.buf f (h.fits f d (hq ▸ List.mem_cons_self))
      rw [ht] at hstep
      cases hstep
      exact h.recv hq hbuf
    · cases hstep
  | fail f e =>
    simp only [Udp.step] at hstep
    split_ifs at hstep
    obtain ⟨t, ht, hbuf⟩ := UdpTransport.recvFrom_error h.buf f e
    rw [ht] at hstep
    cases hstep
    refine ⟨hbuf, h.fits, fun g => ?_, by simpa using h.sound⟩
    obtain ⟨taken, harr, hret⟩ := h.conserved g
    exact ⟨taken, by simpa [arrivals] using harr, by simpa [returns] using hret⟩

/-- **Run lemma.** Each call hands back the next datagram of a socket, cut to its buffer. -/
theorem Reaches.inv (run : s.Reaches tr) : s.Inv tr := by
  have hinit : ({} : Udp).Inv [] :=
    ⟨rfl, fun _ _ hd => absurd hd List.not_mem_nil, fun _ => ⟨[], rfl, rfl⟩, List.not_mem_nil⟩
  exact Run.invariant (I := fun tr s => Udp.Inv tr s) hinit
    (fun _ ih ok hstep => ih.step ok hstep) run

/-- What was handed back from a socket is what arrived first, cut to its buffer. -/
lemma Inv.returns_eq (h : s.Inv tr) (f : Family) :
    returns f tr = ((arrivals f tr).take (returns f tr).length).map (cut f) := by
  obtain ⟨taken, harr, hret⟩ := h.conserved f
  rw [hret, List.length_map, harr, List.take_left]

/-- A call that finds a datagram at a socket hands it back, cut to the buffer of the socket. -/
lemma Inv.exists_step (h : s.Inv tr) (hrun : s.running = true) {f : Family} {d : Datagram}
    {rest : List Datagram} (hq : s.queue f = d :: rest) :
    ∃ s', s.step (.recv f) = some (s', [.returned f (cut f d)]) := by
  obtain ⟨t, ht, -⟩ := UdpTransport.recvFrom_ok h.buf f (h.fits f d (hq ▸ List.mem_cons_self))
  refine ⟨{ s with transport := t, queue := Function.update s.queue f rest }, ?_⟩
  simp only [Udp.step, hrun, hq, ht, afterCall]

end Udp

/-- Nothing is cut from the datagrams of a socket if and only if it is the one of IPv4 or they have
no payload. -/
lemma map_cut_eq_self_iff (f : Family) (ds : List Datagram) :
    ds = ds.map (cut f) ↔ (f = .ipv6 → ∀ d ∈ ds, d.2 = []) := by
  have hcut : ds = ds.map (cut f) ↔ ∀ d ∈ ds, d = cut f d := by
    conv_lhs => lhs; rw [← List.map_id ds]
    exact List.map_inj_left
  rw [hcut]
  cases f with
  | ipv4 => simp [cut]
  | ipv6 => simp [cut, Prod.ext_iff]

variable {s : Udp} {tr : List UdpEvent}

/-- What was handed back from a socket is intact if and only if the socket is the one of IPv4 or the
datagrams that were taken from it have no payload. -/
lemma Udp.Inv.isPrefix_iff (h : s.Inv tr) (f : Family) :
    returns f tr <+: arrivals f tr ↔
      (f = .ipv6 → ∀ d ∈ (arrivals f tr).take (returns f tr).length, d.2 = []) := by
  rw [← map_cut_eq_self_iff, ← h.returns_eq, List.prefix_iff_eq_take]
  exact eq_comm

/-- **Main theorem.** The calls of `recv_from` hand back the datagrams as they arrived if and only
if those of the IPv6 socket had no payload. Those of the IPv4 socket are always intact. No call
panics, and each call that finds a datagram hands one back: with its sender, and with what the
buffer leaves of its payload. -/
theorem intact_iff (run : s.Reaches tr) :
    ((∀ f, returns f tr <+: arrivals f tr) ↔
      ∀ d ∈ (arrivals .ipv6 tr).take (returns .ipv6 tr).length, d.2 = []) ∧
    returns .ipv4 tr <+: arrivals .ipv4 tr ∧
    .panicked ∉ tr ∧
    ∀ f d rest, s.running = true → s.queue f = d :: rest →
      ∃ s', s.step (.recv f) = some (s', [.returned f (cut f d)]) := by
  have h := run.inv
  have h4 : returns .ipv4 tr <+: arrivals .ipv4 tr := by
    rw [h.isPrefix_iff]
    intro hf
    cases hf
  refine ⟨⟨fun hall => ?_, fun hempty f => ?_⟩, h4, h.sound,
    fun f d rest hrun => h.exists_step hrun⟩
  · exact (h.isPrefix_iff .ipv6).mp (hall .ipv6) rfl
  · cases f with
    | ipv4 => exact h4
    | ipv6 => exact (h.isPrefix_iff .ipv6).mpr fun _ => hempty

/-- A datagram arrives at each socket, and two calls take them. -/
def bothSockets (payload : Bytes) : List UdpAction :=
  [.arrive .ipv4 (⟨.v4 1, 7⟩, [1, 2]), .arrive .ipv6 (⟨.v6 1, 7⟩, payload), .recv .ipv6,
    .recv .ipv4]

/-- Two datagrams that are handed back as they arrived: the one from the IPv6 socket is empty. -/
theorem intact_iff_sample : ∃ s tr, Udp.Reaches s tr ∧
    returns .ipv4 tr = [(⟨.v4 1, 7⟩, [1, 2])] ∧ returns .ipv6 tr = [(⟨.v6 1, 7⟩, [])] ∧
    ∀ f, returns f tr <+: arrivals f tr := by
  obtain ⟨s, tr, run, hcheck⟩ := exists_run_of_exec (checked Udp.step Udp.fits) (bothSockets []) {}
    (fun r => decide (returns .ipv4 r.2 = [(⟨.v4 1, 7⟩, [1, 2])]) &&
      decide (returns .ipv6 r.2 = [(⟨.v6 1, 7⟩, [])]) &&
      decide (arrivals .ipv6 r.2 = [(⟨.v6 1, 7⟩, [])])) (by decide +kernel)
  simp only [Bool.and_eq_true, decide_eq_true_eq] at hcheck
  obtain ⟨⟨h4, h6⟩, harr⟩ := hcheck
  refine ⟨s, tr, run.of_checked, h4, h6, (intact_iff run.of_checked).1.mpr ?_⟩
  simp [h6, harr]

/-- A datagram of three bytes arrives at the IPv6 socket, and is handed back without them. -/
theorem payload_lost : ∃ s tr, Udp.Reaches s tr ∧
    arrivals .ipv6 tr = [(⟨.v6 1, 7⟩, [3, 4, 5])] ∧ returns .ipv6 tr = [(⟨.v6 1, 7⟩, [])] ∧
    ¬ ∀ f, returns f tr <+: arrivals f tr := by
  obtain ⟨s, tr, run, hcheck⟩ := exists_run_of_exec (checked Udp.step Udp.fits)
    (bothSockets [3, 4, 5]) {}
    (fun r => decide (arrivals .ipv6 r.2 = [(⟨.v6 1, 7⟩, [3, 4, 5])]) &&
      decide (returns .ipv6 r.2 = [(⟨.v6 1, 7⟩, [])])) (by decide +kernel)
  simp only [Bool.and_eq_true, decide_eq_true_eq] at hcheck
  obtain ⟨harr, hret⟩ := hcheck
  refine ⟨s, tr, run.of_checked, harr, hret, fun h => ?_⟩
  have h6 := h .ipv6
  rw [harr, hret] at h6
  exact absurd h6 (by decide)

end Vlink.Transport
