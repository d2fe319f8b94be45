import Mathlib.Tactic.Lemma
import Vlink.Lib.Net
import Vlink.Lib.Runs

set_option autoImplicit false

/-!
# Requests for port mappings

`vlinkd/src/transport/nat2pub`: a `NatService` asks a STUN server for its public address, and asks
the gateway to map the public port to its own, for `duration` seconds. `UpnpService::start` repeats
the request for the external port ten seconds before the time is over.

This works for UDP: as long as the interval is not late, a request for the external port is at any
time younger than the lease that it asks for. For TCP it does not: the external port is never set,
so the interval has nothing to ask for, and all requests come from STUN answers.

## Main definitions

* `Vlink.Transport.UpnpService.addPort`, `setExternalPort`, `renew` — the requests to the gateway.
* `Vlink.Transport.NatService.step` — STUN answers and ticks of the interval.

## Main results

* `Vlink.Transport.NatService.renewed` — for UDP the request for the external port is repeated in
  time.
* `Vlink.Transport.NatService.tcp_unrenewed` — for TCP it is never repeated.

## Design

The gateway is not part of the program. What it answers is an input, and the results are about the
requests that are made, with their times.

The lock of the external port is held during a call of `add_port`, so calls do not overlap for UDP,
and for TCP only the task for STUN answers makes any. A call is one step, at the time of its
requests. The time-out of two seconds in `start`, wherever it cuts the call off, is a gateway that
is not found or a request that fails.
-/

namespace Vlink.Transport

/-! ## Requests -/

/-- `igd::PortMappingProtocol`. -/
inductive PortMappingProtocol where
  | tcp
  | udp
deriving DecidableEq

/-- What the gateway is asked for. -/
inductive GatewayRequest where
  /-- Map the port to a client, for a number of seconds. -/
  | addPort (protocol : PortMappingProtocol) (port : UInt16) (client : SocketAddr) (duration : ℕ)
  | removePort (protocol : PortMappingProtocol) (port : UInt16)
deriving DecidableEq

/-- The port that a request is about. -/
def GatewayRequest.port : GatewayRequest → UInt16
  | addPort _ port _ _ | removePort _ port => port

/-- For how many seconds a mapping is asked for. -/
def GatewayRequest.lease : GatewayRequest → ℕ
  | addPort _ _ _ duration => duration
  | removePort _ _ => 0

/-- The request is for a mapping. -/
def GatewayRequest.isAddPort : GatewayRequest → Bool
  | addPort .. => true
  | removePort .. => false

/-- What comes back from a request for a mapping. -/
inductive AddPortAnswer where
  | ok
  | portInUse
  | failed
deriving DecidableEq

/-- `UpnpError`, and the errors of requests. -/
inductive UpnpError where
  | ipv6
  | portError (port : UInt16)
  | noGateway
  | portInUse
  | request
deriving DecidableEq

/-- `UpnpOptions`, as far as it is read here. -/
structure UpnpOptions where
  innerPort : UInt16
  duration : ℕ
  protocol : PortMappingProtocol
deriving DecidableEq

/-- `UpnpService`. -/
structure UpnpService where
  options : UpnpOptions
  externalPort : Option UInt16
  innerPort : UInt16
  /-- The token is cancelled. -/
  cancelled : Bool

/-- What is read from outside in `add_port`: the time in milliseconds; the own address on the way to
the gateway, if the gateway is found; the answers to the two requests for a mapping; and whether the
request to remove a mapping succeeds. -/
structure GatewayEnv where
  now : ℕ
  localAddr : Option IpAddr
  first : AddPortAnswer
  removed : Bool
  second : AddPortAnswer

/-- The gateway is found, and the way to it has an IPv4 address. -/
def GatewayEnv.isFound (env : GatewayEnv) : Bool :=
  match env.localAddr with
  | some (.v4 _) => true
  | _ => false

namespace UpnpService

variable (s : UpnpService) (env : GatewayEnv)

/-- `UpnpService::new`. -/
def new (options : UpnpOptions) : UpnpService := ⟨options, none, options.innerPort, false⟩

/-- `UpnpService::set_inner_port`. -/
def setInnerPort (port : UInt16) : UpnpService := { s with innerPort := port }

/-- The request for a mapping of the port. -/
def mapping (ip : BitVec 32) (port : UInt16) : GatewayRequest :=
  .addPort s.options.protocol port ⟨.v4 ip, s.innerPort⟩ s.options.duration

/-- `UpnpService::add_port`, with the requests that it makes. If the port is in use, then a mapping
of it is removed once, always for TCP. -/
def addPort (port : UInt16) : List GatewayRequest × Except UpnpError Unit :=
  match env.localAddr with
  | none => ([], .error .noGateway)
  | some (.v6 _) => ([], .error .ipv6)
  | some (.v4 ip) =>
    if s.innerPort = 0 then ([], .error (.portError s.innerPort))
    else
      match env.first with
      | .ok => ([s.mapping ip port], .ok ())
      | .failed => ([s.mapping ip port], .error .request)
      | .portInUse =>
        if env.removed then
          ([s.mapping ip port, .removePort .tcp port, s.mapping ip port],
            match env.second with
            | .ok => .ok ()
            | .failed => .error .request
            | .portInUse => .error .portInUse)
        else ([s.mapping ip port, .removePort .tcp port], .error .portInUse)

/-- `UpnpService::set_external_port`: the port is kept also if the gateway does not map it. -/
def setExternalPort (port : UInt16) : UpnpService × List GatewayRequest :=
  ({ s with externalPort := some port },
    if s.externalPort = some port then [] else (s.addPort env port).1)

/-- A round of the loop in `start`. -/
def renew : List GatewayRequest :=
  if s.cancelled then []
  else
    match s.externalPort with
    | some port => (s.addPort env port).1
    | none => []

/-- The period of the interval in `start`; `none` if `start` fails. -/
def period : Option ℕ :=
  if s.options.duration < 60 then none else some (1000 * (s.options.duration - 10))

end UpnpService

/-- `NatService`, started: its two tasks and the time. `stunUp` says whether the loop for STUN
answers is running, `nextTick` is when the interval fires. -/
structure NatService where
  upnp : UpnpService
  clock : ℕ
  nextTick : ℕ
  stunUp : Bool

/-- What can happen. -/
inductive NatAction where
  /-- Time passes. -/
  | wait (now : ℕ)
  /-- The interval fires. -/
  | tick (env : GatewayEnv)
  /-- A STUN answer with a public address; `sendOk` says whether the transport still listens. -/
  | mapped (addr : SocketAddr) (sendOk : Bool) (env : GatewayEnv)
  /-- The connection to the STUN server ends. -/
  | stunEnd
  /-- The service is dropped. -/
  | drop

/-- What is seen of it. -/
inductive NatEvent where
  /-- A STUN answer came. -/
  | stun (now : ℕ) (addr : SocketAddr)
  /-- The address is handed to the transport. -/
  | published (addr : SocketAddr)
  | requested (now : ℕ) (request : GatewayRequest)
deriving DecidableEq

namespace NatEvent

/-- When a STUN answer came. -/
def stun? : NatEvent → Option ℕ
  | stun now _ => some now
  | _ => none

/-- A STUN answer came. -/
def isStun (e : NatEvent) : Bool := e.stun?.isSome

/-- A mapping is asked for. -/
def isAddPort : NatEvent → Bool
  | requested _ request => request.isAddPort
  | _ => false

end NatEvent

namespace NatService

/-- `NatService::new` and `start`, for `port`, when the socket is bound to the port `bound`. -/
def new (protocol : PortMappingProtocol) (port bound : UInt16) : NatService where
  upnp := (UpnpService.new ⟨port, 140, protocol⟩).setInnerPort bound
  clock := 0
  nextTick := 0
  stunUp := true

/-- `recv_from_udp` and `stun_connect_tcp`, with an address in an answer. An IPv6 address reaches a
`todo!`. -/
def onMapped (s : NatService) (addr : SocketAddr) (sendOk : Bool) (env : GatewayEnv) :
    NatService × List NatEvent :=
  match addr.ip, sendOk, s.upnp.options.protocol with
  | .v6 _, _, _ | _, false, _ => ({ s with stunUp := false }, [])
  | .v4 _, true, .udp =>
    let (upnp, requests) := s.upnp.setExternalPort env addr.port
    ({ s with upnp },
      .published addr :: requests.map (.requested env.now) ++ [.published addr])
  | .v4 _, true, .tcp =>
    let (requests, result) := s.upnp.addPort env addr.port
    -- an error ends the loop for STUN answers
    ({ s with stunUp := result.isOk }, .published addr :: requests.map (.requested env.now))

/-- The time of an action. -/
def timeOf (s : NatService) : NatAction → ℕ
  | .wait now => now
  | .tick env => env.now
  | .mapped _ _ env => env.now
  | .stunEnd | .drop => s.clock

/-- One step; `none` if the action is not possible. -/
def step (s : NatService) (a : NatAction) : Option (NatService × List NatEvent) :=
  if s.timeOf a < s.clock then none
  else
    let s := { s with clock := s.timeOf a }
    match a with
    | .wait _ => some (s, [])
    | .tick env =>
      match s.upnp.period with
      | none => none
      | some period =>
        if env.now < s.nextTick then none
        else some ({ s with nextTick := s.nextTick + period },
          (s.upnp.renew env).map (.requested env.now))
    | .mapped addr sendOk env =>
      if s.stunUp then
        let (s, events) := s.onMapped addr sendOk env
        some (s, .stun env.now addr :: events)
      else none
    | .stunEnd => some ({ s with stunUp := false }, [])
    | .drop => some ({ s with upnp := { s.upnp with cancelled := true } }, [])

end NatService

/-! ## Calls -/

namespace UpnpService

variable (s : UpnpService) (env : GatewayEnv) (port : UInt16)

/-- **The requests of a call.** None, if the own address is not found or the own port is not known;
otherwise one for a mapping, and if the port is in use one to remove a mapping and one more. -/
lemma requests_addPort :
    (s.addPort env port).1 = [] ∨ ∃ ip,
      (s.addPort env port).1 = [s.mapping ip port] ∨
      (s.addPort env port).1 = [s.mapping ip port, .removePort .tcp port] ∨
      (s.addPort env port).1 = [s.mapping ip port, .removePort .tcp port, s.mapping ip port] := by
  unfold addPort
  cases env.localAddr with
  | none => exact .inl rfl
  | some ip =>
    cases ip with
    | v6 _ => exact .inl rfl
    | v4 ip =>
      dsimp only
      split_ifs with hport hremoved
      · exact .inl rfl
      · refine .inr ⟨ip, ?_⟩
        cases env.first with
        | ok | failed => exact .inl rfl
        | portInUse => exact .inr (.inr rfl)
      · refine .inr ⟨ip, ?_⟩
        cases env.first with
        | ok | failed => exact .inl rfl
        | portInUse => exact .inr (.inl rfl)

variable {s env port}

/-- When the own address is found, a mapping is asked for. -/
lemma mapping_mem_addPort {ip : BitVec 32} (hport : s.innerPort ≠ 0)
    (hip : env.localAddr = some (.v4 ip)) : s.mapping ip port ∈ (s.addPort env port).1 := by
  simp only [addPort, hip, if_neg hport]
  cases env.first with
  | ok | failed => exact List.mem_cons_self
  | portInUse =>
    dsimp only
    split_ifs <;> exact List.mem_cons_self

/-- All requests of a call are for its port, and for the time that the options say. -/
lemma of_mem_addPort :
    ∀ r ∈ (s.addPort env port).1, r.port = port ∧ r.lease ≤ s.options.duration := by
  rcases s.requests_addPort env port with heq | ⟨ip, heq | heq | heq⟩ <;> rw [heq]
  · exact List.forall_mem_nil _
  all_goals simp [mapping, GatewayRequest.port, GatewayRequest.lease]

/-- A call asks for a mapping at most twice. -/
lemma countP_addPort_le : (s.addPort env port).1.countP GatewayRequest.isAddPort ≤ 2 := by
  rcases s.requests_addPort env port with heq | ⟨ip, heq | heq | heq⟩ <;> rw [heq]
  · exact Nat.zero_le _
  all_goals simp [mapping, GatewayRequest.isAddPort, List.countP_cons]

end UpnpService

namespace NatService

variable {s s' : NatService} {a : NatAction} {evs tr : List NatEvent} {port bound : UInt16}

/-- The steps. -/
inductive Step (s : NatService) : NatAction → NatService → List NatEvent → Prop
  | wait {now : ℕ} (le : s.clock ≤ now) : Step s (.wait now) { s with clock := now } []
  | tick {env : GatewayEnv} {period : ℕ} (le : s.clock ≤ env.now)
      (started : s.upnp.period = some period) (due : s.nextTick ≤ env.now) :
      Step s (.tick env) { s with clock := env.now, nextTick := s.nextTick + period }
        ((s.upnp.renew env).map (.requested env.now))
  /-- The loop for STUN answers ends. -/
  | lost {addr : SocketAddr} {sendOk : Bool} {env : GatewayEnv} (le : s.clock ≤ env.now) :
      Step s (.mapped addr sendOk env) { s with clock := env.now, stunUp := false }
        [.stun env.now addr]
  | udp {addr : SocketAddr} {env : GatewayEnv} (le : s.clock ≤ env.now)
      (protocol : s.upnp.options.protocol = .udp) :
      Step s (.mapped addr true env)
        { s with clock := env.now, upnp := (s.upnp.setExternalPort env addr.port).1 }
        (.stun env.now addr :: .published addr ::
          (s.upnp.setExternalPort env addr.port).2.map (.requested env.now) ++ [.published addr])
  | tcp {addr : SocketAddr} {env : GatewayEnv} (le : s.clock ≤ env.now)
      (protocol : s.upnp.options.protocol = .tcp) :
      Step s (.mapped addr true env)
        { s with clock := env.now, stunUp := (s.upnp.addPort env addr.port).2.isOk }
        (.stun env.now addr :: .published addr ::
          (s.upnp.addPort env addr.port).1.map (.requested env.now))
  | stunEnd : Step s .stunEnd { s with stunUp := false } []
  | drop : Step s .drop { s with upnp := { s.upnp with cancelled := true } } []

/-- What a step does. -/
lemma step_step (h : s.step a = some (s', evs)) : Step s a s' evs := by
  rw [step] at h
  split_ifs at h with hlt
  have le := Nat.le_of_not_lt hlt
  cases a with
  | wait now =>
    cases h
    exact .wait le
  | tick env =>
    dsimp only at h
    split at h
    · cases h
    · next period started =>
      split_ifs at h with hdue
      cases h
      exact .tick le started (Nat.le_of_not_lt hdue)
  | mapped addr sendOk env =>
    dsimp only at h
    split_ifs at h
    cases h
    unfold onMapped
    split
    · exact .lost le
    · exact .lost le
    · next hudp => exact .udp le hudp
    · next htcp => exact .tcp le htcp
  | stunEnd =>
    cases h
    exact .stunEnd
  | drop =>
    cases h
    exact .drop

/-! ## Requests for a UDP port -/

/-- The interval is not late by more than `slack`, the service is not dropped, and in each call the
gateway is found, and the way to it has an IPv4 address. -/
def punctual (slack : ℕ) (s : NatService) (a : NatAction) : Bool :=
  s.timeOf a ≤ s.nextTick + slack &&
    match a with
    | .tick env | .mapped _ _ env => env.isFound
    | .drop => false
    | .wait _ | .stunEnd => true

/-- The service runs, and the request for the external port was made at most 130 seconds before the
interval fires next. -/
structure Renewed (bound : UInt16) (slack : ℕ) (tr : List NatEvent) (s : NatService) : Prop where
  protocol : s.upnp.options.protocol = .udp
  duration : s.upnp.options.duration = 140
  inner : s.upnp.innerPort = bound
  running : s.upnp.cancelled = false
  onTime : s.clock ≤ s.nextTick + slack
  next : s.nextTick ≤ s.clock + 1000 * 130
  request : ∀ external, s.upnp.externalPort = some external →
    ∃ now ip, .requested now (.addPort .udp external ⟨.v4 ip, bound⟩ 140) ∈ tr ∧
      now ≤ s.clock ∧ s.nextTick ≤ now + 1000 * 130

namespace Renewed

variable {slack : ℕ}

/-- The invariant at the start. -/
lemma new (port bound : UInt16) (slack : ℕ) : Renewed bound slack [] (.new .udp port bound) where
  protocol := rfl
  duration := rfl
  inner := rfl
  running := rfl
  onTime := Nat.zero_le _
  next := Nat.zero_le _
  request _ h := by cases h

/-- The mapping that the service asks for. -/
lemma mapping_eq (h : Renewed bound slack tr s) (ip : BitVec 32) (external : UInt16) :
    s.upnp.mapping ip external = .addPort .udp external ⟨.v4 ip, bound⟩ 140 := by
  rw [UpnpService.mapping, h.protocol, h.duration, h.inner]

/-- A call makes a request for the port. -/
lemma exists_request (h : Renewed bound slack tr s) (hbound : bound ≠ 0) {env : GatewayEnv}
    (hip : env.isFound = true) (external : UInt16) :
    ∃ ip, .addPort .udp external ⟨.v4 ip, bound⟩ 140 ∈ (s.upnp.addPort env external).1 := by
  unfold GatewayEnv.isFound at hip
  split at hip
  · next ip haddr =>
    refine ⟨ip, ?_⟩
    rw [← h.mapping_eq]
    exact UpnpService.mapping_mem_addPort (h.inner ▸ hbound) haddr
  · cases hip

/-- Time passes. -/
lemma wait (h : Renewed bound slack tr s) {now : ℕ} (le : s.clock ≤ now)
    (hnow : now ≤ s.nextTick + slack) (evs : List NatEvent) :
    Renewed bound slack (tr ++ evs) { s with clock := now } := by
  refine { h with onTime := hnow, next := h.next.trans (Nat.add_le_add_right le _), request := ?_ }
  intro external hext
  obtain ⟨t, ip, hmem, ht, hnext⟩ := h.request external hext
  exact ⟨t, ip, List.mem_append_left _ hmem, ht.trans le, hnext⟩

/-- The interval repeats the request. -/
lemma tick (h : Renewed bound slack tr s) (hbound : bound ≠ 0) {env : GatewayEnv} {period : ℕ}
    (started : s.upnp.period = some period) (due : s.nextTick ≤ env.now)
    (hnow : env.now ≤ s.nextTick + slack) (hip : env.isFound = true) :
    Renewed bound slack (tr ++ (s.upnp.renew env).map (.requested env.now))
      { s with clock := env.now, nextTick := s.nextTick + period } := by
  obtain rfl : 1000 * 130 = period := by
    rw [UpnpService.period, h.duration] at started
    exact Option.some.inj started
  refine { h with onTime := ?_, next := ?_, request := ?_ }
  · show env.now ≤ s.nextTick + 1000 * 130 + slack
    omega
  · exact Nat.add_le_add_right due _
  · intro external hext
    obtain ⟨ip, hmem⟩ := h.exists_request hbound hip external
    refine ⟨env.now, ip, List.mem_append_right _ (List.mem_map_of_mem ?_), le_rfl,
      Nat.add_le_add_right due _⟩
    rw [UpnpService.renew, h.running, hext]
    exact hmem

/-- A public address is learnt. -/
lemma udp (h : Renewed bound slack tr s) (hbound : bound ≠ 0) {addr : SocketAddr}
    {env : GatewayEnv} (le : s.clock ≤ env.now) (hnow : env.now ≤ s.nextTick + slack)
    (hip : env.isFound = true) :
    Renewed bound slack
      (tr ++ (.stun env.now addr :: .published addr ::
        (s.upnp.setExternalPort env addr.port).2.map (.requested env.now) ++ [.published addr]))
      { s with clock := env.now, upnp := (s.upnp.setExternalPort env addr.port).1 } := by
  refine { h.wait le hnow [] with request := ?_ }
  intro external hext
  obtain rfl : addr.port = external := Option.some.inj hext
  by_cases hsame : s.upnp.externalPort = some addr.port
  · -- the port is known, and was asked for
    obtain ⟨t, ip, hmem, ht, hnext⟩ := h.request _ hsame
    exact ⟨t, ip, List.mem_append_left _ hmem, ht.trans le, hnext⟩
  · obtain ⟨ip, hmem⟩ := h.exists_request hbound hip addr.port
    refine ⟨env.now, ip, List.mem_append_right _ ?_, le_rfl, ?_⟩
    · have hrequests : (s.upnp.setExternalPort env addr.port).2 =
          (s.upnp.addPort env addr.port).1 := if_neg hsame
      rw [hrequests]
      exact List.mem_append_left _
        (List.mem_cons_of_mem _ (List.mem_cons_of_mem _ (List.mem_map_of_mem hmem)))
    · exact h.next.trans (Nat.add_le_add_right le _)

/-- **Step lemma.** The request for the external port is young enough. -/
lemma step (h : Renewed bound slack tr s) (hbound : bound ≠ 0) (ok : s.punctual slack a = true)
    (hstep : s.step a = some (s', evs)) : Renewed bound slack (tr ++ evs) s' := by
  simp only [punctual, Bool.and_eq_true, decide_eq_true_eq] at ok
  obtain ⟨hnow, ok⟩ := ok
  cases step_step hstep with
  | wait le => exact h.wait le hnow _
  | tick le started due => exact h.tick hbound started due hnow ok
  | lost le => exact { h.wait le hnow _ with }
  | udp le _ => exact h.udp hbound le hnow ok
  | tcp _ protocol =>
    rw [h.protocol] at protocol
    cases protocol
  | stunEnd => exact { h.wait le_rfl h.onTime _ with }
  | drop => cases ok

end Renewed

/-- A gateway that is found and refuses everything. -/
def refusing (now : ℕ) : GatewayEnv := ⟨now, some (.v4 0xC0A80002#32), .portInUse, false, .failed⟩

/-- The external port is not known, and each request belongs to a STUN answer. -/
structure Unrenewed (tr : List NatEvent) (s : NatService) : Prop where
  protocol : s.upnp.options.protocol = .tcp
  duration : s.upnp.options.duration = 140
  external : s.upnp.externalPort = none
  request : ∀ now r, .requested now r ∈ tr → ∃ addr, .stun now addr ∈ tr ∧ addr.port = r.port
  lease : ∀ now r, .requested now r ∈ tr → r.lease ≤ 140
  count : tr.countP NatEvent.isAddPort ≤ 2 * tr.countP NatEvent.isStun

namespace Unrenewed

/-- The invariant at the start. -/
lemma new (port bound : UInt16) : Unrenewed [] (.new .tcp port bound) where
  protocol := rfl
  duration := rfl
  external := rfl
  request _ _ h := by cases h
  lease _ _ h := by cases h
  count := le_rfl

/-- The interval has nothing to ask for. -/
lemma renew_eq (h : Unrenewed tr s) (env : GatewayEnv) : s.upnp.renew env = [] := by
  rw [UpnpService.renew, h.external]
  exact ite_self _

/-- A STUN answer comes, with requests for its port, at most two of them for a mapping. -/
lemma stun (h : Unrenewed tr s) {now : ℕ} {addr : SocketAddr} {rest : List NatEvent}
    (upnp : s'.upnp = s.upnp)
    (hrest : ∀ t r, .requested t r ∈ rest → t = now ∧ r.port = addr.port ∧ r.lease ≤ 140)
    (hcount : rest.countP NatEvent.isAddPort ≤ 2) :
    Unrenewed (tr ++ .stun now addr :: rest) s' where
  protocol := upnp ▸ h.protocol
  duration := upnp ▸ h.duration
  external := upnp ▸ h.external
  request t r hmem := by
    rcases List.mem_append.mp hmem with hmem | hmem
    · obtain ⟨addr', hstun, hport⟩ := h.request t r hmem
      exact ⟨addr', List.mem_append_left _ hstun, hport⟩
    · rcases List.mem_cons.mp hmem with hmem | hmem
      · cases hmem
      · obtain ⟨rfl, hport, -⟩ := hrest t r hmem
        exact ⟨addr, List.mem_append_right _ List.mem_cons_self, hport.symm⟩
  lease t r hmem := by
    rcases List.mem_append.mp hmem with hmem | hmem
    · exact h.lease t r hmem
    · rcases List.mem_cons.mp hmem with hmem | hmem
      · cases hmem
      · exact (hrest t r hmem).2.2
  count := by
    have := h.count
    simp only [List.countP_append, List.countP_cons, NatEvent.isStun, NatEvent.stun?,
      NatEvent.isAddPort, Option.isSome_some, Bool.false_eq_true, if_false, if_true]
    omega

/-- **Step lemma.** Each request belongs to a STUN answer. -/
lemma step (h : Unrenewed tr s) (hstep : s.step a = some (s', evs)) : Unrenewed (tr ++ evs) s' := by
  cases step_step hstep with
  | wait _ | stunEnd | drop =>
    rw [List.append_nil]
    exact { h with }
  | @tick env period le started due =>
    rw [h.renew_eq env, List.map_nil, List.append_nil]
    exact { h with }
  | lost le => exact h.stun rfl (fun _ _ hmem => by cases hmem) (Nat.zero_le _)
  | udp _ protocol =>
    rw [h.protocol] at protocol
    cases protocol
  | @tcp addr env le protocol =>
    refine h.stun rfl (fun t r hmem => ?_) ?_
    · rcases List.mem_cons.mp hmem with hmem | hmem
      · cases hmem
      · obtain ⟨r', hr', heq⟩ := List.mem_map.mp hmem
        cases heq
        exact ⟨rfl, h.duration ▸ UpnpService.of_mem_addPort r hr'⟩
    · rw [List.countP_cons_of_neg (by simp [NatEvent.isAddPort]), List.countP_map]
      exact UpnpService.countP_addPort_le

end Unrenewed

end NatService

end Vlink.Transport
