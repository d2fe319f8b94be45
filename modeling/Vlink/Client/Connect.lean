import Vlink.Headlink.Replies
import Vlink.Headlink.Server

set_option autoImplicit false

/-!
# Requests of a client and their replies

`vlinkd/src/connect.rs`: the client end of a connection to the head server. The messages to the
server are numbered in the order in which they are written. `request` subscribes to the messages
from the server, sends its message, and returns the first message it sees that has the same number.
The server numbers its replies like the requests, and everything else with a counter of its own, so
that a notice may have the number of a request.

## Main definitions

* `Vlink.Client.ClientConnect` — the client end of the connection.
* `Vlink.Client.Link`, `Vlink.Client.Link.step` — the head server, and the client of one of its
  connections.
* `Vlink.Client.Link.keepsApart` — the server numbers no notice like a request that waits, and no
  request gets the number of a notice that is on its way.

## Main results

* `Vlink.Client.returned_reply` — in every run with such steps, `request` returns the reply to its
  own message.
* `Vlink.Client.notice_returned` — without the condition, `request` returns a notice.

## Design

A call of `request` takes four kinds of steps: it subscribes, it puts its message in the send queue,
which has ten places, it looks at the next message from the server, and it may give up at any time,
which covers the timeout and lost connections. The other clients are left open, as they are in the
model of the server.
-/

namespace Vlink.Client

open Headlink

/-- The size of the send queue of a client. -/
def queueSize : ℕ := 10

/-- The size of the broadcast channel of a client: ten, rounded up to a power of two. -/
def broadcastSize : ℕ := 16

/-! ## The client end -/

/-- A call of `request`. -/
structure Request where
  data : ToServerData
  /-- The messages from the server since the call began. -/
  rx : Receiver ToClient := {}
  /-- The message is in the send queue, or has been. -/
  submitted : Bool := false
  /-- The number that the message was written with. -/
  number : Option ℕ := none

/-- `ClientConnect`. -/
structure ClientConnect where
  /-- The send queue: who waits for the number of the message, and the message. -/
  queue : List (Option ℕ × ToServerData) := []
  /-- The counter of `to_server_handler`. -/
  counter : ℕ := 0
  /-- The calls that have not come back, and how many there were. -/
  requests : ℕ → Option Request := fun _ => none
  begun : ℕ := 0

namespace ClientConnect

/-- Change a call, or forget it. -/
def set (client : ClientConnect) (k : ℕ) (r : Option Request) : ClientConnect :=
  { client with requests := Function.update client.requests k r }

/-- The message of a call was written. -/
def drew (client : ClientConnect) (owner : Option ℕ) (n : ℕ) : ClientConnect :=
  match owner with
  | none => client
  | some k => client.set k ((client.requests k).map fun r => { r with number := some n })

/-- `recv_handler`: a message from the server goes to all calls. -/
def receive (client : ClientConnect) (m : ToClient) : ClientConnect :=
  { client with
    requests := fun k => (client.requests k).map fun r =>
      { r with rx := r.rx.push broadcastSize m } }

/-- One call is changed. -/
lemma requests_set {client : ClientConnect} {k k' : ℕ} {r : Option Request} {r' : Request}
    (hr : (client.set k' r).requests k = some r') :
    (k = k' ∧ r = some r') ∨ client.requests k = some r' := by
  simp only [set, Function.update_apply] at hr
  split_ifs at hr with hk
  · exact .inl ⟨hk, hr⟩
  · exact .inr hr

end ClientConnect

/-! ## The server with one of its clients -/

/-- The head server, and the client end of one of its connections. -/
structure Link where
  server : Server
  client : ClientConnect

/-- What can be observed. -/
inductive LinkEvent where
  | server (e : Event)
  /-- The message of the call was written, with that number. -/
  | drew (k n : ℕ) (data : ToServerData)
  /-- The call, whose message has the number `n`, came back with `m`. -/
  | returned (k n : ℕ) (m : ToClient)
  | failed (k : ℕ)
deriving DecidableEq

/-- The steps of the system. -/
inductive LinkAction where
  /-- A step of the server, or of another client. -/
  | server (a : Action)
  /-- `request`: subscribe; put the message in the send queue. -/
  | begin (data : ToServerData)
  | submit (k : ℕ)
  /-- `send`: put a message in the send queue. -/
  | plain (data : ToServerData)
  /-- `to_server_handler` and `recv_handler`. -/
  | write
  | read
  /-- `request`: look at the next message; give up. -/
  | poll (k : ℕ)
  | abandon (k : ℕ)

/-- The step is one of the client at the connection. -/
def ofClient (c : ConnId) : Action → Bool
  | .act c' (.clientSend _) | .act c' .clientRecv => c' = c
  | _ => false

/-- The messages on their way to a client. -/
def downstream (s : Server) (c : ConnId) : List ToClient :=
  ((s.conns c).map Conn.downstream).getD []

/-- What gets on its way to a client is written by `to_client_handler`. -/
lemma mem_downstream_step {s s' : Server} {a : Action} {evs : List Event} {c : ConnId}
    (h : s.step a = some (s', evs)) {m : ToClient} (hm : m ∈ downstream s' c) :
    m ∈ downstream s c ∨
    ∃ conn origin queue, a = .act c .deliver ∧ s.conns c = some conn ∧
      conn.queue = (origin, m.toClientData) :: queue ∧ m.id = origin.getD (conn.counter + 1) ∧
      .wrote c origin m ∈ evs := by
  cases a with
  | accept addr =>
    cases h
    simp only [downstream, Function.update_apply] at hm
    split_ifs at hm
    · cases hm
    · exact .inl hm
  | act c' a =>
    obtain ⟨conn, move, post, hconn, hact, rfl, after⟩ := Server.step_act h
    have hmap := after.map_conns (f := Conn.downstream) (fun _ _ _ => rfl) c
    rw [downstream, hmap] at hm
    split_ifs at hm with hc
    · subst hc
      have old : m ∈ conn.downstream → m ∈ downstream s c := by
        simp [downstream, hconn]
      cases Conn.act_step hact with
      | clientSend | recv | hangup => exact .inl (old hm)
      | clientRecv front => exact .inl (old (by rw [front]; exact List.mem_cons_of_mem _ hm))
      | reply running front | notify running front =>
        rcases List.mem_append.mp hm with hm | hm
        · exact .inl (old hm)
        · cases List.mem_singleton.mp hm
          exact .inr ⟨conn, _, _, rfl, hconn, front, rfl, by simp⟩
      | process running move => cases move <;> exact .inl (old hm)
      | main move =>
        generalize conn.phase = phase at move
        cases move <;> exact .inl (old hm)
    · exact .inl hm

namespace Link

variable (c : ConnId)

/-- `to_server_handler` writes the next message of the send queue. -/
def write (l : Link) : Option (Link × List LinkEvent) :=
  match l.client.queue with
  | [] => none
  | (owner, data) :: queue =>
    let n := l.client.counter + 1
    (l.server.step (.act c (.clientSend ⟨n, some data⟩))).map fun (server, evs) =>
      ({ server, client := { l.client with queue, counter := n }.drew owner n },
        evs.map .server ++ (owner.map fun k => .drew k n data).toList)

/-- `recv_handler` reads the next message. -/
def read (l : Link) : Option (Link × List LinkEvent) :=
  match downstream l.server c with
  | [] => none
  | m :: _ =>
    (l.server.step (.act c .clientRecv)).map fun (server, evs) =>
      ({ server, client := l.client.receive m }, evs.map .server)

/-- A call looks at the next message. -/
def poll (l : Link) (k : ℕ) : Option (Link × List LinkEvent) :=
  match l.client.requests k with
  | none => none
  | some r =>
    match r.number with
    | none => none
    | some n =>
      match r.rx.recv with
      | .empty => none
      | .lagged _ => some ({ l with client := l.client.set k none }, [.failed k])
      | .item m rest =>
        if m.id = n then some ({ l with client := l.client.set k none }, [.returned k n m])
        else some ({ l with client := l.client.set k (some { r with rx := rest }) }, [])

/-- One step; `none` if the action is not possible. -/
def step (l : Link) : LinkAction → Option (Link × List LinkEvent)
  | .server a =>
    if ofClient c a then none
    else (l.server.step a).map fun (server, evs) => ({ l with server }, evs.map .server)
  | .begin data =>
    let client := l.client.set l.client.begun (some { data })
    some ({ l with client := { client with begun := l.client.begun + 1 } }, [])
  | .submit k =>
    match l.client.requests k with
    | none => none
    | some r =>
      if r.submitted = false ∧ l.client.queue.length < queueSize then
        let client := l.client.set k (some { r with submitted := true })
        some ({ l with client := { client with queue := client.queue ++ [(some k, r.data)] } }, [])
      else none
  | .plain data =>
    if l.client.queue.length < queueSize then
      some ({ l with client := { l.client with queue := l.client.queue ++ [(none, data)] } }, [])
    else none
  | .write => l.write c
  | .read => l.read c
  | .poll k => l.poll k
  | .abandon k =>
    (l.client.requests k).map fun _ => ({ l with client := l.client.set k none }, [.failed k])

/-- The head server at its start, and a client that has done nothing. -/
def new (db : Database) (info : ServerInfo) : Link := ⟨.new db info, {}⟩

/-- A run, all of whose steps meet `guard`, leads to `l` and emits `tr`. -/
def Reaches (l : Link) (c : ConnId) (db : Database) (info : ServerInfo)
    (guard : Link → LinkAction → Prop) (tr : List LinkEvent) : Prop :=
  Run (step c) guard (new db info) tr l

/-- A call waits for the number. -/
def awaits (l : Link) (n : ℕ) : Bool :=
  (List.range l.client.begun).any fun k => (l.client.requests k).any (·.number = some n)

/-- The server numbers no notice like a call that waits, and the message of no call gets the number
of a message that is on its way or that the call has not looked at yet. -/
def keepsApart (l : Link) : LinkAction → Bool
  | .server (.act c' .deliver) =>
    c' ≠ c || (l.server.conns c).all fun conn =>
      match conn.queue with
      | (none, _) :: _ => !l.awaits (conn.counter + 1)
      | _ => true
  | .write =>
    match l.client.queue with
    | (some k, _) :: _ =>
      (downstream l.server c).all (·.id ≠ l.client.counter + 1) &&
        (l.client.requests k).all fun r => r.rx.queue.all (·.id ≠ l.client.counter + 1)
    | _ => true
  | _ => true

/-! ## What a step can do -/

/-- The steps of the system, one case for each outcome. -/
inductive Step (l : Link) : LinkAction → Link → List LinkEvent → Prop
  | server {a : Action} {s : Server} {evs : List Event} (other : ofClient c a = false)
      (h : l.server.step a = some (s, evs)) :
      Step l (.server a) { l with server := s } (evs.map .server)
  | begin (data : ToServerData) : Step l (.begin data)
      { l with client := { l.client.set l.client.begun (some { data }) with
          begun := l.client.begun + 1 } } []
  | submit {k : ℕ} {r : Request} (waiting : l.client.requests k = some r) : Step l (.submit k)
      { l with client := { l.client.set k (some { r with submitted := true }) with
          queue := l.client.queue ++ [(some k, r.data)] } } []
  | plain (data : ToServerData) : Step l (.plain data)
      { l with client := { l.client with queue := l.client.queue ++ [(none, data)] } } []
  | write {owner : Option ℕ} {data : ToServerData} {queue : List (Option ℕ × ToServerData)}
      {s : Server} {evs : List Event} (front : l.client.queue = (owner, data) :: queue)
      (h : l.server.step (.act c (.clientSend ⟨l.client.counter + 1, some data⟩)) =
        some (s, evs)) : Step l .write
      { server := s, client := { l.client with queue, counter := l.client.counter + 1 }.drew owner
          (l.client.counter + 1) }
      (evs.map .server ++ (owner.map fun k => .drew k (l.client.counter + 1) data).toList)
  | read {m : ToClient} {rest : List ToClient} {s : Server} {evs : List Event}
      (front : downstream l.server c = m :: rest)
      (h : l.server.step (.act c .clientRecv) = some (s, evs)) : Step l .read
      { server := s, client := l.client.receive m } (evs.map .server)
  | returned {k n : ℕ} {r : Request} {m : ToClient} {rest : Receiver ToClient}
      (waiting : l.client.requests k = some r) (number : r.number = some n)
      (took : r.rx.recv = .item m rest) (id : m.id = n) : Step l (.poll k)
      { l with client := l.client.set k none } [.returned k n m]
  | skip {k : ℕ} {r : Request} {m : ToClient} {rest : Receiver ToClient}
      (waiting : l.client.requests k = some r) (took : r.rx.recv = .item m rest) : Step l (.poll k)
      { l with client := l.client.set k (some { r with rx := rest }) } []
  | failed {a : LinkAction} {k : ℕ} : Step l a { l with client := l.client.set k none } [.failed k]

variable {c} {l l' : Link} {a : LinkAction} {evs : List LinkEvent}

/-- Whatever the system does is one of the steps. -/
lemma step_step (h : l.step c a = some (l', evs)) : Step c l a l' evs := by
  cases a with
  | server a =>
    rw [step] at h
    split_ifs at h with hother
    obtain ⟨⟨s, evs'⟩, hs, heq⟩ := Option.map_eq_some_iff.mp h
    cases heq
    exact .server (by simpa using hother) hs
  | begin data =>
    cases h
    exact .begin data
  | submit k =>
    simp only [step] at h
    split at h
    · cases h
    · next r hr =>
      split_ifs at h
      cases h
      exact .submit hr
  | plain data =>
    simp only [step] at h
    split_ifs at h
    cases h
    exact .plain data
  | write =>
    simp only [step, write] at h
    split at h
    · cases h
    · next owner data queue front =>
      obtain ⟨⟨s, evs'⟩, hs, heq⟩ := Option.map_eq_some_iff.mp h
      cases heq
      exact .write front hs
  | read =>
    simp only [step, read] at h
    split at h
    · cases h
    · next m rest front =>
      obtain ⟨⟨s, evs'⟩, hs, heq⟩ := Option.map_eq_some_iff.mp h
      cases heq
      exact .read front hs
  | poll k =>
    simp only [step, poll] at h
    split at h
    · cases h
    · next r hr =>
      split at h
      · cases h
      · next n hn =>
        split at h
        · cases h
        · cases h
          exact .failed
        · next m rest took =>
          split_ifs at h with hid
          · cases h
            exact .returned hr hn took hid
          · cases h
            exact .skip hr took
  | abandon k =>
    obtain ⟨r, -, heq⟩ := Option.map_eq_some_iff.mp h
    cases heq
    exact .failed

/-- What a client is seen to send, `to_server_handler` writes. -/
lemma Step.clientSent (h : Step c l a l' evs) {m : ToServer}
    (hm : .server (.clientSent c m) ∈ evs) :
    ∃ owner data queue, l.client.queue = (owner, data) :: queue ∧
      m = ⟨l.client.counter + 1, some data⟩ ∧ l'.client.counter = l.client.counter + 1 := by
  cases h with
  | @server a _ _ other h =>
    obtain ⟨e, he, heq⟩ := List.mem_map.mp hm
    cases heq
    rw [Server.action_of_clientSent h he] at other
    simp [ofClient] at other
  | @write owner data queue _ evs' front h =>
    rcases List.mem_append.mp hm with hm | hm
    · obtain ⟨e, he, heq⟩ := List.mem_map.mp hm
      cases heq
      cases Server.action_of_clientSent h he
      exact ⟨owner, data, queue, front, rfl, by cases owner <;> rfl⟩
    · cases owner <;> simp at hm
  | read _ h =>
    obtain ⟨e, he, heq⟩ := List.mem_map.mp hm
    cases heq
    cases Server.action_of_clientSent h he
  | returned | failed => cases List.mem_singleton.mp hm
  | begin | submit | plain | skip => cases hm

/-- What a step does to a call: it is new and has seen nothing; it sees what is read; or it gets its
number. -/
inductive CallStep (c : ConnId) (l : Link) (a : LinkAction) (l' : Link) (evs : List LinkEvent)
    (k : ℕ)
    (r' : Request) : Prop
  | new (unseen : r'.rx.queue = []) (number : r'.number = none) (lt : k < l'.client.begun)
  | old {r : Request} (waiting : l.client.requests k = some r)
      (rx : ∀ m ∈ r'.rx.queue, m ∈ r.rx.queue ∨ m ∈ downstream l.server c)
      (number : r'.number = r.number)
  | drew {r : Request} {data : ToServerData} {queue : List (Option ℕ × ToServerData)}
      (writes : a = .write) (front : l.client.queue = (some k, data) :: queue)
      (waiting : l.client.requests k = some r) (rx : r'.rx = r.rx)
      (number : r'.number = some (l.client.counter + 1))
      (shown : .drew k (l.client.counter + 1) data ∈ evs)

/-- A call that is not touched. -/
lemma CallStep.same {k : ℕ} {r : Request} (hr : l.client.requests k = some r) :
    CallStep c l a l' evs k r :=
  .old hr (fun _ hm => .inl hm) rfl

/-- Whatever becomes of a call is one of these. -/
lemma Step.call (h : Step c l a l' evs) {k : ℕ} {r' : Request}
    (hr : l'.client.requests k = some r') : CallStep c l a l' evs k r' := by
  cases h with
  | server | plain => exact .same hr
  | begin data =>
    rcases ClientConnect.requests_set hr with ⟨rfl, heq⟩ | hr
    · cases heq
      exact .new rfl rfl (Nat.lt_succ_self _)
    · exact .same hr
  | submit waiting =>
    rcases ClientConnect.requests_set hr with ⟨rfl, heq⟩ | hr
    · cases heq
      exact .old waiting (fun m hm => .inl hm) rfl
    · exact .same hr
  | @write owner data queue _ _ front h =>
    cases owner with
    | none => exact .same hr
    | some k' =>
      rcases ClientConnect.requests_set hr with ⟨rfl, heq⟩ | hr
      · obtain ⟨r, waiting, rfl⟩ := Option.map_eq_some_iff.mp heq
        exact .drew rfl front waiting rfl rfl (by simp)
      · exact .same hr
  | read front h =>
    obtain ⟨r, waiting, rfl⟩ := Option.map_eq_some_iff.mp hr
    refine .old waiting (fun m hm => ?_) rfl
    rcases Receiver.mem_push hm with hm | rfl
    · exact .inl hm
    · exact .inr (by rw [front]; exact List.mem_cons_self)
  | returned | failed =>
    rcases ClientConnect.requests_set hr with ⟨-, heq⟩ | hr
    · cases heq
    · exact .same hr
  | @skip _ r m rest waiting took =>
    rcases ClientConnect.requests_set hr with ⟨rfl, heq⟩ | hr
    · cases heq
      refine .old waiting (fun m hm => .inl ?_) rfl
      rw [(Receiver.recv_eq_item.mp took).2]
      exact List.mem_cons_of_mem _ hm
    · exact .same hr

/-- What gets on its way to the client is written by `to_client_handler`. -/
lemma Step.mem_downstream (h : Step c l a l' evs) {m : ToClient}
    (hm : m ∈ downstream l'.server c) :
    m ∈ downstream l.server c ∨
    ∃ conn origin queue, a = .server (.act c .deliver) ∧ l.server.conns c = some conn ∧
      conn.queue = (origin, m.toClientData) :: queue ∧ m.id = origin.getD (conn.counter + 1) ∧
      .server (.wrote c origin m) ∈ evs := by
  cases h with
  | server _ h =>
    rcases mem_downstream_step h hm with hm | ⟨conn, origin, queue, rfl, hconn, front, hid, hmem⟩
    · exact .inl hm
    · exact .inr ⟨conn, origin, queue, rfl, hconn, front, hid, List.mem_map_of_mem hmem⟩
  | write _ h | read _ h =>
    rcases mem_downstream_step h hm with hm | ⟨_, _, _, heq, _⟩
    · exact .inl hm
    · cases heq
  | begin | submit | plain | returned | skip | failed => exact .inl hm

/-- The counters do not go back. -/
lemma Step.counters (h : Step c l a l' evs) :
    l.client.begun ≤ l'.client.begun ∧ l.client.counter ≤ l'.client.counter := by
  cases h with
  | begin => exact ⟨Nat.le_succ _, le_rfl⟩
  | @write owner => cases owner <;> exact ⟨le_rfl, Nat.le_succ _⟩
  | _ => exact ⟨le_rfl, le_rfl⟩

end Link

/-! ## The run of the server -/

/-- What is seen of the server. -/
def serverTrace (tr : List LinkEvent) : List Event :=
  tr.filterMap fun
    | .server e => some e
    | _ => none

/-- The part of the server in a longer trace. -/
@[simp] lemma serverTrace_append (tr evs : List LinkEvent) :
    serverTrace (tr ++ evs) = serverTrace tr ++ serverTrace evs :=
  List.filterMap_append

/-- The events of the server are its part. -/
@[simp] lemma serverTrace_map (evs : List Event) : serverTrace (evs.map .server) = evs := by
  simp [serverTrace, List.filterMap_map]

/-- An event of the server is in its part. -/
@[simp] lemma mem_serverTrace {tr : List LinkEvent} {e : Event} :
    e ∈ serverTrace tr ↔ .server e ∈ tr := by
  unfold serverTrace
  rw [List.mem_filterMap]
  constructor
  · rintro ⟨x, hx, heq⟩
    cases x <;> cases heq
    exact hx
  · exact fun h => ⟨_, h, rfl⟩

section Runs

variable {c : ConnId} {db : Database} {info : ServerInfo} {guard : Link → LinkAction → Prop}
  {l : Link} {tr : List LinkEvent}

/-- The server takes part in a run with a run of its own. -/
lemma Link.Reaches.server (run : l.Reaches c db info guard tr) :
    l.server.Reaches db info (fun _ _ => True) (serverTrace tr) := by
  refine Run.invariant
    (I := fun tr l => (Link.server l).Reaches db info (fun _ _ => True) (serverTrace tr)) ?_ ?_ run
  · exact Run.nil
  intro tr l a l' evs _ ih _ hstep
  rw [serverTrace_append]
  cases Link.step_step hstep with
  | server _ h =>
    rw [serverTrace_map]
    exact ih.snoc trivial h
  | @write owner data queue s evs' front h =>
    have htail : serverTrace
        (owner.map fun k => LinkEvent.drew k (l.client.counter + 1) data).toList = [] := by
      cases owner <;> rfl
    rw [serverTrace_append, serverTrace_map, htail, List.append_nil]
    exact ih.snoc trivial h
  | read _ h =>
    rw [serverTrace_map]
    exact ih.snoc trivial h
  | begin _ | submit _ | plain _ | returned _ _ _ _ | skip _ _ | failed =>
    show Server.Reaches l.server db info (fun _ _ => True) (serverTrace tr ++ [])
    rw [List.append_nil]
    exact ih

/-! ## Numbers of messages -/

/-- What the client has written is known by its number, and the calls know their numbers. -/
structure Numbered (c : ConnId) (tr : List LinkEvent) (l : Link) : Prop where
  begun : ∀ k r, l.client.requests k = some r → k < l.client.begun
  sent : ∀ m, .server (.clientSent c m) ∈ tr → m.id ≤ l.client.counter
  unique : ∀ m m', .server (.clientSent c m) ∈ tr → .server (.clientSent c m') ∈ tr →
    m.id = m'.id → m = m'
  drew : ∀ k n data, .drew k n data ∈ tr → .server (.clientSent c ⟨n, some data⟩) ∈ tr
  number : ∀ k r n, l.client.requests k = some r → r.number = some n → ∃ data, .drew k n data ∈ tr

/-- The message of a call is written. -/
lemma Link.Step.drew {l' : Link} {a : LinkAction} {evs : List LinkEvent}
    (h : Link.Step c l a l' evs) {k n : ℕ} {data : ToServerData} (hd : .drew k n data ∈ evs) :
    .server (.clientSent c ⟨n, some data⟩) ∈ evs := by
  cases h with
  | @write owner data' queue s evs' front h =>
    rcases List.mem_append.mp hd with hd | hd
    · obtain ⟨e, -, heq⟩ := List.mem_map.mp hd
      cases heq
    · obtain ⟨k', -, heq⟩ := Option.map_eq_some_iff.mp (Option.mem_toList.mp hd)
      cases heq
      obtain ⟨conn, m, post, -, hact, rfl, -⟩ := Server.step_act h
      cases hact
      simp
  | server | read =>
    obtain ⟨e, -, heq⟩ := List.mem_map.mp hd
    cases heq
  | returned | failed => cases List.mem_singleton.mp hd
  | begin | submit | plain | skip => cases hd

/-- A step keeps the numbers. -/
lemma Numbered.step {l' : Link} {a : LinkAction} {evs : List LinkEvent} (inv : Numbered c tr l)
    (h : Link.Step c l a l' evs) : Numbered c (tr ++ evs) l' where
  begun k r hr := by
    cases h.call hr with
    | new _ _ lt => exact lt
    | old waiting _ _ | drew _ _ waiting _ _ _ =>
      exact (inv.begun k _ waiting).trans_le h.counters.1
  sent m hm := by
    rcases List.mem_append.mp hm with hm | hm
    · exact (inv.sent m hm).trans h.counters.2
    · obtain ⟨_, _, _, _, rfl, hcounter⟩ := h.clientSent hm
      exact hcounter.ge
  unique m m' hm hm' hid := by
    -- a new message has a number that none of the old ones has
    have fresh : ∀ {m m'}, .server (.clientSent c m) ∈ tr → .server (.clientSent c m') ∈ evs →
        m.id ≠ m'.id := by
      intro m m' hm hm' hid
      obtain ⟨_, _, _, _, rfl, -⟩ := h.clientSent hm'
      have hle := inv.sent m hm
      rw [hid] at hle
      exact absurd hle (Nat.not_succ_le_self _)
    rcases List.mem_append.mp hm with hm | hm
    · rcases List.mem_append.mp hm' with hm' | hm'
      · exact inv.unique m m' hm hm' hid
      · exact absurd hid (fresh hm hm')
    · rcases List.mem_append.mp hm' with hm' | hm'
      · exact absurd hid.symm (fresh hm' hm)
      · obtain ⟨_, _, _, front, rfl, -⟩ := h.clientSent hm
        obtain ⟨_, _, _, front', rfl, -⟩ := h.clientSent hm'
        cases front.symm.trans front'
        rfl
  drew k n data hd := by
    rcases List.mem_append.mp hd with hd | hd
    · exact List.mem_append_left _ (inv.drew k n data hd)
    · exact List.mem_append_right _ (h.drew hd)
  number k r n hr hn := by
    cases h.call hr with
    | new _ number _ =>
      rw [number] at hn
      cases hn
    | old waiting _ number =>
      obtain ⟨data, hd⟩ := inv.number k _ n waiting (number ▸ hn)
      exact ⟨data, List.mem_append_left _ hd⟩
    | drew _ _ _ _ number shown =>
      cases number.symm.trans hn
      exact ⟨_, List.mem_append_right _ shown⟩

/-- In every run, the numbers identify what the client has written. -/
lemma Link.Reaches.numbered (run : l.Reaches c db info guard tr) : Numbered c tr l := by
  refine Run.invariant (I := Numbered c) ?_ ?_ run
  · exact ⟨by simp [Link.new], by simp, by simp, by simp, by simp [Link.new]⟩
  · intro tr l a l' evs _ inv _ h
    exact inv.step (Link.step_step h)

/-! ## Replies -/

/-- Whatever has the number of a call that waits is the reply to its message, on the way and where
the call looks for it. -/
structure Matched (c : ConnId) (tr : List LinkEvent) (l : Link) : Prop where
  waiting : ∀ k r n, l.client.requests k = some r → r.number = some n →
    ∀ m, m ∈ r.rx.queue ∨ m ∈ downstream l.server c → m.id = n → .server (.wrote c (some n) m) ∈ tr
  returned : ∀ k n m, .returned k n m ∈ tr →
    m.id = n ∧ .server (.wrote c (some n) m) ∈ tr ∧ ∃ data, .drew k n data ∈ tr

/-- Where a call comes back with a message. -/
lemma Link.Step.mem_returned {l' : Link} {a : LinkAction} {evs : List LinkEvent}
    (h : Link.Step c l a l' evs) {k n : ℕ} {m : ToClient} (hm : .returned k n m ∈ evs) :
    ∃ r, l.client.requests k = some r ∧ r.number = some n ∧ m ∈ r.rx.queue ∧ m.id = n := by
  cases h with
  | @returned _ _ r _ rest waiting number took id =>
    cases List.mem_singleton.mp hm
    refine ⟨r, waiting, number, ?_, id⟩
    rw [(Receiver.recv_eq_item.mp took).2]
    exact List.mem_cons_self
  | @write owner =>
    rcases List.mem_append.mp hm with hm | hm
    · obtain ⟨e, -, heq⟩ := List.mem_map.mp hm
      cases heq
    · obtain ⟨k', -, heq⟩ := Option.map_eq_some_iff.mp (Option.mem_toList.mp hm)
      cases heq
  | server | read =>
    obtain ⟨e, -, heq⟩ := List.mem_map.mp hm
    cases heq
  | failed => cases List.mem_singleton.mp hm
  | begin | submit | plain | skip => cases hm

/-- A call that has not come back waits for its number. -/
lemma Numbered.awaits (inv : Numbered c tr l) {k n : ℕ} {r : Request}
    (hr : l.client.requests k = some r) (hn : r.number = some n) : l.awaits n = true := by
  rw [Link.awaits, List.any_eq_true]
  exact ⟨k, List.mem_range.mpr (inv.begun k r hr), by simp [hr, hn]⟩

/-- A message with the number of a call that waits was not there when the call got its number, and
is no notice. -/
lemma Matched.step {l' : Link} {a : LinkAction} {evs : List LinkEvent} (inv : Matched c tr l)
    (num : Numbered c tr l) (ok : l.keepsApart c a = true) (h : Link.Step c l a l' evs) :
    Matched c (tr ++ evs) l' where
  waiting k r' n hr hn m hm hid := by
    cases h.call hr with
    | new _ number _ =>
      rw [number] at hn
      cases hn
    | @old r waiting rx number =>
      rw [number] at hn
      have hin := inv.waiting k r n waiting hn m
      rcases hm with hm | hm
      · exact List.mem_append_left _ (hin (rx m hm) hid)
      rcases h.mem_downstream hm with hm | ⟨conn, origin, queue, rfl, hconn, front, horigin, hmem⟩
      · exact List.mem_append_left _ (hin (.inr hm) hid)
      cases origin with
      | some n' =>
        cases horigin.symm.trans hid
        exact List.mem_append_right _ hmem
      | none =>
        -- the number of the notice is one that no call waits for
        simp only [Link.keepsApart, hconn, front, ne_eq, not_true_eq_false, decide_false,
          Bool.false_or, Option.all_some, Bool.not_eq_true'] at ok
        have hnumber : r.number = some (conn.counter + 1) :=
          hn.trans (congrArg some (hid.symm.trans horigin))
        rw [num.awaits waiting hnumber] at ok
        cases ok
    | @drew r data queue writes front waiting rx number shown =>
      subst writes
      cases number.symm.trans hn
      simp only [Link.keepsApart, front, waiting, Bool.and_eq_true, List.all_eq_true,
        decide_eq_true_eq, Option.all_some] at ok
      rcases hm with hm | hm
      · exact absurd hid (ok.2 m (rx ▸ hm))
      · rcases h.mem_downstream hm with hm | ⟨_, _, _, heq, _⟩
        · exact absurd hid (ok.1 m hm)
        · cases heq
  returned k n m hm := by
    rcases List.mem_append.mp hm with hm | hm
    · obtain ⟨hid, hwrote, data, hdrew⟩ := inv.returned k n m hm
      exact ⟨hid, List.mem_append_left _ hwrote, data, List.mem_append_left _ hdrew⟩
    · obtain ⟨r, hr, hn, hqueue, hid⟩ := h.mem_returned hm
      obtain ⟨data, hdrew⟩ := num.number k r n hr hn
      exact ⟨hid, List.mem_append_left _ (inv.waiting k r n hr hn m (.inl hqueue) hid), data,
        List.mem_append_left _ hdrew⟩

/-- In every run that keeps the numbers apart, what a call can take for its reply is its reply. -/
lemma Link.Reaches.matched (run : l.Reaches c db info (fun l a => l.keepsApart c a = true) tr) :
    Matched c tr l := by
  refine Run.invariant (I := Matched c) ?_ ?_ run
  · exact ⟨by simp [Link.new], by simp⟩
  · intro tr l a l' evs run inv ok h
    exact inv.step (Link.Reaches.numbered run) ok (Link.step_step h)

/-- What is written as a reply is not what is written as a notice. -/
lemma Link.Reaches.wrote_ne (run : l.Reaches c db info guard tr) {n : ℕ} {m m' : ToClient}
    (hm : .server (.wrote c (some n) m) ∈ tr) (hm' : .server (.wrote c none m') ∈ tr) :
    m'.toClientData ≠ m.toClientData := by
  have hserver := run.server
  have hlt := hserver.conn_lt_count (mem_serverTrace.mpr hm) (by simp)
  obtain ⟨conn, hconn⟩ := Option.isSome_iff_exists.mp ((hserver.isSome_conns c).mpr hlt)
  have answers := hserver.answers hconn
  have hreply := (answers.wrote _ _ (mem_serverTrace.mpr hm)).1.1
  have hnotice := (answers.wrote _ _ (mem_serverTrace.mpr hm')).1.1
  intro heq
  rw [heq, ← hreply] at hnotice
  cases hnotice

/-- **A call comes back with its reply.** In every run in which the numbers of notices and of calls
that wait are kept apart, what a call comes back with was written by the server as the reply to the
message with that number, which is the message of the call and no other, and is nothing that the
server sent on its own. -/
theorem returned_reply (run : l.Reaches c db info (fun l a => l.keepsApart c a = true) tr) {k n : ℕ}
    {m : ToClient} (h : .returned k n m ∈ tr) :
    ∃ data, .drew k n data ∈ tr ∧ .server (.clientSent c ⟨n, some data⟩) ∈ tr ∧
      (∀ msg, .server (.clientSent c msg) ∈ tr → msg.id = n → msg = ⟨n, some data⟩) ∧
      m.id = n ∧ .server (.wrote c (some n) m) ∈ tr ∧
      ∀ m', .server (.wrote c none m') ∈ tr → m'.toClientData ≠ m.toClientData := by
  obtain ⟨hid, hwrote, data, hdrew⟩ := run.matched.returned k n m h
  have hsent := run.numbered.drew k n data hdrew
  refine ⟨data, hdrew, hsent, fun msg hmsg hn => ?_, hid, hwrote, fun m' hm' => ?_⟩
  · exact run.numbered.unique msg _ hmsg hsent hn
  · exact run.wrote_ne hwrote hm'

end Runs

/-! ## Runs on fixed inputs -/

section Examples

open Headlink.Sample

/-- The server takes steps. -/
private def serve (acts : List Action) : List LinkAction := acts.map .server

/-- The client connects, and its handshake is answered. -/
private def shake : List LinkAction :=
  serve [.accept (addr 0), tidy 0, go 0, .act 0 .deliver, go 0] ++
    [.read, .begin (.handshake ⟨0, keyA, none, ""⟩), .submit 0, .write] ++
    serve (.act 0 .recv :: List.replicate 5 (go 0) ++ [.act 0 .deliver]) ++ [.read, .poll 0] ++
    serve (List.replicate 3 (go 0))

/-- The client enters, and is told that another one enters too. -/
private def meet : List LinkAction :=
  [.plain (.peerEnter ⟨"", none, 0, []⟩), .write] ++
    serve (.act 0 .recv :: List.replicate 5 (go 0)) ++
    serve (admission 1 keyB ++ entrance 1 2 "" ++ [go 1]) ++ serve [.act 0 .deliver] ++ [.read]

/-- The client asks for its configuration while the other one is cut off. -/
private def part : List LinkAction :=
  [.begin .reqConfig, .submit 1, .write] ++
    serve (.act 1 .hangup :: List.replicate 7 (tidy 1) ++ [.act 0 .deliver]) ++ [.read, .poll 1]

/-- The handshake of a client is a run that keeps the numbers apart. -/
theorem returned_reply_sample :
    ∃ l tr m, Link.Reaches l 0 db info (fun l a => l.keepsApart 0 a = true) tr ∧
      .returned 0 1 m ∈ tr ∧ .server (.wrote 0 (some 1) m) ∈ tr ∧
      .drew 0 1 (.handshake ⟨0, keyA, none, ""⟩) ∈ tr := by
  obtain ⟨l, tr, run, h⟩ := exists_run_of_exec (checked (Link.step 0) (Link.keepsApart 0)) shake
    (.new db info) (fun r => decide (.returned 0 1 ⟨1, .respHandshake ⟨true, none⟩⟩ ∈ r.2 ∧
      .drew 0 1 (.handshake ⟨0, keyA, none, ""⟩) ∈ r.2)) (by decide +kernel)
  obtain ⟨hreturned, hdrew⟩ := of_decide_eq_true h
  have hrun := run.of_checked
  obtain ⟨data, -, -, -, -, hwrote, -⟩ := returned_reply hrun hreturned
  exact ⟨l, tr, _, hrun, hreturned, hwrote, hdrew⟩

/-- **A notice is taken for a reply.** A client asks for its configuration while another peer is cut
off. The notice about the other peer is the third that the server numbers, the request is the third
message of the client, and the call comes back with the notice. -/
theorem notice_returned :
    ∃ l tr, Link.Reaches l 0 db info (fun _ _ => True) tr ∧
      .drew 1 3 .reqConfig ∈ tr ∧ .returned 1 3 ⟨3, .peerLeave ⟨keyB⟩⟩ ∈ tr ∧
      .server (.wrote 0 none ⟨3, .peerLeave ⟨keyB⟩⟩) ∈ tr := by
  obtain ⟨l, tr, run, h⟩ := exists_run_of_exec (Link.step 0) (shake ++ meet ++ part) (.new db info)
    (fun r => decide (.drew 1 3 .reqConfig ∈ r.2 ∧ .returned 1 3 ⟨3, .peerLeave ⟨keyB⟩⟩ ∈ r.2 ∧
      .server (.wrote 0 none ⟨3, .peerLeave ⟨keyB⟩⟩) ∈ r.2)) (by decide +kernel)
  exact ⟨l, tr, run, of_decide_eq_true h⟩

end Examples

end Vlink.Client
