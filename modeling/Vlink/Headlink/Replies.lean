import Vlink.Headlink.Letters
import Vlink.Headlink.Upstream

set_option autoImplicit false

/-!
# What is written to a client

A reply carries the number of the message that it answers, and everything else the next number of
the counter of the connection. Replies and other messages are of different kinds.

## Main definitions

* `Vlink.Headlink.ToClientData.isReply` — the messages that answer a request.
* `Vlink.Headlink.Asked` — the client sent a message with the number.

## Main results

* `Vlink.Headlink.Server.Reaches.asked` — a number that `process_client` works on is that of a
  message of the client.
* `Vlink.Headlink.Server.Reaches.answers` — what is written to the client, and what is on its way.
-/

namespace Vlink.Headlink

/-- The messages that answer a request. -/
def ToClientData.isReply : ToClientData → Bool
  | .respHandshake _ | .respConfig _ | .error _ => true
  | _ => false

/-- The client sent a message with the number. -/
def Asked (tr : List Event) (c : ConnId) (n : ℕ) : Prop :=
  ∃ msg : ToServer, .clientSent c msg ∈ tr ∧ msg.id = n

/-- More events change nothing. -/
lemma Asked.append {tr : List Event} {c : ConnId} {n : ℕ} (h : Asked tr c n)
    (evs : List Event) : Asked (tr ++ evs) c n := by
  obtain ⟨msg, hmem, hid⟩ := h
  exact ⟨msg, List.mem_append_left _ hmem, hid⟩

/-- The number of the message that `process_client` works on. -/
def Phase.number? : Phase → Option ℕ
  | .running (.handshake number _) | .running (.reply number _)
  | .running (.handling _ number _) | .running (.failing _ number _) => some number
  | _ => none

/-! ## Messages of the client -/

namespace Conn

variable {tr : List Event} {c : ConnId} {conn : Conn}

/-- The dispatch loop works on the message that it took up. -/
lemma number?_taskFor {id : ClientId} {m : ToServer} {n : ℕ}
    (h : (Phase.running (taskFor id m)).number? = some n) : m.id = n := by
  unfold taskFor at h
  split at h
  · cases h
  · exact Option.some.inj h
  · exact Option.some.inj h

/-- A section of `process_client` works on the same message, or on one that it takes up. -/
lemma ProcessStep.asked {inner : ServerInner} {env : Env} {task : Task} {m : Move} {n : ℕ}
    (step : ProcessStep inner c conn env task m) (heard : conn.Heard tr c)
    (hn : m.conn.phase.number? = some n) :
    (Phase.running task).number? = some n ∨ Asked tr c n := by
  cases step with
  | hello | await _ | ready _ | resume _ | fail | reply | welcome _ | subscribe | stop _ => cases hn
  | handshake _ | handshaken _ => exact .inl hn
  | begin took _ | refuse took _ =>
    obtain ⟨r, hr, hmem, -⟩ := took_item took
    cases hn
    exact .inr ⟨_, heard.rx r hr _ hmem, rfl⟩
  | dispatch took =>
    obtain ⟨r, hr, hmem, -⟩ := took_item took
    exact .inr ⟨_, heard.recv r hr _ hmem, number?_taskFor hn⟩
  | @handle id number hd _ next _ _ =>
    cases next with
    | go _ | push _ _ _ | fail _ => exact .inl hn
    | reply _ | done => cases hn

/-- A step of a connection. -/
lemma Step.asked {inner : ServerInner} {conns : ConnId → Option Conn} {a : ConnAction} {m : Move}
    {n : ℕ} (step : Step inner c conn conns a m) (heard : conn.Heard tr c)
    (hn : m.conn.phase.number? = some n) : conn.phase.number? = some n ∨ Asked tr c n := by
  cases step with
  | clientSend _ | clientRecv _ | recv _ _ | reply _ _ | notify _ _ => exact .inl hn
  | process running move =>
    rw [running]
    exact move.asked heard hn
  | hangup _ => cases hn
  | main move =>
    generalize conn.phase = phase at move
    cases move with
    | _ => cases hn

end Conn

/-! ## Messages to the client -/

/-- Replies, and only replies, carry the number of a message of the client. -/
def Marked (tr : List Event) (c : ConnId) (origin : Option ℕ) (data : ToClientData) : Prop :=
  origin.isSome = data.isReply ∧ ∀ n, origin = some n → Asked tr c n

/-- More events change nothing. -/
lemma Marked.append {tr : List Event} {c : ConnId} {origin : Option ℕ} {data : ToClientData}
    (h : Marked tr c origin data) (evs : List Event) : Marked (tr ++ evs) c origin data :=
  ⟨h.1, fun n hn => (h.2 n hn).append evs⟩

/-- What is in the send queue, on its way and was written. -/
structure Conn.Answers (tr : List Event) (c : ConnId) (conn : Conn) : Prop where
  queue : ∀ x ∈ conn.queue, Marked tr c x.1 x.2
  downstream : ∀ m ∈ conn.downstream, ∃ origin, .wrote c origin m ∈ tr
  wrote : ∀ origin m, .wrote c origin m ∈ tr →
    Marked tr c origin m.toClientData ∧ ∀ n, origin = some n → m.id = n

namespace Conn

variable {tr : List Event} {c : ConnId} {conn conn' : Conn}

/-- Nothing is written, and nothing is put in the send queue. -/
lemma Answers.append (h : Answers tr c conn) {evs : List Event}
    (silent : ∀ origin m, .wrote c origin m ∉ evs) (queue : conn'.queue ⊆ conn.queue)
    (downstream : conn'.downstream ⊆ conn.downstream) : Answers (tr ++ evs) c conn' := by
  refine ⟨fun x hx => (h.queue x (queue hx)).append evs, fun m hm => ?_, fun origin m hm => ?_⟩
  · obtain ⟨origin, hmem⟩ := h.downstream m (downstream hm)
    exact ⟨origin, List.mem_append_left _ hmem⟩
  · rcases List.mem_append.mp hm with hm | hm
    · obtain ⟨hmark, hid⟩ := h.wrote origin m hm
      exact ⟨hmark.append evs, hid⟩
    · exact absurd hm (silent origin m)

/-- The next message of the send queue is written. -/
lemma Answers.deliver (h : Answers tr c conn) {origin : Option ℕ} {m : ToClient}
    {queue : List (Option ℕ × ToClientData)}
    (front : conn.queue = (origin, m.toClientData) :: queue)
    (hid : ∀ n, origin = some n → m.id = n) (hqueue : conn'.queue = queue)
    (hdownstream : conn'.downstream = conn.downstream ++ [m]) :
    Answers (tr ++ [.wrote c origin m]) c conn' := by
  refine ⟨fun x hx => ?_, fun m' hm => ?_, fun origin' m' hm => ?_⟩
  · rw [hqueue] at hx
    exact (h.queue x (by rw [front]; exact List.mem_cons_of_mem _ hx)).append _
  · rw [hdownstream] at hm
    rcases List.mem_append.mp hm with hm | hm
    · obtain ⟨origin', hmem⟩ := h.downstream m' hm
      exact ⟨origin', List.mem_append_left _ hmem⟩
    · rw [List.mem_singleton.mp hm]
      exact ⟨origin, List.mem_append_right _ (List.mem_singleton_self _)⟩
  · rcases List.mem_append.mp hm with hm | hm
    · obtain ⟨hmark, hid'⟩ := h.wrote origin' m' hm
      exact ⟨hmark.append _, hid'⟩
    · cases List.mem_singleton.mp hm
      exact ⟨(h.queue _ (by rw [front]; exact List.mem_cons_self)).append _, hid⟩

/-- A message is put in the send queue. -/
lemma Answers.enqueue (h : Answers tr c conn) {origin : Option ℕ} {data : ToClientData}
    (hmark : Marked tr c origin data) :
    Answers (tr ++ [.pushed c origin data]) c (conn.enqueue origin data) := by
  have hsame : Answers (tr ++ [.pushed c origin data]) c conn :=
    h.append (fun _ _ hmem => by cases List.mem_singleton.mp hmem) (List.Subset.refl _)
      (List.Subset.refl _)
  refine ⟨fun x hx => ?_, hsame.downstream, hsame.wrote⟩
  rcases List.mem_append.mp hx with hx | hx
  · exact hsame.queue x hx
  · rw [List.mem_singleton.mp hx]
    exact hmark.append _

/-- A step of a connection, before the message that it sends. -/
theorem Step.answers {inner : ServerInner} {conns : ConnId → Option Conn} {a : ConnAction}
    {m : Move} (step : Step inner c conn conns a m) (h : Answers tr c conn) :
    Answers (tr ++ m.events) c m.conn := by
  cases step with
  | clientSend _ =>
    exact h.append (fun _ _ hmem => by cases List.mem_singleton.mp hmem) (List.Subset.refl _)
      (List.Subset.refl _)
  | clientRecv front =>
    refine h.append (fun _ _ hmem => by cases List.mem_singleton.mp hmem) (List.Subset.refl _)
      fun m hm => ?_
    rw [front]
    exact List.mem_cons_of_mem _ hm
  | recv _ _ =>
    exact h.append (fun _ _ hmem => by cases hmem) (List.Subset.refl _) (List.Subset.refl _)
  | reply _ front => exact h.deliver front (fun n hn => Option.some.inj hn) rfl rfl
  | notify _ front => exact h.deliver front (fun n hn => by cases hn) rfl rfl
  | process running move =>
    have silent : ∀ origin msg, .wrote c origin msg ∉ m.events := by
      intro origin msg hmem
      cases (Step.io (@Step.process inner c conn conns _ _ _ running move) hmem).2
    have queue : m.conn.queue ⊆ conn.queue := by
      cases move with
      | stop _ => exact List.nil_subset _
      | _ => exact List.Subset.refl _
    have downstream : m.conn.downstream = conn.downstream := by
      cases move with
      | _ => rfl
    exact h.append silent queue (downstream ▸ List.Subset.refl _)
  | hangup _ =>
    exact h.append (fun _ _ hmem => by cases List.mem_singleton.mp hmem) (List.nil_subset _)
      (List.Subset.refl _)
  | main move =>
    generalize conn.phase = phase at move
    cases move with
    | offline =>
      exact h.append (fun _ _ hmem => by cases List.mem_singleton.mp hmem) (List.Subset.refl _)
        (List.Subset.refl _)
    | _ => exact h.append (fun _ _ hmem => by cases hmem) (List.Subset.refl _) (List.Subset.refl _)

end Conn

section Runs

variable {db : Database} {info : ServerInfo} {guard : Server → Action → Prop} {tr : List Event}
  {s : Server} {c : ConnId} {conn : Conn}

/-- In every run, a number that `process_client` works on is that of a message of the client. -/
theorem Server.Reaches.asked (run : s.Reaches db info guard tr) (hc : s.conns c = some conn)
    {n : ℕ} (hn : conn.phase.number? = some n) : Asked tr c n := by
  refine run.conns (J := fun tr c conn => ∀ n, (Conn.phase conn).number? = some n → Asked tr c n)
    ?_ ?_ ?_ ?_ hc n hn
  · intro tr s addr _ n hn
    cases hn
  · intro tr s c conn a m run _ hc h step n hn
    rcases step.asked (Server.Reaches.heard run hc) hn with hn | asked
    · exact (h n hn).append _
    · exact asked.append _
  · intro tr c conn origin data h n hn
    exact (h n hn).append _
  · intro tr c conn evs h _ n hn
    exact (h n hn).append _

/-- What a connection sends is marked as a reply if and only if it is one. -/
lemma Letter.Kind.marked {inner : ServerInner} {conn' : Conn} {l : Letter}
    (h : l.Kind inner c conn conn')
    (asked : ∀ n, conn.phase.number? = some n → Asked tr c n) :
    Marked tr l.dst l.origin l.data := by
  cases h with
  | notice origin notice =>
    rw [origin]
    refine ⟨?_, fun n hn => by cases hn⟩
    cases hdata : l.data <;> rw [hdata] at notice <;> first | rfl | cases notice
  | hello phase eq =>
    subst eq
    exact ⟨rfl, fun n hn => by cases hn⟩
  | @handshake number result phase _ eq =>
    subst eq
    refine ⟨?_, fun n hn => asked n (by rw [phase]; exact hn)⟩
    cases result <;> rfl
  | config phase eq | error phase eq =>
    subst eq
    exact ⟨rfl, fun n hn => asked n (by rw [phase]; exact hn)⟩

/-- In every run, what is written to a client is a reply if and only if it has the number of a
message of the client, and what is on its way was written. -/
theorem Server.Reaches.answers (run : s.Reaches db info guard tr) (hc : s.conns c = some conn) :
    conn.Answers tr c := by
  refine run.conns_of_send (J := fun tr c conn => Conn.Answers tr c conn) ?_ ?_ ?_ ?_ hc
  · intro tr s addr run
    refine ⟨by simp, by simp, fun origin m hm => ?_⟩
    rcases List.mem_append.mp hm with hm | hm
    · exact absurd rfl (run.conn_ne_count hm (by simp))
    · cases List.mem_singleton.mp hm
  · intro tr s c conn a m _ _ _ h step
    exact step.answers h
  · intro tr s c conn a m l conn' run hconn step hsend _ h
    exact h.enqueue (((run.letter hconn step hsend).marked fun _ => run.asked hconn).append _)
  · intro tr c conn evs h hothers
    refine h.append (fun origin m hmem => ?_) (List.Subset.refl _) (List.Subset.refl _)
    obtain ⟨id, heq⟩ := hothers _ hmem rfl
    cases heq

end Runs

end Vlink.Headlink
