import Vlink.Headlink.View

set_option autoImplicit false

/-!
# What is put in the send queues

A message for a client is either a reply, which the connection sends to its own client with the
number of the request, or something the server sends on its own account: its own data at the
start, and the notices of a broadcast.

## Main definitions

* `Vlink.Headlink.ToClientData.isNotice` — the messages that are broadcast.
* `Vlink.Headlink.Letter.Kind` — the messages that a connection sends.

## Main results

* `Vlink.Headlink.Server.Reaches.letter` — nothing else is sent.
-/

namespace Vlink.Headlink

/-- The messages that are broadcast. -/
def ToClientData.isNotice : ToClientData → Bool
  | .peerEnter _ | .peerLeave _ | .requireReply _ | .updateExtraEndpoint _ => true
  | _ => false

/-- What a handler is about to broadcast. -/
def Handler.notice? : Handler → Option ToClientData
  | .broadcast _ data | .sending _ data => some data
  | _ => none

/-- What a connection is about to broadcast. -/
def Conn.notice? (conn : Conn) : Option ToClientData :=
  match conn.phase with
  | .running (.handling _ _ h) => h.notice?
  | .sending _ data => some data
  | _ => none

/-- A message that the connection `c` sends, from `conn` to `conn'`. -/
inductive Letter.Kind (inner : ServerInner) (c : ConnId) (conn conn' : Conn) (l : Letter) : Prop
  /-- A notice, for anyone. -/
  | notice (origin : l.origin = none) (notice : l.data.isNotice = true)
  /-- The server's own data. -/
  | hello (phase : conn.phase = .running .hello) (eq : l = ⟨c, none, Conn.serverInfo inner⟩)
  /-- The reply to the handshake. -/
  | handshake {number : ℕ} {result : Except String ClientId}
      (phase : conn.phase = .running (.reply number result))
      (next : conn'.phase = .running (.replySent (conn.pushed + 1) result))
      (eq : l = ⟨c, some number, respHandshake result⟩)
  /-- The configuration. -/
  | config {id : ClientId} {number : ℕ} {resp : RespConfig}
      (phase : conn.phase = .running (.handling id number (.configReply resp)))
      (eq : l = ⟨c, some number, .respConfig resp⟩)
  /-- The reply with an error. -/
  | error {id : ClientId} {number : ℕ} {e : ExecuteError}
      (phase : conn.phase = .running (.failing id number e)) (eq : l = ⟨c, some number, e.notice⟩)

/-! ## Broadcasts are notices -/

/-- A section of a handler that goes on to a broadcast, or on with one. -/
lemma Handler.Step.isNotice {s s' : ServerInner} {id : ClientId} {c : ConnId} {env : Env}
    {h h' : Handler} {next : Next} {evs : List Event} {data : ToClientData}
    (step : Handler.Step s id c env h s' next evs)
    (old : ∀ data, h.notice? = some data → data.isNotice = true)
    (hnext : next = .go h' ∨ ∃ dst d, next = .push dst d h') (hdata : h'.notice? = some data) :
    data.isNotice = true := by
  cases step with
  | enter _ _ | leave _ | forward _ | endpointTell =>
    rcases hnext with hnext | ⟨dst, d, hnext⟩ <;> cases hnext
    cases hdata
    rfl
  | broadcast _ | send _ =>
    rcases hnext with hnext | ⟨dst, d, hnext⟩ <;> cases hnext
    exact old _ hdata
  | _ =>
    rcases hnext with hnext | ⟨dst, d, hnext⟩ <;> cases hnext <;> cases hdata

/-- A request that is taken up is not a broadcast yet. -/
lemma Conn.notice?_taskFor (conn : Conn) (id : ClientId) (m : ToServer) :
    (conn.goto (taskFor id m)).notice? = none := by
  unfold taskFor
  cases m.toServerData with
  | none => rfl
  | some data => cases data <;> rfl

/-- A step of a connection that is about to broadcast notices only. -/
lemma Conn.Step.isNotice {inner : ServerInner} {c : ConnId} {conn : Conn}
    {conns : ConnId → Option Conn} {a : ConnAction} {m : Move}
    (step : Conn.Step inner c conn conns a m)
    (old : ∀ data, conn.notice? = some data → data.isNotice = true) :
    ∀ data, m.conn.notice? = some data → data.isNotice = true := by
  intro data hdata
  cases step with
  | clientSend _ | clientRecv _ | recv _ _ | reply _ _ | notify _ _ => exact old data hdata
  | hangup _ => cases hdata
  | process running move =>
    cases move with
    | dispatch took =>
      rw [notice?_taskFor] at hdata
      cases hdata
    | @handle id number h _ next _ hstep =>
      have old' : ∀ data, h.notice? = some data → data.isNotice = true := by
        intro data hdata
        refine old data ?_
        rw [notice?, running]
        exact hdata
      cases next with
      | go h' => exact hstep.isNotice old' (.inl rfl) hdata
      | push dst d h' => exact hstep.isNotice old' (.inr ⟨dst, d, rfl⟩) hdata
      | reply _ | done | fail _ => cases hdata
    | _ => cases hdata
  | main move =>
    generalize hphase : conn.phase = phase at move
    cases move with
    | leave _ =>
      cases hdata
      rfl
    | send _ =>
      cases hdata
      refine old _ ?_
      rw [notice?, hphase]
    | _ => cases hdata

section Runs

variable {db : Database} {info : ServerInfo} {guard : Server → Action → Prop} {tr : List Event}
  {s : Server} {c : ConnId} {conn : Conn}

/-- In every run, broadcasts are notices. -/
lemma Server.Reaches.isNotice (run : s.Reaches db info guard tr) (hc : s.conns c = some conn) :
    ∀ data, conn.notice? = some data → data.isNotice = true := by
  refine run.conns (J := fun _ _ conn => ∀ data, Conn.notice? conn = some data →
    data.isNotice = true) ?_ ?_ ?_ ?_ hc
  · intro tr s addr _ data hdata
    cases hdata
  · intro tr s c conn a m _ _ _ h step
    exact step.isNotice h
  · intro tr c conn origin data h
    exact h
  · intro tr c conn evs h _
    exact h

/-- What a connection sends. -/
theorem Server.Reaches.letter (run : s.Reaches db info guard tr) (hc : s.conns c = some conn)
    {a : ConnAction} {m : Move} (step : Conn.Step s.inner c conn s.conns a m) {l : Letter}
    (hsend : m.send = some l) : l.Kind s.inner c conn m.conn := by
  have hnotice := run.isNotice hc
  cases step with
  | clientSend _ | clientRecv _ | recv _ _ | reply _ _ | notify _ _ | hangup _ => cases hsend
  | process running move =>
    cases move with
    | hello =>
      cases hsend
      exact .hello running rfl
    | reply =>
      cases hsend
      exact .handshake running rfl rfl
    | fail =>
      cases hsend
      exact .error running rfl
    | handle hstep =>
      cases hstep with
      | send _ =>
        cases hsend
        refine .notice rfl (hnotice _ ?_)
        rw [Conn.notice?, running]
        rfl
      | configured =>
        cases hsend
        exact .config running rfl
      | _ => cases hsend
    | _ => cases hsend
  | main move =>
    generalize hphase : conn.phase = phase at move
    cases move with
    | send _ =>
      cases hsend
      refine .notice rfl (hnotice _ ?_)
      rw [Conn.notice?, hphase]
    | _ => cases hsend

end Runs

end Vlink.Headlink
