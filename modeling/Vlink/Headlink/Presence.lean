import Vlink.Headlink.Server
import Vlink.Headlink.View

set_option autoImplicit false

/-!
# Who holds the presence of a peer

`PeerEnter` writes the connection it came through into the registry; `PeerLeave`, and the cleanup
after a connection has ended, mark the peer offline. The cleanup goes by the public key of the
connection, so it also hits a peer that is online through another connection. If whoever marks a
peer offline is the connection that the registry shows, then the registry always shows the last
connection that entered, until it leaves or ends.

## Main definitions

* `Vlink.Headlink.Holds` — the connection was the last to enter for the peer, and has neither left
  nor ended since.
* `Vlink.Headlink.Server.tidiesOwn` — the step marks no peer offline that is online through
  another connection.

## Main results

* `Vlink.Headlink.presence_of_holds` — who holds the presence of a peer is shown in the registry,
  in every run whose steps tidy up only after themselves.
* `Vlink.Headlink.holds_without_presence` — a connection that is refused because the peer is
  online marks the peer offline.
-/

namespace Vlink.Headlink

/-! ## Definitions -/

/-- `PeerEnter` was completed for the peer through the connection. -/
def Event.entersBy (c : ConnId) (id : ClientId) : Event → Bool
  | .entered c' id' => c' = c ∧ id' = id
  | _ => false

/-- The check names one event. -/
lemma Event.entersBy_iff {c : ConnId} {id : ClientId} {e : Event} :
    e.entersBy c id = true ↔ e = .entered c id := by
  cases e <;> simp [entersBy]

/-- The connection handles `PeerLeave`. -/
def Event.leavesBy (c : ConnId) : Event → Bool
  | .dispatched c' m => c' = c ∧ m.toServerData = some .peerLeave
  | _ => false

/-- The event loop of the connection ended. -/
def Event.closes (c : ConnId) : Event → Bool
  | .closed c' => c' = c
  | _ => false

/-- Another `PeerEnter` for the peer was completed, or the connection left or ended. -/
def Event.releases (c : ConnId) (id : ClientId) (e : Event) : Bool :=
  e.entersFor id || e.leavesBy c || e.closes c

/-- The connection was the last to complete `PeerEnter` for the peer, and has neither left nor
ended since. -/
def Holds (tr : List Event) (c : ConnId) (id : ClientId) : Prop :=
  Since (fun e => e.entersBy c id = true) (fun e => e.releases c id = true) tr

instance (tr : List Event) (c : ConnId) (id : ClientId) : Decidable (Holds tr c id) :=
  inferInstanceAs (Decidable (Since _ _ tr))

/-- The step marks no peer offline that is online through another connection. -/
def Server.tidiesOwn (s : Server) (a : Action) : Bool :=
  match s.change a with
  | some (.offline c id) => (s.inner.presence id).all fun info => decide (info.connect = c)
  | _ => true

/-! ## Connections that have left or ended -/

/-- The connection completes no `PeerEnter`. -/
def Event.entersAt (c : ConnId) (e : Event) : Prop := ∃ id, e = .entered c id

/-- What the trace says of a connection that has ended or is about to leave: it entered for nobody
since. -/
structure Conn.Quiet (tr : List Event) (c : ConnId) (conn : Conn) : Prop where
  shut : conn.isOpen = false ↔ .closed c ∈ tr
  ended : conn.isOpen = false → Since (fun e => e.closes c = true) (Event.entersAt c) tr
  leaving : ∀ id number, conn.phase = .running (.handling id number .leaveWrite) →
    Since (fun e => e.leavesBy c = true) (Event.entersAt c) tr

namespace Conn

variable {tr evs : List Event} {c : ConnId} {conn conn' : Conn}

/-- A running task is open. -/
lemma isOpen_goto (conn : Conn) (task : Task) : (conn.goto task).isOpen = true := rfl

/-- A running task is open. -/
lemma isOpen_of_running {task : Task} (h : conn.phase = .running task) : conn.isOpen = true := by
  rw [isOpen, h]

/-- The event loop neither ends nor does the connection enter after it has ended. -/
lemma Quiet.append (h : Quiet tr c conn) (hopen : conn'.isOpen = conn.isOpen)
    (closed : .closed c ∉ evs) (entered : conn.isOpen = false → ∀ e ∈ evs, ¬ e.entersAt c)
    (leaving : ∀ id number, conn'.phase = .running (.handling id number .leaveWrite) →
      Since (fun e => e.leavesBy c = true) (Event.entersAt c) (tr ++ evs)) :
    Quiet (tr ++ evs) c conn' := by
  refine ⟨?_, fun hshut => ?_, leaving⟩
  · rw [hopen, h.shut]
    simp [closed]
  · rw [hopen] at hshut
    exact since_append.mpr (.inr ⟨h.ended hshut, entered hshut⟩)

/-- Nothing happens to the task of the connection. -/
lemma Quiet.same (h : Quiet tr c conn) (phase : conn'.phase = conn.phase)
    (closed : .closed c ∉ evs) (entered : ∀ e ∈ evs, ¬ e.entersAt c) :
    Quiet (tr ++ evs) c conn' := by
  refine h.append (by rw [isOpen, isOpen, phase]) closed (fun _ => entered)
    fun id number hphase => ?_
  exact since_append.mpr (.inr ⟨h.leaving id number (phase ▸ hphase), entered⟩)

/-- The event loop ends. -/
lemma Quiet.close (conn : Conn) : Quiet (tr ++ [.closed c]) c conn.close := by
  refine ⟨by simp [isOpen, Conn.close], fun _ => ?_, fun id number hphase => by cases hphase⟩
  exact since_concat.mpr (.inl (by simp [Event.closes]))

/-- Only `PeerLeave` is handled by `PeerLeave::execute`. -/
lemma taskFor_eq_leaveWrite {id id' : ClientId} {m : ToServer} {number : ℕ}
    (h : taskFor id m = .handling id' number .leaveWrite) : m.toServerData = some .peerLeave := by
  unfold taskFor at h
  cases hdata : m.toServerData with
  | none =>
    rw [hdata] at h
    cases h
  | some data =>
    rw [hdata] at h
    cases data with
    | peerLeave => rfl
    | _ => cases h

/-- A section of `process_client`. -/
lemma ProcessStep.quiet {inner : ServerInner} {env : Env} {task : Task} {m : Move}
    (step : ProcessStep inner c conn env task m) (running : conn.phase = .running task)
    (h : Quiet tr c conn) : Quiet (tr ++ m.events) c m.conn := by
  have hopen := isOpen_of_running running
  cases step with
  | hello | await _ | begin _ _ | handshake _ | reply | welcome _ | subscribe | ready _ | fail
  | resume _ | refuse _ _ | handshaken _ =>
    exact h.append hopen.symm (by simp) (by simp [hopen]) fun id number heq => by cases heq
  | @dispatch id₀ msg rest took =>
    refine h.append hopen.symm (by simp) (by simp [hopen]) fun id number heq => ?_
    have hleave := taskFor_eq_leaveWrite (Phase.running.inj heq)
    exact since_concat.mpr (.inl (by simp [Event.leavesBy, hleave]))
  | handle hstep =>
    refine h.append hopen.symm ?_ (by simp [hopen]) fun id number heq => ?_
    · rw [hstep.inner_step.2]
      intro hmem
      rcases Handler.eq_of_mem_events hmem with h | h | ⟨_, h⟩ | ⟨_, h⟩ <;> cases h
    · cases hstep <;> cases heq
  | stop _ => exact .close conn

/-- A step of a connection. -/
lemma Step.quiet {inner : ServerInner} {conns : ConnId → Option Conn} {a : ConnAction} {m : Move}
    (step : Step inner c conn conns a m) (h : Quiet tr c conn) :
    Quiet (tr ++ m.events) c m.conn := by
  cases step with
  | clientSend _ | clientRecv _ | recv _ _ | reply _ _ | notify _ _ =>
    exact h.same rfl (by simp) (by simp [Event.entersAt])
  | process running move => exact move.quiet running h
  | hangup _ => exact .close conn
  | main move =>
    generalize hphase : conn.phase = phase at move
    cases move with
    | start =>
      refine h.append ?_ (by simp) (by simp) fun id number heq => by cases heq
      rw [isOpen_goto, isOpen, hphase]
    | unlisted _ | remove _ | unknown _ _ _ | identify _ _ _ | lost | load _ | offline | leave _
    | finish _ | send _ =>
      refine h.append ?_ (by simp) (by simp [Event.entersAt]) fun id number heq => by cases heq
      rw [isOpen, isOpen, hphase]
      rfl

end Conn

section Runs

variable {db : Database} {info : ServerInfo} {guard : Server → Action → Prop} {tr : List Event}
  {s : Server}

/-- In every run, what the trace says of the connections. -/
lemma Server.Reaches.quiet (run : s.Reaches db info guard tr) {c : ConnId} {conn : Conn}
    (hc : s.conns c = some conn) : conn.Quiet tr c := by
  refine run.conns (J := fun tr c conn => Conn.Quiet tr c conn) ?_ ?_ ?_ ?_ hc
  · intro tr s addr run
    refine ⟨?_, (by cases ·), fun id number => (by cases ·)⟩
    have hnot : .closed s.count ∉ tr := fun hmem => run.conn_ne_count hmem (by simp) rfl
    simp [Conn.isOpen, hnot]
  · intro tr s c conn a m _ _ _ h step
    exact step.quiet h
  · intro tr c conn origin data h
    exact h.same rfl (by simp) (by simp [Event.entersAt])
  · intro tr c conn evs h hevs
    refine h.same rfl (fun hmem => ?_) fun e he hat => ?_
    · obtain ⟨id, heq⟩ := hevs _ hmem rfl
      cases heq
    · obtain ⟨id', rfl⟩ := hat
      obtain ⟨id, heq⟩ := hevs _ he rfl
      cases heq

/-- Who is tidied up after has ended. -/
lemma Server.Reaches.closed_of_offline (run : s.Reaches db info guard tr) {c₀ c : ConnId}
    {conn : Conn} {id : ClientId} (hc : s.conns c₀ = some conn)
    (hphase : conn.phase = .loading c id ∨ conn.phase = .offline c id) : .closed c ∈ tr := by
  refine run.conns (J := fun tr _ conn => ∀ c id,
    Conn.phase conn = .loading c id ∨ conn.phase = .offline c id → .closed c ∈ tr)
    ?_ ?_ ?_ ?_ hc c id hphase
  · intro tr s addr _ c id h
    rcases h with h | h <;> cases h
  · intro tr s c₀ conn a m run _ hconn h step c id hphase
    apply List.mem_append_left
    cases step with
    | clientSend _ | clientRecv _ | recv _ _ | reply _ _ | notify _ _ => exact h c id hphase
    | process running move =>
      cases move with
      | _ => rcases hphase with hphase | hphase <;> cases hphase
    | hangup _ => rcases hphase with hphase | hphase <;> cases hphase
    | main move =>
      generalize hold : conn.phase = phase at move
      cases move with
      | identify other shut _ =>
        rcases hphase with hphase | hphase <;> cases hphase
        exact (run.quiet other).shut.mp shut
      | load _ =>
        rcases hphase with hphase | hphase <;> cases hphase
        exact h c id (.inl hold)
      | _ => rcases hphase with hphase | hphase <;> cases hphase
  · intro tr c₀ conn origin data h c id hphase
    exact List.mem_append_left _ (h c id hphase)
  · intro tr c₀ conn evs h _ c id hphase
    exact List.mem_append_left _ (h c id hphase)

/-! ## The registry shows who holds the presence -/

/-- Who holds the presence of a peer has neither ended nor is it about to leave. -/
lemma Server.Reaches.not_offline (run : s.Reaches db info guard tr) {a : Action} {c : ConnId}
    {id id' : ClientId} (h : Holds tr c id) : s.change a ≠ some (.offline c id') := by
  intro hchange
  -- the entry ends what the other event began, and the other way round
  have absurd_of_since : ∀ {P : Event → Prop}, Since P (Event.entersAt c) tr →
      (∀ e, P e → e.releases c id = true ∧ e.entersBy c id = false) → False := by
    intro P hsince hP
    obtain ⟨e, -, he, hPe⟩ := Since.meet h hsince
      (fun e he => ⟨id, Event.entersBy_iff.mp he⟩) fun e he => (hP e he).1
    rw [(hP e hPe).2] at he
    cases he
  rcases change_offline hchange with ⟨env, conn, number, -, hconn, hphase⟩ |
    ⟨c₀, env, conn, -, hconn, hphase⟩
  · refine absurd_of_since ((run.quiet hconn).leaving _ _ hphase) fun e he => ?_
    cases e with
    | dispatched c' m => exact ⟨by simp [Event.releases, he], rfl⟩
    | _ => cases he
  · have hclosed := run.closed_of_offline hconn (.inr hphase)
    obtain ⟨conn', hconn'⟩ : ∃ conn', s.conns c = some conn' :=
      Option.isSome_iff_exists.mp ((run.isSome_conns c).mpr (run.conn_lt_count hclosed (by simp)))
    have hquiet := run.quiet hconn'
    refine absurd_of_since (hquiet.ended (hquiet.shut.mpr hclosed)) fun e he => ?_
    cases e with
    | closed c' => exact ⟨by simp [Event.releases, he], rfl⟩
    | _ => cases he

/-- In every run in which nobody marks a peer offline that is online through another connection:
if `c` was the last connection to complete `PeerEnter` for the peer, and has neither left nor
ended since, then the registry shows the peer as online through `c`.

**Proof sketch.** Induction over the run. Whoever enters in a step is the last to do so. If nobody
does, then the peer was held before, and only its holder could mark it offline. -/
theorem presence_of_holds
    (run : s.Reaches db info (fun s a => s.tidiesOwn a = true) tr) {c : ConnId} {id : ClientId}
    (h : Holds tr c id) : ∃ online, s.inner.presence id = some online ∧ online.connect = c := by
  refine Run.invariant (I := fun tr s => ∀ c id, Holds tr c id →
    ∃ online, (Server.inner s).presence id = some online ∧ online.connect = c)
    (fun c id h => absurd h not_since_nil) ?_ run c id h
  intro tr s a s' evs run ih ok hstep c id h
  have hinner := (Server.step_inner hstep).1
  by_cases hin : ∃ c', s.change a = some (.entered c' id)
  · -- somebody enters for the peer, so it is the last to do so
    obtain ⟨c', hchange⟩ := hin
    have hmem : .entered c' id ∈ evs := (Server.mem_events hstep rfl).mpr hchange
    have hc : c' = c := by
      rcases since_append.mp h with ⟨past, e, rest, rfl, he, -⟩ | ⟨-, hnone⟩
      · obtain rfl := Event.entersBy_iff.mp he
        have hlast : s.change a = some (.entered c id) :=
          (Server.mem_events hstep rfl).mp (by simp)
        rw [hchange] at hlast
        cases hlast
        rfl
      · exact absurd (by simp [Event.releases, Event.entersFor]) (hnone _ hmem)
    subst hc
    rw [hchange] at hinner
    exact hinner.presence_entered
  · -- otherwise the peer was held before
    have hold : Holds tr c id := by
      rcases since_append.mp h with ⟨past, e, rest, rfl, he, -⟩ | ⟨hold, -⟩
      · obtain rfl := Event.entersBy_iff.mp he
        exact absurd ⟨c, (Server.mem_events hstep rfl).mp (by simp)⟩ hin
      · exact hold
    obtain ⟨online, hpresence, hconnect⟩ := ih c id hold
    refine ⟨online, ?_, hconnect⟩
    rw [hinner.presence_of_ne (fun c' heq => hin ⟨c', heq⟩) fun c' hchange => ?_, hpresence]
    -- only the holder may mark it offline, and it has not left
    have hown : online.connect = c' := by
      simpa [Server.tidiesOwn, hchange, hpresence] using ok
    rw [← hown, hconnect] at hchange
    exact Server.Reaches.not_offline run hold hchange

end Runs

section Examples

open Sample

/-- The first peer enters; the second is admitted, is cut off and is tidied up after. -/
theorem presence_of_holds_sample :
    ∃ s tr, Server.Reaches s db info (fun s a => s.tidiesOwn a = true) tr ∧ Holds tr 0 idA ∧
      ∃ online, s.inner.presence idA = some online ∧ online.connect = 0 := by
  obtain ⟨s, tr, run, hcheck⟩ := exists_run_of_exec (checked Server.step Server.tidiesOwn)
    (admission 0 keyA ++ configuration 0 2 ++ entrance 0 3 "10.0.0.2" ++ admission 1 keyB ++
      .act 1 .hangup :: List.replicate 6 (tidy 1))
    start (fun r => decide (Holds r.2 0 idA)) (by decide +kernel)
  have hholds : Holds tr 0 idA := of_decide_eq_true hcheck
  exact ⟨s, tr, run.of_checked, hholds, presence_of_holds run.of_checked hholds⟩

/-- The first peer enters. Then somebody connects with the public key of the first peer, is refused
because that peer is online, and is tidied up after: the first peer is marked offline, although
its connection has neither left nor ended. -/
theorem holds_without_presence :
    ∃ s tr, Server.Reaches s db info (fun _ _ => True) tr ∧ Holds tr 0 idA ∧
      .handshaken 1 (.error ("peer已连接,pub(" ++ keyA ++ ")")) ∈ tr ∧
      s.inner.presence idA = none := by
  obtain ⟨s, tr, run, hcheck⟩ := exists_run_of_exec Server.step
    (admission 0 keyA ++ configuration 0 2 ++ entrance 0 3 "10.0.0.2" ++ greeting 1 keyA ++
      List.replicate 5 (go 1) ++ [.act 1 .deliver, go 1] ++ List.replicate 6 (tidy 1))
    start (fun r => decide (Holds r.2 0 idA) &&
      decide (.handshaken 1 (.error ("peer已连接,pub(" ++ keyA ++ ")")) ∈ r.2) &&
      (r.1.inner.presence idA).isNone) (by decide +kernel)
  simp only [Bool.and_eq_true, decide_eq_true_eq, Option.isNone_iff_eq_none] at hcheck
  exact ⟨s, tr, run, hcheck.1.1, hcheck.1.2, hcheck.2⟩

end Examples

end Vlink.Headlink
