import Vlink.Lib.Runs

set_option autoImplicit false

/-!
# The control connection of a client

`VlinkClient::spawn` in `vlinkd/src/client.rs` runs two loops in one task. The first connects to the
server and hands the event loop of the new connection to the second through a channel with one
place; the second awaits the event loops that it receives, one after the other. Before each attempt
the first loop sends `None` twice. The channel has one place, so the second `None` is accepted only
after the first one was received, and this happens only when no event loop is running.

## Main definitions

* `Vlink.Client.Spawn`, `Vlink.Client.Spawn.step` — both loops with the channel between them.
* `Vlink.Client.Spawn.loops` — the event loops that were made, handed over, started, or that ended,
  in order.

## Main results

* `Vlink.Client.Spawn.Inv.step` — where the event loops are, and how the channel is occupied.
* `Vlink.Client.Spawn.single_connection` — no attempt is made while an event loop is running or
  waits, and event loops run one at a time, in order and without gaps.

## Design

A step of the first loop is what it does up to its next `await`. Whether an attempt to connect, the
exchange with the server or a command to the network succeeds is left open. The end of the task, by
an error of the first loop or by its token, is a state without further steps. The channel cannot be
closed before that, because both its ends belong to the task.
-/

namespace Vlink.Client

/-- Where the reconnecting loop stands: in which `await`, or before it. -/
inductive ReconnectPc where
  | firstNone
  | secondNone
  | sleep
  | dial
  | dialing
  | handOver (k : ℕ)
  | serverInfo (k : ℕ)
  | handshake (k : ℕ)
  | replaceConn (k : ℕ)
  | firstConnected
  | connected
deriving DecidableEq

/-- The event loop that is to be handed over. -/
def ReconnectPc.inHand : ReconnectPc → Option ℕ
  | .handOver k => some k
  | _ => none

/-- Between the second `None` and the handing over of an event loop. -/
def ReconnectPc.attempting : ReconnectPc → Bool
  | .sleep | .dial | .dialing | .handOver _ => true
  | _ => false

/-- The task that `spawn` starts. Event loops are named by the number of their connection. -/
structure Spawn where
  pc : ReconnectPc := .firstNone
  count : ℕ := 0
  ifFirst : Bool := true
  /-- The place of the channel. -/
  slot : Option (Option ℕ) := none
  /-- The event loop that `run_event_loop` awaits. -/
  running : Option ℕ := none
  conn : Option ℕ := none
  /-- The number of connections made so far. -/
  connections : ℕ := 0
  /-- The task has ended. -/
  finished : Bool := false

/-- What can happen to an event loop. -/
inductive Fate where
  | made
  | handed
  | started
  | ended
deriving DecidableEq

/-- The events of the task. -/
inductive SpawnEvent where
  | dial
  | loop (fate : Fate) (k : ℕ)
  | firstConnected
  | connected
deriving DecidableEq

/-- The reconnecting loop goes on, with success or without; `run_event_loop` receives; the event
loop that is running ends; the task ends from outside. -/
inductive SpawnAction where
  | reconnect (ok : Bool)
  | recv
  | ended
  | cancel

namespace Spawn

/-- `etx.send(msg).await`, when the place is free. -/
def send (s : Spawn) (msg : Option ℕ) : Option Spawn :=
  match s.slot with
  | none => some { s with slot := some msg }
  | some _ => none

/-- The reconnecting loop goes on to its next `await`. -/
def reconnect (s : Spawn) (ok : Bool) : Option (Spawn × List SpawnEvent) :=
  match s.pc, ok with
  | .firstNone, true => do
    let s ← s.send none
    return ({ s with pc := .secondNone }, [])
  | .secondNone, true => do
    let s ← s.send none
    return ({ s with pc := if 0 < s.count then .sleep else .dial }, [])
  | .sleep, true => some ({ s with pc := .dial }, [])
  | .dial, true => some ({ s with pc := .dialing, count := s.count + 1 }, [.dial])
  | .dialing, true =>
    some ({ s with pc := .handOver s.connections, connections := s.connections + 1 },
      [.loop .made s.connections])
  | .dialing, false => some ({ s with pc := .firstNone }, [])
  | .handOver k, true => do
    let s ← s.send (some k)
    return ({ s with pc := .serverInfo k, count := 1 }, [.loop .handed k])
  | .serverInfo k, true => some ({ s with pc := .handshake k }, [])
  | .handshake k, true => some ({ s with pc := .replaceConn k }, [])
  | .replaceConn k, true =>
    some ({ s with conn := some k, pc := if s.ifFirst then .firstConnected else .connected }, [])
  | .firstConnected, true =>
    some ({ s with ifFirst := false, pc := .connected }, [.firstConnected])
  | .connected, true => some ({ s with pc := .firstNone }, [.connected])
  -- `?` and `break` end the loop, and with it the task
  | .serverInfo _, false | .handshake _, false | .firstConnected, false | .connected, false =>
    some ({ s with finished := true }, [])
  | _, false => none

/-- One step of the task. -/
def step (s : Spawn) (a : SpawnAction) : Option (Spawn × List SpawnEvent) :=
  if s.finished then none
  else
    match a with
    | .reconnect ok => s.reconnect ok
    | .recv =>
      match s.running, s.slot with
      | none, some none => some ({ s with slot := none }, [])
      | none, some (some k) => some ({ s with slot := none, running := some k }, [.loop .started k])
      | _, _ => none
    | .ended =>
      match s.running with
      | some k => some ({ s with running := none }, [.loop .ended k])
      | none => none
    | .cancel => some ({ s with finished := true }, [])

/-! ## Where the event loops are -/

/-- The event loops to which something has happened, in order. -/
def loops (fate : Fate) (tr : List SpawnEvent) : List ℕ :=
  tr.filterMap fun
    | .loop fate' k => if fate' = fate then some k else none
    | _ => none

/-- No events, no loops. -/
@[simp] lemma loops_nil (fate : Fate) : loops fate [] = [] := rfl

/-- The loops in a longer trace. -/
@[simp] lemma loops_append (fate : Fate) (tr tr' : List SpawnEvent) :
    loops fate (tr ++ tr') = loops fate tr ++ loops fate tr' :=
  List.filterMap_append

/-- The loops in an event about a loop. -/
@[simp] lemma loops_loop (fate fate' : Fate) (k : ℕ) :
    loops fate [.loop fate' k] = if fate' = fate then [k] else [] := by
  by_cases h : fate' = fate <;> simp [loops, h]

/-- Other events are about no loop. -/
@[simp] lemma loops_other {fate : Fate} {e : SpawnEvent} (h : ∀ fate k, e ≠ .loop fate k) :
    loops fate [e] = [] := by
  cases e with
  | loop fate k => exact absurd rfl (h fate k)
  | dial => rfl
  | firstConnected => rfl
  | connected => rfl

/-! ## What the reconnecting loop does -/

variable {s s' : Spawn} {tr evs : List SpawnEvent}

/-- A message is accepted when the place is free. -/
lemma send_eq_some {msg : Option ℕ} (h : s.send msg = some s') :
    s.slot = none ∧ s' = { s with slot := some msg } := by
  unfold send at h
  split at h
  · next hslot => exact ⟨hslot, (Option.some.inj h).symm⟩
  · cases h

/-- What the reconnecting loop does to the channel and with the event loops. The last case covers
all that concerns neither. -/
inductive Reconnected (s : Spawn) : Spawn → List SpawnEvent → Prop
  | firstNone (pc : s.pc = .firstNone) (free : s.slot = none) :
      Reconnected s { s with slot := some none, pc := .secondNone } []
  | secondNone {next : ReconnectPc} (pc : s.pc = .secondNone) (free : s.slot = none)
      (attempting : next.attempting = true) (hand : next.inHand = none) :
      Reconnected s { s with slot := some none, pc := next } []
  | dial (pc : s.pc = .dial) :
      Reconnected s { s with pc := .dialing, count := s.count + 1 } [.dial]
  | made (pc : s.pc = .dialing) :
      Reconnected s { s with pc := .handOver s.connections, connections := s.connections + 1 }
        [.loop .made s.connections]
  | handed {k : ℕ} (pc : s.pc = .handOver k) (free : s.slot = none) :
      Reconnected s { s with slot := some (some k), pc := .serverInfo k, count := 1 }
        [.loop .handed k]
  | along {s' : Spawn} {evs : List SpawnEvent} (slot : s'.slot = s.slot)
      (running : s'.running = s.running) (connections : s'.connections = s.connections)
      (hand : s.pc.inHand = none) (hand' : s'.pc.inHand = none) (pc : s'.pc ≠ .secondNone)
      (attempting : s'.pc.attempting = true → s.pc.attempting = true)
      (other : ∀ e ∈ evs, e = .firstConnected ∨ e = .connected) : Reconnected s s' evs

/-- Without success the loop starts again, or the task ends. -/
lemma reconnect_false (h : s.reconnect false = some (s', evs)) : Reconnected s s' evs := by
  unfold reconnect at h
  cases hpc : s.pc with
  | dialing =>
    simp only [hpc] at h
    cases h
    exact .along rfl rfl rfl (by rw [hpc]; rfl) rfl (by simp) (by simp [ReconnectPc.attempting])
      (by simp)
  | serverInfo | handshake | firstConnected | connected =>
    simp only [hpc] at h
    cases h
    exact .along rfl rfl rfl (by rw [hpc]; rfl) rfl (by simp) (by simp [ReconnectPc.attempting])
      (by simp)
  | firstNone | secondNone | sleep | dial | handOver | replaceConn => simp [hpc] at h

/-- The loop goes on. -/
lemma reconnect_true (h : s.reconnect true = some (s', evs)) : Reconnected s s' evs := by
  unfold reconnect at h
  cases hpc : s.pc with
  | firstNone =>
    simp only [hpc] at h
    obtain ⟨s₁, hsend, hret⟩ := Option.bind_eq_some_iff.mp h
    obtain ⟨hfree, rfl⟩ := send_eq_some hsend
    cases hret
    exact .firstNone hpc hfree
  | secondNone =>
    simp only [hpc] at h
    obtain ⟨s₁, hsend, hret⟩ := Option.bind_eq_some_iff.mp h
    obtain ⟨hfree, rfl⟩ := send_eq_some hsend
    cases hret
    exact .secondNone hpc hfree (by split_ifs <;> rfl) (by split_ifs <;> rfl)
  | dial =>
    simp only [hpc] at h
    cases h
    exact .dial hpc
  | dialing =>
    simp only [hpc] at h
    cases h
    exact .made hpc
  | handOver k =>
    simp only [hpc] at h
    obtain ⟨s₁, hsend, hret⟩ := Option.bind_eq_some_iff.mp h
    obtain ⟨hfree, rfl⟩ := send_eq_some hsend
    cases hret
    exact .handed hpc hfree
  | replaceConn k =>
    simp only [hpc] at h
    cases h
    refine .along rfl rfl rfl (by rw [hpc]; rfl) ?_ ?_ ?_ (by simp)
    · split_ifs <;> rfl
    · split_ifs <;> simp
    · split_ifs <;> simp [ReconnectPc.attempting]
  | sleep | serverInfo | handshake | firstConnected | connected =>
    simp only [hpc] at h
    cases h
    exact .along rfl rfl rfl (by rw [hpc]; rfl) rfl (by simp)
      (by simp [hpc, ReconnectPc.attempting]) (by simp)

/-- What a step of the reconnecting task does. -/
lemma reconnect_cases {ok : Bool} (h : s.reconnect ok = some (s', evs)) :
    Reconnected s s' evs := by
  cases ok with
  | false => exact reconnect_false h
  | true => exact reconnect_true h

/-! ## The invariant -/

/-- **Where the event loops are, and how the channel is occupied.** Every event loop that was made
has ended, is running, is in the channel or in hand, in this order. A loop is in the channel only
while none is running. While the second `None` waits, the first one is in the channel or no loop is
running; after that, until the next one is handed over, no loop is running or in the channel. -/
structure Inv (tr : List SpawnEvent) (s : Spawn) : Prop where
  started : loops .started tr = loops .ended tr ++ s.running.toList
  handed : loops .handed tr = loops .started tr ++ s.slot.join.toList
  made : loops .made tr = loops .handed tr ++ s.pc.inHand.toList
  numbered : loops .made tr = List.range s.connections
  buffered : s.slot.join ≠ none → s.running = none
  secondNone : s.pc = .secondNone → s.slot.join = none ∧ (s.slot = none → s.running = none)
  attempting : s.pc.attempting = true → s.running = none ∧ s.slot.join = none

/-- The invariant holds at the start. -/
lemma inv_init : Inv [] {} := by
  constructor <;> simp [ReconnectPc.inHand, ReconnectPc.attempting]

/-- Events that are not about an event loop. -/
lemma loops_of_other (fate : Fate) (h : ∀ e ∈ evs, e = .firstConnected ∨ e = .connected) :
    loops fate evs = [] := by
  rw [loops, List.filterMap_eq_nil_iff]
  intro e he
  rcases h e he with rfl | rfl <;> rfl

/-- The reconnecting loop keeps the invariant. -/
lemma Inv.reconnected (hs : Inv tr s) (h : Reconnected s s' evs) : Inv (tr ++ evs) s' := by
  obtain ⟨hstarted, hhanded, hmade, hnum, hbuf, hsecond, hatt⟩ := hs
  cases h with
  | firstNone pc free =>
    rw [pc] at hmade
    constructor <;> simp_all [ReconnectPc.inHand, ReconnectPc.attempting]
  | secondNone pc free attempting hand =>
    -- the place is free again, so the first `None` was received and no event loop is running
    obtain ⟨hjoin, hidle⟩ := hsecond pc
    have hrun := hidle free
    rw [pc] at hmade
    constructor <;> simp_all [ReconnectPc.inHand]
  | dial pc =>
    rw [pc] at hmade hatt
    constructor <;> simp_all [ReconnectPc.inHand, ReconnectPc.attempting]
  | made pc =>
    rw [pc] at hmade hatt
    constructor <;> simp_all [ReconnectPc.inHand, ReconnectPc.attempting, List.range_succ]
  | handed pc free =>
    rw [pc] at hmade hatt
    constructor <;> simp_all [ReconnectPc.inHand, ReconnectPc.attempting]
  | along slot running connections hand hand' pc attempting other =>
    constructor <;> simp_all [loops_of_other]

/-- **Step lemma.** A step keeps the invariant. -/
theorem Inv.step (hs : Inv tr s) {a : SpawnAction} (h : s.step a = some (s', evs)) :
    Inv (tr ++ evs) s' := by
  unfold Spawn.step at h
  split_ifs at h
  cases a with
  | reconnect ok => exact hs.reconnected (reconnect_cases h)
  | recv =>
    obtain ⟨hstarted, hhanded, hmade, hnum, hbuf, hsecond, hatt⟩ := hs
    cases hrun : s.running with
    | some k => simp [hrun] at h
    | none =>
      match hslot : s.slot with
      | none => simp [hrun, hslot] at h
      | some none =>
        simp only [hrun, hslot] at h
        cases h
        constructor <;> simp_all
      | some (some k) =>
        simp only [hrun, hslot] at h
        cases h
        constructor <;> simp_all
  | ended =>
    obtain ⟨hstarted, hhanded, hmade, hnum, hbuf, hsecond, hatt⟩ := hs
    cases hrun : s.running with
    | none => simp [hrun] at h
    | some k =>
      simp only [hrun] at h
      cases h
      constructor <;> simp_all
  | cancel =>
    cases h
    rw [List.append_nil]
    exact ⟨hs.started, hs.handed, hs.made, hs.numbered, hs.buffered, hs.secondNone, hs.attempting⟩

/-- **Run lemma.** The invariant holds in every run. -/
lemma Inv.of_run (run : Run Spawn.step (fun _ _ => True) {} tr s) : Inv tr s :=
  run.invariant inv_init fun _ hs _ h => hs.step h

/-- At most the newest event loop has not been started. -/
lemma Inv.started_or_waiting (hs : Inv tr s) :
    loops .made tr = loops .started tr ∨ ∃ k, loops .made tr = loops .started tr ++ [k] := by
  rw [hs.made, hs.handed, List.append_assoc]
  cases hpc : s.pc.inHand with
  | none =>
    cases hslot : s.slot.join with
    | none => exact .inl (by simp)
    | some k => exact .inr ⟨k, by simp⟩
  | some k =>
    have hatt : s.pc.attempting = true := by
      unfold ReconnectPc.inHand at hpc
      split at hpc
      · next h => rw [h]; rfl
      · cases hpc
    exact .inr ⟨k, by simp [(hs.attempting hatt).2]⟩

/-! ## One control connection -/

/-- What has to be true when an event happens: an attempt to connect is made when every event loop
has ended, and an event loop is started when every one that was started has ended. -/
def Exclusive (past : List SpawnEvent) : SpawnEvent → Prop
  | .dial => loops .made past = loops .ended past ∧ loops .handed past = loops .ended past
  | .loop .started _ => loops .started past = loops .ended past
  | _ => True

/-- While an event loop is neither running nor in the channel nor in hand, all have ended. -/
lemma Inv.all_ended (hs : Inv tr s) (hrun : s.running = none) (hslot : s.slot.join = none)
    (hhand : s.pc.inHand = none) :
    loops .made tr = loops .ended tr ∧ loops .handed tr = loops .ended tr := by
  have hhanded : loops .handed tr = loops .ended tr := by
    rw [hs.handed, hs.started, hrun, hslot]
    simp
  exact ⟨by rw [hs.made, hhand, hhanded]; simp, hhanded⟩

/-- Every step is taken when it may be. -/
lemma Inv.exclusive (hs : Inv tr s) {a : SpawnAction} (h : s.step a = some (s', evs))
    (htr : Historically Exclusive tr) : Historically Exclusive (tr ++ evs) := by
  unfold Spawn.step at h
  split_ifs at h
  cases a with
  | reconnect ok =>
    cases reconnect_cases h with
    | firstNone => rwa [List.append_nil]
    | secondNone => rwa [List.append_nil]
    | dial pc =>
      obtain ⟨hrun, hslot⟩ := hs.attempting (by rw [pc]; rfl)
      exact historically_concat.mpr ⟨htr, hs.all_ended hrun hslot (by rw [pc]; rfl)⟩
    | made => exact historically_concat.mpr ⟨htr, trivial⟩
    | handed => exact historically_concat.mpr ⟨htr, trivial⟩
    | along slot running connections hand hand' pc attempting other =>
      refine htr.append fun past e he => ?_
      rcases other e he with rfl | rfl <;> trivial
  | recv =>
    cases hrun : s.running with
    | some k => simp [hrun] at h
    | none =>
      match hslot : s.slot with
      | none => simp [hrun, hslot] at h
      | some none =>
        simp only [hrun, hslot] at h
        cases h
        rwa [List.append_nil]
      | some (some k) =>
        simp only [hrun, hslot] at h
        cases h
        refine historically_concat.mpr ⟨htr, ?_⟩
        rw [Exclusive, hs.started, hrun]
        simp
  | ended =>
    cases hrun : s.running with
    | none => simp [hrun] at h
    | some k =>
      simp only [hrun] at h
      cases h
      exact historically_concat.mpr ⟨htr, trivial⟩
  | cancel =>
    cases h
    rwa [List.append_nil]

/-- The steps that start an event loop that waits: the two loops go on. -/
def goesOn : SpawnAction → Prop
  | .recv | .reconnect true => True
  | _ => False

/-- An event loop in the channel is received. -/
lemma starts_of_slot (hfin : s.finished = false) (hrun : s.running = none) {k : ℕ}
    (hslot : s.slot = some (some k)) :
    ∃ evs s', Run step (fun _ a => goesOn a) s evs s' ∧ SpawnEvent.loop .started k ∈ evs := by
  have hrecv : s.step .recv =
      some ({ s with slot := none, running := some k }, [.loop .started k]) := by
    simp [step, hfin, hrun, hslot]
  exact ⟨_, _, .snoc .nil (show goesOn .recv from trivial) hrecv, by simp⟩

/-- An event loop in hand is handed over when the place is free, and then received. -/
lemma starts_of_hand (hfin : s.finished = false) (hrun : s.running = none) (hslot : s.slot = none)
    {k : ℕ} (hpc : s.pc = .handOver k) :
    ∃ evs s', Run step (fun _ a => goesOn a) s evs s' ∧ SpawnEvent.loop .started k ∈ evs := by
  have hsend : s.step (.reconnect true) =
      some ({ s with slot := some (some k), pc := .serverInfo k, count := 1 },
        [.loop .handed k]) := by
    simp [step, hfin, reconnect, hpc, send, hslot]
  obtain ⟨evs, s', run, hmem⟩ := starts_of_slot
    (s := { s with slot := some (some k), pc := .serverInfo k, count := 1 }) hfin hrun rfl
  have first : Run step (fun _ a => goesOn a) s ([] ++ [.loop .handed k]) _ :=
    .snoc .nil (show goesOn (.reconnect true) from trivial) hsend
  exact ⟨_, s', first.trans run, List.mem_append_right _ hmem⟩

/-- **No event loop is skipped.** One that was made and has not been started will be, unless the
task ends: the loops only have to go on.

**Proof sketch.** No event loop is running. If the loop is in the channel, it is received. If it is
in hand, a `None` may have to be received first. -/
lemma Inv.starts (hs : Inv tr s) (hfin : s.finished = false) {k : ℕ} (hk : k ∈ loops .made tr)
    (hk' : k ∉ loops .started tr) :
    ∃ evs s', Run Spawn.step (fun _ a => goesOn a) s evs s' ∧
      SpawnEvent.loop .started k ∈ evs := by
  rw [hs.made, hs.handed] at hk
  have hwaits : s.slot = some (some k) ∨ s.pc = .handOver k := by
    rcases List.mem_append.mp hk with hk | hk
    · rcases List.mem_append.mp hk with hk | hk
      · exact absurd hk hk'
      · exact .inl (Option.join_eq_some_iff.mp (Option.mem_toList.mp hk))
    · cases hpc : s.pc <;> simp_all [ReconnectPc.inHand]
  rcases hwaits with hslot | hpc
  · exact starts_of_slot hfin (hs.buffered (by simp [hslot])) hslot
  · obtain ⟨hrun, hjoin⟩ := hs.attempting (by rw [hpc]; rfl)
    match hslot : s.slot with
    | none => exact starts_of_hand hfin hrun hslot hpc
    | some (some k) => simp [hslot] at hjoin
    | some none =>
      have hrecv : s.step .recv = some ({ s with slot := none }, []) := by
        simp [Spawn.step, hfin, hrun, hslot]
      obtain ⟨evs, s', run, hmem⟩ :=
        starts_of_hand (s := { s with slot := none }) hfin hrun rfl hpc
      have first : Run Spawn.step (fun _ a => goesOn a) s ([] ++ []) _ :=
        .snoc .nil (show goesOn .recv from trivial) hrecv
      exact ⟨_, s', first.trans run, List.mem_append_right _ hmem⟩

/-- **One control connection.** In every run of the task, whatever the outcomes of its attempts and
whenever event loops end:
an attempt to connect is made only when every event loop that was made, and so every one that was
handed over, has ended, and an event loop is started only when those started before it have ended;
the event loops are numbered in the order of their connections, they are started in this order, and
at most the newest has not been started; one that has not been started will be when the loops go on,
unless the task has ended. -/
theorem single_connection (run : Run step (fun _ _ => True) {} tr s) :
    Historically Exclusive tr ∧
    loops .made tr = List.range s.connections ∧
    (loops .made tr = loops .started tr ∨ ∃ k, loops .made tr = loops .started tr ++ [k]) ∧
    (s.finished = false → ∀ k ∈ loops .made tr, k ∉ loops .started tr →
      ∃ evs s', Run step (fun _ a => goesOn a) s evs s' ∧
        SpawnEvent.loop .started k ∈ evs) := by
  have hs := Inv.of_run run
  refine ⟨?_, hs.numbered, hs.started_or_waiting, fun hfin k hk hk' => hs.starts hfin hk hk'⟩
  exact run.invariant (I := fun tr _ => Historically Exclusive tr) historically_nil
    fun run htr _ h => (Inv.of_run run).exclusive h htr

/-- A first connection is made and its event loop ends; an attempt fails; a second connection is
made, and its event loop waits in the channel. -/
def secondConnection : List SpawnAction :=
  [.reconnect true, .recv, .reconnect true, .reconnect true, .reconnect true, .recv,
    .reconnect true, .recv, .reconnect true, .reconnect true, .reconnect true, .reconnect true,
    .reconnect true, .reconnect true, .ended, .recv, .reconnect true, .recv, .reconnect true,
    .reconnect true, .reconnect false, .reconnect true, .recv, .reconnect true, .recv,
    .reconnect true, .reconnect true, .reconnect true, .reconnect true]

/-- The first connection breaks, and the second one is taken up. -/
theorem single_connection_sample : ∃ tr s, Run step (fun _ _ => True) {} tr s ∧
    loops .made tr = [0, 1] ∧ loops .started tr = [0] ∧ Historically Exclusive tr ∧
    ∃ evs s', Run step (fun _ a => goesOn a) s evs s' ∧ SpawnEvent.loop .started 1 ∈ evs := by
  obtain ⟨s, tr, run, hcheck⟩ := exists_run_of_exec step secondConnection {}
    (fun r => decide (loops .made r.2 = [0, 1] ∧ loops .started r.2 = [0] ∧ r.1.finished = false))
    (by decide +kernel)
  obtain ⟨hmade, hstarted, hfin⟩ := of_decide_eq_true hcheck
  obtain ⟨hexcl, -, -, hstarts⟩ := single_connection run
  exact ⟨tr, s, run, hmade, hstarted, hexcl,
    hstarts hfin 1 (by simp [hmade]) (by simp [hstarted])⟩

end Spawn

end Vlink.Client
