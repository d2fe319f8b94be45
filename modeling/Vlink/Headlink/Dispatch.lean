import Vlink.Headlink.Letters
import Vlink.Headlink.Server

set_option autoImplicit false

/-!
# Requests after the handshake

The first message of a client is read from one receiver, and the requests from another one, which
is subscribed after the reply to the handshake has been written. A request that arrives in between
is seen by nobody. If `recv_handler` takes in nothing between the reply and the subscription, then
every message that the client sends after it was admitted is dispatched, in order and once, as
long as the connection is open.

## Main definitions

* `Vlink.Headlink.Flow`, `Vlink.Headlink.flow` — the messages that a client sent before and after
  it was told that it is admitted, and those that were dispatched.
* `Vlink.Headlink.Server.hearsAll` — `recv_handler` takes in nothing between the reply and the
  subscription.

## Main results

* `Vlink.Headlink.dispatched_in_order` — in every run with such steps, what was dispatched and what
  is still on its way is what the client sent.
* `Vlink.Headlink.request_lost` — without the condition, a request is lost.
-/

namespace Vlink.Headlink

/-! ## Definitions -/

/-- `RespHandshake` with `success = true`. -/
def ToClientData.isWelcome : ToClientData → Bool
  | .respHandshake r => r.success
  | _ => false

/-- What a client sent before and after it was told that it is admitted, and what was dispatched. -/
structure Flow where
  before : List ToServer := []
  after : List ToServer := []
  dispatched : List ToServer := []
  welcomed : Bool := false
deriving DecidableEq

/-- What an event adds for the connection `c`. -/
def Flow.add (c : ConnId) (f : Flow) : Event → Flow
  | .clientSent c' m =>
    if c' = c then
      if f.welcomed then { f with after := f.after ++ [m] }
      else { f with before := f.before ++ [m] }
    else f
  | .clientGot c' m =>
    if c' = c ∧ m.toClientData.isWelcome then { f with welcomed := true } else f
  | .dispatched c' m => if c' = c then { f with dispatched := f.dispatched ++ [m] } else f
  | _ => f

/-- The messages of the connection `c` according to a trace. -/
def flow (c : ConnId) (tr : List Event) : Flow := tr.foldl (Flow.add c) {}

/-- The flow of a longer trace. -/
lemma flow_append (c : ConnId) (tr evs : List Event) :
    flow c (tr ++ evs) = evs.foldl (Flow.add c) (flow c tr) :=
  List.foldl_append

/-- Nobody told the client yet that it is admitted. -/
def Task.isFresh : Task → Bool
  | .hello | .helloSent _ | .awaiting | .handshake .. | .reply .. | .replySent _ (.error _) => true
  | _ => false

/-- The client was told that it is admitted, and the dispatch loop has no receiver yet. -/
def Task.isWelcoming : Task → Bool
  | .replySent _ (.ok _) | .admitted _ => true
  | _ => false

/-- The same for a connection that may not have been started. -/
def Phase.isFresh : Phase → Bool
  | .starting => true
  | .running task => task.isFresh
  | _ => false

/-- The same for the task of a connection. -/
def Phase.isWelcoming : Phase → Bool
  | .running task => task.isWelcoming
  | _ => false

/-- `recv_handler` takes in nothing between the reply and the subscription. -/
def Server.hearsAll (c : ConnId) (s : Server) : Action → Bool
  | .act c' .recv =>
    c' ≠ c || (s.conns c').all fun conn => !conn.phase.isWelcoming
  | _ => true

/-- What the receiver of the dispatch loop holds. -/
def Conn.held (conn : Conn) : List ToServer := (conn.recv.map (·.queue)).getD []

/-! ## Events of other connections -/

/-- Events that add nothing. -/
lemma Flow.foldl_add {c : ConnId} {f : Flow} {evs : List Event}
    (h : ∀ e ∈ evs, ∀ f, Flow.add c f e = f) : evs.foldl (Flow.add c) f = f := by
  induction evs with
  | nil => rfl
  | cons e evs ih =>
    rw [List.foldl_cons, h e (by simp)]
    exact ih fun e' he' => h e' (by simp [he'])

/-- An event of another connection. -/
lemma Flow.add_of_ne {c : ConnId} {e : Event} (h : e.conn ≠ c) (f : Flow) : f.add c e = f := by
  cases e with
  | clientSent c' m | dispatched c' m => exact if_neg h
  | clientGot c' m => exact if_neg fun hc => h hc.1
  | _ => rfl

/-! ## The invariant -/

/-- No message to the client, on its way or in the send queue, tells it that it is admitted. -/
def Conn.Unwelcoming (conn : Conn) : Prop :=
  (∀ m ∈ conn.downstream, m.toClientData.isWelcome = false) ∧
    ∀ x ∈ conn.queue, x.2.isWelcome = false

/-- Where the messages of a client are. -/
structure Conn.Kept (f : Flow) (conn : Conn) : Prop where
  /-- A client is not told that it is admitted before the reply. -/
  fresh : conn.phase.isFresh = true → f.welcomed = false ∧ conn.Unwelcoming
  unwelcome : f.welcomed = false → f.after = []
  /-- The receiver of the dispatch loop is subscribed after the reply. -/
  listening : conn.isOpen = true →
    (conn.recv = none ↔ conn.phase.isFresh = true ∨ conn.phase.isWelcoming = true)
  /-- Before the subscription, everything is still on its way. -/
  waiting : conn.isOpen = true → conn.recv = none →
    f.dispatched = [] ∧ ∃ early, early <:+ f.before ∧ conn.upstream = early ++ f.after
  /-- Afterwards, what was dispatched and what is on its way is what the client sent, but for what
  was lost if the receiver fell behind. -/
  subscribed : ∀ r, conn.recv = some r → ∃ early lost, early <:+ f.before ∧
    f.dispatched ++ (lost ++ (r.queue ++ conn.upstream)) = early ++ f.after ∧
    (r.lagged = false → lost = [])
  /-- When the connection has ended, nothing was dispatched out of order. -/
  ended : conn.isOpen = false → conn.recv = none ∧
    ∃ early, early <:+ f.before ∧ f.dispatched <+: early ++ f.after

namespace Conn

variable {f : Flow} {conn conn' : Conn}

/-- In any case, nothing was dispatched out of order. -/
lemma Kept.inOrder (h : Kept f conn) :
    ∃ early, early <:+ f.before ∧ f.dispatched <+: early ++ f.after := by
  cases hopen : conn.isOpen with
  | false => exact (h.ended hopen).2
  | true =>
    cases hrecv : conn.recv with
    | none =>
      obtain ⟨hnil, early, hearly, -⟩ := h.waiting hopen hrecv
      refine ⟨early, hearly, ?_⟩
      rw [hnil]
      exact List.nil_prefix
    | some r =>
      obtain ⟨early, lost, hearly, heq, -⟩ := h.subscribed r hrecv
      exact ⟨early, hearly, _, heq⟩

/-- Nothing happens to the messages of the client. -/
lemma Kept.same (h : Kept f conn) (hopen : conn'.isOpen = conn.isOpen)
    (hrecv : conn'.recv = conn.recv) (hup : conn'.upstream = conn.upstream)
    (fresh : conn'.phase.isFresh = true → conn.phase.isFresh = true ∧
      (conn.Unwelcoming → conn'.Unwelcoming))
    (listening : conn.isOpen = true →
      ((conn.phase.isFresh = true ∨ conn.phase.isWelcoming = true) ↔
        (conn'.phase.isFresh = true ∨ conn'.phase.isWelcoming = true))) : Kept f conn' where
  fresh hfresh := by
    obtain ⟨hold, hun⟩ := fresh hfresh
    exact ⟨(h.fresh hold).1, hun (h.fresh hold).2⟩
  unwelcome := h.unwelcome
  listening ho := by
    rw [hopen] at ho
    rw [hrecv, h.listening ho, listening ho]
  waiting ho hnone := by
    rw [hup]
    exact h.waiting (hopen ▸ ho) (hrecv ▸ hnone)
  subscribed r hr := by
    rw [hup]
    exact h.subscribed r (hrecv ▸ hr)
  ended ho := by
    rw [hrecv]
    exact h.ended (hopen ▸ ho)

/-- The event loop ends. -/
lemma Kept.close (h : Kept f conn) : Kept f conn.close where
  fresh hfresh := by cases hfresh
  unwelcome := h.unwelcome
  listening ho := by cases ho
  waiting ho := by cases ho
  subscribed r hr := by cases hr
  ended _ := ⟨rfl, h.inOrder⟩

end Conn

/-! ## Messages of the client -/

section Messages

variable {f : Flow} {c : ConnId} {m : ToServer}

/-- Sending dispatches nothing. -/
lemma Flow.dispatched_sent : (f.add c (.clientSent c m)).dispatched = f.dispatched := by
  simp only [add, if_true]
  split <;> rfl

/-- Sending is no welcome. -/
lemma Flow.welcomed_sent : (f.add c (.clientSent c m)).welcomed = f.welcomed := by
  simp only [add, if_true]
  split <;> rfl

/-- Before the welcome nothing counts. -/
lemma Flow.after_sent (hun : f.welcomed = false → f.after = []) :
    f.welcomed = false → (f.add c (.clientSent c m)).after = [] := by
  intro hw
  simp only [add, if_true, hw]
  exact hun hw

/-- The message comes last of what the client sent. -/
lemma Flow.early_sent (hun : f.welcomed = false → f.after = []) {early : List ToServer}
    (hearly : early <:+ f.before) :
    ∃ early', early' <:+ (f.add c (.clientSent c m)).before ∧
      early' ++ (f.add c (.clientSent c m)).after = (early ++ f.after) ++ [m] := by
  simp only [add, if_true]
  cases hw : f.welcomed with
  | true => exact ⟨early, hearly, by simp⟩
  | false =>
    obtain ⟨pre, hpre⟩ := hearly
    refine ⟨early ++ [m], ⟨pre, by simp [← hpre]⟩, ?_⟩
    simp [hun hw]

/-- The client sends a message. -/
lemma Conn.Kept.clientSend {conn : Conn} (h : Kept f conn) :
    Kept (f.add c (.clientSent c m)) { conn with upstream := conn.upstream ++ [m] } where
  fresh hfresh := by
    rw [Flow.welcomed_sent]
    exact h.fresh hfresh
  unwelcome hw := Flow.after_sent h.unwelcome (Flow.welcomed_sent ▸ hw)
  listening := h.listening
  waiting ho hnone := by
    obtain ⟨hnil, early, hearly, hup⟩ := h.waiting ho hnone
    obtain ⟨early', hearly', heq⟩ := Flow.early_sent (c := c) (m := m) h.unwelcome hearly
    refine ⟨Flow.dispatched_sent.trans hnil, early', hearly', ?_⟩
    rw [heq, hup]
  subscribed r hr := by
    obtain ⟨early, lost, hearly, hall, hlost⟩ := h.subscribed r hr
    obtain ⟨early', hearly', heq⟩ := Flow.early_sent (c := c) (m := m) h.unwelcome hearly
    refine ⟨early', lost, hearly', ?_, hlost⟩
    rw [heq, ← hall, Flow.dispatched_sent]
    simp
  ended ho := by
    obtain ⟨hnone, early, hearly, hpre⟩ := h.ended ho
    obtain ⟨early', hearly', heq⟩ := Flow.early_sent (c := c) (m := m) h.unwelcome hearly
    refine ⟨hnone, early', hearly', ?_⟩
    rw [heq, Flow.dispatched_sent]
    exact hpre.trans (List.prefix_append _ _)

/-- The client reads a message. -/
lemma Conn.Kept.clientRecv {conn : Conn} {msg : ToClient} {downstream : List ToClient}
    (h : Kept f conn) (front : conn.downstream = msg :: downstream) :
    Kept (f.add c (.clientGot c msg)) { conn with downstream } := by
  have hbase : Kept f { conn with downstream } := by
    refine h.same rfl rfl rfl (fun hfresh => ⟨hfresh, fun hun => ⟨fun m hm => ?_, hun.2⟩⟩)
      fun _ => Iff.rfl
    exact hun.1 m (by rw [front]; exact List.mem_cons_of_mem _ hm)
  cases hw : msg.toClientData.isWelcome with
  | false =>
    have hadd : f.add c (.clientGot c msg) = f := if_neg (by simp [hw])
    rw [hadd]
    exact hbase
  | true =>
    have hadd : f.add c (.clientGot c msg) = { f with welcomed := true } := if_pos ⟨rfl, hw⟩
    rw [hadd]
    refine ⟨fun hfresh => ?_, (by cases ·), hbase.listening, hbase.waiting, hbase.subscribed,
      hbase.ended⟩
    -- no such message was on its way
    have hnot := (h.fresh hfresh).2.1 msg (by rw [front]; exact List.mem_cons_self)
    rw [hw] at hnot
    cases hnot

/-- `recv_handler` takes in a message. -/
lemma Conn.Kept.receive {conn : Conn} {task : Task} {upstream : List ToServer} (h : Kept f conn)
    (running : conn.phase = .running task) (front : conn.upstream = m :: upstream)
    (ok : conn.phase.isWelcoming = false) :
    Kept f { conn with
      upstream
      rx := conn.rx.map (·.push capacity m)
      recv := conn.recv.map (·.push capacity m) } := by
  have hopen : conn.isOpen = true := by rw [isOpen, running]
  refine ⟨h.fresh, h.unwelcome, fun ho => ?_, fun ho hnone => ?_, fun r hr => ?_, fun ho => ?_⟩
  · rw [Option.map_eq_none_iff]
    exact h.listening ho
  · -- before the reply, so the client was not told anything
    rw [Option.map_eq_none_iff] at hnone
    obtain ⟨hnil, early, ⟨pre, hpre⟩, hup⟩ := h.waiting ho hnone
    have hfresh : conn.phase.isFresh = true := by
      simpa [ok] using (h.listening ho).mp hnone
    have hafter : f.after = [] := h.unwelcome (h.fresh hfresh).1
    rw [hafter, List.append_nil, front] at hup
    refine ⟨hnil, upstream, ⟨pre ++ [m], ?_⟩, by rw [hafter, List.append_nil]⟩
    rw [← hpre, ← hup]
    simp
  · obtain ⟨r₀, hr₀, rfl⟩ := Option.map_eq_some_iff.mp hr
    obtain ⟨early, lost, hearly, hall, hlost⟩ := h.subscribed r₀ hr₀
    obtain ⟨more, hmore, hlagged⟩ := r₀.queue_push capacity m
    refine ⟨early, lost ++ more, hearly, ?_, fun hr => ?_⟩
    · calc f.dispatched ++ (lost ++ more ++ ((r₀.push capacity m).queue ++ upstream))
          = f.dispatched ++ (lost ++ ((more ++ (r₀.push capacity m).queue) ++ upstream)) := by
            simp only [List.append_assoc]
        _ = f.dispatched ++ (lost ++ (r₀.queue ++ m :: upstream)) := by
            rw [← hmore]
            simp
        _ = early ++ f.after := by rw [← front, hall]
    · rw [hlost (hlagged hr).2, (hlagged hr).1, List.append_nil]
  · rw [isOpen, running] at ho
    cases ho

/-- The dispatch loop takes up a message. -/
lemma Conn.Kept.dispatch {conn : Conn} {rest : Receiver ToServer}
    {task : Task} (h : Kept f conn)
    (took : conn.recv.map Receiver.recv = some (.item m rest)) (hfresh : task.isFresh = false)
    (hwelcoming : task.isWelcoming = false) :
    Kept (f.add c (.dispatched c m)) ({ conn with recv := some rest }.goto task) := by
  have hadd : f.add c (.dispatched c m) = { f with dispatched := f.dispatched ++ [m] } :=
    if_pos rfl
  obtain ⟨r, hr, hitem⟩ := Option.map_eq_some_iff.mp took
  obtain ⟨hlagged, rfl⟩ := Receiver.recv_eq_item.mp hitem
  rw [hadd]
  refine ⟨fun hf => ?_, h.unwelcome, fun _ => ?_, fun _ hnone => ?_, fun r' hr' => ?_, ?_⟩
  · exact absurd (show task.isFresh = true from hf) (by simp [hfresh])
  · refine iff_of_false (by simp [goto]) ?_
    rintro (hf | hw)
    · exact absurd (show task.isFresh = true from hf) (by simp [hfresh])
    · exact absurd (show task.isWelcoming = true from hw) (by simp [hwelcoming])
  · cases hnone
  · cases hr'
    obtain ⟨early, lost, hearly, hall, hlost⟩ := h.subscribed _ hr
    obtain rfl := hlost hlagged
    refine ⟨early, [], hearly, ?_, fun _ => rfl⟩
    rw [← hall]
    simp [goto]
  · intro ho
    cases ho

/-- The subscription. -/
lemma Conn.Kept.subscribe {conn : Conn} {id : ClientId} (h : Kept f conn)
    (running : conn.phase = .running (.admitted id)) :
    Kept f ({ conn with recv := some {} }.goto (.subscribed id)) := by
  have hopen : conn.isOpen = true := by rw [isOpen, running]
  have hnone : conn.recv = none := (h.listening hopen).mpr (.inr (by rw [running]; rfl))
  obtain ⟨hnil, early, hearly, hup⟩ := h.waiting hopen hnone
  refine ⟨(by cases ·), h.unwelcome, fun _ => ?_, fun _ => (by cases ·), fun r hr => ?_,
    (by cases ·)⟩
  · exact iff_of_false (by simp [goto]) (by simp [goto, Phase.isFresh, Phase.isWelcoming,
      Task.isFresh, Task.isWelcoming])
  · cases hr
    exact ⟨early, [], hearly, by simp [hnil, goto, hup], fun _ => rfl⟩

end Messages

/-! ## Steps -/

namespace Conn

variable {f : Flow} {c : ConnId} {conn : Conn}

/-- `process_client` goes on before the reply. -/
lemma Kept.goto_fresh {task task' : Task} (h : Kept f conn) (running : conn.phase = .running task)
    (old : task.isFresh = true) (new : task'.isFresh = true) : Kept f (conn.goto task') := by
  have hold : conn.phase.isFresh = true := by
    rw [running]
    exact old
  refine h.same ?_ rfl rfl (fun _ => ⟨hold, fun hun => hun⟩) fun _ => ?_
  · rw [isOpen, isOpen, running]
    rfl
  · exact iff_of_true (.inl hold) (.inl new)

/-- `process_client` goes on in the dispatch loop. -/
lemma Kept.goto_ready {task task' : Task} (h : Kept f conn) (running : conn.phase = .running task)
    (old : task.isFresh = false ∧ task.isWelcoming = false)
    (new : task'.isFresh = false ∧ task'.isWelcoming = false) : Kept f (conn.goto task') := by
  refine h.same ?_ rfl rfl (fun hf => ?_) fun _ => iff_of_false ?_ ?_
  · rw [isOpen, isOpen, running]
    rfl
  · exact absurd (show task'.isFresh = true from hf) (by simp [new.1])
  · rw [running]
    simpa [Phase.isFresh, Phase.isWelcoming] using old
  · simpa [goto, Phase.isFresh, Phase.isWelcoming] using new

/-- Where the dispatch loop goes on. -/
lemma taskFor_spec (id : ClientId) (m : ToServer) :
    (taskFor id m).isFresh = false ∧ (taskFor id m).isWelcoming = false := by
  unfold taskFor
  split <;> exact ⟨rfl, rfl⟩

/-- A section of `process_client`. -/
lemma ProcessStep.kept {inner : ServerInner} {env : Env} {task : Task} {m : Move}
    (step : ProcessStep inner c conn env task m) (running : conn.phase = .running task)
    (h : Kept f conn) : Kept (m.events.foldl (Flow.add c) f) m.conn := by
  cases step with
  | hello | await _ | begin _ _ | refuse _ _ | handshake _ | handshaken _ =>
    exact (h.goto_fresh running rfl rfl).same rfl rfl rfl (fun hf => ⟨hf, fun hun => hun⟩)
      fun _ => Iff.rfl
  | @reply number result =>
    cases result with
    | error e => exact h.goto_fresh running rfl rfl
    | ok id =>
      refine h.same ?_ rfl rfl (by cases ·) fun _ => iff_of_true (.inl ?_) (.inr rfl)
      · rw [isOpen, isOpen, running]
        rfl
      · rw [running]
        rfl
  | welcome _ =>
    refine h.same ?_ rfl rfl (by cases ·) fun _ => iff_of_true (.inr ?_) (.inr rfl)
    · rw [isOpen, isOpen, running]
      rfl
    · rw [running]
      rfl
  | subscribe => exact h.subscribe running
  | ready _ | fail | resume _ => exact h.goto_ready running ⟨rfl, rfl⟩ ⟨rfl, rfl⟩
  | @dispatch id msg rest took =>
    exact h.dispatch took (taskFor_spec id msg).1 (taskFor_spec id msg).2
  | @handle id number hd _ next evs hstep =>
    have hadd : evs.foldl (Flow.add c) f = f := by
      rw [hstep.inner_step.2]
      refine Flow.foldl_add fun e he f => ?_
      rcases Handler.eq_of_mem_events he with rfl | rfl | ⟨_, rfl⟩ | ⟨_, rfl⟩ <;> rfl
    show Kept (evs.foldl (Flow.add c) f) _
    rw [hadd]
    refine h.goto_ready running ⟨rfl, rfl⟩ ?_
    cases next <;> exact ⟨rfl, rfl⟩
  | stop _ => exact h.close

/-- A message of the send queue is written. -/
lemma Kept.deliver {origin : Option ℕ} {data : ToClientData} {number counter : ℕ}
    {queue : List (Option ℕ × ToClientData)} (h : Kept f conn)
    (front : conn.queue = (origin, data) :: queue) :
    Kept f { conn with
      queue
      counter
      written := conn.written + 1
      downstream := conn.downstream ++ [⟨number, data⟩] } := by
  refine h.same rfl rfl rfl (fun hf => ⟨hf, fun hun => ⟨fun m hm => ?_, fun x hx => ?_⟩⟩)
    fun _ => Iff.rfl
  · rcases List.mem_append.mp hm with hm | hm
    · exact hun.1 m hm
    · rw [List.mem_singleton.mp hm]
      exact hun.2 (origin, data) (by rw [front]; exact List.mem_cons_self)
  · exact hun.2 x (by rw [front]; exact List.mem_cons_of_mem _ hx)

/-- A message is put in the send queue. -/
lemma Kept.enqueue {origin : Option ℕ} {data : ToClientData} (h : Kept f conn)
    (unwelcome : conn.phase.isFresh = true → data.isWelcome = false) :
    Kept f (conn.enqueue origin data) := by
  refine h.same rfl rfl rfl (fun hf => ⟨hf, fun hun => ⟨hun.1, fun x hx => ?_⟩⟩) fun _ => Iff.rfl
  rcases List.mem_append.mp hx with hx | hx
  · exact hun.2 x hx
  · rw [List.mem_singleton.mp hx]
    exact unwelcome hf

/-- A new connection. -/
lemma Kept.new (addr : SocketAddr) : Kept {} { addr } where
  fresh _ := ⟨rfl, by simp [Unwelcoming]⟩
  unwelcome _ := rfl
  listening _ := iff_of_true rfl (.inl rfl)
  waiting _ _ := ⟨rfl, [], List.nil_suffix, rfl⟩
  subscribed r hr := by cases hr
  ended ho := by cases ho

/-- A step of a connection. -/
lemma Step.kept {inner : ServerInner} {conns : ConnId → Option Conn} {a : ConnAction} {m : Move}
    (step : Step inner c conn conns a m)
    (ok : a = .recv → conn.phase.isWelcoming = false) (h : Kept f conn) :
    Kept (m.events.foldl (Flow.add c) f) m.conn := by
  cases step with
  | clientSend _ => exact h.clientSend
  | clientRecv front => exact h.clientRecv front
  | recv running front => exact h.receive running front (ok rfl)
  | reply running front => exact h.deliver front
  | notify running front => exact h.deliver front
  | process running move => exact move.kept running h
  | hangup _ => exact h.close
  | main move =>
    generalize hphase : conn.phase = phase at move
    cases move with
    | start =>
      refine h.same ?_ rfl rfl (fun _ => ⟨by rw [hphase]; rfl, fun hun => hun⟩)
        fun _ => iff_of_true (.inl (by rw [hphase]; rfl)) (.inl rfl)
      rw [isOpen, isOpen, hphase]
      rfl
    | unlisted _ | remove _ | unknown _ _ _ | identify _ _ _ | lost | load _ | offline | leave _
    | finish _ | send _ =>
      refine h.same ?_ rfl rfl (by cases ·) fun ho => ?_
      · rw [isOpen, isOpen, hphase]
        rfl
      · rw [isOpen, hphase] at ho
        cases ho

end Conn

/-- Only a client that is admitted is told so, and then the reply was sent. -/
lemma Letter.Kind.isWelcome {inner : ServerInner} {c : ConnId} {conn conn' : Conn} {l : Letter}
    (h : l.Kind inner c conn conn') (fresh : l.dst = c → conn'.phase.isFresh = true) :
    l.data.isWelcome = false := by
  cases h with
  | notice _ notice =>
    cases hdata : l.data <;> simp_all [ToClientData.isNotice, ToClientData.isWelcome]
  | hello _ eq | config _ eq | error _ eq =>
    rw [eq]
    rfl
  | @handshake number result _ next eq =>
    have hfresh := fresh (by rw [eq])
    rw [next] at hfresh
    cases result with
    | ok id => cases hfresh
    | error e =>
      rw [eq]
      rfl

/-! ## Runs -/

section Runs

variable {db : Database} {info : ServerInfo} {tr : List Event} {s : Server} {c : ConnId}
  {conn : Conn}

/-- In every run in which `recv_handler` hears everything, messages are kept. -/
lemma Server.Reaches.kept (run : s.Reaches db info (fun s a => s.hearsAll c a = true) tr)
    (hc : s.conns c = some conn) : conn.Kept (flow c tr) := by
  refine run.conns_of_send (J := fun tr x conn => x = c → Conn.Kept (flow c tr) conn)
    ?_ ?_ ?_ ?_ hc rfl
  · rintro tr s addr run rfl
    have hflow : flow s.count (tr ++ [.accepted s.count addr]) = {} := by
      refine Flow.foldl_add fun e he f => ?_
      rcases List.mem_append.mp he with he | he
      · by_cases hoff : ∃ c id, e = .offline c id
        · obtain ⟨c, id, rfl⟩ := hoff
          rfl
        · push Not at hoff
          exact Flow.add_of_ne (run.conn_ne_count he hoff) f
      · rw [List.mem_singleton.mp he]
        rfl
    rw [hflow]
    exact .new addr
  · rintro tr s x conn a m _ ok hconn h step rfl
    rw [flow_append]
    refine step.kept ?_ (h rfl)
    rintro rfl
    simpa [Server.hearsAll, hconn] using ok
  · rintro tr s y conn a m l conn' run hconn step hsend hdst h rfl
    rw [flow_append, Flow.foldl_add (by simp [Flow.add])]
    refine (h rfl).enqueue fun hfresh => ?_
    have hkind := run.letter hconn step hsend
    refine hkind.isWelcome fun hself => ?_
    rw [hself, Function.update_self] at hdst
    rw [Option.some.inj hdst]
    exact hfresh
  · rintro tr x conn evs h hevs rfl
    rw [flow_append, Flow.foldl_add]
    · exact h rfl
    · intro e he f
      by_cases hx : e.conn = x
      · obtain ⟨id, rfl⟩ := hevs e he hx
        rfl
      · exact Flow.add_of_ne hx f

/-- What the dispatch loop does when it looks at its receiver. -/
lemma Server.step_ready {id : ClientId} {r : Receiver ToServer} (env : Env)
    (hc : s.conns c = some conn) (running : conn.phase = .running (.ready id))
    (hr : conn.recv = some r) :
    (r.lagged = true → ∃ s', s.step (.act c (.process env)) = some (s', [.closed c])) ∧
    ∀ m queue, r = ⟨m :: queue, false⟩ →
      ∃ s', s.step (.act c (.process env)) = some (s', [.dispatched c m]) := by
  constructor
  · intro hlagged
    refine ⟨{ s with conns := Function.update s.conns c (some conn.close) }, ?_⟩
    simp only [step, hc, Conn.act, running, Conn.process, hr, Option.map_some, Receiver.recv,
      hlagged, if_true, Conn.stop, Option.bind_some, apply]
  · rintro m queue rfl
    let next : Conn := { conn with recv := some ⟨queue, false⟩ }.goto (Conn.taskFor id m)
    refine ⟨{ s with conns := Function.update s.conns c (some next) }, ?_⟩
    simp only [step, hc, Conn.act, running, Conn.process, hr, Option.map_some, Receiver.recv,
      Conn.report, apply]
    rfl

/-- In every run in which `recv_handler` takes in nothing from the client between the reply to the
handshake and the subscription of the dispatch loop: the messages that were dispatched are some
that the client sent shortly before it was told that it is admitted, followed by those it sent
afterwards, each once and in order. As long as the connection is open and its receiver has not
fallen behind, those that were not dispatched yet are held by the receiver or on their way, and
the dispatch loop takes up the next one as soon as it is ready; a receiver that has fallen behind
ends the connection.

**Proof sketch.** The invariant `Conn.Kept` says where the messages are that were not dispatched:
with the receiver, on their way, or lost by a receiver that has fallen behind. -/
theorem dispatched_in_order (run : s.Reaches db info (fun s a => s.hearsAll c a = true) tr)
    (hc : s.conns c = some conn) :
    ∃ early, early <:+ (flow c tr).before ∧
      (flow c tr).dispatched <+: early ++ (flow c tr).after ∧
      (conn.isOpen = true → (∀ r, conn.recv = some r → r.lagged = false) →
        (flow c tr).dispatched ++ (conn.held ++ conn.upstream) = early ++ (flow c tr).after) ∧
      ∀ id r env, conn.phase = .running (.ready id) → conn.recv = some r →
        (r.lagged = true → ∃ s', s.step (.act c (.process env)) = some (s', [.closed c])) ∧
        ∀ m queue, r = ⟨m :: queue, false⟩ →
          ∃ s', s.step (.act c (.process env)) = some (s', [.dispatched c m]) := by
  have hkept := run.kept hc
  have hready := fun id r env => @Server.step_ready s c conn id r env hc
  cases hopen : conn.isOpen with
  | false =>
    obtain ⟨early, hearly, hpre⟩ := hkept.inOrder
    exact ⟨early, hearly, hpre, by simp, hready⟩
  | true =>
    cases hrecv : conn.recv with
    | none =>
      obtain ⟨hnil, early, hearly, hup⟩ := hkept.waiting hopen hrecv
      refine ⟨early, hearly, by simp [hnil], fun _ _ => ?_, by simp⟩
      simp [hnil, Conn.held, hrecv, hup]
    | some r =>
      obtain ⟨early, lost, hearly, hall, hlost⟩ := hkept.subscribed r hrecv
      refine ⟨early, hearly, ⟨_, hall⟩, fun _ hlagged => ?_, hrecv ▸ hready⟩
      rw [hlost (hlagged r rfl), List.nil_append] at hall
      rw [← hall, Conn.held, hrecv]
      rfl

end Runs

section Examples

open Sample

/-- The steps in which a client is admitted, up to the reply; it reads the reply. -/
def welcome (c : ConnId) (key : String) : List Action :=
  greeting c key ++ List.replicate 5 (go c) ++ [.act c .deliver, .act c .clientRecv,
    .act c .clientRecv]

/-- The client sends a request at once, which is taken in after the subscription. -/
theorem dispatched_in_order_sample :
    ∃ s tr conn, Server.Reaches s db info (fun s a => s.hearsAll 0 a = true) tr ∧
      s.conns 0 = some conn ∧ (flow 0 tr).after = [⟨2, some .reqConfig⟩] ∧
      ∃ early, early <:+ (flow 0 tr).before ∧
        (flow 0 tr).dispatched <+: early ++ [⟨2, some .reqConfig⟩] := by
  obtain ⟨s, tr, run, hcheck⟩ := exists_run_of_exec (checked Server.step (Server.hearsAll 0))
    (welcome 0 keyA ++ .act 0 (.clientSend ⟨2, some .reqConfig⟩) :: List.replicate 3 (go 0) ++
      [.act 0 .recv, go 0])
    start (fun r => (r.1.conns 0).isSome && decide ((flow 0 r.2).after = [⟨2, some .reqConfig⟩]) &&
      decide ((flow 0 r.2).dispatched = [⟨2, some .reqConfig⟩])) (by decide +kernel)
  simp only [Bool.and_eq_true, decide_eq_true_eq] at hcheck
  obtain ⟨⟨hsome, hafter⟩, -⟩ := hcheck
  obtain ⟨conn, hconn⟩ := Option.isSome_iff_exists.mp hsome
  obtain ⟨early, hearly, hpre, -⟩ := dispatched_in_order run.of_checked hconn
  rw [hafter] at hpre
  exact ⟨s, tr, conn, run.of_checked, hconn, hafter, early, hearly, hpre⟩

/-- The client is told that it is admitted, and sends a request. It is taken in before the
subscription, and so it is never dispatched: the connection is open and waits for requests, and
nothing is on its way. -/
theorem request_lost :
    ∃ s tr conn r, Server.Reaches s db info (fun _ _ => True) tr ∧ s.conns 0 = some conn ∧
      conn.isOpen = true ∧ conn.recv = some r ∧ r.lagged = false ∧ conn.held = [] ∧
      conn.upstream = [] ∧ (flow 0 tr).after = [⟨2, some .reqConfig⟩] ∧
      (flow 0 tr).dispatched = [] := by
  obtain ⟨s, tr, run, hcheck⟩ := exists_run_of_exec Server.step
    (welcome 0 keyA ++ say 0 2 .reqConfig ++ List.replicate 3 (go 0))
    start (fun r => (r.1.conns 0).any (fun conn : Conn => conn.isOpen &&
        conn.recv.any (fun rx : Receiver ToServer => decide (rx.lagged = false)) &&
        decide (conn.held = []) && decide (conn.upstream = [])) &&
      decide ((flow 0 r.2).after = [⟨2, some .reqConfig⟩]) &&
      decide ((flow 0 r.2).dispatched = [])) (by decide +kernel)
  simp only [Bool.and_eq_true, decide_eq_true_eq, Option.any_eq_true] at hcheck
  obtain ⟨⟨⟨conn, hconn, ⟨⟨hopen, r, hr, hlagged⟩, hheld⟩, hup⟩, hafter⟩, hnil⟩ := hcheck
  exact ⟨s, tr, conn, r, run, hconn, hopen, hr, hlagged, hheld, hup, hafter, hnil⟩

end Examples

end Vlink.Headlink
