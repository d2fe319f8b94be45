import Vlink.Lib.Runs
import Vlink.Noise.Protocol

set_option autoImplicit false

/-!
# Messages over a TCP connection

`vlinkd/src/transport/proto/nat_tcp.rs` and `forward/tcp2udp.rs`: any number of senders share the
writing end of a TCP connection behind a lock, and write their messages one after another. At the
other end a task reads at most 2048 bytes at a time, and passes on what it got as one payload. TCP
keeps the bytes and their order, but not where one write ended and the next began.

## Main definitions

* `Vlink.Transport.Tcp`, `Vlink.Transport.Tcp.step` — one direction of a connection, with the
  senders at one end and the reader at the other.
* `Vlink.Transport.sent`, `pushed`, `reads` — the messages that were sent, the payloads that came
  out, and how many bytes each read returned.

## Main results

* `Vlink.Transport.Tcp.Reaches.conserved` — no bytes are lost, repeated or reordered.
* `Vlink.Transport.payloads_iff` — the payloads are the messages if and only if each read ended
  where a message ended.
* `Vlink.Transport.messages_coalesced` — two messages come out as one payload.

## Design

The kernel decides how many bytes a write takes and how many a read returns. A connection may be
lost at any time, with the bytes that are on their way or without; then writes fail, and the reader
ends. The channel that the payloads are put in may be full for any time, and its receiver may be
gone, on which the reader panics.
-/

namespace Vlink.Transport

/-! ## Pieces of a byte string -/

section Pieces

variable {α : Type*} {l l' : List (List α)}

/-- Where the pieces of one list, put together, begin the pieces of another: the first list begins
the second if and only if the lengths do. -/
lemma isPrefix_iff_of_flatten (h : l.flatten <+: l'.flatten) :
    l <+: l' ↔ l.map List.length <+: l'.map List.length := by
  constructor
  · rintro ⟨t, rfl⟩
    exact ⟨t.map List.length, by rw [List.map_append]⟩
  · intro hlen
    have hmap : l.map List.length = (l'.take l.length).map List.length := by
      rw [List.map_take, ← List.length_map List.length]
      exact List.prefix_iff_eq_take.mp hlen
    have hflat : l.flatten = (l'.take l.length).flatten := by
      have hpre : (l'.take l.length).flatten <+: l'.flatten :=
        ⟨(l'.drop l.length).flatten, by rw [← List.flatten_append, List.take_append_drop]⟩
      have hsize : l.flatten.length = (l'.take l.length).flatten.length := by
        rw [List.length_flatten, List.length_flatten, hmap]
      exact (List.prefix_of_prefix_length_le h hpre hsize.le).eq_of_length hsize
    rw [List.eq_iff_flatten_eq.mpr ⟨hflat, hmap⟩]
    exact List.take_prefix _ _

/-- And the two lists are the same if and only if the lengths are. -/
lemma eq_iff_of_flatten (h : l.flatten <+: l'.flatten) :
    l = l' ↔ l.map List.length = l'.map List.length := by
  constructor
  · rintro rfl
    rfl
  · intro hlen
    have hpre : l <+: l' := (isPrefix_iff_of_flatten h).mpr (hlen ▸ List.prefix_rfl)
    exact hpre.eq_of_length (by simpa using congrArg List.length hlen)

end Pieces

/-! ## A connection -/

/-- The task at the receiving end: of `NatTcpTransportClient::spawn`, or of `handler0`. -/
inductive Reader where
  | client
  | forwarder
deriving DecidableEq

/-- Where the task at the receiving end stands. -/
inductive ReaderTask where
  /-- In `read`. -/
  | reading
  /-- Waiting for the channel to take the payload. -/
  | sending (payload : Bytes)
  | ended
  /-- The receiver of the channel was gone, and the payload with it. -/
  | panicked (payload : Bytes)
deriving DecidableEq

/-- The size of the reader's buffer. -/
def bufSize : ℕ := 2048

/-- One direction of a connection. -/
structure Tcp where
  reader : Reader
  /-- What the sender that holds the lock has not written yet. -/
  lock : Option Bytes := none
  /-- Bytes on their way. -/
  stream : Bytes := []
  /-- Nothing can be written any more. -/
  shut : Bool := false
  buf : Block bufSize := .zero bufSize
  task : ReaderTask := .reading

/-- What can be observed. -/
inductive TcpEvent where
  /-- A sender has the lock and begins to write; it is done; it fails. -/
  | sent (data : Bytes)
  | written
  | sendFailed
  /-- `read` returns that many bytes. -/
  | read (n : ℕ)
  | pushed (payload : Bytes)
  /-- What the reader does at its end: `*peer.endpoint.write() = None`, or `TransportFailed`. -/
  | endpointCleared
  | transportFailed
deriving DecidableEq

/-- The steps of a connection. -/
inductive TcpAction where
  /-- `TcpOutboundSender::send`: get the lock; `write_all`: the kernel takes `n` bytes; come back,
  with success or not. -/
  | send (data : Bytes)
  | write (n : ℕ)
  | finish
  | fail
  /-- The connection is closed or lost, and all but `n` of the bytes on their way with it. -/
  | lose (n : ℕ)
  /-- `read` returns `n` bytes, the end of the stream, or an error. -/
  | read (n : ℕ)
  | eof
  | readError
  /-- The channel takes the payload, or its receiver is gone. -/
  | push
  | unwrap

/-- The reader's buffer after `read` has put bytes in it. -/
def readInto (buf : Block bufSize) (data : Bytes) : Block bufSize :=
  ⟨(data ++ buf.val.drop data.length).take bufSize, by simp; omega⟩

/-- What the reader does at its end. -/
def Reader.finish : Reader → TcpEvent
  | client => .endpointCleared
  | forwarder => .transportFailed

namespace Tcp

/-- One step; `none` if the action is not possible. -/
def step (s : Tcp) : TcpAction → Option (Tcp × List TcpEvent)
  | .send data =>
    match s.lock with
    | none => some ({ s with lock := some data }, [.sent data])
    | some _ => none
  | .write n =>
    match s.lock with
    | none => none
    | some rest =>
      if s.shut = false ∧ 0 < n ∧ n ≤ rest.length then
        some ({ s with lock := some (rest.drop n), stream := s.stream ++ rest.take n }, [])
      else none
  | .finish => if s.lock = some [] then some ({ s with lock := none }, [.written]) else none
  | .fail =>
    if s.shut ∧ s.lock.isSome then some ({ s with lock := none }, [.sendFailed]) else none
  | .lose n => some ({ s with shut := true, stream := s.stream.take n }, [])
  | .read n =>
    if s.task = .reading ∧ 0 < n ∧ n ≤ bufSize ∧ n ≤ s.stream.length then
      let buf := readInto s.buf (s.stream.take n)
      let s := { s with buf, stream := s.stream.drop n }
      match Bytes.slice buf.val 0 n with
      | .ret payload => some ({ s with task := .sending payload }, [.read n])
      | .panic => some ({ s with task := .panicked [] }, [.read n])
    else none
  | .eof =>
    if s.task = .reading ∧ s.stream = [] ∧ s.shut then
      some ({ s with task := .ended }, [s.reader.finish])
    else none
  | .readError =>
    if s.task = .reading ∧ s.shut then
      some ({ s with task := .ended }, [s.reader.finish])
    else none
  | .push =>
    match s.task with
    | .sending payload => some ({ s with task := .reading }, [.pushed payload])
    | _ => none
  | .unwrap =>
    match s.task with
    | .sending payload => some ({ s with task := .panicked payload }, [])
    | _ => none

/-- What was read and not put in the channel. -/
def held (s : Tcp) : List Bytes :=
  match s.task with
  | .sending payload | .panicked payload => [payload]
  | _ => []

/-- A run of a new connection leads to `s` and emits `tr`. -/
def Reaches (s : Tcp) (reader : Reader) (tr : List TcpEvent) : Prop :=
  Run step (fun _ _ => True) { reader } tr s

end Tcp

/-- The messages that were sent, in order. -/
def sent (tr : List TcpEvent) : List Bytes :=
  tr.filterMap fun
    | .sent data => some data
    | _ => none

/-- The payloads that were put in the channel, in order. -/
def pushed (tr : List TcpEvent) : List Bytes :=
  tr.filterMap fun
    | .pushed payload => some payload
    | _ => none

/-- How many bytes each read returned. -/
def reads (tr : List TcpEvent) : List ℕ :=
  tr.filterMap fun
    | .read n => some n
    | _ => none

/-- What was sent in a longer trace. -/
@[simp] lemma sent_append (tr evs : List TcpEvent) : sent (tr ++ evs) = sent tr ++ sent evs :=
  List.filterMap_append

/-- What was pushed in a longer trace. -/
@[simp] lemma pushed_append (tr evs : List TcpEvent) :
    pushed (tr ++ evs) = pushed tr ++ pushed evs :=
  List.filterMap_append

/-- The reads in a longer trace. -/
@[simp] lemma reads_append (tr evs : List TcpEvent) :
    reads (tr ++ evs) = reads tr ++ reads evs :=
  List.filterMap_append

/-! ## Bytes are kept -/

/-- The first bytes of the buffer are those that were read. -/
lemma slice_readInto (buf : Block bufSize) {data : Bytes} (h : data.length ≤ bufSize) :
    Bytes.slice (readInto buf data).val 0 data.length = .ret data := by
  rw [Bytes.slice_of_le (Nat.zero_le _) (by rw [Block.length_val]; exact h)]
  simp [readInto, List.take_take, h]

/-- Where the bytes of the messages are: in payloads, on their way, or not written. Those that were
not written are with the sender that has the lock, as long as the connection can be written to. -/
structure Tcp.Conserved (tr : List TcpEvent) (s : Tcp) : Prop where
  bytes : ∃ rest, (pushed tr ++ s.held).flatten ++ (s.stream ++ rest) = (sent tr).flatten ∧
    (s.shut = false → rest = s.lock.getD [])
  lengths : (pushed tr ++ s.held).map List.length = reads tr

namespace Tcp

variable {s s' : Tcp} {a : TcpAction} {tr evs : List TcpEvent} {reader : Reader}

/-- A step that neither reads nor writes. -/
lemma Conserved.same (h : s.Conserved tr) (hheld : pushed evs ++ s'.held = s.held)
    (hsent : sent evs = []) (hreads : reads evs = []) (hstream : s'.stream = s.stream)
    (hshut : s'.shut = s.shut) (hlock : s.shut = false → s'.lock.getD [] = s.lock.getD []) :
    s'.Conserved (tr ++ evs) := by
  have hall : pushed (tr ++ evs) ++ s'.held = pushed tr ++ s.held := by
    rw [pushed_append, List.append_assoc, hheld]
  obtain ⟨rest, hbytes, hrest⟩ := h.bytes
  refine ⟨⟨rest, ?_, fun hopen => ?_⟩, ?_⟩
  · rw [hall, hstream, hbytes, sent_append, hsent, List.append_nil]
  · rw [hshut] at hopen
    rw [hrest hopen, hlock hopen]
  · rw [hall, h.lengths, reads_append, hreads, List.append_nil]

/-- A sender gets the lock. -/
lemma Conserved.send (h : s.Conserved tr) (hlock : s.lock = none) (data : Bytes) :
    ({ s with lock := some data } : Tcp).Conserved (tr ++ [.sent data]) := by
  obtain ⟨rest, hbytes, hrest⟩ := h.bytes
  have hsent : (sent (tr ++ [.sent data])).flatten = (sent tr).flatten ++ data := by
    simp [sent]
  have hpushed : pushed (tr ++ [.sent data]) = pushed tr := by simp [pushed]
  have hreads : reads (tr ++ [.sent data]) = reads tr := by simp [reads]
  refine ⟨⟨rest ++ data, ?_, fun hopen => ?_⟩, ?_⟩
  · rw [hsent, ← hbytes, hpushed, List.append_assoc, List.append_assoc]
    rfl
  · rw [hrest hopen, hlock]
    rfl
  · rw [hpushed, hreads, ← h.lengths]
    rfl

/-- The kernel takes bytes from the sender that has the lock. -/
lemma Conserved.write (h : s.Conserved tr) {rest : Bytes} (hlock : s.lock = some rest)
    (hopen : s.shut = false) (n : ℕ) :
    ({ s with lock := some (rest.drop n), stream := s.stream ++ rest.take n } : Tcp).Conserved
      tr := by
  obtain ⟨rest', hbytes, hrest⟩ := h.bytes
  obtain rfl : rest' = rest := by rw [hrest hopen, hlock, Option.getD_some]
  refine ⟨⟨rest'.drop n, ?_, fun _ => rfl⟩, h.lengths⟩
  rw [← hbytes, List.append_assoc s.stream, List.take_append_drop]
  rfl

/-- The connection is lost. -/
lemma Conserved.lose (h : s.Conserved tr) (n : ℕ) :
    ({ s with shut := true, stream := s.stream.take n } : Tcp).Conserved tr := by
  obtain ⟨rest, hbytes, -⟩ := h.bytes
  refine ⟨⟨s.stream.drop n ++ rest, ?_, fun hopen => by cases hopen⟩, h.lengths⟩
  rw [← hbytes, ← List.append_assoc (s.stream.take n), List.take_append_drop]
  rfl

/-- Bytes are read. -/
lemma Conserved.read (h : s.Conserved tr) {n : ℕ} (htask : s.task = .reading)
    (hn : n ≤ s.stream.length) (buf : Block bufSize) :
    ({ s with buf, stream := s.stream.drop n, task := .sending (s.stream.take n) } :
      Tcp).Conserved (tr ++ [.read n]) := by
  obtain ⟨rest, hbytes, hrest⟩ := h.bytes
  have hheld : s.held = [] := by rw [held, htask]
  have hpushed : pushed (tr ++ [.read n]) = pushed tr := by simp [pushed]
  rw [hheld, List.append_nil] at hbytes
  refine ⟨⟨rest, ?_, hrest⟩, ?_⟩
  · have hsent : sent (tr ++ [.read n]) = sent tr := by simp [sent]
    rw [hsent, ← hbytes, hpushed]
    simp only [held, List.flatten_append, List.flatten_singleton, List.append_assoc]
    rw [← List.append_assoc (s.stream.take n), List.take_append_drop]
  · have hreads : reads (tr ++ [.read n]) = reads tr ++ [n] := by simp [reads]
    rw [hreads, ← h.lengths, hpushed, hheld]
    simp [held, hn]

/-- **Step lemma.** Each step keeps the bytes.

**Proof sketch.** A step moves bytes from the sender to the stream or from there into a payload, or
cuts off the end of the stream when the connection breaks. -/
lemma Conserved.step (h : s.Conserved tr) (hstep : s.step a = some (s', evs)) :
    s'.Conserved (tr ++ evs) := by
  cases a with
  | send data =>
    cases hlock : s.lock with
    | none =>
      simp only [Tcp.step, hlock, Option.some.injEq, Prod.mk.injEq] at hstep
      obtain ⟨rfl, rfl⟩ := hstep
      exact h.send hlock data
    | some rest => simp [Tcp.step, hlock] at hstep
  | write n =>
    cases hlock : s.lock with
    | none => simp [Tcp.step, hlock] at hstep
    | some rest =>
      simp only [Tcp.step, hlock, Option.ite_none_right_eq_some, Option.some.injEq,
        Prod.mk.injEq] at hstep
      obtain ⟨⟨hopen, -, -⟩, rfl, rfl⟩ := hstep
      rw [List.append_nil]
      exact h.write hlock hopen n
  | finish =>
    simp only [Tcp.step, Option.ite_none_right_eq_some, Option.some.injEq, Prod.mk.injEq] at hstep
    obtain ⟨hlock, rfl, rfl⟩ := hstep
    exact h.same rfl rfl rfl rfl rfl fun _ => by rw [hlock]; rfl
  | fail =>
    simp only [Tcp.step, Option.ite_none_right_eq_some, Option.some.injEq, Prod.mk.injEq] at hstep
    obtain ⟨⟨hshut, -⟩, rfl, rfl⟩ := hstep
    exact h.same rfl rfl rfl rfl rfl fun hopen => by rw [hopen] at hshut; cases hshut
  | lose n =>
    simp only [Tcp.step, Option.some.injEq, Prod.mk.injEq] at hstep
    obtain ⟨rfl, rfl⟩ := hstep
    rw [List.append_nil]
    exact h.lose n
  | read n =>
    simp only [Tcp.step, Option.ite_none_right_eq_some] at hstep
    obtain ⟨⟨htask, -, hsize, hn⟩, hstep⟩ := hstep
    have hlen : (s.stream.take n).length = n := List.length_take_of_le hn
    have hslice := slice_readInto s.buf (hlen.symm ▸ hsize : (s.stream.take n).length ≤ bufSize)
    rw [hlen] at hslice
    simp only [hslice, Option.some.injEq, Prod.mk.injEq] at hstep
    obtain ⟨rfl, rfl⟩ := hstep
    exact h.read htask hn _
  | eof | readError =>
    simp only [Tcp.step, Option.ite_none_right_eq_some, Option.some.injEq, Prod.mk.injEq] at hstep
    obtain ⟨⟨htask, -⟩, rfl, rfl⟩ := hstep
    cases hreader : s.reader <;>
      exact h.same (by simp [held, htask, pushed, Reader.finish]) rfl rfl rfl rfl fun _ => rfl
  | push =>
    cases htask : s.task with
    | sending payload =>
      simp only [Tcp.step, htask, Option.some.injEq, Prod.mk.injEq] at hstep
      obtain ⟨rfl, rfl⟩ := hstep
      exact h.same (by simp [held, htask, pushed]) rfl rfl rfl rfl fun _ => rfl
    | reading | ended | panicked _ => simp [Tcp.step, htask] at hstep
  | unwrap =>
    cases htask : s.task with
    | sending payload =>
      simp only [Tcp.step, htask, Option.some.injEq, Prod.mk.injEq] at hstep
      obtain ⟨rfl, rfl⟩ := hstep
      exact h.same (by simp [held, htask, pushed]) rfl rfl rfl rfl fun _ => rfl
    | reading | ended | panicked _ => simp [Tcp.step, htask] at hstep

/-- **Run lemma.** No bytes are lost, repeated or reordered. -/
theorem Reaches.conserved (run : s.Reaches reader tr) : s.Conserved tr :=
  Run.invariant (I := fun tr s => Conserved tr s) ⟨⟨[], rfl, fun _ => rfl⟩, rfl⟩
    (fun _ ih _ hstep => ih.step hstep) run

end Tcp

section Runs

variable {s : Tcp} {reader : Reader} {tr : List TcpEvent}

/-- Whenever the reader has put all that it read in the channel: the payloads so far are the first
messages if and only if the reads so far returned as many bytes as the first messages have, and
they are all the messages if and only if this is so for all of them. -/
theorem payloads_iff (run : s.Reaches reader tr) (idle : s.held = []) :
    (pushed tr <+: sent tr ↔ reads tr <+: (sent tr).map List.length) ∧
    (pushed tr = sent tr ↔ reads tr = (sent tr).map List.length) := by
  obtain ⟨⟨rest, hbytes, -⟩, hlengths⟩ := run.conserved
  rw [idle, List.append_nil] at hbytes hlengths
  have hflat : (pushed tr).flatten <+: (sent tr).flatten := ⟨_, hbytes⟩
  rw [← hlengths]
  exact ⟨isPrefix_iff_of_flatten hflat, eq_iff_of_flatten hflat⟩

end Runs

section Examples

/-- A keepalive, and another one. -/
def keepalive (counter : UInt64) : Bytes :=
  TransportData.toBytes ⟨7, counter, List.replicate 16 0⟩

/-- The steps in which a message is sent and the kernel takes it at once. -/
def sending (data : Bytes) : List TcpAction := [.send data, .write data.length, .finish]

/-- Two messages that are read one by one. -/
theorem payloads_iff_sample :
    ∃ s tr, Tcp.Reaches s .client tr ∧ s.held = [] ∧ sent tr = [keepalive 0, keepalive 1] ∧
      reads tr = [32, 32] ∧ pushed tr = [keepalive 0, keepalive 1] := by
  obtain ⟨s, tr, run, hcheck⟩ := exists_run_of_exec Tcp.step
    (sending (keepalive 0) ++ sending (keepalive 1) ++ [.read 32, .push, .read 32, .push])
    { reader := .client } (fun r => decide (r.1.held = []) &&
      decide (sent r.2 = [keepalive 0, keepalive 1]) && decide (reads r.2 = [32, 32]))
    (by decide +kernel)
  simp only [Bool.and_eq_true, decide_eq_true_eq] at hcheck
  obtain ⟨⟨hheld, hsent⟩, hreads⟩ := hcheck
  refine ⟨s, tr, run, hheld, hsent, hreads, ?_⟩
  rw [← hsent, (payloads_iff run hheld).2, hreads, hsent]
  decide +kernel

/-- Two messages are sent one after the other, and both are there when the reader of a client comes
to read: it passes them on as one payload. A message to the forwarder is read in two parts, and
they are passed on as two payloads. -/
theorem messages_coalesced :
    (∃ s tr, Tcp.Reaches s .client tr ∧ s.held = [] ∧ s.stream = [] ∧ s.lock = none ∧
      sent tr = [keepalive 0, keepalive 1] ∧ pushed tr = [keepalive 0 ++ keepalive 1]) ∧
    ∃ s tr, Tcp.Reaches s .forwarder tr ∧ s.held = [] ∧ s.stream = [] ∧ s.lock = none ∧
      sent tr = [keepalive 0] ∧ pushed tr = [(keepalive 0).take 20, (keepalive 0).drop 20] := by
  constructor
  · obtain ⟨s, tr, run, hcheck⟩ := exists_run_of_exec Tcp.step
      (sending (keepalive 0) ++ sending (keepalive 1) ++ [.read 64, .push]) { reader := .client }
      (fun r => decide (r.1.held = []) && decide (r.1.stream = []) && decide (r.1.lock = none) &&
        decide (sent r.2 = [keepalive 0, keepalive 1]) &&
        decide (pushed r.2 = [keepalive 0 ++ keepalive 1])) (by decide +kernel)
    simp only [Bool.and_eq_true, decide_eq_true_eq, and_assoc] at hcheck
    exact ⟨s, tr, run, hcheck⟩
  · obtain ⟨s, tr, run, hcheck⟩ := exists_run_of_exec Tcp.step
      (sending (keepalive 0) ++ [.read 20, .push, .read 12, .push]) { reader := .forwarder }
      (fun r => decide (r.1.held = []) && decide (r.1.stream = []) && decide (r.1.lock = none) &&
        decide (sent r.2 = [keepalive 0]) &&
        decide (pushed r.2 = [(keepalive 0).take 20, (keepalive 0).drop 20])) (by decide +kernel)
    simp only [Bool.and_eq_true, decide_eq_true_eq, and_assoc] at hcheck
    exact ⟨s, tr, run, hcheck⟩

end Examples

end Vlink.Transport
