import Vlink.Noise.Timestamp

set_option autoImplicit false

/-!
# The monitors of a peer

`device/time.rs` and `device/peer/monitor.rs`: when a peer last attempted and completed a
handshake, what it sent and received, and when the next keepalive is due. Every function that
reads the clock takes its reading `now` as an argument.

## Main definitions

* `Vlink.AtomicInstant` — an instant kept as an epoch and a number of milliseconds.
* `Vlink.HandshakeMonitor`, `Vlink.TrafficMonitor`, `Vlink.KeepAliveMonitor` — the three parts.
* `Vlink.PeerMonitor.canHandshake` — whether the handshake loop may send an initiation.

## Main results

* `Vlink.PeerMonitor.canHandshake_of_elapsed` — an initiation may be sent once the last
  completed handshake and the last attempt lie far enough in the past.
-/

namespace Vlink

/-- `REKEY_AFTER_MESSAGES`. -/
def rekeyAfterMessages : UInt64 := (1 : UInt64) <<< (60 : UInt64)

/-- `REKEY_AFTER_TIME`. -/
def rekeyAfterTime : Duration := Duration.fromSecs 120

/-- `REJECT_AFTER_TIME`. -/
def rejectAfterTime : Duration := Duration.fromSecs 180

/-- `REKEY_ATTEMPT_TIME`. -/
def rekeyAttemptTime : Duration := Duration.fromSecs 90

/-- `REKEY_TIMEOUT`. -/
def rekeyTimeout : Duration := Duration.fromSecs 5

/-- `KEEPALIVE_TIMEOUT`. -/
def keepaliveTimeout : Duration := Duration.fromSecs 10

/-! ## Instants -/

/-- A span of time has passed if the instant lies that far back. -/
lemma Instant.le_elapsed_iff {t now : Instant} {d : Duration} (hd : 0 < d) :
    d ≤ t.elapsed now ↔ t + d ≤ now := by
  have hiff : ∀ (t now : ℤ) (d : ℕ), 0 < d → (d ≤ (now - t).toNat ↔ t + d ≤ now) := by omega
  exact hiff t now d hd

/-- `Duration::as_millis`, cut to 64 bits. -/
def Duration.asMillis (d : Duration) : UInt64 := UInt64.ofNat (d / 1000000)

/-- `AtomicInstant`: milliseconds after an epoch. -/
structure AtomicInstant where
  epoch : Instant
  d : UInt64
deriving DecidableEq

namespace AtomicInstant

/-- `AtomicInstant::from_std`. -/
def fromStd (epoch : Instant) : AtomicInstant := ⟨epoch, 0⟩

/-- `AtomicInstant::set_now`. -/
def setNow (t : AtomicInstant) (now : Instant) : AtomicInstant :=
  { t with d := (t.epoch.elapsed now).asMillis }

/-- `AtomicInstant::add_duration`. -/
def addDuration (t : AtomicInstant) (d : Duration) : AtomicInstant :=
  { t with d := t.d + d.asMillis }

/-- `AtomicInstant::to_std`. -/
def toStd (t : AtomicInstant) : Instant := t.epoch + (t.d.toNat * 1000000 : ℕ)

/-- `AtomicInstant::elapsed`. -/
def elapsed (t : AtomicInstant) (now : Instant) : Duration := t.toStd.elapsed now

variable {t : AtomicInstant} {now : Instant}

/-- Setting keeps the epoch. -/
@[simp] lemma epoch_setNow : (t.setNow now).epoch = t.epoch := rfl

/-- Adding keeps the epoch. -/
@[simp] lemma epoch_addDuration (d : Duration) : (t.addDuration d).epoch = t.epoch := rfl

/-- A new instant is its epoch. -/
@[simp] lemma toStd_fromStd (epoch : Instant) : (fromStd epoch).toStd = epoch := by
  simp [fromStd, toStd]

/-- No instant is before its epoch. -/
lemma epoch_le_toStd : t.epoch ≤ t.toStd :=
  Int.le_add_of_nonneg_right (Int.natCast_nonneg _)

/-- What is stored is not later than the reading, whether or not it has been cut to 64 bits. -/
lemma toStd_setNow_le (h : t.epoch ≤ now) : (t.setNow now).toStd ≤ now := by
  have hcut : (Duration.asMillis (t.epoch.elapsed now)).toNat ≤ t.epoch.elapsed now / 1000000 := by
    rw [Duration.asMillis, UInt64.toNat_ofNat']
    exact Nat.mod_le _ _
  have hle : ∀ (epoch now : ℤ) (d : ℕ), epoch ≤ now → d ≤ (now - epoch).toNat / 1000000 →
      epoch + (d * 1000000 : ℕ) ≤ now := by omega
  exact hle _ _ _ h hcut

/-- As long as the milliseconds since the epoch fit 64 bits, less than one is lost. -/
lemma lt_toStd_setNow (h : now < t.epoch + (2 ^ 64 * 1000000 : ℕ)) :
    now < (t.setNow now).toStd + 1000000 := by
  have hfit : ∀ epoch now : ℤ, now < epoch + (2 ^ 64 * 1000000 : ℕ) →
      (now - epoch).toNat / 1000000 < 2 ^ 64 := by omega
  have hkept : (t.setNow now).d.toNat = t.epoch.elapsed now / 1000000 := by
    rw [setNow, Duration.asMillis, UInt64.toNat_ofNat']
    exact Nat.mod_eq_of_lt (hfit _ _ h)
  have hlt : ∀ epoch now : ℤ,
      now < epoch + ((now - epoch).toNat / 1000000 * 1000000 : ℕ) + 1000000 := by omega
  rw [toStd, hkept]
  exact hlt _ _

/-- At most the span of time is added, whether or not the sum has been cut to 64 bits. -/
lemma toStd_addDuration_le (d : Duration) : (t.addDuration d).toStd ≤ t.toStd + d := by
  have hcut : (t.addDuration d).d.toNat ≤ t.d.toNat + d / 1000000 := by
    rw [addDuration, UInt64.toNat_add, Duration.asMillis, UInt64.toNat_ofNat']
    exact le_trans (Nat.mod_le _ _) (Nat.add_le_add_left (Nat.mod_le _ _) _)
  have hle : ∀ (epoch : ℤ) (a b d : ℕ), a ≤ b + d / 1000000 →
      epoch + (a * 1000000 : ℕ) ≤ epoch + (b * 1000000 : ℕ) + d := by omega
  exact hle _ _ _ _ hcut

/-- As long as the sum fits 64 bits, it is not earlier than before. -/
lemma toStd_le_toStd_addDuration {d : Duration} (h : t.d.toNat + d / 1000000 < 2 ^ 64) :
    t.toStd + (d / 1000000 * 1000000 : ℕ) ≤ (t.addDuration d).toStd := by
  have hd : d / 1000000 < 2 ^ 64 := lt_of_le_of_lt (Nat.le_add_left _ _) h
  have hsum : (t.addDuration d).d.toNat = t.d.toNat + d / 1000000 := by
    rw [addDuration, UInt64.toNat_add, Duration.asMillis, UInt64.toNat_ofNat',
      Nat.mod_eq_of_lt hd, Nat.mod_eq_of_lt h]
  have hle : ∀ (epoch : ℤ) (a b d : ℕ), a = b + d / 1000000 →
      epoch + (b * 1000000 : ℕ) + (d / 1000000 * 1000000 : ℕ) ≤ epoch + (a * 1000000 : ℕ) := by
    omega
  exact hle _ _ _ _ hsum

end AtomicInstant

/-! ## Handshakes -/

/-- `HandshakeMonitor`. -/
structure HandshakeMonitor where
  lastAttemptAt : AtomicInstant
  lastCompleteAt : AtomicInstant
  lastCompleteTs : SystemTime
  attemptBefore : AtomicInstant
deriving DecidableEq

namespace HandshakeMonitor

/-- `HandshakeMonitor::new`. -/
def new (now : Instant) : HandshakeMonitor where
  lastAttemptAt := .fromStd (now - rekeyTimeout)
  lastCompleteAt := .fromStd (now - rejectAfterTime)
  attemptBefore := (AtomicInstant.fromStd now).addDuration rekeyAttemptTime
  lastCompleteTs := 0

/-- `HandshakeMonitor::initiated`. -/
def initiated (m : HandshakeMonitor) (now : Instant) : HandshakeMonitor :=
  { m with lastAttemptAt := m.lastAttemptAt.setNow now }

/-- `HandshakeMonitor::reset_attempt`. -/
def resetAttempt (m : HandshakeMonitor) (now : Instant) : HandshakeMonitor :=
  { m with attemptBefore := (m.attemptBefore.setNow now).addDuration rekeyAttemptTime }

/-- `HandshakeMonitor::completed`. -/
def completed (m : HandshakeMonitor) (now : Instant) (wall : SystemTime) : HandshakeMonitor :=
  { m with lastCompleteAt := m.lastCompleteAt.setNow now, lastCompleteTs := wall }.resetAttempt now

/-- `HandshakeMonitor::is_max_attempt`. -/
def isMaxAttempt (m : HandshakeMonitor) (now : Instant) : Bool := m.attemptBefore.toStd < now

/-- `HandshakeMonitor::will_initiate_in`. -/
def willInitiateIn (m : HandshakeMonitor) (now : Instant) : Instant :=
  if m.isMaxAttempt now ∨ m.lastCompleteAt.elapsed now < rekeyAfterTime then now + rekeyTimeout
  else m.lastAttemptAt.toStd + rekeyTimeout

/-- The end of the window after a reset. -/
lemma attemptBefore_resetAttempt (m : HandshakeMonitor) (now : Instant) :
    (m.resetAttempt now).attemptBefore =
      (m.attemptBefore.setNow now).addDuration rekeyAttemptTime := rfl

/-- The window ends at most `REKEY_ATTEMPT_TIME` after it is opened. -/
lemma attemptBefore_resetAttempt_le {m : HandshakeMonitor} {now : Instant}
    (h : m.attemptBefore.epoch ≤ now) :
    (m.resetAttempt now).attemptBefore.toStd ≤ now + rekeyAttemptTime := by
  rw [attemptBefore_resetAttempt]
  exact le_trans (AtomicInstant.toStd_addDuration_le _)
    (Int.add_le_add_right (AtomicInstant.toStd_setNow_le h) _)

/-- As long as its end fits 64 bits, less than a millisecond of the window is lost. -/
lemma lt_attemptBefore_resetAttempt {m : HandshakeMonitor} {now : Instant}
    (h : now + rekeyAttemptTime < m.attemptBefore.epoch + (2 ^ 64 * 1000000 : ℕ)) :
    now + rekeyAttemptTime < (m.resetAttempt now).attemptBefore.toStd + 1000000 := by
  have hnow : now < (m.attemptBefore.setNow now).toStd + 1000000 :=
    AtomicInstant.lt_toStd_setNow
      (lt_of_le_of_lt (Int.le_add_of_nonneg_right (Int.natCast_nonneg _)) h)
  have hcut : (m.attemptBefore.setNow now).d.toNat ≤
      m.attemptBefore.epoch.elapsed now / 1000000 := by
    rw [AtomicInstant.setNow, Duration.asMillis, UInt64.toNat_ofNat']
    exact Nat.mod_le _ _
  have hspan : rekeyAttemptTime = 90000000000 := rfl
  have hfit : ∀ (epoch now : ℤ) (d w : ℕ), w = 90000000000 → d ≤ (now - epoch).toNat / 1000000 →
      now + w < epoch + (2 ^ 64 * 1000000 : ℕ) → d + w / 1000000 < 2 ^ 64 := by omega
  have hsum := AtomicInstant.toStd_le_toStd_addDuration (hfit _ _ _ _ hspan hcut h)
  have hlt : ∀ (a b c : ℤ) (w : ℕ), w = 90000000000 → a < b + 1000000 →
      b + (w / 1000000 * 1000000 : ℕ) ≤ c → a + w < c + 1000000 := by omega
  rw [attemptBefore_resetAttempt]
  exact hlt _ _ _ _ hspan hnow hsum

/-- A reset keeps the epoch. -/
@[simp] lemma epoch_attemptBefore_resetAttempt (m : HandshakeMonitor) (now : Instant) :
    (m.resetAttempt now).attemptBefore.epoch = m.attemptBefore.epoch := by
  rw [attemptBefore_resetAttempt, AtomicInstant.epoch_addDuration, AtomicInstant.epoch_setNow]

/-- A reset keeps the last attempt. -/
@[simp] lemma lastAttemptAt_resetAttempt (m : HandshakeMonitor) (now : Instant) :
    (m.resetAttempt now).lastAttemptAt = m.lastAttemptAt := by
  cases m
  rfl

/-- A reset keeps the last completion. -/
@[simp] lemma lastCompleteAt_resetAttempt (m : HandshakeMonitor) (now : Instant) :
    (m.resetAttempt now).lastCompleteAt = m.lastCompleteAt := by
  cases m
  rfl

end HandshakeMonitor

/-! ## Traffic and keepalives -/

/-- `TrafficMonitor`. -/
structure TrafficMonitor where
  lastSentAt : AtomicInstant
  lastRecvAt : AtomicInstant
  txMessages : UInt64
  rxMessages : UInt64
  txBytes : UInt64
  rxBytes : UInt64
deriving DecidableEq

namespace TrafficMonitor

/-- `TrafficMonitor::new`. -/
def new (now : Instant) : TrafficMonitor where
  lastSentAt := .fromStd now
  lastRecvAt := .fromStd (now - rekeyTimeout)
  txMessages := 0
  rxMessages := 0
  txBytes := 0
  rxBytes := 0

/-- `TrafficMonitor::outbound`. -/
def outbound (m : TrafficMonitor) (bytes : ℕ) (now : Instant) : TrafficMonitor :=
  { m with
    lastSentAt := m.lastSentAt.setNow now
    txMessages := m.txMessages + 1
    txBytes := m.txBytes + UInt64.ofNat bytes }

/-- `TrafficMonitor::inbound`. It leaves `last_recv_at` alone. -/
def inbound (m : TrafficMonitor) (bytes : ℕ) : TrafficMonitor :=
  { m with rxMessages := m.rxMessages + 1, rxBytes := m.rxBytes + UInt64.ofNat bytes }

end TrafficMonitor

/-- `KeepAliveMonitor`. -/
structure KeepAliveMonitor where
  lastAttemptAt : AtomicInstant
  persistentKeepaliveInterval : Option Duration
deriving DecidableEq

namespace KeepAliveMonitor

/-- `KeepAliveMonitor::new`. -/
def new (interval : Option Duration) (now : Instant) : KeepAliveMonitor :=
  ⟨.fromStd now, interval⟩

/-- `KeepAliveMonitor::next_attempt_in`. -/
def nextAttemptIn (m : KeepAliveMonitor) (traffic : TrafficMonitor) (now : Instant) : Instant :=
  if keepaliveTimeout ≤ m.lastAttemptAt.elapsed now ∧
      traffic.lastSentAt.toStd < traffic.lastRecvAt.toStd then
    if keepaliveTimeout < traffic.lastRecvAt.elapsed now then now
    else now + keepaliveTimeout - traffic.lastRecvAt.elapsed now
  else
    match m.persistentKeepaliveInterval with
    | some v => m.lastAttemptAt.toStd + v
    | none => now + rekeyAfterTime

/-- `KeepAliveMonitor::can`. -/
def can (m : KeepAliveMonitor) (traffic : TrafficMonitor) (now : Instant) : Bool :=
  m.nextAttemptIn traffic now ≤ now

/-- `KeepAliveMonitor::attempt`. -/
def attempt (m : KeepAliveMonitor) (now : Instant) : KeepAliveMonitor :=
  { m with lastAttemptAt := m.lastAttemptAt.setNow now }

end KeepAliveMonitor

/-! ## The monitor of a peer -/

/-- `PeerMonitor`. -/
structure PeerMonitor where
  handshake : HandshakeMonitor
  traffic : TrafficMonitor
  keepalive : KeepAliveMonitor
deriving DecidableEq

namespace PeerMonitor

/-- `PeerMonitor::new`. -/
def new (interval : Option Duration) (now : Instant) : PeerMonitor :=
  ⟨.new now, .new now, .new interval now⟩

/-- `PeerMonitor::can_handshake`, which may also move the deadline for attempts. -/
def canHandshake (m : PeerMonitor) (now : Instant) : Bool × PeerMonitor :=
  if rekeyAfterMessages ≤ m.traffic.txMessages then (true, m)
  else if m.handshake.lastCompleteAt.elapsed now < rekeyAfterTime then (false, m)
  else
    let m :=
      if m.handshake.attemptBefore.toStd < m.handshake.lastCompleteAt.toStd + rekeyAfterTime then
        { m with handshake := m.handshake.resetAttempt now }
      else m
    (rekeyTimeout ≤ m.handshake.lastAttemptAt.elapsed now, m)

/-- The handshake loop may send an initiation once the last completed handshake is at least
two minutes and the last attempt at least five seconds old. Neither is changed by the check. -/
theorem canHandshake_of_elapsed {m : PeerMonitor} {now : Instant}
    (hc : rekeyAfterTime ≤ m.handshake.lastCompleteAt.elapsed now)
    (ha : rekeyTimeout ≤ m.handshake.lastAttemptAt.elapsed now) :
    (m.canHandshake now).1 = true ∧
      (m.canHandshake now).2.handshake.lastCompleteAt = m.handshake.lastCompleteAt ∧
      (m.canHandshake now).2.handshake.lastAttemptAt = m.handshake.lastAttemptAt := by
  unfold canHandshake
  rw [if_neg (Nat.not_lt.mpr hc)]
  split
  · exact ⟨rfl, rfl, rfl⟩
  · split <;> simp [ha]

end PeerMonitor

end Vlink
