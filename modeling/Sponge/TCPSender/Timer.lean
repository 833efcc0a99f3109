import Sponge.TCPSender.Passes

/-!
# The retransmission timer

Timer, timeout and counter are set in three operations: `fill_window` starts a timer
that does not run, an acknowledgment of new data resets all three, and a tick that finds
the timer expired restarts it with the timeout doubled.  `Timed` runs a sender beside a
clock of its own, which is set back by these three **events** and not by the code of the
timer, and `Wound` says that they stay in step.

* `retransmission_timer` — in every run that keeps the counter within
  `MAX_RETX_ATTEMPTS + 1` and the accumulated time within 64 bits, the timer runs exactly
  while something is outstanding, its deadline is the timeout, the timeout is the initial
  one doubled with every retransmission counted, and a tick sends the oldest outstanding
  segment exactly if the timeout has passed since the last of the three events.

Nothing here depends on sequence numbers, so the calls may come in any order.

### A clock beside the code

A statement that the timer expires when its own counter reaches its own deadline would only
repeat `expired`.  `elapsed` is therefore not computed from the timer: it is set back by
what can be seen from outside, a first transmission, an acknowledgment of new data, a
segment sent again.  `Wound.cur` says that the timer agrees with it.

### The bounds

A connection gives up as soon as the counter is past `MAX_RETX_ATTEMPTS`, and up to there an
initial timeout of 16 bits doubles without leaving 64 (`Wound.shifted`).  The second bound
is on the time accumulated since the start.  Both are conditions on the state *after* a
call, so a call that would break them is not part of a run.
-/

namespace Sponge

open Runs

namespace TCPSender

/-- A sender and a clock beside it.  The count of the timer is compared with the clock, which does
not wrap around. -/
structure Timed where
  s : TCPSender
  /-- The time since the timer was last started or restarted. -/
  elapsed : ℕ := 0
  /-- The time accumulated since the beginning. -/
  total : ℕ := 0
  deriving Repr, DecidableEq

namespace Timed

/-- A new sender, with the clock at zero. -/
def start (capacity : ℕ) (retxTimeout : UInt16) (isn : WrappingInt32) : Timed :=
  { s := TCPSender.new capacity retxTimeout isn }

/-- The clock after a call: it is set back when something is sent while nothing was
outstanding, when new data are acknowledged, and when a segment is sent again. -/
def elapsedAfter (t : Timed) : Op → ℕ
  | .fillWindow => if t.s.outstandingSegments = [] then 0 else t.elapsed
  | .ackReceived ackno windowSize =>
      if (t.s.ackReceived ackno windowSize).unaSeqno = t.s.unaSeqno then t.elapsed else 0
  | .tick ms =>
      if (t.s.tick ms).segmentsOut = t.s.segmentsOut then t.elapsed + ms else 0
  | .write _ | .endInput | .sendEmptySegment | .dequeue => t.elapsed

/-- Only a tick takes time. -/
def totalAfter (t : Timed) : Op → ℕ
  | .tick ms => t.total + ms
  | .write _ | .endInput | .fillWindow | .ackReceived _ _ | .sendEmptySegment | .dequeue =>
      t.total

/-- The sender and both clocks after a call. -/
def next (t : Timed) (op : Op) : Timed :=
  { s := t.s.apply op, elapsed := t.elapsedAfter op, total := t.totalAfter op }

/-- No operation of the sender throws. -/
def step (t : Timed) (op : Op) : Except Empty Timed := .ok (t.next op)

/-- The call leaves the counter and the accumulated time within their bounds. -/
def WithinBounds (t : Timed) (op : Op) : Prop :=
  (t.next op).s.consecutiveRetransTimes ≤ TCPConfig.maxRetxAttempts + 1 ∧
    (t.next op).total < 2 ^ 64

instance (t : Timed) (op : Op) : Decidable (t.WithinBounds op) :=
  inferInstanceAs (Decidable (_ ∧ _))

/-- **The timer, the timeout and the counter in step.**  The timeout is the initial one doubled
for each retransmission counted, so it need not be followed along the run; the bound on the
counter keeps it from overflowing. -/
structure Wound (t : Timed) : Prop where
  running_iff : t.s.timer.isStart = true ↔ t.s.outstandingSegments ≠ []
  ddl : t.s.timer.isStart = true → t.s.timer.ddl = t.s.curRto
  cur : t.s.timer.isStart = true → t.s.timer.cur = t.elapsed
  rto : t.s.curRto = t.s.initialRetransmissionTimeout * 2 ^ t.s.consecutiveRetransTimes
  idle : t.s.outstandingSegments = [] → t.s.consecutiveRetransTimes = 0
  initial : t.s.initialRetransmissionTimeout < 2 ^ 16
  elapsed_le : t.elapsed ≤ t.total
  counter_le : t.s.consecutiveRetransTimes ≤ TCPConfig.maxRetxAttempts + 1
  total_lt : t.total < 2 ^ 64

/-- At the start nothing is outstanding and nothing runs. -/
theorem wound_start (capacity : ℕ) (retxTimeout : UInt16) (isn : WrappingInt32) :
    (start capacity retxTimeout isn).Wound where
  running_iff := by simp [start, TCPSender.new]
  ddl := by simp [start, TCPSender.new]
  cur := by simp [start, TCPSender.new]
  rto := by simp [start, TCPSender.new]
  idle := fun _ => rfl
  initial := retxTimeout.toNat_lt
  elapsed_le := le_rfl
  counter_le := Nat.zero_le _
  total_lt := by simp [start]

/-- With nothing outstanding the timer does not run. -/
theorem Wound.stopped {t : Timed} (h : t.Wound) (none : t.s.outstandingSegments = []) :
    t.s.timer.isStart = false :=
  Bool.eq_false_iff.mpr fun running => h.running_iff.mp running none

/-- With something outstanding it runs, and its fields are known. -/
theorem Wound.timer_eq {t : Timed} (h : t.Wound) (some : t.s.outstandingSegments ≠ []) :
    t.s.timer = { ddl := t.s.curRto, cur := t.elapsed, isStart := true } := by
  have running := h.running_iff.mpr some
  rw [← h.ddl running, ← h.cur running, ← running]

/-- A call that touches neither the timer nor what it depends on. -/
theorem Wound.congr {t : Timed} (h : t.Wound) {s' : TCPSender}
    (timer : s'.timer = t.s.timer) (outstanding : s'.outstandingSegments = t.s.outstandingSegments)
    (rto : s'.curRto = t.s.curRto)
    (counter : s'.consecutiveRetransTimes = t.s.consecutiveRetransTimes)
    (initial : s'.initialRetransmissionTimeout = t.s.initialRetransmissionTimeout) :
    Wound { t with s := s' } where
  running_iff := by rw [timer, outstanding]; exact h.running_iff
  ddl := by rw [timer, rto]; exact h.ddl
  cur := by rw [timer]; exact h.cur
  rto := by rw [rto, initial, counter]; exact h.rto
  idle := by rw [outstanding, counter]; exact h.idle
  initial := by rw [initial]; exact h.initial
  elapsed_le := h.elapsed_le
  counter_le := by rw [counter]; exact h.counter_le
  total_lt := h.total_lt

/-- What has to be shown while the timer runs. -/
theorem wound_of_running {t : Timed} (some : t.s.outstandingSegments ≠ [])
    (timer : t.s.timer = { ddl := t.s.curRto, cur := t.elapsed, isStart := true })
    (rto : t.s.curRto = t.s.initialRetransmissionTimeout * 2 ^ t.s.consecutiveRetransTimes)
    (initial : t.s.initialRetransmissionTimeout < 2 ^ 16) (elapsed_le : t.elapsed ≤ t.total)
    (counter_le : t.s.consecutiveRetransTimes ≤ TCPConfig.maxRetxAttempts + 1)
    (total_lt : t.total < 2 ^ 64) : t.Wound where
  running_iff := by simp [timer, some]
  ddl := by simp [timer]
  cur := by simp [timer]
  rto := rto
  idle := fun none => absurd none some
  initial := initial
  elapsed_le := elapsed_le
  counter_le := counter_le
  total_lt := total_lt

/-- While nothing is outstanding the clock does not matter. -/
theorem Wound.of_idle {t : Timed} (h : t.Wound) (none : t.s.outstandingSegments = [])
    {elapsed total : ℕ} (elapsed_le : elapsed ≤ total) (total_lt : total < 2 ^ 64) :
    Wound { t with elapsed := elapsed, total := total } where
  running_iff := h.running_iff
  ddl := h.ddl
  cur := fun running => absurd none (h.running_iff.mp running)
  rto := h.rto
  idle := h.idle
  initial := h.initial
  elapsed_le := elapsed_le
  counter_le := h.counter_le
  total_lt := total_lt

/-! ## The three events -/

/-- **`fill_window` starts a timer that does not run**, and no other.  A running timer keeps its
deadline, so new data does not put off a retransmission that is due. -/
theorem Wound.fillWindow {t : Timed} (h : t.Wound) : (t.next .fillWindow).Wound := by
  have effect := t.s.fillWindow_queued
  have hrto : t.s.fillWindow.curRto = t.s.curRto := by rw [effect.frame]
  have hcounter : t.s.fillWindow.consecutiveRetransTimes = t.s.consecutiveRetransTimes := by
    rw [effect.frame]
  have hinitial : t.s.fillWindow.initialRetransmissionTimeout
      = t.s.initialRetransmissionTimeout := by rw [effect.frame]
  have houtstanding := effect.outstanding
  have htimer := effect.timer
  have hnext : t.next .fillWindow = { t with
      s := t.s.fillWindow
      elapsed := if t.s.outstandingSegments = [] then 0 else t.elapsed } := rfl
  rw [hnext]
  generalize t.s.fillCreated.map Created.seg = new at houtstanding htimer
  by_cases none : t.s.outstandingSegments = []
  · rw [if_pos none]
    by_cases nothing : new = []
    · rw [if_pos nothing] at htimer
      rw [nothing, List.append_nil] at houtstanding
      have same := h.congr htimer houtstanding hrto hcounter hinitial
      exact same.of_idle (houtstanding.trans none) (Nat.zero_le _) h.total_lt
    · refine wound_of_running ?_ ?_ ?_ ?_ (Nat.zero_le _) ?_ h.total_lt
      · rw [houtstanding]
        exact List.append_ne_nil_of_right_ne_nil _ nothing
      · rw [htimer, if_neg nothing, hrto, RetransmissionTimer.start, if_neg]
        simp [h.stopped none]
      · rw [hrto, hinitial, hcounter]
        exact h.rto
      · rw [hinitial]
        exact h.initial
      · rw [hcounter]
        exact h.counter_le
  · -- the timer runs already, and starting it again is a no-op
    have running : t.s.timer.start t.s.curRto = t.s.timer := by
      rw [h.timer_eq none]
      rfl
    rw [if_neg none]
    rw [running, ite_self] at htimer
    refine wound_of_running ?_ ?_ ?_ ?_ h.elapsed_le ?_ h.total_lt
    · rw [houtstanding]
      exact List.append_ne_nil_of_left_ne_nil none _
    · rw [htimer, hrto]
      exact h.timer_eq none
    · rw [hrto, hinitial, hcounter]
      exact h.rto
    · rw [hinitial]
      exact h.initial
    · rw [hcounter]
      exact h.counter_le

/-- **An acknowledgment of new data resets everything**; any other changes only the window.  The
timer is started again if something is still outstanding, and stopped if not. -/
theorem Wound.ackReceived {t : Timed} (h : t.Wound) (ackno : WrappingInt32)
    (windowSize : UInt16) : (t.next (.ackReceived ackno windowSize)).Wound := by
  have hnext : t.next (.ackReceived ackno windowSize) = { t with
      s := t.s.ackReceived ackno windowSize
      elapsed := if (t.s.ackReceived ackno windowSize).unaSeqno = t.s.unaSeqno
        then t.elapsed else 0 } := rfl
  rw [hnext]
  unfold TCPSender.ackReceived
  simp only
  split
  · rw [if_pos rfl]
    exact h.congr rfl rfl rfl rfl rfl
  · next acceptable =>
    have advances : unwrap ackno t.s.isn t.s.nextSeqno ≠ t.s.unaSeqno := by omega
    rw [if_neg advances]
    generalize t.s.popAcked _ t.s.bytesInFlight t.s.outstandingSegments = left
    have hrto : t.s.initialRetransmissionTimeout
        = t.s.initialRetransmissionTimeout * 2 ^ 0 := by rw [Nat.pow_zero, Nat.mul_one]
    cases hleft : left.2 with
    | nil =>
        refine ⟨?_, ?_, ?_, hrto, fun _ => rfl, h.initial, Nat.zero_le _, Nat.zero_le _,
          h.total_lt⟩
        · simp [RetransmissionTimer.stop]
        · simp [RetransmissionTimer.stop]
        · simp [RetransmissionTimer.stop]
    | cons seg rest =>
        refine wound_of_running (List.cons_ne_nil _ _) ?_ hrto h.initial (Nat.zero_le _)
          (Nat.zero_le _) h.total_lt
        rfl

/-! ### A tick -/

section Tick

variable {t : Timed}

/-- With nothing outstanding a tick only advances the sender's clock. -/
theorem Wound.tick_idle (h : t.Wound) (none : t.s.outstandingSegments = []) (ms : ℕ) :
    t.s.tick ms = { t.s with curTime := add64 t.s.curTime ms } := by
  have stopped := h.stopped none
  have hticked : t.s.timer.tick ms = t.s.timer := by
    simp [RetransmissionTimer.tick, stopped]
  have hexpired : t.s.timer.expired = false := by
    simp [RetransmissionTimer.expired, stopped]
  simp only [TCPSender.tick, hticked, hexpired]

/-- The timer of a sender with something outstanding, after a tick. -/
theorem Wound.timer_tick (h : t.Wound) (some : t.s.outstandingSegments ≠ []) {ms : ℕ}
    (range : t.total + ms < 2 ^ 64) : t.s.timer.tick ms
      = { ddl := t.s.curRto, cur := t.elapsed + ms, isStart := true } := by
  have := h.elapsed_le
  have hadd : add64 t.elapsed ms = t.elapsed + ms := add64_of_lt (by omega)
  rw [h.timer_eq some]
  simp only [RetransmissionTimer.tick, if_true, hadd]

/-- Before the timeout a tick sends nothing. -/
theorem Wound.tick_early (h : t.Wound) (some : t.s.outstandingSegments ≠ []) {ms : ℕ}
    (range : t.total + ms < 2 ^ 64) (early : t.elapsed + ms < t.s.curRto) :
    t.s.tick ms = { t.s with
      curTime := add64 t.s.curTime ms
      timer := { ddl := t.s.curRto, cur := t.elapsed + ms, isStart := true } } := by
  have hexpired : RetransmissionTimer.expired
      { ddl := t.s.curRto, cur := t.elapsed + ms, isStart := true } = false := by
    simp only [RetransmissionTimer.expired, if_true]
    exact decide_eq_false (by omega)
  simp only [TCPSender.tick, h.timer_tick some range, hexpired]

/-- The timeout doubles without leaving its type. -/
theorem Wound.shifted (h : t.Wound) : (t.s.curRto <<< 1) % 2 ^ 64 = t.s.curRto * 2 := by
  have counter : 2 ^ t.s.consecutiveRetransTimes ≤ 2 ^ (TCPConfig.maxRetxAttempts + 1) :=
    Nat.pow_le_pow_right (by decide) h.counter_le
  have bound : t.s.curRto ≤ 2 ^ 16 * 2 ^ (TCPConfig.maxRetxAttempts + 1) := by
    rw [h.rto]
    exact Nat.mul_le_mul h.initial.le counter
  have small : 2 ^ 16 * 2 ^ (TCPConfig.maxRetxAttempts + 1) * 2 < 2 ^ 64 := by decide
  rw [Nat.shiftLeft_eq, Nat.pow_one, Nat.mod_eq_of_lt (by omega)]

/-- **At the timeout a tick sends the oldest outstanding segment** and restarts the
timer; the counter and the timeout grow unless the window is closed. -/
theorem Wound.tick_due (h : t.Wound) {seg : TCPSegment} {rest : List TCPSegment}
    (some : t.s.outstandingSegments = seg :: rest) {ms : ℕ}
    (range : t.total + ms < 2 ^ 64) (due : t.s.curRto ≤ t.elapsed + ms) :
    t.s.tick ms = { t.s with
      curTime := add64 t.s.curTime ms
      segmentsOut := t.s.segmentsOut ++ [seg]
      consecutiveRetransTimes :=
        t.s.consecutiveRetransTimes + (if t.s.windowSize ≠ 0 then 1 else 0)
      curRto := t.s.curRto * (if t.s.windowSize ≠ 0 then 2 else 1)
      timer :=
        { ddl := t.s.curRto * (if t.s.windowSize ≠ 0 then 2 else 1)
          cur := 0
          isStart := true } } := by
  have hne : t.s.outstandingSegments ≠ [] := some ▸ List.cons_ne_nil _ _
  have hexpired : RetransmissionTimer.expired
      { ddl := t.s.curRto, cur := t.elapsed + ms, isStart := true } = true := by
    simp only [RetransmissionTimer.expired, if_true]
    exact decide_eq_true due
  have hcounter : (t.s.consecutiveRetransTimes + 1) % 2 ^ 32
      = t.s.consecutiveRetransTimes + 1 := by
    have := h.counter_le
    have bound : TCPConfig.maxRetxAttempts + 2 < 2 ^ 32 := by decide
    exact Nat.mod_eq_of_lt (by omega)
  simp only [TCPSender.tick, h.timer_tick hne range, hexpired, some, hcounter, h.shifted]
  by_cases closed : t.s.windowSize = 0
  · simp [closed, RetransmissionTimer.stop, RetransmissionTimer.start]
  · simp [closed, RetransmissionTimer.stop, RetransmissionTimer.start]

end Tick

/-- A tick keeps the timer in step, in each of its three cases: idle, early, due. -/
theorem Wound.tick {t : Timed} (h : t.Wound) {ms : ℕ} (bounds : t.WithinBounds (.tick ms)) :
    (t.next (.tick ms)).Wound := by
  obtain ⟨counter, range⟩ := bounds
  have hnext : t.next (.tick ms) = { t with
      s := t.s.tick ms
      elapsed := if (t.s.tick ms).segmentsOut = t.s.segmentsOut then t.elapsed + ms else 0
      total := t.total + ms } := rfl
  rw [hnext] at counter range ⊢
  cases hout : t.s.outstandingSegments with
  | nil =>
      rw [h.tick_idle hout, if_pos rfl]
      have same : Wound { t with s := { t.s with curTime := add64 t.s.curTime ms } } :=
        h.congr rfl rfl rfl rfl rfl
      exact same.of_idle hout (Nat.add_le_add_right h.elapsed_le ms) range
  | cons seg rest =>
      have some : t.s.outstandingSegments ≠ [] := hout ▸ List.cons_ne_nil _ _
      by_cases due : t.s.curRto ≤ t.elapsed + ms
      · have sent : (t.s.tick ms).segmentsOut ≠ t.s.segmentsOut := by
          rw [h.tick_due hout range due]
          simp
        rw [if_neg sent]
        rw [h.tick_due hout range due] at counter ⊢
        refine wound_of_running some rfl ?_ h.initial (Nat.zero_le _) counter range
        simp only
        rw [h.rto]
        split
        · rw [Nat.pow_succ, Nat.mul_assoc]
        · rw [Nat.mul_one, Nat.add_zero]
      · rw [h.tick_early some range (not_le.mp due), if_pos rfl]
        exact wound_of_running some rfl h.rto h.initial (Nat.add_le_add_right h.elapsed_le ms)
          h.counter_le range

/-- Every call keeps the timer in step. -/
theorem Wound.next {t : Timed} (h : t.Wound) {op : Op} (bounds : t.WithinBounds op) :
    (t.next op).Wound := by
  cases op with
  | write data => exact h.congr rfl rfl rfl rfl rfl
  | endInput => exact h.congr rfl rfl rfl rfl rfl
  | fillWindow => exact h.fillWindow
  | ackReceived ackno windowSize => exact h.ackReceived ackno windowSize
  | tick ms => exact h.tick bounds
  | sendEmptySegment => exact h.congr rfl rfl rfl rfl rfl
  | dequeue => exact h.congr rfl rfl rfl rfl rfl

theorem wound_of_run {capacity : ℕ} {retxTimeout : UInt16} {isn : WrappingInt32} {t : Timed}
    (run : GuardedRun step WithinBounds (start capacity retxTimeout isn) t) : t.Wound :=
  run.invariant Wound (wound_start capacity retxTimeout isn) fun t op t' h bounds hstep => by
    obtain rfl := Except.ok.inj hstep
    exact h.next bounds

/-- What a tick sends, and what it counts. -/
theorem Wound.tick_sends {t : Timed} (h : t.Wound) {ms : ℕ} (range : t.total + ms < 2 ^ 64) :
    (t.s.tick ms).segmentsOut = t.s.segmentsOut ++
        (if t.s.curRto ≤ t.elapsed + ms then t.s.outstandingSegments.head?.toList else []) ∧
      (t.s.tick ms).consecutiveRetransTimes = t.s.consecutiveRetransTimes +
        (if t.s.outstandingSegments ≠ [] ∧ t.s.curRto ≤ t.elapsed + ms ∧ t.s.windowSize ≠ 0
          then 1 else 0) := by
  cases hout : t.s.outstandingSegments with
  | nil =>
      rw [h.tick_idle hout]
      simp
  | cons seg rest =>
      have some : t.s.outstandingSegments ≠ [] := hout ▸ List.cons_ne_nil _ _
      by_cases due : t.s.curRto ≤ t.elapsed + ms
      · rw [h.tick_due hout range due]
        simp [due]
      · rw [h.tick_early some range (not_le.mp due)]
        simp [due]

/-- **Retransmission timer and backoff.**  In every run that keeps the counter and the
accumulated time within their bounds, and in every state reached:

* the timer runs exactly while something is outstanding, and then its deadline is
  `_cur_rto`;
* `_cur_rto` is the initial timeout, doubled as often as the counter says;
* with nothing outstanding the counter is zero;
* a tick sends the oldest outstanding segment if the time since the timer was last
  started or restarted reaches `_cur_rto`, and nothing otherwise, and the counter grows by
  one exactly if it does so with a window that is not closed. -/
theorem retransmission_timer (capacity : ℕ) (retxTimeout : UInt16) (isn : WrappingInt32)
    {t : Timed} (run : GuardedRun step WithinBounds (start capacity retxTimeout isn) t) :
    (t.s.timer.isStart = true ↔ t.s.outstandingSegments ≠ []) ∧
    (t.s.timer.isStart = true → t.s.timer.ddl = t.s.curRto) ∧
    t.s.curRto = t.s.initialRetransmissionTimeout * 2 ^ t.s.consecutiveRetransTimes ∧
    (t.s.outstandingSegments = [] → t.s.consecutiveRetransTimes = 0) ∧
    ∀ ms, t.total + ms < 2 ^ 64 →
      (t.s.tick ms).segmentsOut = t.s.segmentsOut ++
          (if t.s.curRto ≤ t.elapsed + ms then t.s.outstandingSegments.head?.toList else []) ∧
      (t.s.tick ms).consecutiveRetransTimes = t.s.consecutiveRetransTimes +
          (if t.s.outstandingSegments ≠ [] ∧ t.s.curRto ≤ t.elapsed + ms ∧ t.s.windowSize ≠ 0
            then 1 else 0) := by
  have wound := wound_of_run run
  exact ⟨wound.running_iff, wound.ddl, wound.rto, wound.idle,
    fun ms range => wound.tick_sends range⟩

/-- The SYN is sent again after one second and, with the timeout doubled, two seconds
later. -/
theorem retransmission_timer_backoff :
    ∃ t, execute step (start 100 1000 ⟨0⟩) [.fillWindow, .tick 999, .tick 1, .tick 1999] = .ok t ∧
      t.s.segmentsOut.length = 2 ∧ t.s.curRto = 2000 ∧
      (t.s.tick 1).segmentsOut = t.s.segmentsOut ++ t.s.outstandingSegments := by
  obtain ⟨t, done, admitted, sent, rto, elapsed, total, one⟩ : ∃ t,
      execute step (start 100 1000 ⟨0⟩) [.fillWindow, .tick 999, .tick 1, .tick 1999] = .ok t ∧
      Admitted step WithinBounds (start 100 1000 ⟨0⟩)
        [.fillWindow, .tick 999, .tick 1, .tick 1999] ∧
      t.s.segmentsOut.length = 2 ∧ t.s.curRto = 2000 ∧ t.elapsed = 1999 ∧ t.total = 2999 ∧
      t.s.outstandingSegments.head?.toList = t.s.outstandingSegments :=
    EndsIn.exists_ok (by decide +kernel)
  obtain ⟨-, -, -, -, ticks⟩ :=
    retransmission_timer 100 1000 ⟨0⟩ (GuardedRun.of_execute admitted done)
  have due := (ticks 1 (by omega)).1
  rw [if_pos (by omega), one] at due
  exact ⟨t, done, sent, rto, due⟩

end Timed

end TCPSender

end Sponge
