import Sponge.TCPConnection.Machine

/-!
# Ready to go on

Between two operations a connection is **poised**: `fill_window` has sent all that the window
allows, and the retransmission timer runs as long as something is outstanding.  So whatever is
missing at the peer, nobody has to call anything for it to be sent: time has to pass.

`step_moved` says what an operation can do to the sender, with or without an error, and `Poised`
follows from it.  `Armed.tick_expires` and `Exhausted.fillWindow_segmentsOut` are what it is for.

### Nobody has to be called

A protocol that recovers from losses needs somebody to act, and the only call that is sure
to come is `tick`.  So recovery asks for two things of every reachable state.  If something
is outstanding, the timer runs, and there is a length of time after which it expires; that
length fits the type of the clock, which is why `Armed` keeps the bounds.  If nothing is
outstanding and something remains to be sent, then the window would have been filled;
`Exhausted` says that it was.

Unlike `Live`, this holds with an error too: `step_moved` looks at the sender only and
leaves out the queue and the error flag.
-/

namespace Sponge

namespace TCPSender

variable {s : TCPSender}

/-! ## What `fill_window` leaves alone -/

/-- Filling acknowledges nothing. -/
theorem fillWindow_unaSeqno (s : TCPSender) : s.fillWindow.unaSeqno = s.unaSeqno := by
  rw [s.fillWindow_queued.frame]

theorem fillWindow_windowSize (s : TCPSender) : s.fillWindow.windowSize = s.windowSize := by
  rw [s.fillWindow_queued.frame]

/-- Filling counts no retransmission. -/
theorem fillWindow_retries (s : TCPSender) :
    s.fillWindow.consecutiveRetransTimes = s.consecutiveRetransTimes := by
  rw [s.fillWindow_queued.frame]

/-! ## The timer -/

/-- The timer runs while something is outstanding, and can be waited for.  The bounds are those of
the source's types; by them, the time that is left is one that a `tick` can be given. -/
structure Armed (s : TCPSender) : Prop where
  running : s.outstandingSegments ≠ [] → s.timer.isStart = true
  cur_lt : s.timer.cur < 2 ^ 64
  ddl_lt : s.timer.ddl < 2 ^ 64
  rto_lt : s.curRto < 2 ^ 64
  initial_lt : s.initialRetransmissionTimeout < 2 ^ 64

/-- Nothing is outstanding. -/
theorem armed_new (capacity : ℕ) (retxTimeout : UInt16) (isn : WrappingInt32) :
    Armed (new capacity retxTimeout isn) := by
  have short := retxTimeout.toNat_lt
  refine ⟨fun some => absurd rfl some, ?_, ?_, ?_, ?_⟩ <;> simp only [new] <;> omega

/-- What is queued starts the timer. -/
theorem Armed.fillWindow (h : s.Armed) : s.fillWindow.Armed := by
  have queued := s.fillWindow_queued
  generalize s.fillCreated.map Created.seg = new at queued
  have hrto : s.fillWindow.curRto = s.curRto := by rw [queued.frame]
  have hinitial : s.fillWindow.initialRetransmissionTimeout = s.initialRetransmissionTimeout := by
    rw [queued.frame]
  refine ⟨fun some => ?_, ?_, ?_, hrto ▸ h.rto_lt, hinitial ▸ h.initial_lt⟩ <;>
    rw [queued.timer] <;> split
  · next none =>
    rw [queued.outstanding, none, List.append_nil] at some
    exact h.running some
  · unfold RetransmissionTimer.start
    split
    · assumption
    · rfl
  · exact h.cur_lt
  · unfold RetransmissionTimer.start
    split
    · exact h.cur_lt
    · exact Nat.two_pow_pos 64
  · exact h.ddl_lt
  · unfold RetransmissionTimer.start
    split
    · exact h.ddl_lt
    · exact h.rto_lt

/-- An acknowledgment of new data restarts the timer unless nothing is left. -/
theorem Armed.ackReceived (h : s.Armed) (ackno : WrappingInt32) (windowSize : UInt16) :
    (s.ackReceived ackno windowSize).Armed := by
  unfold TCPSender.ackReceived
  simp only
  split
  · exact ⟨h.running, h.cur_lt, h.ddl_lt, h.rto_lt, h.initial_lt⟩
  · refine ⟨fun some => ?_, ?_, ?_, h.initial_lt, h.initial_lt⟩ <;> simp only
    · rw [if_neg (mt List.isEmpty_iff.mp some)]
      rfl
    · split <;> exact Nat.two_pow_pos 64
    · split
      · exact Nat.two_pow_pos 64
      · exact h.initial_lt

/-- The clock wraps around instead of leaving its type. -/
theorem Armed.tick (h : s.Armed) (ms : ℕ) : (s.tick ms).Armed := by
  have ticked : (s.timer.tick ms).cur < 2 ^ 64 ∧ (s.timer.tick ms).ddl < 2 ^ 64 ∧
      (s.timer.isStart = true → (s.timer.tick ms).isStart = true) := by
    unfold RetransmissionTimer.tick
    split
    · exact ⟨Nat.mod_lt _ (Nat.two_pow_pos 64), h.ddl_lt, id⟩
    · exact ⟨h.cur_lt, h.ddl_lt, id⟩
  have doubled : (s.curRto <<< 1) % 2 ^ 64 < 2 ^ 64 := Nat.mod_lt _ (Nat.two_pow_pos 64)
  unfold TCPSender.tick
  simp only
  split
  · split
    · exact ⟨fun _ => rfl, Nat.two_pow_pos 64, doubled, doubled, h.initial_lt⟩
    · exact ⟨fun _ => rfl, Nat.two_pow_pos 64, h.rto_lt, h.rto_lt, h.initial_lt⟩
  · exact ⟨fun some => ticked.2.2 (h.running some), ticked.1, ticked.2.1, h.rto_lt, h.initial_lt⟩

/-- **The timer can be waited for.**  When it expires, the oldest segment is sent again.  One more
retransmission must be allowed, or the connection would be reset instead. -/
theorem Armed.tick_expires (h : s.Armed) {seg : TCPSegment} {rest : List TCPSegment}
    (outstanding : s.outstandingSegments = seg :: rest)
    (retries : s.consecutiveRetransTimes < TCPConfig.maxRetxAttempts) :
    ∃ ms < 2 ^ 64, (s.tick ms).segmentsOut = s.segmentsOut ++ [seg] ∧
      (s.tick ms).consecutiveRetransTimes ≤ TCPConfig.maxRetxAttempts := by
  have hmax : TCPConfig.maxRetxAttempts = 8 := rfl
  have running : s.timer.isStart = true := h.running (by simp [outstanding])
  have hcur := h.cur_lt
  have hddl := h.ddl_lt
  have expired : (s.timer.tick (s.timer.ddl - s.timer.cur)).expired = true := by
    rw [RetransmissionTimer.tick, if_pos running, RetransmissionTimer.expired, if_pos running,
      decide_eq_true_eq, ge_iff_le, add64]
    rw [Nat.mod_eq_of_lt (by omega)]
    show s.timer.ddl ≤ s.timer.cur + (s.timer.ddl - s.timer.cur)
    omega
  refine ⟨s.timer.ddl - s.timer.cur, by omega, ?_⟩
  unfold TCPSender.tick
  simp only [expired, outstanding]
  split
  · refine ⟨rfl, ?_⟩
    show (s.consecutiveRetransTimes + 1) % 2 ^ 32 ≤ _
    omega
  · exact ⟨rfl, retries.le⟩

/-! ## The segments -/

/-- No segment that may be sent again carries the RST flag. -/
def Unreset (s : TCPSender) : Prop := ∀ seg ∈ s.outstandingSegments, seg.header.rst = false

/-- A pass does not touch the RST flag of the segment object. -/
theorem cut_rst (window : ℕ) (s : TCPSender) (seg : TCPSegment) :
    (s.cut window seg).2.header.rst = seg.header.rst := by
  have stamped : (s.stamp seg).2.header.rst = seg.header.rst := by
    unfold stamp
    split <;> rfl
  unfold cut finish
  split <;> exact stamped

theorem unreset_fillLoop {window : ℕ} {seg : TCPSegment} (h : s.Unreset)
    (noRst : seg.header.rst = false) : (fillLoop window s seg).Unreset := by
  have pass : ∀ {s : TCPSender} {seg : TCPSegment}, s.Unreset → seg.header.rst = false →
      (s.fillStep window seg).1.Unreset ∧ (s.fillStep window seg).2.header.rst = false := by
    intro s seg h noRst
    have cut : (s.cut window seg).2.header.rst = false := (cut_rst window s seg).trans noRst
    refine ⟨fun x hx => ?_, cut⟩
    rw [(fillStep_queued window s seg).outstanding, passEmits] at hx
    rcases List.mem_append.mp hx with hx | hx
    · exact h x hx
    · split at hx
      · exact List.mem_singleton.mp hx ▸ cut
      · exact absurd hx List.not_mem_nil
  induction s, seg using fillLoop.induct window with
  | case1 s seg ended =>
      rw [fillLoop, if_pos ended]
      exact h
  | case2 s seg going more ih =>
      rw [fillLoop, if_neg going, dif_pos more]
      exact ih (pass h noRst).1 (pass h noRst).2
  | case3 s seg going done =>
      rw [fillLoop, if_neg going, dif_neg done]
      exact (pass h noRst).1

theorem Unreset.fillWindow (h : s.Unreset) : s.fillWindow.Unreset := by
  unfold TCPSender.fillWindow
  split
  · exact h
  · exact unreset_fillLoop h rfl

/-! ## The window -/

/-- **A sender that has used up its window has nothing to add.**  In this sense filling the window
is idempotent. -/
theorem Exhausted.fillWindow_segmentsOut {W : List UInt8} (h : s.Exhausted) (synced : Synced W s)
    (sent : s.nextSeqno ≠ 0) : s.fillWindow.segmentsOut = s.segmentsOut := by
  obtain ⟨new, filled, -⟩ := synced.fillWindow fun unsent => absurd unsent sent
  rcases h with ended | full | ⟨empty, notEnded⟩
  · rw [fillWindow_of_ended ended]
  · rw [show s.fillWindow = s from if_pos full]
  · have none : new = [] := by
      refine List.eq_nil_iff_forall_not_mem.mpr fun seg hseg => ?_
      have fin := filled.fin_of_empty sent (synced.buffers.inv.bufferEmpty_iff.mp empty) hseg
      have closed := (filled.finished ⟨seg, hseg, fin⟩).1
      rw [filled.consumed.frame] at closed
      cases notEnded.symm.trans closed
    rw [filled.segmentsOut, none, List.append_nil]

end TCPSender

namespace TCPConnection

open TCPSender

variable {W : List UInt8} {c c' : TCPConnection} {op : Op}

/-! ## What an operation does to the sender -/

/-- The sender after an operation, but for its queue and the error flag of its stream. -/
inductive Moved (c : TCPConnection) : Op → TCPSender → Prop
  | same {op : Op} : Moved c op c.sender
  | filled {op : Op} {stream : ByteStream} (restocked : c.Restocked op stream) :
      Moved c op { c.sender with stream := stream }.fillWindow
  | ticked (ms : ℕ) : Moved c (.tick ms) (c.sender.tick ms)
  | answered (seg : TCPSegment) : Moved c (.segment seg) (acknowledge c.sender seg).fillWindow

/-- Two senders that differ in their queues and error flags at most. -/
def SameButQueue (s s' : TCPSender) : Prop :=
  s' = { s with
    segmentsOut := s'.segmentsOut
    stream := { s.stream with error := s'.stream.error } }

/-- **Whatever is called, the sender is left as it was, filled, ticked, or answered from.**  What
becomes of its queue is another matter, and does not concern the timer or the window. -/
theorem step_moved (stepped : c.step op = .ok c') :
    ∃ s, Moved c op s ∧ SameButQueue s c'.sender := by
  cases op with
  | connect =>
      obtain rfl := Except.ok.inj stepped
      exact ⟨_, .filled (show c.Restocked .connect c.sender.stream from rfl), rfl⟩
  | write data =>
      obtain rfl := Except.ok.inj stepped
      exact ⟨_, .filled (show c.Restocked (.write data) (c.sender.stream.write data).2 from rfl),
        rfl⟩
  | endInputStream =>
      obtain rfl := Except.ok.inj stepped
      refine ⟨_, .filled (show c.Restocked .endInputStream c.sender.stream.endInput from rfl), ?_⟩
      unfold endInputStream
      simp only
      split
      · rfl
      · split <;> rfl
  | tick ms =>
      obtain rfl := Except.ok.inj stepped
      refine ⟨_, .ticked ms, ?_⟩
      unfold TCPConnection.tick sendRstSegmenet
      simp only
      split
      · split <;> rfl
      · rfl
  | read len =>
      obtain rfl := Except.ok.inj stepped
      exact ⟨_, .same, rfl⟩
  | segment seg =>
      rcases segmentReceived_cases stepped with rfl | rfl | rfl | ⟨receiver, -, -, rfl⟩
      · exact ⟨_, .same, rfl⟩
      · exact ⟨_, .same, rfl⟩
      · exact ⟨_, .same, rfl⟩
      · refine ⟨_, .answered seg, ?_⟩
        rw [respond_sender]
        rfl

/-! ## Poised -/

/-- **Ready to go on**: the window is used up, and the timer runs while something is outstanding.
A connection in such a state need not be helped by its owner: time alone makes it send again. -/
structure Poised (c : TCPConnection) : Prop where
  exhausted : c.sender.Exhausted
  armed : c.sender.Armed
  unreset : c.sender.Unreset

/-- A new connection has nothing to send yet: its stream is open and empty. -/
theorem poised_new (cfg : TCPConfig) : (new cfg).Poised where
  exhausted := .inr (.inr ⟨rfl, rfl⟩)
  armed := armed_new _ _ _
  unreset := fun _ h => absurd h List.not_mem_nil

/-- **Every operation leaves a connection poised**, because every operation that could open the
window fills it as well. -/
theorem Poised.step (h : c.Poised) (outbound : Outbound W c) (stepped : c.step op = .ok c') :
    c'.Poised := by
  obtain ⟨s, moved, frame⟩ := step_moved stepped
  suffices poised : s.Exhausted ∧ s.Armed ∧ s.Unreset by
    obtain ⟨exhausted, armed, unreset⟩ := poised
    rw [SameButQueue] at frame
    exact ⟨frame ▸ exhausted, frame ▸ ⟨armed.running, armed.cur_lt, armed.ddl_lt, armed.rto_lt,
      armed.initial_lt⟩, frame ▸ unreset⟩
  cases moved with
  | same => exact ⟨h.exhausted, h.armed, h.unreset⟩
  | filled restocked =>
      refine ⟨(outbound.restocked restocked).exhausts (outbound.synAlone _), Armed.fillWindow ?_,
        Unreset.fillWindow h.unreset⟩
      exact ⟨h.armed.running, h.armed.cur_lt, h.armed.ddl_lt, h.armed.rto_lt, h.armed.initial_lt⟩
  | ticked ms =>
      obtain ⟨-, -, -, ticked⟩ := c.sender.tick_effect ms
      refine ⟨?_, h.armed.tick ms, ?_⟩ <;> rw [ticked]
      · exact h.exhausted
      · exact h.unreset
  | answered seg =>
      obtain ⟨suffix, -⟩ := acknowledge_effect c.sender seg
      refine ⟨(outbound.synced_acknowledge seg).exhausts (outbound.synAlone_acknowledge seg),
        Armed.fillWindow ?_, Unreset.fillWindow fun x hx => h.unreset x (suffix.subset hx)⟩
      unfold acknowledge
      split
      · exact h.armed.ackReceived _ _
      · exact h.armed

end TCPConnection

end Sponge
