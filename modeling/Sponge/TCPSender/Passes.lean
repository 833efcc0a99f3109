import Sponge.TCPSender.Session

/-!
# The passes of `fill_window`

`fill_window` declares one segment object in front of its loop, and every pass only
ever sets flags on it.  `fillPasses` lists the sender and the object each pass finds,
and `fillCreated` the segments the passes create, each with the absolute sequence
number it starts at and the amount by which `_next_seqno` advances.

`Queued` is the effect of `fill_window` on the queues and the timer of a sender in
**any** state, without the accounting invariant.

* `syn_first_only` — in sessions that never meet the unsent SYN together with a window
  and a buffer for more than one segment, and ask for no empty segment before the SYN,
  every segment placed on the queue carries the SYN exactly if it starts at number `0`,
  and is as long as `_next_seqno` advanced.
* `syn_leaks` — in the states excluded, the SYN flag of the first segment stays on the
  next one.

### Two views of one loop

`TCPSender.Accounting` follows the loop under the condition that the SYN goes alone, and
then the segment object is clean at the start of every pass.  Here the object is followed
whatever it carries.  That is what it takes to say which sessions are free of the leak, and
the condition that `SynFits` puts on `fill_window` is weaker than `SynAlone`: a SYN may
carry data if one segment holds all that can be sent.

### Why a log of created segments

A segment on the queue does not tell where it was meant to start: its number is wrapped, and
a leaked flag makes it longer than it should be.  `Created` records the position and the
advance at the moment of creation, from the counters of the sender and not from the segment,
and soundness compares the two.
-/

namespace Sponge

open Runs

/-- A timer that runs is not restarted. -/
theorem RetransmissionTimer.start_start (t : RetransmissionTimer) (ddl : ℕ) :
    (t.start ddl).start ddl = t.start ddl := by
  unfold start
  cases running : t.isStart <;> simp [running]

namespace TCPSender

/-- The condition under which a pass sends its segment. -/
def Emits (seg : TCPSegment) : Prop :=
  seg.payload.length ≠ 0 ∨ seg.header.syn = true ∨ seg.header.fin = true

instance (seg : TCPSegment) : Decidable (Emits seg) := inferInstanceAs (Decidable (_ ∨ _))

/-- A pass sends its segment exactly if it occupies sequence numbers. -/
theorem emits_iff {seg : TCPSegment} : Emits seg ↔ seg.lengthInSequenceSpace ≠ 0 := by
  unfold Emits TCPSegment.lengthInSequenceSpace
  cases seg.header.syn <;> cases seg.header.fin <;> simp

theorem emit_of_emits {s : TCPSender} {seg : TCPSegment} (h : Emits seg) :
    s.emit seg = { s with
      segmentsOut := s.segmentsOut ++ [seg]
      outstandingSegments := s.outstandingSegments ++ [seg]
      timer := s.timer.start s.curRto } :=
  if_pos h

theorem emit_of_not_emits {s : TCPSender} {seg : TCPSegment} (h : ¬ Emits seg) :
    s.emit seg = s :=
  if_neg h

/-! ## The queues and the timer -/

/-- **The effect of `fill_window` in any state**: the segments `new` join both queues,
and the timer is started if there are any. -/
structure Queued (s : TCPSender) (new : List TCPSegment) (s' : TCPSender) : Prop where
  segmentsOut : s'.segmentsOut = s.segmentsOut ++ new
  outstanding : s'.outstandingSegments = s.outstandingSegments ++ new
  timer : s'.timer = if new = [] then s.timer else s.timer.start s.curRto
  occupied : ∀ seg ∈ new, seg.lengthInSequenceSpace ≠ 0
  next_le : s.nextSeqno ≤ s'.nextSeqno
  stream : s.stream.Inv → s'.stream.Inv
  error : s'.stream.error = s.stream.error
  frame : s' = { s with
    segmentsOut := s'.segmentsOut
    outstandingSegments := s'.outstandingSegments
    nextSeqno := s'.nextSeqno
    bytesInFlight := s'.bytesInFlight
    stream := s'.stream
    timer := s'.timer
    isTransmissionEnded := s'.isTransmissionEnded }

/-- Nothing was sent. -/
theorem queued_refl (s : TCPSender) : Queued s [] s where
  segmentsOut := (List.append_nil _).symm
  outstanding := (List.append_nil _).symm
  timer := (if_pos rfl).symm
  occupied := by simp
  next_le := le_rfl
  stream := id
  error := rfl
  frame := rfl

/-- Effects one after the other: the timer is started by the first that sends something. -/
theorem Queued.trans {s s' s'' : TCPSender} {new new' : List TCPSegment}
    (h : Queued s new s') (h' : Queued s' new' s'') : Queued s (new ++ new') s'' where
  segmentsOut := by rw [h'.segmentsOut, h.segmentsOut, List.append_assoc]
  outstanding := by rw [h'.outstanding, h.outstanding, List.append_assoc]
  timer := by
    have hrto : s'.curRto = s.curRto := by rw [h.frame]
    rw [h'.timer, h.timer, hrto]
    by_cases hnew : new = []
    · subst hnew
      rw [if_pos rfl, List.nil_append]
    · rw [if_neg hnew, RetransmissionTimer.start_start, ite_self,
        if_neg (List.append_ne_nil_of_left_ne_nil hnew _)]
  occupied := fun seg hseg => (List.mem_append.mp hseg).elim (h.occupied seg) (h'.occupied seg)
  next_le := h.next_le.trans h'.next_le
  stream := h'.stream ∘ h.stream
  error := h'.error.trans h.error
  frame := by rw [h'.frame, h.frame]

/-- What a pass does before `emit`, in any state.  It is what remains of `Cut` where a subtraction
may wrap around, or the flags of the segment object are not clear. -/
structure CutAny (s t : TCPSender) : Prop where
  next_le : s.nextSeqno ≤ t.nextSeqno
  stream : s.stream.Inv → t.stream.Inv
  error : t.stream.error = s.stream.error
  frame : t = { s with
    nextSeqno := t.nextSeqno
    bytesInFlight := t.bytesInFlight
    stream := t.stream
    isTransmissionEnded := t.isTransmissionEnded }

theorem CutAny.trans {s t u : TCPSender} (h : CutAny s t) (h' : CutAny t u) : CutAny s u where
  next_le := h.next_le.trans h'.next_le
  stream := h'.stream ∘ h.stream
  error := h'.error.trans h.error
  frame := by rw [h'.frame, h.frame]

/-- The queues and the error flag agree. -/
def SameQueues (s s' : TCPSender) : Prop :=
  s'.segmentsOut = s.segmentsOut ∧ s'.outstandingSegments = s.outstandingSegments ∧
    s'.stream.error = s.stream.error

/-- Before `emit`, a pass leaves the queues alone. -/
theorem CutAny.sameQueues {s t : TCPSender} (h : CutAny s t) : SameQueues s t := by
  refine ⟨?_, ?_, h.error⟩
  · rw [h.frame]
  · rw [h.frame]

/-- The parts before `emit` change counters and the stream only. -/
theorem cut_any (window : ℕ) (s : TCPSender) (seg : TCPSegment) :
    CutAny s (s.cut window seg).1 := by
  have stamped : CutAny s (s.stamp seg).1 := by
    unfold stamp
    split
    · exact ⟨Nat.le_succ _, id, rfl, rfl⟩
    · exact ⟨le_rfl, id, rfl, rfl⟩
  have loaded : ∀ (t : TCPSender) (x : TCPSegment), CutAny t (load window t x).1 :=
    fun t x => ⟨Nat.le_add_right _ _, fun inv => inv.popOutput _, rfl, rfl⟩
  have finished : ∀ (t : TCPSender) (x : TCPSegment), CutAny t (finish window t x).1 := by
    intro t x
    unfold finish
    split
    · exact ⟨Nat.le_succ _, id, rfl, rfl⟩
    · exact ⟨le_rfl, id, rfl, rfl⟩
  exact stamped.trans ((loaded _ _).trans (finished _ _))

/-- The segment a pass sends, if any. -/
def passEmits (window : ℕ) (s : TCPSender) (seg : TCPSegment) : List TCPSegment :=
  if Emits (s.cut window seg).2 then [(s.cut window seg).2] else []

/-- One pass queues what it emits. -/
theorem fillStep_queued (window : ℕ) (s : TCPSender) (seg : TCPSegment) :
    Queued s (s.passEmits window seg) (s.fillStep window seg).1 := by
  have cut := cut_any window s seg
  obtain ⟨hout, houtstanding, herror⟩ := cut.sameQueues
  have htimer : (s.cut window seg).1.timer = s.timer := by rw [cut.frame]
  have hrto : (s.cut window seg).1.curRto = s.curRto := by rw [cut.frame]
  rw [fillStep_eq]
  unfold passEmits
  by_cases emits : Emits (s.cut window seg).2
  · rw [if_pos emits, emit_of_emits emits]
    refine ⟨?_, ?_, ?_, ?_, cut.next_le, cut.stream, herror, ?_⟩
    · rw [hout]
    · rw [houtstanding]
    · rw [htimer, hrto, if_neg (List.cons_ne_nil _ _)]
    · intro x hx
      rw [List.mem_singleton.mp hx]
      exact emits_iff.mp emits
    · rw [cut.frame]
  · rw [if_neg emits, emit_of_not_emits emits]
    refine ⟨?_, ?_, ?_, by simp, cut.next_le, cut.stream, herror, ?_⟩
    · rw [hout, List.append_nil]
    · rw [houtstanding, List.append_nil]
    · rw [htimer, if_pos rfl]
    · rw [cut.frame]

/-! ## The passes -/

/-- The passes of the loop: the sender and the segment object each of them finds. -/
def fillPasses (window : ℕ) (s : TCPSender) (seg : TCPSegment) :
    List (TCPSender × TCPSegment) :=
  if s.isTransmissionEnded then []
  else if _more : (s.fillStep window seg).1.MoreToFill window then
    (s, seg) :: fillPasses window (s.fillStep window seg).1 (s.fillStep window seg).2
  else [(s, seg)]
  termination_by s.stream.bufferSize
  decreasing_by exact fillStep_decreases _more

/-- The passes of a call of `fill_window`; there is none if the window is full. -/
def windowPasses (s : TCPSender) : List (TCPSender × TCPSegment) :=
  if s.actualWindowSize ≤ s.bytesInFlight then []
  else fillPasses s.actualWindowSize s {}

/-- **The loop ends where its last pass does.**  With this the log of the passes is not a second
account of the loop, but the loop itself taken apart. -/
theorem fillLoop_eq_last (window : ℕ) (s : TCPSender) (seg : TCPSegment) :
    fillLoop window s seg =
      ((fillPasses window s seg).map fun p => (p.1.fillStep window p.2).1).getLastD s := by
  induction s, seg using TCPSender.fillLoop.induct window with
  | case1 s seg ended => rw [fillLoop, fillPasses, if_pos ended, if_pos ended]; rfl
  | case2 s seg running more ih =>
      rw [fillLoop, fillPasses, if_neg running, if_neg running, dif_pos more, dif_pos more, ih,
        List.map_cons, List.getLastD_cons]
  | case3 s seg running done =>
      rw [fillLoop, fillPasses, if_neg running, if_neg running, dif_neg done, dif_neg done]
      rfl

/-- The same for a call of `fill_window`. -/
theorem fillWindow_eq_last (s : TCPSender) :
    s.fillWindow = (s.windowPasses.map fun p =>
      (p.1.fillStep s.actualWindowSize p.2).1).getLastD s := by
  unfold fillWindow windowPasses
  split
  · rfl
  · exact fillLoop_eq_last _ s _

/-- A segment that was created, the absolute sequence number it starts at, and the
amount by which `_next_seqno` advanced. -/
structure Created where
  seg : TCPSegment
  start : ℕ
  advance : ℕ
  deriving Repr, DecidableEq

/-- What a pass creates. -/
def passCreates (window : ℕ) (p : TCPSender × TCPSegment) : List Created :=
  (p.1.passEmits window p.2).map fun seg =>
    { seg := seg
      start := p.1.nextSeqno
      advance := (p.1.fillStep window p.2).1.nextSeqno - p.1.nextSeqno }

theorem map_seg_passCreates (window : ℕ) (p : TCPSender × TCPSegment) :
    (passCreates window p).map Created.seg = p.1.passEmits window p.2 := by
  simp [passCreates, Function.comp_def]

/-- What a call of `fill_window` creates. -/
def fillCreated (s : TCPSender) : List Created :=
  s.windowPasses.flatMap (passCreates s.actualWindowSize)

/-- The loop queues what its passes create, in order. -/
theorem fillLoop_queued (window : ℕ) (s : TCPSender) (seg : TCPSegment) :
    Queued s (((fillPasses window s seg).flatMap (passCreates window)).map Created.seg)
      (fillLoop window s seg) := by
  induction s, seg using TCPSender.fillLoop.induct window with
  | case1 s seg ended =>
      rw [fillLoop, fillPasses, if_pos ended, if_pos ended]
      exact queued_refl s
  | case2 s seg running more ih =>
      rw [fillLoop, fillPasses, if_neg running, if_neg running, dif_pos more, dif_pos more,
        List.flatMap_cons, List.map_append, map_seg_passCreates]
      exact (fillStep_queued window s seg).trans ih
  | case3 s seg running done =>
      rw [fillLoop, fillPasses, if_neg running, if_neg running, dif_neg done, dif_neg done,
        List.flatMap_cons, List.flatMap_nil, List.append_nil, map_seg_passCreates]
      exact fillStep_queued window s seg

/-- **What `fill_window` adds to the queues is what its passes create.**  This holds in every
state of the sender, sound or not. -/
theorem fillWindow_queued (s : TCPSender) :
    Queued s (s.fillCreated.map Created.seg) s.fillWindow := by
  unfold fillWindow fillCreated windowPasses
  split
  · exact queued_refl s
  · exact fillLoop_queued _ s _

/-! ## What a pass creates -/

section Pass

variable {window : ℕ} {s : TCPSender} {seg : TCPSegment}

/-- **A pass that finds no flag on the segment object** numbers its segment, sets the
SYN exactly on the first one, and advances `_next_seqno` by its length. -/
theorem cut_numbers (window : ℕ) (s : TCPSender) (noSyn : seg.header.syn = false)
    (noFin : seg.header.fin = false) :
    (s.cut window seg).2.header.seqno = wrap s.nextSeqno s.isn ∧
      ((s.cut window seg).2.header.syn = true ↔ s.nextSeqno = 0) ∧
      (s.cut window seg).1.nextSeqno
        = s.nextSeqno + (s.cut window seg).2.lengthInSequenceSpace := by
  have finished : ∀ (t : TCPSender) (x : TCPSegment), x.header.fin = false →
      (t.finish window x).2.header.seqno = x.header.seqno ∧
        (t.finish window x).2.header.syn = x.header.syn ∧
        (t.finish window x).1.nextSeqno + x.lengthInSequenceSpace
          = t.nextSeqno + (t.finish window x).2.lengthInSequenceSpace := by
    intro t x hfin
    unfold finish
    split
    · refine ⟨rfl, rfl, ?_⟩
      simp only [TCPSegment.lengthInSequenceSpace, hfin, if_true, Bool.false_eq_true, if_false]
      omega
    · exact ⟨rfl, rfl, rfl⟩
  obtain ⟨hseqno, hsyn, hnext⟩ := finished (load window (s.stamp seg).1 (s.stamp seg).2).1
    (load window (s.stamp seg).1 (s.stamp seg).2).2 (by
      rw [stamp_eq s noSyn]
      exact noFin)
  refine ⟨?_, ?_, ?_⟩
  · refine hseqno.trans ?_
    rw [stamp_eq s noSyn]
    rfl
  · rw [cut, hsyn, stamp_eq s noSyn]
    exact decide_eq_true_iff
  · have loaded : (load window (s.stamp seg).1 (s.stamp seg).2).1.nextSeqno = s.nextSeqno
        + (load window (s.stamp seg).1 (s.stamp seg).2).2.lengthInSequenceSpace := by
      rw [stamp_eq s noSyn]
      simp only [load, TCPSegment.lengthInSequenceSpace, synCount, noFin, decide_eq_true_eq,
        Bool.false_eq_true, if_false]
      omega
    rw [loaded] at hnext
    rw [cut]
    omega

/-- A pass that finds bytes left in the stream has set no FIN. -/
theorem cut_fin_of_more (noFin : seg.header.fin = false)
    (more : (s.fillStep window seg).1.MoreToFill window) :
    (s.cut window seg).2.header.fin = false := by
  have buffered := more.1
  rw [fillStep_eq, emit_stream, cut, finish_stream] at buffered
  rw [cut, finish_of_buffered window _ buffered]
  unfold load stamp
  split
  · exact noFin
  · exact noFin

/-- No pass leaves `_next_seqno` at zero. -/
theorem fillStep_nextSeqno_ne_zero : (s.fillStep window seg).1.nextSeqno ≠ 0 := by
  rw [fillStep_eq, emit_nextSeqno]
  have stamped : (s.stamp seg).1.nextSeqno ≠ 0 := by
    unfold stamp
    split
    · exact Nat.succ_ne_zero _
    · next sent => exact sent
  have loaded : (s.stamp seg).1.nextSeqno
      ≤ (load window (s.stamp seg).1 (s.stamp seg).2).1.nextSeqno := Nat.le_add_right _ _
  have finished : ∀ (t : TCPSender) (x : TCPSegment),
      t.nextSeqno ≤ (t.finish window x).1.nextSeqno := by
    intro t x
    unfold finish
    split
    · exact Nat.le_succ _
    · exact le_rfl
  have := finished (load window (s.stamp seg).1 (s.stamp seg).2).1
    (load window (s.stamp seg).1 (s.stamp seg).2).2
  rw [cut]
  omega

/-- **The pass that sends the SYN is the only one**, unless both the window and the
buffer hold more than the SYN and a full payload. -/
theorem single_pass (inv : s.stream.Inv) (unsent : s.nextSeqno = 0)
    (idle : s.bytesInFlight = 0) (open_ : 0 < window)
    (short : window ≤ TCPConfig.maxPayloadSize + 1 ∨
      s.stream.bufferSize ≤ TCPConfig.maxPayloadSize) :
    ¬ (s.fillStep window {}).1.MoreToFill window := by
  rintro ⟨buffered, room⟩
  rw [fillStep_eq, emit_stream, cut, finish_stream] at buffered
  rw [fillStep_eq, emit_bytesInFlight, cut, finish_of_buffered window _ buffered] at room
  have hstamp : (s.stamp {}).1 = { s with nextSeqno := 1, bytesInFlight := 1 } := by
    simp only [stamp, unsent, idle, Nat.zero_add, if_true]
  have hsub : sub64 window 1 = window - 1 := sub64_of_le open_
  simp only [load, hstamp, hsub, inv.read_eq] at buffered room
  -- what is left of the buffer did not fit the segment
  have left : 0 < s.stream.str.length - min (window - 1) TCPConfig.maxPayloadSize := by
    have hpop := (inv.popOutput (min (window - 1) TCPConfig.maxPayloadSize)).bufferSize_eq
    rw [inv.popOutput_str, List.length_drop] at hpop
    rw [ByteStream.bufferEmpty, hpop, beq_eq_false_iff_ne] at buffered
    omega
  rw [List.length_take, Nat.min_eq_left (by omega)] at room
  rw [inv.bufferSize_eq] at short
  have full : 1 + min (window - 1) TCPConfig.maxPayloadSize = window := by omega
  rw [full, sub64_of_le le_rfl, Nat.sub_self] at room
  exact room rfl

end Pass

/-- A call of `fill_window` that has not sent the SYN has done nothing. -/
theorem fillWindow_of_unsent {s : TCPSender} (unsent : s.fillWindow.nextSeqno = 0) :
    s.fillWindow = s := by
  rw [fillWindow_eq_last] at unsent ⊢
  rcases List.eq_nil_or_concat s.windowPasses with none | ⟨passes, p, some⟩
  · rw [none]
    rfl
  · rw [some, List.concat_eq_append, List.map_append, List.map_singleton, List.getLastD_concat] at unsent
    exact absurd unsent fillStep_nextSeqno_ne_zero

/-- Before the SYN every acknowledgment is unacceptable. -/
theorem ackReceived_of_unsent {s : TCPSender} (unsent : s.nextSeqno = 0)
    (ackno : WrappingInt32) (windowSize : UInt16) :
    s.ackReceived ackno windowSize = { s with windowSize := windowSize.toNat } := by
  unfold ackReceived
  refine if_pos ?_
  rw [unsent]
  omega

/-! ## The SYN of a session -/

/-- The segments a call creates.  What `tick` sends was created before. -/
def creates (s : TCPSender) : Op → List Created
  | .fillWindow => s.fillCreated
  | .sendEmptySegment =>
      [{ seg := { header := { seqno := wrap s.nextSeqno s.isn } }
         start := s.nextSeqno
         advance := s.sendEmptySegment.nextSeqno - s.nextSeqno }]
  | .write _ | .endInput | .ackReceived _ _ | .tick _ | .dequeue => []

/-- A sender with the log of all segments it has created.  The sender forgets a segment that is
taken off its queue and acknowledged; the log does not. -/
structure Logged where
  s : TCPSender
  created : List Created := []
  deriving Repr, DecidableEq

namespace Logged

def start (capacity : ℕ) (retxTimeout : UInt16) (isn : WrappingInt32) : Logged :=
  { s := TCPSender.new capacity retxTimeout isn }

/-- No operation of the sender throws. -/
def step (t : Logged) (op : Op) : Except Empty Logged :=
  .ok { s := t.s.apply op, created := t.created ++ t.s.creates op }

/-- Before the SYN has been sent, no empty segment is asked for, and `fill_window` does
not meet a window and a buffer that both hold more than one segment. -/
def SynFits (t : Logged) : Op → Prop
  | .fillWindow => ¬ (t.s.nextSeqno = 0 ∧ TCPConfig.maxPayloadSize + 1 < t.s.windowSize ∧
      TCPConfig.maxPayloadSize < t.s.stream.bufferSize)
  | .sendEmptySegment => t.s.nextSeqno ≠ 0
  | .write _ | .endInput | .ackReceived _ _ | .tick _ | .dequeue => True

instance decidableSynFits (t : Logged) : ∀ op, Decidable (t.SynFits op)
  | .fillWindow => inferInstanceAs (Decidable (¬ _))
  | .sendEmptySegment => inferInstanceAs (Decidable (_ ≠ _))
  | .write _ | .endInput | .ackReceived _ _ | .tick _ | .dequeue =>
      inferInstanceAs (Decidable True)

end Logged

/-- The segment starts where its number says, carries the SYN exactly at number `0`, and
is as long as `_next_seqno` advanced. -/
structure Created.Sound (isn : WrappingInt32) (c : Created) : Prop where
  seqno : c.seg.header.seqno = wrap c.start isn
  syn_iff : c.seg.header.syn = true ↔ c.start = 0
  length : c.seg.lengthInSequenceSpace = c.advance

/-- A pass on a segment object without flags creates sound segments. -/
theorem passCreates_sound {window : ℕ} {s : TCPSender} {seg : TCPSegment}
    (noSyn : seg.header.syn = false) (noFin : seg.header.fin = false) :
    ∀ c ∈ passCreates window (s, seg), c.Sound s.isn := by
  obtain ⟨seqno, syn, next⟩ := cut_numbers window s noSyn noFin
  intro c hc
  obtain ⟨x, hx, rfl⟩ := List.mem_map.mp hc
  have hx' : x = (s.cut window seg).2 := by
    unfold passEmits at hx
    split at hx
    · exact List.mem_singleton.mp hx
    · cases hx
  subst hx'
  refine ⟨seqno, syn, ?_⟩
  rw [fillStep_eq, emit_nextSeqno, next, Nat.add_sub_cancel_left]

/-- **The loop creates sound segments** if the pass that sends the SYN is the last. -/
theorem fillPasses_sound {window : ℕ} {s : TCPSender} {seg : TCPSegment}
    (single : s.nextSeqno = 0 → ¬ (s.fillStep window seg).1.MoreToFill window)
    (noSyn : seg.header.syn = false) (noFin : seg.header.fin = false) :
    ∀ c ∈ (fillPasses window s seg).flatMap (passCreates window), c.Sound s.isn := by
  induction s, seg using TCPSender.fillLoop.induct window with
  | case1 s seg ended =>
      rw [fillPasses, if_pos ended]
      simp
  | case2 s seg running more ih =>
      rw [fillPasses, if_neg running, dif_pos more, List.flatMap_cons]
      have sent : s.nextSeqno ≠ 0 := fun unsent => single unsent more
      have noSyn' : (s.cut window seg).2.header.syn = false :=
        Bool.eq_false_iff.mpr fun hsyn =>
          sent ((cut_numbers window s noSyn noFin).2.1.mp hsyn)
      have rest := ih (fun unsent => absurd unsent fillStep_nextSeqno_ne_zero) noSyn'
        (cut_fin_of_more noFin more)
      have hisn : (s.fillStep window seg).1.isn = s.isn := by
        rw [(fillStep_queued window s seg).frame]
      rw [hisn] at rest
      intro c hc
      exact (List.mem_append.mp hc).elim (passCreates_sound noSyn noFin c) (rest c)
  | case3 s seg running done =>
      rw [fillPasses, if_neg running, dif_neg done, List.flatMap_cons, List.flatMap_nil,
        List.append_nil]
      exact passCreates_sound noSyn noFin

namespace Logged

/-- The log accounts for the queues, and each entry is sound.  So whatever the owner finds on the
outbound queue, and whatever is sent again, has an entry that says where it starts. -/
structure Accounted (t : Logged) : Prop where
  stream : t.s.stream.Inv
  unsent : t.s.nextSeqno = 0 → t.s.bytesInFlight = 0
  sound : ∀ c ∈ t.created, c.Sound t.s.isn
  queued : t.s.segmentsOut ⊆ t.created.map Created.seg
  outstanding : t.s.outstandingSegments ⊆ t.created.map Created.seg

/-- Nothing has been created. -/
theorem accounted_start {capacity : ℕ} (h : capacity < 2 ^ 64) (retxTimeout : UInt16)
    (isn : WrappingInt32) : (start capacity retxTimeout isn).Accounted where
  stream := ByteStream.inv_new h
  unsent := fun _ => rfl
  sound := by simp [start]
  queued := List.nil_subset _
  outstanding := List.nil_subset _

/-- A call that creates nothing. -/
theorem Accounted.congr {t : Logged} (h : t.Accounted) {s' : TCPSender}
    (stream : s'.stream.Inv) (isn : s'.isn = t.s.isn)
    (unsent : s'.nextSeqno = 0 → s'.bytesInFlight = 0)
    (queued : s'.segmentsOut ⊆ t.s.segmentsOut ++ t.s.outstandingSegments)
    (outstanding : s'.outstandingSegments ⊆ t.s.outstandingSegments) :
    Accounted { s := s', created := t.created ++ [] } := by
  rw [List.append_nil]
  refine ⟨stream, unsent, isn ▸ h.sound, fun seg hseg => ?_,
    List.Subset.trans outstanding h.outstanding⟩
  exact (List.mem_append.mp (queued hseg)).elim (fun hq => h.queued hq)
    fun ho => h.outstanding ho

/-- Filling the window, where the SYN fits. -/
theorem Accounted.fillWindow {t : Logged} (h : t.Accounted) (fits : t.SynFits .fillWindow) :
    Accounted { s := t.s.fillWindow, created := t.created ++ t.s.fillCreated } := by
  have effect := t.s.fillWindow_queued
  have hisn : t.s.fillWindow.isn = t.s.isn := by rw [effect.frame]
  have open_ : 0 < t.s.actualWindowSize := by
    unfold actualWindowSize
    split <;> omega
  have created : ∀ c ∈ t.s.fillCreated, c.Sound t.s.isn := by
    unfold fillCreated windowPasses
    split
    · simp
    · refine fillPasses_sound (fun unsent => ?_) rfl rfl
      refine single_pass h.stream unsent (h.unsent unsent) open_ ?_
      have narrow := not_and.mp fits unsent
      unfold actualWindowSize
      split
      · exact Or.inl (Nat.le_add_left _ _)
      · omega
  refine ⟨effect.stream h.stream, ?_, ?_, ?_, ?_⟩
  · intro unsent
    have same : t.s.fillWindow = t.s := fillWindow_of_unsent unsent
    simp only [same] at unsent ⊢
    exact h.unsent unsent
  · rw [hisn]
    intro c hc
    exact (List.mem_append.mp hc).elim (h.sound c) (created c)
  · rw [effect.segmentsOut, List.map_append]
    exact List.append_subset.mpr ⟨List.subset_append_of_subset_left _ h.queued,
      List.subset_append_right _ _⟩
  · rw [effect.outstanding, List.map_append]
    exact List.append_subset.mpr ⟨List.subset_append_of_subset_left _ h.outstanding,
      List.subset_append_right _ _⟩

/-- Every call keeps the log, as long as the SYN fits. -/
theorem Accounted.step {t : Logged} (h : t.Accounted) {op : Op} (fits : t.SynFits op) :
    Accounted { s := t.s.apply op, created := t.created ++ t.s.creates op } := by
  cases op with
  | write data =>
      exact h.congr (h.stream.write data) rfl h.unsent (List.subset_append_left _ _)
        (List.Subset.refl _)
  | endInput =>
      exact h.congr h.stream.endInput rfl h.unsent (List.subset_append_left _ _)
        (List.Subset.refl _)
  | fillWindow => exact h.fillWindow fits
  | ackReceived ackno windowSize =>
      obtain ⟨popped, frame⟩ := t.s.ackReceived_effect ackno windowSize
      refine h.congr ?_ ?_ ?_ ?_ popped.subset
      · rw [apply, frame]
        exact h.stream
      · rw [apply, frame]
      -- before the SYN is sent no acknowledgment is acceptable
      · intro unsent
        have before : t.s.nextSeqno = 0 := by
          rw [apply, frame] at unsent
          exact unsent
        rw [apply, ackReceived_of_unsent before]
        exact h.unsent before
      · rw [apply, frame]
        exact List.subset_append_left _ _
  | tick ms =>
      obtain ⟨again, sent, old, frame⟩ := t.s.tick_effect ms
      refine h.congr ?_ ?_ ?_ ?_ ?_
      · rw [apply, frame]
        exact h.stream
      · rw [apply, frame]
      · rw [apply, frame]
        exact h.unsent
      · rw [apply, sent]
        exact List.append_subset.mpr ⟨List.subset_append_left _ _,
          List.subset_append_of_subset_right _ old⟩
      · rw [apply, frame]
        exact List.Subset.refl _
  | sendEmptySegment =>
      refine ⟨h.stream, h.unsent, ?_, ?_, ?_⟩
      · intro c hc
        rcases List.mem_append.mp hc with hc | hc
        · exact h.sound c hc
        · obtain rfl := List.mem_singleton.mp hc
          -- an empty segment at number zero would be one without the SYN that belongs there
          refine ⟨rfl, ⟨fun set => ?_, fun zero => absurd zero fits⟩, (Nat.sub_self _).symm⟩
          cases set
      · rw [List.map_append]
        exact List.append_subset.mpr ⟨List.subset_append_of_subset_left _ h.queued,
          List.subset_append_right _ _⟩
      · rw [List.map_append]
        exact List.subset_append_of_subset_left _ h.outstanding
  | dequeue =>
      exact h.congr h.stream rfl h.unsent
        (List.subset_append_of_subset_left _ (List.tail_sublist _).subset) (List.Subset.refl _)

theorem accounted_of_run {capacity : ℕ} (hcap : capacity < 2 ^ 64) {retxTimeout : UInt16}
    {isn : WrappingInt32} {t : Logged}
    (run : GuardedRun step SynFits (start capacity retxTimeout isn) t) : t.Accounted :=
  run.invariant Accounted (accounted_start hcap retxTimeout isn) fun t op t' h fits hstep => by
    obtain rfl := Except.ok.inj hstep
    exact h.step fits

/-- **The SYN is on the first sequence number only.**  Whatever is called in whatever
order, as long as the SYN fits: every segment created carries the number it starts at,
the SYN exactly at number `0`, and occupies as many numbers as `_next_seqno` advanced;
and whatever is on the queue, sent for the first time or again, was created so. -/
theorem syn_first_only {capacity : ℕ} (hcap : capacity < 2 ^ 64) (retxTimeout : UInt16)
    (isn : WrappingInt32) {t : Logged}
    (run : GuardedRun step SynFits (start capacity retxTimeout isn) t) :
    (∀ c ∈ t.created, c.seg.header.seqno = wrap c.start t.s.isn ∧
      (c.seg.header.syn = true ↔ c.start = 0) ∧ c.seg.lengthInSequenceSpace = c.advance) ∧
    ∀ seg ∈ t.s.segmentsOut, ∃ c ∈ t.created, c.seg = seg := by
  have accounted := accounted_of_run hcap run
  constructor
  · intro c hc
    have sound := accounted.sound c hc
    exact ⟨sound.seqno, sound.syn_iff, sound.length⟩
  · intro seg hseg
    exact List.mem_map.mp (accounted.queued hseg)

/-- A SYN with three bytes behind it, sent again after a second. -/
theorem syn_first_only_withData :
    ∃ t, execute step (start 100 1000 ⟨7⟩)
        [.ackReceived ⟨0⟩ 3, .write [1, 2, 3], .fillWindow, .tick 1000] = .ok t ∧
      t.s.segmentsOut.length = 2 ∧
      ∀ seg ∈ t.s.segmentsOut, ∃ c ∈ t.created, c.seg = seg ∧ seg.header.syn = true := by
  obtain ⟨t, done, admitted, queued, first⟩ : ∃ t, execute step (start 100 1000 ⟨7⟩)
        [.ackReceived ⟨0⟩ 3, .write [1, 2, 3], .fillWindow, .tick 1000] = .ok t ∧
      Admitted step SynFits (start 100 1000 ⟨7⟩)
        [.ackReceived ⟨0⟩ 3, .write [1, 2, 3], .fillWindow, .tick 1000] ∧
      t.s.segmentsOut.length = 2 ∧ ∀ c ∈ t.created, c.start = 0 :=
    EndsIn.exists_ok (by decide +kernel)
  have hcap : 100 < 2 ^ 64 := by decide
  obtain ⟨sound, logged⟩ := syn_first_only hcap 1000 ⟨7⟩ (GuardedRun.of_execute admitted done)
  refine ⟨t, done, queued, fun seg hseg => ?_⟩
  obtain ⟨c, hc, rfl⟩ := logged seg hseg
  exact ⟨c, hc, rfl, (sound c hc).2.1.mpr (first c hc)⟩

/-- **The SYN flag leaks.**  An acknowledgment that arrives before the SYN is sent opens
the window; with more than a full payload in the stream the loop makes a second pass with
the same segment object, whose SYN flag nobody clears.  The second segment starts at
number 1001 with the SYN set, and is one longer than `_next_seqno` advanced.  And an empty
segment asked for before the SYN starts at number `0` without the flag. -/
theorem syn_leaks :
    (∃ t, GuardedRun step (fun _ _ => True) (start 2000 1000 ⟨0⟩) t ∧
      ∃ c ∈ t.created, c.seg ∈ t.s.segmentsOut ∧ c.seg.header.syn = true ∧ c.start = 1001 ∧
        c.seg.lengthInSequenceSpace = c.advance + 1) ∧
    ∃ t, GuardedRun step (fun _ _ => True) (start 2000 1000 ⟨0⟩) t ∧
      ∃ c ∈ t.created, c.seg ∈ t.s.segmentsOut ∧ c.seg.header.syn = false ∧ c.start = 0 := by
  have anything : ∀ t ops, Admitted step (fun _ _ => True) t ops :=
    admitted_of_forall fun _ _ => trivial
  constructor
  · obtain ⟨t, done, leaked⟩ : ∃ t, execute step (start 2000 1000 ⟨0⟩)
          [.ackReceived ⟨0⟩ 2000, .write (List.replicate 1001 0), .fillWindow] = .ok t ∧
        ∃ c ∈ t.created, c.seg ∈ t.s.segmentsOut ∧ c.seg.header.syn = true ∧
          c.start = 1001 ∧ c.seg.lengthInSequenceSpace = c.advance + 1 :=
      EndsIn.exists_ok (by decide +kernel)
    exact ⟨t, GuardedRun.of_execute (anything _ _) done, leaked⟩
  · obtain ⟨t, done, empty⟩ : ∃ t, execute step (start 2000 1000 ⟨0⟩) [.sendEmptySegment]
          = .ok t ∧
        ∃ c ∈ t.created, c.seg ∈ t.s.segmentsOut ∧ c.seg.header.syn = false ∧ c.start = 0 :=
      EndsIn.exists_ok (by decide +kernel)
    exact ⟨t, GuardedRun.of_execute (anything _ _) done, empty⟩

end Logged

end TCPSender

end Sponge
