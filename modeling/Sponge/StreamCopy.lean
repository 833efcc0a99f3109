import Sponge.ByteStream
import Sponge.EventLoop
import Sponge.Library.GuardedRun

/-!
# Copying in both directions

Embedding of `bidirectional_stream_copy` of `apps/bidirectional_stream_copy.cc`, which every
program around a socket ends in: an event loop with four rules that copy standard input to
the socket and the socket to standard output, each through a byte stream of its own.

The two ways are the same code on other descriptors, but for how they end: the socket is
shut down for writing, standard output is closed.  So the rules are written once, `pull` for
the way into a stream and `push` for the way out of it.  The socket is where one way ends
and the other begins.

`Kept` lists what an invariant of the loop has to survive and `turn_meets` is what a turn
then does. The main result here is `copies_in_order`: whatever the kernel answers, what has
been read is what has been written, followed by what is in the stream.

### Four rules, written as two

The source spells its four rules out.  They differ in their descriptors, their stream, and
in how they finish, and in nothing else: so `pull` and `push` have the way as a parameter,
and the three descriptors and two streams are functions.  An update of one descriptor is a
`Function.update`, and that the ways do not disturb each other is that their sources differ,
and their sinks.  They do share the socket, as the sink of one way and the source of the
other; what a `push` does to it leaves `eof` alone (`Written.same`).

### Nothing to write

A rule that writes is also called with an empty stream, to finish the sink when the stream
has come to its end.  It then calls `write` with no bytes, which the loop of `write` allows
and counts.  That is why no busy wait is detected.

### Invariants as a parameter

Two invariants are kept by the loop: `Flowing` here, whatever `poll` answers, and
`AllOrderly` in `StreamCopy.Completion`, as long as nothing is hung up.  How a turn uses its
invariant is the same for both, so the part about turns has the invariant as a parameter,
and `Kept` lists what it has to survive.  A turn also preserves what is not an invariant but
stable (`Turned.stable`), and leaves a trace of a rule that is gone (`Turned.gone`).
-/

namespace Sponge

open EventLoop Runs

/-- From standard input to the socket, or from the socket to standard output. -/
inductive Way where
  | outbound
  | inbound
  deriving Repr, DecidableEq

/-- The descriptors. -/
inductive Descriptor where
  | input
  | output
  | socket
  deriving Repr, DecidableEq

namespace Way

/-- The other way. -/
def other : Way → Way
  | outbound => inbound
  | inbound => outbound

/-- The descriptor that is read. -/
def source : Way → Descriptor
  | outbound => .input
  | inbound => .socket

/-- The descriptor that is written. -/
def sink : Way → Descriptor
  | outbound => .socket
  | inbound => .output

/-- Is its sink closed in the end? -/
def closes : Way → Bool
  | outbound => false
  | inbound => true

/-- How its sink is shut down in the end. -/
def shutdowns : Way → List How
  | outbound => [.wr]
  | inbound => []

/-- No two ways read from one descriptor, -/
theorem source_injective {way way' : Way} (h : way.source = way'.source) : way = way' := by
  cases way <;> cases way' <;> first | rfl | cases h

/-- or write to one. -/
theorem sink_injective {way way' : Way} (h : way.sink = way'.sink) : way = way' := by
  cases way <;> cases way' <;> first | rfl | cases h

end Way

/-- The exceptions that leave a callback. -/
inductive CopyFault where
  | read (fault : ReadFault)
  | write (fault : WriteFault)
  /-- `unix_error("shutdown")`, with the `errno`. -/
  | shutdown (errno : ℤ)
  /-- `unix_error("close")`, with the `errno`. -/
  | close (errno : ℤ)
  deriving Repr, DecidableEq

/-- The text carried by the exception. -/
def CopyFault.what : CopyFault → String
  | .read fault => fault.what
  | .write fault => fault.what
  | .shutdown _ => "shutdown: "
  | .close _ => "close: "

/-- What the kernel answers in one turn of the loop. -/
structure CopyKernel where
  poll : PollAnswer
  /-- What the source of each way hands over, should it be read. -/
  read : Way → ReadAnswer
  /-- How the sink of each way takes what is written. -/
  writev : Way → Writev
  /-- The answer to `shutdown` at the end of the way out, and to `close` at that of the way in. -/
  finish : Way → Answer

/-- The kernel takes some of the bytes that are written, at least one if there is one. -/
structure CopyKernel.WritesHonestly (kernel : CopyKernel) : Prop where
  writev : ∀ way, Honest (kernel.writev way)
  narrow : ∀ way call iovecs, (kernel.writev way call iovecs).returned < 2 ^ 31

/-- The locals of `bidirectional_stream_copy` that the rules capture, the answers of the kernel in
this turn, and the history of what was copied. -/
structure StreamCopy where
  fd : Descriptor → FDWrapper := fun _ => {}
  /-- `_outbound` and `_inbound`, of `buffer_size` bytes. -/
  stream : Way → ByteStream := fun _ => ByteStream.new 1048576
  /-- `_outbound_shutdown` and `_inbound_shutdown`. -/
  isShutdown : Way → Bool := fun _ => false
  kernel : CopyKernel
  /-- The bytes read from the source. -/
  taken : Way → List UInt8 := fun _ => []
  /-- The bytes written to the sink. -/
  given : Way → List UInt8 := fun _ => []

namespace StreamCopy

/-! ## The rules -/

/-- `max_copy_length`. -/
def maxCopyLength : ℕ := 65536

/-- `end_input` on the stream of a way. -/
def endInput (s : StreamCopy) (way : Way) : StreamCopy :=
  { s with stream := Function.update s.stream way (s.stream way).endInput }

/-- The stream of the way has ended, -/
theorem endInput_same (s : StreamCopy) (way : Way) :
    (s.endInput way).stream way = (s.stream way).endInput := Function.update_self ..

/-- and no other one. -/
theorem endInput_other (s : StreamCopy) {way way' : Way} (h : way' ≠ way) :
    (s.endInput way).stream way' = s.stream way' := Function.update_of_ne h ..

/-- The bytes have been read from the source and written into the stream. -/
def pulled (s : StreamCopy) (way : Way) (data : List UInt8) (fd : FDWrapper) : StreamCopy :=
  { s with
    fd := Function.update s.fd way.source fd
    stream := Function.update s.stream way ((s.stream way).write data).2
    taken := Function.update s.taken way (s.taken way ++ data) }

/-- Rules 1 and 3: read from the source into the stream. -/
def pull (way : Way) : Rule StreamCopy CopyFault where
  fd s := s.fd way.source
  direction := .In
  callback s :=
    match (s.fd way.source).read (s.stream way).remainingCapacity (s.kernel.read way) with
    | .error fault => .error (.read fault)
    | .ok (data, fd) =>
        if fd.eof then .ok ((s.pulled way data fd).endInput way) else .ok (s.pulled way data fd)
  interest s :=
    !(s.stream way).error && decide (0 < (s.stream way).remainingCapacity) &&
      !(s.stream way.other).error
  cancel s := .ok (s.endInput way)

/-- What rules 2 and 4 offer to the sink. -/
def offered (s : StreamCopy) (way : Way) : List UInt8 :=
  (s.stream way).peekOutput (min maxCopyLength (s.stream way).bufferSize)

/-- The first bytes of the stream have been written to the sink. -/
def pushed (s : StreamCopy) (way : Way) (bytesWritten : ℕ) (written : List UInt8)
    (fd : FDWrapper) : StreamCopy :=
  { s with
    fd := Function.update s.fd way.sink fd
    stream := Function.update s.stream way ((s.stream way).popOutput bytesWritten)
    given := Function.update s.given way (s.given way ++ written) }

/-- The sink of a way that has come to its end. -/
def finishedFd (s : StreamCopy) : Way → FDWrapper
  | .outbound => (s.fd .socket).shutdown .wr
  | .inbound => (s.fd .output).close

/-- The sink is finished, and this is remembered. -/
def finished (s : StreamCopy) (way : Way) : StreamCopy :=
  { s with
    fd := Function.update s.fd way.sink (s.finishedFd way)
    isShutdown := Function.update s.isShutdown way true }

/-- What is thrown if that fails. -/
def finishFault : Way → ℤ → CopyFault
  | .outbound => .shutdown
  | .inbound => .close

/-- `socket.shutdown(SHUT_WR)`, or `_output.close()`. -/
def finish (s : StreamCopy) (way : Way) : Except CopyFault StreamCopy :=
  match systemCall (asInt (s.kernel.finish way).returned) (s.kernel.finish way).errno 0 with
  | .error _ => .error (finishFault way (s.kernel.finish way).errno)
  | .ok _ => .ok (s.finished way)

/-- Rules 2 and 4: read from the stream into the sink. -/
def push (way : Way) : Rule StreamCopy CopyFault where
  fd s := s.fd way.sink
  direction := .Out
  callback s :=
    match (s.fd way.sink).write (s.kernel.writev way) (s.offered way) with
    | .error fault => .error (.write fault)
    | .ok (bytesWritten, written, fd) =>
        let s := s.pushed way bytesWritten written fd
        if (s.stream way).eof then s.finish way else .ok s
  interest s :=
    !(s.stream way).bufferEmpty || ((s.stream way).eof && !s.isShutdown way)
  cancel s := .ok (s.endInput way)

/-- The rules by their names. -/
inductive RuleName where
  | pull (way : Way)
  | push (way : Way)
  deriving Repr, DecidableEq

/-- The rule of a name. -/
def rule : RuleName → Rule StreamCopy CopyFault
  | .pull way => StreamCopy.pull way
  | .push way => StreamCopy.push way

/-- Rules 1 to 4. -/
def RuleName.all : List RuleName :=
  [.pull .outbound, .push .outbound, .pull .inbound, .push .inbound]

/-- The function in the course of its loop.  A rule that is erased does not come back, so the
rules are part of the state. -/
structure Copying where
  copy : StreamCopy
  eventloop : List (Rule StreamCopy CopyFault) := RuleName.all.map rule
  returned : Bool := false

/-- One turn of the loop. -/
def Copying.turn (c : Copying) (kernel : CopyKernel) : Except (LoopFault CopyFault) Copying :=
  if c.returned then .ok c
  else
    match waitNextEvent c.eventloop { c.copy with kernel := kernel } kernel.poll with
    | .error fault => .error fault
    | .ok (result, eventloop, copy) =>
        .ok { copy := copy, eventloop := eventloop, returned := result = .Exit }

/-! ## The callbacks -/

/-- The stream, once the bytes have been written into it and its end has been noted. -/
def filled (b : ByteStream) (data : List UInt8) (eof : Bool) : ByteStream :=
  if eof then (b.write data).2.endInput else (b.write data).2

/-- **`pull` has been called.** -/
def Pulled (way : Way) (s s' : StreamCopy) : Prop :=
  ∃ data fd,
    FDWrapper.HasRead (s.stream way).remainingCapacity (s.fd way.source) data fd ∧
    s' = { s with
      fd := Function.update s.fd way.source fd
      stream := Function.update s.stream way (filled (s.stream way) data fd.eof)
      taken := Function.update s.taken way (s.taken way ++ data) }

/-- `pull` throws what the read throws. -/
theorem pull_meets (s : StreamCopy) (way : Way) :
    Meets ((pull way).callback s) (Pulled way s) fun fault => ∃ f, fault = .read f := by
  simp only [pull]
  rcases hread : (s.fd way.source).read (s.stream way).remainingCapacity (s.kernel.read way) with
    fault | ⟨data, fd⟩
  · exact ⟨fault, rfl⟩
  simp only
  split
  · next eof =>
    refine ⟨data, fd, FDWrapper.read_ok hread, ?_⟩
    simp only [endInput, pulled, Function.update_self, Function.update_idem, filled, eof, if_true]
  · next more =>
    refine ⟨data, fd, FDWrapper.read_ok hread, ?_⟩
    simp only [pulled, filled, more, if_false, Bool.false_eq_true]

/-- The sink of a way has been written to, and finished if the stream came to its end. -/
structure Written (way : Way) (eof : Bool) (fd fd' : FDWrapper) : Prop where
  counted : fd'.writeCount ≠ fd.writeCount
  same : way = .outbound → fd'.eof = fd.eof
  closed : fd'.closed = (fd.closed || (way.closes && eof))
  shutdowns : fd'.shutdowns = fd.shutdowns ++ if eof then way.shutdowns else []

/-- **`push` has been called.** -/
def Pushed (way : Way) (s s' : StreamCopy) : Prop :=
  ∃ n fd, n ≤ (s.offered way).length ∧
    Written way ((s.stream way).popOutput n).eof (s.fd way.sink) fd ∧
    s' = { s with
      fd := Function.update s.fd way.sink fd
      stream := Function.update s.stream way ((s.stream way).popOutput n)
      isShutdown := Function.update s.isShutdown way
        (s.isShutdown way || ((s.stream way).popOutput n).eof)
      given := Function.update s.given way (s.given way ++ (s.offered way).take n) }

/-- The sink of a way that is finished has been written to. -/
theorem written_finished (s : StreamCopy) (way : Way) (n : ℕ) (written : List UInt8) :
    Written way true (s.fd way.sink)
      ((s.pushed way n written (s.fd way.sink).registerWrite).finishedFd way) := by
  cases way with
  | outbound =>
      -- the write and the shutdown are both counted
      exact ⟨(s.fd .socket).registerWrite_twice_ne, fun _ => rfl, (Bool.or_false _).symm, rfl⟩
  | inbound =>
      exact ⟨(s.fd .output).registerWrite_ne, fun h => (nomatch h), (Bool.or_true _).symm,
        (List.append_nil _).symm⟩

/-- `push` throws what `shutdown` or `close` throws. -/
theorem push_meets (s : StreamCopy) (way : Way) (honest : s.kernel.WritesHonestly) :
    Meets ((push way).callback s) (Pushed way s)
      fun fault => ∃ errno, fault = finishFault way errno := by
  have short : (s.offered way).length < 2 ^ 63 := by
    rw [offered, ByteStream.peekOutput, List.length_take, maxCopyLength]
    omega
  obtain ⟨n, enough, -, hwrite⟩ :=
    FDWrapper.write_honest (honest.writev way) (honest.narrow way) (s.fd way.sink) short
  have hstream : (s.pushed way n ((s.offered way).take n) (s.fd way.sink).registerWrite).stream way
      = (s.stream way).popOutput n := Function.update_self ..
  simp only [push, hwrite, hstream]
  split
  · next eof =>
    rw [finish]
    split
    · exact ⟨_, rfl⟩
    · have written := s.written_finished way n ((s.offered way).take n)
      rw [← eof] at written
      refine ⟨n, _, enough, written, ?_⟩
      simp only [finished, pushed, Function.update_idem, eof, Bool.or_true]
  · next more =>
    have more := Bool.eq_false_iff.mpr more
    refine ⟨n, _, enough, ⟨(s.fd way.sink).registerWrite_ne, fun _ => rfl, ?_, ?_⟩, ?_⟩
    · rw [more, Bool.and_false, Bool.or_false]
      rfl
    · rw [more]
      exact (List.append_nil _).symm
    · simp only [pushed, more, Bool.or_false, Function.update_eq_self]

/-! ## A turn -/

/-- **There is something to do at the end of a stream**: there are bytes in it, or its end has yet to
be told. -/
def Wanting (b : ByteStream) (isShutdown : Bool) : Prop :=
  b.bufferEmpty = true → b.eof = true ∧ isShutdown = false

/-- An end that was not known yet is something to do. -/
theorem Wanting.endInput {b : ByteStream} {isShutdown : Bool} (h : Wanting b isShutdown) :
    Wanting b.endInput isShutdown := fun empty =>
  ⟨Bool.and_eq_true_iff.mpr ⟨rfl, empty⟩, (h empty).2⟩

/-- What is written into a stream does not empty it. -/
theorem Wanting.filled {b : ByteStream} {isShutdown : Bool} (h : Wanting b isShutdown)
    (data : List UInt8) (eof : Bool) : Wanting (filled b data eof) isShutdown := by
  have wrote : Wanting (b.write data).2 isShutdown := by
    intro empty
    have before : b.bufferEmpty = true := by
      simp only [ByteStream.bufferEmpty, ByteStream.bufferSize, ByteStream.write, beq_iff_eq]
        at empty ⊢
      omega
    obtain ⟨ended, shut⟩ := h before
    exact ⟨Bool.and_eq_true_iff.mpr ⟨(Bool.and_eq_true_iff.mp ended).1, empty⟩, shut⟩
  unfold StreamCopy.filled
  split
  · exact wrote.endInput
  · exact wrote

/-- The contracts.  A source that is read has not come to its end, since whatever is called before
reads another one; and a sink is only written to while there is something to do. -/
def contract : RuleName → Contract StreamCopy CopyFault
  | .pull way =>
      { rule := pull way
        ready := fun s => (s.fd way.source).eof = false
        idle := fun s => (s.stream way).remainingCapacity = 0 }
  | .push way =>
      { rule := push way
        ready := fun s => Wanting (s.stream way) (s.isShutdown way)
        idle := fun s => (s.stream way).bufferEmpty = true ∧
          ((s.stream way).eof = true → s.isShutdown way = true) }

/-- The contracts are about these rules. -/
theorem contract_rule (name : RuleName) : (contract name).rule = rule name := by
  cases name <;> rfl

/-- **The exceptions that can leave a turn** all come from the kernel. -/
inductive Foreseen : LoopFault CopyFault → Prop
  | polled : Foreseen .polled
  | read (fault : ReadFault) : Foreseen (.thrown (.read fault))
  | finish (way : Way) (errno : ℤ) : Foreseen (.thrown (finishFault way errno))

/-- **What an invariant has to survive** in a turn in which `poll` answers this.  Each field has
the condition under which the loop makes the call, so an invariant may rely on it. -/
structure Kept (Inv : StreamCopy → Prop) (answer : PollAnswer) : Prop where
  noError : ∀ s way, Inv s → (s.stream way).error = false
  turn : ∀ s kernel, Inv s → Inv { s with kernel := kernel }
  pulled : ∀ s s' way, Inv s → (s.fd way.source).eof = false → Pulled way s s' → Inv s'
  pushed : ∀ s s' way, Inv s → Wanting (s.stream way) (s.isShutdown way) → Pushed way s s' → Inv s'
  endInput : ∀ s name, Inv s → (contract name).rule.Erasable answer s →
    ∀ s', (contract name).rule.cancel s = .ok s' → Inv s'

/-- Between the callbacks of a turn. -/
def During (Inv : StreamCopy → Prop) (kernel : CopyKernel) (s : StreamCopy) : Prop :=
  Inv s ∧ s.kernel = kernel

section Contracts

variable {Inv : StreamCopy → Prop} {kernel : CopyKernel}

/-- The way of a rule. -/
def RuleName.way : RuleName → Way
  | .pull way => way
  | .push way => way

/-- To cancel a rule ends its stream. -/
theorem cancel_eq (name : RuleName) (s : StreamCopy) :
    (contract name).rule.cancel s = .ok (s.endInput name.way) := by
  cases name <;> rfl

/-- A rule that reads keeps the invariant, and throws what the kernel makes it throw. -/
theorem honoured_pull (kept : Kept Inv kernel.poll) (way : Way) :
    Honoured kernel.poll (During Inv kernel) (fun _ => True) Foreseen (contract (.pull way)) where
  interested s _ _ alive _ := by
    have alive : ((s.fd way.source).eof || (s.fd way.source).closed) = false := alive
    exact (Bool.or_eq_false_iff.mp alive).1
  uninterested s h _ uninterested := by
    simp only [contract, pull, kept.noError s _ h.1, Bool.not_false, Bool.true_and, Bool.and_true,
      decide_eq_false_iff_not, not_lt, nonpos_iff_eq_zero] at uninterested
    exact uninterested
  cancel s h erasable := ⟨kept.endInput s (.pull way) h.1 erasable _ rfl, h.2⟩
  callback s h ready := by
    refine (pull_meets s way).imp ?_ ?_
    · rintro s' pulled
      have inv := kept.pulled s s' way h.1 ready pulled
      obtain ⟨data, fd, hasRead, rfl⟩ := pulled
      refine ⟨⟨inv, h.2⟩, fun same => absurd ?_ hasRead.counted⟩
      have same : (s.fd way.source).readCount
          = (Function.update s.fd way.source fd way.source).readCount := same
      rw [Function.update_self] at same
      exact same.symm
    · rintro fault ⟨f, rfl⟩
      exact .read f

/-- And so does one that writes. -/
theorem honoured_push (kept : Kept Inv kernel.poll) (honest : kernel.WritesHonestly) (way : Way) :
    Honoured kernel.poll (During Inv kernel) (fun _ => True) Foreseen (contract (.push way)) where
  interested s _ _ _ interest := by
    simp only [contract, push, Bool.or_eq_true, Bool.not_eq_eq_eq_not, Bool.not_true,
      Bool.and_eq_true] at interest
    intro empty
    refine interest.resolve_left fun filled => ?_
    rw [empty] at filled
    cases filled
  uninterested s _ _ uninterested := by
    simp only [contract, push, Bool.or_eq_false_iff, Bool.not_eq_false', Bool.and_eq_false_iff]
      at uninterested
    refine ⟨uninterested.1, fun eof => ?_⟩
    rcases uninterested.2 with notEof | shut
    · rw [eof] at notEof
      cases notEof
    · exact shut
  cancel s h erasable := ⟨kept.endInput s (.push way) h.1 erasable _ rfl, h.2⟩
  callback s h ready := by
    refine (push_meets s way (h.2 ▸ honest)).imp ?_ ?_
    · rintro s' pushed
      have inv := kept.pushed s s' way h.1 ready pushed
      obtain ⟨n, fd, -, written, rfl⟩ := pushed
      refine ⟨⟨inv, h.2⟩, fun same => absurd ?_ written.counted⟩
      have same : (s.fd way.sink).writeCount
          = (Function.update s.fd way.sink fd way.sink).writeCount := same
      rw [Function.update_self] at same
      exact same.symm
    · rintro fault ⟨errno, rfl⟩
      exact .finish way errno

theorem honoured_contract (kept : Kept Inv kernel.poll) (honest : kernel.WritesHonestly)
    (name : RuleName) :
    Honoured kernel.poll (During Inv kernel) (fun _ => True) Foreseen (contract name) := by
  cases name with
  | pull way => exact honoured_pull kept way
  | push way => exact honoured_push kept honest way

/-- A callback, by the name of its rule. -/
def Called : RuleName → StreamCopy → StreamCopy → Prop
  | .pull way => Pulled way
  | .push way => Pushed way

/-- A callback that returns has done what its name says. -/
theorem called_of_callback (honest : kernel.WritesHonestly) {name : RuleName} {s s' : StreamCopy}
    (h : During Inv kernel s) (called : (contract name).rule.callback s = .ok s') :
    Called name s s' := by
  cases name with
  | pull way =>
      rcases (pull_meets s way).cases with ⟨s₁, called', pulled⟩ | ⟨fault, called', -⟩
      · cases called.symm.trans called'
        exact pulled
      · cases called.symm.trans called'
  | push way =>
      rcases (push_meets s way (h.2 ▸ honest)).cases with ⟨s₁, called', pushed⟩ | ⟨fault, called', -⟩
      · cases called.symm.trans called'
        exact pushed
      · cases called.symm.trans called'

/-- The end of a stream changes no descriptor and no capacity. -/
theorem cancel_keeps {P : StreamCopy → Prop} (name : RuleName) :
    (∀ name', CancelKeeps P (contract name) (contract name').ready) ∧
      ∀ name', (∀ way, name' = .push way → way ≠ name.way) →
        CancelKeeps P (contract name) (contract name').idle := by
  refine ⟨fun name' s s' _ ready cancelled => ?_, fun name' apart s s' _ idle cancelled => ?_⟩
  · rw [cancel_eq] at cancelled
    cases cancelled
    cases name' with
    | pull way => exact ready
    | push way =>
        show Wanting ((s.endInput name.way).stream way) (s.isShutdown way)
        by_cases same : way = name.way
        · subst same
          rw [endInput_same]
          exact ready.endInput
        · rw [endInput_other s same]
          exact ready
  · rw [cancel_eq] at cancelled
    cases cancelled
    cases name' with
    | pull way =>
        show ((s.endInput name.way).stream way).remainingCapacity = 0
        by_cases same : way = name.way
        · subst same
          rw [endInput_same]
          exact idle
        · rw [endInput_other s same]
          exact idle
    | push way =>
        simp only [contract, endInput_other s (apart way rfl)]
        exact idle

/-- Nothing on the way out reads from the socket. -/
theorem called_keeps_ready (honest : kernel.WritesHonestly) {name : RuleName}
    (out : name.way = .outbound) :
    CallbackKeeps (During Inv kernel) (contract name) (contract (.pull .inbound)).ready := by
  intro s s' h _ ready called
  have called := called_of_callback honest h called
  cases name with
  | pull way =>
      cases out
      obtain ⟨data, fd, -, rfl⟩ := called
      exact ready
  | push way =>
      cases out
      obtain ⟨n, fd, -, written, rfl⟩ := called
      exact (written.same rfl).trans ready

/-- What a sink is written to for is not done by another rule. -/
theorem called_keeps_wanting (honest : kernel.WritesHonestly) {name : RuleName} {way : Way}
    (apart : ∀ way', name = .push way' → way' ≠ way) :
    CallbackKeeps (During Inv kernel) (contract name) (contract (.push way)).ready := by
  intro s s' h _ wanting called
  have called := called_of_callback honest h called
  cases name with
  | pull way' =>
      obtain ⟨data, fd, -, rfl⟩ := called
      show Wanting (Function.update s.stream way' (filled (s.stream way') data fd.eof) way) _
      by_cases same : way = way'
      · subst same
        rw [Function.update_self]
        exact wanting.filled data fd.eof
      · rw [Function.update_of_ne same]
        exact wanting
  | push way' =>
      obtain ⟨n, fd, -, -, rfl⟩ := called
      have other : way ≠ way' := (apart way' rfl).symm
      show Wanting (Function.update s.stream way' _ way) (Function.update s.isShutdown way' _ way)
      rw [Function.update_of_ne other, Function.update_of_ne other]
      exact wanting

/-- The rules do not get in each other's way. -/
theorem apart_all (honest : kernel.WritesHonestly) :
    RuleName.all.Pairwise fun n n' => Apart (During Inv kernel) (contract n) (contract n') := by
  have push : ∀ {name : RuleName} {way : Way}, (∀ way', name = .push way' → way' ≠ way) →
      Apart (During Inv kernel) (contract name) (contract (.push way)) := fun apart =>
    ⟨(cancel_keeps _).1 _, (cancel_keeps _).2 _ apart, (cancel_keeps _).1 _,
      fun s s' h ready wanting called =>
        called_keeps_wanting honest apart s s' h ready wanting called⟩
  have pull : ∀ {name : RuleName}, name.way = .outbound →
      Apart (During Inv kernel) (contract name) (contract (.pull .inbound)) := by
    intro name out
    refine ⟨(cancel_keeps _).1 _, (cancel_keeps _).2 _ fun way hway => ?_, (cancel_keeps _).1 _,
      fun s s' h ready ready' called => called_keeps_ready honest out s s' h ready ready' called⟩
    subst hway
    rw [show way = .outbound from out]
    exact Way.noConfusion
  simp only [RuleName.all, List.pairwise_cons, List.forall_mem_cons, List.not_mem_nil,
    IsEmpty.forall_iff, implies_true, and_true, List.Pairwise.nil]
  exact ⟨⟨push (by simp), pull rfl, push (by simp)⟩, ⟨pull rfl, push (by simp)⟩, push (by simp)⟩

end Contracts

/-- The function is called with these descriptors. -/
def start (fd : Descriptor → FDWrapper) (kernel : CopyKernel) : Copying :=
  { copy := { fd := fd, kernel := kernel } }

/-- What holds between two turns. -/
structure Between (Inv : StreamCopy → Prop) (names : List RuleName) (c : Copying) : Prop where
  inv : Inv c.copy
  sublist : names.Sublist RuleName.all
  eventloop : c.eventloop = names.map rule

/-- Before the first turn all the rules are there. -/
theorem between_start {Inv : StreamCopy → Prop} {fd : Descriptor → FDWrapper} {kernel : CopyKernel}
    (inv : Inv { fd := fd, kernel := kernel }) : Between Inv RuleName.all (start fd kernel) :=
  ⟨inv, .refl _, rfl⟩

/-- **A turn has gone by.**  What is stable is so in a turn, and what outlives a rule holds when it is
gone. -/
structure Turned (Inv : StreamCopy → Prop) (kernel : CopyKernel) (names : List RuleName)
    (c c' : Copying) (left : List RuleName) : Prop where
  between : Between Inv left c'
  stable : ∀ Q : StreamCopy → Prop, (∀ s, Q s → Q { s with kernel := kernel }) →
    (∀ s way, Q s → Q (s.endInput way)) →
    (∀ s s' name, Inv s → Called name s s' → Q s → Q s') → Q c.copy → Q c'.copy
  gone : ∀ name ∈ names, name ∈ left ∨ ∀ Q : StreamCopy → Prop,
    (∀ s, Inv s → (contract name).rule.Erasable kernel.poll s → Q s) →
    (∀ s way, Q s → Q (s.endInput way)) →
    (∀ s s' name, Inv s → Called name s s' → Q s → Q s') → Q c'.copy
  returned : c.returned = false → c'.returned = true → kernel.poll ≠ .failed eintr →
    ∀ name ∈ left, (contract name).idle c'.copy

/-- **The rule for a turn.**  The contracts of the four rules are checked once, against an
invariant that is left open; each result about the copy is then an invariant. -/
theorem turn_meets {Inv : StreamCopy → Prop} {kernel : CopyKernel} {c : Copying}
    (kept : Kept Inv kernel.poll) (honest : kernel.WritesHonestly) {names : List RuleName}
    (h : Between Inv names c) :
    Meets (c.turn kernel) (fun c' => ∃ left, Turned Inv kernel names c c' left) Foreseen := by
  rw [Copying.turn]
  split
  · next returned =>
    refine ⟨names, h, fun Q _ _ _ hQ => hQ, fun name hname => .inl hname, fun running => ?_⟩
    rw [returned] at running
    cases running
  have here : During Inv kernel { c.copy with kernel := kernel } := ⟨kept.turn _ _ h.inv, rfl⟩
  have waited := wait_meets (fun name _ => honoured_contract kept honest name)
    (fun name _ _ _ _ _ _ => trivial) ((apart_all honest).sublist h.sublist) .polled here trivial
  simp only [contract_rule] at waited
  rw [h.eventloop]
  rcases waited.cases with ⟨⟨result, rules, s⟩, hwait, left, waited⟩ | ⟨fault, hwait, foreseen⟩
  swap
  · rw [hwait]
    exact foreseen
  rw [hwait]
  -- all that a cancellation can do is to end a stream
  have cancels : ∀ Q : StreamCopy → Prop, (∀ s way, Q s → Q (s.endInput way)) →
      ∀ n ∈ names, CancelKeeps (During Inv kernel) (contract n) Q := by
    intro Q ends n _ s s' _ hQ cancelled
    rw [cancel_eq] at cancelled
    exact Except.ok.inj cancelled ▸ ends s _ hQ
  have callbacks : ∀ Q : StreamCopy → Prop, (∀ s s' name, Inv s → Called name s s' → Q s → Q s') →
      ∀ n ∈ names, CallbackKeeps (During Inv kernel) (contract n) Q := fun Q calls n _ s s' h _ hQ
    called => calls s s' n h.1 (called_of_callback honest h called) hQ
  refine ⟨left, ⟨waited.kept.1, waited.sublist.trans h.sublist, ?_⟩,
    fun Q turn ends calls hQ => waited.stable Q (cancels Q ends) (callbacks Q calls) (turn _ hQ),
    fun name hname => ?_, fun _ returned interrupted => ?_⟩
  · simpa only [contract_rule] using waited.rules_eq
  · by_cases hleft : name ∈ left
    · exact .inl hleft
    · refine .inr fun Q erasable ends calls => ?_
      exact (waited.stay name hname Q ⟨fun s h => erasable s h.1, cancels Q ends,
        callbacks Q calls⟩).resolve_left hleft
  · exact (waited.exit (of_decide_eq_true returned)).resolve_left interrupted

/-! ## In order -/

/-- What was taken has been given, but for what is in the stream.  So nothing is lost, added or
reordered on this way, whether or not the rest still arrives. -/
structure Flows (taken given : List UInt8) (b : ByteStream) : Prop where
  inv : b.Inv
  capacity : b.capacity = 1048576
  error : b.error = false
  balance : taken = given ++ b.str

section Flow

variable {taken given data : List UInt8} {b : ByteStream}

/-- Nothing has been copied. -/
theorem flows_new : Flows [] [] (ByteStream.new 1048576) :=
  ⟨ByteStream.inv_new (by decide), rfl, rfl, rfl⟩

/-- The end of a stream is no byte of it. -/
theorem Flows.endInput (h : Flows taken given b) : Flows taken given b.endInput :=
  ⟨h.inv.endInput, h.capacity, h.error, h.balance⟩

/-- There is room for all that was read. -/
theorem Flows.filled (h : Flows taken given b) (room : data.length ≤ b.remainingCapacity)
    (eof : Bool) : Flows (taken ++ data) given (filled b data eof) := by
  have wrote : Flows (taken ++ data) given (b.write data).2 := by
    refine ⟨h.inv.write data, h.capacity, h.error, ?_⟩
    rw [ByteStream.write_str, min_eq_left room, List.take_length, h.balance, List.append_assoc]
  unfold StreamCopy.filled
  split
  · exact wrote.endInput
  · exact wrote

/-- What is popped is what was written. -/
theorem Flows.popped (h : Flows taken given b) {len n : ℕ} (enough : n ≤ (b.peekOutput len).length) :
    Flows taken (given ++ (b.peekOutput len).take n) (b.popOutput n) := by
  refine ⟨h.inv.popOutput n, h.capacity, h.error, ?_⟩
  rw [ByteStream.peekOutput, List.length_take] at enough
  rw [ByteStream.peekOutput, List.take_take, h.inv.popOutput_str, List.append_assoc, h.balance,
    min_eq_left (by omega), List.take_append_drop]

end Flow

/-- Both ways flow. -/
def Flowing (s : StreamCopy) : Prop := ∀ way, Flows (s.taken way) (s.given way) (s.stream way)

/-- What is read goes into the stream of its way. -/
theorem Flowing.pulled {s s' : StreamCopy} {way : Way} (h : s.Flowing) (pulled : Pulled way s s') :
    s'.Flowing := by
  obtain ⟨data, fd, hasRead, rfl⟩ := pulled
  intro way'
  by_cases same : way' = way
  · subst same
    simpa only [Function.update_self] using (h way').filled hasRead.length_le fd.eof
  · simpa only [Function.update_of_ne same] using h way'

/-- What is written comes out of it. -/
theorem Flowing.pushed {s s' : StreamCopy} {way : Way} (h : s.Flowing) (pushed : Pushed way s s') :
    s'.Flowing := by
  obtain ⟨n, fd, enough, -, rfl⟩ := pushed
  intro way'
  by_cases same : way' = way
  · subst same
    simp only [Function.update_self]
    exact (h way').popped enough
  · simpa only [Function.update_of_ne same] using h way'

theorem Flowing.endInput {s : StreamCopy} (h : s.Flowing) (way : Way) :
    (s.endInput way).Flowing := by
  intro way'
  show Flows (s.taken way') (s.given way') ((s.endInput way).stream way')
  by_cases same : way' = way
  · subst same
    rw [endInput_same]
    exact (h way').endInput
  · rw [endInput_other s same]
    exact h way'

/-- **The order is kept**, whatever `poll` answers. -/
theorem kept_flowing (answer : PollAnswer) : Kept Flowing answer where
  noError _ way h := (h way).error
  turn _ _ h := h
  pulled _ _ _ h _ := h.pulled
  pushed _ _ _ h _ := h.pushed
  endInput s name h _ s' cancelled := by
    rw [cancel_eq] at cancelled
    exact Except.ok.inj cancelled ▸ h.endInput _

/-- By induction over the turns. -/
theorem flowing_of_run {fd : Descriptor → FDWrapper} {kernel : CopyKernel} {c : Copying}
    (run : GuardedRun Copying.turn (fun _ kernel => kernel.WritesHonestly) (start fd kernel) c) :
    ∃ names, Between Flowing names c := by
  refine run.invariant (fun c => ∃ names, Between Flowing names c)
    ⟨_, between_start fun _ => flows_new⟩ ?_
  rintro c kernel c' ⟨names, between⟩ honest turned
  rcases (turn_meets (kept_flowing _) honest between).cases with
    ⟨c'', turned', left, after⟩ | ⟨fault, thrown, -⟩
  · cases turned.symm.trans turned'
    exact ⟨left, after.between⟩
  · cases turned.symm.trans thrown

/-- **Copying keeps the order and loses nothing.**  On both ways and at any time, what has been read
is what has been written followed by what is in the stream, whatever was hung up or interrupted; and
what the next turn can throw comes from the kernel: no busy wait is detected, and no write fails. -/
theorem copies_in_order {fd : Descriptor → FDWrapper} {kernel : CopyKernel} {c : Copying}
    (run : GuardedRun Copying.turn (fun _ kernel => kernel.WritesHonestly) (start fd kernel) c) :
    (∀ way, c.copy.taken way = c.copy.given way ++ (c.copy.stream way).str) ∧
    ∀ next : CopyKernel, next.WritesHonestly → ∀ fault, c.turn next = .error fault →
      fault ≠ .busyWait ∧ ∀ f, fault ≠ .thrown (.write f) := by
  obtain ⟨names, between⟩ := flowing_of_run run
  refine ⟨fun way => (between.inv way).balance, fun next honest fault thrown => ?_⟩
  rcases (turn_meets (kept_flowing _) honest between).cases with
    ⟨c', turned, -⟩ | ⟨fault', thrown', foreseen⟩
  · cases thrown.symm.trans turned
  · cases thrown.symm.trans thrown'
    cases foreseen with
    | polled => exact ⟨nofun, nofun⟩
    | read fault => exact ⟨nofun, nofun⟩
    | finish way errno => cases way <;> exact ⟨nofun, nofun⟩

/-- A turn in which `poll` answers this, and these bytes can be read. -/
def answering (poll : PollAnswer) (input socket : List UInt8) : CopyKernel where
  poll := poll
  read
    | .outbound => { returned := input.length, errno := 0, data := input }
    | .inbound => { returned := socket.length, errno := 0, data := socket }
  writev _ := takesPage
  finish _ := ⟨0, 0⟩

theorem honest_answering (poll : PollAnswer) (input socket : List UInt8) :
    (answering poll input socket).WritesHonestly where
  writev _ := honest_takesPage
  narrow _ _ iovecs := by
    simp only [answering, takesPage]
    omega

/-- Two bytes are typed; then the socket cannot be written to any more, but a byte can be read. -/
def cutOff : List CopyKernel :=
  [answering (.ready [{ pollin := true }]) [104, 105] [],
    answering (.ready [{}, { pollhup := true }, { pollin := true }]) [] [33]]

theorem copies_in_order_cutOff :
    ∃ c, execute Copying.turn (start (fun _ => {}) (answering .timeout [] [])) cutOff = .ok c ∧
      c.copy.given .outbound = [] ∧ (c.copy.stream .outbound).str = [104, 105] ∧
      c.copy.taken .outbound = c.copy.given .outbound ++ (c.copy.stream .outbound).str := by
  obtain ⟨c, done, given, str⟩ : ∃ c,
      execute Copying.turn (start (fun _ => {}) (answering .timeout [] [])) cutOff = .ok c ∧
      c.copy.given .outbound = [] ∧ (c.copy.stream .outbound).str = [104, 105] :=
    EndsIn.exists_ok (by decide +kernel)
  have honest : ∀ kernel ∈ cutOff, ∀ _ : Copying, kernel.WritesHonestly :=
    List.forall_mem_cons.mpr ⟨fun _ => honest_answering _ _ _,
      List.forall_mem_singleton.mpr fun _ => honest_answering _ _ _⟩
  have run := GuardedRun.of_execute (admitted_of_mem _ honest) done
  exact ⟨c, done, given, str, (copies_in_order run).1 .outbound⟩

end StreamCopy

end Sponge
