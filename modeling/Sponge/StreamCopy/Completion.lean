import Sponge.StreamCopy

/-!
# Copying to the end

When does `bidirectional_stream_copy` return, and what has it done by then?  The loop ends
when no rule that is left is interested.  That says little by itself, since a rule may have
been erased with work still to do; it says what one hopes for as long as nothing is hung up
(`copies_all`).  Then a rule that reads is only erased when its source has come to its end,
and a rule that writes only when its sink has been closed, which comes after the end of the
stream (`Attended`).

The result is about the descriptors and not about `_outbound_shutdown` and
`_inbound_shutdown`: what the peer sees is the SHUT_WR on the socket, and the flags are only
how the function remembers it. That the call is made once and not again rests on the
interest of the rule that makes it: a rule can be called in a state it is no longer
interested in, but none of the others takes away what it was interested in (`Wanting`).

### From idle to finished

When the loop ends, what is known is that each rule that is left has nothing to do.  For a
way whose two rules are both left, nothing to do means a stream without room, on the side of
the source, and an empty stream on the side of the sink, and a stream of a megabyte is not
both.  So one of the rules is missing, and `Attended` says why: the source has come to its
end, or the sink was finished.  In the first case the stream is at its end too and the rule
that writes has nothing to do only because it is done (`Orderly.finished`).

### Hangups

A hangup erases a rule whatever is left to do, and that is not a fault of the loop but all
it can do.  `copies_in_order` covers it: nothing is reordered.  But what is in the stream
then stays there, so `copies_all` has to exclude it.
-/

namespace Sponge

open EventLoop Runs

namespace StreamCopy

/-! ## One way -/

/-- A way as long as nothing is hung up: the stream has ended when the source has, and the sink is
finished only after all of it. -/
structure Orderly (s : StreamCopy) (way : Way) : Prop where
  isOpen : (s.fd way.source).closed = false
  ended : (s.stream way).inputIsEnd = (s.fd way.source).eof
  shut : s.isShutdown way = true → (s.stream way).eof = true
  closed : (s.fd way.sink).closed = (way.closes && s.isShutdown way)
  shutdowns : (s.fd way.sink).shutdowns = if s.isShutdown way then way.shutdowns else []

/-- A sink that is closed is finished. -/
theorem Orderly.shut_of_closed {s : StreamCopy} {way : Way} (h : s.Orderly way)
    (closed : (s.fd way.sink).closed = true) : s.isShutdown way = true :=
  (Bool.and_eq_true_iff.mp (h.closed.symm.trans closed)).2

/-- Both ways are orderly. -/
structure AllOrderly (s : StreamCopy) : Prop where
  flowing : s.Flowing
  orderly : ∀ way, s.Orderly way

/-- The end of a stream is the end of its source. -/
theorem filled_inputIsEnd (b : ByteStream) (data : List UInt8) (eof : Bool) :
    (filled b data eof).inputIsEnd = (b.inputIsEnd || eof) := by
  cases eof with
  | false => exact (Bool.or_false _).symm
  | true => exact (Bool.or_true _).symm

/-- Reading keeps both ways orderly. -/
theorem Orderly.pulled {s s' : StreamCopy} {way : Way} (h : ∀ way, s.Orderly way)
    (running : (s.fd way.source).eof = false) (pulled : Pulled way s s') (way' : Way) :
    s'.Orderly way' := by
  obtain ⟨data, fd, hasRead, rfl⟩ := pulled
  obtain ⟨isOpen, ended, shut, closed, shutdowns⟩ := h way'
  have same : ∀ d, (Function.update s.fd way.source fd d).closed = (s.fd d).closed ∧
      (Function.update s.fd way.source fd d).shutdowns = (s.fd d).shutdowns := by
    intro d
    by_cases same : d = way.source
    · rw [same, Function.update_self]
      exact ⟨hasRead.closed, hasRead.shutdowns⟩
    · rw [Function.update_of_ne same]
      exact ⟨rfl, rfl⟩
  refine ⟨(same _).1.trans isOpen, ?_, fun isShut => ?_, (same _).1.trans closed,
    (same _).2.trans shutdowns⟩
  · by_cases here : way' = way
    · subst here
      simp only [Function.update_self]
      rw [filled_inputIsEnd, ended, running, Bool.false_or]
    · have hsource : way'.source ≠ way.source := fun h => here (Way.source_injective h)
      simpa only [Function.update_of_ne here, Function.update_of_ne hsource] using ended
  · by_cases here : way' = way
    · -- a way that is finished has come to its end, and is not read any more
      subst here
      have eof := (Bool.and_eq_true_iff.mp (shut isShut)).1
      rw [ByteStream.inputEnded, ended, running] at eof
      cases eof
    · simpa only [Function.update_of_ne here] using shut isShut

/-- Of the sinks only the socket is a source too, and to write to it leaves its flags alone. -/
theorem Written.source {s : StreamCopy} {way : Way} {eof : Bool} {fd : FDWrapper}
    (written : Written way eof (s.fd way.sink) fd) (way' : Way) :
    (Function.update s.fd way.sink fd way'.source).eof = (s.fd way'.source).eof ∧
      (Function.update s.fd way.sink fd way'.source).closed = (s.fd way'.source).closed := by
  by_cases same : way'.source = way.sink
  · have out : way = .outbound := by
      cases way with
      | outbound => rfl
      | inbound => cases way' <;> cases same
    subst out
    rw [same, Function.update_self]
    exact ⟨written.same rfl, written.closed.trans (Bool.or_false _)⟩
  · rw [Function.update_of_ne same]
    exact ⟨rfl, rfl⟩

/-- A way that still wants something done is not finished. -/
theorem Orderly.unfinished {s : StreamCopy} {way : Way} (h : s.Orderly way)
    (wanting : Wanting (s.stream way) (s.isShutdown way)) : s.isShutdown way = false := by
  refine Bool.eq_false_iff.mpr fun isShut => ?_
  have empty := (Bool.and_eq_true_iff.mp (h.shut isShut)).2
  rw [(wanting empty).2] at isShut
  cases isShut

/-- Writing keeps both ways orderly. -/
theorem Orderly.pushed {s s' : StreamCopy} {way : Way} (h : ∀ way, s.Orderly way)
    (wanting : Wanting (s.stream way) (s.isShutdown way)) (pushed : Pushed way s s') (way' : Way) :
    s'.Orderly way' := by
  have unfinished := (h way).unfinished wanting
  obtain ⟨n, fd, -, written, rfl⟩ := pushed
  obtain ⟨isOpen, ended, shut, closed, shutdowns⟩ := h way'
  have sameSource := written.source way'
  by_cases same : way' = way
  · subst same
    rw [unfinished] at closed shutdowns
    refine ⟨sameSource.2.trans isOpen, ?_, fun isShut => ?_, ?_, ?_⟩
    · simp only [Function.update_self]
      exact ended.trans sameSource.1.symm
    · simpa only [Function.update_self, unfinished, Bool.false_or] using isShut
    · simp only [Function.update_self, unfinished, Bool.false_or]
      rw [written.closed, closed, Bool.and_false, Bool.false_or]
    · simp only [Function.update_self, unfinished, Bool.false_or]
      rw [written.shutdowns, shutdowns]
      rfl
  · have hsink : way'.sink ≠ way.sink := fun h => same (Way.sink_injective h)
    refine ⟨sameSource.2.trans isOpen, ?_, ?_, ?_, ?_⟩
    · simp only [Function.update_of_ne same]
      exact ended.trans sameSource.1.symm
    · simpa only [Function.update_of_ne same] using shut
    · simpa only [Function.update_of_ne same, Function.update_of_ne hsink] using closed
    · simpa only [Function.update_of_ne same, Function.update_of_ne hsink] using shutdowns

/-- The rule that is cancelled finds its stream at its end already. -/
theorem Orderly.cancelled {s : StreamCopy} (h : ∀ way, s.Orderly way) {name : RuleName}
    (defunct : (contract name).rule.defunct s = true) :
    (s.fd name.way.source).eof = true := by
  cases name with
  | pull way =>
      have defunct : ((s.fd way.source).eof || (s.fd way.source).closed) = true := defunct
      rw [(h way).isOpen, Bool.or_false] at defunct
      exact defunct
  | push way =>
      have eof := (h way).shut ((h way).shut_of_closed defunct)
      exact (h way).ended ▸ (Bool.and_eq_true_iff.mp eof).1

/-- Ending a stream whose source has ended changes nothing. -/
theorem Orderly.endInput {s : StreamCopy} (h : ∀ way, s.Orderly way) {way : Way}
    (eof : (s.fd way.source).eof = true) (way' : Way) : (s.endInput way).Orderly way' := by
  obtain ⟨isOpen, ended, shut, closed, shutdowns⟩ := h way'
  by_cases same : way' = way
  · subst same
    refine ⟨isOpen, ?_, fun isShut => ?_, closed, shutdowns⟩
    · rw [endInput_same]
      exact eof.symm
    · rw [endInput_same]
      exact Bool.and_eq_true_iff.mpr ⟨rfl, (Bool.and_eq_true_iff.mp (shut isShut)).2⟩
  · refine ⟨isOpen, ?_, fun isShut => ?_, closed, shutdowns⟩
    · rw [endInput_other s same]
      exact ended
    · rw [endInput_other s same]
      exact shut isShut

/-- **The ways stay orderly** as long as nothing is hung up. -/
theorem kept_orderly {answer : PollAnswer} (noHangup : answer.NoHangup) :
    Kept AllOrderly answer where
  noError _ way h := (h.flowing way).error
  turn s kernel h := ⟨h.flowing, fun way =>
    ⟨(h.orderly way).isOpen, (h.orderly way).ended, (h.orderly way).shut, (h.orderly way).closed,
      (h.orderly way).shutdowns⟩⟩
  pulled _ _ _ h running pulled :=
    ⟨h.flowing.pulled pulled, Orderly.pulled h.orderly running pulled⟩
  pushed _ _ _ h wanting pushed :=
    ⟨h.flowing.pushed pushed, Orderly.pushed h.orderly wanting pushed⟩
  endInput s name h erasable s' cancelled := by
    rw [cancel_eq] at cancelled
    have eof := Orderly.cancelled h.orderly (erasable noHangup)
    exact Except.ok.inj cancelled ▸ ⟨h.flowing.endInput _, Orderly.endInput h.orderly eof⟩

/-! ## The rules that are left -/

/-- The end of a source is not taken back. -/
theorem Called.eof {name : RuleName} {s s' : StreamCopy} (called : Called name s s') {way : Way}
    (eof : (s.fd way.source).eof = true) : (s'.fd way.source).eof = true := by
  cases name with
  | pull way' =>
      obtain ⟨data, fd, hasRead, rfl⟩ := called
      show (Function.update s.fd way'.source fd way.source).eof = true
      by_cases same : way.source = way'.source
      · rw [same, Function.update_self]
        exact hasRead.eof (same ▸ eof)
      · rw [Function.update_of_ne same]
        exact eof
  | push way' =>
      obtain ⟨n, fd, -, written, rfl⟩ := called
      exact (written.source way).1.trans eof

/-- Nor is it taken back that a way is finished. -/
theorem Called.isShutdown {name : RuleName} {s s' : StreamCopy} (called : Called name s s')
    {way : Way} (shut : s.isShutdown way = true) : s'.isShutdown way = true := by
  cases name with
  | pull way' =>
      obtain ⟨data, fd, -, rfl⟩ := called
      exact shut
  | push way' =>
      obtain ⟨n, fd, -, -, rfl⟩ := called
      show Function.update s.isShutdown way' _ way = true
      by_cases same : way = way'
      · subst same
        rw [Function.update_self, shut, Bool.true_or]
      · rw [Function.update_of_ne same]
        exact shut

/-- A rule is missing only if its work is done.  So the rules that are left account for all the
work that remains. -/
structure Attended (names : List RuleName) (s : StreamCopy) (way : Way) : Prop where
  pull : .pull way ∈ names ∨ (s.fd way.source).eof = true
  push : .push way ∈ names ∨ s.isShutdown way = true

/-- A rule that goes leaves its work done. -/
theorem Turned.attended {kernel : CopyKernel} {names left : List RuleName} {c c' : Copying}
    (noHangup : kernel.poll.NoHangup) (turned : Turned AllOrderly kernel names c c' left) {way : Way}
    (before : Attended names c.copy way) : Attended left c'.copy way := by
  refine ⟨?_, ?_⟩
  · rcases before.pull with here | eof
    · refine (turned.gone _ here).imp_right fun gone => gone (fun s => (s.fd way.source).eof = true)
        (fun s h erasable => ?_) (fun s way eof => eof) fun s s' name _ called => called.eof
      exact Orderly.cancelled h.orderly (erasable noHangup)
    · exact .inr (turned.stable (fun s => (s.fd way.source).eof = true) (fun _ h => h)
        (fun _ _ h => h) (fun _ _ _ _ called => called.eof) eof)
  · rcases before.push with here | shut
    · refine (turned.gone _ here).imp_right fun gone => gone (fun s => s.isShutdown way = true)
        (fun s h erasable => ?_) (fun s way shut => shut) fun s s' name _ called => called.isShutdown
      exact (h.orderly way).shut_of_closed (erasable noHangup)
    · exact .inr (turned.stable (fun s => s.isShutdown way = true) (fun _ h => h)
        (fun _ _ h => h) (fun _ _ _ _ called => called.isShutdown) shut)

/-- The kernel writes honestly, and nothing is hung up. -/
def Quiet (_ : Copying) (kernel : CopyKernel) : Prop :=
  kernel.WritesHonestly ∧ kernel.poll.NoHangup

/-- One turn, with all that is known about it. -/
theorem turned_of_quiet {kernel : CopyKernel} {c c' : Copying} (quiet : Quiet c kernel)
    (turned : c.turn kernel = .ok c')
    (before : ∃ names, Between AllOrderly names c ∧ ∀ way, Attended names c.copy way) :
    ∃ left, Between AllOrderly left c' ∧ (∀ way, Attended left c'.copy way) ∧
      (c.returned = false → c'.returned = true → kernel.poll ≠ .failed eintr →
        ∀ name ∈ left, (contract name).idle c'.copy) := by
  obtain ⟨names, between, attended⟩ := before
  rcases (turn_meets (kept_orderly quiet.2) quiet.1 between).cases with
    ⟨c'', turned', left, after⟩ | ⟨fault, thrown, -⟩
  · cases turned.symm.trans turned'
    exact ⟨left, after.between, fun way => after.attended quiet.2 (attended way), after.returned⟩
  · cases turned.symm.trans thrown

/-- A way that leaves its rules nothing to do has come to its end. -/
theorem Orderly.finished {s : StreamCopy} {way : Way} {left : List RuleName}
    (flows : Flows (s.taken way) (s.given way) (s.stream way)) (h : s.Orderly way)
    (attended : Attended left s way) (idle : ∀ name ∈ left, (contract name).idle s) :
    s.isShutdown way = true := by
  rcases attended.push with here | shut
  swap
  · exact shut
  obtain ⟨empty, shut⟩ := idle _ here
  rcases attended.pull with here | eof
  · -- a stream that is empty is not full
    have full : (s.stream way).remainingCapacity = 0 := idle _ here
    rw [flows.inv.remainingCapacity_eq, flows.capacity, flows.inv.bufferEmpty_iff.mp empty] at full
    cases full
  · exact shut (Bool.and_eq_true_iff.mpr ⟨h.ended.trans eof, empty⟩)

/-- **Everything is copied.**  If nothing is hung up and no signal interrupts, the function returns
only when both sources have come to their end, all that was read has been written, the socket has
been shut down for writing, once and in no other way, and standard output has been closed. -/
theorem copies_all {fd : Descriptor → FDWrapper}
    (fresh : ∀ d, (fd d).eof = false ∧ (fd d).closed = false ∧ (fd d).shutdowns = [])
    {kernel₀ : CopyKernel} {c c' : Copying}
    (run : GuardedRun Copying.turn Quiet (start fd kernel₀) c) (running : c.returned = false)
    {kernel : CopyKernel} (quiet : Quiet c kernel) (turned : c.turn kernel = .ok c')
    (returned : c'.returned = true) (interrupted : kernel.poll ≠ .failed eintr) :
    (∀ way, c'.copy.given way = c'.copy.taken way ∧ (c'.copy.fd way.source).eof = true) ∧
      (c'.copy.fd .socket).shutdowns = [.wr] ∧ (c'.copy.fd .output).closed = true := by
  have before : ∃ names, Between AllOrderly names c ∧ ∀ way, Attended names c.copy way := by
    refine run.invariant
      (fun c => ∃ names, Between AllOrderly names c ∧ ∀ way, Attended names c.copy way)
      ⟨_, between_start ⟨fun _ => flows_new, fun way => ?_⟩, fun way => ?_⟩ ?_
    · exact ⟨(fresh way.source).2.1, (fresh way.source).1.symm, nofun,
        (fresh way.sink).2.1.trans (Bool.and_false _).symm, (fresh way.sink).2.2⟩
    · cases way <;> exact ⟨.inl (by decide), .inl (by decide)⟩
    · intro c kernel c' before quiet turned
      obtain ⟨left, between, attended, -⟩ := turned_of_quiet quiet turned before
      exact ⟨left, between, attended⟩
  obtain ⟨left, between, attended, idle⟩ := turned_of_quiet quiet turned before
  have orderly := between.inv.orderly
  have shut : ∀ way, c'.copy.isShutdown way = true := fun way =>
    (orderly way).finished (between.inv.flowing way) (attended way)
      (idle running returned interrupted)
  refine ⟨fun way => ?_, ?_, ?_⟩
  · have flows := between.inv.flowing way
    obtain ⟨ended, empty⟩ := flows.inv.eof_iff.mp ((orderly way).shut (shut way))
    refine ⟨?_, (orderly way).ended ▸ ended⟩
    rw [flows.balance, empty, List.append_nil]
  · have shutdowns := (orderly .outbound).shutdowns
    rwa [shut .outbound] at shutdowns
  · have closed := (orderly .inbound).closed
    rwa [shut .inbound] at closed

/-- Something is typed and something else comes in, both are copied, and both sources end. -/
def exchange : List CopyKernel :=
  [answering (.ready [{ pollin := true }, {}, { pollin := true }]) [104, 105] [33],
    answering (.ready [{}, { pollout := true }, {}, { pollout := true }]) [] [],
    answering (.ready [{ pollin := true }, {}, { pollin := true }]) [] [],
    answering (.ready [{ pollout := true }, { pollout := true }]) [] []]

theorem copies_all_exchange :
    ∃ c c', execute Copying.turn (start (fun _ => {}) (answering .timeout [] [])) exchange = .ok c ∧
      c.turn (answering .timeout [] []) = .ok c' ∧ c'.returned = true ∧
      c'.copy.taken .outbound = [104, 105] ∧
      c'.copy.given .outbound = c'.copy.taken .outbound ∧
      (c'.copy.fd .socket).shutdowns = [.wr] ∧ (c'.copy.fd .output).closed = true := by
  obtain ⟨c, done, running, c', turned, returned, taken⟩ : ∃ c,
      execute Copying.turn (start (fun _ => {}) (answering .timeout [] [])) exchange = .ok c ∧
      c.returned = false ∧ ∃ c', c.turn (answering .timeout [] []) = .ok c' ∧
        c'.returned = true ∧ c'.copy.taken .outbound = [104, 105] := by
    obtain ⟨c, done, running, last⟩ : ∃ c,
        execute Copying.turn (start (fun _ => {}) (answering .timeout [] [])) exchange = .ok c ∧
        c.returned = false ∧ EndsIn (c.turn (answering .timeout [] [])) fun c' =>
          c'.returned = true ∧ c'.copy.taken .outbound = [104, 105] :=
      EndsIn.exists_ok (by decide +kernel)
    exact ⟨c, done, running, last.exists_ok⟩
  have quiet : ∀ kernel ∈ exchange, ∀ c, Quiet c kernel := by
    intro kernel hkernel c
    simp only [exchange, List.mem_cons, List.not_mem_nil, or_false] at hkernel
    rcases hkernel with rfl | rfl | rfl | rfl <;>
      exact ⟨honest_answering _ _ _, by simp [answering, PollAnswer.NoHangup]⟩
  have run := GuardedRun.of_execute (admitted_of_mem _ quiet) done
  obtain ⟨copied, shutdowns, closed⟩ := copies_all (fun _ => ⟨rfl, rfl, rfl⟩) run running
    ⟨honest_answering .timeout [] [], trivial⟩ turned returned (by simp [answering])
  exact ⟨c, c', done, turned, returned, taken, (copied .outbound).1, shutdowns, closed⟩

end StreamCopy

end Sponge
