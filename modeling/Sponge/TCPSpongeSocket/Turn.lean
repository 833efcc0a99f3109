import Sponge.TCPSpongeSocket

/-!
# A turn of the loop

What holds of a socket between any two turns of its event loop.  The four rules are given
contracts once (`contract`), whatever the invariant: `Kept` lists what an invariant has to
survive, and `turn_meets` is what a turn then does, with all that can go wrong in it.

The contracts say what a rule may rely on although others were called before it: the
receiver is the one that the turn began with when a datagram is taken, and the owner has not
yet finished when its data is.

Main results:

* `turn_foreseen` — the loop never finds itself busy waiting, the connection never accepts less
  than was read for it, and no write to the owner fails.
* `exit_finished` — a loop that ends by itself has nothing left to hand over or to send, and has
  shut the pipe down if nothing more will come.

### What the contracts are for

Whether a datagram may be taken is a condition on the receiver at the beginning of the turn,
which is where those who let the network run can see it.  Rule 1 comes first in the list, so
no callback has been called before it; but a rule may have been cancelled, and for this it
matters that no cancellation touches the receiver (`cancel_receiver`).

The network asks that nothing is written after the end of a stream.  Here this is not asked
but shown: a pipe that was at its end is not read again.  Rule 2 relies on the flag that its
interest looks at, and of the rules before it none sets the flag.

Rules 3 and 4 rely on nothing, and so nothing can get in their way (`Apart.of_modest`).

### Several invariants

`Kept` is closed under conjunction (`Kept.and`), so invariants are proved one at a time:
`StillOpen` and `Noted` here, and the simulation of the network in
`TCPSpongeSocket.Refinement`.  Each needs only the lemmas on what a callback has done, and
none looks into the loop.

### The end of the loop

`inboundShutdown` is what the socket remembers, and `FDWrapper.shutdowns` is what it has
told the kernel.  `exit_finished` speaks of both, because an owner sees only the second;
`Noted` is the invariant that connects them.
-/

namespace Sponge

open EventLoop Runs

namespace TCPSpongeSocket

variable {A D : Type} [FdAdapter A D]

/-- The rules by their names. -/
inductive RuleName where
  | datagramIn
  | dataIn
  | dataOut
  | datagramOut
  deriving Repr, DecidableEq

/-- All four, in their order. -/
def RuleName.all : List RuleName := [.datagramIn, .dataIn, .dataOut, .datagramOut]

/-- The rules, as `_initialize_TCP` adds them. -/
def rule : RuleName → Rule (TCPSpongeSocket A D) SocketFault
  | .datagramIn => datagramIn
  | .dataIn => dataIn
  | .dataOut => dataOut
  | .datagramOut => datagramOut

/-- These are the rules. -/
theorem rules_eq : (rules : List (Rule (TCPSpongeSocket A D) SocketFault)) =
    RuleName.all.map rule := rfl

/-- **The exceptions that can leave a turn**: those of the kernel, of the adapter and of the
connection. -/
inductive Foreseen : LoopFault SocketFault → Prop
  | polled : Foreseen .polled
  | adapter (fault : AdapterFault) : Foreseen (.thrown (.adapter fault))
  | connection (fault : Fault) : Foreseen (.thrown (.connection fault))
  | read (fault : ReadFault) : Foreseen (.thrown (.read fault))
  | shutdown (errno : ℤ) : Foreseen (.thrown (.shutdown errno))

/-- **What an invariant has to survive** in a turn in which the kernel answers `kernel`, and which
began with the receiver `start`. -/
structure Kept (Inv : TCPSpongeSocket A D → Prop) (kernel : Kernel D) (start : TCPReceiver) :
    Prop where
  turn : ∀ s kernel', Inv s → Inv { s with kernel := kernel' }
  datagramIn : ∀ s s', Inv s → s.kernel = kernel → s.tcp.receiver = start →
    DatagramTaken s s' → Inv s'
  dataIn : ∀ s s', Inv s → s.outboundShutdown = false → DataTaken s s' → Inv s'
  endOutbound : ∀ s, Inv s → Inv s.endOutbound
  dataOut : ∀ s s', Inv s → DataGiven s s' → Inv s'
  written : ∀ s seg segs adapter ds, Inv s → s.tcp.segmentsOut = seg :: segs →
    FdAdapter.write s.datagramAdapter seg = .ok (adapter, ds) → Inv (s.written seg segs adapter ds)
  ticked : ∀ s ms, Inv s → Inv (s.ticked ms)

/-- Two invariants are one. -/
theorem Kept.and {Inv Inv' : TCPSpongeSocket A D → Prop} {kernel : Kernel D} {start : TCPReceiver}
    (kept : Kept Inv kernel start) (kept' : Kept Inv' kernel start) :
    Kept (fun s => Inv s ∧ Inv' s) kernel start where
  turn s kernel' h := ⟨kept.turn s kernel' h.1, kept'.turn s kernel' h.2⟩
  datagramIn s s' h same first taken :=
    ⟨kept.datagramIn s s' h.1 same first taken, kept'.datagramIn s s' h.2 same first taken⟩
  dataIn s s' h going taken := ⟨kept.dataIn s s' h.1 going taken, kept'.dataIn s s' h.2 going taken⟩
  endOutbound s h := ⟨kept.endOutbound s h.1, kept'.endOutbound s h.2⟩
  dataOut s s' h given := ⟨kept.dataOut s s' h.1 given, kept'.dataOut s s' h.2 given⟩
  written s seg segs adapter ds h queue hwrite :=
    ⟨kept.written s seg segs adapter ds h.1 queue hwrite,
      kept'.written s seg segs adapter ds h.2 queue hwrite⟩
  ticked s ms h := ⟨kept.ticked s ms h.1, kept'.ticked s ms h.2⟩

/-- The contracts.  The receiver is still the one that the turn began with when rule 1 is called, and
the owner has not finished when rule 2 is. -/
def contract (start : TCPReceiver) : RuleName → Contract (TCPSpongeSocket A D) SocketFault
  | .datagramIn => { rule := datagramIn, ready := fun s => s.tcp.receiver = start }
  | .dataIn => { rule := dataIn, ready := fun s => s.outboundShutdown = false }
  | .dataOut =>
      { rule := dataOut
        idle := fun s => s.tcp.receiver.streamOut.bufferEmpty = true ∧
          (s.inboundDone = true → s.inboundShutdown = true) }
  | .datagramOut => { rule := datagramOut, idle := fun s => s.tcp.segmentsOut = [] }

section Contracts

variable {Inv : TCPSpongeSocket A D → Prop} {kernel : Kernel D} {start : TCPReceiver}

/-- Between the callbacks of a turn. -/
def During (Inv : TCPSpongeSocket A D → Prop) (kernel : Kernel D) (s : TCPSpongeSocket A D) :
    Prop := Inv s ∧ s.kernel = kernel

/-- Rule 1 reads, so it is not a busy wait. -/
theorem honoured_datagramIn (kept : Kept Inv kernel start) (lawful : FdAdapter.Lawful A) :
    Honoured kernel.poll (During Inv kernel) (fun s => s.tcp.receiver = start) Foreseen
      (contract start .datagramIn : Contract (TCPSpongeSocket A D) SocketFault) where
  interested s _ first _ _ := first
  uninterested _ _ _ _ := trivial
  cancel s h _ := h
  callback s h ready := by
    refine (datagramIn_meets s).imp ?_ ?_
    · rintro s' taken
      have inv := kept.datagramIn s s' h.1 h.2 ready taken
      obtain ⟨out, adapter, ds, hread, -, frame⟩ := taken
      refine ⟨⟨inv, by rw [frame]; exact h.2⟩, fun same => ?_⟩
      have counted := (lawful.counted hread).1
      have hadapter : s'.datagramAdapter = adapter := by rw [frame]
      rw [← hadapter] at counted
      exact absurd same.symm counted
    · rintro fault (⟨f, rfl⟩ | ⟨f, rfl⟩)
      · exact .adapter f
      · exact .connection f

/-- So does rule 2; if it is cancelled, the owner has finished. -/
theorem honoured_dataIn (kept : Kept Inv kernel start) :
    Honoured kernel.poll (During Inv kernel) (fun s => s.tcp.receiver = start) Foreseen
      (contract start .dataIn : Contract (TCPSpongeSocket A D) SocketFault) where
  interested s _ _ _ interest := by
    simp only [contract, dataIn, Bool.and_eq_true, Bool.not_eq_eq_eq_not, Bool.not_true] at interest
    exact interest.1.2
  uninterested _ _ _ _ := trivial
  cancel s h _ := ⟨kept.endOutbound s h.1, h.2⟩
  callback s h ready := by
    refine (dataIn_meets s).imp ?_ ?_
    · rintro s' taken
      have inv := kept.dataIn s s' h.1 ready taken
      obtain ⟨data, threadData, hasRead, -, rfl⟩ := taken
      have same : (if threadData.eof then (s.accepted data threadData).endOutbound
          else s.accepted data threadData).kernel = s.kernel ∧
        (if threadData.eof then (s.accepted data threadData).endOutbound
          else s.accepted data threadData).threadData = threadData := by
        split <;> exact ⟨rfl, rfl⟩
      refine ⟨⟨inv, same.1.trans h.2⟩, fun count => ?_⟩
      have counted : s.threadData.readCount = threadData.readCount :=
        count.trans (congrArg FDWrapper.readCount same.2)
      exact absurd counted.symm hasRead.counted
    · rintro fault ⟨f, rfl⟩
      exact .read f

/-- Rule 3 writes, if only nothing at all. -/
theorem honoured_dataOut (kept : Kept Inv kernel start) (honest : kernel.WritesHonestly) :
    Honoured kernel.poll (During Inv kernel) (fun s => s.tcp.receiver = start) Foreseen
      (contract start .dataOut : Contract (TCPSpongeSocket A D) SocketFault) where
  interested _ _ _ _ _ := trivial
  uninterested s _ _ uninterested := by
    simp only [contract, dataOut, Bool.or_eq_false_iff, Bool.not_eq_false', Bool.and_eq_false_iff]
      at uninterested
    refine ⟨uninterested.1, fun done => ?_⟩
    rcases uninterested.2 with notDone | shut
    · rw [done] at notDone
      cases notDone
    · exact shut
  cancel s h _ := h
  callback s h _ := by
    refine (dataOut_meets s (h.2 ▸ honest)).imp ?_ ?_
    · rintro s' given
      have inv := kept.dataOut s s' h.1 given
      obtain ⟨n, -, rfl⟩ := given
      set s₁ := s.handedOver n (s.inboundBytes.take n) s.threadData.registerWrite with hs₁
      split
      · next done =>
        -- the write and the shutdown are both counted
        rw [if_pos done] at inv
        exact ⟨⟨inv, h.2⟩, fun same => absurd same.symm s.threadData.registerWrite_twice_ne⟩
      · next more =>
        rw [if_neg more] at inv
        exact ⟨⟨inv, h.2⟩, fun same => absurd same.symm s.threadData.registerWrite_ne⟩
    · rintro fault ⟨errno, rfl⟩
      exact .shutdown errno

/-- Rule 4 leaves nothing to be interested in. -/
theorem honoured_datagramOut (kept : Kept Inv kernel start) :
    Honoured kernel.poll (During Inv kernel) (fun s => s.tcp.receiver = start) Foreseen
      (contract start .datagramOut : Contract (TCPSpongeSocket A D) SocketFault) where
  interested _ _ _ _ _ := trivial
  uninterested s _ _ uninterested := by
    simpa [contract, datagramOut] using uninterested
  cancel s h _ := h
  callback s h _ := by
    have written : ∀ s seg segs adapter ds, During Inv kernel s → s.tcp.segmentsOut = seg :: segs →
        FdAdapter.write s.datagramAdapter seg = .ok (adapter, ds) →
          During Inv kernel (s.written seg segs adapter ds) :=
      fun s seg segs adapter ds h queue hwrite =>
        ⟨kept.written s seg segs adapter ds h.1 queue hwrite, h.2⟩
    refine (writeSegments_meets written h).imp ?_ ?_
    · -- the queue is empty, so that the rule has lost its interest
      rintro s' ⟨inv, empty⟩
      refine ⟨inv, fun _ interest => ?_⟩
      simp only [contract, datagramOut, empty, List.isEmpty_nil, Bool.not_true] at interest
      cases interest
    · rintro fault ⟨f, rfl⟩
      exact .adapter f

/-- **Every rule honours its contract.** -/
theorem honoured_contract (kept : Kept Inv kernel start) (honest : kernel.WritesHonestly)
    (lawful : FdAdapter.Lawful A) (name : RuleName) :
    Honoured kernel.poll (During Inv kernel) (fun s => s.tcp.receiver = start) Foreseen
      (contract start name : Contract (TCPSpongeSocket A D) SocketFault) := by
  cases name with
  | datagramIn => exact honoured_datagramIn kept lawful
  | dataIn => exact honoured_dataIn kept
  | dataOut => exact honoured_dataOut kept honest
  | datagramOut => exact honoured_datagramOut kept

/-- To cancel a rule does not touch the receiver. -/
theorem cancel_receiver {P : TCPSpongeSocket A D → Prop} (name : RuleName) :
    CancelKeeps P (contract start name) fun s => s.tcp.receiver = start := by
  intro s s' _ same hcancel
  cases name with
  | dataIn =>
      cases hcancel
      exact (TCPConnection.endInputStream_receiver s.tcp).trans same
  | datagramIn | dataOut | datagramOut =>
      cases hcancel
      exact same

/-- The first two do rely on something, and keep it for each other. -/
theorem apart_in {P : TCPSpongeSocket A D → Prop} :
    Apart P (contract start .datagramIn) (contract start .dataIn) where
  later_ready := cancel_receiver .dataIn
  later_idle _ _ _ _ _ := trivial
  earlier s s' _ h hcancel := by
    cases hcancel
    exact h
  called s s' _ _ h hcall := by
    rcases (datagramIn_meets s).cases with ⟨s₁, hcall', taken⟩ | ⟨fault, hcall', -⟩
    · cases hcall.symm.trans hcall'
      obtain ⟨out, adapter, ds, -, -, frame⟩ := taken
      rw [frame]
      exact h
    · cases hcall.symm.trans hcall'

/-- No rule gets in the way of another. -/
theorem apart_all {P : TCPSpongeSocket A D → Prop} :
    RuleName.all.Pairwise fun n n' => Apart P (contract start n) (contract start n') := by
  have dataOut : ∀ {c : Contract (TCPSpongeSocket A D) SocketFault},
      Apart P c (contract start .dataOut) := Apart.of_modest rfl fun _ => trivial
  have datagramOut : ∀ {c : Contract (TCPSpongeSocket A D) SocketFault},
      Apart P c (contract start .datagramOut) := Apart.of_modest rfl fun _ => trivial
  simp only [RuleName.all, List.pairwise_cons, List.forall_mem_cons, List.not_mem_nil,
    IsEmpty.forall_iff, implies_true, and_true, List.Pairwise.nil]
  exact ⟨⟨apart_in, dataOut, datagramOut⟩, ⟨dataOut, datagramOut⟩, datagramOut⟩

end Contracts

/-! ## A turn -/

/-- The contracts are about these rules. -/
theorem contract_rule (start : TCPReceiver) (name : RuleName) :
    (contract start name).rule = (rule name : Rule (TCPSpongeSocket A D) SocketFault) := by
  cases name <;> rfl

/-- What holds of the thread between two turns. -/
structure Between (Inv : TCPSpongeSocket A D → Prop) (names : List RuleName) (r : Running A D) :
    Prop where
  inv : Inv r.sock
  sublist : names.Sublist RuleName.all
  eventloop : r.eventloop = names.map rule

/-- **A turn has gone by.**  If it was the last one, the rules that are left have nothing to do.
Without a hangup, a rule that lasts is not erased. -/
structure Turned (Inv : TCPSpongeSocket A D → Prop) (kernel : Kernel D) (names : List RuleName)
    (r r' : Running A D) (left : List RuleName) : Prop where
  between : Between Inv left r'
  exit : r.phase = .main → r'.phase = .ended → kernel.abort = false →
    kernel.poll ≠ .failed eintr → ∀ name ∈ left, (contract r.sock.tcp.receiver name).idle r'.sock
  stay : kernel.poll.NoHangup → ∀ name ∈ names,
    Lasting (During Inv kernel) (contract r.sock.tcp.receiver name) → name ∈ left

/-- **The rule for a turn.**  The contracts of the four rules are checked once, against an
invariant that is left open; what is to be shown of a turn is then only that its calls keep it. -/
theorem turn_meets {Inv : TCPSpongeSocket A D → Prop} {kernel : Kernel D} {r : Running A D}
    (kept : Kept Inv kernel r.sock.tcp.receiver) (honest : kernel.WritesHonestly)
    (lawful : FdAdapter.Lawful A) {names : List RuleName} (h : Between Inv names r) :
    Meets (r.turn kernel) (fun r' => ∃ left, Turned Inv kernel names r r' left) Foreseen := by
  have here : During Inv kernel { r.sock with kernel := kernel } := ⟨kept.turn _ _ h.inv, rfl⟩
  have waited : Meets (waitNextEvent (names.map fun n => (contract r.sock.tcp.receiver n).rule)
        { r.sock with kernel := kernel } kernel.poll)
      (fun result => ∃ left, Waited kernel.poll (During Inv kernel) (contract r.sock.tcp.receiver)
        names { r.sock with kernel := kernel } result.1 result.2.1 result.2.2 left) Foreseen :=
    wait_meets (fun name _ => honoured_contract kept honest lawful name)
      (fun name _ => cancel_receiver name) (apart_all.sublist h.sublist) .polled here rfl
  simp only [contract_rule] at waited
  rw [Running.turn]
  split
  swap
  · next out =>
    refine ⟨names, ⟨h.inv, h.sublist, h.eventloop⟩, fun main => ?_, fun _ name hname _ => hname⟩
    rw [main] at out
    cases out rfl
  rw [h.eventloop]
  rcases waited.cases with ⟨⟨ret, rules, s⟩, hwait, left, waited⟩ | ⟨fault, hwait, foreseen⟩
  swap
  · rw [hwait]
    exact foreseen
  rw [hwait]
  have eventloop : rules = left.map rule := by
    simpa only [contract_rule] using waited.rules_eq
  have sublist := waited.sublist.trans h.sublist
  have stay := fun noHangup name hname => waited.mem_left noHangup (n := name) hname
  have between : ∀ phase baseTime, Between Inv left
      { sock := s, eventloop := rules, baseTime := baseTime, phase := phase } :=
    fun _ _ => ⟨waited.kept.1, sublist, eventloop⟩
  -- a turn that stays in its loop owes nothing about the end
  have going : ∀ r' : Running A D, r'.phase = r.phase → Between Inv left r' →
      Turned Inv kernel names r r' left := by
    intro r' same between'
    refine ⟨between', fun main ended => ?_, stay⟩
    rw [same, main] at ended
    cases ended
  simp only
  split
  · next last =>
    refine ⟨left, between _ _, fun _ _ abort interrupted => ?_, stay⟩
    -- the loop was left because no rule is interested, since nobody asked the thread to stop
    rcases last with exit | abort'
    · exact (waited.exit exit).resolve_left interrupted
    · rw [abort] at abort'
      cases abort'
  · split
    · exact ⟨left, going _ rfl ⟨kept.ticked _ _ waited.kept.1, sublist, eventloop⟩⟩
    · exact ⟨left, going _ rfl (between _ _)⟩

/-! ## From the start -/

/-- How a thread begins: after `connect` or after `listen_and_accept`. -/
def Opens (r : Running A D) : Prop :=
  (∃ cfg config made kernel, connect cfg config made kernel = .ok r) ∨
    ∃ cfg config made kernel, r = listenAndAccept cfg config made kernel

/-- A thread begins with all of its rules. -/
theorem Opens.between {Inv : TCPSpongeSocket A D → Prop} {r : Running A D} (opens : Opens r)
    (inv : Inv r.sock) : Between Inv RuleName.all r := by
  refine ⟨inv, .refl _, ?_⟩
  rcases opens with ⟨cfg, config, made, kernel, hconnect⟩ | ⟨cfg, config, made, kernel, rfl⟩
  · rw [connect] at hconnect
    simp only at hconnect
    split at hconnect
    · cases hconnect
    · exact Except.ok.inj hconnect ▸ rules_eq
  · exact rules_eq

/-- Nothing in particular is kept. -/
theorem kept_true (kernel : Kernel D) (start : TCPReceiver) :
    Kept (fun _ : TCPSpongeSocket A D => True) kernel start := by
  constructor <;> intros <;> trivial

/-- **The loop never finds itself busy waiting, the connection never accepts less than was read for
it, and no write to the owner fails**, whatever arrives and whenever.  What a turn can throw comes
from the kernel, from the adapter, or from a segment that the connection chokes on. -/
theorem turn_foreseen (lawful : FdAdapter.Lawful A) {start r : Running A D} (opens : Opens start)
    (run : GuardedRun Running.turn (fun _ kernel => kernel.WritesHonestly) start r)
    {kernel : Kernel D} (honest : kernel.WritesHonestly) {fault : LoopFault SocketFault}
    (thrown : r.turn kernel = .error fault) :
    fault ≠ .busyWait ∧ fault ≠ .thrown .acceptedLess ∧ ∀ f, fault ≠ .thrown (.write f) := by
  have between : ∃ names, Between (fun _ => True) names r := by
    refine run.invariant (fun r => ∃ names, Between (fun _ => True) names r)
      ⟨_, opens.between trivial⟩ ?_
    rintro r kernel r' ⟨names, between⟩ honest turned
    rcases (turn_meets (kept_true _ _) honest lawful between).cases with
      ⟨r'', turned', left, after⟩ | ⟨fault, thrown, -⟩
    · cases turned.symm.trans turned'
      exact ⟨left, after.between⟩
    · cases turned.symm.trans thrown
  obtain ⟨names, between⟩ := between
  rcases (turn_meets (kept_true _ _) honest lawful between).cases with
    ⟨r', turned, -⟩ | ⟨fault', thrown', foreseen⟩
  · cases thrown.symm.trans turned
  · cases thrown.symm.trans thrown'
    cases foreseen <;> simp

/-- A turn in which `poll` answers this, the datagram is there and the owner sends nothing. -/
def plainly (poll : PollAnswer) (payload : List UInt8) : Kernel (Address × List UInt8) :=
  { poll := poll
    datagram := (⟨2, 1000⟩, payload)
    data := { returned := 0, errno := 0, data := [] }
    writev := takesPage
    shutdown := ⟨0, 0⟩
    abort := false
    now := 0 }

theorem honest_plainly (poll : PollAnswer) (payload : List UInt8) :
    (plainly poll payload).WritesHonestly where
  writev := honest_takesPage
  narrow _ iovecs := by
    simp only [plainly, takesPage]
    omega

/-- A socket that waits for a connection over UDP. -/
def waiting : Running TCPOverUDPSocketAdapter (Address × List UInt8) :=
  listenAndAccept { fixedIsn := ⟨0⟩ } { source := ⟨0, 80⟩ } ({}, []) (plainly .timeout [])

/-- A SYN comes in. -/
def synRun : List (Kernel (Address × List UInt8)) :=
  [plainly (.ready [{ pollin := true }]) TCPOverUDPSocketAdapter.syn]

theorem turn_foreseen_polled :
    ∃ r fault, execute Running.turn waiting synRun = .ok r ∧ r.sock.tcp.segmentsOut ≠ [] ∧
      r.turn (plainly (.ready [{ pollerr := true }]) []) = .error fault ∧ fault ≠ .busyWait := by
  obtain ⟨r, done, queued, thrown⟩ : ∃ r, execute Running.turn waiting synRun = .ok r ∧
      r.sock.tcp.segmentsOut ≠ [] ∧
      FailsWith (r.turn (plainly (.ready [{ pollerr := true }]) [])) .polled :=
    EndsIn.exists_ok (by decide +kernel)
  have run : GuardedRun Running.turn (fun _ kernel => kernel.WritesHonestly) waiting r :=
    GuardedRun.of_execute (admitted_of_mem _ (List.forall_mem_singleton.mpr fun _ =>
      honest_plainly _ _)) done
  exact ⟨r, .polled, done, queued, thrown.eq_error,
    (turn_foreseen TCPOverUDPSocketAdapter.lawful (.inr ⟨_, _, _, _, rfl⟩) run (honest_plainly _ _)
      thrown.eq_error).1⟩

/-- Neither the pipe nor the device is closed. -/
def StillOpen (s : TCPSpongeSocket A D) : Prop :=
  s.threadData.closed = false ∧ (FdAdapter.fd s.datagramAdapter).closed = false

/-- No rule closes anything. -/
theorem kept_stillOpen (lawful : FdAdapter.Lawful A) (kernel : Kernel D) (start : TCPReceiver) :
    Kept (StillOpen : TCPSpongeSocket A D → Prop) kernel start where
  turn _ _ h := h
  datagramIn s s' h _ _ taken := by
    obtain ⟨out, adapter, ds, hread, -, frame⟩ := taken
    rw [frame]
    exact ⟨h.1, (lawful.counted hread).2.trans h.2⟩
  dataIn s s' h _ taken := by
    obtain ⟨data, threadData, hasRead, -, rfl⟩ := taken
    have pipe : threadData.closed = false := hasRead.closed.trans h.1
    split <;> exact ⟨pipe, h.2⟩
  endOutbound _ h := h
  dataOut s s' h given := by
    obtain ⟨n, -, rfl⟩ := given
    split <;> exact h
  written s seg segs adapter ds h _ hwrite := ⟨h.1, (lawful.write hwrite).trans h.2⟩
  ticked s ms h := ⟨h.1, (lawful.tick s.datagramAdapter ms).trans h.2⟩

/-- **The socket has noted that it has shut the pipe down** exactly if it has. -/
def Noted (s : TCPSpongeSocket A D) : Prop :=
  s.inboundShutdown = true ↔ How.wr ∈ s.threadData.shutdowns

/-- Rule 3 shuts the pipe down and notes it in one callback. -/
theorem kept_noted (kernel : Kernel D) (start : TCPReceiver) :
    Kept (Noted : TCPSpongeSocket A D → Prop) kernel start where
  turn _ _ h := h
  datagramIn s s' h _ _ taken := by
    obtain ⟨out, adapter, ds, -, -, frame⟩ := taken
    rw [frame]
    exact h
  dataIn s s' h _ taken := by
    obtain ⟨data, threadData, hasRead, -, rfl⟩ := taken
    have noted : s.inboundShutdown = true ↔ How.wr ∈ threadData.shutdowns := by
      rw [hasRead.shutdowns]
      exact h
    split <;> exact noted
  endOutbound _ h := h
  dataOut s s' h given := by
    obtain ⟨n, -, rfl⟩ := given
    split
    · exact ⟨fun _ => List.mem_append_right _ (List.mem_singleton.mpr rfl), fun _ => rfl⟩
    · exact h
  written _ _ _ _ _ h _ _ := h
  ticked _ _ h := h

/-- Neither has happened yet. -/
theorem Opens.noted {r : Running A D} (opens : Opens r) : Noted r.sock := by
  rcases opens with ⟨cfg, config, made, kernel, hconnect⟩ | ⟨cfg, config, made, kernel, rfl⟩
  · rw [connect_ok] at hconnect
    rw [← Except.ok.inj hconnect]
    exact ⟨nofun, nofun⟩
  · exact ⟨nofun, nofun⟩

/-- What the end of the loop relies on. -/
def Noting (s : TCPSpongeSocket A D) : Prop := StillOpen s ∧ Noted s

theorem kept_noting (lawful : FdAdapter.Lawful A) (kernel : Kernel D) (start : TCPReceiver) :
    Kept (Noting : TCPSpongeSocket A D → Prop) kernel start :=
  (kept_stillOpen lawful kernel start).and (kept_noted kernel start)

/-- The rules that write are never erased as long as nothing is hung up. -/
theorem lasting_out {kernel : Kernel D} {start : TCPReceiver} :
    Lasting (During (Noting : TCPSpongeSocket A D → Prop) kernel) (contract start .dataOut) ∧
      Lasting (During (Noting : TCPSpongeSocket A D → Prop) kernel)
        (contract start .datagramOut) :=
  ⟨fun _ h => h.1.1.1, fun _ h => h.1.1.2⟩

/-- The kernel writes honestly, and nothing is hung up. -/
def Quiet (_ : Running A D) (kernel : Kernel D) : Prop :=
  kernel.WritesHonestly ∧ kernel.poll.NoHangup

/-- A turn without hangups leaves the two rules in the list. -/
theorem turned_of_quiet (lawful : FdAdapter.Lawful A) {names : List RuleName} {r r' : Running A D}
    {kernel : Kernel D} (between : Between Noting names r) (quiet : Quiet r kernel)
    (turned : r.turn kernel = .ok r') (dataOut : .dataOut ∈ names)
    (datagramOut : .datagramOut ∈ names) :
    ∃ left, Turned Noting kernel names r r' left ∧ .dataOut ∈ left ∧ .datagramOut ∈ left := by
  rcases (turn_meets (kept_noting lawful _ _) quiet.1 lawful between).cases with
    ⟨r'', turned', left, after⟩ | ⟨fault, thrown, -⟩
  · cases turned.symm.trans turned'
    exact ⟨left, after, after.stay quiet.2 _ dataOut lasting_out.1,
      after.stay quiet.2 _ datagramOut lasting_out.2⟩
  · cases turned.symm.trans thrown

/-- **A loop that ends by itself has finished its work**: the inbound stream is empty, the pipe to
the owner has been shut down for writing if there will be nothing more, and no segment is left to
send. -/
theorem exit_finished (lawful : FdAdapter.Lawful A) {start r r' : Running A D} (opens : Opens start)
    (isOpen : StillOpen start.sock) (run : GuardedRun Running.turn Quiet start r)
    {kernel : Kernel D} (quiet : Quiet r kernel) (turned : r.turn kernel = .ok r')
    (main : r.phase = .main) (ended : r'.phase = .ended) (abort : kernel.abort = false)
    (interrupted : kernel.poll ≠ .failed eintr) :
    r'.sock.tcp.receiver.streamOut.bufferEmpty = true ∧
      (r'.sock.inboundDone = true →
        r'.sock.inboundShutdown = true ∧ How.wr ∈ r'.sock.threadData.shutdowns) ∧
      r'.sock.tcp.segmentsOut = [] := by
  have between : ∃ names, Between Noting names r ∧ .dataOut ∈ names ∧ .datagramOut ∈ names := by
    refine run.invariant
      (fun r => ∃ names, Between Noting names r ∧ .dataOut ∈ names ∧ .datagramOut ∈ names)
      ⟨_, opens.between ⟨isOpen, opens.noted⟩, by decide, by decide⟩ ?_
    rintro r kernel r' ⟨names, between, dataOut, datagramOut⟩ quiet turned
    obtain ⟨left, after, stay⟩ := turned_of_quiet lawful between quiet turned dataOut datagramOut
    exact ⟨left, after.between, stay⟩
  obtain ⟨names, between, dataOut, datagramOut⟩ := between
  obtain ⟨left, after, dataOut', datagramOut'⟩ :=
    turned_of_quiet lawful between quiet turned dataOut datagramOut
  have idle := after.exit main ended abort interrupted
  obtain ⟨empty, shut⟩ := idle _ dataOut'
  exact ⟨empty, fun done => ⟨shut done, after.between.inv.2.mp (shut done)⟩, idle _ datagramOut'⟩

/-- The peer's RST. -/
def rst : List UInt8 :=
  [0x03, 0xe8, 0x00, 0x50, 0, 0, 0, 1, 0, 0, 0, 0, 0x50, 0x04, 0x04, 0x00, 0xa7, 0xc2, 0, 0]

/-- A connection comes in, is answered, and is reset; the owner is told. -/
def resetRun : List (Kernel (Address × List UInt8)) :=
  [plainly (.ready [{ pollin := true }]) TCPOverUDPSocketAdapter.syn,
    plainly (.ready [{ pollin := true }, {}, {}, { pollout := true }]) rst,
    plainly .timeout [],
    plainly (.ready [{}, {}, { pollout := true }, {}]) []]

theorem exit_finished_reset :
    ∃ r r', execute Running.turn waiting resetRun = .ok r ∧ r.turn (plainly .timeout []) = .ok r' ∧
      r'.phase = .ended ∧ r'.sock.device ≠ [] ∧ How.wr ∈ r'.sock.threadData.shutdowns := by
  obtain ⟨r, done, main, r', turned, ended, sent, inboundDone⟩ : ∃ r,
      execute Running.turn waiting resetRun = .ok r ∧ r.phase = .main ∧
        ∃ r', r.turn (plainly .timeout []) = .ok r' ∧ r'.phase = .ended ∧
          r'.sock.device ≠ [] ∧ r'.sock.inboundDone = true := by
    obtain ⟨r, done, main, last⟩ : ∃ r, execute Running.turn waiting resetRun = .ok r ∧
        r.phase = .main ∧ EndsIn (r.turn (plainly .timeout [])) fun r' => r'.phase = .ended ∧
          r'.sock.device ≠ [] ∧ r'.sock.inboundDone = true := EndsIn.exists_ok (by decide +kernel)
    exact ⟨r, done, main, last.exists_ok⟩
  have quiet : ∀ op ∈ resetRun, ∀ r, Quiet (A := TCPOverUDPSocketAdapter) r op := by
    intro op hop r
    simp only [resetRun, List.mem_cons, List.not_mem_nil, or_false] at hop
    rcases hop with rfl | rfl | rfl | rfl <;>
      exact ⟨honest_plainly _ _, by simp [plainly, PollAnswer.NoHangup]⟩
  have run := GuardedRun.of_execute (admitted_of_mem waiting quiet) done
  have finished := exit_finished TCPOverUDPSocketAdapter.lawful (.inr ⟨_, _, _, _, rfl⟩) ⟨rfl, rfl⟩
    run ⟨honest_plainly .timeout [], trivial⟩ turned main ended rfl (by simp [plainly])
  exact ⟨r, r', done, turned, ended, sent, (finished.2.1 inboundDone).2⟩

end TCPSpongeSocket

end Sponge
