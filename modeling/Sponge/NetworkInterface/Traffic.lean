import Mathlib.Data.List.Forall2
import Mathlib.Data.List.TakeWhile
import Sponge.Library.GuardedRun
import Sponge.NetworkInterface

/-!
# What becomes of the datagrams of an interface

An interface among strangers: frames of any content arrive, at any time, and the owner
submits datagrams and lets time pass.  A call that throws also leaves an interface behind,
so `next` says what each call leaves whether it returns or throws.

* `no_loss_no_duplication` — as long as the datagrams submitted can be serialised, each of
  them is pending or has been put on the wire, once, in a frame for its next hop; and what
  one frame makes the interface send is sent in the order of submission.
* `none_waits_for_known` — no datagram is pending for an address that is in the mapping,
  **as long as** no ARP request comes from an address that datagrams are pending for.
* `waits_for_known` — such a request is learned from, and the datagrams stay pending.
* `flush_loses_nothing_iff` — a reply that throws loses datagrams, **unless** all that wait
  for its sender can be serialised, when it does not throw.
* `flush_loses` — a datagram that is lost because another one cannot be serialised.

### Calls that throw

An exception does not undo what a call has done so far, and an owner may catch it and go
on.  So `next` is total, and a run goes on after an exception with whatever it left: nothing
after `send_datagram`, which throws before it changes anything, and after a `recv_frame` an
interface that has learned an address, has emptied its list and has sent some of the
datagrams (`afterRecv`).  The results are about all runs of `next`, the ones with exceptions
included, except where a condition excludes them.

### Counting by permutation

*Each datagram once* is a statement about lists with repetitions: the same datagram may be
submitted twice and must then be sent twice.  `Balanced` therefore says that what was
submitted is a permutation of what is pending and what was sent, and `Moves` is the same for
one call.  The frames carry no identity, so they are matched with the datagrams by what they
carry, position by position.

### Why the next hop is that of the call

A call sends to one next hop at most: a submission to its own, a reply to its sender's.
`emitted` records the hop with the frame, and this is what makes it possible to say that a
frame was sent for the right hop, although neither the frame nor its Ethernet address tells
which one that was.
-/

namespace Sponge

open Runs Expiry

namespace NetworkInterface

/-! ## What a call leaves behind -/

/-- The ARP message that a frame brings: the frame is for this interface, its payload is
one buffer, and there is a supported message in it. -/
def heard (ni : NetworkInterface) (frame : EthernetFrame) : Option ARPMessage :=
  if (frame.header.dst = ni.ethernetAddress ∨ frame.header.dst = EthernetAddress.broadcast) ∧
      frame.header.type = EthernetHeader.typeARP then
    match frame.payload.toBuffer with
    | .error _ => none
    | .ok payload =>
        match ({} : ARPMessage).parse payload with
        | (.noError, msg) => some msg
        | _ => none
  else none

/-- The datagrams are sent one after the other, up to the first that throws. -/
def sendUntilThrow : NetworkInterface → List (IPv4Datagram × Address) → NetworkInterface
  | ni, [] => ni
  | ni, e :: rest =>
      match ni.sendDatagram e.1 e.2 with
      | .ok ni => ni.sendUntilThrow rest
      | .error _ => ni

/-- The interface after `send_datagram`, which throws before it changes anything. -/
def afterSend (ni : NetworkInterface) (dgram : IPv4Datagram) (nextHop : Address) :
    NetworkInterface :=
  match ni.sendDatagram dgram nextHop with
  | .ok ni => ni
  | .error _ => ni

/-- The interface after `recv_frame`.  A payload of several buffers makes it throw before it
changes anything; a pending datagram that cannot be serialised makes it throw out of the
second loop over the pending datagrams, when the first loop has taken them all from the
list. -/
def afterRecv (ni : NetworkInterface) (frame : EthernetFrame) : NetworkInterface :=
  match ni.recvFrame frame with
  | .ok (_, ni) => ni
  | .error _ =>
      match ni.heard frame with
      | none => ni
      | some msg =>
          { ni.learn msg with
            pendingList := ni.pendingList.filter fun e => e.2.ipv4Numeric ≠ msg.senderIpAddress
          }.sendUntilThrow
            (ni.pendingList.filter fun e => e.2.ipv4Numeric = msg.senderIpAddress)

/-- A call on an interface by its owner or by the network. -/
inductive Op where
  | sendDatagram (dgram : IPv4Datagram) (nextHop : Address)
  | recvFrame (frame : EthernetFrame)
  | tick (ms : ℕ)

/-- The interface after a call, whether it returned or threw. -/
def next (ni : NetworkInterface) : Op → NetworkInterface
  | .sendDatagram dgram nextHop => ni.afterSend dgram nextHop
  | .recvFrame frame => ni.afterRecv frame
  | .tick ms => ni.tick ms

/-- No call fails in the sense of a run: what an exception leaves is the next state. -/
def step (ni : NetworkInterface) (op : Op) : Except Empty NetworkInterface := .ok (ni.next op)

/-! ## Sending -/

section Send

variable {ni : NetworkInterface} {d : IPv4Datagram} {hop : Address}

/-- A datagram that cannot be serialised is not sent. -/
theorem sendDatagram_throws (known : ni.mapping hop.ipv4Numeric ≠ none)
    (not : ¬ d.Serializable) : ∃ fault, ni.sendDatagram d hop = .error fault := by
  obtain ⟨⟨address, t⟩, hmap⟩ := Option.ne_none_iff_exists'.mp known
  cases hserialize : d.serialize with
  | error fault => exact ⟨fault, by simp only [sendDatagram, hmap, hserialize, bind, Except.bind]⟩
  | ok payload => exact absurd (IPv4Datagram.serializable_of_serialize hserialize) not

/-- A datagram that can be serialised is no trouble. -/
theorem sendDatagram_returns (ni : NetworkInterface) (serializable : d.Serializable)
    (hop : Address) : ni.sendDatagram d hop = .ok (ni.afterSend d hop) := by
  rw [afterSend, sendDatagram_eq ni fun _ => serializable]

/-- A datagram for a known address is sent, or throws and changes nothing. -/
theorem afterSend_of_known {address : EthernetAddress} {t : ℕ}
    (known : ni.mapping hop.ipv4Numeric = some (address, t)) :
    ni.afterSend d hop =
      if d.Serializable then ni.push (ni.datagramFrame address d) else ni := by
  unfold afterSend
  by_cases serializable : d.Serializable
  · rw [sendDatagram_eq ni fun _ => serializable, if_pos serializable, known]
  · obtain ⟨fault, thrown⟩ :=
      sendDatagram_throws (known ▸ Option.some_ne_none _) serializable
    rw [thrown, if_neg serializable]

/-- The frames that ask for the address of a datagram that has to wait. -/
def asks (ni : NetworkInterface) (ip : UInt32) : List EthernetFrame :=
  if ni.blockingMapping ip = none then [ni.requestFrame ip] else []

theorem eq_requestFrame {ip : UInt32} {f : EthernetFrame} (hf : f ∈ ni.asks ip) :
    f = ni.requestFrame ip := by
  unfold asks at hf
  split at hf
  · exact List.mem_singleton.mp hf
  · cases hf

/-- A request is an ARP frame. -/
theorem asks_ARP (ni : NetworkInterface) (ip : UInt32) :
    ∀ f ∈ ni.asks ip, f.header.type = EthernetHeader.typeARP := by
  intro f hf
  rw [eq_requestFrame hf]
  rfl

/-- **A datagram for an unknown address** waits, and the address is asked for unless it was
asked for recently. -/
theorem afterSend_of_unknown (unknown : ni.mapping hop.ipv4Numeric = none) :
    ni.afterSend d hop = { ni with
      pendingList := ni.pendingList ++ [(d, hop)]
      blockingMapping := record ni.blockingMapping hop.ipv4Numeric ni.currentTime
      framesOut := ni.framesOut ++ ni.asks hop.ipv4Numeric } := by
  unfold afterSend
  rw [sendDatagram_eq ni fun known => absurd unknown known, unknown]
  cases blocked : ni.blockingMapping hop.ipv4Numeric with
  | none => simp only [record, asks, blocked, Option.none_or, if_true]
  | some t =>
      simp only [record_of_some blocked, asks, blocked, reduceCtorEq, if_false, List.append_nil]

/-- **Datagrams for a known address** are sent in their order, up to the first that cannot
be serialised. -/
theorem sendUntilThrow_eq (ni : NetworkInterface) {ip : UInt32} {address : EthernetAddress}
    {t : ℕ} (known : ni.mapping ip = some (address, t)) {list : List (IPv4Datagram × Address)}
    (hlist : ∀ e ∈ list, e.2.ipv4Numeric = ip) :
    ni.sendUntilThrow list = { ni with
      framesOut := ni.framesOut ++ (list.takeWhile fun e => e.1.Serializable).map
        fun e => ni.datagramFrame address e.1 } := by
  induction list generalizing ni with
  | nil => simp [sendUntilThrow]
  | cons e list ih =>
      have hhop := hlist e List.mem_cons_self
      by_cases serializable : e.1.Serializable
      · have taken : (e :: list).takeWhile (fun e => e.1.Serializable)
            = e :: list.takeWhile fun e => e.1.Serializable := by
          rw [List.takeWhile_cons, if_pos (decide_eq_true serializable)]
        have hrest := ih (ni.push (ni.datagramFrame address e.1)) known
          fun e he => hlist e (List.mem_cons_of_mem _ he)
        rw [sendUntilThrow, sendDatagram_eq ni fun _ => serializable, hhop, known, taken]
        refine hrest.trans ?_
        simp only [push, List.map_cons, List.append_assoc, List.singleton_append]
        rfl
      · have taken : (e :: list).takeWhile (fun e => e.1.Serializable) = [] := by
          rw [List.takeWhile_cons, if_neg (by simpa using serializable)]
        have reachable : ni.mapping e.2.ipv4Numeric ≠ none := by
          rw [hhop, known]
          exact Option.some_ne_none _
        obtain ⟨fault, thrown⟩ := sendDatagram_throws reachable serializable
        rw [sendUntilThrow, thrown, taken]
        simp

end Send

/-! ## Receiving -/

section Receive

variable {ni : NetworkInterface} {frame : EthernetFrame} {msg : ARPMessage}

/-- What is heard is a request or a reply. -/
theorem heard_opcode (h : ni.heard frame = some msg) :
    msg.opcode = ARPMessage.opcodeReply ∨ msg.opcode = ARPMessage.opcodeRequest := by
  unfold heard at h
  split at h
  · split at h
    · cases h
    · split at h
      · next parsed =>
        obtain rfl := Option.some.inj h
        have supported := ARPMessage.supported_of_parse parsed
        simp only [ARPMessage.supported, Bool.and_eq_true, Bool.or_eq_true, beq_iff_eq] at supported
        exact supported.2.symm
      · cases h
  · cases h

/-- A frame with an ARP message does what the message says. -/
theorem recvFrame_of_heard (h : ni.heard frame = some msg) :
    ni.recvFrame frame = (ni.recvARP msg).map fun ni => (none, ni) := by
  unfold heard at h
  split at h
  · next mine =>
    have hdst : ¬(frame.header.dst ≠ ni.ethernetAddress ∧
        frame.header.dst ≠ EthernetAddress.broadcast) := fun other => mine.1.elim other.1 other.2
    rw [recvFrame, if_neg hdst, if_pos mine.2]
    split at h
    · cases h
    · next payload hpayload =>
      split at h
      · next parsed =>
        obtain rfl := Option.some.inj h
        simp only [hpayload, bind, Except.bind, parsed]
        cases ni.recvARP _ <;> rfl
      · cases h
  · cases h

/-- **A frame without an ARP message** changes nothing: it is rejected by an exception, or
taken, and then the datagram returned is the one in the payload. -/
theorem recvFrame_of_unheard (h : ni.heard frame = none) :
    (∃ fault, frame.payload.toBuffer = .error fault ∧ ni.recvFrame frame = .error fault) ∨
    ∃ out, ni.recvFrame frame = .ok (out, ni) ∧ ∀ d ∈ out,
      (frame.header.dst = ni.ethernetAddress ∨ frame.header.dst = EthernetAddress.broadcast) ∧
      frame.header.type = EthernetHeader.typeIPv4 ∧ ∃ payload,
        frame.payload.toBuffer = .ok payload ∧ ({} : IPv4Datagram).parse payload = (.noError, d) := by
  unfold recvFrame
  split
  · exact Or.inr ⟨none, rfl, by simp⟩
  next mine =>
  rw [not_and_or, not_not, not_not] at mine
  cases hpayload : frame.payload.toBuffer with
  | error fault =>
      split
      · exact Or.inl ⟨fault, rfl, rfl⟩
      split
      · exact Or.inl ⟨fault, rfl, rfl⟩
      · exact Or.inr ⟨none, rfl, by simp⟩
  | ok payload =>
      refine Or.inr ?_
      split
      · next isARP =>
        -- there is no message in the payload
        rw [heard, if_pos ⟨mine, isARP⟩, hpayload] at h
        rcases parsed : ({} : ARPMessage).parse payload with ⟨result, msg⟩
        have failed : result ≠ .noError := by
          rintro rfl
          simp [parsed] at h
        simp only [bind, Except.bind, parsed, failed, ne_eq, not_false_eq_true, if_true]
        exact ⟨none, rfl, by simp⟩
      split
      · next isIPv4 =>
        rcases parsed : ({} : IPv4Datagram).parse payload with ⟨result, datagram⟩
        simp only [bind, Except.bind, parsed]
        split
        · next accepted =>
          refine ⟨some datagram, rfl, fun d hd => ?_⟩
          obtain rfl := Option.some.inj hd
          exact ⟨mine, isIPv4, payload, rfl, accepted ▸ parsed⟩
        · exact ⟨none, rfl, by simp⟩
      · exact ⟨none, rfl, by simp⟩

/-- So it leaves the interface as it was, exception or not. -/
theorem afterRecv_of_unheard (h : ni.heard frame = none) : ni.afterRecv frame = ni := by
  unfold afterRecv
  rcases recvFrame_of_unheard h with ⟨fault, -, thrown⟩ | ⟨out, done, -⟩
  · rw [thrown, h]
  · rw [done]

/-- The frame of the reply to a request that was heard. -/
def answerFrame (ni : NetworkInterface) (msg : ARPMessage) : EthernetFrame :=
  ⟨⟨msg.senderEthernetAddress, ni.ethernetAddress, EthernetHeader.typeARP⟩,
    [(ni.arpReply msg).bytes]⟩

/-- The frames that a request is answered with. -/
def answers (ni : NetworkInterface) (msg : ARPMessage) : List EthernetFrame :=
  if msg.targetIpAddress = ni.ipAddress.ipv4Numeric then [ni.answerFrame msg] else []

theorem eq_answerFrame {f : EthernetFrame} (hf : f ∈ ni.answers msg) :
    f = ni.answerFrame msg ∧ msg.targetIpAddress = ni.ipAddress.ipv4Numeric := by
  unfold answers at hf
  split at hf
  · next mine => exact ⟨List.mem_singleton.mp hf, mine⟩
  · cases hf

theorem answers_ARP (ni : NetworkInterface) (msg : ARPMessage) :
    ∀ f ∈ ni.answers msg, f.header.type = EthernetHeader.typeARP := by
  intro f hf
  rw [(eq_answerFrame hf).1]
  rfl

/-- A request never throws: the answer can be serialised. -/
theorem recvARP_of_request (ni : NetworkInterface)
    (request : msg.opcode = ARPMessage.opcodeRequest) :
    ni.recvARP msg
      = .ok { ni.learn msg with framesOut := ni.framesOut ++ ni.answers msg } := by
  have noReply : msg.opcode ≠ ARPMessage.opcodeReply := by
    rw [request]
    decide
  have supported : ((ni.learn msg).arpReply msg).supported = true := rfl
  have same : (ni.learn msg).ipAddress = ni.ipAddress := rfl
  rw [recvARP, if_neg noReply, if_pos request, answer, same]
  by_cases mine : msg.targetIpAddress = ni.ipAddress.ipv4Numeric
  · rw [if_neg (not_not.mpr mine), ARPMessage.serialize_eq supported, answers, if_pos mine]
    rfl
  · rw [if_pos mine, answers, if_neg mine, List.append_nil]
    rfl

/-- **A request is learned from**, and perhaps answered. -/
theorem afterRecv_of_request (h : ni.heard frame = some msg)
    (request : msg.opcode = ARPMessage.opcodeRequest) :
    ni.afterRecv frame = { ni.learn msg with framesOut := ni.framesOut ++ ni.answers msg } := by
  rw [afterRecv, recvFrame_of_heard h, ni.recvARP_of_request request]
  rfl

/-- If none throws, all are sent. -/
theorem sendUntilThrow_of_ok {ni ni' : NetworkInterface} {list : List (IPv4Datagram × Address)}
    (h : list.foldlM (fun ni e => ni.sendDatagram e.1 e.2) ni = .ok ni') :
    ni.sendUntilThrow list = ni' := by
  induction list generalizing ni with
  | nil => exact Except.ok.inj h
  | cons e list ih =>
      rw [List.foldlM_cons] at h
      rw [sendUntilThrow]
      cases sent : ni.sendDatagram e.1 e.2 with
      | error fault =>
          rw [sent] at h
          cases h
      | ok next =>
          rw [sent] at h
          exact ih h

/-- **A reply is learned from**, and what waits for its sender is sent, up to the first
datagram that cannot be serialised. -/
theorem afterRecv_of_reply (h : ni.heard frame = some msg)
    (reply : msg.opcode = ARPMessage.opcodeReply) :
    ∃ address t, (ni.learn msg).mapping msg.senderIpAddress = some (address, t) ∧
      ni.afterRecv frame = { ni.learn msg with
        pendingList := ni.pendingList.filter fun e => e.2.ipv4Numeric ≠ msg.senderIpAddress
        framesOut := ni.framesOut ++ ((ni.pendingList.filter fun e =>
            e.2.ipv4Numeric = msg.senderIpAddress).takeWhile fun e => e.1.Serializable).map
          fun e => ni.datagramFrame address e.1 } := by
  obtain ⟨⟨address, t⟩, known⟩ : ∃ entry, (ni.learn msg).mapping msg.senderIpAddress = some entry := by
    show ∃ entry, record ni.mapping msg.senderIpAddress _ msg.senderIpAddress = some entry
    rw [record_self]
    cases ni.mapping msg.senderIpAddress with
    | none => exact ⟨_, rfl⟩
    | some entry => exact ⟨entry, rfl⟩
  have hsent : ni.afterRecv frame = { ni.learn msg with
      pendingList := ni.pendingList.filter fun e => e.2.ipv4Numeric ≠ msg.senderIpAddress
      }.sendUntilThrow (ni.pendingList.filter fun e => e.2.ipv4Numeric = msg.senderIpAddress) := by
    rw [afterRecv, recvFrame_of_heard h, recvARP, if_pos reply, h]
    cases flushed : (ni.learn msg).flush msg.senderIpAddress with
    | error fault => rfl
    | ok ni' => exact (sendUntilThrow_of_ok flushed).symm
  refine ⟨address, t, known, ?_⟩
  rw [hsent]
  exact sendUntilThrow_eq { ni.learn msg with
    pendingList := ni.pendingList.filter fun e => e.2.ipv4Numeric ≠ msg.senderIpAddress } known
    fun e he => of_decide_eq_true (List.mem_filter.mp he).2

/-- **With one buffer and nothing unserialisable pending, `recv_frame` returns.** -/
theorem recvFrame_returns {payload : List UInt8} (hpayload : frame.payload = [payload])
    (serializable : ∀ e ∈ ni.pendingList, e.1.Serializable) :
    ∃ out, ni.recvFrame frame = .ok (out, ni.afterRecv frame) ∧ ∀ d ∈ out,
      (frame.header.dst = ni.ethernetAddress ∨ frame.header.dst = EthernetAddress.broadcast) ∧
      frame.header.type = EthernetHeader.typeIPv4 ∧
        ({} : IPv4Datagram).parse payload = (.noError, d) := by
  have hbuffer : frame.payload.toBuffer = .ok payload := by
    rw [hpayload]
    rfl
  cases heard : ni.heard frame with
  | none =>
      rw [afterRecv_of_unheard heard]
      rcases recvFrame_of_unheard heard with ⟨fault, thrown, -⟩ | ⟨out, done, hout⟩
      · rw [hbuffer] at thrown
        cases thrown
      · refine ⟨out, done, fun d hd => ?_⟩
        obtain ⟨mine, isIPv4, payload', hbuffer', parsed⟩ := hout d hd
        rw [hbuffer] at hbuffer'
        obtain rfl := Except.ok.inj hbuffer'
        exact ⟨mine, isIPv4, parsed⟩
  | some msg =>
      obtain ⟨ni', done⟩ : ∃ ni', ni.recvARP msg = .ok ni' := by
        rcases heard_opcode heard with reply | request
        · obtain ⟨address, t, known, -⟩ := afterRecv_of_reply heard reply
          rw [recvARP, if_pos reply]
          exact ⟨_, flush_eq known fun e he _ => serializable e he⟩
        · exact ⟨_, ni.recvARP_of_request request⟩
      have received : ni.recvFrame frame = .ok (none, ni') := by
        rw [recvFrame_of_heard heard, done]
        rfl
      refine ⟨none, ?_, by simp⟩
      rw [afterRecv, received]

end Receive

/-! ## Waiting for a known address -/

/-- No datagram is pending for an address that is in the mapping. -/
def NoneWaits (ni : NetworkInterface) : Prop :=
  ∀ e ∈ ni.pendingList, ni.mapping e.2.ipv4Numeric = none

instance (ni : NetworkInterface) : Decidable ni.NoneWaits :=
  inferInstanceAs (Decidable (∀ e ∈ ni.pendingList, _ = none))

/-- An ARP request comes from an address that no datagram is pending for. -/
def AskedByOthers (ni : NetworkInterface) : Op → Prop
  | .recvFrame frame => ∀ msg ∈ ni.heard frame, msg.opcode = ARPMessage.opcodeRequest →
      ∀ e ∈ ni.pendingList, e.2.ipv4Numeric ≠ msg.senderIpAddress
  | .sendDatagram _ _ | .tick _ => True

instance decidableAskedByOthers (ni : NetworkInterface) : ∀ op, Decidable (ni.AskedByOthers op)
  | .recvFrame frame => inferInstanceAs (Decidable (∀ msg ∈ ni.heard frame, _ → ∀ e ∈ _, _))
  | .sendDatagram _ _ | .tick _ => inferInstanceAs (Decidable True)

section Waiting

variable {ni : NetworkInterface}

/-- A datagram waits only if its address is not known. -/
theorem NoneWaits.afterSend (h : ni.NoneWaits) (d : IPv4Datagram) (hop : Address) :
    (ni.afterSend d hop).NoneWaits := by
  rcases known : ni.mapping hop.ipv4Numeric with _ | ⟨address, t⟩
  · rw [afterSend_of_unknown known]
    intro e he
    rcases List.mem_append.mp he with hold | hnew
    · exact h e hold
    · rw [List.mem_singleton.mp hnew]
      exact known
  · rw [afterSend_of_known known]
    split
    · exact h
    · exact h

/-- **A frame keeps it so exactly if it is no request from an address that is waited for.**  Such
a request teaches the address and leaves the datagrams where they are. -/
theorem NoneWaits.afterRecv_iff (h : ni.NoneWaits) (frame : EthernetFrame) :
    (ni.afterRecv frame).NoneWaits ↔ ni.AskedByOthers (.recvFrame frame) := by
  cases heard : ni.heard frame with
  | none =>
      rw [afterRecv_of_unheard heard]
      simp [AskedByOthers, heard, h]
  | some msg =>
      rcases heard_opcode heard with reply | request
      · obtain ⟨address, t, -, hreceived⟩ := afterRecv_of_reply heard reply
        have noRequest : msg.opcode ≠ ARPMessage.opcodeRequest := by
          rw [reply]
          decide
        have waiting : (ni.afterRecv frame).NoneWaits := by
          rw [hreceived]
          intro e he
          obtain ⟨hpending, hother⟩ := List.mem_filter.mp he
          exact (record_of_ne (of_decide_eq_true hother)).trans (h e hpending)
        simp [AskedByOthers, heard, waiting, noRequest]
      · rw [afterRecv_of_request heard request]
        constructor
        · intro waiting msg' hmsg _ e he same
          rw [heard] at hmsg
          obtain rfl := Option.some.inj hmsg
          have hnone := waiting e he
          rw [same] at hnone
          exact record_self_ne_none hnone
        · intro others e he
          exact (record_of_ne (others msg heard request e he)).trans (h e he)

/-- It stays so exactly if no such request arrives. -/
theorem NoneWaits.next_iff (h : ni.NoneWaits) (op : Op) :
    (ni.next op).NoneWaits ↔ ni.AskedByOthers op := by
  cases op with
  | sendDatagram dgram nextHop => exact iff_of_true (h.afterSend dgram nextHop) trivial
  | recvFrame frame => exact h.afterRecv_iff frame
  | tick ms =>
      refine iff_of_true (fun e he => ?_) trivial
      show (ni.mapping e.2.ipv4Numeric).filter _ = none
      rw [h e he]
      rfl

/-- **No datagram waits for an address that is known**, in every state reached by calls that
return or throw, if every ARP request comes from an address that no datagram is pending for;
and the first request that does not, breaks it. -/
theorem none_waits_for_known (ethernetAddress : EthernetAddress) (ipAddress : Address)
    (run : GuardedRun step AskedByOthers
      { ethernetAddress := ethernetAddress, ipAddress := ipAddress } ni) :
    ni.NoneWaits ∧ ∀ op, (ni.next op).NoneWaits ↔ ni.AskedByOthers op := by
  have waiting : ni.NoneWaits := by
    refine run.invariant NoneWaits ?_ ?_
    · intro e he
      cases he
    · intro ni op ni' h guard stepped
      obtain rfl := Except.ok.inj stepped
      exact (h.next_iff op).mpr guard
  exact ⟨waiting, waiting.next_iff⟩

end Waiting

/-- The interface of 10.0.0.1. -/
def host : NetworkInterface :=
  { ethernetAddress := ⟨2, 0, 0, 0, 0, 1⟩, ipAddress := ⟨0x0a000001, 0⟩ }

/-- The interface of 10.0.0.2. -/
def neighbour : NetworkInterface :=
  { ethernetAddress := ⟨2, 0, 0, 0, 0, 2⟩, ipAddress := ⟨0x0a000002, 0⟩ }

/-- The interface of 10.0.0.3. -/
def stranger : NetworkInterface :=
  { ethernetAddress := ⟨2, 0, 0, 0, 0, 3⟩, ipAddress := ⟨0x0a000003, 0⟩ }

/-- A datagram of one byte. -/
def hello : IPv4Datagram :=
  { header := { len := 21, src := 0x0a000001, dst := 0x0a000002 }, payload := [[7]] }

/-- A datagram is pending for a neighbour when a stranger asks. -/
theorem none_waits_for_known_stranger :
    ∃ ni, execute step host [.sendDatagram hello neighbour.ipAddress,
        .recvFrame (stranger.requestFrame host.ipAddress.ipv4Numeric)] = .ok ni ∧
      ni.pendingList = [(hello, neighbour.ipAddress)] ∧
      ni.mapping stranger.ipAddress.ipv4Numeric ≠ none ∧ ni.NoneWaits := by
  obtain ⟨ni, done, admitted, pending, known⟩ : ∃ ni,
      execute step host [.sendDatagram hello neighbour.ipAddress,
        .recvFrame (stranger.requestFrame host.ipAddress.ipv4Numeric)] = .ok ni ∧
      Admitted step AskedByOthers host [.sendDatagram hello neighbour.ipAddress,
        .recvFrame (stranger.requestFrame host.ipAddress.ipv4Numeric)] ∧
      ni.pendingList = [(hello, neighbour.ipAddress)] ∧
      ni.mapping stranger.ipAddress.ipv4Numeric ≠ none :=
    EndsIn.exists_ok (by decide +kernel)
  exact ⟨ni, done, pending, known,
    (none_waits_for_known _ _ (GuardedRun.of_execute admitted done)).1⟩

/-- **A request does not send what waits for its sender.**  The neighbour asks while a
datagram is pending for it: its address is learned, and the datagram stays pending. -/
theorem waits_for_known :
    ∃ ni, execute step host [.sendDatagram hello neighbour.ipAddress,
        .recvFrame (neighbour.requestFrame host.ipAddress.ipv4Numeric)] = .ok ni ∧
      ni.pendingList = [(hello, neighbour.ipAddress)] ∧
      ni.mapping neighbour.ipAddress.ipv4Numeric = some (neighbour.ethernetAddress, 0) ∧
      ¬ ni.NoneWaits :=
  EndsIn.exists_ok (by decide +kernel)

/-! ## Nothing is lost or sent twice -/

/-- The frame carries the datagram. -/
def Carries (d : IPv4Datagram) (f : EthernetFrame) : Prop :=
  f.header.type = EthernetHeader.typeIPv4 ∧ d.serialize = .ok f.payload

/-- The IPv4 frames among some frames. -/
def ofIPv4 (frames : List EthernetFrame) : List EthernetFrame :=
  frames.filter fun f => f.header.type = EthernetHeader.typeIPv4

/-- The IPv4 frames that a call puts on the outbound queue. -/
def newFrames (ni : NetworkInterface) (op : Op) : List EthernetFrame :=
  ofIPv4 ((ni.next op).framesOut.drop ni.framesOut.length)

/-- What a call submits. -/
def submits : Op → List (IPv4Datagram × Address)
  | .sendDatagram dgram nextHop => [(dgram, nextHop)]
  | .recvFrame _ | .tick _ => []

/-- The next hop that a call may send to: that of the datagram, or the sender of the ARP
message. -/
def hopOf (ni : NetworkInterface) : Op → UInt32
  | .sendDatagram _ nextHop => nextHop.ipv4Numeric
  | .recvFrame frame => ((ni.heard frame).map ARPMessage.senderIpAddress).getD 0
  | .tick _ => 0

/-- The hop of an ARP message is its sender. -/
theorem hopOf_of_heard {ni : NetworkInterface} {frame : EthernetFrame} {msg : ARPMessage}
    (h : ni.heard frame = some msg) : ni.hopOf (.recvFrame frame) = msg.senderIpAddress := by
  rw [hopOf, h]
  rfl

/-- The datagram that a call submits can be serialised. -/
def SubmitsSerializable : Op → Prop
  | .sendDatagram dgram _ => ∃ payload, dgram.serialize = .ok payload
  | .recvFrame _ | .tick _ => True

instance decidableSubmitsSerializable : ∀ op, Decidable (SubmitsSerializable op)
  | .sendDatagram dgram _ => decidable_of_iff dgram.Serializable
      ⟨fun h => ⟨_, IPv4Datagram.serialize_eq h⟩,
        fun ⟨_, h⟩ => IPv4Datagram.serializable_of_serialize h⟩
  | .recvFrame _ | .tick _ => inferInstanceAs (Decidable True)

theorem ofIPv4_of_ARP {frames : List EthernetFrame}
    (h : ∀ f ∈ frames, f.header.type = EthernetHeader.typeARP) : ofIPv4 frames = [] := by
  refine List.filter_eq_nil_iff.mpr fun f hf => ?_
  rw [h f hf, decide_eq_true_iff]
  exact EthernetHeader.typeIPv4_ne_typeARP.symm

/-- **What a call does to the datagrams**: those pending and the one submitted are pending or sent
afterwards, in their order.  That none is lost and none is sent twice is the permutation; the
sublists keep the order. -/
structure Moves (ni : NetworkInterface) (op : Op) (sent : List (IPv4Datagram × Address)) :
    Prop where
  frames : List.Forall₂ (fun e f => e.2.ipv4Numeric = ni.hopOf op ∧ Carries e.1 f) sent
    (ni.newFrames op)
  framesOut : ofIPv4 (ni.next op).framesOut = ofIPv4 ni.framesOut ++ ni.newFrames op
  balance : (ni.pendingList ++ submits op).Perm ((ni.next op).pendingList ++ sent)
  pending : (ni.next op).pendingList.Sublist (ni.pendingList ++ submits op)
  sent : sent.Sublist (ni.pendingList ++ submits op)

section Moves

variable {ni : NetworkInterface}

/-- A call that only adds frames to the queue. -/
theorem newFrames_eq {op : Op} {new : List EthernetFrame}
    (h : (ni.next op).framesOut = ni.framesOut ++ new) :
    ni.newFrames op = ofIPv4 new ∧
      ofIPv4 (ni.next op).framesOut = ofIPv4 ni.framesOut ++ ni.newFrames op := by
  have hnew : ni.newFrames op = ofIPv4 new := by
    rw [newFrames, h, List.drop_left]
  refine ⟨hnew, ?_⟩
  rw [hnew, h]
  exact List.filter_append ..

/-- A call that sends nothing. -/
theorem moves_nothing {op : Op} (new : List EthernetFrame)
    (hframes : (ni.next op).framesOut = ni.framesOut ++ new)
    (hARP : ∀ f ∈ new, f.header.type = EthernetHeader.typeARP)
    (hpending : (ni.next op).pendingList = ni.pendingList ++ submits op) : Moves ni op [] := by
  obtain ⟨hnew, hout⟩ := newFrames_eq hframes
  refine ⟨?_, hout, ?_, ?_, List.nil_sublist _⟩
  · rw [hnew, ofIPv4_of_ARP hARP]
    exact List.Forall₂.nil
  · rw [hpending, List.append_nil]
  · rw [hpending]

/-- The frames of datagrams are IPv4 frames. -/
theorem ofIPv4_datagramFrames (ni : NetworkInterface) (address : EthernetAddress)
    (sent : List (IPv4Datagram × Address)) :
    ofIPv4 (sent.map fun e => ni.datagramFrame address e.1)
      = sent.map fun e => ni.datagramFrame address e.1 := by
  refine List.filter_eq_self.mpr ?_
  intro f hf
  obtain ⟨e, -, rfl⟩ := List.mem_map.mp hf
  exact decide_eq_true rfl

/-- A call that sends some of the datagrams to an address. -/
theorem moves_sent {op : Op} {address : EthernetAddress} {sent : List (IPv4Datagram × Address)}
    (hsent : ∀ e ∈ sent, e.2.ipv4Numeric = ni.hopOf op ∧ e.1.Serializable)
    (hframes : (ni.next op).framesOut
      = ni.framesOut ++ sent.map fun e => ni.datagramFrame address e.1)
    (balance : (ni.pendingList ++ submits op).Perm ((ni.next op).pendingList ++ sent))
    (pending : (ni.next op).pendingList.Sublist (ni.pendingList ++ submits op))
    (ordered : sent.Sublist (ni.pendingList ++ submits op)) : Moves ni op sent := by
  obtain ⟨hnew, hout⟩ := newFrames_eq hframes
  refine ⟨?_, hout, balance, pending, ordered⟩
  rw [hnew, ofIPv4_datagramFrames, List.forall₂_map_right_iff, List.forall₂_same]
  intro e he
  exact ⟨(hsent e he).1, rfl, IPv4Datagram.serialize_eq (hsent e he).2⟩

/-- Submitting a datagram sends it or makes it wait. -/
theorem moves_send (ni : NetworkInterface) {d : IPv4Datagram} (serializable : d.Serializable)
    (hop : Address) :
    ∃ sent, Moves ni (.sendDatagram d hop) sent := by
  rcases known : ni.mapping hop.ipv4Numeric with _ | ⟨address, t⟩
  · have hnext : ni.next (.sendDatagram d hop) = _ := afterSend_of_unknown known
    refine ⟨[], moves_nothing _ ?_ (ni.asks_ARP hop.ipv4Numeric) ?_⟩
    · rw [hnext]
    · rw [hnext]
      rfl
  · have hnext : ni.next (.sendDatagram d hop) = ni.push (ni.datagramFrame address d) :=
      (afterSend_of_known known).trans (if_pos serializable)
    refine ⟨[(d, hop)], moves_sent (fun e he => ?_) (by rw [hnext]; rfl) ?_ ?_ ?_⟩
    · rw [List.mem_singleton.mp he]
      exact ⟨rfl, serializable⟩
    · rw [hnext]
      exact List.Perm.refl _
    · rw [hnext]
      exact List.sublist_append_left _ _
    · exact List.sublist_append_right _ _

/-- A frame sends what waits for its sender, or nothing. -/
theorem moves_recv (serializable : ∀ e ∈ ni.pendingList, e.1.Serializable)
    (frame : EthernetFrame) : ∃ sent, Moves ni (.recvFrame frame) sent := by
  cases heard : ni.heard frame with
  | none =>
      have hnext : ni.next (.recvFrame frame) = ni := afterRecv_of_unheard heard
      refine ⟨[], moves_nothing [] ?_ (by simp) ?_⟩
      · rw [hnext, List.append_nil]
      · rw [hnext]
        exact (List.append_nil _).symm
  | some msg =>
      rcases heard_opcode heard with reply | request
      · obtain ⟨address, t, -, hreceived⟩ := afterRecv_of_reply heard reply
        have hnext : ni.next (.recvFrame frame) = _ := hreceived
        -- nothing throws, so the loop over what waits for the sender is not cut short
        have all : (ni.pendingList.filter fun e => e.2.ipv4Numeric = msg.senderIpAddress).takeWhile
            (fun e => e.1.Serializable)
            = ni.pendingList.filter fun e => e.2.ipv4Numeric = msg.senderIpAddress := by
          refine List.takeWhile_eq_self_iff.mpr fun e he => ?_
          exact decide_eq_true (serializable e (List.mem_filter.mp he).1)
        rw [all] at hnext
        refine ⟨_, moves_sent (fun e he => ?_) (by rw [hnext]) ?_ ?_ ?_⟩
        · obtain ⟨hpending, hip⟩ := List.mem_filter.mp he
          exact ⟨(of_decide_eq_true hip).trans (hopOf_of_heard heard).symm, serializable e hpending⟩
        · rw [hnext, submits, List.append_nil]
          have split := (List.filter_append_perm
            (fun e => decide (e.2.ipv4Numeric = msg.senderIpAddress)) ni.pendingList).symm
          simp only [← decide_not] at split
          exact split.trans List.perm_append_comm
        · rw [hnext, submits, List.append_nil]
          exact List.filter_sublist
        · rw [submits, List.append_nil]
          exact List.filter_sublist
      · have hnext : ni.next (.recvFrame frame) = _ := afterRecv_of_request heard request
        refine ⟨[], moves_nothing _ ?_ (ni.answers_ARP msg) ?_⟩
        · rw [hnext]
        · rw [hnext]
          exact (List.append_nil _).symm

/-- Every call moves datagrams from the pending list to the queue, and none is made or lost. -/
theorem moves (serializable : ∀ e ∈ ni.pendingList, e.1.Serializable) {op : Op}
    (allowed : SubmitsSerializable op) : ∃ sent, Moves ni op sent := by
  cases op with
  | sendDatagram dgram nextHop =>
      obtain ⟨payload, hpayload⟩ := allowed
      exact ni.moves_send (IPv4Datagram.serializable_of_serialize hpayload) nextHop
  | recvFrame frame => exact moves_recv serializable frame
  | tick ms =>
      exact ⟨[], moves_nothing [] (List.append_nil _).symm (by simp)
        (List.append_nil _).symm⟩

end Moves

/-- An interface with the history of its use.  A frame is kept with the next hop of the call that
emitted it, because the frame itself only has the Ethernet address. -/
structure Ledger where
  ni : NetworkInterface
  /-- The datagrams that were to be sent, and where to. -/
  submitted : List (IPv4Datagram × Address) := []
  /-- The IPv4 frames that were put on the outbound queue, each with the next hop of the call
  that put it there. -/
  emitted : List (UInt32 × EthernetFrame) := []

namespace Ledger

/-- An unused interface. -/
def start (ethernetAddress : EthernetAddress) (ipAddress : Address) : Ledger :=
  { ni := { ethernetAddress := ethernetAddress, ipAddress := ipAddress } }

/-- One call, written down. -/
def step (l : Ledger) (op : Op) : Except Empty Ledger :=
  .ok
    { ni := l.ni.next op
      submitted := l.submitted ++ submits op
      emitted := l.emitted ++ (l.ni.newFrames op).map fun f => (l.ni.hopOf op, f) }

/-- The datagrams submitted for a next hop. -/
def submittedFor (l : Ledger) (ip : UInt32) : List IPv4Datagram :=
  (l.submitted.filter fun e => e.2.ipv4Numeric = ip).map Prod.fst

/-- The datagrams pending for a next hop. -/
def pendingFor (l : Ledger) (ip : UInt32) : List IPv4Datagram :=
  (l.ni.pendingList.filter fun e => e.2.ipv4Numeric = ip).map Prod.fst

/-- The frames emitted for a next hop. -/
def emittedFor (l : Ledger) (ip : UInt32) : List EthernetFrame :=
  (l.emitted.filter fun e => e.1 = ip).map Prod.snd

/-- What was submitted is pending or sent.  The datagrams that were sent are not kept in the
ledger; the frames are, and each of them carries one. -/
structure Balanced (l : Ledger) : Prop where
  serializable : ∀ e ∈ l.submitted, e.1.Serializable
  pending : l.ni.pendingList.Sublist l.submitted
  frames : ofIPv4 l.ni.framesOut = l.emitted.map Prod.snd
  balance : ∃ sent, List.Forall₂ (fun e f => e.2.ipv4Numeric = f.1 ∧ Carries e.1 f.2) sent l.emitted ∧
    l.submitted.Perm (l.ni.pendingList ++ sent)

/-- Nothing was submitted. -/
theorem balanced_start (ethernetAddress : EthernetAddress) (ipAddress : Address) :
    Balanced (start ethernetAddress ipAddress) where
  serializable := by
    intro e he
    cases he
  pending := List.Sublist.refl _
  frames := rfl
  balance := ⟨[], List.Forall₂.nil, List.Perm.refl _⟩

theorem Balanced.moves {l : Ledger} (h : l.Balanced) {op : Op} (allowed : SubmitsSerializable op) :
    ∃ sent, Moves l.ni op sent :=
  NetworkInterface.moves (fun e he => h.serializable e (h.pending.subset he)) allowed

/-- One call keeps the balance. -/
theorem Balanced.step {l l' : Ledger} {op : Op} (h : l.Balanced)
    (allowed : SubmitsSerializable op) (stepped : l.step op = .ok l') : l'.Balanced := by
  obtain rfl := Except.ok.inj stepped
  obtain ⟨new, moved⟩ := h.moves allowed
  obtain ⟨sent, hsent, hperm⟩ := h.balance
  refine ⟨fun e he => ?_, ?_, ?_, sent ++ new, ?_, ?_⟩
  · rcases List.mem_append.mp he with hold | hnew
    · exact h.serializable e hold
    · cases op with
      | sendDatagram dgram nextHop =>
          obtain ⟨payload, hpayload⟩ := allowed
          rw [List.mem_singleton.mp hnew]
          exact IPv4Datagram.serializable_of_serialize hpayload
      | recvFrame frame => cases hnew
      | tick ms => cases hnew
  · exact moved.pending.trans (h.pending.append_right _)
  · simp only [moved.framesOut, h.frames, List.map_append, List.map_map, Function.comp_def,
      List.map_id']
  · refine List.rel_append hsent ?_
    rw [List.forall₂_map_right_iff]
    exact moved.frames
  · -- what was pending or is submitted now is pending or sent afterwards
    have swap : ∀ a b c : List (IPv4Datagram × Address), (a ++ b ++ c).Perm (a ++ c ++ b) := by
      intro a b c
      rw [List.append_assoc, List.append_assoc]
      exact List.perm_append_comm.append_left a
    rw [← List.append_assoc]
    calc (l.submitted ++ submits op).Perm
          (l.ni.pendingList ++ sent ++ submits op) := hperm.append_right _
      List.Perm _ (l.ni.pendingList ++ submits op ++ sent) := swap _ _ _
      List.Perm _ ((l.ni.next op).pendingList ++ new ++ sent) := moved.balance.append_right _
      List.Perm _ ((l.ni.next op).pendingList ++ sent ++ new) := swap _ _ _

/-- **No loss and no duplication.**  In every run in which the datagrams submitted can be
serialised, whatever frames arrive and whenever:

* the frames emitted for the next hops are the IPv4 frames on the outbound queue;
* for every next hop, the datagrams submitted are, each of them once, those pending and
  those carried by the frames emitted;
* the frames that one arriving frame makes the interface emit carry, in the order of their
  submission, the datagrams that are no longer pending. -/
theorem no_loss_no_duplication (ethernetAddress : EthernetAddress) (ipAddress : Address)
    {l : Ledger}
    (run : GuardedRun step (fun _ op => SubmitsSerializable op) (start ethernetAddress ipAddress)
      l) :
    ofIPv4 l.ni.framesOut = l.emitted.map Prod.snd ∧
      (∀ ip, ∃ sent, List.Forall₂ Carries sent (l.emittedFor ip) ∧
        (l.submittedFor ip).Perm (l.pendingFor ip ++ sent)) ∧
      ∀ frame, ∃ flushed, flushed.Sublist l.submitted ∧
        l.ni.pendingList.Perm ((l.ni.next (.recvFrame frame)).pendingList ++ flushed) ∧
        List.Forall₂ Carries (flushed.map Prod.fst) (l.ni.newFrames (.recvFrame frame)) := by
  have balanced : l.Balanced := run.invariant Balanced (balanced_start _ _)
    fun _ _ _ h allowed stepped => h.step allowed stepped
  refine ⟨balanced.frames, fun ip => ?_, fun frame => ?_⟩
  · obtain ⟨sent, hsent, hperm⟩ := balanced.balance
    refine ⟨(sent.filter fun e => e.2.ipv4Numeric = ip).map Prod.fst, ?_, ?_⟩
    · rw [emittedFor, List.forall₂_map_left_iff, List.forall₂_map_right_iff]
      have hfilter : List.Forall₂ (fun e f => e.2.ipv4Numeric = f.1 ∧ Carries e.1 f.2)
          (sent.filter fun e => e.2.ipv4Numeric = ip) (l.emitted.filter fun f => f.1 = ip) :=
        List.rel_filter (fun e f h => by simp [h.1]) hsent
      exact hfilter.imp fun e f h => h.2
    · rw [submittedFor, pendingFor, ← List.map_append, ← List.filter_append]
      exact (hperm.filter _).map _
  · have allowed : SubmitsSerializable (.recvFrame frame) := trivial
    obtain ⟨flushed, moved⟩ := balanced.moves allowed
    have hsent := moved.sent
    have hbalance := moved.balance
    rw [submits, List.append_nil] at hsent hbalance
    refine ⟨flushed, hsent.trans balanced.pending, hbalance, ?_⟩
    rw [List.forall₂_map_left_iff]
    exact moved.frames.imp fun e f h => h.2

/-- Two datagrams wait for the reply, a third finds the address known. -/
def conversation : List Op :=
  [.sendDatagram hello neighbour.ipAddress, .sendDatagram hello neighbour.ipAddress,
    .recvFrame (neighbour.replyFrame host), .sendDatagram hello neighbour.ipAddress,
    .sendDatagram hello stranger.ipAddress]

theorem no_loss_no_duplication_conversation :
    ∃ l, execute step (start host.ethernetAddress host.ipAddress) conversation = .ok l ∧
      (l.emittedFor neighbour.ipAddress.ipv4Numeric).length = 3 ∧
      l.pendingFor neighbour.ipAddress.ipv4Numeric = [] ∧
      ∃ sent, List.Forall₂ Carries sent (l.emittedFor neighbour.ipAddress.ipv4Numeric) ∧
        (l.submittedFor neighbour.ipAddress.ipv4Numeric).Perm sent := by
  obtain ⟨l, done, admitted, emitted, pending⟩ : ∃ l,
      execute step (start host.ethernetAddress host.ipAddress) conversation = .ok l ∧
      Admitted step (fun _ op => SubmitsSerializable op)
        (start host.ethernetAddress host.ipAddress) conversation ∧
      (l.emittedFor neighbour.ipAddress.ipv4Numeric).length = 3 ∧
      l.pendingFor neighbour.ipAddress.ipv4Numeric = [] :=
    EndsIn.exists_ok (by decide +kernel)
  obtain ⟨-, balance, -⟩ :=
    no_loss_no_duplication _ _ (GuardedRun.of_execute admitted done)
  obtain ⟨sent, carried, hperm⟩ := balance neighbour.ipAddress.ipv4Numeric
  rw [pending, List.nil_append] at hperm
  exact ⟨l, done, emitted, pending, sent, carried, hperm⟩

end Ledger

/-! ## A reply that makes a pending datagram throw -/

section Flush

variable {ni : NetworkInterface} {frame : EthernetFrame} {msg : ARPMessage}

/-- One datagram that cannot be serialised is enough to throw. -/
theorem sendAll_throws (ni : NetworkInterface) {ip : UInt32} {address : EthernetAddress} {t : ℕ}
    (known : ni.mapping ip = some (address, t)) {list : List (IPv4Datagram × Address)}
    (hlist : ∀ e ∈ list, e.2.ipv4Numeric = ip) {bad : IPv4Datagram × Address} (hbad : bad ∈ list)
    (not : ¬ bad.1.Serializable) :
    ∃ fault, list.foldlM (fun ni e => ni.sendDatagram e.1 e.2) ni = .error fault := by
  induction list generalizing ni with
  | nil => cases hbad
  | cons e list ih =>
      have hhop := hlist e List.mem_cons_self
      rw [List.foldlM_cons]
      by_cases serializable : e.1.Serializable
      · -- the bad one comes later
        have later : bad ∈ list := by
          rcases List.mem_cons.mp hbad with rfl | later
          · exact absurd serializable not
          · exact later
        rw [sendDatagram_eq ni fun _ => serializable, hhop, known]
        exact ih _ known (fun e he => hlist e (List.mem_cons_of_mem _ he)) later
      · have reachable : ni.mapping e.2.ipv4Numeric ≠ none := by
          rw [hhop, known]
          exact Option.some_ne_none _
        obtain ⟨fault, thrown⟩ := sendDatagram_throws reachable serializable
        rw [thrown]
        exact ⟨fault, rfl⟩

/-- **A reply throws** exactly if something unserialisable waits for its sender.  The exception
leaves `recv_frame` in the middle of its loop, and the datagrams before it have been sent by then.
-/
theorem recvFrame_throws_iff (h : ni.heard frame = some msg)
    (reply : msg.opcode = ARPMessage.opcodeReply) :
    (∃ fault, ni.recvFrame frame = .error fault) ↔
      ∃ e ∈ ni.pendingList, e.2.ipv4Numeric = msg.senderIpAddress ∧ ¬ e.1.Serializable := by
  obtain ⟨address, t, known, -⟩ := afterRecv_of_reply h reply
  rw [recvFrame_of_heard h, recvARP, if_pos reply]
  constructor
  · rintro ⟨fault, thrown⟩
    by_contra none
    have serializable : ∀ e ∈ ni.pendingList,
        e.2.ipv4Numeric = msg.senderIpAddress → e.1.Serializable := by
      intro e he hip
      by_contra not
      exact none ⟨e, he, hip, not⟩
    rw [flush_eq known serializable] at thrown
    cases thrown
  · rintro ⟨bad, hbad, hip, not⟩
    obtain ⟨fault, thrown⟩ : ∃ fault, (ni.learn msg).flush msg.senderIpAddress = .error fault := by
      have waiting : ∀ e ∈ ni.pendingList.filter (fun e => e.2.ipv4Numeric = msg.senderIpAddress),
          e.2.ipv4Numeric = msg.senderIpAddress :=
        fun e he => of_decide_eq_true (List.mem_filter.mp he).2
      exact sendAll_throws { ni.learn msg with
          pendingList := ni.pendingList.filter fun e => e.2.ipv4Numeric ≠ msg.senderIpAddress }
        known waiting (List.mem_filter.mpr ⟨hbad, decide_eq_true hip⟩) not
    rw [thrown]
    exact ⟨fault, rfl⟩

/-- **What a reply that throws does to the datagrams that wait for its sender.**  They have
all been taken from the list when the first of them that cannot be serialised throws, so
those that were not sent are still pending **exactly if** all of them can be serialised; and
then the reply does not throw, and every one is sent. -/
theorem flush_loses_nothing_iff (h : ni.heard frame = some msg)
    (reply : msg.opcode = ARPMessage.opcodeReply) :
    (((∃ fault, ni.recvFrame frame = .error fault) →
        ∀ e ∈ ni.pendingList, e.2.ipv4Numeric = msg.senderIpAddress →
          (¬∃ f ∈ ni.newFrames (.recvFrame frame), Carries e.1 f) →
            e ∈ (ni.next (.recvFrame frame)).pendingList) ↔
      ∀ e ∈ ni.pendingList, e.2.ipv4Numeric = msg.senderIpAddress → e.1.Serializable) ∧
    ((∀ e ∈ ni.pendingList, e.2.ipv4Numeric = msg.senderIpAddress → e.1.Serializable) →
      (∃ out, ni.recvFrame frame = .ok out) ∧
        List.Forall₂ (fun e f => Carries e.1 f)
          (ni.pendingList.filter fun e => e.2.ipv4Numeric = msg.senderIpAddress)
          (ni.newFrames (.recvFrame frame))) := by
  obtain ⟨address, t, -, received⟩ := afterRecv_of_reply h reply
  have hnext : ni.next (.recvFrame frame) = _ := received
  refine ⟨⟨?_, ?_⟩, ?_⟩
  · intro property e he hip
    by_contra not
    -- a datagram that cannot be serialised is neither sent nor kept
    have uncarried : ¬∃ f ∈ ni.newFrames (.recvFrame frame), Carries e.1 f := by
      rintro ⟨f, -, carried⟩
      exact not (IPv4Datagram.serializable_of_serialize carried.2)
    have kept := property ((recvFrame_throws_iff h reply).mpr ⟨e, he, hip, not⟩) e he hip uncarried
    rw [hnext] at kept
    exact of_decide_eq_true (List.mem_filter.mp kept).2 hip
  · intro serializable thrown
    obtain ⟨bad, hbad, hip, not⟩ := (recvFrame_throws_iff h reply).mp thrown
    exact absurd (serializable bad hbad hip) not
  · intro serializable
    constructor
    · cases received : ni.recvFrame frame with
      | ok out => exact ⟨out, rfl⟩
      | error fault =>
          obtain ⟨bad, hbad, hip, not⟩ := (recvFrame_throws_iff h reply).mp ⟨fault, received⟩
          exact absurd (serializable bad hbad hip) not
    · have all : ∀ e ∈ ni.pendingList.filter (fun e => e.2.ipv4Numeric = msg.senderIpAddress),
          e.1.Serializable := by
        intro e he
        obtain ⟨hpending, hip⟩ := List.mem_filter.mp he
        exact serializable e hpending (of_decide_eq_true hip)
      rw [List.takeWhile_eq_self_iff.mpr fun e he => decide_eq_true (all e he)] at hnext
      have hframes : (ni.next (.recvFrame frame)).framesOut = _ := congrArg framesOut hnext
      rw [(newFrames_eq hframes).1, ofIPv4_datagramFrames, List.forall₂_map_right_iff,
        List.forall₂_same]
      intro e he
      exact ⟨rfl, IPv4Datagram.serialize_eq (all e he)⟩

end Flush

/-- A datagram of another version, which `send_datagram` keeps like any other. -/
def alien : IPv4Datagram := { hello with header := { hello.header with ver := 6 } }

/-- Something unserialisable waits for a stranger, and the neighbour replies. -/
theorem flush_loses_nothing_iff_neighbour :
    ∃ ni, execute step host [.sendDatagram alien stranger.ipAddress,
        .sendDatagram hello neighbour.ipAddress] = .ok ni ∧
      ∃ out, ni.recvFrame (neighbour.replyFrame host) = .ok out := by
  obtain ⟨ni, done, heard, serializable⟩ : ∃ ni,
      execute step host [.sendDatagram alien stranger.ipAddress,
        .sendDatagram hello neighbour.ipAddress] = .ok ni ∧
      ni.heard (neighbour.replyFrame host)
        = some (neighbour.arpReply (host.arpRequest neighbour.ipAddress.ipv4Numeric)) ∧
      ∀ e ∈ ni.pendingList, e.2.ipv4Numeric = neighbour.ipAddress.ipv4Numeric →
        e.1.Serializable :=
    EndsIn.exists_ok (by decide +kernel)
  exact ⟨ni, done, ((flush_loses_nothing_iff heard rfl).2 serializable).1⟩

/-- **A datagram is lost with the one before it.**  A datagram that cannot be serialised and
one that can wait for the neighbour.  Its reply throws at the first, and the second is neither
sent nor pending. -/
theorem flush_loses :
    ∃ ni, execute step host [.sendDatagram alien neighbour.ipAddress,
        .sendDatagram hello neighbour.ipAddress] = .ok ni ∧
      ni.pendingList = [(alien, neighbour.ipAddress), (hello, neighbour.ipAddress)] ∧
      (∃ fault, ni.recvFrame (neighbour.replyFrame host) = .error fault) ∧
      ni.newFrames (.recvFrame (neighbour.replyFrame host)) = [] ∧
      (ni.next (.recvFrame (neighbour.replyFrame host))).pendingList = [] := by
  obtain ⟨ni, done, pending, thrown, frames, lost⟩ : ∃ ni,
      execute step host [.sendDatagram alien neighbour.ipAddress,
        .sendDatagram hello neighbour.ipAddress] = .ok ni ∧
      ni.pendingList = [(alien, neighbour.ipAddress), (hello, neighbour.ipAddress)] ∧
      FailsWith (ni.recvFrame (neighbour.replyFrame host)) .wrongIPVersion ∧
      ni.newFrames (.recvFrame (neighbour.replyFrame host)) = [] ∧
      (ni.next (.recvFrame (neighbour.replyFrame host))).pendingList = [] :=
    EndsIn.exists_ok (by decide +kernel)
  exact ⟨ni, done, pending, ⟨_, thrown.eq_error⟩, frames, lost⟩

end NetworkInterface

end Sponge
