import Sponge.Library.ExpiringTable
import Sponge.NetworkInterface.Traffic

/-!
# How old what an interface knows can be

The interface of `Traffic`, with a journal of what it heard and what it sent, and when.
Time is what `tick` was told, added up.  The two tables of an interface are expiring tables
(`Expiry`), measured against the journal: the mapping against the ARP messages heard, and
the table of blocked addresses against the requests sent.

* `requests_spaced` — two requests for one address are five seconds apart, and an address
  that was not asked for in the last five seconds is asked for.
* `sent_to_fresh_address` — a datagram goes to an address that was heard of less than thirty
  seconds ago; the other frames are requests and answers.
* `latest_announcement_wins` — a datagram goes to the address that was heard of **last**, as
  long as no ARP message comes from an address while the mapping has an older entry for it.
* `old_announcement_wins` — `_mapping.insert` keeps such an entry.

The clock is taken to stay thirty seconds below its overflow, which is 584 million years
away.

### What the journal adds

A mapping has a time in each entry, and that entries are young by that time would follow
from the code alone.  What an owner wants to know is how long ago a *message* was heard.  So
the journal is written from what arrives and what leaves, with a clock that only adds up the
ticks, and the tables are compared with it.

### Two tables, two strengths

Both tables are filled by `insert`, which keeps an entry that is there.  For the table of
blocked addresses that makes no difference: an address is entered only when it is not there,
so the table is `Exact` and says when the last request was sent.  For the mapping it does: a
message may arrive while there is an entry, and then it is not recorded.  The mapping is
`Backed` in every run, which bounds the age of what is used, and `Exact` only in the runs
without such a message, which is what the word *latest* needs.

The condition is sharp: a message is recorded exactly if it meets it, and this is part of
the statement.
-/

namespace Sponge

open Runs Expiry

namespace NetworkInterface

/-! ## What a call hears and emits -/

/-- The ARP message that a call brings. -/
def hears (ni : NetworkInterface) : Op → Option ARPMessage
  | .recvFrame frame => ni.heard frame
  | .sendDatagram _ _ | .tick _ => none

/-- The frames that a call puts on the outbound queue. -/
def emits (ni : NetworkInterface) (op : Op) : List EthernetFrame :=
  (ni.next op).framesOut.drop ni.framesOut.length

/-- The time that a call takes. -/
def elapsed : Op → ℕ
  | .tick ms => ms
  | .sendDatagram _ _ | .recvFrame _ => 0

/-- The address that a frame asks everybody for. -/
def asksFor (f : EthernetFrame) : Option UInt32 :=
  if f.header.dst = EthernetAddress.broadcast ∧ f.header.type = EthernetHeader.typeARP then
    match ({} : ARPMessage).parse f.payload.concatenate with
    | (.noError, msg) =>
        if msg.opcode = ARPMessage.opcodeRequest then some msg.targetIpAddress else none
    | _ => none
  else none

/-- A request asks for its target. -/
theorem asksFor_requestFrame (ni : NetworkInterface) (ip : UInt32) :
    asksFor (ni.requestFrame ip) = some ip := by
  have hpayload : (ni.requestFrame ip).payload.concatenate = (ni.arpRequest ip).bytes :=
    List.append_nil _
  rw [asksFor, if_pos ⟨rfl, rfl⟩, hpayload, ARPMessage.parse_bytes rfl]
  rfl

/-- A reply asks for nothing. -/
theorem asksFor_answerFrame (ni : NetworkInterface) (msg : ARPMessage) :
    asksFor (ni.answerFrame msg) = none := by
  have hpayload : (ni.answerFrame msg).payload.concatenate = (ni.arpReply msg).bytes :=
    List.append_nil _
  unfold asksFor
  split
  · rw [hpayload, ARPMessage.parse_bytes rfl]
    rfl
  · rfl

theorem asksFor_of_IPv4 {f : EthernetFrame} (h : f.header.type = EthernetHeader.typeIPv4) :
    asksFor f = none := by
  have noARP : f.header.type ≠ EthernetHeader.typeARP := by
    rw [h]
    exact EthernetHeader.typeIPv4_ne_typeARP
  exact if_neg fun both => noARP both.2

/-- **The three kinds of frames** that a call emits.  A datagram leaves only for the next hop of
the call, and only with an address that is in the table when the call ends; so every later result
on addresses is one on the table. -/
inductive Emission (ni : NetworkInterface) (op : Op) : EthernetFrame → Prop
  | datagram (e : IPv4Datagram × Address) {address : EthernetAddress} {t : ℕ}
      (waiting : e ∈ ni.pendingList ++ submits op) (hop : e.2.ipv4Numeric = ni.hopOf op)
      (serializable : e.1.Serializable)
      (known : (ni.next op).mapping (ni.hopOf op) = some (address, t)) :
      Emission ni op (ni.datagramFrame address e.1)
  | request (ip : UInt32) : Emission ni op (ni.requestFrame ip)
  | answer {msg : ARPMessage} (heard : msg ∈ ni.hears op)
      (request : msg.opcode = ARPMessage.opcodeRequest)
      (mine : msg.targetIpAddress = ni.ipAddress.ipv4Numeric) :
      Emission ni op (ni.answerFrame msg)

/-- **What a call other than `tick` does** to the tables and to the outbound queue.  Each table is
changed by one entry at most, and each change is one that a journal can record. -/
structure Effect (ni : NetworkInterface) (op : Op) : Prop where
  own : (ni.next op).ethernetAddress = ni.ethernetAddress ∧
    (ni.next op).ipAddress = ni.ipAddress
  time : (ni.next op).currentTime = ni.currentTime
  framesOut : (ni.next op).framesOut = ni.framesOut ++ ni.emits op
  emission : ∀ f ∈ ni.emits op, Emission ni op f
  unheard : ni.hears op = none → (ni.next op).mapping = ni.mapping
  heard : ∀ msg ∈ ni.hears op, (ni.next op).mapping = (ni.learn msg).mapping
  asked : (ni.emits op).filterMap asksFor = [] ∧
      (ni.next op).blockingMapping = ni.blockingMapping ∨
    ∃ ip, ni.blockingMapping ip = none ∧ (ni.emits op).filterMap asksFor = [ip] ∧
      (ni.next op).blockingMapping = record ni.blockingMapping ip ni.currentTime

section Effect

variable {ni : NetworkInterface}

/-- What joins the queue is what was emitted. -/
theorem emits_eq {op : Op} {new : List EthernetFrame}
    (h : (ni.next op).framesOut = ni.framesOut ++ new) : ni.emits op = new := by
  rw [emits, h, List.drop_left]

/-- A call that emits nothing. -/
theorem emits_of_same {op : Op} (h : ni.next op = ni) : ni.emits op = [] := by
  rw [emits, h, List.drop_length]

/-- A call without any effect. -/
theorem effect_of_same {op : Op} (h : ni.next op = ni) (silent : ni.hears op = none) :
    Effect ni op := by
  have hemits : ni.emits op = [] := emits_of_same h
  refine ⟨?_, ?_, ?_, ?_, ?_, ?_, Or.inl ⟨?_, ?_⟩⟩
  · rw [h]
    exact ⟨rfl, rfl⟩
  · rw [h]
  · rw [hemits, h, List.append_nil]
  · rw [hemits]
    intro f hf
    cases hf
  · intro _
    rw [h]
  · rw [silent]
    intro msg hmsg
    cases hmsg
  · rw [hemits]
    rfl
  · rw [h]

/-- A datagram waits, and its address may be asked for. -/
theorem effect_of_unknown {d : IPv4Datagram} {hop : Address}
    (unknown : ni.mapping hop.ipv4Numeric = none) : Effect ni (.sendDatagram d hop) := by
  have hnext : ni.next (.sendDatagram d hop) = _ := afterSend_of_unknown unknown
  have hframes : (ni.next (.sendDatagram d hop)).framesOut
      = ni.framesOut ++ ni.asks hop.ipv4Numeric := congrArg framesOut hnext
  have hemits := emits_eq hframes
  refine ⟨?_, ?_, ?_, ?_, ?_, ?_, ?_⟩
  · rw [hnext]
    exact ⟨rfl, rfl⟩
  · rw [hnext]
  · rw [hframes, hemits]
  · rw [hemits]
    intro f hf
    rw [eq_requestFrame hf]
    exact Emission.request _
  · intro _
    rw [hnext]
  · intro msg hmsg
    cases hmsg
  · rw [hemits, hnext, asks]
    by_cases free : ni.blockingMapping hop.ipv4Numeric = none
    · right
      refine ⟨hop.ipv4Numeric, free, ?_, rfl⟩
      rw [if_pos free, List.filterMap_cons_some (asksFor_requestFrame ni _)]
      rfl
    · left
      rw [if_neg free]
      obtain ⟨t, blocked⟩ := Option.ne_none_iff_exists'.mp free
      exact ⟨rfl, record_of_some blocked⟩

/-- A datagram is sent. -/
theorem effect_of_known {d : IPv4Datagram} {hop : Address} {address : EthernetAddress} {t : ℕ}
    (known : ni.mapping hop.ipv4Numeric = some (address, t)) (serializable : d.Serializable) :
    Effect ni (.sendDatagram d hop) := by
  have hnext : ni.next (.sendDatagram d hop) = ni.push (ni.datagramFrame address d) :=
    (afterSend_of_known known).trans (if_pos serializable)
  have hframes : (ni.next (.sendDatagram d hop)).framesOut
      = ni.framesOut ++ [ni.datagramFrame address d] := congrArg framesOut hnext
  have hemits := emits_eq hframes
  refine ⟨?_, ?_, ?_, ?_, ?_, ?_, Or.inl ⟨?_, ?_⟩⟩
  · rw [hnext]
    exact ⟨rfl, rfl⟩
  · rw [hnext]
    rfl
  · rw [hframes, hemits]
  · rw [hemits]
    intro f hf
    rw [List.mem_singleton.mp hf]
    have waiting : (d, hop) ∈ ni.pendingList ++ submits (.sendDatagram d hop) :=
      List.mem_append_right _ (List.mem_singleton_self _)
    have reachable : (ni.next (.sendDatagram d hop)).mapping hop.ipv4Numeric
        = some (address, t) := by
      rw [hnext]
      exact known
    exact Emission.datagram (d, hop) waiting rfl serializable reachable
  · intro _
    rw [hnext]
    rfl
  · intro msg hmsg
    cases hmsg
  · rw [hemits, List.filterMap_cons_none (asksFor_of_IPv4 rfl)]
    rfl
  · rw [hnext]
    rfl

/-- Submitting a datagram, in each of its cases. -/
theorem effect_send (ni : NetworkInterface) (d : IPv4Datagram) (hop : Address) :
    Effect ni (.sendDatagram d hop) := by
  rcases known : ni.mapping hop.ipv4Numeric with _ | ⟨address, t⟩
  · exact effect_of_unknown known
  · by_cases serializable : d.Serializable
    · exact effect_of_known known serializable
    · exact effect_of_same ((afterSend_of_known known).trans (if_neg serializable)) rfl

/-- A message is heard: the effect is that of the frames it makes the interface emit. -/
theorem effect_of_heard {frame : EthernetFrame} {msg : ARPMessage}
    {pending : List (IPv4Datagram × Address)} {new : List EthernetFrame}
    (h : ni.heard frame = some msg)
    (hnext : ni.next (.recvFrame frame)
      = { ni.learn msg with pendingList := pending, framesOut := ni.framesOut ++ new })
    (emission : ∀ f ∈ new, Emission ni (.recvFrame frame) f)
    (asked : ∀ f ∈ new, asksFor f = none) : Effect ni (.recvFrame frame) := by
  have hframes : (ni.next (.recvFrame frame)).framesOut = ni.framesOut ++ new :=
    congrArg framesOut hnext
  have hemits := emits_eq hframes
  have hhears : ni.hears (.recvFrame frame) = some msg := h
  refine ⟨?_, ?_, ?_, ?_, ?_, ?_, Or.inl ⟨?_, ?_⟩⟩
  · rw [hnext]
    exact ⟨rfl, rfl⟩
  · rw [hnext]
    rfl
  · rw [hframes, hemits]
  · rw [hemits]
    exact emission
  · intro silent
    rw [hhears] at silent
    cases silent
  · intro msg' hmsg
    rw [hhears] at hmsg
    rw [hnext, Option.some.inj hmsg]
  · rw [hemits]
    exact List.filterMap_eq_nil_iff.mpr asked
  · rw [hnext]
    rfl

/-- A frame, whether it is heard or not. -/
theorem effect_recv (ni : NetworkInterface) (frame : EthernetFrame) :
    Effect ni (.recvFrame frame) := by
  cases heard : ni.heard frame with
  | none => exact effect_of_same (afterRecv_of_unheard heard) heard
  | some msg =>
      rcases heard_opcode heard with reply | request
      · obtain ⟨address, t, known, received⟩ := afterRecv_of_reply heard reply
        have hnext : ni.next (.recvFrame frame) = _ := received
        refine effect_of_heard heard hnext ?_ ?_
        · intro f hf
          obtain ⟨e, he, rfl⟩ := List.mem_map.mp hf
          obtain ⟨hpending, hip⟩ := List.mem_filter.mp (List.takeWhile_subset _ he)
          have serializable : e.1.Serializable := by
            simpa using List.mem_takeWhile_imp he
          have reachable : (ni.next (.recvFrame frame)).mapping (ni.hopOf (.recvFrame frame))
              = some (address, t) := by
            rw [hnext, hopOf_of_heard heard]
            exact known
          have hop := (of_decide_eq_true hip).trans (hopOf_of_heard heard).symm
          exact Emission.datagram e (List.mem_append_left _ hpending) hop serializable reachable
        · intro f hf
          obtain ⟨e, -, rfl⟩ := List.mem_map.mp hf
          exact asksFor_of_IPv4 rfl
      · have hnext : ni.next (.recvFrame frame) = _ := afterRecv_of_request heard request
        refine effect_of_heard heard hnext ?_ ?_
        · intro f hf
          obtain ⟨rfl, mine⟩ := eq_answerFrame hf
          exact Emission.answer heard request mine
        · intro f hf
          rw [(eq_answerFrame hf).1]
          exact asksFor_answerFrame ni msg

end Effect

/-! ## The journal -/

/-- An interface with a journal of its use.  The interface forgets what it has heard and asked for
when it is old enough; the journal keeps it, with the time. -/
structure Journal where
  ni : NetworkInterface
  /-- The time that has passed. -/
  now : ℕ := 0
  /-- The ARP messages heard, and when. -/
  heard : List (ℕ × ARPMessage) := []
  /-- The frames put on the outbound queue, and when. -/
  emitted : List (ℕ × EthernetFrame) := []

namespace Journal

/-- An interface with an empty journal. -/
def start (ethernetAddress : EthernetAddress) (ipAddress : Address) : Journal :=
  { ni := { ethernetAddress := ethernetAddress, ipAddress := ipAddress } }

/-- The journal after a call. -/
def after (j : Journal) (op : Op) : Journal :=
  { ni := j.ni.next op
    now := j.now + elapsed op
    heard := j.heard ++ (j.ni.hears op).toList.map fun msg => (j.now, msg)
    emitted := j.emitted ++ (j.ni.emits op).map fun f => (j.now, f) }

def step (j : Journal) (op : Op) : Except Empty Journal := .ok (j.after op)

/-- The clock stays thirty seconds below its overflow. -/
def ClockFits (j : Journal) (op : Op) : Prop := j.now + elapsed op + arpValidTime < 2 ^ 64

instance (j : Journal) (op : Op) : Decidable (j.ClockFits op) :=
  inferInstanceAs (Decidable (_ < _))

/-- Who was heard of, where, and when. -/
def announcements (j : Journal) : List (UInt32 × EthernetAddress × ℕ) :=
  j.heard.map fun e => (e.2.senderIpAddress, e.2.senderEthernetAddress, e.1)

/-- The addresses asked for, and when. -/
def requests (j : Journal) : List (UInt32 × ℕ) :=
  j.emitted.filterMap fun e => (asksFor e.2).map fun ip => (ip, e.1)

/-- **The tables agree with the journal.**  The table of questions is exactly what the journal
says; the table of addresses is only backed by it, since the source does not overwrite an entry
that is still there. -/
structure Timely (j : Journal) : Prop where
  clock : j.ni.currentTime = j.now
  fits : j.now + arpValidTime < 2 ^ 64
  frames : j.emitted.map Prod.snd = j.ni.framesOut
  known : Backed Prod.snd arpValidTime j.now j.ni.mapping j.announcements
  asked : Exact id arpReqBlockingTime j.now j.ni.blockingMapping j.requests
  spaced : j.requests.Pairwise fun a b => a.1 = b.1 → a.2 + arpReqBlockingTime ≤ b.2

section Timely

variable {j : Journal}

/-- Only `tick` takes time. -/
theorem now_after (j : Journal) {op : Op} (instant : elapsed op = 0) : (j.after op).now = j.now := by
  rw [after, instant]
  rfl

/-- A call adds the requests among its frames. -/
theorem requests_after (j : Journal) (op : Op) :
    (j.after op).requests
      = j.requests ++ ((j.ni.emits op).filterMap asksFor).map fun ip => (ip, j.now) := by
  rw [requests, after, List.filterMap_append, List.filterMap_map, List.map_filterMap]
  rfl

theorem announcements_of_unheard {op : Op} (h : j.ni.hears op = none) :
    (j.after op).announcements = j.announcements := by
  rw [announcements, after, h]
  simp [announcements]

/-- A message that is heard is an announcement of its sender. -/
theorem announcements_of_heard {op : Op} {msg : ARPMessage} (h : j.ni.hears op = some msg) :
    (j.after op).announcements = j.announcements
      ++ [(msg.senderIpAddress, msg.senderEthernetAddress, j.now)] := by
  rw [announcements, after, h]
  simp [announcements]

/-- Nothing was heard and nothing asked. -/
theorem timely_start (ethernetAddress : EthernetAddress) (ipAddress : Address) :
    Timely (start ethernetAddress ipAddress) where
  clock := rfl
  fits := show 0 + arpValidTime < 2 ^ 64 by decide
  frames := rfl
  known := backed_empty
  asked := exact_empty
  spaced := List.Pairwise.nil

/-- The purge of the source, as long as the clock does not overflow. -/
theorem filter_eq_purge {β : Type} {time : β → ℕ} {lifetime now later : ℕ}
    {table : UInt32 → Option β} {log : List (UInt32 × β)}
    (h : Backed time lifetime now table log) (fits : now + lifetime < 2 ^ 64) :
    (fun key => (table key).filter fun value => ¬add64 (time value) lifetime ≤ later)
      = purge time lifetime later table := by
  funext key
  unfold purge
  cases entry : table key with
  | none => rfl
  | some value =>
      have past : time value ≤ now := h.past _ (h.logged key value entry)
      have exact : add64 (time value) lifetime = time value + lifetime :=
        add64_of_lt (lt_of_le_of_lt (Nat.add_le_add_right past lifetime) fits)
      simp only [Option.filter_some, exact, Nat.not_le]

/-- The clock does not overflow. -/
theorem Timely.clock_tick (h : j.Timely) {ms : ℕ} (fits : j.ClockFits (.tick ms)) :
    (j.ni.next (.tick ms)).currentTime = j.now + ms := by
  show add64 j.ni.currentTime ms = _
  rw [h.clock]
  exact add64_of_lt (lt_of_le_of_lt (Nat.le_add_right _ _) fits)

/-- `tick` purges the mapping. -/
theorem Timely.mapping_tick (h : j.Timely) {ms : ℕ} (fits : j.ClockFits (.tick ms)) :
    (j.ni.next (.tick ms)).mapping = purge Prod.snd arpValidTime (j.now + ms) j.ni.mapping := by
  rw [← filter_eq_purge h.known h.fits, ← h.clock_tick fits]
  rfl

/-- **Time passes.**  The source goes through both maps and erases what is old; what is left is
what the journal has from less than a lifetime ago. -/
theorem Timely.tick (h : j.Timely) {ms : ℕ} (fits : j.ClockFits (.tick ms)) :
    (j.after (.tick ms)).Timely := by
  have hfits : j.now + ms + arpValidTime < 2 ^ 64 := fits
  have hemits : j.ni.emits (.tick ms) = [] := List.drop_length
  have hclock := h.clock_tick fits
  have hrequests : (j.after (.tick ms)).requests = j.requests := by
    rw [requests_after, hemits]
    exact List.append_nil _
  have hasked : (j.ni.next (.tick ms)).blockingMapping
      = purge id arpReqBlockingTime (j.now + ms) j.ni.blockingMapping := by
    have shorter : j.now + arpReqBlockingTime < 2 ^ 64 :=
      lt_of_le_of_lt (Nat.add_le_add_left (by decide) _) h.fits
    rw [← filter_eq_purge h.asked.toBacked shorter, ← hclock]
    rfl
  refine ⟨hclock, hfits, ?_, ?_, ?_, ?_⟩
  · show (j.emitted ++ (j.ni.emits (.tick ms)).map _).map Prod.snd = j.ni.framesOut
    rw [hemits, List.map_nil, List.append_nil]
    exact h.frames
  · rw [announcements_of_unheard rfl]
    show Backed _ _ (j.now + ms) (j.ni.next (.tick ms)).mapping _
    rw [h.mapping_tick fits]
    exact h.known.purge (Nat.le_add_right _ _)
  · rw [hrequests]
    show Exact _ _ (j.now + ms) (j.ni.next (.tick ms)).blockingMapping _
    rw [hasked]
    exact h.asked.purge (Nat.le_add_right _ _)
  · rw [hrequests]
    exact h.spaced

/-- A message that is heard is recorded like any entry of an expiring table. -/
theorem learn_mapping (ni : NetworkInterface) (msg : ARPMessage) :
    (ni.learn msg).mapping = record ni.mapping msg.senderIpAddress
      (msg.senderEthernetAddress, ni.currentTime) := rfl

/-- **A call** other than `tick`. -/
theorem Timely.call (h : j.Timely) {op : Op} (effect : Effect j.ni op) (instant : elapsed op = 0) :
    (j.after op).Timely := by
  have hnow := j.now_after instant
  refine ⟨?_, ?_, ?_, ?_, ?_, ?_⟩
  · rw [hnow]
    exact effect.time.trans h.clock
  · rw [hnow]
    exact h.fits
  · show (j.emitted ++ (j.ni.emits op).map _).map Prod.snd = (j.ni.next op).framesOut
    rw [effect.framesOut, List.map_append, h.frames, List.map_map]
    exact congrArg _ (List.map_id _)
  · rw [hnow]
    show Backed _ _ _ (j.ni.next op).mapping _
    cases heard : j.ni.hears op with
    | none =>
        rw [announcements_of_unheard heard, effect.unheard heard]
        exact h.known
    | some msg =>
        rw [announcements_of_heard heard, effect.heard msg heard, learn_mapping, h.clock]
        exact h.known.record (by decide) _ rfl
  · rw [hnow, requests_after]
    show Exact _ _ _ (j.ni.next op).blockingMapping _
    rcases effect.asked with ⟨none, same⟩ | ⟨ip, free, one, blocked⟩
    · rw [none, same, List.map_nil, List.append_nil]
      exact h.asked
    · rw [one, blocked, h.clock]
      exact h.asked.record (by decide) rfl (Or.inl free)
  · rw [requests_after]
    rcases effect.asked with ⟨none, -⟩ | ⟨ip, free, one, -⟩
    · rw [none, List.map_nil, List.append_nil]
      exact h.spaced
    · -- whatever was asked for this address is no longer in the table
      rw [one, List.map_singleton, List.pairwise_append]
      refine ⟨h.spaced, List.pairwise_singleton _ _, ?_⟩
      rintro ⟨asked, t⟩ hasked e he same
      rw [List.mem_singleton.mp he] at same ⊢
      obtain rfl : asked = ip := same
      exact h.asked.old free hasked

/-- Every call keeps the tables in agreement with the journal. -/
theorem Timely.after (h : j.Timely) {op : Op} (fits : j.ClockFits op) : (j.after op).Timely := by
  cases op with
  | sendDatagram dgram nextHop => exact h.call (effect_send _ _ _) rfl
  | recvFrame frame => exact h.call (effect_recv _ _) rfl
  | tick ms => exact h.tick fits

/-- **In every run the tables agree with the journal.** -/
theorem timely_of_run {ethernetAddress : EthernetAddress} {ipAddress : Address}
    (run : GuardedRun step ClockFits (start ethernetAddress ipAddress) j) : j.Timely := by
  refine run.invariant Timely (timely_start _ _) ?_
  intro j op j' h fits stepped
  obtain rfl := Except.ok.inj stepped
  exact h.after fits

end Timely

/-! ## Requests -/

/-- **Requests for one address are five seconds apart**, and they are sent.  In every run:

* the journal has the frames of the outbound queue;
* of any two requests for one address, the later was sent at least 5000 ms after the earlier;
* a datagram for an address that is not in the mapping, and that was not asked for less than
  5000 ms ago, makes the interface ask. -/
theorem requests_spaced {ethernetAddress : EthernetAddress} {ipAddress : Address} {j : Journal}
    (run : GuardedRun step ClockFits (start ethernetAddress ipAddress) j) :
    j.emitted.map Prod.snd = j.ni.framesOut ∧
      (j.emitted.Pairwise fun a b =>
        ∀ ip, asksFor a.2 = some ip → asksFor b.2 = some ip → a.1 + 5000 ≤ b.1) ∧
      ∀ d hop, j.ni.mapping hop.ipv4Numeric = none →
        (∀ e ∈ j.emitted, asksFor e.2 = some hop.ipv4Numeric → e.1 + 5000 ≤ j.now) →
        ∃ frame, (j.after (.sendDatagram d hop)).emitted = j.emitted ++ [(j.now, frame)] ∧
          asksFor frame = some hop.ipv4Numeric := by
  have timely := timely_of_run run
  refine ⟨timely.frames, ?_, ?_⟩
  · have spaced := timely.spaced
    rw [requests, List.pairwise_filterMap] at spaced
    refine spaced.imp ?_
    intro a b apart ip ha hb
    refine apart (ip, a.1) ?_ (ip, b.1) ?_ rfl
    · rw [ha]
      rfl
    · rw [hb]
      rfl
  · intro d hop unknown quiet
    have free : j.ni.blockingMapping hop.ipv4Numeric = none := by
      -- an entry would be a request less than five seconds old
      by_contra blocked
      obtain ⟨t, blocked⟩ := Option.ne_none_iff_exists'.mp blocked
      obtain ⟨e, he, hasked⟩ := List.mem_filterMap.mp (timely.asked.logged _ _ blocked)
      obtain ⟨ip, hip, hpair⟩ := Option.map_eq_some_iff.mp hasked
      obtain ⟨rfl, rfl⟩ := Prod.mk.inj hpair
      exact absurd (timely.asked.young _ _ blocked) (not_lt.mpr (quiet e he hip))
    have hframes : (j.ni.next (.sendDatagram d hop)).framesOut
        = j.ni.framesOut ++ [j.ni.requestFrame hop.ipv4Numeric] := by
      have hnext : j.ni.next (.sendDatagram d hop) = _ := afterSend_of_unknown unknown
      rw [hnext, asks, if_pos free]
    refine ⟨j.ni.requestFrame hop.ipv4Numeric, ?_, asksFor_requestFrame _ _⟩
    rw [after, emits_eq hframes]
    rfl

/-- The neighbour is asked for, and asked for again after five seconds. -/
def patience : List Op :=
  [.sendDatagram hello neighbour.ipAddress, .tick 4999, .sendDatagram hello neighbour.ipAddress,
    .tick 1, .sendDatagram hello neighbour.ipAddress]

theorem requests_spaced_patience :
    ∃ j, execute step (start host.ethernetAddress host.ipAddress) patience = .ok j ∧
      j.requests = [(neighbour.ipAddress.ipv4Numeric, 0), (neighbour.ipAddress.ipv4Numeric, 5000)] ∧
      (j.emitted.Pairwise fun a b =>
        ∀ ip, asksFor a.2 = some ip → asksFor b.2 = some ip → a.1 + 5000 ≤ b.1) ∧
      ∃ frame, (j.after (.sendDatagram hello stranger.ipAddress)).emitted
          = j.emitted ++ [(j.now, frame)] ∧
        asksFor frame = some stranger.ipAddress.ipv4Numeric := by
  obtain ⟨j, done, admitted, hrequests, unknown, quiet⟩ : ∃ j,
      execute step (start host.ethernetAddress host.ipAddress) patience = .ok j ∧
      Admitted step ClockFits (start host.ethernetAddress host.ipAddress) patience ∧
      j.requests = [(neighbour.ipAddress.ipv4Numeric, 0),
        (neighbour.ipAddress.ipv4Numeric, 5000)] ∧
      j.ni.mapping stranger.ipAddress.ipv4Numeric = none ∧
      ∀ e ∈ j.emitted, asksFor e.2 = some stranger.ipAddress.ipv4Numeric →
        e.1 + 5000 ≤ j.now :=
    EndsIn.exists_ok (by decide +kernel)
  obtain ⟨-, spaced, sent⟩ := requests_spaced (GuardedRun.of_execute admitted done)
  exact ⟨j, done, hrequests, spaced, sent hello stranger.ipAddress unknown quiet⟩

/-- The addresses of an interface are those it was made with. -/
theorem own_of_run {ethernetAddress : EthernetAddress} {ipAddress : Address} {j : Journal}
    (run : GuardedRun step ClockFits (start ethernetAddress ipAddress) j) :
    j.ni.ethernetAddress = ethernetAddress ∧ j.ni.ipAddress = ipAddress := by
  refine run.invariant
    (fun j => j.ni.ethernetAddress = ethernetAddress ∧ j.ni.ipAddress = ipAddress) ⟨rfl, rfl⟩ ?_
  intro j op j' h _ stepped
  obtain rfl := Except.ok.inj stepped
  cases op with
  | sendDatagram dgram nextHop =>
      have own := (effect_send j.ni dgram nextHop).own
      exact ⟨own.1.trans h.1, own.2.trans h.2⟩
  | recvFrame frame =>
      have own := (effect_recv j.ni frame).own
      exact ⟨own.1.trans h.1, own.2.trans h.2⟩
  | tick ms => exact h

/-- What a call emits is one of the three kinds of frames, and `tick` emits nothing. -/
theorem emission_of_mem {ni : NetworkInterface} {op : Op} {f : EthernetFrame}
    (hf : f ∈ ni.emits op) : elapsed op = 0 ∧ Effect ni op ∧ Emission ni op f := by
  cases op with
  | sendDatagram dgram nextHop =>
      have effect := effect_send ni dgram nextHop
      exact ⟨rfl, effect, effect.emission f hf⟩
  | recvFrame frame =>
      have effect := effect_recv ni frame
      exact ⟨rfl, effect, effect.emission f hf⟩
  | tick ms =>
      have silent : ni.emits (.tick ms) = [] := List.drop_length
      rw [silent] at hf
      cases hf

/-- An entry of the mapping was heard, less than thirty seconds ago. -/
theorem Timely.heard_of_mapping {j : Journal} (h : j.Timely) {ip : UInt32}
    {address : EthernetAddress} {t : ℕ} (known : j.ni.mapping ip = some (address, t)) :
    ∃ e ∈ j.heard, e.2.senderIpAddress = ip ∧ e.2.senderEthernetAddress = address ∧
      e.1 ≤ j.now ∧ j.now < e.1 + 30000 := by
  have logged := h.known.logged ip _ known
  have past := h.known.past _ logged
  have young := h.known.young ip _ known
  obtain ⟨e, he, hentry⟩ := List.mem_map.mp logged
  obtain ⟨hip, hvalue⟩ := Prod.mk.inj hentry
  obtain ⟨haddress, rfl⟩ := Prod.mk.inj hvalue
  exact ⟨e, he, hip, haddress, past, young⟩

/-- **Datagrams go to addresses that were heard of recently.**  In every run, a frame that a
call puts on the outbound queue comes from the interface, and

* it carries a datagram that was pending or is submitted, for the next hop of the call, to an
  address that an ARP message from this hop gave, less than 30000 ms ago; or
* it asks everybody, and says who asks; or
* it answers a request for the interface's own address, to the one who asked. -/
theorem sent_to_fresh_address {ethernetAddress : EthernetAddress} {ipAddress : Address}
    {j : Journal} (run : GuardedRun step ClockFits (start ethernetAddress ipAddress) j) (op : Op) :
    ∀ f ∈ j.ni.emits op, f.header.src = ethernetAddress ∧
      ((f.header.type = EthernetHeader.typeIPv4 ∧
          ∃ e ∈ j.ni.pendingList ++ submits op, Carries e.1 f ∧
            e.2.ipv4Numeric = j.ni.hopOf op ∧
            ∃ m ∈ (j.after op).heard, m.2.senderIpAddress = j.ni.hopOf op ∧
              m.2.senderEthernetAddress = f.header.dst ∧ m.1 ≤ j.now ∧ j.now < m.1 + 30000) ∨
        (f.header.type = EthernetHeader.typeARP ∧ f.header.dst = EthernetAddress.broadcast ∧
          ∃ msg : ARPMessage, f.payload = [msg.bytes] ∧
            msg.opcode = ARPMessage.opcodeRequest ∧
            msg.senderIpAddress = ipAddress.ipv4Numeric ∧
            msg.senderEthernetAddress = ethernetAddress) ∨
        (f.header.type = EthernetHeader.typeARP ∧
          ∃ msg ∈ j.ni.hears op, msg.opcode = ARPMessage.opcodeRequest ∧
            msg.targetIpAddress = ipAddress.ipv4Numeric ∧
            f.header.dst = msg.senderEthernetAddress ∧
            f.payload = [(j.ni.arpReply msg).bytes])) := by
  intro f hf
  obtain ⟨hethernet, hip⟩ := own_of_run run
  obtain ⟨instant, effect, emission⟩ := emission_of_mem hf
  have timely := (timely_of_run run).call effect instant
  have hnow := j.now_after instant
  cases emission with
  | datagram e waiting hop serializable known =>
      refine ⟨hethernet, Or.inl ⟨rfl, e, waiting, ?_, hop, ?_⟩⟩
      · exact ⟨rfl, IPv4Datagram.serialize_eq serializable⟩
      · rw [← hnow]
        exact timely.heard_of_mapping known
  | request ip =>
      refine ⟨hethernet, Or.inr (Or.inl ⟨rfl, rfl, j.ni.arpRequest ip, rfl, rfl, ?_, hethernet⟩)⟩
      exact congrArg Address.ipv4Numeric hip
  | answer heard request mine =>
      refine ⟨hethernet, Or.inr (Or.inr ⟨rfl, _, heard, request, ?_, rfl, rfl⟩)⟩
      rw [mine, hip]

/-- The neighbour says where it is, and nearly thirty seconds pass. -/
def acquaintance : List Op := [.recvFrame (neighbour.replyFrame host), .tick 29999]

theorem sent_to_fresh_address_neighbour :
    ∃ j, execute step (start host.ethernetAddress host.ipAddress) acquaintance = .ok j ∧
      ∃ f ∈ j.ni.emits (.sendDatagram hello neighbour.ipAddress),
        f.header.type = EthernetHeader.typeIPv4 ∧ f.header.src = host.ethernetAddress := by
  obtain ⟨j, done, admitted, f, hf, isIPv4⟩ : ∃ j,
      execute step (start host.ethernetAddress host.ipAddress) acquaintance = .ok j ∧
      Admitted step ClockFits (start host.ethernetAddress host.ipAddress) acquaintance ∧
      ∃ f ∈ j.ni.emits (.sendDatagram hello neighbour.ipAddress),
        f.header.type = EthernetHeader.typeIPv4 :=
    EndsIn.exists_ok (by decide +kernel)
  have run := GuardedRun.of_execute admitted done
  exact ⟨j, done, f, hf, isIPv4, (sent_to_fresh_address run _ f hf).1⟩

end Journal

/-! ## The latest announcement -/

/-- The sender of an ARP message is not in the mapping, or already with this address and the
present time. -/
def Unannounced (ni : NetworkInterface) (op : Op) : Prop :=
  ∀ msg ∈ ni.hears op, ni.mapping msg.senderIpAddress = none ∨
    ni.mapping msg.senderIpAddress = some (msg.senderEthernetAddress, ni.currentTime)

instance (ni : NetworkInterface) (op : Op) : Decidable (ni.Unannounced op) :=
  inferInstanceAs (Decidable (∀ msg ∈ ni.hears op, _ ∨ _))

namespace Journal

/-- The clock fits, and no ARP message comes from an address with an older entry. -/
def Announces (j : Journal) (op : Op) : Prop := j.ClockFits op ∧ j.ni.Unannounced op

instance (j : Journal) (op : Op) : Decidable (j.Announces op) :=
  inferInstanceAs (Decidable (_ ∧ _))

/-- The mapping is exactly what was heard in the last thirty seconds. -/
def Current (j : Journal) : Prop :=
  Exact Prod.snd arpValidTime j.now j.ni.mapping j.announcements

section Current

variable {j : Journal}

/-- A call that hears nothing unexpected keeps the mapping exact. -/
theorem Current.call (h : j.Current) (timely : j.Timely) {op : Op} (effect : Effect j.ni op)
    (instant : elapsed op = 0) (unannounced : j.ni.Unannounced op) : (j.after op).Current := by
  have hnow := j.now_after instant
  show Exact _ _ (j.after op).now (j.ni.next op).mapping _
  rw [hnow]
  cases heard : j.ni.hears op with
  | none =>
      rw [announcements_of_unheard heard, effect.unheard heard]
      exact h
  | some msg =>
      have fresh := unannounced msg heard
      rw [timely.clock] at fresh
      rw [announcements_of_heard heard, effect.heard msg heard, learn_mapping, timely.clock]
      exact Exact.record h (by decide) rfl fresh

/-- And so does the passing of time. -/
theorem Current.after (h : j.Current) (timely : j.Timely) {op : Op} (announces : j.Announces op) :
    (j.after op).Current := by
  cases op with
  | sendDatagram dgram nextHop => exact h.call timely (effect_send _ _ _) rfl announces.2
  | recvFrame frame => exact h.call timely (effect_recv _ _) rfl announces.2
  | tick ms =>
      show Exact _ _ (j.now + ms) (j.ni.next (.tick ms)).mapping _
      rw [announcements_of_unheard rfl, timely.mapping_tick announces.1]
      exact Exact.purge h (Nat.le_add_right _ _)

end Current

/-- **The latest announcement wins**, in every run in which no ARP message comes from an
address while the mapping has an older entry for it:

* the message that arrives next is recorded with its address and the present time **exactly
  if** it is no exception to this;
* an address is mapped to what the last message from it said, for 30000 ms;
* a datagram goes to the address that the last message from its next hop, which is that of
  the call, gave. -/
theorem latest_announcement_wins {ethernetAddress : EthernetAddress} {ipAddress : Address}
    {j : Journal} (run : GuardedRun step Announces (start ethernetAddress ipAddress) j) :
    (∀ frame, ∀ msg ∈ j.ni.heard frame,
        ((j.ni.next (.recvFrame frame)).mapping msg.senderIpAddress
            = some (msg.senderEthernetAddress, j.ni.currentTime) ↔
          j.ni.Unannounced (.recvFrame frame))) ∧
      (∀ ip, j.ni.mapping ip
        = (latest j.announcements ip).filter fun e => j.now < e.2 + 30000) ∧
      ∀ op, j.ni.Unannounced op → ∀ f ∈ j.ni.emits op,
        f.header.type = EthernetHeader.typeIPv4 →
          ∃ e ∈ j.ni.pendingList ++ submits op, Carries e.1 f ∧
            e.2.ipv4Numeric = j.ni.hopOf op ∧
            ∃ t, latest (j.after op).announcements (j.ni.hopOf op) = some (f.header.dst, t) ∧
              j.now < t + 30000 := by
  obtain ⟨timely, current⟩ : j.Timely ∧ j.Current := by
    refine run.invariant (fun j => j.Timely ∧ j.Current) ⟨timely_start _ _, exact_empty⟩ ?_
    rintro j op j' ⟨timely, current⟩ announces stepped
    obtain rfl := Except.ok.inj stepped
    exact ⟨timely.after announces.1, current.after timely announces⟩
  refine ⟨?_, current.lookup, ?_⟩
  · intro frame msg heard
    rw [(effect_recv j.ni frame).heard msg heard, learn_mapping, record_self_eq_some]
    constructor
    · intro fresh msg' heard'
      obtain rfl : msg = msg' := Option.some.inj (heard.symm.trans heard')
      exact fresh
    · intro unannounced
      exact unannounced msg heard
  · intro op unannounced f hf isIPv4
    obtain ⟨instant, effect, emission⟩ := emission_of_mem hf
    -- the table shows the latest announcements after the call as well
    have current' := current.call timely effect instant unannounced
    have hnow := j.now_after instant
    cases emission with
    | @datagram e address t waiting hop serializable known =>
        refine ⟨e, waiting, ⟨rfl, IPv4Datagram.serialize_eq serializable⟩, hop, t, ?_, ?_⟩
        · have shown := current'.lookup (j.ni.hopOf op)
          rw [show (j.after op).ni.mapping (j.ni.hopOf op) = some (address, t) from known] at shown
          exact (Option.filter_eq_some_iff.mp shown.symm).1
        · rw [← hnow]
          exact current'.young _ _ known
    | request ip => exact absurd isIPv4 EthernetHeader.typeIPv4_ne_typeARP.symm
    | answer => exact absurd isIPv4 EthernetHeader.typeIPv4_ne_typeARP.symm

/-- The interface of 10.0.0.2 after its card was replaced. -/
def replaced : NetworkInterface := { neighbour with ethernetAddress := ⟨2, 0, 0, 0, 0, 9⟩ }

/-- The neighbour says where it is, and again when that has been forgotten. -/
def reunion : List Op :=
  [.recvFrame (neighbour.replyFrame host), .tick 30000, .recvFrame (replaced.replyFrame host)]

theorem latest_announcement_wins_reunion :
    ∃ j, execute step (start host.ethernetAddress host.ipAddress) reunion = .ok j ∧
      j.announcements.length = 2 ∧
      j.ni.mapping neighbour.ipAddress.ipv4Numeric
        = (latest j.announcements neighbour.ipAddress.ipv4Numeric).filter
            fun e => j.now < e.2 + 30000 := by
  obtain ⟨j, done, admitted, twice⟩ : ∃ j,
      execute step (start host.ethernetAddress host.ipAddress) reunion = .ok j ∧
      Admitted step Announces (start host.ethernetAddress host.ipAddress) reunion ∧
      j.announcements.length = 2 :=
    EndsIn.exists_ok (by decide +kernel)
  have wins := latest_announcement_wins (GuardedRun.of_execute admitted done)
  exact ⟨j, done, twice, wins.2.1 _⟩

/-- **The old announcement wins.**  The neighbour says where it is, and after a second that it
is elsewhere.  The old address stays in the mapping, with the old time, and the next datagram
goes there. -/
theorem old_announcement_wins :
    ∃ j, execute step (start host.ethernetAddress host.ipAddress)
        [.recvFrame (neighbour.replyFrame host), .tick 1000] = .ok j ∧
      j.ni.heard (replaced.replyFrame host)
        = some (replaced.arpReply (host.arpRequest neighbour.ipAddress.ipv4Numeric)) ∧
      (j.ni.next (.recvFrame (replaced.replyFrame host))).mapping
          neighbour.ipAddress.ipv4Numeric = some (neighbour.ethernetAddress, 0) ∧
      ((j.ni.next (.recvFrame (replaced.replyFrame host))).emits
          (.sendDatagram hello neighbour.ipAddress)).map (·.header.dst)
        = [neighbour.ethernetAddress] :=
  EndsIn.exists_ok (by decide +kernel)

end Journal

end NetworkInterface

end Sponge
