import Sponge.NetworkInterface.Traffic

/-!
# Routers

Embedding of `libsponge/router.{hh,cc}`.  A router has interfaces that keep what they
receive in a queue, and a list of rules; `route` empties the queues, one datagram after the
other, and sends each by the rule with the longest prefix that matches.

What a router does is stated in `Router.Forwarding`, and that it goes on doing it, whatever
arrives, in `Router.Survival`.

### Faults

Three things can go wrong, and they are of different kinds.  An interface may throw while it
serialises a datagram; the number of an interface may be out of range, which `at` reports;
and a rule with a prefix longer than 32 bits makes the shift in the match negative, which is
undefined in the source.  The model stops with a fault of its own in the last case, so that
no result can rest on what an undefined shift happens to give.

### The loop over one queue

The source pops a datagram after it was routed, and so does `routeQueue`.  The loop terminates
because routing does not touch the queues (`queue_routeOneDatagram`): datagrams are sent on
interfaces, and never put back into the queues that are being emptied.
-/

namespace Sponge

/-- `AsyncNetworkInterface`: an interface with a queue of the datagrams that have arrived.  A
router takes its datagrams from these queues. -/
structure AsyncNetworkInterface extends NetworkInterface where
  datagramsOut : List IPv4Datagram := []

/-- `recv_frame`, which keeps the datagram for later. -/
def AsyncNetworkInterface.recvFrame (a : AsyncNetworkInterface) (frame : EthernetFrame) :
    Except WireFault AsyncNetworkInterface := do
  let (optionalDgram, ni) ← a.toNetworkInterface.recvFrame frame
  .ok { toNetworkInterface := ni, datagramsOut := a.datagramsOut ++ optionalDgram.toList }

/-- `RouteRule`.  A rule without a next hop is for a network that the interface is attached to;
the datagram then goes to its own destination. -/
structure RouteRule where
  routePrefix : UInt32 := 0
  prefixLength : UInt8 := 0
  nextHop : Option Address := none
  interfaceNum : ℕ := 0
  deriving Repr, DecidableEq

/-- The ways in which the calls of a router fail. -/
inductive RouterFault where
  | wire (fault : WireFault)
  /-- `_interfaces.at(N)`. -/
  | outOfRange
  /-- A shift by a negative number, which is undefined. -/
  | negativeShift
  deriving Repr, DecidableEq

/-- The top bits of the rule's prefix are those of the target. -/
def RouteRule.matchesTarget (rule : RouteRule) (target : UInt32) : Except RouterFault Bool :=
  if rule.prefixLength = 0 then .ok true
  else if 32 < rule.prefixLength.toNat then .error .negativeShift
  else .ok ((target ^^^ rule.routePrefix).toNat >>> (32 - rule.prefixLength.toNat) == 0)

/-- `Router`.  The rules are kept in the order in which they were added, which decides between two
rules of the same prefix length. -/
structure Router where
  interfaces : List AsyncNetworkInterface := []
  ruleList : List RouteRule := []

namespace Router

/-- `add_route`. -/
def addRoute (r : Router) (routePrefix : UInt32) (prefixLength : UInt8)
    (nextHop : Option Address) (interfaceNum : ℕ) : Router :=
  { r with
    ruleList := r.ruleList ++
      [{ routePrefix := routePrefix, prefixLength := prefixLength, nextHop := nextHop,
         interfaceNum := interfaceNum }] }

/-- The loop over the rules.  Of two rules that match with the same length, the later one
is taken. -/
def longestMatch (target : UInt32) :
    List RouteRule → UInt8 → Option RouteRule → Except RouterFault (Option RouteRule)
  | [], _, matchRule => .ok matchRule
  | rule :: rest, longest, matchRule => do
      let applies ← rule.matchesTarget target
      if applies = true ∧ longest ≤ rule.prefixLength then
        longestMatch target rest rule.prefixLength (some rule)
      else longestMatch target rest longest matchRule

/-- The router after a call that has changed its interface `i`. -/
def replace (r : Router) (i : ℕ) (a : AsyncNetworkInterface) : Router :=
  { r with interfaces := r.interfaces.set i a }

/-- `interface(N).send_datagram(dgram, next_hop)`. -/
def sendVia (r : Router) (n : ℕ) (dgram : IPv4Datagram) (nextHop : Address) :
    Except RouterFault Router :=
  match r.interfaces[n]? with
  | none => .error .outOfRange
  | some a =>
      match a.toNetworkInterface.sendDatagram dgram nextHop with
      | .error fault => .error (.wire fault)
      | .ok ni =>
          .ok (r.replace n { a with toNetworkInterface := ni })

/-- `route_one_datagram`. -/
def routeOneDatagram (r : Router) (dgram : IPv4Datagram) : Except RouterFault Router := do
  let found ← longestMatch dgram.header.dst r.ruleList 0 none
  match found with
  | none => .ok r
  | some rule =>
      if dgram.header.ttl = 0 then .ok r
      else
        let dgram := { dgram with header := { dgram.header with ttl := dgram.header.ttl - 1 } }
        if dgram.header.ttl = 0 then .ok r
        else
          match rule.nextHop with
          | some nextHop => r.sendVia rule.interfaceNum dgram nextHop
          -- the target network is directly attached to the router
          | none => r.sendVia rule.interfaceNum dgram { ipv4Numeric := dgram.header.dst }

/-- `interface(i).datagrams_out()`. -/
def queue (r : Router) (i : ℕ) : List IPv4Datagram :=
  ((r.interfaces[i]?).map AsyncNetworkInterface.datagramsOut).getD []

/-- `queue.pop()`. -/
def pop (r : Router) (i : ℕ) : Router :=
  { r with
    interfaces := r.interfaces.modify i fun a => { a with datagramsOut := a.datagramsOut.tail } }

/-! ## Routing one datagram -/

/-- A successful call of `send_datagram`, taken apart. -/
theorem sendVia_cases {r r' : Router} {n : ℕ} {d : IPv4Datagram} {hop : Address}
    (h : r.sendVia n d hop = .ok r') :
    ∃ a ni, r.interfaces[n]? = some a ∧ a.toNetworkInterface.sendDatagram d hop = .ok ni ∧
      r' = r.replace n { a with toNetworkInterface := ni } := by
  unfold sendVia at h
  split at h
  · cases h
  next a ha =>
  split at h
  · cases h
  next ni sent => exact ⟨a, ni, ha, sent, (Except.ok.inj h).symm⟩

/-- **A datagram is sent on one interface or on none**, with one hop less to live.  Nothing is
asked of the rules here. -/
theorem routeOneDatagram_cases {r r' : Router} {d : IPv4Datagram}
    (h : r.routeOneDatagram d = .ok r') :
    r' = r ∨ ∃ n ttl hop, r.sendVia n { d with header := { d.header with ttl := ttl } } hop
      = .ok r' := by
  unfold routeOneDatagram at h
  cases found : longestMatch d.header.dst r.ruleList 0 none with
  | error fault => simp [found, bind, Except.bind] at h
  | ok matchRule =>
      simp only [found, bind, Except.bind] at h
      split at h
      · exact Or.inl (Except.ok.inj h).symm
      split at h
      · exact Or.inl (Except.ok.inj h).symm
      split at h
      · exact Or.inl (Except.ok.inj h).symm
      split at h
      · exact Or.inr ⟨_, _, _, h⟩
      · exact Or.inr ⟨_, _, _, h⟩

/-- Sending leaves the queues alone. -/
theorem queue_sendVia {r r' : Router} {n : ℕ} {d : IPv4Datagram} {hop : Address}
    (h : r.sendVia n d hop = .ok r') (i : ℕ) : r'.queue i = r.queue i := by
  obtain ⟨a, ni, ha, -, rfl⟩ := sendVia_cases h
  unfold queue replace
  rw [List.getElem?_set]
  split
  · next same =>
    subst same
    obtain ⟨bound, -⟩ := List.getElem?_eq_some_iff.mp ha
    rw [if_pos bound, ha]
    rfl
  · rfl

/-- Routing leaves the queues alone. -/
theorem queue_routeOneDatagram {r r' : Router} {d : IPv4Datagram}
    (h : r.routeOneDatagram d = .ok r') (i : ℕ) : r'.queue i = r.queue i := by
  rcases routeOneDatagram_cases h with rfl | ⟨n, ttl, hop, sent⟩
  · rfl
  · exact queue_sendVia sent i

theorem queue_of_getElem? {r : Router} {i : ℕ} {a : AsyncNetworkInterface}
    (ha : r.interfaces[i]? = some a) : r.queue i = a.datagramsOut := by
  rw [queue, ha]
  rfl

theorem exists_of_mem_queue {r : Router} {i : ℕ} {d : IPv4Datagram} (hd : d ∈ r.queue i) :
    ∃ a, r.interfaces[i]? = some a ∧ d ∈ a.datagramsOut := by
  unfold queue at hd
  cases ha : r.interfaces[i]? with
  | none =>
      rw [ha] at hd
      cases hd
  | some a =>
      rw [ha] at hd
      exact ⟨a, rfl, hd⟩

/-- Popping takes one datagram from one queue. -/
theorem queue_pop (r : Router) (i j : ℕ) :
    (r.pop i).queue j = if i = j then (r.queue j).tail else r.queue j := by
  unfold pop queue
  rw [List.getElem?_modify]
  split
  · cases r.interfaces[j]? <;> rfl
  · cases r.interfaces[j]? <;> rfl

/-- The loop over one queue. -/
def routeQueue (r : Router) (i : ℕ) : Except RouterFault Router :=
  match _queued : r.queue i with
  | [] => .ok r
  | dgram :: _ =>
      match _routed : r.routeOneDatagram dgram with
      | .error fault => .error fault
      | .ok r' => (r'.pop i).routeQueue i
  termination_by (r.queue i).length
  decreasing_by
    rw [queue_pop, if_pos rfl, queue_routeOneDatagram _routed, _queued]
    simp

theorem routeQueue_of_empty {r : Router} {i : ℕ} (empty : r.queue i = []) :
    r.routeQueue i = .ok r := by
  rw [routeQueue]
  split
  · rfl
  · next queued =>
    rw [empty] at queued
    cases queued

/-- One round of the loop. -/
theorem routeQueue_of_routed {r r' : Router} {i : ℕ} {d : IPv4Datagram}
    {rest : List IPv4Datagram} (queued : r.queue i = d :: rest)
    (routed : r.routeOneDatagram d = .ok r') : r.routeQueue i = (r'.pop i).routeQueue i := by
  rw [routeQueue]
  split
  · next empty =>
    rw [queued] at empty
    cases empty
  · next d' rest' queued' =>
    rw [queued] at queued'
    obtain ⟨rfl, rfl⟩ := List.cons.inj queued'
    split
    · next failed =>
      rw [routed] at failed
      cases failed
    · next routed' =>
      rw [routed] at routed'
      rw [Except.ok.inj routed']

/-- `route`. -/
def route (r : Router) : Except RouterFault Router :=
  (List.range r.interfaces.length).foldlM (fun r i => r.routeQueue i) r

end Router

end Sponge
