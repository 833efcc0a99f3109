import Sponge.Router.Forwarding

/-!
# Routers among strangers

What makes a router fail is found in other components: `IPv4Datagram::parse` drops the
result of the header's parser, so it accepts datagrams that `serialize` will refuse
(`IPv4Datagram.Unserializable`), and such a datagram throws out of `route`, or out of
`recv_frame` when the address of its next hop becomes known.

* `survives` — nothing throws, and `route` empties every queue, in every run without such a
  datagram.
* `route_throws` — a router that has received one.

### What is asked of the traffic

`Routable` is a condition on each call in the state that it finds, and asks for no more than
the failure needs.  A frame for another station is not even parsed, and a datagram that the
router drops, for want of a rule or of hops to live, is never serialised: whatever is wrong
with them does no harm.  What is left is the datagram that is accepted, has a rule and must be
sent on.  The invariant follows this line: what is **pending** at an interface has been routed
and has to be serialisable, what is **queued** only has to be `Forwardable`.
-/

namespace Sponge

open Runs

namespace Router

/-! ## Calls from outside -/

/-- A call on a router, by its owner or by the network. -/
inductive Op where
  /-- A frame with these bytes as its payload arrives at interface `i`. -/
  | recvFrame (i : ℕ) (header : EthernetHeader) (bytes : List UInt8)
  | route
  | tick (i : ℕ) (ms : ℕ)

/-- One call, by the owner of a router or by the network. -/
def step (r : Router) : Op → Except RouterFault Router
  | .recvFrame i header bytes =>
      match r.interfaces[i]? with
      | none => .error .outOfRange
      | some a =>
          match a.recvFrame ⟨header, [bytes]⟩ with
          | .error fault => .error (.wire fault)
          | .ok a => .ok (r.replace i a)
  | .route => r.route
  | .tick i ms =>
      match r.interfaces[i]? with
      | none => .error .outOfRange
      | some a =>
          .ok (r.replace i { a with toNetworkInterface := a.toNetworkInterface.tick ms })

/-- A router with interfaces that have not been used. -/
def start (addresses : List (EthernetAddress × Address)) (ruleList : List RouteRule) : Router :=
  { interfaces := addresses.map fun e => { ethernetAddress := e.1, ipAddress := e.2 }
    ruleList := ruleList }

/-- The call is on one of the interfaces, and if it brings the interface an IPv4 payload that is
accepted although it cannot be serialised again, then the router will drop the datagram. -/
def Routable (r : Router) : Op → Prop
  | .recvFrame i header bytes => ∃ a ∈ r.interfaces[i]?,
      (header.dst = a.ethernetAddress ∨ header.dst = EthernetAddress.broadcast) →
      header.type = EthernetHeader.typeIPv4 → IPv4Datagram.Unserializable bytes →
      Dropped r.ruleList (({} : IPv4Datagram).parse bytes).2
  | .route => True
  | .tick i _ => i < r.interfaces.length

instance decidableRoutable (r : Router) : ∀ op, Decidable (r.Routable op)
  | .recvFrame i _ _ => inferInstanceAs (Decidable (∃ a ∈ r.interfaces[i]?, _ → _ → _ → _))
  | .route => inferInstanceAs (Decidable True)
  | .tick _ _ => inferInstanceAs (Decidable (_ < _))

/-! ## Nothing unserialisable -/

/-- Every datagram that the interface holds can be dealt with: sent once the address of the next
hop is known, or routed.  The pending ones have been routed already, and only have to be
serialisable. -/
structure Harmless (rules : List RouteRule) (a : AsyncNetworkInterface) : Prop where
  pending : ∀ e ∈ a.pendingList, e.1.Serializable
  queued : ∀ d ∈ a.datagramsOut, Forwardable rules d

/-- **What holds of a router in every state**: its rules can be applied, and every datagram
in it can be dealt with. -/
structure Sound (r : Router) : Prop where
  rules : ∀ rule ∈ r.ruleList,
    rule.prefixLength.toNat ≤ 32 ∧ rule.interfaceNum < r.interfaces.length
  harmless : ∀ (i : ℕ) (a : AsyncNetworkInterface),
    r.interfaces[i]? = some a → Harmless r.ruleList a

section Sound

variable {r : Router}

/-- One interface changes. -/
theorem Sound.replace (h : r.Sound) {i : ℕ} {a : AsyncNetworkInterface}
    (ha : Harmless r.ruleList a) : (r.replace i a).Sound := by
  refine ⟨fun rule hrule => ?_, fun j b hb => ?_⟩
  · rw [Router.replace, List.length_set]
    exact h.rules rule hrule
  · rw [Router.replace, List.getElem?_set] at hb
    split at hb
    · split at hb
      · exact Option.some.inj hb ▸ ha
      · cases hb
    · exact h.harmless j b hb

theorem Sound.queued (h : r.Sound) {i : ℕ} {d : IPv4Datagram} (hd : d ∈ r.queue i) :
    Forwardable r.ruleList d := by
  obtain ⟨a, ha, hqueued⟩ := exists_of_mem_queue hd
  exact (h.harmless i a ha).queued d hqueued

/-- What is left when a loop of `route` ends. -/
structure Routed (r : Router) (done : ℕ → Prop) (r' : Router) : Prop where
  sound : r'.Sound
  length : r'.interfaces.length = r.interfaces.length
  emptied : ∀ j, done j → r'.queue j = []

/-- What is pending after a datagram was forwarded can be serialised. -/
theorem Forwards.pending {rules : List RouteRule} {d : IPv4Datagram} {s t : List NetworkInterface}
    (h : Forwards rules d s t) (forwardable : Forwardable rules d)
    (before : ∀ ni ∈ s, ∀ e ∈ ni.pendingList, e.1.Serializable) :
    ∀ ni ∈ t, ∀ e ∈ ni.pendingList, e.1.Serializable := by
  cases h with
  | unrouted => exact before
  | expired => exact before
  | @sent rule ni ni' chosen alive here sends =>
      have aged := (forwardable.serializable alive chosen).aged (d.header.ttl - 1)
      rw [ni.sendDatagram_returns aged] at sends
      obtain rfl := Except.ok.inj sends
      intro other hother e he
      rcases List.mem_or_eq_of_mem_set hother with old | rfl
      · exact before other old e he
      · obtain ⟨_, moved⟩ := ni.moves_send aged (rule.nextHop.getD { ipv4Numeric := d.header.dst })
        rcases List.mem_append.mp (moved.pending.subset he) with hold | hnew
        · exact before ni (List.mem_of_getElem? here) e hold
        · rw [List.mem_singleton.mp hnew]
          exact aged

/-- By induction over the datagrams. -/
theorem ForwardsAll.pending {rules : List RouteRule} {ds : List IPv4Datagram}
    {s t : List NetworkInterface} (h : ForwardsAll rules ds s t)
    (forwardable : ∀ d ∈ ds, Forwardable rules d)
    (before : ∀ ni ∈ s, ∀ e ∈ ni.pendingList, e.1.Serializable) :
    ∀ ni ∈ t, ∀ e ∈ ni.pendingList, e.1.Serializable := by
  induction h with
  | nil => exact before
  | @cons d rest _ _ _ first _ ih =>
      apply ih
      · intro d hd
        exact forwardable d (List.mem_cons_of_mem _ hd)
      · exact first.pending (forwardable d List.mem_cons_self) before

/-- **`route` empties every queue.**  It returns, and so no datagram that has arrived can keep the
router from the next one. -/
theorem Sound.route (h : r.Sound) :
    ∃ r', r.route = .ok r' ∧ Routed r (· < r.interfaces.length) r' := by
  obtain ⟨r', done, forwarded⟩ := route_forwards h.rules fun i d hd => h.queued hd
  have hlength := forwarded.length_interfaces
  have queued : ∀ d ∈ (List.range r.interfaces.length).flatMap r.queue,
      Forwardable r.ruleList d := by
    intro d hd
    obtain ⟨i, -, hqueued⟩ := List.mem_flatMap.mp hd
    exact h.queued hqueued
  have pending := forwarded.forwards.pending queued fun ni hni => by
    obtain ⟨a, ha, rfl⟩ := List.mem_map.mp hni
    obtain ⟨i, hi⟩ := List.getElem?_of_mem ha
    exact (h.harmless i a hi).pending
  have sound : r'.Sound := by
    refine ⟨Valid.of_forwards h.rules forwarded.rules forwarded.length, ?_⟩
    intro i a ha
    refine ⟨pending _ (List.mem_map_of_mem (List.mem_of_getElem? ha)), ?_⟩
    obtain ⟨hi, -⟩ := List.getElem?_eq_some_iff.mp ha
    have empty := forwarded.emptied i (hlength ▸ hi)
    rw [queue_of_getElem? ha] at empty
    intro d hd
    rw [empty] at hd
    cases hd
  exact ⟨r', done, sound, hlength, forwarded.emptied⟩

/-- **A frame arrives** at an interface. -/
theorem Sound.recvFrame (h : r.Sound) {i : ℕ} {header : EthernetHeader} {bytes : List UInt8}
    (routable : r.Routable (.recvFrame i header bytes)) :
    ∃ r', r.step (.recvFrame i header bytes) = .ok r' ∧ r'.Sound := by
  obtain ⟨a, here, bad⟩ := routable
  have ha : r.interfaces[i]? = some a := here
  have harmless := h.harmless i a ha
  have hpayload : (⟨header, [bytes]⟩ : EthernetFrame).payload = [bytes] := rfl
  obtain ⟨out, received, hout⟩ :=
    NetworkInterface.recvFrame_returns hpayload harmless.pending
  obtain ⟨_, moved⟩ := NetworkInterface.moves_recv harmless.pending ⟨header, [bytes]⟩
  have hstep : r.step (.recvFrame i header bytes) = .ok (r.replace i
      { toNetworkInterface := a.toNetworkInterface.afterRecv ⟨header, [bytes]⟩
        datagramsOut := a.datagramsOut ++ out.toList }) := by
    simp only [Router.step, ha, AsyncNetworkInterface.recvFrame, received, bind, Except.bind]
  refine ⟨_, hstep, h.replace ⟨fun e he => ?_, fun d hd => ?_⟩⟩
  · have hold := moved.pending.subset he
    rw [NetworkInterface.submits, List.append_nil] at hold
    exact harmless.pending e hold
  · rcases List.mem_append.mp hd with hold | hnew
    · exact harmless.queued d hold
    · obtain ⟨mine, isIPv4, parsed⟩ := hout d (Option.mem_toList.mp hnew)
      by_cases unserializable : IPv4Datagram.Unserializable bytes
      · have dropped := bad mine isIPv4 unserializable
        rw [parsed] at dropped
        exact Or.inl dropped
      · exact Or.inr (IPv4Datagram.serializable_of_parse parsed unserializable)

/-- Every routable call succeeds and leaves the router sound. -/
theorem Sound.step (h : r.Sound) {op : Op} (routable : r.Routable op) :
    ∃ r', r.step op = .ok r' ∧ r'.Sound := by
  cases op with
  | recvFrame i header bytes => exact h.recvFrame routable
  | route =>
      obtain ⟨r', done, routed⟩ := h.route
      exact ⟨r', done, routed.sound⟩
  | tick i ms =>
      obtain ⟨a, ha⟩ : ∃ a, r.interfaces[i]? = some a := ⟨_, List.getElem?_eq_getElem routable⟩
      have harmless := h.harmless i a ha
      have hstep : r.step (.tick i ms) = .ok (r.replace i
          { a with toNetworkInterface := a.toNetworkInterface.tick ms }) := by
        simp only [Router.step, ha]
      exact ⟨_, hstep, h.replace ⟨harmless.pending, harmless.queued⟩⟩

end Sound

/-- A router of unused interfaces, with rules that can be applied. -/
theorem sound_start {addresses : List (EthernetAddress × Address)} {rules : List RouteRule}
    (valid : ∀ rule ∈ rules,
      rule.prefixLength.toNat ≤ 32 ∧ rule.interfaceNum < addresses.length) :
    (start addresses rules).Sound := by
  refine ⟨fun rule hrule => ?_, fun i a ha => ?_⟩
  · rw [start, List.length_map]
    exact valid rule hrule
  · rw [start, List.getElem?_map] at ha
    obtain ⟨address, -, rfl⟩ := Option.map_eq_some_iff.mp ha
    exact ⟨fun e he => (nomatch he), fun d hd => (nomatch hd)⟩

/-- **The router survives its traffic.**  Whatever frames arrive at the interfaces, between
calls of `route` and `tick`, as long as no IPv4 payload is accepted that cannot be serialised
again but has to be: no call throws, and `route` leaves every queue empty. -/
theorem survives {addresses : List (EthernetAddress × Address)} {rules : List RouteRule}
    (valid : ∀ rule ∈ rules,
      rule.prefixLength.toNat ≤ 32 ∧ rule.interfaceNum < addresses.length)
    {r : Router} (run : GuardedRun step Routable (start addresses rules) r) :
    (∀ op, r.Routable op → ∃ r', r.step op = .ok r') ∧
      ∃ r', r.route = .ok r' ∧ ∀ a ∈ r'.interfaces, a.datagramsOut = [] := by
  have sound : r.Sound := by
    refine run.invariant Sound (sound_start valid) ?_
    intro r op r' h routable stepped
    obtain ⟨r'', stepped', h'⟩ := h.step routable
    rw [stepped] at stepped'
    exact Except.ok.inj stepped' ▸ h'
  refine ⟨fun op routable => (sound.step routable).imp fun _ h => h.1, ?_⟩
  obtain ⟨r', done, routed⟩ := sound.route
  refine ⟨r', done, fun a ha => ?_⟩
  obtain ⟨j, hj, here⟩ := List.getElem_of_mem ha
  have empty := routed.emptied j (routed.length ▸ hj)
  rwa [queue_of_getElem? (List.getElem?_eq_some_iff.mpr ⟨hj, here⟩)] at empty

/-- The host as a router with one interface and a default route to the attached network. -/
def gateway : Router :=
  start [(NetworkInterface.host.ethernetAddress, NetworkInterface.host.ipAddress)] [{}]

/-- What an ARP reply of the neighbour says. -/
def whereabouts : ARPMessage :=
  NetworkInterface.neighbour.arpReply (NetworkInterface.host.arpRequest 0x0a000002)

/-- The neighbour tells the router where it is. -/
def announcement : Op :=
  .recvFrame 0 (NetworkInterface.neighbour.replyFrame NetworkInterface.host).header
    whereabouts.bytes

/-- A datagram arrives at the router. -/
def arrival (bytes : List UInt8) : Op :=
  .recvFrame 0
    { dst := NetworkInterface.host.ethernetAddress
      src := NetworkInterface.stranger.ethernetAddress
      type := EthernetHeader.typeIPv4 }
    bytes

/-- The header of an empty datagram from 10.0.0.3 to 10.0.0.2, of some version. -/
def emptyDatagram (version : UInt8) : List UInt8 :=
  [version <<< 4 ||| 5, 0, 0, 20, 0, 0, 0x40, 0, 128, 6, 0, 0, 10, 0, 0, 3, 10, 0, 0, 2]

/-- A datagram that waits for the announcement, and one that does not. -/
theorem survives_twoDatagrams :
    ∃ r, execute step gateway [arrival (emptyDatagram 4), .route, announcement,
        arrival (emptyDatagram 4)] = .ok r ∧
      r.queue 0 ≠ [] ∧ ∃ r', r.route = .ok r' ∧ ∀ a ∈ r'.interfaces, a.datagramsOut = [] := by
  obtain ⟨r, done, admitted, queued⟩ : ∃ r,
      execute step gateway [arrival (emptyDatagram 4), .route, announcement,
        arrival (emptyDatagram 4)] = .ok r ∧
      Admitted step Routable gateway [arrival (emptyDatagram 4), .route, announcement,
        arrival (emptyDatagram 4)] ∧ r.queue 0 ≠ [] :=
    EndsIn.exists_ok (by decide +kernel)
  have valid : ∀ rule ∈ [({} : RouteRule)], rule.prefixLength.toNat ≤ 32 ∧
      rule.interfaceNum < 1 := by decide
  exact ⟨r, done, queued, (survives valid (GuardedRun.of_execute admitted done)).2⟩

/-- **A datagram of another version** is accepted, and throws when it is serialised: out of
`route` if the next hop is known, and out of `recv_frame` when it becomes known. -/
theorem route_throws :
    (∃ r, execute step gateway [announcement, arrival (emptyDatagram 6)] = .ok r ∧
      r.step .route = .error (.wire .wrongIPVersion)) ∧
    ∃ r, execute step gateway [arrival (emptyDatagram 6), .route] = .ok r ∧
      r.step announcement = .error (.wire .wrongIPVersion) := by
  constructor
  · obtain ⟨r, done, thrown⟩ : ∃ r,
        execute step gateway [announcement, arrival (emptyDatagram 6)] = .ok r ∧
        FailsWith (r.step .route) (.wire .wrongIPVersion) :=
      EndsIn.exists_ok (by decide +kernel)
    exact ⟨r, done, thrown.eq_error⟩
  · obtain ⟨r, done, thrown⟩ : ∃ r,
        execute step gateway [arrival (emptyDatagram 6), .route] = .ok r ∧
        FailsWith (r.step announcement) (.wire .wrongIPVersion) :=
      EndsIn.exists_ok (by decide +kernel)
    exact ⟨r, done, thrown.eq_error⟩

end Router

end Sponge
