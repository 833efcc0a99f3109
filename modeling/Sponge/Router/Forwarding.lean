import Mathlib.Data.List.Basic
import Sponge.Library.LastMax
import Sponge.Router

/-!
# What a router does with its datagrams

`route` is compared with a description that has no loops.  A rule **matches** a destination
if their top bits agree; the rule **chosen** is the last maximum of the rules that match,
by the length of their prefix; and a datagram is **forwarded** by one `send_datagram` on the
interface of the rule chosen, or dropped.

* `longestMatch_found` — the loop over the rules finds the rule chosen.
* `longest_prefix_forwarding` — `route` empties the queues and forwards every datagram in
  them, one after the other; and the rule chosen does not depend on the order of rules with
  different lengths.

### The rule is a last maximum

The loop keeps a candidate and replaces it by every rule that matches and is at least as
long.  Read as a whole, that picks the longest match and among equals the last one added.
`LastMax` of the library says it without a loop, and gives two facts for nothing: there is
only one such rule, and rules of different lengths may be added in any order.

### One datagram after the other

The datagrams are not forwarded independently.  The first to a next hop makes the interface
ask for its address and block further requests, so what the second does depends on the
first.  That is why `ForwardsAll` threads the interfaces through the list, in the order in
which the queues are emptied.

### What has to be serialisable

Only what is sent on.  A datagram without a rule, or with no hop left, is dropped before
anything is serialised (`Forwardable`).
-/

namespace Sponge

open Maxima

/-- The top `prefixLength` bits of the rule's prefix are those of the target. -/
def RouteRule.Matches (rule : RouteRule) (target : UInt32) : Prop :=
  target.toNat >>> (32 - rule.prefixLength.toNat)
    = rule.routePrefix.toNat >>> (32 - rule.prefixLength.toNat)

instance (rule : RouteRule) (target : UInt32) : Decidable (rule.Matches target) :=
  inferInstanceAs (Decidable (_ = _))

/-- The test of the source, where a length of 0 is a case of its own. -/
theorem RouteRule.matchesTarget_eq {rule : RouteRule} (valid : rule.prefixLength.toNat ≤ 32)
    (target : UInt32) : rule.matchesTarget target = .ok (decide (rule.Matches target)) := by
  unfold RouteRule.matchesTarget
  split
  · next zero =>
    -- all 32 bits are shifted out on both sides
    have matched : rule.Matches target := by
      rw [RouteRule.Matches, zero]
      show target.toNat >>> 32 = rule.routePrefix.toNat >>> 32
      rw [Nat.shiftRight_eq_div_pow, Nat.shiftRight_eq_div_pow,
        Nat.div_eq_of_lt target.toNat_lt, Nat.div_eq_of_lt rule.routePrefix.toNat_lt]
    rw [decide_eq_true matched]
  · rw [if_neg (Nat.not_lt.mpr valid), UInt32.toNat_xor, Nat.shiftRight_xor_distrib]
    congr 1
    rw [Bool.eq_iff_iff, beq_iff_eq, Nat.xor_eq_zero_iff, decide_eq_true_iff]
    rfl

namespace Router

/-! ## The choice of a rule -/

/-- **The rule for a target**: of the rules that match it the one with the longest prefix, and of
those the one added last.  It is stated without the loop of the source, and determines the rule.
-/
def Chosen (rules : List RouteRule) (target : UInt32) (rule : RouteRule) : Prop :=
  LastMax (fun rule => rule.prefixLength.toNat) (rules.filter fun rule => rule.Matches target) rule

/-- What has been found among the rules that match. -/
def Found (matching : List RouteRule) : Option RouteRule → Prop
  | none => matching = []
  | some rule => LastMax (fun rule => rule.prefixLength.toNat) matching rule

/-- The length that the loop has to beat. -/
def longestOf (candidate : Option RouteRule) : UInt8 :=
  (candidate.map RouteRule.prefixLength).getD 0

section Found

variable {matching : List RouteRule} {candidate : Option RouteRule} {rule : RouteRule}

/-- A rule that is at least as long takes the candidate's place. -/
theorem Found.replaced (h : Found matching candidate)
    (longer : longestOf candidate ≤ rule.prefixLength) : Found (matching ++ [rule]) (some rule) := by
  cases candidate with
  | none =>
      obtain rfl : matching = [] := h
      apply lastMax_snoc
      intro y hy
      cases hy
  | some best => exact LastMax.snoc_of_le h (UInt8.le_iff_toNat_le.mp longer)

/-- A shorter rule does not. -/
theorem Found.retained (h : Found matching candidate)
    (shorter : ¬longestOf candidate ≤ rule.prefixLength) : Found (matching ++ [rule]) candidate := by
  cases candidate with
  | none => exact absurd (UInt8.le_iff_toNat_le.mpr (Nat.zero_le _)) shorter
  | some best =>
      apply LastMax.snoc_of_lt h
      exact Nat.lt_of_not_le fun le => shorter (UInt8.le_iff_toNat_le.mpr le)

end Found

/-- The loop over the rules, when some have been seen. -/
theorem longestMatch_of_seen {target : UInt32} {rules : List RouteRule}
    (valid : ∀ rule ∈ rules, rule.prefixLength.toNat ≤ 32) (seen : List RouteRule)
    (candidate : Option RouteRule)
    (found : Found (seen.filter fun rule => rule.Matches target) candidate) :
    ∃ out, longestMatch target rules (longestOf candidate) candidate = .ok out ∧
      Found ((seen ++ rules).filter fun rule => rule.Matches target) out := by
  induction rules generalizing seen candidate with
  | nil =>
      refine ⟨candidate, rfl, ?_⟩
      rw [List.append_nil]
      exact found
  | cons rule rest ih =>
      have later := ih fun rule h => valid rule (List.mem_cons_of_mem _ h)
      have regroup : seen ++ rule :: rest = seen ++ [rule] ++ rest := by simp
      rw [regroup]
      simp only [longestMatch, RouteRule.matchesTarget_eq (valid rule List.mem_cons_self), bind,
        Except.bind, decide_eq_true_iff]
      by_cases matched : rule.Matches target
      · have hseen : (seen ++ [rule]).filter (fun rule => rule.Matches target)
            = seen.filter (fun rule => rule.Matches target) ++ [rule] := by
          rw [List.filter_append, List.filter_cons_of_pos (by simpa using matched),
            List.filter_nil]
        -- the test is not strict, so of two equally long matches the later one is kept
        by_cases longer : longestOf candidate ≤ rule.prefixLength
        · rw [if_pos ⟨matched, longer⟩]
          apply later (seen ++ [rule]) (some rule)
          rw [hseen]
          exact found.replaced longer
        · rw [if_neg fun both => longer both.2]
          apply later (seen ++ [rule]) candidate
          rw [hseen]
          exact found.retained longer
      · rw [if_neg fun both => matched both.1]
        apply later (seen ++ [rule]) candidate
        rw [List.filter_append, List.filter_cons_of_neg (by simpa using matched), List.filter_nil,
          List.append_nil]
        exact found

/-- **The loop over the rules** finds the rule chosen, or none if no rule matches. -/
theorem longestMatch_found {rules : List RouteRule}
    (valid : ∀ rule ∈ rules, rule.prefixLength.toNat ≤ 32) (target : UInt32) :
    ∃ out, longestMatch target rules 0 none = .ok out ∧
      Found (rules.filter fun rule => rule.Matches target) out :=
  longestMatch_of_seen valid [] none rfl

/-- There is only one rule chosen, in whatever order rules of different lengths stand. -/
theorem Chosen.eq_of_reordered {rules rules' : List RouteRule} {target : UInt32}
    {rule rule' : RouteRule} (h : Chosen rules target rule) (h' : Chosen rules' target rule')
    (same : ∀ length, (rules.filter fun rule => rule.prefixLength = length)
      = rules'.filter fun rule => rule.prefixLength = length) : rule = rule' := by
  refine LastMax.eq_of_filter_eq h h' ?_
  intro k
  -- the rules of one length that match are those that match of the rules of this length
  have swap : ∀ l : List RouteRule,
      ((l.filter fun rule => rule.Matches target).filter fun rule => rule.prefixLength.toNat = k)
        = (l.filter fun rule => rule.prefixLength = UInt8.ofNat k).filter fun rule =>
            rule.Matches target ∧ rule.prefixLength.toNat = k := by
    intro l
    rw [List.filter_filter, List.filter_filter]
    apply List.filter_congr
    intro rule _
    by_cases hk : rule.prefixLength.toNat = k
    · subst hk
      simp
    · simp [hk]
  rw [swap, swap, same]

/-- The choice of the loop does not depend on the order of rules of different lengths. -/
theorem longestMatch_reordered {rules rules' : List RouteRule}
    (valid : ∀ rule ∈ rules, rule.prefixLength.toNat ≤ 32)
    (same : ∀ length, (rules.filter fun rule => rule.prefixLength = length)
      = rules'.filter fun rule => rule.prefixLength = length) (target : UInt32) :
    longestMatch target rules' 0 none = longestMatch target rules 0 none := by
  have mem : ∀ rule, rule ∈ rules ↔ rule ∈ rules' := by
    intro rule
    have hrule := congrArg (rule ∈ ·) (same rule.prefixLength)
    simpa using hrule
  obtain ⟨out, done, found⟩ := longestMatch_found valid target
  obtain ⟨out', done', found'⟩ :=
    longestMatch_found (fun rule h => valid rule ((mem rule).mpr h)) target
  rw [done, done']
  cases out with
  | none =>
      cases out' with
      | none => rfl
      | some rule' =>
          obtain ⟨hrule, hmatches⟩ := List.mem_filter.mp (LastMax.mem found')
          have none := List.filter_eq_nil_iff.mp found rule' ((mem rule').mpr hrule)
          exact absurd hmatches none
  | some rule =>
      cases out' with
      | none =>
          obtain ⟨hrule, hmatches⟩ := List.mem_filter.mp (LastMax.mem found)
          have none := List.filter_eq_nil_iff.mp found' rule ((mem rule).mp hrule)
          exact absurd hmatches none
      | some rule' => rw [Chosen.eq_of_reordered found found' same]

/-! ## Forwarding -/

/-- The router drops the datagram: it has come to the end of its life, or no rule matches. -/
def Dropped (rules : List RouteRule) (d : IPv4Datagram) : Prop :=
  d.header.ttl ≤ 1 ∨ ∀ rule ∈ rules, ¬rule.Matches d.header.dst

instance (rules : List RouteRule) (d : IPv4Datagram) : Decidable (Dropped rules d) :=
  inferInstanceAs (Decidable (_ ∨ ∀ rule ∈ rules, _))

/-- The router can do what it has to with the datagram.  Only what is sent on is serialised. -/
def Forwardable (rules : List RouteRule) (d : IPv4Datagram) : Prop :=
  Dropped rules d ∨ d.Serializable

/-- A datagram that lives on and has a rule can be serialised. -/
theorem Forwardable.serializable {rules : List RouteRule} {d : IPv4Datagram}
    (h : Forwardable rules d) (alive : 1 < d.header.ttl) {rule : RouteRule}
    (chosen : Chosen rules d.header.dst rule) : d.Serializable := by
  obtain ⟨listed, matched⟩ := List.mem_filter.mp (LastMax.mem chosen)
  refine h.resolve_left ?_
  rintro (dead | unmatched)
  · exact absurd alive (UInt8.not_lt.mpr dead)
  · exact unmatched rule listed (of_decide_eq_true matched)

/-- **What becomes of one datagram**: nothing, or one `send_datagram` on the interface of the rule
chosen, of the datagram with one hop less to live.  The queues are left out, so that this can be
iterated over the datagrams of all of them. -/
inductive Forwards (rules : List RouteRule) (d : IPv4Datagram) (before : List NetworkInterface) :
    List NetworkInterface → Prop
  | unrouted (unmatched : ∀ rule ∈ rules, ¬rule.Matches d.header.dst) :
      Forwards rules d before before
  | expired (dead : d.header.ttl ≤ 1) : Forwards rules d before before
  | sent {rule : RouteRule} {ni ni' : NetworkInterface} (chosen : Chosen rules d.header.dst rule)
      (alive : 1 < d.header.ttl) (here : before[rule.interfaceNum]? = some ni)
      (sends : ni.sendDatagram { d with header := { d.header with ttl := d.header.ttl - 1 } }
        (rule.nextHop.getD { ipv4Numeric := d.header.dst }) = .ok ni') :
      Forwards rules d before (before.set rule.interfaceNum ni')

/-- The datagrams are forwarded one after the other. -/
inductive ForwardsAll (rules : List RouteRule) :
    List IPv4Datagram → List NetworkInterface → List NetworkInterface → Prop
  | nil {s : List NetworkInterface} : ForwardsAll rules [] s s
  | cons {d : IPv4Datagram} {rest : List IPv4Datagram} {s t u : List NetworkInterface}
      (first : Forwards rules d s t) (others : ForwardsAll rules rest t u) :
      ForwardsAll rules (d :: rest) s u

section Forwards

variable {rules : List RouteRule} {d : IPv4Datagram} {s t u : List NetworkInterface}

/-- Forwarding changes an interface and removes none. -/
theorem Forwards.length (h : Forwards rules d s t) : t.length = s.length := by
  cases h with
  | unrouted => rfl
  | expired => rfl
  | sent => exact List.length_set

/-- First some datagrams, then others. -/
theorem ForwardsAll.append {first second : List IPv4Datagram} (h : ForwardsAll rules first s t)
    (h' : ForwardsAll rules second t u) : ForwardsAll rules (first ++ second) s u := by
  induction h with
  | nil => exact h'
  | cons step _ ih => exact ForwardsAll.cons step (ih h')

end Forwards

/-- The interfaces without their queues. -/
def plain (r : Router) : List NetworkInterface :=
  r.interfaces.map AsyncNetworkInterface.toNetworkInterface

/-- The rules can be applied: no shift is by a negative number, and every interface exists. -/
def Valid (r : Router) : Prop :=
  ∀ rule ∈ r.ruleList, rule.prefixLength.toNat ≤ 32 ∧ rule.interfaceNum < r.interfaces.length

section Route

variable {r : Router}

theorem length_plain (r : Router) : r.plain.length = r.interfaces.length := List.length_map _

/-- Sending a datagram that can be serialised, on an interface that exists. -/
theorem sendVia_returns {n : ℕ} (hn : n < r.interfaces.length) {d : IPv4Datagram}
    (serializable : d.Serializable) (hop : Address) :
    ∃ ni r', r.plain[n]? = some ni ∧ r.sendVia n d hop = .ok r' ∧ r'.ruleList = r.ruleList ∧
      ni.sendDatagram d hop = .ok (ni.afterSend d hop) ∧
      r'.plain = r.plain.set n (ni.afterSend d hop) := by
  obtain ⟨a, ha⟩ : ∃ a, r.interfaces[n]? = some a := ⟨_, List.getElem?_eq_getElem hn⟩
  have sent := a.toNetworkInterface.sendDatagram_returns serializable hop
  refine ⟨a.toNetworkInterface,
    r.replace n { a with toNetworkInterface := a.toNetworkInterface.afterSend d hop },
    ?_, ?_, rfl, sent, ?_⟩
  · rw [plain, List.getElem?_map, ha]
    rfl
  · rw [sendVia, ha]
    simp only [sent]
  · rw [plain, plain, replace, List.map_set]

/-- **Routing one datagram.**  Two things are asked for: that the rules can be applied, and that
the datagram can be serialised if it is to be sent. -/
theorem routeOneDatagram_forwards (valid : r.Valid) {d : IPv4Datagram}
    (forwardable : Forwardable r.ruleList d) :
    ∃ r', r.routeOneDatagram d = .ok r' ∧ r'.ruleList = r.ruleList ∧
      Forwards r.ruleList d r.plain r'.plain := by
  obtain ⟨out, hout, found⟩ :=
    longestMatch_found (fun rule hrule => (valid rule hrule).1) d.header.dst
  unfold routeOneDatagram
  simp only [hout, bind, Except.bind]
  cases out with
  | none =>
      refine ⟨r, rfl, rfl, Forwards.unrouted ?_⟩
      intro rule hrule matched
      exact List.filter_eq_nil_iff.mp found rule hrule (decide_eq_true matched)
  | some rule =>
      simp only
      split
      · next zero => exact ⟨r, rfl, rfl, Forwards.expired (by grind)⟩
      next nonzero =>
      split
      · next zero => exact ⟨r, rfl, rfl, Forwards.expired (by grind)⟩
      next notOne =>
      have alive : 1 < d.header.ttl := by grind
      have hrule : rule ∈ r.ruleList := (List.mem_filter.mp (LastMax.mem found)).1
      obtain ⟨ni, r', here, done, hrules, sends, hplain⟩ :=
        sendVia_returns (valid rule hrule).2
          ((forwardable.serializable alive found).aged (d.header.ttl - 1))
          (rule.nextHop.getD { ipv4Numeric := d.header.dst })
      refine ⟨r', ?_, hrules, ?_⟩
      · cases hop : rule.nextHop with
        | none =>
            rw [hop] at done
            exact done
        | some hop' =>
            rw [hop] at done
            exact done
      · rw [hplain]
        exact Forwards.sent found alive here sends

/-- Popping leaves the interfaces alone, but for their queues. -/
theorem plain_pop (r : Router) (i : ℕ) : (r.pop i).plain = r.plain := by
  unfold plain pop
  apply List.ext_getElem?
  intro j
  rw [List.getElem?_map, List.getElem?_map, List.getElem?_modify]
  cases r.interfaces[j]? with
  | none => rfl
  | some a =>
      split
      · rfl
      · rfl

/-- Rules that can be applied can still be applied. -/
theorem Valid.of_forwards {r' : Router} (valid : r.Valid) (hrules : r'.ruleList = r.ruleList)
    (hlength : r'.plain.length = r.plain.length) : r'.Valid := by
  rw [length_plain, length_plain] at hlength
  unfold Valid
  rw [hrules, hlength]
  exact valid

/-- What is left when a loop of `route` has forwarded some datagrams.  `done` says which queues
the loop has been through: one for the inner loop, all of them for the outer. -/
structure Forwarded (r : Router) (ds : List IPv4Datagram) (done : ℕ → Prop) (r' : Router) :
    Prop where
  rules : r'.ruleList = r.ruleList
  length : r'.plain.length = r.plain.length
  forwards : ForwardsAll r.ruleList ds r.plain r'.plain
  emptied : ∀ j, done j → r'.queue j = []
  kept : ∀ j, ¬done j → r'.queue j = r.queue j

theorem Forwarded.length_interfaces {ds : List IPv4Datagram} {done : ℕ → Prop} {r' : Router}
    (h : Forwarded r ds done r') : r'.interfaces.length = r.interfaces.length := by
  rw [← length_plain, ← length_plain]
  exact h.length

/-- **The loop over one queue.**  Routing adds nothing to any queue of a router, so the datagrams
that the loop takes are those it began with. -/
theorem routeQueue_forwards (i : ℕ) (valid : r.Valid)
    (forwardable : ∀ d ∈ r.queue i, Forwardable r.ruleList d) :
    ∃ r', r.routeQueue i = .ok r' ∧ Forwarded r (r.queue i) (· = i) r' := by
  induction queued : r.queue i generalizing r with
  | nil =>
      refine ⟨r, routeQueue_of_empty queued, rfl, rfl, ForwardsAll.nil, ?_, fun _ _ => rfl⟩
      rintro j rfl
      exact queued
  | cons d rest ih =>
      obtain ⟨r₁, routed, hrules, first⟩ :=
        routeOneDatagram_forwards valid (forwardable d (queued ▸ List.mem_cons_self))
      have popped : (r₁.pop i).queue i = rest := by
        rw [queue_pop, if_pos rfl, queue_routeOneDatagram routed, queued]
        rfl
      have hlength : (r₁.pop i).plain.length = r.plain.length := by
        rw [plain_pop]
        exact first.length
      have hpopped : (r₁.pop i).ruleList = r.ruleList := hrules
      obtain ⟨r', done, others⟩ := ih (valid.of_forwards hpopped hlength)
        (fun d hd => hpopped ▸ forwardable d (queued ▸ List.mem_cons_of_mem _ (popped ▸ hd)))
        popped
      refine ⟨r', (routeQueue_of_routed queued routed).trans done, others.rules.trans hpopped,
        others.length.trans hlength, ?_, others.emptied, ?_⟩
      · have forwards := others.forwards
        rw [plain_pop, hpopped] at forwards
        exact ForwardsAll.cons first forwards
      · intro j hj
        rw [others.kept j hj, queue_pop, if_neg (Ne.symm hj), queue_routeOneDatagram routed]

/-- **`route`** forwards what is in the queues, interface by interface. -/
theorem route_forwards (valid : r.Valid)
    (forwardable : ∀ i, ∀ d ∈ r.queue i, Forwardable r.ruleList d) :
    ∃ r', r.route = .ok r' ∧ Forwarded r ((List.range r.interfaces.length).flatMap r.queue)
      (· < r.interfaces.length) r' := by
  -- after `k` interfaces their queues are empty, and what was in them is forwarded
  have loop : ∀ k, ∃ r', (List.range k).foldlM (fun r i => r.routeQueue i) r = .ok r' ∧
      Forwarded r ((List.range k).flatMap r.queue) (· < k) r' := by
    intro k
    induction k with
    | zero =>
        refine ⟨r, rfl, rfl, rfl, ForwardsAll.nil, ?_, fun _ _ => rfl⟩
        intro j hj
        exact absurd hj (Nat.not_lt_zero j)
    | succ k ih =>
        obtain ⟨r₁, done, before⟩ := ih
        have hqueue : r₁.queue k = r.queue k := before.kept k (Nat.lt_irrefl k)
        obtain ⟨r', done', here⟩ := routeQueue_forwards k
          (valid.of_forwards before.rules before.length)
          (before.rules ▸ hqueue ▸ forwardable k)
        refine ⟨r', ?_, here.rules.trans before.rules, here.length.trans before.length, ?_, ?_, ?_⟩
        · rw [List.range_succ, List.foldlM_append, done]
          simp only [bind, Except.bind, List.foldlM_cons, List.foldlM_nil, done', pure,
            Except.pure]
        · have forwards := here.forwards
          rw [before.rules, hqueue] at forwards
          rw [List.range_succ, List.flatMap_append, List.flatMap_singleton]
          exact before.forwards.append forwards
        · intro j hj
          by_cases last : j = k
          · exact here.emptied j last
          · rw [here.kept j last]
            exact before.emptied j (Nat.lt_of_le_of_ne (Nat.le_of_lt_succ hj) last)
        · intro j hj
          have past : k < j := Nat.lt_of_succ_le (Nat.not_lt.mp hj)
          rw [here.kept j (Nat.ne_of_gt past), before.kept j (Nat.lt_asymm past)]
  exact loop r.interfaces.length

end Route

/-- A router with these interfaces, after a call of `add_route` for each of the rules. -/
def built (interfaces : List AsyncNetworkInterface) (rules : List RouteRule) : Router :=
  rules.foldl (fun r rule =>
    r.addRoute rule.routePrefix rule.prefixLength rule.nextHop rule.interfaceNum)
    { interfaces := interfaces }

/-- The rules stand in the list in the order in which they were added. -/
theorem built_eq (interfaces : List AsyncNetworkInterface) (rules : List RouteRule) :
    built interfaces rules = { interfaces := interfaces, ruleList := rules } := by
  have added : ∀ (rules : List RouteRule) (r : Router), rules.foldl (fun r rule =>
      r.addRoute rule.routePrefix rule.prefixLength rule.nextHop rule.interfaceNum) r
        = { r with ruleList := r.ruleList ++ rules } := by
    intro rules
    induction rules with
    | nil => simp
    | cons rule rules ih =>
        intro r
        rw [List.foldl_cons, ih]
        simp [addRoute]
  exact added rules _

/-- The datagrams in the queues, interface by interface. -/
theorem flatMap_queue (r : Router) : (List.range r.interfaces.length).flatMap r.queue
    = r.interfaces.flatMap AsyncNetworkInterface.datagramsOut := by
  have queues : (List.range r.interfaces.length).map r.queue
      = r.interfaces.map AsyncNetworkInterface.datagramsOut := by
    apply List.ext_getElem?
    intro j
    rw [List.getElem?_map, List.getElem?_map]
    by_cases hj : j < r.interfaces.length
    · rw [List.getElem?_range hj, List.getElem?_eq_getElem hj]
      simp [queue, List.getElem?_eq_getElem hj]
    · have beyond := Nat.not_lt.mp hj
      rw [List.getElem?_eq_none beyond, List.getElem?_eq_none (by simpa using beyond)]
      rfl
  rw [List.flatMap_def, queues, ← List.flatMap_def]

/-- **Longest-prefix forwarding.**  A router with any interfaces, after calls of `add_route`
with prefixes of at most 32 bits and interfaces that exist, and with any datagrams in its
queues that can be serialised:

* `route` returns, with the same rules and every queue empty, and every datagram has been
  forwarded, one after the other;
* neither the rule that the loop finds nor the rule chosen depends on the order in which rules
  with different prefix lengths were added. -/
theorem longest_prefix_forwarding {interfaces : List AsyncNetworkInterface}
    {rules : List RouteRule}
    (valid : ∀ rule ∈ rules,
      rule.prefixLength.toNat ≤ 32 ∧ rule.interfaceNum < interfaces.length)
    (serializable : ∀ a ∈ interfaces, ∀ d ∈ a.datagramsOut, ∃ payload, d.serialize = .ok payload) :
    (∃ r', (built interfaces rules).route = .ok r' ∧ r'.ruleList = rules ∧
      (∀ a ∈ r'.interfaces, a.datagramsOut = []) ∧
      ForwardsAll rules (interfaces.flatMap AsyncNetworkInterface.datagramsOut)
        (built interfaces rules).plain r'.plain) ∧
    ∀ rules', (∀ length, (rules.filter fun rule => rule.prefixLength = length)
        = rules'.filter fun rule => rule.prefixLength = length) →
      ∀ target, longestMatch target rules' 0 none = longestMatch target rules 0 none ∧
        ∀ rule rule', Chosen rules target rule → Chosen rules' target rule' → rule = rule' := by
  constructor
  · rw [built_eq]
    have queued : ∀ i, ∀ d ∈ queue { interfaces := interfaces, ruleList := rules } i,
        Forwardable rules d := by
      intro i d hd
      obtain ⟨a, ha, hqueued⟩ := exists_of_mem_queue hd
      obtain ⟨payload, hpayload⟩ := serializable a (List.mem_of_getElem? ha) d hqueued
      exact Or.inr (IPv4Datagram.serializable_of_serialize hpayload)
    obtain ⟨r', done, forwarded⟩ :=
      route_forwards (r := { interfaces := interfaces, ruleList := rules }) valid queued
    refine ⟨r', done, forwarded.rules, ?_, ?_⟩
    · intro a ha
      obtain ⟨j, hj, here⟩ := List.getElem_of_mem ha
      have empty := forwarded.emptied j (forwarded.length_interfaces ▸ hj)
      rwa [queue_of_getElem? (List.getElem?_eq_some_iff.mpr ⟨hj, here⟩)] at empty
    · rw [← flatMap_queue { interfaces := interfaces, ruleList := rules }]
      exact forwarded.forwards
  · intro rules' same target
    refine ⟨longestMatch_reordered (fun rule hrule => (valid rule hrule).1) same target, ?_⟩
    intro rule rule' chosen chosen'
    exact chosen.eq_of_reordered chosen' same

/-- A network of its own, and the rest of the world by way of 10.0.0.3. -/
def table : List RouteRule :=
  [{ nextHop := some NetworkInterface.stranger.ipAddress },
    { routePrefix := 0x0a000000, prefixLength := 24, interfaceNum := 1 }]

/-- Two interfaces, the first with a datagram in its queue. -/
def doors : List AsyncNetworkInterface :=
  [{ toNetworkInterface := NetworkInterface.host, datagramsOut := [NetworkInterface.hello] },
    { toNetworkInterface := NetworkInterface.neighbour }]

theorem longest_prefix_forwarding_doors :
    ∃ r', (built doors table).route = .ok r' ∧
      ForwardsAll table [NetworkInterface.hello] (built doors table).plain r'.plain := by
  have valid : ∀ rule ∈ table, rule.prefixLength.toNat ≤ 32 ∧ rule.interfaceNum < doors.length := by
    decide
  have serializable : ∀ a ∈ doors, ∀ d ∈ a.datagramsOut, d.Serializable := by decide +kernel
  obtain ⟨⟨r', done, -, -, forwards⟩, -⟩ :=
    longest_prefix_forwarding valid fun a ha d hd => ⟨_, IPv4Datagram.serialize_eq (serializable a ha d hd)⟩
  exact ⟨r', done, forwards⟩

end Router

end Sponge
