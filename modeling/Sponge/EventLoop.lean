import Sponge.FileDescriptor.Shared

/-!
# The event loop

Embedding of `libsponge/util/eventloop.{hh,cc}`.

A rule is a descriptor, a direction and three functions on the state of the program that owns the
loop: a callback, an interest and what to do when the rule is cancelled.  A rule's descriptor is
shared with the program, so it is a function of that state too.  One call of `wait_next_event`
goes through the rules twice: before `poll`, to see what each is interested in, and after it, to
call those whose descriptor is ready.  What `poll` answers is up to the kernel.

Between the two, other rules may be called, so a rule can be called in a state it is no longer
interested in.  `Contract` names what a rule may still rely on then, and `wait_meets` is the one
induction over both loops.

The main result is `wait_meets`: what every callback and cancellation keeps is kept by a call, and
a call throws only what one of them throws, or what the loop itself throws.

### Rules as functions

In the source a rule's functions are closures that refer to variables of the program.  Here
these variables are the state `σ`, and the functions take it and give it back.  The rules
are in a list that the loop may shorten, so a call returns the rules that are left; that
they cannot be compared with each other is why results about rules name them by an index
(`contract : ι → Contract σ ε`).

### What a rule may rely on

A rule's interest is asked for before `poll`, and its callback is called after it, when
earlier rules may have been called already.  `ready` is what is true when the rule says it
is interested and still true when it is called.  For this the rules must not get in each
other's way, and `Apart` says what exactly: it is asked of every pair, in the order of the
list, because a rule can only be disturbed by what comes between the question and the call.
A rule that relies on nothing is apart from all that come before it (`Apart.of_modest`).

### Exceptions

An exception leaves `wait_next_event`, and usually ends the program.  So the results are not
of the form *no exception*, but say which exceptions are possible: `Meets` has a condition
on the exceptions beside the one on the result, and `bad` is chosen by who applies
`wait_meets`.
-/

namespace Sponge

namespace EventLoop

/-- `Direction`. -/
inductive Direction where
  | In
  | Out
  deriving Repr, DecidableEq

/-- `Result`. -/
inductive Result where
  | Success
  | Timeout
  | Exit
  deriving Repr, DecidableEq

/-- The exceptions that leave `wait_next_event`. -/
inductive LoopFault (ε : Type) where
  | polled
  | busyWait
  /-- Thrown by a callback. -/
  | thrown (fault : ε)
  deriving Repr, DecidableEq

/-- The texts of the loop's own exceptions. -/
def LoopFault.what {ε : Type} (what : ε → String) : LoopFault ε → String
  | .polled => "EventLoop: error on polled file descriptor"
  | .busyWait =>
      "EventLoop: busy wait detected: callback did not read/write fd and is still interested"
  | .thrown fault => what fault

/-- `Rule`, over the state `σ` of the program.  The closures of the source capture parts of the
program; here each is a function of all of it, and the descriptor is looked up in it as well. -/
structure Rule (σ ε : Type) where
  fd : σ → FDWrapper
  direction : Direction
  callback : σ → Except ε σ
  interest : σ → Bool := fun _ => true
  cancel : σ → Except ε σ := .ok

/-- `revents`, the bits the loop looks at. -/
structure Revents where
  pollin : Bool := false
  pollout : Bool := false
  pollerr : Bool := false
  pollhup : Bool := false
  pollnval : Bool := false
  deriving Repr, DecidableEq

/-- What `poll` comes back with. -/
inductive PollAnswer where
  /-- `SystemCall` throws a `unix_error`. -/
  | failed (errno : ℤ)
  | timeout
  | ready (revents : List Revents)
  deriving Repr, DecidableEq

/-- `EINTR`. -/
def eintr : ℤ := 4

variable {σ ε : Type}

/-- `service_count`. -/
def Rule.serviceCount (rule : Rule σ ε) (s : σ) : ℕ :=
  match rule.direction with
  | .In => (rule.fd s).readCount
  | .Out => (rule.fd s).writeCount

/-- `revents & events`; nothing is asked of a rule that is not interested. -/
def Revents.meets (revents : Revents) : Option Direction → Bool
  | some .In => revents.pollin
  | some .Out => revents.pollout
  | none => false

/-- The rule is to be erased: there is nothing more to read, or the descriptor is closed. -/
def Rule.defunct (rule : Rule σ ε) (s : σ) : Bool :=
  (rule.direction == .In && (rule.fd s).eof) || (rule.fd s).closed

/-- The first loop: the rules that are left, each with what is polled for it. -/
def setUp : List (Rule σ ε) → σ → Except (LoopFault ε) (List (Rule σ ε × Option Direction) × σ)
  | [], s => .ok ([], s)
  | rule :: rules, s =>
      if rule.defunct s then
        match rule.cancel s with
        | .error fault => .error (.thrown fault)
        | .ok s => setUp rules s
      else
        match setUp rules s with
        | .error fault => .error fault
        | .ok (polled, s') =>
            .ok ((rule, if rule.interest s then some rule.direction else none) :: polled, s')

/-- The callback of a rule that is ready, and the check for a busy wait. -/
def Rule.service (rule : Rule σ ε) (s : σ) : Except (LoopFault ε) σ :=
  match rule.callback s with
  | .error fault => .error (.thrown fault)
  | .ok s' =>
      if rule.serviceCount s = rule.serviceCount s' ∧ rule.interest s' = true then .error .busyWait
      else .ok s'

/-- The second loop: the rules that are left.  A rule whose descriptor has only been hung up is
erased. -/
def dispatch : List (Rule σ ε × Option Direction) → List Revents → σ →
    Except (LoopFault ε) (List (Rule σ ε) × σ)
  | [], _, s => .ok ([], s)
  | (rule, events) :: polled, revents, s =>
      let this := revents.headD {}
      if this.pollerr || this.pollnval then .error .polled
      else if this.pollhup && events.isSome && !this.meets events then
        match rule.cancel s with
        | .error fault => .error (.thrown fault)
        | .ok s => dispatch polled revents.tail s
      else
        match if this.meets events then rule.service s else .ok s with
        | .error fault => .error fault
        | .ok s =>
            match dispatch polled revents.tail s with
            | .error fault => .error fault
            | .ok (rules, s) => .ok (rule :: rules, s)

/-- `wait_next_event`: the result, the rules that are left and the state.  If `poll` fails for any
other reason than a signal, the loop goes on as if nothing were ready. -/
def waitNextEvent (rules : List (Rule σ ε)) (s : σ) (answer : PollAnswer) :
    Except (LoopFault ε) (Result × List (Rule σ ε) × σ) :=
  match setUp rules s with
  | .error fault => .error fault
  | .ok (polled, s) =>
      if polled.any (·.2.isSome) then
        match answer with
        | .timeout => .ok (.Timeout, polled.map (·.1), s)
        | .failed errno =>
            if errno = eintr then .ok (.Exit, polled.map (·.1), s)
            else (dispatch polled [] s).map fun left => (.Success, left)
        | .ready revents => (dispatch polled revents s).map fun left => (.Success, left)
      else .ok (.Exit, polled.map (·.1), s)

/-! ## What a call can rely on -/

/-- How a computation ends: with a value that satisfies `ok`, or with an exception that
satisfies `bad`. -/
def Meets {α φ : Type} (result : Except φ α) (ok : α → Prop) (bad : φ → Prop) : Prop :=
  match result with
  | .ok a => ok a
  | .error fault => bad fault

/-- The rule of consequence. -/
theorem Meets.imp {α φ : Type} {result : Except φ α} {ok ok' : α → Prop} {bad bad' : φ → Prop}
    (h : Meets result ok bad) (onOk : ∀ a, ok a → ok' a) (onBad : ∀ fault, bad fault → bad' fault) :
    Meets result ok' bad' := by
  cases result with
  | ok a => exact onOk a h
  | error fault => exact onBad fault h

/-- A computation ends in one way or in the other. -/
theorem Meets.cases {α φ : Type} {result : Except φ α} {ok : α → Prop} {bad : φ → Prop}
    (h : Meets result ok bad) :
    (∃ a, result = .ok a ∧ ok a) ∨ ∃ fault, result = .error fault ∧ bad fault := by
  cases result with
  | ok a => exact .inl ⟨a, rfl, h⟩
  | error fault => exact .inr ⟨fault, rfl, h⟩

/-- A rule, with what still holds when it is called although other rules came first, and with what
still holds at the end of the first loop if it was not interested. -/
structure Contract (σ ε : Type) where
  rule : Rule σ ε
  ready : σ → Prop := fun _ => True
  idle : σ → Prop := fun _ => True

/-- Nothing has been hung up. -/
def PollAnswer.NoHangup : PollAnswer → Prop
  | .ready revents => ∀ r ∈ revents, r.pollhup = false
  | .failed _ | .timeout => True

/-- A rule may be erased: it is defunct, or there was a hangup. -/
def Rule.Erasable (answer : PollAnswer) (rule : Rule σ ε) (s : σ) : Prop :=
  answer.NoHangup → rule.defunct s = true

/-- **The rule honours its contract** in the states that satisfy `P`: it keeps `P`, and throws
nothing but what is `bad`.  Its interest is asked for before any callback, when `first` still
holds. -/
structure Honoured (answer : PollAnswer) (P first : σ → Prop) (bad : LoopFault ε → Prop)
    (c : Contract σ ε) : Prop where
  interested : ∀ s, P s → first s → c.rule.defunct s = false → c.rule.interest s = true → c.ready s
  uninterested : ∀ s, P s → first s → c.rule.interest s = false → c.idle s
  cancel : ∀ s, P s → c.rule.Erasable answer s →
    Meets (c.rule.cancel s) P fun fault => bad (.thrown fault)
  callback : ∀ s, P s → c.ready s →
    Meets (c.rule.callback s)
      (fun s' => P s' ∧
        (c.rule.serviceCount s = c.rule.serviceCount s' → c.rule.interest s' = true →
          bad .busyWait))
      fun fault => bad (.thrown fault)

/-- The cancellation of a rule keeps `Q`. -/
def CancelKeeps (P : σ → Prop) (c : Contract σ ε) (Q : σ → Prop) : Prop :=
  ∀ s s', P s → Q s → c.rule.cancel s = .ok s' → Q s'

/-- The callback of a rule keeps `Q`. -/
def CallbackKeeps (P : σ → Prop) (c : Contract σ ε) (Q : σ → Prop) : Prop :=
  ∀ s s', P s → c.ready s → Q s → c.rule.callback s = .ok s' → Q s'

/-- The two rules, the first of which comes first, do not get in each other's way.  The conditions
are not symmetric: a callback of the first is followed by the second, and not the other way round.
-/
structure Apart (P : σ → Prop) (c c' : Contract σ ε) : Prop where
  later_ready : CancelKeeps P c' c.ready
  later_idle : CancelKeeps P c' c.idle
  earlier : CancelKeeps P c c'.ready
  called : ∀ s s', P s → c.ready s → c'.ready s → c.rule.callback s = .ok s' → c'.ready s'

/-- A rule that relies on nothing and whose cancellation does nothing gets in no other rule's
way. -/
theorem Apart.of_modest {P : σ → Prop} {c c' : Contract σ ε} (cancel : c'.rule.cancel = .ok)
    (ready : ∀ s, c'.ready s) : Apart P c c' where
  later_ready s s' _ h hcancel := by
    rw [cancel] at hcancel
    exact Except.ok.inj hcancel ▸ h
  later_idle s s' _ h hcancel := by
    rw [cancel] at hcancel
    exact Except.ok.inj hcancel ▸ h
  earlier _ s' _ _ _ := ready s'
  called _ s' _ _ _ _ := ready s'

/-- What is known of a rule once it is set up with the events to poll for. -/
def Known (s : σ) (c : Contract σ ε) (events : Option Direction) : Prop :=
  if events.isSome then c.ready s else c.idle s

section Waiting

variable {ι : Type} {contract : ι → Contract σ ε}

/-- The rules of the contracts, as the second loop has them. -/
def polledFor (contract : ι → Contract σ ε) (marked : List (ι × Option Direction)) :
    List (Rule σ ε × Option Direction) := marked.map fun m => ((contract m.1).rule, m.2)

/-- **`Q` outlives the rule `n`**: it holds when the rule is erased, and neither the cancellations of
`names` nor the callbacks of `calls` change it. -/
structure Outlives (answer : PollAnswer) (P : σ → Prop) (contract : ι → Contract σ ε)
    (names calls : List ι) (n : ι) (Q : σ → Prop) : Prop where
  erasable : ∀ s, P s → (contract n).rule.Erasable answer s → Q s
  cancel : ∀ m ∈ names, CancelKeeps P (contract m) Q
  callback : ∀ m ∈ calls, CallbackKeeps P (contract m) Q

/-- **What is known after a loop** over the rules `names` that began in the state `s₀` and called
none but `calls`: `P` is kept, and whatever else these rules keep; a rule is gone only if it was
erasable. -/
structure Swept (answer : PollAnswer) (P : σ → Prop) (contract : ι → Contract σ ε)
    (names calls : List ι) (s₀ : σ) (rules : List (Rule σ ε)) (s : σ) (left : List ι) : Prop where
  kept : P s
  stable : ∀ Q, (∀ n ∈ names, CancelKeeps P (contract n) Q) →
    (∀ n ∈ calls, CallbackKeeps P (contract n) Q) → Q s₀ → Q s
  sublist : left.Sublist names
  rules_eq : rules = left.map fun n => (contract n).rule
  stay : ∀ n ∈ names, ∀ Q, Outlives answer P contract names calls n Q → n ∈ left ∨ Q s

variable {answer : PollAnswer} {P first : σ → Prop} {bad : LoopFault ε → Prop}
variable {n : ι} {names calls calls' left left' : List ι} {rules rules' : List (Rule σ ε)}
variable {s s₁ s' : σ}

/-- Fewer rules disturb less. -/
theorem Outlives.mono {names' : List ι} {Q : σ → Prop}
    (h : Outlives answer P contract names calls n Q) (fewer : names' ⊆ names)
    (fewer' : calls' ⊆ calls) : Outlives answer P contract names' calls' n Q :=
  ⟨h.erasable, fun m hm => h.cancel m (fewer hm), fun m hm => h.callback m (fewer' hm)⟩

/-- There are no rules. -/
theorem swept_nil (h : P s) : Swept answer P contract [] calls s [] s [] where
  kept := h
  stable _ _ _ hQ := hQ
  sublist := .refl _
  rules_eq := rfl
  stay _ hn := absurd hn List.not_mem_nil

/-- The first rule is erased. -/
theorem Swept.cancelled (rest : Swept answer P contract names calls s₁ rules s' left)
    (fewer : calls ⊆ calls') (h : P s) (erasable : (contract n).rule.Erasable answer s)
    (cancelled : (contract n).rule.cancel s = .ok s₁) :
    Swept answer P contract (n :: names) calls' s rules s' left where
  kept := rest.kept
  stable Q cancel callback hQ := by
    obtain ⟨here, there⟩ := List.forall_mem_cons.mp cancel
    exact rest.stable Q there (fun m hm => callback m (fewer hm)) (here s s₁ h hQ cancelled)
  sublist := rest.sublist.cons n
  rules_eq := rest.rules_eq
  stay := by
    have later : ∀ {m Q}, Outlives answer P contract (n :: names) calls' m Q →
        Outlives answer P contract names calls m Q := fun outlives =>
      outlives.mono (List.subset_cons_self n names) fewer
    refine List.forall_mem_cons.mpr ⟨fun Q outlives => .inr ?_, fun m hm Q outlives =>
      rest.stay m hm Q (later outlives)⟩
    have here := outlives.cancel n List.mem_cons_self
    exact rest.stable Q (later outlives).cancel (later outlives).callback
      (here s s₁ h (outlives.erasable s h erasable) cancelled)

/-- The first rule stays in the list, and has been called or not. -/
theorem Swept.stays (rest : Swept answer P contract names calls s₁ rules s' left)
    (fewer : calls ⊆ calls')
    (keeps : ∀ Q, (∀ m ∈ calls', CallbackKeeps P (contract m) Q) → Q s → Q s₁) :
    Swept answer P contract (n :: names) calls' s ((contract n).rule :: rules) s' (n :: left) where
  kept := rest.kept
  stable Q cancel callback hQ :=
    rest.stable Q (List.forall_mem_cons.mp cancel).2 (fun m hm => callback m (fewer hm))
      (keeps Q callback hQ)
  sublist := rest.sublist.cons_cons n
  rules_eq := congrArg _ rest.rules_eq
  stay := by
    refine List.forall_mem_cons.mpr ⟨fun Q _ => .inl List.mem_cons_self, fun m hm Q outlives => ?_⟩
    have later := outlives.mono (List.subset_cons_self n names) fewer
    exact (rest.stay m hm Q later).imp_left (List.mem_cons_of_mem n)

/-- A loop over the rules that a first one has left. -/
theorem Swept.trans (before : Swept answer P contract names calls s rules s₁ left)
    (after : Swept answer P contract left calls' s₁ rules' s' left') (fewer : calls ⊆ names)
    (fewer' : calls' ⊆ names) : Swept answer P contract names names s rules' s' left' where
  kept := after.kept
  stable Q cancel callback hQ :=
    after.stable Q (fun m hm => cancel m (before.sublist.subset hm))
      (fun m hm => callback m (fewer' hm))
      (before.stable Q cancel (fun m hm => callback m (fewer hm)) hQ)
  sublist := after.sublist.trans before.sublist
  rules_eq := after.rules_eq
  stay n hn Q outlives := by
    have later := outlives.mono before.sublist.subset fewer'
    rcases before.stay n hn Q (outlives.mono (List.Subset.refl names) fewer) with here | gone
    · exact after.stay n here Q later
    · exact .inr (after.stable Q later.cancel later.callback gone)

/-- The first loop calls no rule, and knows of each one that is left what it saw. -/
theorem setUp_meets (honoured : ∀ n ∈ names, Honoured answer P first bad (contract n))
    (keepsFirst : ∀ n ∈ names, CancelKeeps P (contract n) first)
    (apart : names.Pairwise fun n n' => Apart P (contract n) (contract n'))
    (h : P s) (hfirst : first s) :
    Meets (setUp (names.map fun n => (contract n).rule) s)
      (fun result => ∃ marked : List (ι × Option Direction),
        Swept answer P contract names [] s (result.1.map (·.1)) result.2 (marked.map Prod.fst) ∧
        result.1 = polledFor contract marked ∧
        ∀ m ∈ marked, Known result.2 (contract m.1) m.2)
      bad := by
  induction names generalizing s with
  | nil => exact ⟨[], swept_nil h, rfl, fun m hm => absurd hm List.not_mem_nil⟩
  | cons n names ih =>
      obtain ⟨honouredHere, honouredRest⟩ := List.forall_mem_cons.mp honoured
      obtain ⟨keepsHere, keepsRest⟩ := List.forall_mem_cons.mp keepsFirst
      obtain ⟨hapart, hpairs⟩ := List.pairwise_cons.mp apart
      rw [List.map_cons, setUp]
      split
      · next defunct =>
        rcases (honouredHere.cancel s h fun _ => defunct).cases with
          ⟨s₁, cancelled, h₁⟩ | ⟨fault, cancelled, thrown⟩
        · rw [cancelled]
          refine (ih honouredRest keepsRest hpairs h₁ (keepsHere s s₁ h hfirst cancelled)).imp ?_
            fun _ => id
          rintro result ⟨marked, swept, polled, known⟩
          exact ⟨marked, swept.cancelled (List.Subset.refl _) h (fun _ => defunct) cancelled, polled,
            known⟩
        · rw [cancelled]
          exact thrown
      · next alive =>
        rcases (ih honouredRest keepsRest hpairs h hfirst).cases with
          ⟨⟨ps, s'⟩, hset, marked, swept, polled, known⟩ | ⟨fault, hset, thrown⟩
        · simp only [hset]
          refine ⟨(n, if (contract n).rule.interest s then some (contract n).rule.direction
              else none) :: marked, swept.stays (List.Subset.refl _) fun Q _ hQ => hQ,
            congrArg _ polled, List.forall_mem_cons.mpr ⟨?_, known⟩⟩
          -- what the rule saw is still so after the cancellations of the others
          have none : ∀ m ∈ ([] : List ι), ∀ Q, CallbackKeeps P (contract m) Q :=
            fun m hm => absurd hm List.not_mem_nil
          cases interest : (contract n).rule.interest s with
          | true =>
              exact swept.stable (contract n).ready (fun m hm => (hapart m hm).later_ready)
                (fun m hm => none m hm _)
                (honouredHere.interested s h hfirst (Bool.eq_false_iff.mpr alive) interest)
          | false =>
              exact swept.stable (contract n).idle (fun m hm => (hapart m hm).later_idle)
                (fun m hm => none m hm _) (honouredHere.uninterested s h hfirst interest)
        · rw [hset]
          exact thrown

/-- What a rule that is called leaves behind. -/
theorem Honoured.service {c : Contract σ ε} (honoured : Honoured answer P first bad c)
    (h : P s) (ready : c.ready s) :
    Meets (c.rule.service s) (fun s' => P s' ∧ c.rule.callback s = .ok s') bad := by
  have called := honoured.callback s h ready
  rw [Rule.service]
  cases hcall : c.rule.callback s with
  | error fault =>
      rw [hcall] at called
      exact called
  | ok s' =>
      rw [hcall] at called
      simp only
      split
      · next busy => exact called.2 busy.1 busy.2
      · exact ⟨called.1, rfl⟩

/-- A rule that is not hung up is called if its event has come, and left alone otherwise. -/
theorem Honoured.served {c : Contract σ ε} (honoured : Honoured answer P first bad c)
    (h : P s) {events : Option Direction} (ready : events.isSome = true → c.ready s)
    (revents : Revents) :
    Meets (if revents.meets events then c.rule.service s else .ok s)
      (fun s₁ => P s₁ ∧ (s₁ = s ∨ c.ready s ∧ c.rule.callback s = .ok s₁)) bad := by
  split
  · next meets =>
    have some : events.isSome = true := by
      cases events with
      | none => cases meets
      | some direction => rfl
    exact (honoured.service h (ready some)).imp
      (fun s₁ ⟨h₁, called⟩ => ⟨h₁, .inr ⟨ready some, called⟩⟩) fun _ => id
  · exact ⟨h, .inl rfl⟩

/-- Whatever is hung up may be erased. -/
theorem erasable_of_hangup {revents : List Revents}
    (quiet : answer.NoHangup → ∀ r ∈ revents, r.pollhup = false)
    (hangup : (revents.headD {}).pollhup = true) (rule : Rule σ ε) (s : σ) :
    rule.Erasable answer s := by
  intro noHangup
  cases revents with
  | nil => cases hangup
  | cons r rest =>
      rw [List.headD_cons, quiet noHangup r List.mem_cons_self] at hangup
      cases hangup

/-- The second loop calls the rules that are polled for, all of which are ready. -/
theorem dispatch_meets {marked : List (ι × Option Direction)}
    (honoured : ∀ m ∈ marked, Honoured answer P first bad (contract m.1))
    (apart : marked.Pairwise fun m m' => Apart P (contract m.1) (contract m'.1))
    (polled : bad .polled) (h : P s)
    (ready : ∀ m ∈ marked, m.2.isSome = true → (contract m.1).ready s) (revents : List Revents)
    (quiet : answer.NoHangup → ∀ r ∈ revents, r.pollhup = false) :
    Meets (dispatch (polledFor contract marked) revents s)
      (fun result => ∃ left, Swept answer P contract (marked.map Prod.fst) (marked.map Prod.fst) s
        result.1 result.2 left)
      bad := by
  induction marked generalizing s revents with
  | nil => exact ⟨[], swept_nil h⟩
  | cons m marked ih =>
      obtain ⟨n, events⟩ := m
      obtain ⟨honouredHere, honouredRest⟩ := List.forall_mem_cons.mp honoured
      obtain ⟨hapart, hpairs⟩ := List.pairwise_cons.mp apart
      obtain ⟨readyHere, readyRest⟩ := List.forall_mem_cons.mp ready
      have fewer := List.subset_cons_self n (marked.map Prod.fst)
      -- the loop goes on in a state in which the later rules are as ready as before
      have goOn : ∀ {s₁ : σ}, P s₁ → (∀ m ∈ marked, (contract m.1).ready s → (contract m.1).ready s₁) →
          Meets (dispatch (polledFor contract marked) revents.tail s₁)
            (fun result => ∃ left, Swept answer P contract (marked.map Prod.fst)
              (marked.map Prod.fst) s₁ result.1 result.2 left) bad := fun h₁ kept =>
        ih honouredRest hpairs h₁ (fun m hm some => kept m hm (readyRest m hm some)) revents.tail
          fun noHangup r hr => quiet noHangup r (List.mem_of_mem_tail hr)
      rw [polledFor, List.map_cons, dispatch]
      simp only
      split
      · exact polled
      split
      · next hangup =>
        simp only [Bool.and_eq_true] at hangup
        have erasable := erasable_of_hangup quiet hangup.1.1 (contract n).rule s
        rcases (honouredHere.cancel s h erasable).cases with
          ⟨s₁, cancelled, h₁⟩ | ⟨fault, cancelled, thrown⟩
        · rw [cancelled]
          refine (goOn h₁ fun m hm readyBefore => ?_).imp ?_ fun _ => id
          · exact (hapart m hm).earlier s s₁ h readyBefore cancelled
          · rintro result ⟨left, swept⟩
            exact ⟨left, swept.cancelled fewer h erasable cancelled⟩
        · rw [cancelled]
          exact thrown
      rcases (honouredHere.served h readyHere (revents.headD {})).cases with
        ⟨s₁, served, h₁, called⟩ | ⟨fault, served, thrown⟩
      swap
      · rw [served]
        exact thrown
      have kept : ∀ m ∈ marked, (contract m.1).ready s → (contract m.1).ready s₁ := by
        intro m hm readyBefore
        rcases called with rfl | ⟨readyNow, called⟩
        · exact readyBefore
        · exact (hapart m hm).called s s₁ h readyNow readyBefore called
      have keeps : ∀ Q, (∀ m ∈ n :: marked.map Prod.fst, CallbackKeeps P (contract m) Q) →
          Q s → Q s₁ := by
        intro Q callback hQ
        rcases called with rfl | ⟨readyNow, called⟩
        · exact hQ
        · exact callback n List.mem_cons_self s s₁ h readyNow hQ called
      rw [served]
      rcases (goOn h₁ kept).cases with ⟨result, dispatched, left, swept⟩ | ⟨fault, dispatched, thrown⟩
      · rw [polledFor] at dispatched
        simp only [dispatched]
        exact ⟨n :: left, swept.stays fewer keeps⟩
      · rw [polledFor] at dispatched
        simp only [dispatched]
        exact thrown

/-- What is known after a call in the state `s₀` that has returned. -/
structure Waited (answer : PollAnswer) (P : σ → Prop) (contract : ι → Contract σ ε)
    (names : List ι) (s₀ : σ) (result : Result) (rules : List (Rule σ ε)) (s : σ) (left : List ι) :
    Prop extends Swept answer P contract names names s₀ rules s left where
  exit : result = .Exit → answer = .failed eintr ∨ ∀ n ∈ left, (contract n).idle s

/-- If nothing is polled for, every rule that is left is idle. -/
theorem idle_of_nothing {marked : List (ι × Option Direction)}
    (known : ∀ m ∈ marked, Known s (contract m.1) m.2)
    (nothing : ¬ (polledFor contract marked).any (·.2.isSome) = true) :
    ∀ n ∈ marked.map Prod.fst, (contract n).idle s := by
  refine List.forall_mem_map.mpr fun m hm => ?_
  have none : m.2.isSome = false := by
    refine Bool.eq_false_iff.mpr fun some => nothing ?_
    exact List.any_eq_true.mpr ⟨((contract m.1).rule, m.2), List.mem_map_of_mem hm, some⟩
  simpa [Known, none] using known m hm

/-- **What every rule keeps is kept by a call**, which throws only what is `bad`.  If it returns
`Exit` and was not interrupted, no rule that is left was interested.  A rule is only erased when it
is defunct or hung up. -/
theorem wait_meets (honoured : ∀ n ∈ names, Honoured answer P first bad (contract n))
    (keepsFirst : ∀ n ∈ names, CancelKeeps P (contract n) first)
    (apart : names.Pairwise fun n n' => Apart P (contract n) (contract n'))
    (polled : bad .polled) (h : P s) (hfirst : first s) :
    Meets (waitNextEvent (names.map fun n => (contract n).rule) s answer)
      (fun result => ∃ left, Waited answer P contract names s result.1 result.2.1 result.2.2 left)
      bad := by
  rcases (setUp_meets honoured keepsFirst apart h hfirst).cases with
    ⟨⟨ps, s₁⟩, hset, marked, before, rfl, known⟩ | ⟨fault, hset, thrown⟩
  swap
  · rw [waitNextEvent, hset]
    exact thrown
  have fewer : marked.map Prod.fst ⊆ names := before.sublist.subset
  -- the call returns after the first loop
  have nothingCalled : Swept answer P contract (marked.map Prod.fst) [] s₁
      ((polledFor contract marked).map (·.1)) s₁ (marked.map Prod.fst) :=
    { kept := before.kept
      stable := fun _ _ _ hQ => hQ
      sublist := .refl _
      rules_eq := before.rules_eq
      stay := fun n hn _ _ => .inl hn }
  have stopped := before.trans nothingCalled (List.nil_subset _) (List.nil_subset _)
  have dispatched : ∀ revents, (answer.NoHangup → ∀ r ∈ revents, r.pollhup = false) → Meets
      ((dispatch (polledFor contract marked) revents s₁).map fun left => (Result.Success, left))
      (fun result => ∃ left, Waited answer P contract names s result.1 result.2.1 result.2.2 left)
      bad := by
    intro revents quiet
    have ready : ∀ m ∈ marked, m.2.isSome = true → (contract m.1).ready s₁ := fun m hm some => by
      simpa [Known, some] using known m hm
    have honouredLeft : ∀ m ∈ marked, Honoured answer P first bad (contract m.1) := fun m hm =>
      honoured m.1 (fewer (List.mem_map_of_mem hm))
    have apartLeft := List.pairwise_map.mp (apart.sublist before.sublist)
    rcases (dispatch_meets honouredLeft apartLeft polled before.kept ready revents quiet).cases with
      ⟨result, hdispatch, left, after⟩ | ⟨fault, hdispatch, thrown⟩
    · rw [hdispatch]
      exact ⟨left, before.trans after (List.nil_subset _) fewer, fun exit => (nomatch exit)⟩
    · rw [hdispatch]
      exact thrown
  simp only [waitNextEvent, hset]
  split
  · cases answer with
    | timeout => exact ⟨_, stopped, fun exit => (nomatch exit)⟩
    | failed errno =>
        simp only
        split
        · next interrupted => exact ⟨_, stopped, fun _ => .inl (by rw [interrupted])⟩
        · exact dispatched [] fun _ r hr => absurd hr List.not_mem_nil
    | ready revents => exact dispatched revents id
  · next nothing => exact ⟨_, stopped, fun _ => .inr (idle_of_nothing known nothing)⟩

/-- The rule is never found defunct. -/
def Lasting (P : σ → Prop) (c : Contract σ ε) : Prop := ∀ s, P s → c.rule.defunct s = false

/-- A rule that is never found defunct is only erased by a hangup. -/
theorem Waited.mem_left {result : Result} {s₀ : σ}
    (waited : Waited answer P contract names s₀ result rules s left) (noHangup : answer.NoHangup)
    (hn : n ∈ names) (lasting : Lasting P (contract n)) : n ∈ left := by
  have outlives : Outlives answer P contract names names n fun _ => False := by
    refine ⟨fun s h erasable => ?_, fun _ _ _ _ _ h _ => h, fun _ _ _ _ _ _ h _ => h⟩
    have defunct := erasable noHangup
    rw [lasting s h] at defunct
    cases defunct
  exact (waited.stay n hn _ outlives).resolve_right id

end Waiting

end EventLoop

end Sponge
