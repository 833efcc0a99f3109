import Sponge.EventLoop
import Sponge.Library.GuardedRun

/-!
# The life of a rule

What the event loop does with one of its rules, over any number of calls of
`wait_next_event` and whatever happens in between.  The rules are functions, which cannot be
told apart by looking at them; so each is given a number and made to write down what is done
with it (`Rule.recorded`).

`Passed` is what one of the two loops of a call can do when it succeeds, and a call is two
of them (`passed_of_wait`).  The result is `rule_lifecycle`: as long as no call throws, a
rule is called some number of times and then cancelled at most once; it is in the list until
it is cancelled and never after that.

That no call throws is not decoration.  A rule is cancelled before it is erased, so one
whose `cancel` throws is still in the list and is cancelled again by the next call.  A run
here ends with the first exception, which is what happens to both programs that have such a
loop: neither catches it where it could go on.

### Why a record

Rules are not values that can be compared, and the list of rules does not tell a rule that
was erased from one that was never there.  The record is kept in the state that the rules
work on, so no change to the loop is needed: `rule_lifecycle` is about `wait_next_event` as
it is, on other rules.

The state may be changed between two calls in any way at all (`Turn.outside`), the record
excepted.  A rule that was cancelled therefore stays cancelled because it is gone, and not
because of what its descriptor looks like.
-/

namespace Sponge

namespace EventLoop

open Runs

variable {σ ε : Type}

/-! ## One pass over the rules -/

/-- One of the two loops when it succeeds: each rule in turn is left alone, called, or cancelled
and erased.  What decided it is left out, since the results on the life of a rule do not need it.
-/
inductive Passed : List (Rule σ ε) → σ → List (Rule σ ε) → σ → Prop
  | done (s : σ) : Passed [] s [] s
  | alone {rule : Rule σ ε} {rules left : List (Rule σ ε)} {s s' : σ}
      (rest : Passed rules s left s') : Passed (rule :: rules) s (rule :: left) s'
  | called {rule : Rule σ ε} {rules left : List (Rule σ ε)} {s s₁ s' : σ}
      (callback : rule.callback s = .ok s₁) (rest : Passed rules s₁ left s') :
      Passed (rule :: rules) s (rule :: left) s'
  | cancelled {rule : Rule σ ε} {rules left : List (Rule σ ε)} {s s₁ s' : σ}
      (cancel : rule.cancel s = .ok s₁) (rest : Passed rules s₁ left s') :
      Passed (rule :: rules) s left s'

/-- All the rules are left alone. -/
theorem passed_refl (rules : List (Rule σ ε)) (s : σ) : Passed rules s rules s := by
  induction rules with
  | nil => exact .done s
  | cons rule rules ih => exact .alone ih

/-- The first loop calls none of them. -/
theorem passed_of_setUp {rules : List (Rule σ ε)} {s s' : σ}
    {polled : List (Rule σ ε × Option Direction)} (h : setUp rules s = .ok (polled, s')) :
    Passed rules s (polled.map (·.1)) s' := by
  induction rules generalizing s polled with
  | nil =>
      cases h
      exact .done _
  | cons rule rules ih =>
      rw [setUp] at h
      split at h
      · cases hcancel : rule.cancel s with
        | error fault => simp [hcancel] at h
        | ok s₁ =>
            simp only [hcancel] at h
            exact .cancelled hcancel (ih h)
      · cases hset : setUp rules s with
        | error fault => simp [hset] at h
        | ok result =>
            simp only [hset, Except.ok.injEq, Prod.mk.injEq] at h
            obtain ⟨rfl, rfl⟩ := h
            exact .alone (ih hset)

/-- A rule that is served is called. -/
theorem callback_of_service {rule : Rule σ ε} {s s' : σ} (h : rule.service s = .ok s') :
    rule.callback s = .ok s' := by
  unfold Rule.service at h
  cases hcall : rule.callback s with
  | error fault => simp [hcall] at h
  | ok s₁ =>
      simp only [hcall] at h
      split at h
      · cases h
      · rw [Except.ok.inj h]

/-- The second loop, by induction over the rules. -/
theorem passed_of_dispatch {polled : List (Rule σ ε × Option Direction)} {revents : List Revents}
    {s s' : σ} {left : List (Rule σ ε)} (h : dispatch polled revents s = .ok (left, s')) :
    Passed (polled.map (·.1)) s left s' := by
  induction polled generalizing revents s left with
  | nil =>
      cases h
      exact .done _
  | cons p polled ih =>
      obtain ⟨rule, events⟩ := p
      rw [dispatch] at h
      split at h
      · cases h
      split at h
      · cases hcancel : rule.cancel s with
        | error fault => simp [hcancel] at h
        | ok s₁ =>
            simp only [hcancel] at h
            exact .cancelled hcancel (ih h)
      · split at h
        · cases h
        next s₁ hserved =>
        cases hdispatch : dispatch polled revents.tail s₁ with
        | error fault => simp [hdispatch] at h
        | ok result =>
            simp only [hdispatch, Except.ok.injEq, Prod.mk.injEq] at h
            obtain ⟨rfl, rfl⟩ := h
            split at hserved
            · exact .called (callback_of_service hserved) (ih hdispatch)
            · cases hserved
              exact .alone (ih hdispatch)

/-- **A call that succeeds**, taken apart. -/
theorem passed_of_wait {rules left : List (Rule σ ε)} {s s' : σ} {answer : PollAnswer}
    {result : Result} (h : waitNextEvent rules s answer = .ok (result, left, s')) :
    ∃ mid s₁, Passed rules s mid s₁ ∧ Passed mid s₁ left s' := by
  rw [waitNextEvent] at h
  cases hset : setUp rules s with
  | error fault => simp [hset] at h
  | ok set =>
      obtain ⟨polled, s₁⟩ := set
      refine ⟨_, s₁, passed_of_setUp hset, ?_⟩
      have dispatched : ∀ revents,
          (dispatch polled revents s₁).map (fun left => (Result.Success, left))
            = .ok (result, left, s') → Passed (polled.map (·.1)) s₁ left s' := by
        intro revents h
        cases hdispatch : dispatch polled revents s₁ with
        | error fault => simp [hdispatch, Except.map] at h
        | ok found =>
            simp only [hdispatch, Except.map, Except.ok.injEq, Prod.mk.injEq] at h
            obtain ⟨-, rfl⟩ := h
            exact passed_of_dispatch hdispatch
      have stopped : ∀ result', (.ok (result', polled.map (·.1), s₁) : Except (LoopFault ε) _)
          = .ok (result, left, s') → Passed (polled.map (·.1)) s₁ left s' := by
        intro result' h
        simp only [Except.ok.injEq, Prod.mk.injEq] at h
        obtain ⟨-, rfl, rfl⟩ := h
        exact passed_refl _ _
      simp only [hset] at h
      split at h
      · cases answer with
        | timeout => exact stopped _ h
        | failed errno =>
            simp only at h
            split at h
            · exact stopped _ h
            · exact dispatched _ h
        | ready revents => exact dispatched _ h
      · exact stopped _ h

/-! ## The record -/

/-- What is done with a rule. -/
inductive Event where
  | called (i : ℕ)
  | cancelled (i : ℕ)
  deriving Repr, DecidableEq

/-- The rule that an event is about. -/
def Event.rule : Event → ℕ
  | .called i | .cancelled i => i

/-- The rule, writing down what is done with it. -/
def Rule.recorded (i : ℕ) (rule : Rule σ ε) : Rule (σ × List Event) ε where
  fd s := rule.fd s.1
  direction := rule.direction
  callback s := (rule.callback s.1).map fun s' => (s', s.2 ++ [.called i])
  interest s := rule.interest s.1
  cancel s := (rule.cancel s.1).map fun s' => (s', s.2 ++ [.cancelled i])

/-- What is written down of a rule, if it is in the list `left` and if it no longer is. -/
def Written (left : List ℕ) (log : List Event) (i : ℕ) : Prop :=
  ∃ n, log.filter (fun e => e.rule = i)
    = List.replicate n (.called i) ++ if i ∈ left then [] else [.cancelled i]

/-- The record of a rule, followed by that of other rules. -/
theorem written_cons {i : ℕ} {ids : List ℕ} (fresh : i ∉ ids) {kept kept' : List ℕ}
    (first : List Event) (n : ℕ) {new : List Event} (about : ∀ e ∈ new, e.rule ∈ ids)
    (same : ∀ j ∈ ids, j ∈ kept' ↔ j ∈ kept)
    (hfirst : first = List.replicate n (.called i) ++ if i ∈ kept' then [] else [.cancelled i])
    (written : ∀ j ∈ ids, Written kept new j) :
    ∀ j ∈ i :: ids, Written kept' (first ++ new) j := by
  have mine : ∀ e ∈ first, e.rule = i := by
    rw [hfirst]
    intro e he
    rcases List.mem_append.mp he with he | he
    · rw [List.eq_of_mem_replicate he]
      rfl
    · split at he
      · exact absurd he List.not_mem_nil
      · rw [List.mem_singleton.mp he]
        rfl
  refine List.forall_mem_cons.mpr ⟨⟨n, ?_⟩, fun j hj => ?_⟩
  · have others : new.filter (fun e => e.rule = i) = [] :=
      List.filter_eq_nil_iff.mpr fun e he hi => fresh (of_decide_eq_true hi ▸ about e he)
    have all : first.filter (fun e => e.rule = i) = first :=
      List.filter_eq_self.mpr fun e he => decide_eq_true (mine e he)
    rw [List.filter_append, others, all, List.append_nil, hfirst]
  · obtain ⟨m, hm⟩ := written j hj
    have none : first.filter (fun e => e.rule = j) = [] :=
      List.filter_eq_nil_iff.mpr fun e he hi =>
        fresh ((mine e he).symm.trans (of_decide_eq_true hi) ▸ hj)
    refine ⟨m, ?_⟩
    rw [List.filter_append, none, List.nil_append, hm]
    simp only [same j hj]

/-- What one loop adds to the record: at most one event for each rule. -/
theorem Passed.record {rules : ℕ → Rule σ ε} {ids : List ℕ} (nodup : ids.Nodup)
    {s s' : σ × List Event} {left : List (Rule (σ × List Event) ε)}
    (h : Passed (ids.map fun i => (rules i).recorded i) s left s') :
    ∃ kept new, kept.Sublist ids ∧ left = kept.map (fun i => (rules i).recorded i) ∧
      s'.2 = s.2 ++ new ∧ (∀ e ∈ new, e.rule ∈ ids) ∧ ∀ i ∈ ids, Written kept new i := by
  induction ids generalizing s left with
  | nil =>
      cases h
      exact ⟨[], [], .refl _, rfl, (List.append_nil _).symm, fun e he => absurd he List.not_mem_nil,
        fun i hi => absurd hi List.not_mem_nil⟩
  | cons i ids ih =>
      obtain ⟨fresh, nodup⟩ := List.nodup_cons.mp nodup
      -- the numbers are distinct, so what happens to this rule is no news of the others
      have stays : ∀ kept : List ℕ, ∀ j ∈ ids, j ∈ i :: kept ↔ j ∈ kept := by
        intro kept j hj
        simp only [List.mem_cons, or_iff_right_iff_imp]
        rintro rfl
        exact absurd hj fresh
      cases h with
      | alone rest =>
          obtain ⟨kept, new, sub, rfl, hlog, about, written⟩ := ih nodup rest
          exact ⟨i :: kept, new, sub.cons_cons i, rfl, hlog,
            fun e he => List.mem_cons_of_mem _ (about e he),
            written_cons fresh [] 0 about (stays kept)
              (by rw [if_pos List.mem_cons_self]; rfl) written⟩
      | called callback rest =>
          obtain ⟨kept, new, sub, rfl, hlog, about, written⟩ := ih nodup rest
          obtain ⟨s₁, -, rfl⟩ := ok_of_map callback
          refine ⟨i :: kept, .called i :: new, sub.cons_cons i, rfl, ?_, ?_,
            written_cons fresh [.called i] 1 about (stays kept)
              (by rw [if_pos List.mem_cons_self]; rfl) written⟩
          · rw [hlog, List.append_assoc]
            rfl
          · exact List.forall_mem_cons.mpr ⟨List.mem_cons_self,
              fun e he => List.mem_cons_of_mem _ (about e he)⟩
      | cancelled cancel rest =>
          obtain ⟨kept, new, sub, rfl, hlog, about, written⟩ := ih nodup rest
          obtain ⟨s₁, -, rfl⟩ := ok_of_map cancel
          refine ⟨kept, .cancelled i :: new, sub.cons i, rfl, ?_, ?_,
            written_cons fresh [.cancelled i] 0 about (fun j _ => Iff.rfl)
              (by rw [if_neg fun hi => fresh (sub.subset hi)]; rfl) written⟩
          · rw [hlog, List.append_assoc]
            rfl
          · exact List.forall_mem_cons.mpr ⟨List.mem_cons_self,
              fun e he => List.mem_cons_of_mem _ (about e he)⟩

/-- The record of a rule goes on as long as the rule is in the list. -/
theorem Written.append {left kept : List ℕ} (sub : kept.Sublist left) {log new : List Event}
    (about : ∀ e ∈ new, e.rule ∈ left) (later : ∀ i ∈ left, Written kept new i) {i : ℕ}
    (h : Written left log i) : Written kept (log ++ new) i := by
  obtain ⟨n, hn⟩ := h
  by_cases hi : i ∈ left
  · obtain ⟨m, hm⟩ := later i hi
    refine ⟨n + m, ?_⟩
    rw [List.filter_append, hn, hm, if_pos hi, List.append_nil, ← List.append_assoc,
      List.replicate_append_replicate]
  · have others : new.filter (fun e => e.rule = i) = [] :=
      List.filter_eq_nil_iff.mpr fun e he hi' => hi (of_decide_eq_true hi' ▸ about e he)
    refine ⟨n, ?_⟩
    rw [List.filter_append, hn, others, List.append_nil, if_neg hi,
      if_neg fun hk => hi (sub.subset hk)]

/-- What happens to a program that owns a loop: a call of `wait_next_event`, or anything that
changes its state in between. -/
inductive Turn (σ : Type) where
  | wait (answer : PollAnswer)
  | outside (s : σ)

/-- The rules that are left, the state and the record. -/
abbrev Recording (σ ε : Type) := List (Rule (σ × List Event) ε) × σ × List Event

def turn (loop : Recording σ ε) : Turn σ → Except (LoopFault ε) (Recording σ ε)
  | .wait answer => (waitNextEvent loop.1 loop.2 answer).map fun result => result.2
  | .outside s => .ok (loop.1, s, loop.2.2)

/-- **The life of a rule.**  However the program behaves and whatever `poll` answers, as long as no
call throws, a rule is called some number of times, then cancelled once or not yet, and nothing is
done with it afterwards.  The rules in the list are those that have not been cancelled. -/
theorem rule_lifecycle (rules : ℕ → Rule σ ε) {ids : List ℕ} (nodup : ids.Nodup) {s : σ}
    {loop : Recording σ ε}
    (run : GuardedRun turn (fun _ _ => True) (ids.map (fun i => (rules i).recorded i), s, []) loop) :
    ∃ left : List ℕ, left.Sublist ids ∧ loop.1 = left.map (fun i => (rules i).recorded i) ∧
      (∀ e ∈ loop.2.2, e.rule ∈ ids) ∧
      ∀ i ∈ ids, ∃ n, loop.2.2.filter (fun e => e.rule = i)
        = List.replicate n (.called i) ++ if i ∈ left then [] else [.cancelled i] := by
  refine run.invariant (fun loop => ∃ left : List ℕ, left.Sublist ids ∧
    loop.1 = left.map (fun i => (rules i).recorded i) ∧ (∀ e ∈ loop.2.2, e.rule ∈ ids) ∧
    ∀ i ∈ ids, Written left loop.2.2 i) ?_ fun loop op loop' before _ turned => ?_
  · refine ⟨ids, .refl _, rfl, fun e he => absurd he List.not_mem_nil, fun i hi => ⟨0, ?_⟩⟩
    rw [if_pos hi]
    rfl
  · obtain ⟨rules', s, log⟩ := loop
    obtain ⟨left, sub, rfl, about, written⟩ := before
    cases op with
    | outside s' =>
        cases turned
        exact ⟨left, sub, rfl, about, written⟩
    | wait answer =>
        obtain ⟨⟨result, rules'', s', log'⟩, waited, rfl⟩ := ok_of_map turned
        -- the call is two loops, each of which adds to the record
        obtain ⟨_, ⟨s₁, log₁⟩, first, second⟩ := passed_of_wait waited
        obtain ⟨left₁, new₁, sub₁, rfl, rfl, about₁, written₁⟩ := first.record (nodup.sublist sub)
        obtain ⟨left₂, new₂, sub₂, rfl, hlog, about₂, written₂⟩ :=
          second.record ((nodup.sublist sub).sublist sub₁)
        simp only at hlog
        subst hlog
        refine ⟨left₂, (sub₂.trans sub₁).trans sub, rfl, fun e he => ?_, fun i hi =>
          (written i hi).append sub₁ about₁ written₁ |>.append sub₂ about₂ written₂⟩
        rcases List.mem_append.mp he with he | he
        · rcases List.mem_append.mp he with he | he
          · exact about e he
          · exact sub.subset (about₁ e he)
        · exact (sub₁.trans sub).subset (about₂ e he)

/-- One rule that reads and one that writes. -/
def readAndWrite : ℕ → Rule FDWrapper Empty
  | 0 => { fd := id, direction := .In, callback := fun w => .ok w.registerRead }
  | _ => { fd := id, direction := .Out, callback := fun w => .ok w.registerWrite }

/-- Both are called; then the file is at its end, and the descriptor is hung up. -/
theorem rule_lifecycle_readAndWrite :
    ∃ loop, execute turn ([0, 1].map (fun i => (readAndWrite i).recorded i), {}, [])
        [.wait (.ready [{ pollin := true }, { pollout := true }]), .outside { eof := true },
          .wait (.ready [{ pollhup := true }])] = .ok loop ∧
      loop.2.2 = [.called 0, .called 1, .cancelled 0, .cancelled 1] ∧
      ∃ left : List ℕ, left.Sublist [0, 1] ∧
        loop.1 = left.map (fun i => (readAndWrite i).recorded i) := by
  obtain ⟨loop, done, log⟩ : ∃ loop : Recording FDWrapper Empty, execute turn
      ([0, 1].map (fun i => (readAndWrite i).recorded i), {}, [])
        [.wait (.ready [{ pollin := true }, { pollout := true }]), .outside { eof := true },
          .wait (.ready [{ pollhup := true }])] = .ok loop ∧
      loop.2.2 = [.called 0, .called 1, .cancelled 0, .cancelled 1] :=
    EndsIn.exists_ok (by decide +kernel)
  have run := GuardedRun.of_execute (admitted_of_forall (fun _ _ => trivial) _ _) done
  obtain ⟨left, sub, hleft, -⟩ := rule_lifecycle readAndWrite (by decide) run
  exact ⟨loop, done, log, left, sub, hleft⟩

end EventLoop

end Sponge
