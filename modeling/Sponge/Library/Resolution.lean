import Mathlib.Data.List.Perm.Subperm
import Mathlib.Tactic.Common

/-!
# Resolving an address before sending

Two parties exchange items.  A party can send an item only while it knows where its peer
is.  When it does not, it asks, and keeps the item until the answer comes.  It does not ask
again while an earlier question is recent, and what it has learned it forgets after some
time.  It also learns from being asked, but that does not make it send the items that it
keeps.

`Party` is one party, with everything it has sent that has not arrived yet.  `Half x y` is
what holds of the items that `x` sends to `y`, in every state that the parties can reach:
whenever an item is kept, a question or an answer is under way.  It is kept by every action
of either party (`Half.submit`, `Half.submitted`, `Half.elapse`, `Half.elapsed`,
`Half.arrives`, `Half.arrived`).

### The invariant

The danger of such a protocol is an item that waits for an answer to a question that nobody
is going to put again.  `Half.resolving` excludes it, and speaks also of items that are not
there yet: a party that has forgotten the address and still counts its last question as
recent would keep the next item without asking.  That this state has something under way
comes from two facts about dates.  A question is put no later than the address is learned
(`asked_le_known`), and it is forgotten no later (`quiet ≤ valid`, the premise of
`Half.elapse`); so while the question is recent, the address that answered it is not
forgotten.

The network of this library loses nothing and copies nothing, and may deliver in any order.
`resolving` and `account` both rest on that.
-/

namespace Resolution

variable {α : Type*}

/-- What one party sends to the other. -/
inductive Message (α : Type*) where
  /-- Where are you? -/
  | request
  /-- Here. -/
  | reply
  | item (a : α)

/-- The items among some messages. -/
def items (messages : List (Message α)) : List α :=
  messages.filterMap fun
    | .item a => some a
    | _ => none

/-- A party: what it knows and when it learned it, what it keeps, and what it has sent that has
not arrived. -/
structure Party (α : Type*) where
  clock : ℕ := 0
  /-- When the peer's address was learned. -/
  known : Option ℕ := none
  /-- When the peer was last asked. -/
  asked : Option ℕ := none
  /-- The items that wait for the answer. -/
  waiting : List α := []
  /-- The messages that have not arrived yet. -/
  flying : List (Message α) := []
  submitted : List α := []
  received : List α := []

namespace Party

/-- Send an item if possible; else keep it, and ask unless that was done recently. -/
def send (p : Party α) (a : α) : Party α :=
  match p.known, p.asked with
  | some _, _ => { p with flying := p.flying ++ [.item a] }
  | none, some _ => { p with waiting := p.waiting ++ [a] }
  | none, none =>
      { p with waiting := p.waiting ++ [a], asked := some p.clock, flying := p.flying ++ [.request] }

/-- An item to be sent. -/
def submit (p : Party α) (a : α) : Party α :=
  { p.send a with submitted := p.submitted ++ [a] }

/-- A date is forgotten after some time. -/
def expire (life now : ℕ) (date : Option ℕ) : Option ℕ := date.filter fun t => now < t + life

/-- Time passes. -/
def elapse (valid quiet : ℕ) (p : Party α) (ms : ℕ) : Party α :=
  { p with
    clock := p.clock + ms
    known := expire valid (p.clock + ms) p.known
    asked := expire quiet (p.clock + ms) p.asked }

/-- The peer's address is learned, unless it is known. -/
def learn (p : Party α) : Party α := { p with known := p.known.or (some p.clock) }

/-- A message arrives. -/
def receive (p : Party α) : Message α → Party α
  | .request => { p.learn with flying := p.flying ++ [.reply] }
  | .reply => { p.learn with waiting := [], flying := p.flying ++ p.waiting.map .item }
  | .item a => { p with received := p.received ++ [a] }

end Party

/-! ## The items from one party to the other -/

/-- **What holds of the items that `x` sends to `y`.**  The link is two halves, one for each
direction; neither needs the other for its own account. -/
structure Half (x y : Party α) : Prop where
  known_le : ∀ t ∈ x.known, t ≤ x.clock
  asked_le : ∀ t ∈ x.asked, t ≤ x.clock
  /-- A party that knows does not ask. -/
  asked_le_known : ∀ t ∈ x.asked, ∀ u ∈ x.known, t ≤ u
  /-- An item that is kept, or will be kept without a new question, has a question or an
  answer under way. -/
  resolving : x.waiting ≠ [] ∨ (x.asked ≠ none ∧ x.known = none) →
    .request ∈ x.flying ∨ .reply ∈ y.flying
  /-- Every item is somewhere, once. -/
  account : x.submitted.Perm (y.received ++ items x.flying ++ x.waiting)

section Items

@[simp] theorem items_nil : items ([] : List (Message α)) = [] := rfl

@[simp] theorem items_append (xs ys : List (Message α)) : items (xs ++ ys) = items xs ++ items ys :=
  List.filterMap_append

@[simp] theorem items_request (xs : List (Message α)) : items (.request :: xs) = items xs := rfl

@[simp] theorem items_reply (xs : List (Message α)) : items (.reply :: xs) = items xs := rfl

@[simp] theorem items_item (a : α) (xs : List (Message α)) :
    items (.item a :: xs) = a :: items xs := rfl

@[simp] theorem items_map_item (as : List α) : items (as.map .item) = as := by
  induction as with
  | nil => rfl
  | cons a as ih => rw [List.map_cons, items_item, ih]

theorem items_perm {xs ys : List (Message α)} (h : xs.Perm ys) : (items xs).Perm (items ys) :=
  h.filterMap _

end Items

namespace Half

variable {x y y' : Party α}

/-- Two parties that have not met. -/
theorem start : Half ({} : Party α) ({} : Party α) where
  known_le := fun _ ht => nomatch ht
  asked_le := fun _ ht => nomatch ht
  asked_le_known := fun _ ht => nomatch ht
  resolving := fun h => h.elim (fun h => absurd rfl h) (fun h => absurd rfl h.1)
  account := List.Perm.refl _

/-- The peer may do anything but lose an answer or receive an item. -/
theorem peer (h : Half x y) (received : y'.received = y.received)
    (reply : .reply ∈ y.flying → .reply ∈ y'.flying) : Half x y' where
  known_le := h.known_le
  asked_le := h.asked_le
  asked_le_known := h.asked_le_known
  resolving := fun hx => (h.resolving hx).imp id reply
  account := by
    rw [received]
    exact h.account

/-! ### Submitting -/

/-- Submitting an item keeps the half of the one who sends it: the item goes out, or waits for the
answer to a question. -/
theorem submit (h : Half x y) (a : α) : Half (x.submit a) y := by
  obtain ⟨known_le, asked_le, asked_le_known, resolving, account⟩ := h
  have grown := account.append_right [a]
  rcases hknown : x.known with _ | u
  · rcases hasked : x.asked with _ | t
    · -- a new question is put on the way
      have hsend : x.submit a = { x with
          waiting := x.waiting ++ [a], asked := some x.clock, flying := x.flying ++ [.request],
          submitted := x.submitted ++ [a] } := by
        simp only [Party.submit, Party.send, hknown, hasked]
      rw [hsend]
      refine ⟨known_le, ?_, ?_, fun _ => .inl (List.mem_append_right _ List.mem_cons_self), ?_⟩
      · rintro t ht
        cases ht
        exact Nat.le_refl _
      · rintro t - u hu
        exact absurd hu (by simp [hknown])
      · simpa using grown
    · -- the earlier question is still open
      have hsend : x.submit a = { x with
          waiting := x.waiting ++ [a], submitted := x.submitted ++ [a] } := by
        simp only [Party.submit, Party.send, hknown, hasked]
      rw [hsend]
      refine ⟨known_le, asked_le, asked_le_known, fun _ => resolving (.inr ⟨?_, hknown⟩), ?_⟩
      · rw [hasked]
        exact Option.some_ne_none t
      · simpa using grown
  · have hsend : x.submit a = { x with
        flying := x.flying ++ [.item a], submitted := x.submitted ++ [a] } := by
      simp only [Party.submit, Party.send, hknown]
    rw [hsend]
    refine ⟨known_le, asked_le, asked_le_known, fun hx => ?_, ?_⟩
    · exact (resolving hx).imp (List.mem_append_left _) id
    · refine grown.trans ?_
      simp only [items_append, items_item, items_nil, List.append_assoc]
      exact List.Perm.append_left _ (List.Perm.append_left _ List.perm_append_comm)

/-- What the peer submits takes no answer off the way. -/
theorem submitted (h : Half x y) (a : α) : Half x (y.submit a) := by
  refine h.peer ?_ fun hmem => ?_
  · rcases hknown : y.known with _ | u <;> rcases hasked : y.asked with _ | t <;>
      simp only [Party.submit, Party.send, hknown, hasked]
  · rcases hknown : y.known with _ | u <;> rcases hasked : y.asked with _ | t <;>
      simp [Party.submit, Party.send, hknown, hasked, hmem]

/-! ### The passing of time -/

theorem mem_expire {life now t : ℕ} {date : Option ℕ} :
    t ∈ Party.expire life now date ↔ t ∈ date ∧ now < t + life := by
  simp [Party.expire, Option.mem_def, Option.filter_eq_some_iff]

/-- A question is forgotten before an answer is, so it is not left open without one. -/
theorem elapse {valid quiet : ℕ} (hlife : quiet ≤ valid) (h : Half x y) (ms : ℕ) :
    Half (x.elapse valid quiet ms) y where
  known_le := fun t ht => Nat.le_add_right_of_le (h.known_le t (mem_expire.mp ht).1)
  asked_le := fun t ht => Nat.le_add_right_of_le (h.asked_le t (mem_expire.mp ht).1)
  asked_le_known := fun t ht u hu =>
    h.asked_le_known t (mem_expire.mp ht).1 u (mem_expire.mp hu).1
  resolving := by
    rintro (hwaiting | ⟨hasked, hknown⟩)
    · exact h.resolving (.inl hwaiting)
    obtain ⟨t, ht⟩ := Option.ne_none_iff_exists'.mp hasked
    obtain ⟨ht, hrecent⟩ := mem_expire.mp (Option.mem_def.mpr ht)
    refine h.resolving (.inr ⟨Option.ne_none_iff_exists'.mpr ⟨t, ht⟩, ?_⟩)
    -- an address learned after the question would not have expired yet
    rcases hu : x.known with _ | u
    · rfl
    · have hle := h.asked_le_known t ht u hu
      have fresh : u ∈ Party.expire valid (x.clock + ms) x.known :=
        mem_expire.mpr ⟨hu, by omega⟩
      rw [show Party.expire valid (x.clock + ms) x.known = none from hknown] at fresh
      cases fresh
  account := h.account

/-- Time that passes for the peer changes nothing. -/
theorem elapsed {valid quiet : ℕ} (h : Half x y) (ms : ℕ) : Half x (y.elapse valid quiet ms) :=
  h.peer rfl id

/-! ### Arrivals -/

variable {m : Message α} {rest : List (Message α)}

/-- A message of the sender's arrives. -/
theorem arrives (h : Half x y) (hm : x.flying.Perm (m :: rest)) :
    Half { x with flying := rest } (y.receive m) where
  known_le := h.known_le
  asked_le := h.asked_le
  asked_le_known := h.asked_le_known
  resolving := by
    intro hx
    have old := h.resolving hx
    rw [hm.mem_iff] at old
    cases m with
    | request => exact .inr (List.mem_append_right _ List.mem_cons_self)
    | reply =>
        refine old.imp (fun hmem => ?_) (List.mem_append_left _)
        exact List.mem_of_ne_of_mem (by simp) hmem
    | item a =>
        refine old.imp (fun hmem => ?_) id
        exact List.mem_of_ne_of_mem (by simp) hmem
  account := by
    have old := h.account.trans
      (((items_perm hm).append_left y.received).append_right x.waiting)
    cases m with
    | request => exact old
    | reply => exact old
    | item a =>
        refine old.trans ?_
        show (y.received ++ a :: items rest ++ x.waiting).Perm
          (y.received ++ [a] ++ items rest ++ x.waiting)
        rw [List.append_assoc y.received [a], List.singleton_append]

theorem learn_known (p : Party α) : p.learn.known = some (p.known.getD p.clock) := by
  rcases h : p.known with _ | u <;> simp [Party.learn, h]

/-- What a party knows after it has heard of its peer. -/
theorem learned (h : Half x y) :
    (∀ t ∈ x.learn.known, t ≤ x.clock) ∧ ∀ t ∈ x.asked, ∀ u ∈ x.learn.known, t ≤ u := by
  rw [learn_known]
  rcases hknown : x.known with _ | u
  · refine ⟨fun t ht => ?_, fun t ht u hu => ?_⟩
    · cases ht
      exact Nat.le_refl _
    · cases hu
      exact h.asked_le t ht
  · refine ⟨fun t ht => ?_, fun t ht u' hu => ?_⟩
    · cases ht
      exact h.known_le u hknown
    · cases hu
      exact h.asked_le_known t ht u hknown

/-- A message of the peer's arrives. -/
theorem arrived (h : Half x y) (hm : y.flying.Perm (m :: rest)) :
    Half (x.receive m) { y with flying := rest } := by
  obtain ⟨known_le, asked_le_known⟩ := h.learned
  cases m with
  | request =>
      refine ⟨known_le, h.asked_le, asked_le_known, ?_, ?_⟩
      · rintro (hwaiting | ⟨-, hunknown⟩)
        · have old := h.resolving (.inl hwaiting)
          rw [hm.mem_iff] at old
          refine old.imp (List.mem_append_left _) fun hmem => ?_
          exact List.mem_of_ne_of_mem (by simp) hmem
        · exact absurd hunknown (by simp [Party.receive, learn_known])
      · show x.submitted.Perm (y.received ++ items (x.flying ++ [.reply]) ++ x.waiting)
        simpa using h.account
  | reply =>
      -- the items that were kept are sent
      refine ⟨known_le, h.asked_le, asked_le_known, ?_, ?_⟩
      · rintro (hwaiting | ⟨-, hunknown⟩)
        · exact absurd rfl hwaiting
        · exact absurd hunknown (by simp [Party.receive, learn_known])
      · show x.submitted.Perm (y.received ++ items (x.flying ++ x.waiting.map .item) ++ [])
        simpa using h.account
  | item a =>
      refine ⟨h.known_le, h.asked_le, h.asked_le_known, fun hx => ?_, h.account⟩
      have old := h.resolving hx
      rw [hm.mem_iff] at old
      refine old.imp id fun hmem => ?_
      exact List.mem_of_ne_of_mem (by simp) hmem

/-! ### Consequences -/

/-- Nothing is received that was not submitted, and nothing twice. -/
theorem received_subperm (h : Half x y) : y.received.Subperm x.submitted := by
  refine List.Subperm.trans ?_ h.account.symm.subperm
  rw [List.append_assoc]
  exact (List.sublist_append_left _ _).subperm

/-- When nothing is under way, everything has been received and nothing waits. -/
theorem received_of_quiet (h : Half x y) (hx : x.flying = []) (hy : y.flying = []) :
    y.received.Perm x.submitted ∧ x.waiting = [] := by
  have settled : x.waiting = [] := by
    by_contra hwaiting
    rcases h.resolving (.inl hwaiting) with hmem | hmem
    · rw [hx] at hmem
      cases hmem
    · rw [hy] at hmem
      cases hmem
  refine ⟨?_, settled⟩
  have account := h.account
  rw [hx, settled] at account
  simpa using account.symm

end Half

end Resolution
