import Mathlib.Logic.Function.Basic
import Mathlib.Order.Nat

/-!
# Tables whose entries expire

A table maps keys to values, every value has the time of its entry, and an entry is purged
when it is `lifetime` old.  `record` enters a value for a key that has none: a value that is
already there is kept, with its time.

What a table knows is measured against a **log** of all that was to be entered:

* `Backed` — every entry of the table is in the log and younger than `lifetime`.  This is
  kept by every `record` and every `purge`.
* `Exact` — moreover, whatever is in the log and younger than `lifetime` is in the table.
  This needs that a value is recorded only while its key has none, or the same.
* `Exact.lookup` — an exact table shows the last value logged for a key, until it is
  `lifetime` old.

### Why two notions

A table that keeps the old value is not a cache of the log: after a second value has been
logged for a key that has one, the table shows the first, and the second is nowhere.
`Backed` is what survives that, and it is enough to say that whatever is looked up was
logged recently.  `Exact` is what a reader expects, and the premise of `Exact.record` says
when it survives: exactly when the value that is recorded is there afterwards
(`record_self_eq_some`).

`Exact` also carries that the latest value for a key is its youngest (`ordered`).  Without
it an entry could be young and the latest value old, and the table would not show the latest
one.
-/

namespace Expiry

universe u v

variable {κ : Type u} {β : Type v}

/-- **Every entry was logged** less than `lifetime` ago.  The converse is not claimed: what was
logged need not have been entered. -/
structure Backed (time : β → ℕ) (lifetime now : ℕ) (table : κ → Option β)
    (log : List (κ × β)) : Prop where
  logged : ∀ key value, table key = some value → (key, value) ∈ log
  young : ∀ key value, table key = some value → now < time value + lifetime
  past : ∀ e ∈ log, time e.2 ≤ now

variable {time : β → ℕ} {lifetime now : ℕ} {table : κ → Option β} {log : List (κ × β)}

/-- The empty table knows nothing. -/
theorem backed_empty : Backed time lifetime now (fun _ : κ => none) [] where
  logged := by
    intro key value h
    cases h
  young := by
    intro key value h
    cases h
  past := by
    intro e he
    cases he

/-- The entries that are `lifetime` old are removed. -/
def purge (time : β → ℕ) (lifetime now : ℕ) (table : κ → Option β) : κ → Option β :=
  fun key => (table key).filter fun value => now < time value + lifetime

/-- Purging later keeps a table backed: what is left is young at the later time. -/
theorem Backed.purge (h : Backed time lifetime now table log) {later : ℕ} (hle : now ≤ later) :
    Backed time lifetime later (purge time lifetime later table) log where
  logged := by
    intro key value hv
    exact h.logged key value (Option.filter_eq_some_iff.mp hv).1
  young := by
    intro key value hv
    exact of_decide_eq_true (Option.filter_eq_some_iff.mp hv).2
  past := by
    intro e he
    exact (h.past e he).trans hle

variable [DecidableEq κ]

/-- A value is entered for a key that has none. -/
def record (table : κ → Option β) (key : κ) (value : β) : κ → Option β :=
  Function.update table key ((table key).or (some value))

/-- The value that was logged last for a key. -/
def latest (log : List (κ × β)) (key : κ) : Option β :=
  ((log.filter fun e => e.1 = key).map Prod.snd).getLast?

section Record

variable {key : κ} {value : β}

theorem record_of_ne {other : κ} (h : other ≠ key) :
    record table key value other = table other := Function.update_of_ne h ..

theorem record_self : record table key value key = (table key).or (some value) :=
  Function.update_self ..

/-- After a value has been recorded, the key has one. -/
theorem record_self_ne_none : record table key value key ≠ none := by
  rw [record_self]
  cases table key <;> simp

/-- A key that has a value keeps it. -/
theorem record_of_some {entry : β} (h : table key = some entry) :
    record table key value = table := by
  rw [record, h, Option.some_or, ← h, Function.update_eq_self]

/-- The value is there afterwards exactly if there was none, or the same. -/
theorem record_self_eq_some :
    record table key value key = some value ↔ table key = none ∨ table key = some value := by
  rw [record_self]
  cases table key with
  | none => simp
  | some entry => simp

end Record

theorem latest_append_of_ne {log : List (κ × β)} {e : κ × β} {key : κ} (h : e.1 ≠ key) :
    latest (log ++ [e]) key = latest log key := by
  rw [latest, latest, List.filter_append, List.filter_cons_of_neg (by simpa using h),
    List.filter_nil, List.append_nil]

/-- What is logged last is the latest. -/
theorem latest_append_self (log : List (κ × β)) (key : κ) (value : β) :
    latest (log ++ [(key, value)]) key = some value := by
  rw [latest, List.filter_append, List.filter_cons_of_pos (by simp), List.filter_nil, List.map_append,
    List.map_singleton, List.getLast?_append, List.getLast?_singleton, Option.some_or]

/-- The latest value was logged. -/
theorem mem_of_latest {log : List (κ × β)} {key : κ} {value : β}
    (h : latest log key = some value) : (key, value) ∈ log := by
  obtain ⟨⟨key', value'⟩, hmem, rfl⟩ := List.mem_map.mp (List.mem_of_getLast? h)
  obtain ⟨hlog, hkey⟩ := List.mem_filter.mp hmem
  obtain rfl : key' = key := of_decide_eq_true hkey
  exact hlog

/-- **The entries are exactly** what was logged less than `lifetime` ago. -/
structure Exact (time : β → ℕ) (lifetime now : ℕ) (table : κ → Option β)
    (log : List (κ × β)) : Prop extends Backed time lifetime now table log where
  kept : ∀ e ∈ log, now < time e.2 + lifetime → table e.1 = some e.2
  ordered : ∀ e ∈ log, ∃ value, latest log e.1 = some value ∧ time e.2 ≤ time value

theorem exact_empty : Exact time lifetime now (fun _ : κ => none) [] where
  toBacked := backed_empty
  kept := by
    intro e he
    cases he
  ordered := by
    intro e he
    cases he

/-- **Recording keeps a table backed**, whether the value is entered or not. -/
theorem Backed.record (h : Backed time lifetime now table log) (positive : 0 < lifetime)
    (key : κ) {value : β} (present : time value = now) :
    Backed time lifetime now (record table key value) (log ++ [(key, value)]) := by
  -- an entry afterwards is one of before, or the new one
  have entry : ∀ k v, Expiry.record table key value k = some v →
      table k = some v ∨ k = key ∧ v = value := by
    intro k v hv
    by_cases same : k = key
    · subst same
      rw [record_self] at hv
      cases known : table k with
      | none =>
          rw [known] at hv
          exact Or.inr ⟨rfl, (Option.some.inj hv).symm⟩
      | some v' =>
          rw [known] at hv
          exact Or.inl hv
    · rw [record_of_ne same] at hv
      exact Or.inl hv
  refine ⟨?_, ?_, ?_⟩
  · intro k v hv
    rcases entry k v hv with old | ⟨rfl, rfl⟩
    · exact List.mem_append_left _ (h.logged k v old)
    · exact List.mem_append_right _ (List.mem_singleton_self _)
  · intro k v hv
    rcases entry k v hv with old | ⟨rfl, rfl⟩
    · exact h.young k v old
    · rw [present]
      exact Nat.lt_add_of_pos_right positive
  · intro e he
    rcases List.mem_append.mp he with old | new
    · exact h.past e old
    · rw [List.mem_singleton.mp new]
      exact present.le

/-- What was logged for a key without an entry is `lifetime` old. -/
theorem Exact.old (h : Exact time lifetime now table log) {key : κ} (absent : table key = none)
    {value : β} (logged : (key, value) ∈ log) : time value + lifetime ≤ now := by
  by_contra young
  have kept : table key = some value := h.kept _ logged (not_le.mp young)
  rw [absent] at kept
  cases kept

/-- **Recording keeps a table exact** if the key has no entry, or the same.  With another entry
the value would not be entered, and the table would miss what was logged last. -/
theorem Exact.record (h : Exact time lifetime now table log) (positive : 0 < lifetime)
    {key : κ} {value : β} (present : time value = now)
    (fresh : table key = none ∨ table key = some value) :
    Exact time lifetime now (record table key value) (log ++ [(key, value)]) where
  toBacked := h.toBacked.record positive key present
  kept := by
    intro e he young
    rcases List.mem_append.mp he with old | new
    · have kept := h.kept e old young
      by_cases same : e.1 = key
      · rw [same] at kept
        rw [record_of_some kept, same]
        exact kept
      · rw [record_of_ne same]
        exact kept
    · rw [List.mem_singleton.mp new]
      exact record_self_eq_some.mpr fresh
  ordered := by
    intro e he
    by_cases same : e.1 = key
    · -- the new value is the last one, and nothing is later than now
      refine ⟨value, by rw [same, latest_append_self], ?_⟩
      rw [present]
      exact (h.toBacked.record positive key present).past e he
    · have old : e ∈ log := by
        rcases List.mem_append.mp he with old | new
        · exact old
        · exact absurd (congrArg Prod.fst (List.mem_singleton.mp new)) same
      obtain ⟨last, hlast, hle⟩ := h.ordered e old
      exact ⟨last, by rw [latest_append_of_ne (Ne.symm same), hlast], hle⟩

/-- Purging keeps a table exact: only what is old goes. -/
theorem Exact.purge (h : Exact time lifetime now table log) {later : ℕ} (hle : now ≤ later) :
    Exact time lifetime later (purge time lifetime later table) log where
  toBacked := h.toBacked.purge hle
  kept := by
    intro e he young
    have kept := h.kept e he (lt_of_le_of_lt hle young)
    rw [Expiry.purge, kept]
    exact Option.filter_eq_some_iff.mpr ⟨rfl, decide_eq_true young⟩
  ordered := h.ordered

/-- **An exact table shows the latest value**, until it is `lifetime` old. -/
theorem Exact.lookup (h : Exact time lifetime now table log) (key : κ) :
    table key = (latest log key).filter fun value => now < time value + lifetime := by
  cases entry : table key with
  | none =>
      symm
      rw [Option.filter_eq_none_iff]
      intro value hlast young
      exact absurd (of_decide_eq_true young)
        (not_lt.mpr (h.old entry (mem_of_latest hlast)))
  | some value =>
      -- the entry was logged, so there is a latest value, which is younger still
      obtain ⟨last, hlast, hle⟩ := h.ordered _ (h.logged key value entry)
      have young : now < time last + lifetime :=
        lt_of_lt_of_le (h.young key value entry) (Nat.add_le_add_right hle _)
      have kept : table key = some last := h.kept _ (mem_of_latest hlast) young
      rw [entry] at kept
      rw [hlast, ← Option.some.inj kept]
      symm
      exact Option.filter_eq_some_iff.mpr ⟨rfl, decide_eq_true (h.young key value entry)⟩

end Expiry
