/-
The string keys of Redis, with their times to live.

A key that is set with a time to live is there until its deadline.  When the deadline
has passed, the server removes the key at some later time of its own choice, so whether
it is still seen is an input of every command that looks (`lingers`); what is proved
about a key before its deadline does not depend on it.
-/
import StarterBackend.Lib.PyText
import Mathlib.Algebra.Order.Field.Basic

namespace StarterBackend.Lib.Redis

/-- The value of a key, and its deadline if it has one. -/
structure Entry (K : Type*) where
  value : String
  deadline : Option K

/-- The keys of a Redis database. -/
def Keys (K : Type*) : Type _ := String → Option (Entry K)

namespace Keys

section Update

variable {K : Type*}

/-- No key is set. -/
def empty : Keys K := fun _ => none

/-- The keys after one of them got an entry. -/
def put (keys : Keys K) (key : String) (entry : Entry K) : Keys K :=
  Function.update keys key (some entry)

/-- `DEL key`. -/
def delete (keys : Keys K) (key : String) : Keys K := Function.update keys key none

variable {keys : Keys K} {key other : String} {e : Entry K}

@[simp] lemma put_self : keys.put key e key = some e := Function.update_self ..

lemma put_of_ne (h : other ≠ key) : keys.put key e other = keys other := Function.update_of_ne h ..

@[simp] lemma delete_self : keys.delete key key = none := Function.update_self ..

lemma delete_of_ne (h : other ≠ key) : keys.delete key other = keys other :=
  Function.update_of_ne h ..

end Update

section Lookup

variable {K : Type*} [LinearOrder K]

/-- A key is still there at the time `now`. -/
def present (now : K) (lingers : Bool) (entry : Entry K) : Bool :=
  entry.deadline.all fun deadline => decide (now < deadline) || lingers

/-- The entry of a key, as a command sees it. -/
def entry (keys : Keys K) (now : K) (lingers : Bool) (key : String) : Option (Entry K) :=
  (keys key).filter (present now lingers)

/-- `GET key`. -/
def get (keys : Keys K) (now : K) (lingers : Bool) (key : String) : Option String :=
  (keys.entry now lingers key).map Entry.value

/-- `EXISTS key`. -/
def contains (keys : Keys K) (now : K) (lingers : Bool) (key : String) : Bool :=
  (keys.entry now lingers key).isSome

/-- `INCR key`: the new value, or nothing when the old one is no integer.  The deadline of a key
that is there stays. -/
def incr (keys : Keys K) (now : K) (lingers : Bool) (key : String) : Option (ℤ × Keys K) :=
  match keys.entry now lingers key with
  | none => some (1, keys.put key ⟨"1", none⟩)
  | some entry =>
      (PyText.parseInt entry.value).map fun n =>
        (n + 1, keys.put key { entry with value := (n + 1).repr })

/-- The key is set and its deadline, if it has one, is not before `time`. -/
def HeldUntil (keys : Keys K) (key : String) (time : K) : Prop :=
  ∃ entry, keys key = some entry ∧ ∀ deadline ∈ entry.deadline, time ≤ deadline

variable {keys : Keys K} {key other : String} {now time : K} {lingers : Bool} {e : Entry K}

/-- What a command sees of a key depends on that key alone. -/
lemma entry_congr {keys' : Keys K} (h : keys key = keys' key) :
    keys.entry now lingers key = keys'.entry now lingers key := by
  rw [entry, entry, h]

/-- Before its deadline a key is seen. -/
lemma HeldUntil.contains (h : keys.HeldUntil key time) (hnow : now < time) :
    keys.contains now lingers key = true := by
  obtain ⟨entry, hentry, hdeadline⟩ := h
  have hpresent : present now lingers entry = true := by
    rw [present, Option.all_eq_true]
    intro deadline heq
    have := hnow.trans_le (hdeadline deadline heq)
    simp [this]
  simp [Keys.contains, Keys.entry, hentry, hpresent]

/-- A key that is not set is not seen. -/
lemma contains_eq_false (h : keys key = none) : keys.contains now lingers key = false := by
  simp [contains, entry, h]

/-- **What an `INCR` writes**: a number, under its key. -/
lemma incr_eq_some {keys' : Keys K} {n : ℤ} (h : keys.incr now lingers key = some (n, keys')) :
    ∃ e, keys' = keys.put key e ∧ PyText.parseInt e.value = some n := by
  rcases hentry : keys.entry now lingers key with _ | entry
  · simp only [incr, hentry, Option.some.injEq, Prod.mk.injEq] at h
    obtain ⟨rfl, rfl⟩ := h
    exact ⟨_, rfl, PyText.parseInt_intRepr 1⟩
  · simp only [incr, hentry, Option.map_eq_some_iff, Prod.mk.injEq] at h
    obtain ⟨m, -, rfl, rfl⟩ := h
    exact ⟨_, rfl, PyText.parseInt_intRepr (m + 1)⟩

lemma heldUntil_put_self (h : ∀ deadline ∈ e.deadline, time ≤ deadline) :
    (keys.put key e).HeldUntil key time := ⟨e, put_self, h⟩

lemma HeldUntil.congr {keys' : Keys K} (h : keys.HeldUntil key time) (heq : keys' key = keys key) :
    keys'.HeldUntil key time := by
  obtain ⟨entry, hentry, hdeadline⟩ := h
  exact ⟨entry, heq.trans hentry, hdeadline⟩

end Lookup

section TimeToLive

variable {K : Type*} [Field K]

/-- `SET key value EX ttl`. -/
def setEx (keys : Keys K) (now : K) (key value : String) (ttl : ℤ) : Keys K :=
  keys.put key ⟨value, some (now + ttl)⟩

variable [LinearOrder K]

/-- `SET key value NX EX ttl`, and whether it set the key. -/
def setNxEx (keys : Keys K) (now : K) (lingers : Bool) (key value : String) (ttl : ℤ) :
    Bool × Keys K :=
  if keys.contains now lingers key then (false, keys) else (true, keys.setEx now key value ttl)

/-- `EXPIRE key ttl`. -/
def expire (keys : Keys K) (now : K) (lingers : Bool) (key : String) (ttl : ℤ) : Keys K :=
  match keys.entry now lingers key with
  | none => keys
  | some entry => keys.put key { entry with deadline := some (now + ttl) }

variable {keys : Keys K} {key value other : String} {now time : K} {ttl : ℤ}

omit [LinearOrder K] in
lemma setEx_of_ne (h : other ≠ key) : keys.setEx now key value ttl other = keys other :=
  put_of_ne h

lemma expire_of_ne {lingers : Bool} (h : other ≠ key) :
    keys.expire now lingers key ttl other = keys other := by
  unfold expire
  rcases keys.entry now lingers key with _ | entry
  · rfl
  · exact put_of_ne h

/-- `EXPIRE` of a key that has no deadline. -/
lemma expire_self {lingers : Bool} {entry : Entry K} (h : keys key = some entry)
    (hdeadline : entry.deadline = none) :
    keys.expire now lingers key ttl key = some { entry with deadline := some (now + ttl) } := by
  have hentry : keys.entry now lingers key = some entry := by
    simp [Keys.entry, h, present, hdeadline]
  simp [expire, hentry]

lemma heldUntil_setEx_self (h : time ≤ now + ttl) :
    (keys.setEx now key value ttl).HeldUntil key time :=
  heldUntil_put_self (by rintro _ ⟨rfl⟩; exact h)

end TimeToLive

end Keys

end StarterBackend.Lib.Redis
