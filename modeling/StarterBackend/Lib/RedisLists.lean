/-
The list and sorted-set commands of Redis.

A list grows at its head (`LPUSH`) and is read from its tail (`RPOP`, `RPOPLPUSH`);
`LREM key 1 value` removes the first element equal to `value`, from the head.  A
sorted set maps its members to scores: its members are distinct, and it is listed
by ascending score, members of one score in lexicographic order.

Every command is one atomic step of the store.  What a command does to the values
that the store holds is said once, for all commands: `Command.holds_exec` and
`Command.exec_holds` for which values are held, `Command.count_exec` for how often.
-/
import Mathlib

namespace StarterBackend.Lib.Redis

/-! ### Sorted sets -/

/-- The order in which a sorted set lists its members. -/
def Ranked (a b : String × ℚ) : Prop := a.2 < b.2 ∨ (a.2 = b.2 ∧ a.1 ≤ b.1)

instance : DecidableRel Ranked := fun a b =>
  inferInstanceAs (Decidable (a.2 < b.2 ∨ (a.2 = b.2 ∧ a.1 ≤ b.1)))

instance : Std.Total Ranked where
  total a b := by
    rcases lt_trichotomy a.2 b.2 with h | h | h
    · exact .inl (.inl h)
    · rcases le_total a.1 b.1 with h' | h'
      · exact .inl (.inr ⟨h, h'⟩)
      · exact .inr (.inr ⟨h.symm, h'⟩)
    · exact .inr (.inl h)

instance : IsTrans (String × ℚ) Ranked where
  trans a b c := by
    rintro (h | ⟨h, h'⟩) (k | ⟨k, k'⟩)
    · exact .inl (h.trans k)
    · exact .inl (k ▸ h)
    · exact .inl (h ▸ k)
    · exact .inr ⟨h.trans k, h'.trans k'⟩

instance : Std.Antisymm Ranked where
  antisymm a b := by
    rintro (h | ⟨h, h'⟩) (k | ⟨k, k'⟩)
    · exact absurd k h.not_gt
    · exact absurd k h.ne'
    · exact absurd h k.ne'
    · exact Prod.ext (h'.antisymm k') h

/-- A sorted set: distinct members, listed by score. -/
structure SortedSet where
  items : List (String × ℚ)
  sorted : items.Pairwise Ranked
  nodup : (items.map Prod.fst).Nodup

namespace SortedSet

/-- The members, by ascending score. -/
def members (z : SortedSet) : List String := z.items.map Prod.fst

/-- The set without one member. -/
def erase (z : SortedSet) (m : String) : SortedSet where
  items := z.items.filter (·.1 ≠ m)
  sorted := z.sorted.filter _
  nodup := z.nodup.sublist (List.filter_sublist.map _)

lemma members_erase (z : SortedSet) (m : String) : (z.erase m).members = z.members.erase m := by
  rw [members, members, z.nodup.erase_eq_filter m, List.filter_map]
  simp only [erase]
  congr 2
  funext x
  simp [bne, Bool.beq_eq_decide_eq]

lemma not_mem_members_erase (z : SortedSet) (m : String) : m ∉ (z.erase m).members := by
  simp [members, erase]

/-- The set with one member at the given score, whatever its score was before. -/
def add (z : SortedSet) (m : String) (score : ℚ) : SortedSet where
  items := (z.erase m).items.orderedInsert Ranked (m, score)
  sorted := (z.erase m).sorted.orderedInsert _ _
  nodup := by
    have hperm := ((z.erase m).items.perm_orderedInsert Ranked (m, score)).map Prod.fst
    exact hperm.nodup_iff.2 (List.nodup_cons.2 ⟨z.not_mem_members_erase m, (z.erase m).nodup⟩)

lemma members_add (z : SortedSet) (m : String) (score : ℚ) :
    (z.add m score).members.Perm (m :: z.members.erase m) := by
  rw [← members_erase]
  exact ((z.erase m).items.perm_orderedInsert Ranked (m, score)).map Prod.fst

/-- Adding a member changes nothing exactly when it is there with the same score. -/
lemma add_eq_self_iff {z : SortedSet} {m : String} {score : ℚ} :
    z.add m score = z ↔ (m, score) ∈ z.items := by
  constructor
  · intro h
    rw [← h]
    exact (List.mem_orderedInsert (r := Ranked)).2 (.inl rfl)
  · intro h
    have herase : (z.erase m).items = z.items.erase (m, score) := by
      rw [z.nodup.of_map.erase_eq_filter]
      refine List.filter_congr fun x hx => ?_
      have hiff : x.1 = m ↔ x = (m, score) :=
        ⟨fun heq => List.inj_on_of_nodup_map z.nodup hx h heq, fun heq => by rw [heq]⟩
      simp [hiff, bne, Bool.beq_eq_decide_eq]
    have hperm : (z.add m score).items.Perm z.items := by
      refine ((z.erase m).items.perm_orderedInsert Ranked (m, score)).trans ?_
      rw [herase]
      exact (List.perm_cons_erase h).symm
    have hitems := List.Perm.eq_of_pairwise (fun a b _ _ => antisymm) (z.add m score).sorted z.sorted hperm
    cases z
    simp only [add, mk.injEq] at hitems ⊢
    exact hitems

/-- The set without some members. -/
def eraseAll (z : SortedSet) (ms : List String) : SortedSet where
  items := z.items.filter (·.1 ∉ ms)
  sorted := z.sorted.filter _
  nodup := z.nodup.sublist (List.filter_sublist.map _)

lemma eraseAll_nil (z : SortedSet) : z.eraseAll [] = z := by
  cases z
  simp [eraseAll]

lemma eraseAll_cons (z : SortedSet) (m : String) (ms : List String) :
    z.eraseAll (m :: ms) = (z.erase m).eraseAll ms := by
  simp only [eraseAll, erase, SortedSet.mk.injEq, List.filter_filter]
  refine List.filter_congr fun i _ => ?_
  simp [Bool.and_comm]

/-- What a member that is added has as its score. -/
lemma mem_items_add {z : SortedSet} {m : String} {score : ℚ} {i : String × ℚ} :
    i ∈ (z.add m score).items ↔ i = (m, score) ∨ i ∈ z.items ∧ i.1 ≠ m := by
  simp [add, erase, List.mem_orderedInsert]

/-- The members with a score in the given range. -/
def rangeByScore (z : SortedSet) (low high : ℚ) : List String :=
  (z.items.filter fun i => low ≤ i.2 ∧ i.2 ≤ high).map Prod.fst

lemma rangeByScore_subset (z : SortedSet) (low high : ℚ) : z.rangeByScore low high ⊆ z.members :=
  (List.filter_sublist.map _).subset

instance : EmptyCollection SortedSet := ⟨⟨[], .nil, .nil⟩⟩

@[simp] lemma members_empty : (∅ : SortedSet).members = [] := rfl

end SortedSet

/-! ### Ranges of lists -/

/-- `LRANGE` of a list: the elements from `start` to `stop`, both included.  A negative index
counts from the end, `-1` is the last element. -/
def lrange (l : List String) (start stop : ℤ) : List String :=
  let start := if start < 0 then max 0 (l.length + start) else start
  let stop := if stop < 0 then l.length + stop else stop
  (l.drop start.toNat).take (stop + 1 - start).toNat

lemma lrange_subset (l : List String) (start stop : ℤ) : lrange l start stop ⊆ l :=
  fun _ hx => List.drop_subset _ _ (List.take_subset _ _ hx)

/-- Up to the last element the range is the whole list. -/
lemma lrange_zero_neg_one (l : List String) : lrange l 0 (-1) = l := by
  simp [lrange]

/-- A range from the head, up to an index that is not negative. -/
lemma lrange_zero_natCast (l : List String) (n : ℕ) : lrange l 0 n = l.take (n + 1) := by
  have hstop : ¬ (n : ℤ) < 0 := by omega
  have hcount : ((n : ℤ) + 1 - 0).toNat = n + 1 := by omega
  simp only [lrange, lt_irrefl, if_false, if_neg hstop, hcount, Int.toNat_zero, List.drop_zero]

/-! ### Stores and commands -/

/-- The lists and the sorted sets of a store, empty where a key does not exist. -/
structure Lists (K : Type*) where
  list : K → List String
  zset : K → SortedSet

/-- The commands on lists and sorted sets. -/
inductive Command (K : Type*) where
  | lpush (key : K) (value : String)
  | rpop (key : K)
  | rpoplpush (source destination : K)
  | lrem (key : K) (value : String)
  | lrangeAll (key : K)
  | zadd (key : K) (m : String) (score : ℚ)
  | zrem (key : K) (m : String)
  | zrangebyscore (key : K) (low high : ℚ)

namespace Command

variable {K : Type*}

/-- The reply of a command.  `LREM` and `ZREM` reply whether they removed something, `ZADD`
whether the member is new. -/
def Reply : Command K → Type
  | lpush _ _ => Unit
  | rpop _ => Option String
  | rpoplpush _ _ => Option String
  | lrem _ _ => Bool
  | lrangeAll _ => List String
  | zadd _ _ _ => Bool
  | zrem _ _ => Bool
  | zrangebyscore _ _ _ => List String

variable [DecidableEq K]

/-- The reply of a command and the store after it. -/
def exec : (c : Command K) → Lists K → c.Reply × Lists K
  | .lpush key value, s =>
      ((), { s with list := Function.update s.list key (value :: s.list key) })
  | .rpop key, s =>
      ((s.list key).getLast?,
        { s with list := Function.update s.list key (s.list key).dropLast })
  | .rpoplpush source destination, s =>
      match (s.list source).getLast? with
      | none => (none, s)
      | some value =>
          let popped := Function.update s.list source (s.list source).dropLast
          (some value,
            { s with list := Function.update popped destination (value :: popped destination) })
  | .lrem key value, s =>
      (decide (value ∈ s.list key),
        { s with list := Function.update s.list key ((s.list key).erase value) })
  | .lrangeAll key, s => (s.list key, s)
  | .zadd key m score, s =>
      (decide (m ∉ (s.zset key).members),
        { s with zset := Function.update s.zset key ((s.zset key).add m score) })
  | .zrem key m, s =>
      (decide (m ∈ (s.zset key).members),
        { s with zset := Function.update s.zset key ((s.zset key).erase m) })
  | .zrangebyscore key low high, s => ((s.zset key).rangeByScore low high, s)

/-! ### What a command takes out and puts in -/

/-- The value that a command with this reply has taken out of the store. -/
def taken : (c : Command K) → c.Reply → Option String
  | .rpop _, r => r
  | .lrem _ value, (r : Bool) => if r then some value else none
  | .zrem _ m, (r : Bool) => if r then some m else none
  | _, _ => none

/-- The value that a command writes to the store. -/
def given : Command K → Option String
  | .lpush _ value => some value
  | .zadd _ m _ => some m
  | _ => none

/-- The value that a command with this reply has added: not a member that was there. -/
def added : (c : Command K) → c.Reply → Option String
  | .lpush _ value, _ => some value
  | .zadd _ m _, (r : Bool) => if r then some m else none
  | _, _ => none

/-- The values that a command reads in the store. -/
def seen : (c : Command K) → c.Reply → List String
  | .rpop _, r => r.toList
  | .rpoplpush _ _, r => r.toList
  | .lrangeAll _, r => r
  | .zrangebyscore _ _ _, r => r
  | _, _ => []

end Command

namespace Lists

variable {K : Type*}

/-- The value is in some list or sorted set. -/
def Holds (s : Lists K) (value : String) : Prop :=
  (∃ key, value ∈ s.list key) ∨ ∃ key, value ∈ (s.zset key).members

/-- The value is in the list or in the sorted set of a key. -/
def HoldsAt (s : Lists K) (key : K) (value : String) : Prop :=
  value ∈ s.list key ∨ value ∈ (s.zset key).members

/-- How many entries of the lists and the sorted sets satisfy `p`. -/
def count [Fintype K] (s : Lists K) (p : String → Bool) : ℕ :=
  ∑ key, (s.list key).countP p + ∑ key, (s.zset key).members.countP p

lemma count_pos_iff [Fintype K] {s : Lists K} {p : String → Bool} :
    0 < s.count p ↔ ∃ value, s.Holds value ∧ p value = true := by
  simp only [count, Nat.add_pos_iff_pos_or_pos, Finset.sum_pos_iff, Finset.mem_univ, true_and,
    List.countP_pos_iff, Holds]
  constructor
  · rintro (⟨key, v, hv, hp⟩ | ⟨key, v, hv, hp⟩)
    · exact ⟨v, .inl ⟨key, hv⟩, hp⟩
    · exact ⟨v, .inr ⟨key, hv⟩, hp⟩
  · rintro ⟨v, ⟨key, hv⟩ | ⟨key, hv⟩, hp⟩
    · exact .inl ⟨key, v, hv, hp⟩
    · exact .inr ⟨key, v, hv, hp⟩

end Lists

/-! ### What a command does to the values held -/

namespace Lists

variable {K : Type*} [DecidableEq K] {s : Lists K} {key : K} {x : String}

lemma holds_of_update_list {v : List String}
    (h : Holds { s with list := Function.update s.list key v } x) : x ∈ v ∨ s.Holds x := by
  rcases h with ⟨k, hk⟩ | hz
  · by_cases hkey : k = key
    · subst hkey
      exact .inl (by simpa using hk)
    · exact .inr (.inl ⟨k, by simpa [hkey] using hk⟩)
  · exact .inr (.inr hz)

lemma holdsAt_of_update_list {k : K} {v : List String}
    (h : HoldsAt { s with list := Function.update s.list key v } k x) :
    k = key ∧ x ∈ v ∨ s.HoldsAt k x := by
  rcases h with h | h
  · rcases eq_or_ne k key with rfl | hk
    · exact .inl ⟨rfl, by simpa using h⟩
    · exact .inr (.inl (by simpa [hk] using h))
  · exact .inr (.inr h)

lemma holdsAt_of_update_zset {k : K} {z : SortedSet}
    (h : HoldsAt { s with zset := Function.update s.zset key z } k x) :
    k = key ∧ x ∈ z.members ∨ s.HoldsAt k x := by
  rcases h with h | h
  · exact .inr (.inl h)
  · rcases eq_or_ne k key with rfl | hk
    · exact .inl ⟨rfl, by simpa using h⟩
    · exact .inr (.inr (by simpa [hk] using h))

lemma Holds.update_list (h : s.Holds x) (key : K) (v : List String) :
    Holds { s with list := Function.update s.list key v } x ∨ x ∈ s.list key ∧ x ∉ v := by
  rcases h with ⟨k, hk⟩ | hz
  · by_cases hkey : k = key
    · subst hkey
      by_cases hv : x ∈ v
      · exact .inl (.inl ⟨k, by simpa using hv⟩)
      · exact .inr ⟨hk, hv⟩
    · exact .inl (.inl ⟨k, by simpa [hkey] using hk⟩)
  · exact .inl (.inr hz)

lemma holds_of_update_zset {z : SortedSet}
    (h : Holds { s with zset := Function.update s.zset key z } x) :
    x ∈ z.members ∨ s.Holds x := by
  rcases h with hl | ⟨k, hk⟩
  · exact .inr (.inl hl)
  · by_cases hkey : k = key
    · subst hkey
      exact .inl (by simpa using hk)
    · exact .inr (.inr ⟨k, by simpa [hkey] using hk⟩)

lemma Holds.update_zset (h : s.Holds x) (key : K) (z : SortedSet) :
    Holds { s with zset := Function.update s.zset key z } x ∨
      x ∈ (s.zset key).members ∧ x ∉ z.members := by
  rcases h with hl | ⟨k, hk⟩
  · exact .inl (.inl hl)
  · by_cases hkey : k = key
    · subst hkey
      by_cases hz : x ∈ z.members
      · exact .inl (.inr ⟨k, by simpa using hz⟩)
      · exact .inr ⟨hk, hz⟩
    · exact .inl (.inr ⟨k, by simpa [hkey] using hk⟩)

end Lists

namespace Command

variable {K : Type*} [DecidableEq K] {s : Lists K} {x : String}

lemma exec_rpoplpush_reply {source destination : K} :
    (((rpoplpush source destination).exec s).1 : Option String) = (s.list source).getLast? := by
  rcases hlast : (s.list source).getLast? with _ | value <;> simp only [exec, hlast] <;> rfl

/-- A command adds only what it is given. -/
lemma holds_of_exec {c : Command K} (h : (c.exec s).2.Holds x) :
    s.Holds x ∨ c.given = some x := by
  cases c with
  | lpush key value =>
      rcases Lists.holds_of_update_list h with hx | hx
      · rcases List.mem_cons.1 hx with rfl | hx
        · exact .inr rfl
        · exact .inl (.inl ⟨key, hx⟩)
      · exact .inl hx
  | rpop key =>
      rcases Lists.holds_of_update_list h with hx | hx
      · exact .inl (.inl ⟨key, List.mem_of_mem_dropLast hx⟩)
      · exact .inl hx
  | rpoplpush source destination =>
      rcases hlast : (s.list source).getLast? with _ | value
      · exact .inl (by simpa [exec, hlast] using h)
      · have hpopped : ∀ y, Lists.Holds
            { s with list := Function.update s.list source (s.list source).dropLast } y →
            s.Holds y := fun y hy => by
          rcases Lists.holds_of_update_list hy with hy | hy
          · exact .inl ⟨source, List.mem_of_mem_dropLast hy⟩
          · exact hy
        simp only [exec, hlast] at h
        rcases Lists.holds_of_update_list (s := ⟨_, s.zset⟩) h with hx | hx
        · rcases List.mem_cons.1 hx with rfl | hx
          · exact .inl (.inl ⟨source, List.mem_of_getLast? hlast⟩)
          · exact .inl (hpopped x (.inl ⟨destination, hx⟩))
        · exact .inl (hpopped x hx)
  | lrem key value =>
      rcases Lists.holds_of_update_list h with hx | hx
      · exact .inl (.inl ⟨key, List.mem_of_mem_erase hx⟩)
      · exact .inl hx
  | lrangeAll key => exact .inl h
  | zadd key m score =>
      rcases Lists.holds_of_update_zset h with hx | hx
      · rcases List.mem_cons.1 (((s.zset key).members_add m score).mem_iff.1 hx) with rfl | hx
        · exact .inr rfl
        · exact .inl (.inr ⟨key, List.mem_of_mem_erase hx⟩)
      · exact .inl hx
  | zrem key m =>
      rcases Lists.holds_of_update_zset h with hx | hx
      · rw [SortedSet.members_erase] at hx
        exact .inl (.inr ⟨key, List.mem_of_mem_erase hx⟩)
      · exact .inl hx
  | zrangebyscore key low high => exact .inl h

/-- A command loses only what it takes out. -/
lemma holds_exec {c : Command K} (h : s.Holds x) :
    (c.exec s).2.Holds x ∨ c.taken (c.exec s).1 = some x := by
  cases c with
  | lpush key value =>
      rcases h.update_list key (value :: s.list key) with hx | ⟨hx, hnot⟩
      · exact .inl hx
      · exact absurd (List.mem_cons_of_mem _ hx) hnot
  | rpop key =>
      rcases h.update_list key (s.list key).dropLast with hx | ⟨hx, hnot⟩
      · exact .inl hx
      · refine .inr ?_
        change (s.list key).getLast? = some x
        rcases List.eq_nil_or_concat (s.list key) with hnil | ⟨l, a, hl⟩
        · simp [hnil] at hx
        · simp only [hl, List.concat_eq_append, List.dropLast_concat] at hx hnot
          have hxa : x = a := by simpa [hnot] using hx
          simp [hl, hxa]
  | rpoplpush source destination =>
      rcases hlast : (s.list source).getLast? with _ | value
      · exact .inl (by simpa [exec, hlast] using h)
      · refine .inl ?_
        simp only [exec, hlast]
        rcases h.update_list source (s.list source).dropLast with hx | ⟨hx, hnot⟩
        · rcases hx.update_list destination (value ::
            Function.update s.list source (s.list source).dropLast destination) with hy | ⟨hy, hnot⟩
          · exact hy
          · exact absurd (List.mem_cons_of_mem _ hy) hnot
        · have hxv : x = value := by
            have hlist := List.dropLast_append_getLast? value hlast
            rw [← hlist] at hx
            simpa [hnot] using hx
          exact .inl ⟨destination, by simp [hxv]⟩
  | lrem key value =>
      rcases h.update_list key ((s.list key).erase value) with hx | ⟨hx, hnot⟩
      · exact .inl hx
      · have hxv : x = value := by
          by_contra hne
          exact hnot ((List.mem_erase_of_ne hne).2 hx)
        refine .inr ?_
        change (if decide (value ∈ s.list key) = true then some value else none) = some x
        rw [← hxv, decide_eq_true hx, if_pos rfl]
  | lrangeAll key => exact .inl h
  | zadd key m score =>
      rcases h.update_zset key ((s.zset key).add m score) with hx | ⟨hx, hnot⟩
      · exact .inl hx
      · rw [((s.zset key).members_add m score).mem_iff, List.mem_cons, not_or] at hnot
        exact absurd ((List.mem_erase_of_ne hnot.1).2 hx) hnot.2
  | zrem key m =>
      rcases h.update_zset key ((s.zset key).erase m) with hx | ⟨hx, hnot⟩
      · exact .inl hx
      · rw [SortedSet.members_erase] at hnot
        have hxm : x = m := by
          by_contra hne
          exact hnot ((List.mem_erase_of_ne hne).2 hx)
        refine .inr ?_
        change (if decide (m ∈ (s.zset key).members) = true then some m else none) = some x
        rw [← hxm, decide_eq_true hx, if_pos rfl]
  | zrangebyscore key low high => exact .inl h

/-- What a command is given is in the store after it. -/
lemma holds_given {c : Command K} (h : c.given = some x) : (c.exec s).2.Holds x := by
  cases c with
  | lpush key value =>
      obtain rfl : value = x := by simpa [given] using h
      exact .inl ⟨key, by simp [exec]⟩
  | zadd key m score =>
      obtain rfl : m = x := by simpa [given] using h
      exact .inr ⟨key, by simp [exec, ((s.zset key).members_add m score).mem_iff]⟩
  | rpop => simp [given] at h
  | rpoplpush => simp [given] at h
  | lrem => simp [given] at h
  | lrangeAll => simp [given] at h
  | zrem => simp [given] at h
  | zrangebyscore => simp [given] at h

/-- What a command reads was in the store before it. -/
lemma holds_of_seen {c : Command K} (h : x ∈ c.seen (c.exec s).1) : s.Holds x := by
  cases c with
  | rpop key =>
      change x ∈ (s.list key).getLast?.toList at h
      exact .inl ⟨key, List.mem_of_getLast? (by simpa using h)⟩
  | rpoplpush source destination =>
      change x ∈ Option.toList ((rpoplpush source destination).exec s).1 at h
      rw [exec_rpoplpush_reply] at h
      exact .inl ⟨source, List.mem_of_getLast? (by simpa using h)⟩
  | lrangeAll key => exact .inl ⟨key, h⟩
  | zrangebyscore key low high => exact .inr ⟨key, (s.zset key).rangeByScore_subset low high h⟩
  | lpush => exact absurd h List.not_mem_nil
  | lrem => exact absurd h List.not_mem_nil
  | zadd => exact absurd h List.not_mem_nil
  | zrem => exact absurd h List.not_mem_nil

/-- The value that a command with this reply puts into the list or the sorted set of a key. -/
def places : (c : Command K) → c.Reply → Option (K × String)
  | .lpush key value, _ => some (key, value)
  | .rpoplpush _ destination, (r : Option String) => r.map fun value => (destination, value)
  | .zadd key m _, _ => some (key, m)
  | _, _ => none

/-- What is at a key after a command was there before, or the command has placed it there. -/
lemma holdsAt_of_exec {c : Command K} {key : K} (h : (c.exec s).2.HoldsAt key x) :
    s.HoldsAt key x ∨ c.places (c.exec s).1 = some (key, x) := by
  cases c with
  | lpush key' value =>
      rcases Lists.holdsAt_of_update_list h with ⟨rfl, h⟩ | h
      · rcases List.mem_cons.1 h with rfl | h
        · exact .inr rfl
        · exact .inl (.inl h)
      · exact .inl h
  | rpop key' =>
      rcases Lists.holdsAt_of_update_list h with ⟨rfl, h⟩ | h
      · exact .inl (.inl (List.mem_of_mem_dropLast h))
      · exact .inl h
  | rpoplpush source destination =>
      have hpopped : ∀ k, Lists.HoldsAt
          { s with list := Function.update s.list source (s.list source).dropLast } k x →
          s.HoldsAt k x := fun k hk => by
        rcases Lists.holdsAt_of_update_list hk with ⟨rfl, hk⟩ | hk
        · exact .inl (List.mem_of_mem_dropLast hk)
        · exact hk
      rcases hlast : (s.list source).getLast? with _ | value
      · simp only [exec, hlast] at h
        exact .inl h
      · simp only [exec, hlast] at h ⊢
        rcases Lists.holdsAt_of_update_list
          (s := { s with list := Function.update s.list source (s.list source).dropLast }) h with
          ⟨rfl, h⟩ | h
        · rcases List.mem_cons.1 h with rfl | h
          · exact .inr rfl
          · exact .inl (hpopped _ (.inl h))
        · exact .inl (hpopped _ h)
  | lrem key' value =>
      rcases Lists.holdsAt_of_update_list h with ⟨rfl, h⟩ | h
      · exact .inl (.inl (List.mem_of_mem_erase h))
      · exact .inl h
  | zadd key' m score =>
      rcases Lists.holdsAt_of_update_zset h with ⟨rfl, h⟩ | h
      · rcases List.mem_cons.1 ((SortedSet.members_add _ _ _).mem_iff.1 h) with rfl | h
        · exact .inr rfl
        · exact .inl (.inr (List.mem_of_mem_erase h))
      · exact .inl h
  | zrem key' m =>
      rcases Lists.holdsAt_of_update_zset h with ⟨rfl, h⟩ | h
      · rw [SortedSet.members_erase] at h
        exact .inl (.inr (List.mem_of_mem_erase h))
      · exact .inl h
  | lrangeAll key' => exact .inl h
  | zrangebyscore key' low high => exact .inl h

/-- The command puts a value into the list of a key. -/
def fills (key : K) : Command K → Bool
  | .lpush key' _ => key' == key
  | .rpoplpush _ destination => destination == key
  | _ => false

/-- The other commands add nothing to the list. -/
lemma mem_list_of_exec {c : Command K} {key : K} (hc : c.fills key = false)
    (h : x ∈ (c.exec s).2.list key) : x ∈ s.list key := by
  have hupdate : ∀ (l : K → List String) (k : K) (v : List String), (∀ y ∈ v, y ∈ l k) →
      x ∈ Function.update l k v key → x ∈ l key := fun l k v hv hx => by
    rcases eq_or_ne key k with rfl | hk
    · exact hv x (by simpa using hx)
    · simpa [hk] using hx
  cases c with
  | lpush key' value =>
      have hk : key ≠ key' := fun heq => by simp [fills, heq] at hc
      simpa [exec, hk] using h
  | rpop key' => exact hupdate _ _ _ (fun _ => List.mem_of_mem_dropLast) h
  | rpoplpush source destination =>
      have hk : key ≠ destination := fun heq => by simp [fills, heq] at hc
      rcases hlast : (s.list source).getLast? with _ | value
      · simpa [exec, hlast] using h
      · refine hupdate s.list source _ (fun _ => List.mem_of_mem_dropLast) ?_
        simpa [exec, hlast, hk] using h
  | lrem key' value => exact hupdate _ _ _ (fun _ => List.mem_of_mem_erase) h
  | _ => exact h
end Command

/-! ### How often the values are held -/

/-- Replacing one of finitely many lists changes the sum of the counts by that list. -/
lemma sum_countP_update {K α : Type*} [Fintype K] [DecidableEq K] (l : K → List α) (key : K)
    (v : List α) (p : α → Bool) :
    ∑ k, (Function.update l key v k).countP p + (l key).countP p =
      ∑ k, (l k).countP p + v.countP p := by
  have hrest : ∑ k ∈ Finset.univ.erase key, (Function.update l key v k).countP p =
      ∑ k ∈ Finset.univ.erase key, (l k).countP p :=
    Finset.sum_congr rfl fun k hk => by
      rw [Function.update_of_ne (Finset.ne_of_mem_erase hk)]
  rw [← Finset.add_sum_erase _ _ (Finset.mem_univ key),
    ← Finset.add_sum_erase (a := key) _ (fun k => (l k).countP p) (Finset.mem_univ key), hrest,
    Function.update_self]
  ring

lemma Lists.count_update_list {K : Type*} [Fintype K] [DecidableEq K] (s : Lists K) (key : K)
    (v : List String) (p : String → Bool) :
    Lists.count { s with list := Function.update s.list key v } p + (s.list key).countP p =
      s.count p + v.countP p := by
  have hsum := sum_countP_update s.list key v p
  simp only [Lists.count]
  omega

lemma Lists.count_update_zset {K : Type*} [Fintype K] [DecidableEq K] (s : Lists K) (key : K)
    (z : SortedSet) (p : String → Bool) :
    Lists.count { s with zset := Function.update s.zset key z } p +
      (s.zset key).members.countP p = s.count p + z.members.countP p := by
  have hsum := sum_countP_update (fun k => (s.zset k).members) key z.members p
  have hupdate : ∀ k, (Function.update s.zset key z k).members =
      Function.update (fun k => (s.zset k).members) key z.members k := fun k => by
    by_cases hk : k = key
    · subst hk
      simp
    · simp [hk]
  simp only [Lists.count, hupdate]
  omega

lemma countP_dropLast_add {α : Type*} (l : List α) (p : α → Bool) :
    l.dropLast.countP p + l.getLast?.toList.countP p = l.countP p := by
  rcases List.eq_nil_or_concat l with rfl | ⟨l, a, rfl⟩
  · rfl
  · simp [List.countP_append]

lemma countP_erase_add {l : List String} {x : String} (p : String → Bool) :
    (l.erase x).countP p + (if decide (x ∈ l) = true then some x else none).toList.countP p =
      l.countP p := by
  by_cases hx : x ∈ l
  · rw [decide_eq_true hx, if_pos rfl, (List.perm_cons_erase hx).countP_eq p]
    simp [List.countP_cons]
  · rw [decide_eq_false hx, List.erase_of_not_mem hx]
    rfl

namespace Command

variable {K : Type*} [DecidableEq K] [Fintype K] {s : Lists K}

/-- **Conservation.** The entries after a command and those it has taken out are the entries
before it and those it has added. -/
theorem count_exec (c : Command K) (p : String → Bool) :
    (c.exec s).2.count p + (c.taken (c.exec s).1).toList.countP p =
      s.count p + (c.added (c.exec s).1).toList.countP p := by
  cases c with
  | lpush key value =>
      have hcount := s.count_update_list key (value :: s.list key) p
      have hcons : (value :: s.list key).countP p = (s.list key).countP p + [value].countP p := by
        simp [List.countP_cons]
      change Lists.count { s with list := Function.update s.list key (value :: s.list key) } p + 0 =
        s.count p + [value].countP p
      omega
  | rpop key =>
      have hcount := s.count_update_list key (s.list key).dropLast p
      have hlast := countP_dropLast_add (s.list key) p
      change Lists.count { s with list := Function.update s.list key (s.list key).dropLast } p +
        (s.list key).getLast?.toList.countP p = s.count p + 0
      omega
  | rpoplpush source destination =>
      change ((rpoplpush source destination).exec s).2.count p + 0 = s.count p + 0
      rcases hlast : (s.list source).getLast? with _ | value
      · simp only [exec, hlast]
      · have hpop := s.count_update_list source (s.list source).dropLast p
        have hpush := Lists.count_update_list
          { s with list := Function.update s.list source (s.list source).dropLast } destination
          (value :: Function.update s.list source (s.list source).dropLast destination) p
        have hvalue := countP_dropLast_add (s.list source) p
        simp only [hlast, Option.toList_some, List.countP_cons, List.countP_nil] at hvalue hpush
        simp only [exec, hlast]
        omega
  | lrem key value =>
      have hcount := s.count_update_list key ((s.list key).erase value) p
      have herase := countP_erase_add (l := s.list key) (x := value) p
      change Lists.count { s with list := Function.update s.list key ((s.list key).erase value) } p +
        (if decide (value ∈ s.list key) = true then some value else none).toList.countP p =
          s.count p + 0
      omega
  | lrangeAll key => rfl
  | zadd key m score =>
      have hcount := s.count_update_zset key ((s.zset key).add m score) p
      have hadd := ((s.zset key).members_add m score).countP_eq p
      have herase := countP_erase_add (l := (s.zset key).members) (x := m) p
      change Lists.count { s with zset := Function.update s.zset key ((s.zset key).add m score) } p +
        0 = s.count p +
          (if decide (m ∉ (s.zset key).members) = true then some m else none).toList.countP p
      by_cases hm : m ∈ (s.zset key).members
      · simp only [hm, List.countP_cons, decide_true, decide_false, not_true_eq_false, if_true,
          Bool.false_eq_true, if_false, Option.toList_some, Option.toList_none,
          List.countP_nil] at hadd herase ⊢
        omega
      · simp only [hm, List.countP_cons, decide_true, decide_false, not_false_eq_true, if_true,
          Bool.false_eq_true, if_false, Option.toList_some, Option.toList_none,
          List.countP_nil] at hadd herase ⊢
        omega
  | zrem key m =>
      have hcount := s.count_update_zset key ((s.zset key).erase m) p
      have herase := countP_erase_add (l := (s.zset key).members) (x := m) p
      rw [SortedSet.members_erase] at hcount
      change Lists.count { s with zset := Function.update s.zset key ((s.zset key).erase m) } p +
        (if decide (m ∈ (s.zset key).members) = true then some m else none).toList.countP p =
          s.count p + 0
      omega
  | zrangebyscore key low high => rfl

end Command

end StarterBackend.Lib.Redis
