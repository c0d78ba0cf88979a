/-
The rate limit over any window.

A call of `enforce_rate_limit_counter` increments the counter of its key, and the call
that creates the key lets it expire.  The key can only go away after that `EXPIRE`, so
it lives for the window at least.  In `rate_limit_window` the calls of a key are cut
into the lifetimes of the key, and each is counted at its `INCR`.
-/
import StarterBackend.Webhooks.Inbound
import StarterBackend.Lib.Lifetimes
import StarterBackend.Lib.Phases

namespace StarterBackend.RateLimits

open Lib Webhooks
open App (AppError)

section

variable {K : Type} [Field K] [LinearOrder K]

/-! ### The calls of all clients -/

/-- The limit and the window of every key. -/
structure Limits where
  limit : String → ℕ
  windowSeconds : String → ℕ

/-- The call of `enforce_rate_limit_counter` for a key. -/
def Limits.body (limits : Limits) (key : String) : WebhookProg K Unit :=
  enforceRateLimitCounter key (limits.limit key) (limits.windowSeconds key)

/-- Calls of any clients on any keys. -/
abbrev Calls (ι K : Type) := Pool ι String (WebhookProg K Unit) (World K)

/-- An `INCR` of a key, and whether it created the key. -/
structure Increment (ι K : Type) where
  client : ι
  time : K
  isNew : Bool

variable {ι : Type}

/-- The `INCR` of a key that an action is. -/
def increment (key : String) (s : Calls ι K) : PoolAction ι String (Env K) → Option (Increment ι K)
  | .step i e =>
      match s.calls i with
      | some (_, .call (.redisIncr key') _) =>
          if key' = key then some ⟨i, e.now, (s.store.keys.entry e.now e.lingers key).isNone⟩ else none
      | _ => none
  | _ => none

/-- No process dies, and Redis does not fail. -/
def Calm : PoolAction ι String (Env K) → Prop
  | .start _ _ => True
  | .step _ e => e.redisFails = false
  | .die _ => False

/-! ### Phases of a call -/

/-- The end of a call whose counter is `n`. -/
def verdict (limit : ℕ) (n : ℤ) : WebhookProg K Unit :=
  if (limit : ℤ) < n then .raise (.http 429 "Too many requests") else .ret ()

def redisUnavailable : AppError := .serviceUnavailable "Service temporarily unavailable"

/-- Where a call stands. -/
inductive Phase where
  | counting
  | expiring
  | judged (n : ℤ)
  | failed

/-- The rest of a call. -/
def Limits.program (limits : Limits) (key : String) : Phase → WebhookProg K Unit
  | .counting => limits.body key
  | .expiring =>
      .call (.redisExpire key (limits.windowSeconds key)) fun r =>
        (Prog.getOrRaise redisUnavailable r).bind fun _ => verdict (limits.limit key) 1
  | .judged n => verdict (limits.limit key) n
  | .failed => .raise redisUnavailable

omit [Field K] [LinearOrder K] in
/-- The call, one command after the other. -/
lemma Limits.body_eq (limits : Limits) (key : String) : limits.body (K := K) key =
    .call (.redisIncr key) fun r => (Prog.getOrRaise redisUnavailable r).bind fun n =>
      limits.program key (if n = 1 then .expiring else .judged n) := by
  have hcall : ∀ r : Option ℤ, (Prog.getOrRaise redisUnavailable r : WebhookProg K ℤ).bind
      (fun n => limits.program key (if n = 1 then .expiring else .judged n)) =
        (Prog.getOrRaise redisUnavailable r).bind fun n =>
          if n = 1 then limits.program key .expiring else verdict (limits.limit key) n := by
    intro r
    congr 1
    funext n
    split_ifs <;> rfl
  simp only [hcall]
  refine congrArg (Prog.call _) (funext fun r => ?_)
  cases r with
  | none => rfl
  | some n =>
      by_cases hn : n = 1
      · subst hn
        rfl
      · simp only [Prog.bind_def, Prog.getOrRaise, Prog.ret_bind, if_neg hn]
        rfl

/-! ### The counter of a key -/

/-- The calls that have counted, the lifetimes of the key, and its entry in Redis. -/
structure Counted (limits : Limits) (key : String) (phases : ι → Option (String × Phase))
    (w : World K) (log : List (Increment ι K)) : Prop where
  times : ∀ r ∈ log, r.time ≤ w.clock
  nodup : (log.map Increment.client).Nodup
  spaced : Spaced Increment.time (limits.windowSeconds key : K) (lifetimes Increment.isNew log)
  nonempty : ∀ L ∈ lifetimes Increment.isNew log, L ≠ []
  ranked : ∀ L ∈ lifetimes Increment.isNew log, ∀ (j : ℕ) r, L[j]? = some r →
    phases r.client = some (key, .judged ((j + 1 : ℕ) : ℤ)) ∨
      (j = 0 ∧ phases r.client = some (key, .expiring))
  unset : lifetimes Increment.isNew log = [] → w.keys key = none
  counter : ∀ L Ls, lifetimes Increment.isNew log = L :: Ls → ∃ deadline,
    w.keys key = some ⟨L.length.repr, deadline⟩ ∧
      ∀ d ∈ deadline, ∀ o ∈ L.head?, o.time + (limits.windowSeconds key : K) ≤ d
  expiring : ∀ i, phases i = some (key, .expiring) → ∃ L Ls,
    lifetimes Increment.isNew log = L :: Ls ∧ (∃ o ∈ L.head?, o.client = i) ∧
      ∃ value, w.keys key = some ⟨value, none⟩

namespace Counted

variable {limits : Limits} {key : String} {phases phases' : ι → Option (String × Phase)}
  {w w' : World K} {log : List (Increment ι K)}

/-- A step that does not touch the counter, and leads no call of the key on that has counted. -/
lemma frame (h : Counted limits key phases w log)
    (hphases : ∀ i ph, ph ≠ .counting → (phases' i = some (key, ph) ↔ phases i = some (key, ph)))
    (hkeys : w'.keys key = w.keys key) (hclock : w.clock ≤ w'.clock) :
    Counted limits key phases' w' log where
  times r hr := (h.times r hr).trans hclock
  nodup := h.nodup
  spaced := h.spaced
  nonempty := h.nonempty
  ranked L hL j r hr := by
    rw [hphases _ (.judged _) nofun, hphases _ .expiring nofun]
    exact h.ranked L hL j r hr
  unset hnil := hkeys.trans (h.unset hnil)
  counter L Ls hcons := by
    rw [hkeys]
    exact h.counter L Ls hcons
  expiring i hi := by
    rw [hkeys]
    exact h.expiring i ((hphases _ .expiring nofun).1 hi)

/-- A call that has counted stands behind its `INCR`. -/
lemma ne_counting (h : Counted limits key phases w log) {r : Increment ι K} (hr : r ∈ log) :
    phases r.client ≠ some (key, .counting) := by
  obtain ⟨L, hL, hrL⟩ := List.mem_flatten.1 ((perm_flatten_lifetimes log).mem_iff.2 hr)
  obtain ⟨j, hj⟩ := List.mem_iff_getElem?.1 hrL
  rcases h.ranked L hL j r hj with hph | ⟨-, hph⟩ <;> simp [hph]

omit [Field K] [LinearOrder K] in
/-- What is in a lifetime is in the log. -/
lemma mem_log {L : List (Increment ι K)} {r : Increment ι K}
    (hL : L ∈ lifetimes Increment.isNew log) (hr : r ∈ L) : r ∈ log :=
  (perm_flatten_lifetimes log).mem_iff.1 (List.mem_flatten.2 ⟨L, hL, hr⟩)

lemma nodup_append [DecidableEq ι] (h : Counted limits key phases w log) {r : Increment ι K}
    (hr : phases r.client = some (key, .counting)) :
    ((log ++ [r]).map Increment.client).Nodup := by
  rw [List.map_append, List.map_singleton, List.nodup_append]
  refine ⟨h.nodup, List.nodup_singleton _, ?_⟩
  rintro i hi j hj rfl
  rw [List.mem_singleton] at hj
  obtain ⟨o, ho, rfl⟩ := List.mem_map.1 hi
  exact h.ne_counting ho (hj ▸ hr)

/-- A call that counts leaves those that have counted where they are. -/
lemma ranked_update [DecidableEq ι] (h : Counted limits key phases w log) {i : ι} {ph : Phase}
    (hi : phases i = some (key, .counting)) {L : List (Increment ι K)}
    (hL : L ∈ lifetimes Increment.isNew log) {j : ℕ} {r : Increment ι K} (hr : L[j]? = some r) :
    Function.update phases i (some (key, ph)) r.client = some (key, .judged ((j + 1 : ℕ) : ℤ)) ∨
      (j = 0 ∧ Function.update phases i (some (key, ph)) r.client = some (key, .expiring)) := by
  have hne : r.client ≠ i := by
    rintro rfl
    exact h.ne_counting (mem_log hL (List.mem_of_getElem? hr)) hi
  rw [Function.update_of_ne hne]
  exact h.ranked L hL j r hr

/-- The first `INCR` of a lifetime. -/
lemma incr_new [DecidableEq ι] (h : Counted limits key phases w log) {i : ι} {now : K}
    (hi : phases i = some (key, .counting)) (hclock : w.clock ≤ now) (hw : w'.clock = now)
    (hexpired : ∀ entry, w.keys key = some entry → ∃ d ∈ entry.deadline, d ≤ now)
    (hkeys : w'.keys key = some ⟨"1", none⟩) :
    Counted limits key (Function.update phases i (some (key, .expiring))) w'
      (log ++ [⟨i, now, true⟩]) := by
  have hlives : lifetimes Increment.isNew (log ++ [⟨i, now, true⟩]) =
      [⟨i, now, true⟩] :: lifetimes Increment.isNew log := by
    rw [lifetimes_append_singleton]
    cases lifetimes Increment.isNew log <;> rfl
  have htimes : ∀ r ∈ log, r.time ≤ now := fun r hr => (h.times r hr).trans hclock
  refine ⟨?_, h.nodup_append hi, ?_, ?_, ?_, ?_, ?_, ?_⟩
  · intro r hr
    rw [hw]
    rcases List.mem_append.1 hr with hr | hr
    · exact htimes r hr
    · rw [List.mem_singleton.1 hr]
  · rw [hlives]
    refine List.pairwise_cons.2 ⟨fun L hL r hr => ?_, h.spaced⟩
    rw [List.mem_singleton.1 hr]
    refine ⟨fun o ho => htimes o (mem_log hL ho), fun o ho => ?_⟩
    -- the latest lifetime has expired, and the others began a window before it
    rcases hcons : lifetimes Increment.isNew log with _ | ⟨L₁, Ls⟩
    · simp [hcons] at hL
    · rw [hcons] at hL
      rcases List.mem_cons.1 hL with rfl | hL
      · obtain ⟨deadline, hentry, hdeadline⟩ := h.counter L Ls hcons
        obtain ⟨d, hd, hle⟩ := hexpired _ hentry
        exact (hdeadline d hd o ho).trans hle
      · obtain ⟨o₁, ho₁⟩ := List.exists_mem_of_ne_nil L₁ (h.nonempty L₁ (by simp [hcons]))
        have hspaced := h.spaced
        rw [hcons] at hspaced
        exact (((List.pairwise_cons.1 hspaced).1 L hL o₁ ho₁).2 o ho).trans
          (htimes o₁ (mem_log (by simp [hcons]) ho₁))
  · rw [hlives]
    intro L hL
    rcases List.mem_cons.1 hL with rfl | hL
    · simp
    · exact h.nonempty L hL
  · rw [hlives]
    intro L hL j r hr
    rcases List.mem_cons.1 hL with rfl | hL
    · cases j with
      | zero =>
          obtain rfl := Option.some.inj hr
          exact .inr ⟨rfl, Function.update_self ..⟩
      | succ j => simp at hr
    · exact h.ranked_update hi hL hr
  · rw [hlives]
    nofun
  · rw [hlives]
    intro L Ls hcons
    obtain ⟨rfl, -⟩ := List.cons.inj hcons
    have hone : Nat.repr 1 = "1" := by decide
    exact ⟨none, by rw [hkeys, List.length_singleton, hone], nofun⟩
  · intro j hj
    rcases eq_or_ne j i with rfl | hne
    · exact ⟨_, _, hlives, ⟨_, rfl, rfl⟩, _, hkeys⟩
    · rw [Function.update_of_ne hne] at hj
      obtain ⟨-, -, -, -, value, hvalue⟩ := h.expiring j hj
      obtain ⟨d, hd, -⟩ := hexpired _ hvalue
      nomatch hd

/-- Every other `INCR` of a lifetime. -/
lemma incr_again [DecidableEq ι] (h : Counted limits key phases w log) {i : ι} {now : K}
    {entry : Redis.Entry K} {n : ℤ} (hi : phases i = some (key, .counting)) (hclock : w.clock ≤ now)
    (hw : w'.clock = now) (hentry : w.keys key = some entry)
    (hn : PyText.parseInt entry.value = some n)
    (hkeys : w'.keys key = some { entry with value := (n + 1).repr }) :
    n + 1 ≠ 1 ∧ Counted limits key (Function.update phases i (some (key, .judged (n + 1)))) w'
      (log ++ [⟨i, now, false⟩]) := by
  have htimes : ∀ r ∈ log, r.time ≤ now := fun r hr => (h.times r hr).trans hclock
  obtain ⟨L, Ls, hcons⟩ : ∃ L Ls, lifetimes Increment.isNew log = L :: Ls := by
    rcases hcons : lifetimes Increment.isNew log with _ | ⟨L, Ls⟩
    · rw [h.unset hcons] at hentry
      nomatch hentry
    · exact ⟨L, Ls, rfl⟩
  have hL : L ∈ lifetimes Increment.isNew log := by simp [hcons]
  have hne := h.nonempty L hL
  obtain ⟨deadline, hcounter, hdeadline⟩ := h.counter L Ls hcons
  obtain rfl : entry = ⟨L.length.repr, deadline⟩ := Option.some.inj (hentry.symm.trans hcounter)
  obtain rfl : (L.length : ℤ) = n := Option.some.inj ((PyText.parseInt_repr L.length).symm.trans hn)
  have hlives : lifetimes Increment.isNew (log ++ [⟨i, now, false⟩]) =
      (L ++ [⟨i, now, false⟩]) :: Ls := by
    rw [lifetimes_append_singleton, hcons]
    rfl
  have hhead : (L ++ [(⟨i, now, false⟩ : Increment ι K)]).head? = L.head? := by
    cases L with
    | nil => exact absurd rfl hne
    | cons o L => rfl
  refine ⟨?_, ?_, h.nodup_append hi, ?_, ?_, ?_, ?_, ?_, ?_⟩
  · have : L.length ≠ 0 := fun h0 => hne (List.length_eq_zero_iff.1 h0)
    omega
  · intro r hr
    rw [hw]
    rcases List.mem_append.1 hr with hr | hr
    · exact htimes r hr
    · rw [List.mem_singleton.1 hr]
  · -- the new event is no earlier than the first one of its lifetime
    have hspaced := h.spaced
    rw [hcons] at hspaced
    obtain ⟨hfirst, hrest⟩ := List.pairwise_cons.1 hspaced
    obtain ⟨o₁, ho₁⟩ := List.exists_mem_of_ne_nil L hne
    rw [hlives]
    refine List.pairwise_cons.2 ⟨fun L' hL' r hr => ?_, hrest⟩
    rcases List.mem_append.1 hr with hr | hr
    · exact hfirst L' hL' r hr
    · rw [List.mem_singleton.1 hr]
      have hlate := htimes o₁ (mem_log hL ho₁)
      exact ⟨fun o ho => ((hfirst L' hL' o₁ ho₁).1 o ho).trans hlate,
        fun o ho => ((hfirst L' hL' o₁ ho₁).2 o ho).trans hlate⟩
  · rw [hlives]
    intro L' hL'
    rcases List.mem_cons.1 hL' with rfl | hL'
    · simp
    · exact h.nonempty L' (by simp [hcons, hL'])
  · rw [hlives]
    intro L' hL' j r hr
    rcases List.mem_cons.1 hL' with rfl | hL'
    · rcases Nat.lt_trichotomy j L.length with hlt | rfl | hgt
      · rw [List.getElem?_append_left hlt] at hr
        exact h.ranked_update hi hL hr
      · rw [List.getElem?_append_right le_rfl, Nat.sub_self] at hr
        obtain rfl := Option.some.inj hr
        exact .inl (by simp)
      · rw [List.getElem?_eq_none (by simpa using hgt)] at hr
        nomatch hr
    · exact h.ranked_update hi (by simp [hcons, hL']) hr
  · rw [hlives]
    nofun
  · rw [hlives]
    intro L' Ls' hcons'
    obtain ⟨rfl, -⟩ := List.cons.inj hcons'
    refine ⟨deadline, ?_, by rwa [hhead]⟩
    rw [hkeys, List.length_append, List.length_singleton]
    rfl
  · intro j hj
    rcases eq_or_ne j i with rfl | hji
    · simp at hj
    · rw [Function.update_of_ne hji] at hj
      obtain ⟨L', Ls', hcons', ⟨o, ho, rfl⟩, value, hvalue⟩ := h.expiring j hj
      obtain ⟨rfl, rfl⟩ := List.cons.inj (hcons.symm.trans hcons')
      refine ⟨_, _, hlives, ⟨o, by rwa [hhead], rfl⟩, ((L.length : ℤ) + 1).repr, ?_⟩
      rw [hentry, Option.some.injEq, Redis.Entry.mk.injEq] at hvalue
      rw [hkeys, hvalue.2]

/-- The `EXPIRE` of a lifetime. -/
lemma expire [IsStrictOrderedRing K] [DecidableEq ι] (h : Counted limits key phases w log) {i : ι} {now : K}
    (hi : phases i = some (key, .expiring)) (hclock : w.clock ≤ now) (hw : w'.clock = now) :
    ∃ entry, w.keys key = some entry ∧ entry.deadline = none ∧
      (w'.keys key = some { entry with deadline := some (now + (limits.windowSeconds key : K)) } →
        Counted limits key (Function.update phases i (some (key, .judged 1))) w' log) := by
  obtain ⟨L, Ls, hcons, ⟨o, ho, hclient⟩, value, hvalue⟩ := h.expiring i hi
  obtain ⟨deadline, hcounter, -⟩ := h.counter L Ls hcons
  obtain ⟨rfl, rfl⟩ := Redis.Entry.mk.inj (Option.some.inj (hvalue.symm.trans hcounter))
  have hL : L ∈ lifetimes Increment.isNew log := by simp [hcons]
  refine ⟨_, hvalue, rfl, fun hkeys => ⟨?_, h.nodup, h.spaced, h.nonempty, ?_, ?_, ?_, ?_⟩⟩
  · exact fun r hr => hw ▸ (h.times r hr).trans hclock
  · intro L' hL' j r hr
    rcases eq_or_ne r.client i with heq | hne
    · rw [heq, Function.update_self]
      rcases h.ranked L' hL' j r hr with hjudged | ⟨rfl, -⟩
      · rw [heq, hi] at hjudged
        nomatch hjudged
      · exact .inl rfl
    · rw [Function.update_of_ne hne]
      exact h.ranked L' hL' j r hr
  · intro hnil
    rw [hcons] at hnil
    nomatch hnil
  · intro L' Ls' hcons'
    obtain ⟨rfl, -⟩ := List.cons.inj (hcons.symm.trans hcons')
    refine ⟨_, hkeys, fun d hd o' ho' => ?_⟩
    obtain rfl := Option.some.inj hd
    have htime := (h.times o' (mem_log hL (List.mem_of_mem_head? ho'))).trans hclock
    linarith
  · intro j hj
    rcases eq_or_ne j i with rfl | hne
    · simp at hj
    · rw [Function.update_of_ne hne] at hj
      obtain ⟨L', Ls', hcons', ⟨o', ho', rfl⟩, -⟩ := h.expiring j hj
      obtain ⟨rfl, -⟩ := List.cons.inj (hcons.symm.trans hcons')
      rw [Option.mem_def.1 ho, Option.mem_def, Option.some.injEq] at ho'
      exact absurd (ho' ▸ hclient) hne

end Counted

/-! ### Steps of the pool -/

/-- **What an `INCR` does**: it creates the key, or counts on, or finds no number. -/
lemma incr_cases {e : Env K} (he : e.redisFails = false) (w : World K) (key : String) :
    ((∀ entry, w.keys key = some entry → ∃ d ∈ entry.deadline, d ≤ e.now) ∧
      (w.keys.entry e.now e.lingers key).isNone = true ∧ (Command.redisIncr key).exec e w =
        (some 1, { w with keys := w.keys.put key ⟨"1", none⟩ })) ∨
    (∃ entry n, w.keys key = some entry ∧ PyText.parseInt entry.value = some n ∧
      (w.keys.entry e.now e.lingers key).isNone = false ∧ (Command.redisIncr key).exec e w =
        (some (n + 1), { w with keys := w.keys.put key { entry with value := (n + 1).repr } })) ∨
    ∃ entry, w.keys key = some entry ∧ PyText.parseInt entry.value = none ∧
      (Command.redisIncr key).exec e w = (none, w) := by
  rcases hentry : w.keys.entry e.now e.lingers key with _ | entry
  · refine .inl ⟨fun entry hkey => ?_, rfl, by
      simp [Command.exec, Redis.Keys.incr, hentry, unlessFails, he]⟩
    rw [Redis.Keys.entry, hkey, Option.filter_some] at hentry
    split_ifs at hentry with hpresent
    simp only [Redis.Keys.present, Option.all_eq_true, not_forall] at hpresent
    obtain ⟨d, hd, hpresent⟩ := hpresent
    simp only [Bool.or_eq_true, decide_eq_true_eq, not_or, not_lt] at hpresent
    exact ⟨d, hd, hpresent.1⟩
  · have hkey : w.keys key = some entry := (Option.filter_eq_some_iff.1 hentry).1
    rcases hn : PyText.parseInt entry.value with _ | n
    · exact .inr (.inr ⟨entry, hkey, hn, by simp [Command.exec, Redis.Keys.incr, hentry, hn]⟩)
    · exact .inr (.inl ⟨entry, n, hkey, hn, rfl, by
        simp [Command.exec, Redis.Keys.incr, hentry, hn, unlessFails, he]⟩)

/-- An update of a call of another key, or of one that starts, is none of a call that has counted. -/
lemma update_iff [DecidableEq ι] {phases : ι → Option (String × Phase)} {i : ι} {q key : String}
    {ph : Phase} (hnew : q = key → ph = .counting)
    (hold : ∀ ph, ph ≠ .counting → phases i ≠ some (key, ph)) :
    ∀ j ph', ph' ≠ .counting → (Function.update phases i (some (q, ph)) j = some (key, ph') ↔
      phases j = some (key, ph')) := by
  intro j ph' hph'
  rcases eq_or_ne j i with rfl | hne
  · rw [Function.update_self, Option.some.injEq, Prod.mk.injEq]
    refine ⟨fun ⟨hq, hph⟩ => ?_, fun h => absurd h (hold ph' hph')⟩
    exact absurd (hph.symm.trans (hnew hq)) hph'
  · rw [Function.update_of_ne hne]

section Step

variable [IsStrictOrderedRing K] [DecidableEq ι] {limits : Limits} {key : String}
  {phases : ι → Option (String × Phase)} {s t : Calls ι K} {log : List (Increment ι K)}

omit [IsStrictOrderedRing K] in
/-- A command on another key. -/
lemma counted_other {i : ι} {q : String} {ph ph' : Phase} {w' : World K}
    (h : Counted limits key phases s.store log) (hi : phases i = some (q, ph)) (hq : q ≠ key)
    (hkeys : w'.keys key = s.store.keys key) (hclock : s.store.clock ≤ w'.clock) :
    Counted limits key (Function.update phases i (some (q, ph'))) w' log :=
  h.frame (update_iff (fun heq => absurd heq hq) fun _ _ heq =>
    hq (Prod.mk.inj (Option.some.inj (hi.symm.trans heq))).1) hkeys hclock

omit [IsStrictOrderedRing K] in
/-- The `INCR` of a call. -/
lemma counted_incr {i : ι} {e : Env K} {q : String} (h : Counted limits key phases s.store log)
    (he : e.redisFails = false) (hclock : s.store.clock ≤ e.now)
    (hi : phases i = some (q, .counting))
    (hcalls : s.calls i = some (q, limits.body q)) :
    ∃ ph', limits.program (K := K) q ph' = (Prog.getOrRaise redisUnavailable
        ((Command.redisIncr q).exec e s.store).1).bind (fun n =>
          limits.program q (if n = 1 then .expiring else .judged n)) ∧
      Counted limits key (Function.update phases i (some (q, ph')))
        { ((Command.redisIncr q).exec e s.store).2 with clock := e.now }
        (log ++ (increment key s (.step i e)).toList) := by
  have hincrement : increment key s (.step i e) =
      if q = key then some ⟨i, e.now, (s.store.keys.entry e.now e.lingers key).isNone⟩ else none := by
    simp only [increment, hcalls, Limits.body_eq]
  rw [hincrement]
  rcases incr_cases he s.store q with ⟨hexpired, hnone, hexec⟩ |
    ⟨entry, n, hentry, hn, hsome, hexec⟩ | ⟨entry, hentry, hn, hexec⟩ <;> rw [hexec]
  · refine ⟨.expiring, rfl, ?_⟩
    split_ifs with hq
    · subst hq
      rw [hnone]
      exact h.incr_new hi hclock rfl hexpired Redis.Keys.put_self
    · rw [Option.toList_none, List.append_nil]
      exact counted_other h hi hq (Redis.Keys.put_of_ne (Ne.symm hq)) hclock
  · refine ⟨if n + 1 = 1 then .expiring else .judged (n + 1), rfl, ?_⟩
    split_ifs with hone hq hq
    · subst hq
      have hagain : n + 1 ≠ 1 ∧ Counted limits q _ { s.store with
          keys := s.store.keys.put q { entry with value := (n + 1).repr }, clock := e.now } _ :=
        h.incr_again hi hclock rfl hentry hn Redis.Keys.put_self
      exact absurd hone hagain.1
    · rw [Option.toList_none, List.append_nil]
      exact counted_other h hi hq (Redis.Keys.put_of_ne (Ne.symm hq)) hclock
    · subst hq
      rw [hsome]
      exact (h.incr_again hi hclock rfl hentry hn Redis.Keys.put_self).2
    · rw [Option.toList_none, List.append_nil]
      exact counted_other h hi hq (Redis.Keys.put_of_ne (Ne.symm hq)) hclock
  · refine ⟨.failed, rfl, ?_⟩
    split_ifs with hq
    · subst hq
      rcases hcons : lifetimes Increment.isNew log with _ | ⟨L, Ls⟩
      · rw [h.unset hcons] at hentry
        nomatch hentry
      · obtain ⟨deadline, hcounter, -⟩ := h.counter L Ls hcons
        obtain rfl := Option.some.inj (hentry.symm.trans hcounter)
        rw [PyText.parseInt_repr] at hn
        nomatch hn
    · rw [Option.toList_none, List.append_nil]
      exact counted_other h hi hq rfl hclock

/-- The `EXPIRE` of a call. -/
lemma counted_expire {i : ι} {e : Env K} {q : String} (h : Counted limits key phases s.store log)
    (he : e.redisFails = false) (hclock : s.store.clock ≤ e.now)
    (hi : phases i = some (q, .expiring)) :
    ((Command.redisExpire q (limits.windowSeconds q)).exec e s.store).1 = some () ∧
      Counted limits key (Function.update phases i (some (q, .judged 1)))
        { ((Command.redisExpire q (limits.windowSeconds q)).exec e s.store).2 with clock := e.now }
        log := by
  simp only [Command.exec, unlessFails, he, Bool.false_eq_true, if_false, true_and]
  by_cases hq : q = key
  · subst hq
    have hnow : World.clock { s.store with
        keys := s.store.keys.expire e.now e.lingers q (limits.windowSeconds q), clock := e.now } =
          e.now := rfl
    obtain ⟨entry, hentry, hdeadline, hexpire⟩ := h.expire hi hclock hnow
    exact hexpire ((Redis.Keys.expire_self hentry hdeadline).trans (by rw [Int.cast_natCast]))
  · exact counted_other h hi hq (Redis.Keys.expire_of_ne (Ne.symm hq)) hclock

/-- One command of a call: a phase for the rest of it, and what it counts. -/
lemma counted_command {i : ι} {e : Env K} {q : String} {ph : Phase} {c : Command K}
    {k : c.Reply → WebhookProg K Unit} (hseen : Pool.SeenAs limits.program s phases)
    (h : Counted limits key phases s.store log) (he : e.redisFails = false)
    (hclock : s.store.clock ≤ e.now) (hi : phases i = some (q, ph))
    (hp : limits.program q ph = .call c k) :
    ∃ ph', limits.program q ph' = k (c.exec e s.store).1 ∧
      Counted limits key (Function.update phases i (some (q, ph')))
        { (c.exec e s.store).2 with clock := e.now }
        (log ++ (increment key s (.step i e)).toList) := by
  have hcalls := hseen.calls_of_phase hi
  cases ph with
  | counting =>
      have hcount := counted_incr h he hclock hi hcalls
      rw [Limits.program, Limits.body_eq] at hp
      cases hp
      exact hcount
  | expiring =>
      obtain ⟨hreply, hcounted⟩ := counted_expire h he hclock hi
      cases hp
      have hincrement : increment key s (.step i e) = none := by
        simp only [increment, hcalls, Limits.program]
      rw [hincrement, Option.toList_none, List.append_nil]
      exact ⟨.judged 1, by rw [hreply]; rfl, hcounted⟩
  | judged n =>
      rw [Limits.program, verdict] at hp
      split_ifs at hp
  | failed => nomatch hp

/-- **One step of the pool.** -/
theorem counted_next {a : PoolAction ι String (Env K)} (hseen : Pool.SeenAs limits.program s phases)
    (h : Counted limits key phases s.store log) (ha : Calm a)
    (hstep : Pool.next interp limits.body s a = some t) :
    ∃ phases', Pool.SeenAs limits.program t phases' ∧
      Counted limits key phases' t.store (log ++ (increment key s a).toList) := by
  rcases Pool.next_cases hstep with ⟨i, q, rfl, hi, rfl⟩ |
    ⟨i, e, q, c, k, p', w, rfl, hi, rfl, hcmd⟩ | ⟨i, q, p, rfl, hi, rfl⟩
  · have hnone : phases i = none := Option.map_eq_none_iff.1 ((hseen i).symm.trans hi)
    refine ⟨_, hseen.update (show limits.program q .counting = limits.body q from rfl), ?_⟩
    have hincrement : increment key s (.start i q) = none := rfl
    rw [hincrement, Option.toList_none, List.append_nil]
    exact h.frame (update_iff (fun _ => rfl) fun _ _ => by simp [hnone]) rfl le_rfl
  · obtain ⟨ph, hph, hp⟩ := hseen.exists_phase hi
    obtain ⟨r, hexec, rfl⟩ : ∃ r, interp c e s.store = some (.ok r, w) ∧ p' = k r := by
      rcases hcmd with ⟨x, hexec, -⟩ | hok
      · nomatch (interp_eq_some hexec).2.1
      · exact hok
    obtain ⟨hclock, hr, rfl⟩ := interp_eq_some hexec
    obtain rfl := Except.ok.inj hr
    obtain ⟨ph', hph', hcounted⟩ := counted_command hseen h ha hclock hph hp
    exact ⟨_, hseen.update hph', hcounted⟩
  · exact absurd ha id

variable (limits key) in
/-- **A run of the pool.** -/
theorem counted_run {w₀ : World K} (hkey : w₀.keys key = none)
    {as : List (PoolAction ι String (Env K))} (hcalm : ∀ a ∈ as, Calm a)
    (h : exec (Pool.next interp limits.body) (Pool.initial w₀) as = some t) :
    ∃ phases, Pool.SeenAs limits.program t phases ∧ Counted limits key phases t.store
      (observed (Pool.next interp limits.body) (increment key) (Pool.initial w₀) as) := by
  revert hcalm
  refine exec_induction (P := fun as (t : Calls ι K) => (∀ a ∈ as, Calm a) →
    ∃ phases, Pool.SeenAs limits.program t phases ∧ Counted limits key phases t.store
      (observed (Pool.next interp limits.body) (increment key) (Pool.initial w₀) as))
    (fun _ => ⟨_, Pool.seenAs_initial w₀, ?_⟩) (fun as t a u ht ih hstep hcalm => ?_) h
  · exact ⟨nofun, List.nodup_nil, List.Pairwise.nil, nofun, nofun, fun _ => hkey, nofun, nofun⟩
  · obtain ⟨phases, hseen, hcounted⟩ := ih fun a ha => hcalm a (List.mem_append_left _ ha)
    rw [observed_append_singleton ht]
    exact counted_next hseen hcounted (hcalm a (by simp)) hstep

/-! ### The bound -/

/-- The call of a client has been admitted. -/
def admitted (t : Calls ι K) (client : ι) : Bool :=
  match t.calls client with
  | some (_, .ret _) => true
  | _ => false

/-- The call counts in the half-open interval from `a` of some length. -/
def Increment.isIn (r : Increment ι K) (a length : K) : Bool :=
  decide (a ≤ r.time) && decide (r.time < a + length)

/-- What becomes of the call that is the `j`-th of its lifetime, counted from zero: it is judged by
its rank, if it does not still have to let the key expire. -/
def JudgedByRank (limits : Limits) (key : String) (t : Calls ι K) (j : ℕ) (client : ι) : Prop :=
  t.calls client = some (key, if j < limits.limit key then .ret ()
    else .raise (.http 429 "Too many requests")) ∨
  (j = 0 ∧ t.calls client = some (key, limits.program key .expiring))

end Step

end

/-! ### Two clients -/

/-- One call in a minute, on every key. -/
def onePerMinute : Limits := ⟨fun _ => 1, fun _ => 60⟩

/-- A second client counts between the `INCR` and the `EXPIRE` of the first one. -/
def twoClients : List (PoolAction ℕ String (Env ℚ)) :=
  [.start 0 "rate_limit:203.0.113.7", .step 0 (sampleEnv 1), .start 1 "rate_limit:203.0.113.7",
    .step 1 (sampleEnv 2), .step 0 (sampleEnv 3)]

end StarterBackend.RateLimits
