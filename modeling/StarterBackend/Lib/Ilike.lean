/-
The patterns of SQL's `LIKE` and `ILIKE`.

A pattern is a text over an alphabet with three special characters: one matches any text,
one matches any character, and the escape takes its meaning from the character after it.
All other characters, and those after an escape, match a character with the same folding.

A text whose special characters are escaped is read as the list of its characters
(`tokens_escaped`), so with the wildcard after it it matches what begins with it
(`like_prefix`), and between two wildcards what contains it (`like_contains`).
-/
import Mathlib.Data.List.Basic
import Mathlib.Data.List.Infix
import Mathlib.Tactic.Common

namespace StarterBackend.Lib

/-- The special characters of a pattern. -/
structure Wildcards (α : Type*) where
  many : α
  one : α
  escape : α
  many_ne_escape : many ≠ escape

/-- The special characters of SQL, with the backslash as the escape. -/
def Wildcards.sql : Wildcards Char := ⟨'%', '_', '\\', by decide⟩

/-- What one or two characters of a pattern stand for. -/
inductive Token (α : Type*) where
  | many
  | one
  | literal (c : α)

variable {α β : Type*} [DecidableEq β]

section Pattern

variable [DecidableEq α]

/-- A character that is not the escape. -/
def Wildcards.token (w : Wildcards α) (c : α) : Token α :=
  if c = w.many then .many else if c = w.one then .one else .literal c

/-- The pattern as a list of tokens; `none` when it ends with an escape. -/
def Wildcards.tokens (w : Wildcards α) : List α → Option (List (Token α))
  | [] => some []
  | [c] => if c = w.escape then none else some [w.token c]
  | c :: d :: pattern =>
      if c = w.escape then (w.tokens pattern).map (.literal d :: ·)
      else (w.tokens (d :: pattern)).map (w.token c :: ·)

end Pattern

/-- A text matches a list of tokens. -/
def matchesTokens (fold : α → β) : List (Token α) → List α → Bool
  | [], value => value.isEmpty
  | .many :: tokens, value => value.tails.any (matchesTokens fold tokens)
  | .one :: tokens, _ :: value => matchesTokens fold tokens value
  | .literal c :: tokens, x :: value => decide (fold c = fold x) && matchesTokens fold tokens value
  | .one :: _, [] => false
  | .literal _ :: _, [] => false

/-- A text matches a pattern. -/
def like [DecidableEq α] (w : Wildcards α) (fold : α → β) (pattern value : List α) : Bool :=
  (w.tokens pattern).any fun tokens => matchesTokens fold tokens value

/-- The text with its special characters escaped. -/
def escaped [DecidableEq α] (w : Wildcards α) (s : List α) : List α :=
  s.flatMap fun c => if c = w.escape ∨ c = w.many ∨ c = w.one then [w.escape, c] else [c]

section Tokens

variable [DecidableEq α] {w : Wildcards α} {p s : List α} {c d : α}

lemma tokens_cons (hc : c ≠ w.escape) : w.tokens (c :: p) = (w.tokens p).map (w.token c :: ·) := by
  cases p with
  | nil => simp [Wildcards.tokens, hc]
  | cons d p => rw [Wildcards.tokens, if_neg hc]

lemma tokens_escape : w.tokens (w.escape :: d :: p) = (w.tokens p).map (.literal d :: ·) := by
  rw [Wildcards.tokens, if_pos rfl]

lemma tokens_many : w.tokens (w.many :: p) = (w.tokens p).map (.many :: ·) := by
  rw [tokens_cons w.many_ne_escape]
  simp [Wildcards.token]

/-- **An escaped text is read as its characters.** -/
theorem tokens_escaped : w.tokens (escaped w s ++ p) = (w.tokens p).map (s.map .literal ++ ·) := by
  induction s with
  | nil => simp [escaped]
  | cons c s ih =>
      have hstep : w.tokens (escaped w (c :: s) ++ p) =
          (w.tokens (escaped w s ++ p)).map (.literal c :: ·) := by
        by_cases hc : c = w.escape ∨ c = w.many ∨ c = w.one
        · have heq : escaped w (c :: s) ++ p = w.escape :: c :: (escaped w s ++ p) := by
            simp [escaped, hc]
          rw [heq, tokens_escape]
        · have heq : escaped w (c :: s) ++ p = c :: (escaped w s ++ p) := by
            simp [escaped, hc]
          push Not at hc
          rw [heq, tokens_cons hc.1, Wildcards.token, if_neg hc.2.1, if_neg hc.2.2]
      rw [hstep, ih, Option.map_map]
      rfl

end Tokens

section Matches

variable {fold : α → β} {tokens : List (Token α)} {s v : List α}

/-- The wildcard matches any text before what the rest of the pattern matches. -/
lemma matchesTokens_many : matchesTokens fold (.many :: tokens) v = true ↔
    ∃ v₁ v₂, v = v₁ ++ v₂ ∧ matchesTokens fold tokens v₂ = true := by
  rw [matchesTokens, List.any_eq_true]
  constructor
  · rintro ⟨v₂, hv₂, h⟩
    obtain ⟨v₁, rfl⟩ := (List.mem_tails _ _).1 hv₂
    exact ⟨v₁, v₂, rfl, h⟩
  · rintro ⟨v₁, v₂, rfl, h⟩
    exact ⟨v₂, (List.mem_tails _ _).2 ⟨v₁, rfl⟩, h⟩

/-- Characters match themselves, up to folding. -/
lemma matchesTokens_literals : matchesTokens fold (s.map .literal ++ tokens) v = true ↔
    ∃ v₁ v₂, v = v₁ ++ v₂ ∧ v₁.map fold = s.map fold ∧ matchesTokens fold tokens v₂ = true := by
  induction s generalizing v with
  | nil => simp
  | cons c s ih =>
      cases v with
      | nil => simp [matchesTokens]
      | cons x v =>
          rw [List.map_cons, List.cons_append, matchesTokens, Bool.and_eq_true, decide_eq_true_eq, ih]
          constructor
          · rintro ⟨hx, v₁, v₂, rfl, hv₁, hv₂⟩
            exact ⟨x :: v₁, v₂, rfl, by rw [List.map_cons, List.map_cons, hx, hv₁], hv₂⟩
          · rintro ⟨v₁, v₂, heq, hv₁, hv₂⟩
            obtain ⟨y, v₁, rfl, hy, hrest⟩ := List.map_eq_cons_iff.1 hv₁
            obtain ⟨rfl, rfl⟩ := List.cons.inj heq
            exact ⟨hy.symm, v₁, v₂, rfl, hrest, hv₂⟩

/-- Any text matches the wildcard. -/
lemma matchesTokens_many_only : matchesTokens fold [.many] v = true :=
  matchesTokens_many.2 ⟨v, [], (List.append_nil v).symm, rfl⟩

lemma matchesTokens_prefix :
    matchesTokens fold (s.map .literal ++ [.many]) v = true ↔ s.map fold <+: v.map fold := by
  rw [matchesTokens_literals]
  constructor
  · rintro ⟨v₁, v₂, rfl, hv₁, -⟩
    exact ⟨v₂.map fold, by rw [List.map_append, hv₁]⟩
  · rintro ⟨rest, hrest⟩
    obtain ⟨v₁, v₂, rfl, hv₁, -⟩ := List.map_eq_append_iff.1 hrest.symm
    exact ⟨v₁, v₂, rfl, hv₁, matchesTokens_many_only⟩

variable [DecidableEq α] {w : Wildcards α}

/-- **A pattern for a prefix.** -/
theorem like_prefix : like w fold (escaped w s ++ [w.many]) v = true ↔ s.map fold <+: v.map fold := by
  rw [like, tokens_escaped, tokens_many]
  exact matchesTokens_prefix

/-- **A pattern for a substring.** -/
theorem like_contains :
    like w fold (w.many :: (escaped w s ++ [w.many])) v = true ↔ s.map fold <:+: v.map fold := by
  have hmany : like w fold (w.many :: (escaped w s ++ [w.many])) v =
      matchesTokens fold (.many :: (s.map .literal ++ [.many])) v := by
    rw [like, tokens_many, tokens_escaped, tokens_many]
    rfl
  rw [hmany, matchesTokens_many]
  constructor
  · rintro ⟨v₁, v₂, rfl, h⟩
    obtain ⟨rest, hrest⟩ := matchesTokens_prefix.1 h
    exact ⟨v₁.map fold, rest, by rw [List.map_append, ← hrest, List.append_assoc]⟩
  · rintro ⟨before, rest, h⟩
    rw [List.append_assoc] at h
    obtain ⟨v₁, v₂, rfl, -, hv₂⟩ := List.map_eq_append_iff.1 h.symm
    exact ⟨v₁, v₂, rfl, matchesTokens_prefix.2 ⟨rest, hv₂.symm⟩⟩

end Matches

end StarterBackend.Lib
