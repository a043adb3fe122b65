import Mathlib.Computability.Language

set_option autoImplicit false

/-!
# Glob patterns

A glob pattern is a word in which some symbols have a meaning: one that stands for any word, one that
stands for any symbol, and brackets around the symbols and the ranges that are allowed in a place. A bracket
that is not closed stands for itself. Every other symbol does so too, the separator of paths included.

## Main results

* `Glob.isMatch_star_cons_iff` — a pattern behind a star and a separator matches the words one of whose
  suffixes behind the separator matches the pattern.
-/

namespace Glob

/-- The symbols with a meaning. -/
structure Marks (α : Type) where
  /-- It stands for any word. -/
  star : α
  /-- It stands for any symbol. -/
  any : α
  opening : α
  closing : α
  /-- Behind an opening bracket: the symbols that are not allowed follow. -/
  negation : α
  /-- Between two symbols in brackets: the range. -/
  dash : α

/-- A part of a pattern. -/
inductive Item (α : Type)
  | lit (a : α)
  | any
  | star
  | set (negated : Bool) (ranges : List (α × α))
  deriving DecidableEq

variable {α : Type} [LinearOrder α] (marks : Marks α)

/-- The length of what stands between an opening bracket and its closing one. A closing bracket that comes
first, or first behind the negation, stands for itself. -/
def bracketLength (s : List α) : Option ℕ :=
  let negation := if s.head? = some marks.negation then 1 else 0
  let start := if (s.drop negation).head? = some marks.closing then negation + 1 else negation
  ((s.drop start).findIdx? fun a => decide (a = marks.closing)).map (start + ·)

/-- The ranges of a bracket; a single symbol is a range of one. -/
def ranges : List α → List (α × α)
  | a :: b :: c :: s =>
    if b = marks.dash then (a, c) :: ranges s else (a, a) :: ranges (b :: c :: s)
  | a :: s => (a, a) :: ranges s
  | [] => []

def bracket (s : List α) : Item α :=
  if s.head? = some marks.negation then .set true (ranges marks s.tail)
  else .set false (ranges marks s)

/-- The items of a pattern of which the first symbols were read already. -/
def parseFrom : ℕ → List α → List (Item α)
  | _, [] => []
  | k + 1, _ :: s => parseFrom k s
  | 0, a :: s =>
    if a = marks.star then .star :: parseFrom 0 s
    else if a = marks.any then .any :: parseFrom 0 s
    else if a = marks.opening then
      match bracketLength marks s with
      | some n => bracket marks (s.take n) :: parseFrom (n + 1) s
      | none => .lit a :: parseFrom 0 s
    else .lit a :: parseFrom 0 s

/-- The items of a pattern. -/
def parse (pattern : List α) : List (Item α) := parseFrom marks 0 pattern

/-- An item that stands for one symbol stands for this one. -/
def Item.accepts : Item α → α → Bool
  | .lit b, a => a == b
  | .any, _ => true
  | .star, _ => false
  | .set negated ranges, a => (ranges.any fun r => decide (r.1 ≤ a ∧ a ≤ r.2)) != negated

/-- A whole word matches the items. -/
def isMatch : List (Item α) → List α → Bool
  | [], s => s.isEmpty
  | .star :: items, s => s.tails.any fun t => isMatch items t
  | item :: items, s =>
    match s with
    | [] => false
    | a :: rest => item.accepts a && isMatch items rest

/-! ## Languages -/

/-- The words an item stands for. -/
def Item.language : Item α → Language α
  | .star => ⊤
  | item => {s | ∃ a, item.accepts a = true ∧ s = [a]}

/-- The words that match the items. -/
def language (items : List (Item α)) : Language α := (items.map Item.language).prod

omit marks in
lemma Item.mem_language {item : Item α} (h : item ≠ .star) {s : List α} :
    s ∈ item.language ↔ ∃ a, item.accepts a = true ∧ s = [a] := by
  cases item with
  | star => exact absurd rfl h
  | lit | any | set => exact Iff.rfl

omit marks in
lemma isMatch_cons {item : Item α} (h : item ≠ .star) (items : List (Item α)) (s : List α) :
    isMatch (item :: items) s = true ↔
      ∃ a rest, s = a :: rest ∧ item.accepts a = true ∧ isMatch items rest = true := by
  cases item with
  | star => exact absurd rfl h
  | lit | any | set =>
    cases s with
    | nil => simp [isMatch]
    | cons a rest => simp [isMatch]

omit marks in
theorem isMatch_iff (items : List (Item α)) (s : List α) :
    isMatch items s = true ↔ s ∈ language items := by
  induction items generalizing s with
  | nil => simp [isMatch, language]
  | cons item items ih =>
    rw [language, List.map_cons, List.prod_cons, Language.mem_mul]
    by_cases hstar : item = .star
    · subst hstar
      simp only [isMatch, List.any_eq_true, List.mem_tails]
      constructor
      · rintro ⟨t, ⟨u, rfl⟩, ht⟩
        exact ⟨u, trivial, t, (ih t).1 ht, rfl⟩
      · rintro ⟨u, -, t, ht, rfl⟩
        exact ⟨t, List.suffix_append u t, (ih t).2 ht⟩
    · rw [isMatch_cons hstar]
      constructor
      · rintro ⟨a, rest, rfl, ha, hrest⟩
        exact ⟨[a], (Item.mem_language hstar).2 ⟨a, ha, rfl⟩, rest, (ih rest).1 hrest, rfl⟩
      · rintro ⟨u, hu, rest, hrest, rfl⟩
        obtain ⟨a, ha, rfl⟩ := (Item.mem_language hstar).1 hu
        exact ⟨a, rest, rfl, ha, (ih rest).2 hrest⟩

lemma isMatch_star_iff (items : List (Item α)) (s : List α) :
    isMatch (.star :: items) s = true ↔ ∃ u v, s = u ++ v ∧ isMatch items v = true := by
  simp only [isMatch, List.any_eq_true, List.mem_tails]
  constructor
  · rintro ⟨v, ⟨u, rfl⟩, hv⟩
    exact ⟨u, v, rfl, hv⟩
  · rintro ⟨u, v, rfl, hv⟩
    exact ⟨v, List.suffix_append u v, hv⟩

lemma parse_star_cons {sep : α} (hstar : sep ≠ marks.star) (hany : sep ≠ marks.any)
    (hopening : sep ≠ marks.opening) (pattern : List α) :
    parse marks (marks.star :: sep :: pattern) = .star :: .lit sep :: parse marks pattern := by
  simp [parse, parseFrom, hstar, hany, hopening]

theorem isMatch_star_cons_iff {sep : α} (hstar : sep ≠ marks.star) (hany : sep ≠ marks.any)
    (hopening : sep ≠ marks.opening) (pattern s : List α) :
    isMatch (parse marks (marks.star :: sep :: pattern)) s = true ↔
      ∃ u v, s = u ++ sep :: v ∧ isMatch (parse marks pattern) v = true := by
  rw [parse_star_cons marks hstar hany hopening, isMatch_star_iff]
  constructor
  · rintro ⟨u, t, rfl, ht⟩
    obtain ⟨a, v, rfl, ha, hv⟩ := (isMatch_cons (by simp) _ _).1 ht
    obtain rfl : a = sep := by simpa [Item.accepts] using ha
    exact ⟨u, v, rfl, hv⟩
  · rintro ⟨u, v, rfl, hv⟩
    exact ⟨u, sep :: v, rfl, (isMatch_cons (by simp) _ _).2 ⟨sep, v, rfl, by simp [Item.accepts], hv⟩⟩

end Glob
