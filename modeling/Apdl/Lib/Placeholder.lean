import Apdl.Lib.Decimal
import Mathlib.Data.List.Basic
import Mathlib.Data.List.TakeWhile

set_option autoImplicit false

/-!
# Placeholders in query texts

Two ways to mark the places of parameters in a text: `%(name)s`, and `{name}` as `str.format` reads
it. A text that consists of plain characters and `%(name)s` placeholders is turned into one that
consists of plain characters and `{name}` fields with the same names, in the same order.

## Main results

* `Placeholder.repr_append_inj` — names with numbers in them.

## Design

A name is not empty, so the pattern for a placeholder matches in at most one way, and taking the
longest run of name characters is what a regular expression does here.
-/

namespace Placeholder

/-- The first character of a name: `[A-Za-z_]`. -/
def isNameStart (c : Char) : Bool := c.isAlpha || c == '_'

/-- The other characters of a name: `[A-Za-z0-9_]`. -/
def isNameChar (c : Char) : Bool := c.isAlphanum || c == '_'

def IsName (name : List Char) : Prop :=
  ∃ c cs, name = c :: cs ∧ isNameStart c = true ∧ ∀ c' ∈ cs, isNameChar c' = true

/-- Characters that neither marking uses. -/
def isPlain (c : Char) : Bool := c != '%' && c != '\x7b' && c != '\x7d'

/-! ## Normalization -/

/-- The pattern `%\(([A-Za-z_][A-Za-z0-9_]*)\)s` at the beginning of a text: the name and what
follows. -/
def matchPlaceholder : List Char → Option (List Char × List Char)
  | '%' :: '(' :: c :: cs =>
    if isNameStart c then
      match cs.dropWhile isNameChar with
      | ')' :: 's' :: rest => some (c :: cs.takeWhile isNameChar, rest)
      | _ => none
    else none
  | _ => none

/-- The first `n` characters or matches of a text, normalized. -/
def normalizeFrom : ℕ → List Char → List Char
  | 0, l => l
  | _ + 1, [] => []
  | n + 1, c :: cs =>
    match matchPlaceholder (c :: cs) with
    | some (name, rest) => '\x7b' :: name ++ '\x7d' :: normalizeFrom n rest
    | none => c :: normalizeFrom n cs

/-- Every placeholder becomes a field. -/
def normalize (l : List Char) : List Char := normalizeFrom l.length l

/-- Reading the fields of a text, within the name of a field or not. -/
def fieldsFrom : Option (List Char) → List Char → Option (List (List Char))
  | none, [] => some []
  | some _, [] => none
  | none, c :: cs =>
    if c = '\x7b' then fieldsFrom (some []) cs
    else if c = '\x7d' then none
    else fieldsFrom none cs
  | some name, c :: cs =>
    if c = '\x7d' then (fieldsFrom none cs).map (name :: ·)
    else if c = '\x7b' then none
    else fieldsFrom (some (name ++ [c])) cs

/-- The names of the fields; `none` if a brace does not belong to one. -/
def fields (l : List Char) : Option (List (List Char)) := fieldsFrom none l

/-! ## Templates -/

/-- A text of plain characters and placeholders, with the names of the latter in order. -/
inductive Template : List Char → List (List Char) → Prop
  | nil : Template [] []
  | plain {c : Char} {l : List Char} {names : List (List Char)} :
      isPlain c = true → Template l names → Template (c :: l) names
  | param {name l : List Char} {names : List (List Char)} :
      IsName name → Template l names →
        Template ('%' :: '(' :: name ++ ')' :: 's' :: l) (name :: names)

variable {l : List Char} {names : List (List Char)}

lemma Template.append {l' : List Char} {names' : List (List Char)} (h : Template l names)
    (h' : Template l' names') : Template (l ++ l') (names ++ names') := by
  induction h with
  | nil => exact h'
  | plain hc _ ih => exact .plain hc ih
  | @param name l names hname _ ih =>
    have hlist : '%' :: '(' :: name ++ ')' :: 's' :: l ++ l' =
        '%' :: '(' :: name ++ ')' :: 's' :: (l ++ l') := by simp
    rw [hlist]
    exact .param hname ih

lemma Template.of_all (h : l.all isPlain = true) : Template l [] := by
  induction l with
  | nil => exact .nil
  | cons c l ih =>
    rw [List.all_cons, Bool.and_eq_true] at h
    exact .plain h.1 (ih h.2)

lemma matchPlaceholder_param {name : List Char} (hname : IsName name) (rest : List Char) :
    matchPlaceholder ('%' :: '(' :: name ++ ')' :: 's' :: rest) = some (name, rest) := by
  obtain ⟨c, cs, rfl, hc, hcs⟩ := hname
  have hstop : isNameChar ')' = false := by decide
  have htake : (cs ++ ')' :: 's' :: rest).takeWhile isNameChar = cs := by
    rw [List.takeWhile_append_of_pos hcs, List.takeWhile_cons_of_neg (by simp [hstop]),
      List.append_nil]
  have hdrop : (cs ++ ')' :: 's' :: rest).dropWhile isNameChar = ')' :: 's' :: rest := by
    rw [List.dropWhile_append_of_pos hcs, List.dropWhile_cons_of_neg (by simp [hstop])]
  simp only [List.cons_append, matchPlaceholder, hc, if_true, htake, hdrop]

variable {c : Char}

lemma matchPlaceholder_plain (hc : isPlain c = true) :
    matchPlaceholder (c :: l) = none := by
  unfold matchPlaceholder
  split
  · rename_i heq
    rw [List.cons.injEq] at heq
    rw [heq.1] at hc
    simp [isPlain] at hc
  · rfl

lemma ne_brace_of_isNameChar (h : isNameChar c = true) : c ≠ '\x7b' ∧ c ≠ '\x7d' := by
  constructor
  · rintro rfl
    revert h
    decide
  · rintro rfl
    revert h
    decide

lemma isNameChar_of_isNameStart (h : isNameStart c = true) : isNameChar c = true := by
  simp only [isNameStart, isNameChar, Char.isAlphanum, Bool.or_eq_true] at h ⊢
  rcases h with h | h
  · exact .inl (.inl h)
  · exact .inr h

lemma IsName.all {name : List Char} (h : IsName name) : ∀ c ∈ name, isNameChar c = true := by
  obtain ⟨c, cs, rfl, hc, hcs⟩ := h
  intro c' hc'
  rcases List.mem_cons.1 hc' with rfl | hc'
  · exact isNameChar_of_isNameStart hc
  · exact hcs c' hc'

lemma fieldsFrom_name (name rest : List Char) (h : ∀ c ∈ name, isNameChar c = true)
    (read : List Char) :
    fieldsFrom (some read) (name ++ '\x7d' :: rest) =
      (fieldsFrom none rest).map ((read ++ name) :: ·) := by
  induction name generalizing read with
  | nil => simp [fieldsFrom]
  | cons c name ih =>
    obtain ⟨hopen, hclose⟩ := ne_brace_of_isNameChar (h c (List.mem_cons_self ..))
    rw [List.cons_append, fieldsFrom, if_neg hclose, if_neg hopen,
      ih (fun c' hc' => h c' (List.mem_cons_of_mem _ hc'))]
    simp

theorem fields_normalizeFrom (h : Template l names) :
    ∀ n, l.length ≤ n → fields (normalizeFrom n l) = some names := by
  induction h with
  | nil =>
    intro n _
    cases n <;> rfl
  | @plain c l names hc _ ih =>
    intro n hn
    cases n with
    | zero => simp at hn
    | succ n =>
      have hplain : c ≠ '\x7b' ∧ c ≠ '\x7d' := by
        constructor
        · rintro rfl
          simp [isPlain] at hc
        · rintro rfl
          simp [isPlain] at hc
      simp only [normalizeFrom, matchPlaceholder_plain hc, fields, fieldsFrom, if_neg hplain.1,
        if_neg hplain.2]
      exact ih n (by simpa using hn)
  | @param name l names hname _ ih =>
    intro n hn
    cases n with
    | zero => simp at hn
    | succ n =>
      have hmatch := matchPlaceholder_param hname l
      simp only [List.cons_append] at hmatch
      simp only [List.cons_append, normalizeFrom, hmatch, fields, fieldsFrom, if_true,
        fieldsFrom_name name _ hname.all, List.nil_append]
      have hlen : l.length ≤ n := by
        simp only [List.length_append, List.length_cons] at hn
        omega
      have hrest := ih n hlen
      rw [fields] at hrest
      rw [hrest]
      rfl

theorem fields_normalize (h : Template l names) :
    fields (normalize l) = some names :=
  fields_normalizeFrom h l.length le_rfl

/-! ## Strings -/

/-- A string of plain characters and placeholders, with the names of the latter in order. -/
def Templated (s : String) (names : List String) : Prop :=
  Template s.toList (names.map String.toList)

namespace Templated

lemma append {s s' : String} {names names' : List String} (h : Templated s names)
    (h' : Templated s' names') : Templated (s ++ s') (names ++ names') := by
  unfold Templated
  rw [String.toList_append, List.map_append]
  exact Template.append h h'

lemma plain {l : List Char} (h : l.all isPlain = true) : Templated (String.ofList l) [] := by
  unfold Templated
  rw [String.toList_ofList]
  exact Template.of_all h

lemma param {name : String} (h : IsName name.toList) : Templated ("%(" ++ name ++ ")s") [name] := by
  unfold Templated
  have hlist : ("%(" ++ name ++ ")s").toList = '%' :: '(' :: name.toList ++ ')' :: 's' :: [] := by
    simp
  rw [hlist]
  exact Template.param h .nil

lemma intercalate {sep : String} (hsep : Templated sep []) {texts : List String}
    {names : List (List String)} (h : List.Forall₂ Templated texts names) :
    Templated (String.intercalate sep texts) names.flatten := by
  induction h with
  | nil => exact Template.nil
  | @cons text ns texts names hfirst hrest ih =>
    cases hrest with
    | nil =>
      rw [String.intercalate_singleton, List.flatten_cons, List.flatten_nil, List.append_nil]
      exact hfirst
    | cons hsecond hrest' =>
      rw [String.intercalate_cons_cons, List.flatten_cons]
      have hsecond' := (hfirst.append hsep).append ih
      rwa [List.append_nil] at hsecond'

lemma fields_eq {s : String} {names : List String} (h : Templated s names) :
    fields (normalize s.toList) = some (names.map String.toList) := fields_normalize h

end Templated

/-! ## Names with numbers -/

lemma append_cons_inj {α : Type*} {sep : α} {a a' rest rest' : List α} (ha : sep ∉ a)
    (ha' : sep ∉ a') (h : a ++ sep :: rest = a' ++ sep :: rest') : a = a' ∧ rest = rest' := by
  induction a generalizing a' with
  | nil =>
    cases a' with
    | nil => exact ⟨rfl, (List.cons.inj h).2⟩
    | cons c a' =>
      rw [List.nil_append, List.cons_append, List.cons.injEq] at h
      exact absurd (h.1 ▸ List.mem_cons_self ..) ha'
  | cons c a ih =>
    cases a' with
    | nil =>
      rw [List.nil_append, List.cons_append, List.cons.injEq] at h
      exact absurd (h.1 ▸ List.mem_cons_self ..) ha
    | cons c' a' =>
      rw [List.cons_append, List.cons_append, List.cons.injEq] at h
      obtain ⟨rfl, hrest⟩ := ih (fun hm => ha (List.mem_cons_of_mem _ hm))
        (fun hm => ha' (List.mem_cons_of_mem _ hm)) h.2
      exact ⟨by rw [h.1], hrest⟩

variable {n : ℕ}

lemma isDigit_of_mem_repr (h : c ∈ (Nat.repr n).toList) : c.isDigit = true := by
  have hdigits : (Nat.repr n).toList = Nat.toDigits 10 n := by
    rw [Nat.repr_eq_ofList_toDigits, String.toList_ofList]
  rw [hdigits] at h
  exact Nat.isDigit_of_mem_toDigits (by decide) (by decide) h

lemma repr_inj {m : ℕ} (h : (Nat.repr m).toList = (Nat.repr n).toList) : m = n := by
  have htext : Decimal.text m = Decimal.text n := congrArg Text.ofString (String.toList_inj.1 h)
  rw [← Decimal.value_text m, htext, Decimal.value_text]

lemma repr_append_inj {m : ℕ} {rest rest' : List Char}
    (h : (Nat.repr m).toList ++ '_' :: rest = (Nat.repr n).toList ++ '_' :: rest') :
    m = n ∧ rest = rest' := by
  have hsep : ∀ k : ℕ, '_' ∉ (Nat.repr k).toList := by
    intro k hk
    have hdigit := isDigit_of_mem_repr hk
    revert hdigit
    decide
  obtain ⟨hrepr, hrest⟩ := append_cons_inj (hsep m) (hsep n) h
  exact ⟨repr_inj hrepr, hrest⟩

/-- Strings of name characters. -/
def NameChars (s : String) : Prop := ∀ c ∈ s.toList, isNameChar c = true

lemma NameChars.of_all (h : l.all isNameChar = true) :
    NameChars (String.ofList l) := by
  intro c hc
  rw [String.toList_ofList] at hc
  exact List.all_eq_true.1 h c hc

lemma NameChars.repr (n : ℕ) : NameChars (Nat.repr n) := by
  intro c hc
  simp [isNameChar, Char.isAlphanum, isDigit_of_mem_repr hc]

lemma Templated.repr (n : ℕ) : Templated (Nat.repr n) [] := by
  refine Template.of_all (List.all_eq_true.2 fun c hc => ?_)
  have hdigit := isDigit_of_mem_repr hc
  simp only [Char.isDigit, Bool.and_eq_true, decide_eq_true_eq] at hdigit
  simp only [isPlain, Bool.and_eq_true, bne_iff_ne]
  refine ⟨⟨?_, ?_⟩, ?_⟩ <;>
  · rintro rfl
    revert hdigit
    decide

lemma IsName.append {name rest : String} (h : IsName name.toList) (hrest : NameChars rest) :
    IsName (name ++ rest).toList := by
  obtain ⟨c, cs, hname, hc, hcs⟩ := h
  refine ⟨c, cs ++ rest.toList, by rw [String.toList_append, hname, List.cons_append], hc, ?_⟩
  intro c' hc'
  rcases List.mem_append.1 hc' with hold | hnew
  · exact hcs c' hold
  · exact hrest c' hnew

end Placeholder
