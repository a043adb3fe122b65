import Apdl.Lib.PyEqual
import Mathlib.Data.List.Sort

set_option autoImplicit false

/-!
# Documents in a `jsonb` column

A `jsonb` column keeps the value of a document and not its text: the keys of an object come back in
the order of their lengths, and text that Postgres cannot store is refused. Numbers that are written
with a fraction come back with one as long as they are of moderate size.

## Main results

* `Jsonb.faithful_store` — the column keeps it.
-/

namespace Jsonb

open PyJson
open Doc (Fields)

mutual

/-- No number with a fraction is so large that it is written without one. -/
def moderate : Doc → Bool
  | .float q => decide (|q| < 1000000000000000)
  | .arr items => moderateItems items
  | .obj fields => moderateFields fields
  | _ => true

def moderateItems : List Doc → Bool
  | [] => true
  | d :: ds => moderate d && moderateItems ds

def moderateFields : List (Text × Doc) → Bool
  | [] => true
  | (_, d) :: ds => moderate d && moderateFields ds

end

/-- What the column gives back is read as a value that is equal to the one that was written. -/
def Faithful (jsonb : Doc → Option Doc) : Prop :=
  ∀ d stored, parse d = .ok d → moderate d = true → jsonb d = some stored →
    ∃ u, parse stored = .ok u ∧ equal u d = true

/-! ## The column -/

/-- The text has no zero character and no unpaired surrogate. -/
def storableText (t : Text) : Bool :=
  t.codePoints.all fun c => decide (c ≠ 0) && !(decide (0xD800 ≤ c) && decide (c ≤ 0xDFFF))

mutual

/-- Every string and key can be stored. -/
def storable : Doc → Bool
  | .str s => storableText s
  | .arr items => storableItems items
  | .obj fields => storableFields fields
  | _ => true

def storableItems : List Doc → Bool
  | [] => true
  | d :: ds => storable d && storableItems ds

def storableFields : List (Text × Doc) → Bool
  | [] => true
  | (k, d) :: ds => storableText k && storable d && storableFields ds

end

def utf8Length (t : Text) : ℕ :=
  (t.codePoints.map fun c =>
    if c < 0x80 then 1 else if c < 0x800 then 2 else if c < 0x10000 then 3 else 4).sum

/-- The order of keys: shorter keys first, then by their bytes. -/
def keyLe (a b : Text) : Bool :=
  decide (utf8Length a < utf8Length b) ||
    (decide (utf8Length a = utf8Length b) && decide (a.codePoints ≤ b.codePoints))

mutual

/-- The document with the keys of its objects in order. -/
def sortKeys : Doc → Doc
  | .arr items => .arr (sortItems items)
  | .obj fields => .obj ((sortFields fields).insertionSort fun f g => keyLe f.1 g.1 = true)
  | d => d

def sortItems : List Doc → List Doc
  | [] => []
  | d :: ds => sortKeys d :: sortItems ds

/-- The fields of an object, each with its value. -/
def sortFields : List (Text × Doc) → List (Text × Doc)
  | [] => []
  | (k, d) :: ds => (k, sortKeys d) :: sortFields ds

end

/-- The column on documents of moderate size. -/
def store (d : Doc) : Option Doc := if storable d then some (sortKeys d) else none

/-! ## Faithfulness -/

lemma fixed_of_parse_arr {items : List Doc} (h : parse (.arr items) = .ok (.arr items)) :
    ∀ d ∈ items, parse d = .ok d := by
  simp only [parse] at h
  cases hitems : parseItems items with
  | error e =>
    rw [hitems] at h
    cases h
  | ok vs =>
    rw [hitems] at h
    obtain rfl : vs = items := by simpa [Except.map] using h
    exact parseItems_parse hitems

lemma equalNumber_self {d : Doc} (h : number d ≠ none) : equalNumber d d = true := by
  unfold equalNumber
  cases hd : number d with
  | none => exact absurd hd h
  | some q => simp

/-- A document and its sorted form: both are read as themselves, and they are equal. -/
def Kept (d : Doc) : Prop := parse (sortKeys d) = .ok (sortKeys d) ∧ equal (sortKeys d) d = true

lemma mem_sortFields {fields : Fields} {f : Text × Doc} (h : f ∈ sortFields fields) :
    ∃ g ∈ fields, f = (g.1, sortKeys g.2) := by
  induction fields with
  | nil => cases h
  | cons g fields ih =>
    rcases List.mem_cons.1 h with rfl | h
    · exact ⟨g, List.mem_cons_self, rfl⟩
    · obtain ⟨g', hg', rfl⟩ := ih h
      exact ⟨g', List.mem_cons_of_mem g hg', rfl⟩

lemma keys_sortFields (fields : Fields) :
    (sortFields fields).map Prod.fst = fields.map Prod.fst := by
  induction fields with
  | nil => rfl
  | cons g fields ih => rw [sortFields, List.map_cons, List.map_cons, ih]

lemma kept_obj {fields : Fields} (hnodup : (fields.map Prod.fst).Nodup)
    (h : ∀ f ∈ fields, Kept f.2) : Kept (.obj fields) := by
  have hperm := List.perm_insertionSort (fun f g : Text × Doc => keyLe f.1 g.1 = true)
    (sortFields fields)
  have hmem : ∀ f ∈ (sortFields fields).insertionSort (fun f g => keyLe f.1 g.1 = true),
      ∃ g ∈ fields, f = (g.1, sortKeys g.2) := fun f hf => mem_sortFields (hperm.mem_iff.1 hf)
  constructor
  · rw [sortKeys]
    refine parse_obj_of_fixed ?_ fun f hf => ?_
    · rw [(hperm.map Prod.fst).nodup_iff, keys_sortFields]
      exact hnodup
    · obtain ⟨g, hg, rfl⟩ := hmem f hf
      exact (h g hg).1
  · rw [sortKeys, equal, Bool.and_eq_true, decide_eq_true_eq, equalFields_iff]
    refine ⟨?_, fun f hf => ?_⟩
    · rw [hperm.length_eq, ← List.length_map Prod.fst, keys_sortFields, List.length_map]
    · obtain ⟨g, hg, rfl⟩ := hmem f hf
      exact ⟨g.2, (get_eq_some_iff hnodup).2 hg, (h g hg).2⟩

lemma kept_arr {items : List Doc} (h : ∀ d ∈ items, Kept d) : Kept (.arr items) := by
  have hitems : parseItems (sortItems items) = .ok (sortItems items) ∧
      equalItems (sortItems items) items = true := by
    induction items with
    | nil => exact ⟨rfl, rfl⟩
    | cons d ds ih =>
      obtain ⟨hd, hds⟩ := List.forall_mem_cons.1 h
      obtain ⟨hparse, hequal⟩ := ih hds
      constructor
      · rw [sortItems, parseItems, hd.1, hparse]
        rfl
      · rw [sortItems, equalItems, hd.2, hequal]
        rfl
  constructor
  · rw [sortKeys, parse, hitems.1]
    rfl
  · rw [sortKeys, equal]
    exact hitems.2

mutual

theorem kept : ∀ {d : Doc}, parse d = .ok d → Kept d
  | .null, _ => ⟨rfl, rfl⟩
  | .bool b, h => by
    have hself : equalNumber (.bool b) (.bool b) = true := equalNumber_self (by simp [number])
    exact ⟨h, hself⟩
  | .int n, h => by
    have hself : equalNumber (.int n) (.int n) = true := equalNumber_self (by simp [number])
    exact ⟨h, hself⟩
  | .float q, h => by
    have hself : equalNumber (.float q) (.float q) = true := by
      refine equalNumber_self ?_
      simp only [number]
      cases Double.round q <;> simp
    exact ⟨h, hself⟩
  | .str s, _ => ⟨rfl, by simp [sortKeys, equal]⟩
  | .arr items, h => kept_arr (keptItems (fixed_of_parse_arr h))
  | .obj fields, h => kept_obj (fixed_of_parse_obj h).1 (keptFields (fixed_of_parse_obj h).2)

theorem keptItems : ∀ {items : List Doc}, (∀ d ∈ items, parse d = .ok d) → ∀ d ∈ items, Kept d
  | [], _ => nofun
  | d :: ds, h => by
    obtain ⟨hd, hds⟩ := List.forall_mem_cons.1 h
    exact List.forall_mem_cons.2 ⟨kept hd, keptItems hds⟩

theorem keptFields : ∀ {fields : List (Text × Doc)}, (∀ f ∈ fields, parse f.2 = .ok f.2) →
    ∀ f ∈ fields, Kept f.2
  | [], _ => nofun
  | (k, d) :: fs, h => by
    obtain ⟨hd, hfs⟩ := List.forall_mem_cons.1 h
    exact List.forall_mem_cons.2 ⟨kept hd, keptFields hfs⟩

end

theorem faithful_store : Faithful store := by
  intro d stored hd _ hstore
  unfold store at hstore
  split_ifs at hstore
  cases hstore
  exact ⟨sortKeys d, kept hd⟩

end Jsonb
