import Apdl.Lib.JsonRoundTrip

set_option autoImplicit false

/-!
# Lengths of JSON texts

What reading and writing again does to the length of a JSON text.

## Main results

* `JsonText.length_quoted` — a printable text in quotes grows by its quotes and backslashes.
-/

namespace JsonText

variable {gap : Text}

mutual

theorem length_write_compact_le (gap : Text) :
    ∀ v : Value, List.length (write [] v) ≤ List.length (write gap v)
  | .null | .bool _ | .int _ | .double _ | .str _ => by simp only [write]; exact le_rfl
  | .arr [] => by simp only [write]; exact le_rfl
  | .arr (v :: vs) => by
    have hv := length_write_compact_le gap v
    have hvs := length_writeItems_compact_le gap vs
    simp only [write, List.length_cons, List.length_append]
    omega
  | .obj [] => by simp only [write]; exact le_rfl
  | .obj ((k, v) :: fs) => by
    have hv := length_write_compact_le gap v
    have hfs := length_writeFields_compact_le gap fs
    simp only [write, List.length_cons, List.length_append, List.length_nil]
    omega

theorem length_writeItems_compact_le (gap : Text) :
    ∀ vs : List Value, List.length (writeItems [] vs) ≤ List.length (writeItems gap vs)
  | [] => by simp only [writeItems]; exact le_rfl
  | v :: vs => by
    have hv := length_write_compact_le gap v
    have hvs := length_writeItems_compact_le gap vs
    simp only [writeItems, List.length_cons, List.length_append, List.length_nil]
    omega

theorem length_writeFields_compact_le (gap : Text) :
    ∀ fs : List (Text × Value), List.length (writeFields [] fs) ≤ List.length (writeFields gap fs)
  | [] => by simp only [writeFields]; exact le_rfl
  | (k, v) :: fs => by
    have hv := length_write_compact_le gap v
    have hfs := length_writeFields_compact_le gap fs
    simp only [writeFields, List.length_cons, List.length_append, List.length_nil]
    omega

end

/-! ## Repeated keys -/

/-- The units of a field with its separators. -/
def fieldSize (gap : Text) (f : Text × Value) : ℕ :=
  2 + 2 * List.length gap + List.length (quoted f.1) + List.length (write gap f.2)

/-- The units of fields with their separators. -/
def fieldsSize (gap : Text) (fs : List (Text × Value)) : ℕ := (fs.map (fieldSize gap)).sum

lemma length_writeFields (fs : List (Text × Value)) :
    List.length (writeFields gap fs) = 1 + fieldsSize gap fs := by
  induction fs with
  | nil =>
    rw [writeFields]
    rfl
  | cons f fs ih =>
    simp only [writeFields, List.length_cons, List.length_append, ih, fieldsSize, List.map_cons,
      List.sum_cons, fieldSize]
    omega

variable (gap) in
lemma length_write_obj {fs : List (Text × Value)} (h : fs ≠ []) :
    List.length (write gap (.obj fs)) + List.length gap = 1 + fieldsSize gap fs := by
  obtain ⟨f, fs, rfl⟩ := List.exists_cons_of_ne_nil h
  simp only [write, List.length_cons, List.length_append, length_writeFields, fieldsSize,
    List.map_cons, List.sum_cons, fieldSize]
  omega

variable (gap) in
lemma fieldsSize_insertField_le (fs : List (Text × Value)) (key : Text) (value : Value) :
    fieldsSize gap (insertField fs key value) ≤ fieldsSize gap fs + fieldSize gap (key, value) := by
  induction fs with
  | nil => simp [insertField, fieldsSize]
  | cons f fs ih =>
    obtain ⟨k, v⟩ := f
    rw [insertField]
    split
    · next hkey =>
      subst hkey
      simp only [fieldsSize, List.map_cons, List.sum_cons]
      omega
    · simp only [fieldsSize, List.map_cons, List.sum_cons] at ih ⊢
      omega

lemma insertField_ne_nil (fs : List (Text × Value)) (key : Text) (value : Value) :
    insertField fs key value ≠ [] := by
  cases fs with
  | nil => simp [insertField]
  | cons f fs =>
    rw [insertField]
    split <;> simp

variable (gap) in
lemma fieldsSize_dictOf_le (pairs : List (Text × Value)) :
    fieldsSize gap (dictOf pairs) ≤ fieldsSize gap pairs := by
  have hfold : ∀ (pairs acc : List (Text × Value)),
      fieldsSize gap (pairs.foldl (fun fields f => insertField fields f.1 f.2) acc) ≤
        fieldsSize gap acc + fieldsSize gap pairs := by
    intro pairs
    induction pairs with
    | nil => exact fun acc => Nat.le_add_right _ _
    | cons f pairs ih =>
      obtain ⟨k, v⟩ := f
      intro acc
      have hstep := fieldsSize_insertField_le gap acc k v
      have hrest := ih (insertField acc k v)
      simp only [List.foldl_cons, fieldsSize, List.map_cons, List.sum_cons] at hstep hrest ⊢
      omega
  simpa [dictOf, fieldsSize] using hfold pairs []

lemma dictOf_ne_nil {pairs : List (Text × Value)} (h : pairs ≠ []) : dictOf pairs ≠ [] := by
  have hfold : ∀ (pairs acc : List (Text × Value)), acc ≠ [] →
      pairs.foldl (fun fields f => insertField fields f.1 f.2) acc ≠ [] := by
    intro pairs
    induction pairs with
    | nil => exact fun acc h => h
    | cons f pairs ih => exact fun acc _ => ih _ (insertField_ne_nil _ _ _)
  obtain ⟨f, pairs, rfl⟩ := List.exists_cons_of_ne_nil h
  exact hfold pairs _ (insertField_ne_nil _ _ _)

mutual

theorem length_write_parsed_le (gap : Text) :
    ∀ v : Value, List.length (write gap (parsed v)) ≤ List.length (write gap v)
  | .null | .bool _ | .int _ | .double _ | .str _ => by simp only [parsed]; exact le_rfl
  | .arr [] => by simp only [parsed, parsedItems]; exact le_rfl
  | .arr (v :: vs) => by
    have hv := length_write_parsed_le gap v
    have hvs := length_writeItems_parsed_le gap vs
    simp only [parsed, parsedItems, write, List.length_cons, List.length_append]
    omega
  | .obj [] => by
    simp only [parsed, parsedFields]
    exact le_rfl
  | .obj (f :: fs) => by
    have hsize := fieldsSize_parsed_le gap (f :: fs)
    have hdict := fieldsSize_dictOf_le gap (parsedFields (f :: fs))
    have hne : dictOf (parsedFields (f :: fs)) ≠ [] := dictOf_ne_nil (by simp [parsedFields])
    have hparsed := length_write_obj gap hne
    have hwrite := length_write_obj gap (List.cons_ne_nil f fs)
    rw [parsed]
    omega

theorem length_writeItems_parsed_le (gap : Text) : ∀ vs : List Value,
    List.length (writeItems gap (parsedItems vs)) ≤ List.length (writeItems gap vs)
  | [] => by simp only [parsedItems]; exact le_rfl
  | v :: vs => by
    have hv := length_write_parsed_le gap v
    have hvs := length_writeItems_parsed_le gap vs
    simp only [parsedItems, writeItems, List.length_cons, List.length_append]
    omega

theorem fieldsSize_parsed_le (gap : Text) : ∀ fs : List (Text × Value),
    fieldsSize gap (parsedFields fs) ≤ fieldsSize gap fs
  | [] => by simp only [parsedFields]; exact le_rfl
  | (k, v) :: fs => by
    have hv := length_write_parsed_le gap v
    have hfs := fieldsSize_parsed_le gap fs
    simp only [parsedFields, fieldsSize, List.map_cons, List.sum_cons, fieldSize] at hfs ⊢
    omega

end

/-! ## Printable texts -/

/-- Every unit of the text is a printable ASCII unit. -/
def Printable (t : Text) : Prop := ∀ u ∈ t, 32 ≤ u.toNat ∧ u.toNat ≤ 126

instance : DecidablePred Printable := fun t => List.decidableBAll _ t

lemma printable_nil : Printable [] := fun _ h => absurd h List.not_mem_nil

variable {t : Text}

lemma Printable.cons {u : CodeUnit} (hu : 32 ≤ u.toNat ∧ u.toNat ≤ 126)
    (ht : Printable t) : Printable (u :: t) := List.forall_mem_cons.2 ⟨hu, ht⟩

lemma Printable.append {s : Text} (hs : Printable s) (ht : Printable t) : Printable (s ++ t) := by
  intro u hu
  rcases List.mem_append.1 hu with hu | hu
  · exact hs u hu
  · exact ht u hu

lemma printable_escape (u : CodeUnit) : Printable (escape u) := by
  rcases escape_cases u with ⟨letter, hlookup, hu⟩ | ⟨-, -, hlo, hhi, hu⟩ | ⟨-, hu⟩
  · have hall : ∀ e ∈ shortEscapes, 32 ≤ e.2.toNat ∧ e.2.toNat ≤ 126 := by
      simp only [shortEscapes, List.forall_mem_cons, List.not_mem_nil, false_implies, implies_true]
      decide
    rw [hu]
    exact (printable_nil.cons (hall _ (mem_of_lookup hlookup))).cons (by decide)
  · rw [hu]
    exact printable_nil.cons ⟨hlo, hhi⟩
  · have hhex : ∀ n < 16, 32 ≤ (hexDigit n).toNat ∧ (hexDigit n).toNat ≤ 126 := by decide
    have hu' := u.toNat_lt
    rw [hu, hexText]
    exact (((((printable_nil.cons (hhex _ (by omega))).cons (hhex _ (by omega))).cons
      (hhex _ (by omega))).cons (hhex _ (by omega))).cons (by decide)).cons (by decide)

lemma printable_quoted (s : Text) : Printable (quoted s) := by
  refine Printable.cons (by decide) (Printable.append ?_ (printable_nil.cons (by decide)))
  intro u hu
  obtain ⟨v, -, hv⟩ := List.mem_flatMap.1 hu
  exact printable_escape v u hv

lemma printable_number {l : NumberLiteral} (h : l.WellFormed) : Printable l.write := by
  intro u hu
  rcases NumberLiteral.mem_write h hu with hd | rfl | rfl | rfl | rfl
  · have := isDigit_iff.1 hd
    omega
  · decide
  · decide
  · decide
  · decide

lemma printable_word {w : Text} {v : Value} (h : (w, v) ∈ constants) : Printable w := by
  simp only [constants, List.mem_cons, Prod.mk.injEq, List.not_mem_nil, or_false] at h
  rcases h with ⟨rfl, -⟩ | ⟨rfl, -⟩ | ⟨rfl, -⟩ | ⟨rfl, -⟩ | ⟨rfl, -⟩ | ⟨rfl, -⟩ <;> decide

mutual

theorem printable_write (hgap : Printable gap) : ∀ v : Value, Printable (write gap v)
  | .null => by rw [write]; decide
  | .bool b => by rw [write]; cases b <;> decide
  | .int n => by rw [write]; exact printable_number (NumberLiteral.wellFormed_ofInt n)
  | .double x => by
    rw [write]
    rcases writeDouble_cases x with hword | ⟨l, hl, -, hwrite, -⟩
    · exact printable_word hword
    · rw [hwrite]
      exact printable_number hl
  | .str s => by rw [write]; exact printable_quoted s
  | .arr [] => by rw [write]; decide
  | .arr (v :: vs) => by
    rw [write]
    exact ((printable_write hgap v).append (printable_writeItems hgap vs)).cons (by decide)
  | .obj [] => by rw [write]; decide
  | .obj ((k, v) :: fs) => by
    rw [write]
    have hvalue := (printable_write hgap v).append (printable_writeFields hgap fs)
    exact ((printable_quoted k).append ((hgap.append hvalue).cons (by decide))).cons (by decide)

theorem printable_writeItems (hgap : Printable gap) :
    ∀ vs : List Value, Printable (writeItems gap vs)
  | [] => by rw [writeItems]; exact printable_nil.cons (by decide)
  | v :: vs => by
    rw [writeItems]
    exact (hgap.append ((printable_write hgap v).append (printable_writeItems hgap vs))).cons
      (by decide)

theorem printable_writeFields (hgap : Printable gap) :
    ∀ fs : List (Text × Value), Printable (writeFields gap fs)
  | [] => by rw [writeFields]; exact printable_nil.cons (by decide)
  | (k, v) :: fs => by
    rw [writeFields]
    have hvalue := (printable_write hgap v).append (printable_writeFields hgap fs)
    exact (hgap.append ((printable_quoted k).append ((hgap.append hvalue).cons (by decide)))).cons
      (by decide)

end

/-- The quotes and the backslashes of a text. -/
def escapes (t : Text) : ℕ := t.count 34 + t.count 92

theorem length_quoted (h : Printable t) :
    List.length (quoted t) = List.length t + escapes t + 2 := by
  have hescape : ∀ u : CodeUnit, 32 ≤ u.toNat ∧ u.toNat ≤ 126 →
      List.length (escape u) = 1 + escapes [u] := by
    intro u hprint
    rcases escape_cases u with ⟨letter, hlookup, hu⟩ | ⟨hq, hb, -, -, hu⟩ | ⟨hno, -⟩
    · have hall : ∀ e ∈ shortEscapes, 32 ≤ e.1.toNat → escapes [e.1] = 1 := by
        simp only [shortEscapes, List.forall_mem_cons, List.not_mem_nil, false_implies, implies_true]
        decide
      rw [hu, hall _ (mem_of_lookup hlookup) hprint.1]
      rfl
    · simp [hu, escapes, hq, hb]
    · exact absurd hprint hno
  have hbody : (t.flatMap escape).length = List.length t + escapes t := by
    induction t with
    | nil => rfl
    | cons u t ih =>
      obtain ⟨hu, ht⟩ := List.forall_mem_cons.1 h
      have := ih ht
      have hcons : escapes (u :: t) = escapes [u] + escapes t := by
        simp only [escapes, List.count_cons, List.count_nil]
        omega
      rw [List.flatMap_cons, List.length_append, hescape u hu, this, hcons, List.length_cons]
      omega
  rw [quoted, List.length_cons, List.length_append, hbody, List.length_singleton]

lemma length_of_printable (h : Printable t) : t.length = t.unitLength := by
  induction t with
  | nil => rfl
  | cons u t ih =>
    obtain ⟨hu, ht⟩ := List.forall_mem_cons.1 h
    have hhigh : u.isHigh = false := by
      rw [CodeUnit.isHigh, Bool.and_eq_false_iff]
      exact .inl (decide_eq_false (by omega))
    have hrest := ih ht
    unfold Text.length Text.unitLength at hrest ⊢
    rw [Text.codePoints_cons hhigh, List.length_cons, List.length_cons, hrest]

lemma escapes_append (s t : Text) : escapes (s ++ t) = escapes s + escapes t := by
  simp only [escapes, List.count_append]
  omega

lemma plain_digits (h : Decimal.Digits t) : Printable t ∧ escapes t = 0 ∧ 34 ∉ t := by
  have hne : ∀ v : CodeUnit, 57 < v.toNat ∨ v.toNat < 48 → v ∉ t := by
    intro v hv hmem
    have := h v hmem
    omega
  refine ⟨fun u hu => ?_, ?_, hne 34 (by decide)⟩
  · have := h u hu
    omega
  · rw [escapes, List.count_eq_zero.2 (hne 34 (by decide)), List.count_eq_zero.2 (hne 92 (by decide))]

end JsonText
