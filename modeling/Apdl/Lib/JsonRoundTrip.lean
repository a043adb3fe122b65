import Apdl.Lib.JsonText

set_option autoImplicit false

/-!
# Reading JSON texts that were written

A text of the writer is read back, and no such text is read when it is cut and goes on with dots.

## Main results

* `JsonText.loads_cut` — a text that is cut and goes on with two dots and no quote is no JSON text.
-/

namespace JsonText

/-! ## Texts that are cut -/

/-- The text `p` is `t` without a part of its end. -/
def Cut (p t : Text) : Prop := p <+: t ∧ p ≠ t

variable {p b t w : Text}

lemma not_cut_nil : ¬ Cut p [] := fun h => h.2 (List.prefix_nil.1 h.1)

lemma Cut.append {a : Text} (h : Cut p (a ++ b)) :
    Cut p a ∨ ∃ q, p = a ++ q ∧ Cut q b := by
  rcases List.prefix_or_prefix_of_prefix h.1 (List.prefix_append a b) with hp | ⟨q, rfl⟩
  · by_cases hne : p = a
    · subst hne
      refine .inr ⟨[], by simp, List.nil_prefix, fun hb => h.2 ?_⟩
      rw [← hb, List.append_nil]
    · exact .inl ⟨hp, hne⟩
  · refine .inr ⟨q, rfl, (List.prefix_append_right_inj a).1 h.1, fun hq => h.2 (by rw [hq])⟩

variable {u : CodeUnit}

lemma Cut.cons (h : Cut p (u :: b)) :
    p = [] ∨ ∃ q, p = u :: q ∧ Cut q b := by
  rcases Cut.append (a := [u]) h with ⟨hp, hne⟩ | ⟨q, rfl, hq⟩
  · rcases List.prefix_cons_iff.1 hp with rfl | ⟨q, rfl, hq⟩
    · exact .inl rfl
    · exact absurd (by rw [List.prefix_nil.1 hq]) hne
  · exact .inr ⟨q, rfl, hq⟩

lemma forall_cut_cons {P : Text → Prop} (hnil : P [])
    (hcons : ∀ q, Cut q b → P (u :: q)) : ∀ p, Cut p (u :: b) → P p := by
  intro p hp
  rcases hp.cons with rfl | ⟨q, rfl, hq⟩
  · exact hnil
  · exact hcons q hq

/-! ## Strings -/

lemma hexValue_hexDigit {n : ℕ} (h : n < 16) : hexValue (hexDigit n) = some n := by
  have hall : ∀ n < 16, hexValue (hexDigit n) = some n := by decide
  exact hall n h

lemma hexUnit_hexText (u : CodeUnit) :
    hexUnit (hexDigit (u.toNat / 4096)) (hexDigit (u.toNat / 256 % 16)) (hexDigit (u.toNat / 16 % 16))
      (hexDigit (u.toNat % 16)) = some u := by
  have hu := u.toNat_lt
  have hdigits : 4096 * (u.toNat / 4096) + 256 * (u.toNat / 256 % 16) + 16 * (u.toNat / 16 % 16) +
      u.toNat % 16 = u.toNat := by omega
  rw [hexUnit, hexValue_hexDigit (by omega), hexValue_hexDigit (by omega),
    hexValue_hexDigit (by omega), hexValue_hexDigit (by omega)]
  show some (UInt16.ofNat _) = some u
  rw [hdigits, UInt16.ofNat_toNat]

lemma mem_of_lookup {letter : CodeUnit} (h : shortEscapes.lookup u = some letter) :
    (u, letter) ∈ shortEscapes := by
  rw [List.lookup_eq_some_iff] at h
  obtain ⟨l₁, l₂, heq, -⟩ := h
  rw [heq]
  simp

lemma letterUnit_of_lookup {letter : CodeUnit} (h : shortEscapes.lookup u = some letter) :
    letterUnit letter = some u ∧ letter ≠ 117 := by
  have hall : ∀ e ∈ shortEscapes, letterUnit e.2 = some e.1 ∧ e.2 ≠ 117 := by
    simp only [shortEscapes, List.forall_mem_cons, List.not_mem_nil, false_implies, implies_true]
    decide
  exact hall _ (mem_of_lookup h)

lemma escape_cases (u : CodeUnit) :
    (∃ letter, shortEscapes.lookup u = some letter ∧ escape u = [92, letter]) ∨
    (u ≠ 34 ∧ u ≠ 92 ∧ 32 ≤ u.toNat ∧ u.toNat ≤ 126 ∧ escape u = [u]) ∨
    (¬ (32 ≤ u.toNat ∧ u.toNat ≤ 126) ∧ escape u = 92 :: 117 :: hexText u) := by
  unfold escape
  cases hlookup : shortEscapes.lookup u with
  | some letter => exact .inl ⟨letter, rfl, rfl⟩
  | none =>
    by_cases hprint : 32 ≤ u.toNat ∧ u.toNat ≤ 126
    · refine .inr (.inl ⟨?_, ?_, hprint.1, hprint.2, if_pos hprint⟩)
      · rintro rfl
        cases hlookup
      · rintro rfl
        cases hlookup
    · exact .inr (.inr ⟨hprint, if_neg hprint⟩)

lemma scanString_quote (t : Text) : scanString (34 :: t) = some ([], t) := by
  rw [scanString.eq_def]
  exact if_pos rfl

lemma scanString_plain (hq : u ≠ 34) (hb : u ≠ 92) (hlo : 32 ≤ u.toNat) (t : Text) :
    scanString (u :: t) = (scanString t).map fun r => (u :: r.1, r.2) := by
  rw [scanString.eq_def]
  dsimp only
  rw [if_neg hq, if_neg hb, if_neg (by omega)]

lemma scanString_letter {e : CodeUnit} (he : e ≠ 117) (t : Text) : scanString (92 :: e :: t) =
    (letterUnit e).bind fun v => (scanString t).map fun r => (v :: r.1, r.2) := by
  rw [scanString.eq_def]
  dsimp only
  rw [if_neg (by decide), if_pos rfl, if_neg he]

lemma scanString_hex (a b c d : CodeUnit) (t : Text) :
    scanString (92 :: 117 :: a :: b :: c :: d :: t) =
      (hexUnit a b c d).bind fun v => (scanString t).map fun r => (v :: r.1, r.2) := by
  rw [scanString.eq_def]
  dsimp only
  rw [if_neg (by decide), if_pos rfl, if_pos rfl]

lemma scanString_escape (u : CodeUnit) (t : Text) :
    scanString (escape u ++ t) = (scanString t).map fun r => (u :: r.1, r.2) := by
  rcases escape_cases u with ⟨letter, hlookup, hu⟩ | ⟨hq, hb, hlo, -, hu⟩ | ⟨-, hu⟩
  · obtain ⟨hletter, h117⟩ := letterUnit_of_lookup hlookup
    rw [hu]
    show scanString (92 :: letter :: t) = _
    rw [scanString_letter h117, hletter, Option.bind_some]
  · rw [hu]
    exact scanString_plain hq hb hlo t
  · rw [hu, hexText]
    show scanString (92 :: 117 :: _ :: _ :: _ :: _ :: t) = _
    rw [scanString_hex, hexUnit_hexText, Option.bind_some]

theorem scanString_write (s t : Text) : scanString (s.flatMap escape ++ 34 :: t) = some (s, t) := by
  induction s with
  | nil => exact scanString_quote t
  | cons u s ih =>
    rw [List.flatMap_cons, List.append_assoc, scanString_escape, ih, Option.map_some]

lemma scanString_of_not_mem (h : 34 ∉ t) : scanString t = none := by
  fun_induction scanString t <;> simp_all

lemma not_mem_of_escape (h : p <+: escape u) (hne : p ≠ escape u) :
    34 ∉ p := by
  obtain ⟨r, hr⟩ := h
  have hrne : r ≠ [] := by
    rintro rfl
    exact hne (by simpa using hr)
  have hp : p <+: (escape u).dropLast := by
    rw [← hr, List.dropLast_append_of_ne_nil hrne]
    exact List.prefix_append _ _
  intro hmem
  have hlast := hp.subset hmem
  rcases escape_cases u with ⟨letter, -, hu⟩ | ⟨-, -, -, -, hu⟩ | ⟨-, hu⟩
  · rw [hu] at hlast
    simp at hlast
  · rw [hu] at hlast
    simp at hlast
  · have hhex : ∀ n < 16, hexDigit n ≠ 34 := by decide
    have hu' := u.toNat_lt
    rw [hu, hexText] at hlast
    simp only [List.dropLast_cons_cons, List.dropLast_singleton, List.mem_cons, List.not_mem_nil, or_false]
      at hlast
    rcases hlast with h | h | h | h | h
    · cases h
    · cases h
    · exact hhex _ (by omega) h.symm
    · exact hhex _ (by omega) h.symm
    · exact hhex _ (by omega) h.symm

theorem scanString_cut {s : Text} (hp : Cut p (s.flatMap escape ++ [34])) (ht : 34 ∉ t) :
    scanString (p ++ t) = none := by
  induction s generalizing p with
  | nil =>
    rcases hp.cons with rfl | ⟨q, -, hq⟩
    · exact scanString_of_not_mem ht
    · exact absurd hq not_cut_nil
  | cons u s ih =>
    rw [List.flatMap_cons, List.append_assoc] at hp
    rcases hp.append with ⟨hpre, hne⟩ | ⟨q, rfl, hq⟩
    · refine scanString_of_not_mem fun hmem => ?_
      rcases List.mem_append.1 hmem with hmem | hmem
      · exact not_mem_of_escape hpre hne hmem
      · exact ht hmem
    · rw [List.append_assoc, scanString_escape, ih hq, Option.map_none]

/-! ## Words and numbers -/

/-- A unit that cannot follow a value. -/
def Stuck (u : CodeUnit) : Prop := isSpace u = false ∧ u ≠ 44 ∧ u ≠ 58 ∧ u ≠ 93 ∧ u ≠ 125

instance (u : CodeUnit) : Decidable (Stuck u) := by
  unfold Stuck
  infer_instance

/-- A text is a value that something follows which cannot follow it, or it is none. -/
def Fails (r : Except JsonError (Value × Text)) : Prop :=
  r = .error .decode ∨ ∃ v u t, r = .ok (v, u :: t) ∧ Stuck u

variable {l : NumberLiteral}

lemma NumberLiteral.write_head (h : l.WellFormed) :
    ∃ u t, isDigit u = true ∧ (l.write = u :: t ∨ l.write = 45 :: u :: t) := by
  obtain ⟨u, w, hw, hu⟩ : ∃ u w, l.whole = u :: w ∧ isDigit u = true := by
    rcases h.whole with hw | ⟨u, w, hw, -, hdigits⟩
    · exact ⟨48, [], hw, rfl⟩
    · exact ⟨u, w, hw, isDigit_iff.2 (hdigits u List.mem_cons_self)⟩
  refine ⟨u, w ++ (NumberLiteral.fractionText l.fraction ++ NumberLiteral.exponentText l.exponent),
    hu, ?_⟩
  unfold NumberLiteral.write
  rw [hw]
  cases l.negative with
  | false => exact .inl rfl
  | true => exact .inr rfl

lemma NumberLiteral.mem_write (h : l.WellFormed)
    (hu : u ∈ l.write) : isDigit u = true ∨ u = 43 ∨ u = 45 ∨ u = 46 ∨ u = 101 := by
  have hwhole : Decimal.Digits l.whole := by
    rcases h.whole with hw | ⟨u, w, hw, -, hdigits⟩
    · rw [hw]
      exact NumberLiteral.digits_zeros 1
    · rwa [hw]
  simp only [NumberLiteral.write, List.mem_append] at hu
  rcases hu with hu | hu | hu | hu
  · split at hu
    · simp at hu
      simp [hu]
    · cases hu
  · exact .inl (isDigit_iff.2 (hwhole u hu))
  · cases hf : l.fraction with
    | none =>
      rw [hf] at hu
      cases hu
    | some digits =>
      rw [hf, NumberLiteral.fractionText, List.mem_cons] at hu
      rcases hu with rfl | hu
      · simp
      · exact .inl (isDigit_iff.2 ((h.fraction digits hf).2 u hu))
  · cases he : l.exponent with
    | none =>
      rw [he] at hu
      cases hu
    | some parts =>
      obtain ⟨sign, digits⟩ := parts
      rw [he, NumberLiteral.exponentText, List.mem_cons, List.mem_cons] at hu
      rcases hu with rfl | rfl | hu
      · simp
      · cases sign <;> simp
      · exact .inl (isDigit_iff.2 ((h.exponent sign digits he).2 u hu))

lemma stuck_of_number (h : isDigit u = true ∨ u = 43 ∨ u = 45 ∨ u = 46 ∨ u = 101) : Stuck u := by
  rcases h with h | rfl | rfl | rfl | rfl
  · obtain ⟨hlo, hhi⟩ := isDigit_iff.1 h
    have hne : ∀ v : CodeUnit, v.toNat < 48 ∨ 57 < v.toNat → u ≠ v := by
      rintro v hv rfl
      omega
    refine ⟨?_, hne 44 (by decide), hne 58 (by decide), hne 93 (by decide), hne 125 (by decide)⟩
    simp [isSpace, hne 32 (by decide), hne 9 (by decide), hne 10 (by decide), hne 13 (by decide)]
  · decide
  · decide
  · decide
  · decide

lemma scanConstant_of_head (h : u ≠ 110 ∧ u ≠ 116 ∧ u ≠ 102 ∧ u ≠ 78 ∧ u ≠ 73 ∧ u ≠ 45) (t : Text) :
    scanConstant (u :: t) = none := by
  obtain ⟨h1, h2, h3, h4, h5, h6⟩ := h
  simp [scanConstant, constants, nullText, boolText, nanText, infinityText, stripWord, h1.symm,
    h2.symm, h3.symm, h4.symm, h5.symm, h6.symm]

lemma scanConstant_of_sign (h : u ≠ 73) (t : Text) :
    scanConstant (45 :: u :: t) = none := by
  simp [scanConstant, constants, nullText, boolText, nanText, infinityText, stripWord, h.symm]

lemma ne_of_isDigit (h : isDigit u = true) {v : CodeUnit}
    (hv : v.toNat < 48 ∨ 57 < v.toNat) : u ≠ v := by
  obtain ⟨hlo, hhi⟩ := isDigit_iff.1 h
  rintro rfl
  omega

/-- **A number is read back.** -/
lemma scanAtom_number (h : l.WellFormed) (ht : NumberLiteral.Stops t) :
    scanAtom (l.write ++ t) = l.value.map fun n => (Value.ofNumber n, t) := by
  obtain ⟨u, w, hu, hw⟩ := NumberLiteral.write_head h
  have hne := fun v hv => ne_of_isDigit hu (v := v) hv
  have hword : scanConstant (l.write ++ t) = none := by
    rcases hw with hw | hw
    · rw [hw]
      exact scanConstant_of_head ⟨hne 110 (by decide), hne 116 (by decide), hne 102 (by decide),
        hne 78 (by decide), hne 73 (by decide), hne 45 (by decide)⟩ _
    · rw [hw]
      exact scanConstant_of_sign (hne 73 (by decide)) _
  rw [scanAtom, hword, NumberLiteral.scan_write h ht]

lemma scanAtom_number_cut (h : l.WellFormed)
    (hlen : l.whole.unitLength ≤ NumberLiteral.maxDigits) (hp : Cut p l.write)
    (t : Text) : Fails (scanAtom (p ++ 46 :: 46 :: t)) := by
  have hpre := hp.1
  have hword : scanConstant (p ++ 46 :: 46 :: t) = none := by
    obtain ⟨u, w, hu, hw⟩ := NumberLiteral.write_head h
    have hne := fun v hv => ne_of_isDigit hu (v := v) hv
    have hdigit : ∀ t, scanConstant (u :: t) = none := scanConstant_of_head ⟨hne 110 (by decide),
      hne 116 (by decide), hne 102 (by decide), hne 78 (by decide), hne 73 (by decide),
      hne 45 (by decide)⟩
    rcases hw with hw | hw
    · rw [hw] at hp
      rcases hp.cons with rfl | ⟨q, rfl, -⟩
      · exact scanConstant_of_head (by decide) _
      · exact hdigit _
    · rw [hw] at hp
      rcases hp.cons with rfl | ⟨q, rfl, hq⟩
      · exact scanConstant_of_head (by decide) _
      · rcases hq.cons with rfl | ⟨q, rfl, -⟩
        · exact scanConstant_of_sign (by decide) _
        · exact scanConstant_of_sign (hne 73 (by decide)) _
  rw [scanAtom, hword]
  rcases NumberLiteral.scan_dots p t with hnone | ⟨l', q, hq, hsome⟩
  · exact .inl (by rw [hnone])
  · have hshort := (NumberLiteral.length_whole_cut h hpre t hsome).trans hlen
    obtain ⟨n, hn⟩ : ∃ n, l'.value = .ok n := by
      unfold NumberLiteral.value
      split
      · exact ⟨_, if_neg (not_lt.2 hshort)⟩
      · exact ⟨_, rfl⟩
    obtain ⟨u, r, hr, hu⟩ : ∃ u r, q ++ 46 :: 46 :: t = u :: r ∧ Stuck u := by
      cases q with
      | nil => exact ⟨46, 46 :: t, rfl, by decide⟩
      | cons u q =>
        exact ⟨u, q ++ 46 :: 46 :: t, rfl, stuck_of_number
          (NumberLiteral.mem_write h (hpre.subset (hq.subset List.mem_cons_self)))⟩
    exact .inr ⟨Value.ofNumber n, u, r, by rw [hsome, ← hr]; simp [hn, Except.map], hu⟩

variable {v : Value}

lemma scanAtom_word (h : (w, v) ∈ constants) (t : Text) :
    scanAtom (w ++ t) = .ok (v, t) := by
  simp only [constants, List.mem_cons, Prod.mk.injEq, List.not_mem_nil, or_false] at h
  rcases h with ⟨rfl, rfl⟩ | ⟨rfl, rfl⟩ | ⟨rfl, rfl⟩ | ⟨rfl, rfl⟩ | ⟨rfl, rfl⟩ | ⟨rfl, rfl⟩ <;> rfl

lemma scanAtom_word_cut (h : (w, v) ∈ constants) (t : Text) :
    ∀ p, Cut p w → scanAtom (p ++ 46 :: 46 :: t) = .error .decode := by
  simp only [constants, List.mem_cons, Prod.mk.injEq, List.not_mem_nil, or_false] at h
  rcases h with ⟨rfl, rfl⟩ | ⟨rfl, rfl⟩ | ⟨rfl, rfl⟩ | ⟨rfl, rfl⟩ | ⟨rfl, rfl⟩ | ⟨rfl, rfl⟩
  -- every part of a word is followed by a dot, which is neither of a word nor of a number
  all_goals
    repeat' first
      | exact fun q hq => absurd hq not_cut_nil
      | refine forall_cut_cons rfl ?_

/-! ## White space -/

/-- A text of white space. -/
def Blank (gap : Text) : Prop := ∀ u ∈ gap, isSpace u = true

lemma skipSpace_blank {gap : Text} (h : Blank gap) (t : Text) : skipSpace (gap ++ t) = skipSpace t :=
  List.dropWhile_append_of_pos h

lemma skipSpace_cons (h : isSpace u = false) (t : Text) :
    skipSpace (u :: t) = u :: t := by
  rw [skipSpace, List.dropWhile_cons_of_neg (by simp [h])]

lemma Cut.blank {gap : Text} (hp : Cut p gap) (h : Blank gap) : Blank p :=
  fun u hu => h u (hp.1.subset hu)

lemma stops_cons (h : isDigit u = false ∧ u ≠ 101 ∧ u ≠ 69 ∧ u ≠ 46) (t : Text) :
    NumberLiteral.Stops (u :: t) where
  noDigit := fun _ _ heq => (List.cons.inj heq).1 ▸ h.1
  noExponent := fun _ _ heq => (List.cons.inj heq).1 ▸ ⟨h.2.1, h.2.2.1⟩
  noFraction := fun _ _ _ heq hv => absurd ((List.cons.inj heq).1.trans hv) h.2.2.2

lemma stops_nil : NumberLiteral.Stops [] where
  noDigit := fun _ _ h => by cases h
  noExponent := fun _ _ h => by cases h
  noFraction := fun _ _ _ h => by cases h

lemma stops_dots (t : Text) : NumberLiteral.Stops (46 :: 46 :: t) where
  noDigit := fun _ _ heq => (List.cons.inj heq).1 ▸ rfl
  noExponent := fun _ _ heq => (List.cons.inj heq).1 ▸ by decide
  noFraction := fun _ _ _ heq _ => (List.cons.inj (List.cons.inj heq).2).1 ▸ rfl

/-! ## Values -/

/-- The unit that a value starts with. -/
structure Head (u : CodeUnit) : Prop where
  noSpace : isSpace u = false
  noBracket : u ≠ 93
  noMark : u ≠ 0xFEFF

/-- The unit that an atom starts with. -/
structure AtomHead (u : CodeUnit) : Prop extends Head u where
  noString : u ≠ 34
  noArray : u ≠ 91
  noObject : u ≠ 123

lemma atomHead_number (h : l.WellFormed) : ∃ u t, l.write = u :: t ∧ AtomHead u := by
  have hatom : ∀ u, Stuck u → u ∈ l.write → AtomHead u := by
    intro u hs hu
    have hne : ∀ v : CodeUnit, (isDigit v = false ∧ v ≠ 43 ∧ v ≠ 45 ∧ v ≠ 46 ∧ v ≠ 101) → u ≠ v := by
      rintro v ⟨h1, h2, h3, h4, h5⟩ rfl
      rcases NumberLiteral.mem_write h hu with hd | hd | hd | hd | hd
      · rw [h1] at hd
        cases hd
      · exact h2 hd
      · exact h3 hd
      · exact h4 hd
      · exact h5 hd
    exact ⟨⟨hs.1, hs.2.2.2.1, hne _ (by decide)⟩, hne _ (by decide), hne _ (by decide),
      hne _ (by decide)⟩
  obtain ⟨u, t, -, hw | hw⟩ := NumberLiteral.write_head h
  · have hu : u ∈ l.write := hw ▸ List.mem_cons_self
    exact ⟨u, t, hw, hatom u (stuck_of_number (NumberLiteral.mem_write h hu)) hu⟩
  · have hu : 45 ∈ l.write := hw ▸ List.mem_cons_self
    exact ⟨45, u :: t, hw, hatom 45 (stuck_of_number (NumberLiteral.mem_write h hu)) hu⟩

lemma atomHead_word (h : (w, v) ∈ constants) :
    ∃ u t, w = u :: t ∧ AtomHead u := by
  simp only [constants, List.mem_cons, Prod.mk.injEq, List.not_mem_nil, or_false] at h
  rcases h with ⟨rfl, rfl⟩ | ⟨rfl, rfl⟩ | ⟨rfl, rfl⟩ | ⟨rfl, rfl⟩ | ⟨rfl, rfl⟩ | ⟨rfl, rfl⟩ <;>
    exact ⟨_, _, rfl, ⟨by decide, by decide, by decide⟩, by decide, by decide, by decide⟩

lemma writeDouble_cases (x : PyDouble) : (writeDouble x, Value.double x) ∈ constants ∨
    ∃ l : NumberLiteral, l.WellFormed ∧ l.whole.unitLength ≤ NumberLiteral.maxDigits ∧
      writeDouble x = l.write ∧ l.value = .ok (.double x) := by
  cases x with
  | finite negative m =>
    refine .inr ⟨_, NumberLiteral.wellFormed_ofMagnitude negative m, ?_, rfl,
      NumberLiteral.value_ofMagnitude negative m⟩
    exact (NumberLiteral.length_whole_ofDigits _ _ _).trans (by decide)
  | infinity negative => cases negative <;> simp [writeDouble, constants]
  | nan => simp [writeDouble, constants]

section Values

variable {gap : Text}

/-- What is to be known of a value that is a word or a number. -/
structure Atom (gap : Text) (v : Value) : Prop where
  parsed_eq : parsed v = v
  head : ∃ u t, write gap v = u :: t ∧ AtomHead u
  reads : ∀ t, NumberLiteral.Stops t → scanAtom (write gap v ++ t) = .ok (v, t)
  fails : ∀ p t, Cut p (write gap v) → Fails (scanAtom (p ++ 46 :: 46 :: t))

variable {v : Value}

lemma atom_of_word (hparsed : parsed v = v) (h : (write gap v, v) ∈ constants) :
    Atom gap v where
  parsed_eq := hparsed
  head := atomHead_word h
  reads := fun t _ => scanAtom_word h t
  fails := fun p t hp => .inl (scanAtom_word_cut h t p hp)

lemma atom_of_number {n : PyNumber} {l : NumberLiteral} (hparsed : parsed v = v)
    (hwrite : write gap v = l.write) (h : l.WellFormed)
    (hlen : l.whole.unitLength ≤ NumberLiteral.maxDigits) (hvalue : l.value = .ok n)
    (hv : Value.ofNumber n = v) : Atom gap v where
  parsed_eq := hparsed
  head := hwrite ▸ atomHead_number h
  reads := fun t ht => by rw [hwrite, scanAtom_number h ht, hvalue, ← hv]; rfl
  fails := fun p t hp => scanAtom_number_cut h hlen (hwrite ▸ hp) t

lemma atom_int {n : ℤ} (h : writable (.int n) = true) : Atom gap (.int n) := by
  rw [writable, decide_eq_true_eq] at h
  exact atom_of_number (by rw [parsed]) (by rw [write]) (NumberLiteral.wellFormed_ofInt n) h
    (NumberLiteral.value_ofInt h) rfl

lemma atom_double (x : PyDouble) : Atom gap (.double x) := by
  rcases writeDouble_cases x with hword | ⟨l, hl, hlen, hwrite, hvalue⟩
  · exact atom_of_word (by rw [parsed]) (by rwa [write])
  · exact atom_of_number (by rw [parsed]) (by rw [write, hwrite]) hl hlen hvalue rfl

lemma atom_null : Atom gap .null :=
  atom_of_word (by rw [parsed]) (by rw [write]; simp [constants])

lemma atom_bool (b : Bool) : Atom gap (.bool b) :=
  atom_of_word (by rw [parsed]) (by rw [write]; cases b <;> simp [constants])

variable (gap) in
lemma write_head (v : Value) (h : writable v = true) : ∃ u t, write gap v = u :: t ∧ Head u := by
  have hatom : Atom gap v → ∃ u t, write gap v = u :: t ∧ Head u := by
    rintro ⟨-, ⟨u, t, hw, hu⟩, -, -⟩
    exact ⟨u, t, hw, hu.toHead⟩
  cases v with
  | null => exact hatom atom_null
  | bool b => exact hatom (atom_bool b)
  | int n => exact hatom (atom_int h)
  | double x => exact hatom (atom_double x)
  | str s => exact ⟨34, _, by rw [write]; rfl, by decide, by decide, by decide⟩
  | arr items =>
    cases items with
    | nil => exact ⟨91, _, by rw [write], by decide, by decide, by decide⟩
    | cons v vs => exact ⟨91, _, by rw [write], by decide, by decide, by decide⟩
  | obj fields =>
    cases fields with
    | nil => exact ⟨123, _, by rw [write], by decide, by decide, by decide⟩
    | cons f fs => exact ⟨123, _, by rw [write], by decide, by decide, by decide⟩

/-- The text of the value is read back. -/
def Reads (gap : Text) (v : Value) : Prop :=
  ∀ steps t, NumberLiteral.Stops t → List.length (write gap v) ≤ steps →
    scanValue steps (write gap v ++ t) = .ok (parsed v, t)

/-- The text of the value is not read when it is cut. -/
def FailsCut (gap : Text) (v : Value) : Prop :=
  ∀ steps p t, 34 ∉ t → Cut p (write gap v) → 2 * List.length p + 1 ≤ steps →
    Fails (scanValue steps (p ++ 46 :: 46 :: t))

variable {steps : ℕ}

lemma scanValue_atom {u : CodeUnit} (hu : u ≠ 34 ∧ u ≠ 91 ∧ u ≠ 123) (hs : 0 < steps)
    (t : Text) : scanValue steps (u :: t) = scanAtom (u :: t) := by
  obtain ⟨steps, rfl⟩ := Nat.exists_eq_add_of_lt hs
  rw [Nat.zero_add, scanValue, if_neg hu.1, if_neg hu.2.1, if_neg hu.2.2]

lemma scanValue_dots (steps : ℕ) (t : Text) : scanValue steps (46 :: 46 :: t) = .error .decode := by
  cases steps with
  | zero => rw [scanValue]
  | succ steps =>
    rw [scanValue_atom (by decide) (Nat.succ_pos _)]
    rfl

lemma Atom.reads_value (h : Atom gap v) : Reads gap v := by
  intro steps t ht hs
  obtain ⟨u, w, hw, hu⟩ := h.head
  have hread := h.reads t ht
  rw [hw] at hread hs ⊢
  rw [List.cons_append, scanValue_atom ⟨hu.noString, hu.noArray, hu.noObject⟩
    (Nat.lt_of_lt_of_le (Nat.succ_pos _) hs), ← List.cons_append, hread, h.parsed_eq]

lemma Atom.fails_cut (h : Atom gap v) : FailsCut gap v := by
  intro steps p t _ hp hs
  obtain ⟨u, w, hw, hu⟩ := h.head
  have hfails := h.fails p t hp
  rw [hw] at hp
  rcases hp.cons with rfl | ⟨q, rfl, -⟩
  · exact .inl (scanValue_dots _ _)
  · rw [List.cons_append] at hfails ⊢
    rwa [scanValue_atom ⟨hu.noString, hu.noArray, hu.noObject⟩ (by omega)]

lemma reads_str (s : Text) : Reads gap (.str s) := by
  intro steps t _ hs
  rw [write, quoted, List.cons_append, List.append_assoc, List.singleton_append, parsed]
  rw [write, quoted] at hs
  obtain ⟨steps, rfl⟩ := Nat.exists_eq_add_of_lt (Nat.lt_of_lt_of_le (Nat.succ_pos _) hs)
  rw [Nat.zero_add, scanValue, if_pos rfl, scanString_write]

lemma fails_cut_str (s : Text) : FailsCut gap (.str s) := by
  intro steps p t ht hp hs
  rw [write, quoted] at hp
  have hdots : 34 ∉ (46 : CodeUnit) :: 46 :: t := by simpa using ht
  rcases hp.cons with rfl | ⟨q, rfl, hq⟩
  · exact .inl (scanValue_dots _ _)
  · obtain ⟨steps, rfl⟩ := Nat.exists_eq_add_of_lt (Nat.lt_of_lt_of_le (Nat.succ_pos _) hs)
    rw [Nat.zero_add, List.cons_append, scanValue, if_pos rfl, scanString_cut hq hdots]
    exact .inl rfl

/-! ## Arrays -/

lemma stops_writeItems (vs : List Value) (t : Text) :
    NumberLiteral.Stops (writeItems gap vs ++ t) := by
  cases vs with
  | nil =>
    rw [writeItems]
    exact stops_cons (by decide) t
  | cons v vs =>
    rw [writeItems]
    exact stops_cons (by decide) _

lemma skipSpace_write (hgap : Blank gap) (h : writable v = true) (t : Text) :
    skipSpace (gap ++ (write gap v ++ t)) = write gap v ++ t := by
  obtain ⟨u, w, hw, hu⟩ := write_head gap v h
  rw [skipSpace_blank hgap, hw, List.cons_append, skipSpace_cons hu.noSpace]

variable (gap) in
lemma length_write_pos (h : writable v = true) : 0 < List.length (write gap v) := by
  obtain ⟨u, w, hw, -⟩ := write_head gap v h
  rw [hw]
  exact Nat.succ_pos _

variable {vs : List Value}

/-- **Items are read back.** -/
lemma scanItems_write (hgap : Blank gap)
    (hw : ∀ w ∈ v :: vs, writable w = true) (hr : ∀ w ∈ v :: vs, Reads gap w) (steps : ℕ) (t : Text)
    (hs : List.length (write gap v ++ writeItems gap vs) ≤ steps) :
    scanItems steps (write gap v ++ (writeItems gap vs ++ t)) =
      .ok (parsed v :: parsedItems vs, t) := by
  induction vs generalizing v steps with
  | nil =>
    rw [writeItems, List.length_append, List.length_singleton] at hs
    obtain ⟨steps, rfl⟩ := Nat.exists_eq_add_of_lt (Nat.lt_of_lt_of_le (Nat.succ_pos _) hs)
    have hread := hr v List.mem_cons_self (0 + steps) (writeItems gap [] ++ t)
      (stops_writeItems _ _) (by omega)
    rw [scanItems, hread]
    rfl
  | cons v' vs ih =>
    have hpos := length_write_pos gap (hw v' (by simp))
    rw [writeItems] at hs
    simp only [List.length_append, List.length_cons] at hs
    obtain ⟨steps, rfl⟩ := Nat.exists_eq_add_of_lt (Nat.lt_of_lt_of_le (Nat.succ_pos _) hs)
    have hread := hr v List.mem_cons_self (0 + steps) (writeItems gap (v' :: vs) ++ t)
      (stops_writeItems _ _) (by omega)
    have hrest := ih (fun w h => hw w (List.mem_cons_of_mem _ h))
      (fun w h => hr w (List.mem_cons_of_mem _ h)) (0 + steps)
      (by rw [List.length_append]; omega)
    rw [scanItems, hread]
    dsimp only [Except.bind]
    rw [writeItems, List.cons_append, skipSpace_cons (by decide)]
    dsimp only
    rw [if_pos rfl, List.append_assoc, List.append_assoc, skipSpace_write hgap (hw v' (by simp)), hrest]
    rfl

/-- **An array is read back.** -/
lemma reads_arr (hgap : Blank gap) (hw : ∀ w ∈ vs, writable w = true)
    (hr : ∀ w ∈ vs, Reads gap w) : Reads gap (.arr vs) := by
  intro steps t _ hs
  rw [parsed]
  cases vs with
  | nil =>
    rw [write] at hs ⊢
    obtain ⟨steps, rfl⟩ := Nat.exists_eq_add_of_lt (Nat.lt_of_lt_of_le (Nat.succ_pos _) hs)
    rfl
  | cons v vs =>
    rw [write] at hs ⊢
    rw [List.length_cons] at hs
    obtain ⟨steps, rfl⟩ := Nat.exists_eq_add_of_lt (Nat.lt_of_lt_of_le (Nat.succ_pos _) hs)
    obtain ⟨u, w, hv, hu⟩ := write_head gap v (hw v List.mem_cons_self)
    have hskip : skipSpace (write gap v ++ (writeItems gap vs ++ t)) =
        write gap v ++ (writeItems gap vs ++ t) := by
      rw [hv, List.cons_append, skipSpace_cons hu.noSpace]
    have hfirst : (write gap v ++ (writeItems gap vs ++ t)).head? ≠ some 93 := by
      rw [hv, List.cons_append, List.head?_cons]
      exact fun h => hu.noBracket (Option.some.inj h)
    have hitems := scanItems_write hgap hw hr (0 + steps) t (by omega)
    rw [List.cons_append, List.append_assoc, scanValue, if_neg (by decide), if_pos rfl, hskip,
      if_neg hfirst, hitems]
    rfl

variable {t p : Text}

lemma scanItems_of_fails (h : Fails (scanValue steps t)) :
    scanItems (steps + 1) t = .error .decode := by
  rw [scanItems]
  rcases h with h | ⟨v, u, w, h, hu⟩
  · rw [h]
    rfl
  · rw [h]
    dsimp only [Except.bind]
    rw [skipSpace_cons hu.1]
    dsimp only
    rw [if_neg hu.2.1, if_neg hu.2.2.2.1]

lemma scanItems_dots (steps : ℕ) (t : Text) : scanItems steps (46 :: 46 :: t) = .error .decode := by
  cases steps with
  | zero => rw [scanItems]
  | succ steps => exact scanItems_of_fails (.inl (scanValue_dots _ _))

lemma skipSpace_cut (h : writable v = true) {w : Text} (hp : Cut p (write gap v ++ w))
    (t : Text) : skipSpace (p ++ 46 :: 46 :: t) = p ++ 46 :: 46 :: t := by
  obtain ⟨u, x, hx, hu⟩ := write_head gap v h
  rw [hx, List.cons_append] at hp
  rcases hp.cons with rfl | ⟨q, rfl, -⟩
  · exact skipSpace_cons (by decide) _
  · rw [List.cons_append, skipSpace_cons hu.noSpace]

lemma stops_writeItems_cut (hp : Cut p (writeItems gap vs)) (t : Text) :
    NumberLiteral.Stops (p ++ 46 :: 46 :: t) := by
  cases vs with
  | nil =>
    rw [writeItems] at hp
    rcases hp.cons with rfl | ⟨q, rfl, -⟩
    · exact stops_dots t
    · exact stops_cons (by decide) _
  | cons v vs =>
    rw [writeItems] at hp
    rcases hp.cons with rfl | ⟨q, rfl, -⟩
    · exact stops_dots t
    · exact stops_cons (by decide) _

/-- **Items that are cut** are not read. -/
lemma scanItems_cut (hgap : Blank gap)
    (hw : ∀ w ∈ v :: vs, writable w = true) (hr : ∀ w ∈ v :: vs, Reads gap w)
    (hf : ∀ w ∈ v :: vs, FailsCut gap w) (steps : ℕ) (ht : 34 ∉ t)
    (hp : Cut p (write gap v ++ writeItems gap vs)) (hs : 2 * List.length p + 2 ≤ steps) :
    scanItems steps (p ++ 46 :: 46 :: t) = .error .decode := by
  induction vs generalizing v steps p with
  | nil =>
    obtain ⟨steps, rfl⟩ := Nat.exists_eq_add_of_lt (Nat.lt_of_lt_of_le (Nat.succ_pos _) hs)
    rcases hp.append with hcut | ⟨q, rfl, hq⟩
    · exact scanItems_of_fails (hf v List.mem_cons_self _ p t ht hcut (by omega))
    · rw [List.length_append] at hs
      have hread := hr v List.mem_cons_self (0 + steps) (q ++ 46 :: 46 :: t)
        (stops_writeItems_cut hq t) (by omega)
      rw [writeItems] at hq
      rcases hq.cons with rfl | ⟨q, -, hq⟩
      · rw [scanItems, List.append_assoc, hread]
        rfl
      · exact absurd hq not_cut_nil
  | cons v' vs ih =>
    obtain ⟨steps, rfl⟩ := Nat.exists_eq_add_of_lt (Nat.lt_of_lt_of_le (Nat.succ_pos _) hs)
    rcases hp.append with hcut | ⟨q, rfl, hq⟩
    · exact scanItems_of_fails (hf v List.mem_cons_self _ p t ht hcut (by omega))
    · have hpos := length_write_pos gap (hw v List.mem_cons_self)
      rw [List.length_append] at hs
      have hread := hr v List.mem_cons_self (0 + steps) (q ++ 46 :: 46 :: t)
        (stops_writeItems_cut hq t) (by omega)
      rw [writeItems] at hq
      rw [scanItems, List.append_assoc, hread]
      dsimp only [Except.bind]
      rcases hq.cons with rfl | ⟨r, rfl, hr'⟩
      · rfl
      · rw [List.cons_append, skipSpace_cons (by decide)]
        dsimp only
        rw [if_pos rfl]
        -- the cut is in the gap or in the next item
        rcases hr'.append with hgapcut | ⟨x, rfl, hx⟩
        · rw [skipSpace_blank (hgapcut.blank hgap), skipSpace_cons (by decide), scanItems_dots]
          rfl
        · have hlen : 2 * List.length x + 2 ≤ 0 + steps := by
            simp only [List.length_cons, List.length_append] at hs
            omega
          have hrest := ih (fun w h => hw w (List.mem_cons_of_mem _ h))
            (fun w h => hr w (List.mem_cons_of_mem _ h)) (fun w h => hf w (List.mem_cons_of_mem _ h))
            (0 + steps) hx hlen
          rw [List.append_assoc, skipSpace_blank hgap, skipSpace_cut (hw v' (by simp)) hx, hrest]
          rfl

/-- **An array that is cut** is not read. -/
lemma fails_cut_arr (hgap : Blank gap) (hw : ∀ w ∈ vs, writable w = true)
    (hr : ∀ w ∈ vs, Reads gap w) (hf : ∀ w ∈ vs, FailsCut gap w) : FailsCut gap (.arr vs) := by
  intro steps p t ht hp hs
  obtain ⟨steps, rfl⟩ := Nat.exists_eq_add_of_lt (Nat.lt_of_lt_of_le (Nat.succ_pos _) hs)
  cases vs with
  | nil =>
    rw [write] at hp
    rcases hp.cons with rfl | ⟨q, rfl, hq⟩
    · exact .inl (scanValue_dots _ _)
    · rcases hq.cons with rfl | ⟨q, -, hq⟩
      · rw [List.cons_append, List.nil_append, scanValue, if_neg (by decide), if_pos rfl,
          skipSpace_cons (by decide), if_neg (by simp), scanItems_dots]
        exact .inl rfl
      · exact absurd hq not_cut_nil
  | cons v vs =>
    rw [write] at hp
    rcases hp.cons with rfl | ⟨q, rfl, hq⟩
    · exact .inl (scanValue_dots _ _)
    · have hfirst : (q ++ 46 :: 46 :: t).head? ≠ some 93 := by
        obtain ⟨u, w, hv, hu⟩ := write_head gap v (hw v List.mem_cons_self)
        rw [hv, List.cons_append] at hq
        rcases hq.cons with rfl | ⟨q, rfl, -⟩
        · simp
        · rw [List.cons_append, List.head?_cons]
          exact fun h => hu.noBracket (Option.some.inj h)
      have hitems := scanItems_cut hgap hw hr hf (0 + steps) ht hq (by
        rw [List.length_cons] at hs
        omega)
      rw [List.cons_append, scanValue, if_neg (by decide), if_pos rfl,
        skipSpace_cut (hw v List.mem_cons_self) hq, if_neg hfirst, hitems]
      exact .inl rfl

/-! ## Objects -/

def fieldText (gap : Text) (f : Text × Value) (fs : List (Text × Value)) : Text :=
  quoted f.1 ++ 58 :: (gap ++ (write gap f.2 ++ writeFields gap fs))

lemma writeFields_cons (f : Text × Value) (fs : List (Text × Value)) :
    writeFields gap (f :: fs) = 44 :: (gap ++ fieldText gap f fs) := by
  rw [writeFields, fieldText]

lemma write_obj_cons (f : Text × Value) (fs : List (Text × Value)) :
    write gap (.obj (f :: fs)) = 123 :: fieldText gap f fs := by
  rw [write, fieldText]

lemma scanKey_write (k t : Text) : scanKey (quoted k ++ 58 :: t) = .ok (k, skipSpace t) := by
  rw [quoted, List.cons_append, List.append_assoc, List.singleton_append, scanKey, if_pos rfl,
    scanString_write]
  dsimp only
  rw [skipSpace_cons (by decide)]
  exact if_pos rfl

lemma scanKey_cut {k w : Text} (hp : Cut p (quoted k ++ 58 :: w)) (ht : 34 ∉ t) :
    scanKey (p ++ 46 :: 46 :: t) = .error .decode ∨ ∃ q, p = quoted k ++ 58 :: q ∧ Cut q w := by
  have hdots : 34 ∉ (46 : CodeUnit) :: 46 :: t := by simpa using ht
  rcases hp.append with hcut | ⟨q, rfl, hq⟩
  · rw [quoted] at hcut
    rcases hcut.cons with rfl | ⟨x, rfl, hx⟩
    · exact .inl rfl
    · rw [List.cons_append, scanKey, if_pos rfl, scanString_cut hx hdots]
      exact .inl rfl
  · rcases hq.cons with rfl | ⟨x, rfl, hx⟩
    · rw [List.append_nil, quoted, List.cons_append, List.append_assoc, List.singleton_append, scanKey,
        if_pos rfl, scanString_write]
      exact .inl rfl
    · exact .inr ⟨x, rfl, hx⟩

lemma stops_writeFields (fs : List (Text × Value)) (t : Text) :
    NumberLiteral.Stops (writeFields gap fs ++ t) := by
  cases fs with
  | nil =>
    rw [writeFields]
    exact stops_cons (by decide) t
  | cons f fs =>
    rw [writeFields_cons]
    exact stops_cons (by decide) _

variable {fs : List (Text × Value)}

lemma stops_writeFields_cut (hp : Cut p (writeFields gap fs))
    (t : Text) : NumberLiteral.Stops (p ++ 46 :: 46 :: t) := by
  cases fs with
  | nil =>
    rw [writeFields] at hp
    rcases hp.cons with rfl | ⟨q, rfl, -⟩
    · exact stops_dots t
    · exact stops_cons (by decide) _
  | cons f fs =>
    rw [writeFields_cons] at hp
    rcases hp.cons with rfl | ⟨q, rfl, -⟩
    · exact stops_dots t
    · exact stops_cons (by decide) _

lemma skipSpace_fieldText (hgap : Blank gap) (f : Text × Value) (fs : List (Text × Value)) (t : Text) :
    skipSpace (gap ++ (fieldText gap f fs ++ t)) = fieldText gap f fs ++ t := by
  rw [skipSpace_blank hgap, fieldText, quoted, List.cons_append, List.cons_append,
    skipSpace_cons (by decide)]

variable {f : Text × Value}

/-- **Fields are read back.** -/
lemma scanFields_write (hgap : Blank gap)
    (hw : ∀ g ∈ f :: fs, writable g.2 = true) (hr : ∀ g ∈ f :: fs, Reads gap g.2) (steps : ℕ) (t : Text)
    (hs : List.length (fieldText gap f fs) ≤ steps) :
    scanFields steps (fieldText gap f fs ++ t) = .ok ((f.1, parsed f.2) :: parsedFields fs, t) := by
  induction fs generalizing f steps with
  | nil =>
    rw [fieldText, quoted, writeFields] at hs
    simp only [List.length_append, List.length_cons, List.length_nil] at hs
    obtain ⟨steps, rfl⟩ := Nat.exists_eq_add_of_lt (Nat.lt_of_lt_of_le (Nat.succ_pos _) hs)
    have hread := hr f List.mem_cons_self (0 + steps) (writeFields gap [] ++ t)
      (stops_writeFields _ _) (by omega)
    rw [fieldText, List.append_assoc, List.cons_append, List.append_assoc, List.append_assoc, scanFields,
      scanKey_write]
    dsimp only [Except.bind]
    rw [skipSpace_write hgap (hw f List.mem_cons_self), hread]
    rfl
  | cons f' fs ih =>
    rw [fieldText, quoted, writeFields_cons] at hs
    simp only [List.length_append, List.length_cons, List.length_nil] at hs
    obtain ⟨steps, rfl⟩ := Nat.exists_eq_add_of_lt (Nat.lt_of_lt_of_le (Nat.succ_pos _) hs)
    have hread := hr f List.mem_cons_self (0 + steps) (writeFields gap (f' :: fs) ++ t)
      (stops_writeFields _ _) (by omega)
    have hrest := ih (fun g h => hw g (List.mem_cons_of_mem _ h))
      (fun g h => hr g (List.mem_cons_of_mem _ h)) (0 + steps) (by omega)
    rw [fieldText, List.append_assoc, List.cons_append, List.append_assoc, List.append_assoc, scanFields,
      scanKey_write]
    dsimp only [Except.bind]
    rw [skipSpace_write hgap (hw f List.mem_cons_self), hread]
    dsimp only
    rw [writeFields_cons, List.cons_append, skipSpace_cons (by decide)]
    dsimp only
    rw [if_pos rfl, List.append_assoc, skipSpace_fieldText hgap, hrest]
    rfl

/-- **An object is read back.** -/
lemma reads_obj (hgap : Blank gap) (hw : ∀ g ∈ fs, writable g.2 = true)
    (hr : ∀ g ∈ fs, Reads gap g.2) : Reads gap (.obj fs) := by
  intro steps t _ hs
  rw [parsed]
  cases fs with
  | nil =>
    rw [write] at hs ⊢
    obtain ⟨steps, rfl⟩ := Nat.exists_eq_add_of_lt (Nat.lt_of_lt_of_le (Nat.succ_pos _) hs)
    rfl
  | cons f fs =>
    rw [write_obj_cons] at hs ⊢
    rw [List.length_cons] at hs
    obtain ⟨steps, rfl⟩ := Nat.exists_eq_add_of_lt (Nat.lt_of_lt_of_le (Nat.succ_pos _) hs)
    have hskip : skipSpace (fieldText gap f fs ++ t) = fieldText gap f fs ++ t := by
      rw [fieldText, quoted, List.cons_append, List.cons_append, skipSpace_cons (by decide)]
    have hfirst : (fieldText gap f fs ++ t).head? ≠ some 125 := by
      rw [fieldText, quoted, List.cons_append, List.cons_append, List.head?_cons]
      simp
    have hfields := scanFields_write hgap hw hr (0 + steps) t (by omega)
    rw [List.cons_append, scanValue, if_neg (by decide), if_neg (by decide), if_pos rfl, hskip,
      if_neg hfirst, hfields]
    rfl

lemma scanFields_of_fails {rest k : Text} (hkey : scanKey t = .ok (k, rest))
    (h : Fails (scanValue steps rest)) : scanFields (steps + 1) t = .error .decode := by
  rw [scanFields, hkey]
  dsimp only [Except.bind]
  rcases h with h | ⟨v, u, w, h, hu⟩
  · rw [h]
  · rw [h]
    dsimp only
    rw [skipSpace_cons hu.1]
    dsimp only
    rw [if_neg hu.2.1, if_neg hu.2.2.2.2]

lemma scanFields_dots (steps : ℕ) (t : Text) : scanFields steps (46 :: 46 :: t) = .error .decode := by
  cases steps with
  | zero => rw [scanFields]
  | succ steps =>
    rw [scanFields]
    rfl

lemma scanFields_cut_first (hgap : Blank gap)
    (hw : writable f.2 = true) (hr : Reads gap f.2) (hf : FailsCut gap f.2) (steps : ℕ)
    (ht : 34 ∉ t) (hp : Cut p (fieldText gap f fs)) (hs : 2 * List.length p + 2 ≤ steps + 1) :
    scanFields (steps + 1) (p ++ 46 :: 46 :: t) = .error .decode ∨
      ∃ x, Cut x (writeFields gap fs) ∧ List.length x + 3 ≤ List.length p ∧
        scanKey (p ++ 46 :: 46 :: t) = .ok (f.1, write gap f.2 ++ (x ++ 46 :: 46 :: t)) ∧
        scanValue steps (write gap f.2 ++ (x ++ 46 :: 46 :: t)) =
          .ok (parsed f.2, x ++ 46 :: 46 :: t) := by
  rcases scanKey_cut hp ht with hkey | ⟨q, rfl, hq⟩
  · rw [scanFields, hkey]
    exact .inl rfl
  have hkey : scanKey (quoted f.1 ++ 58 :: q ++ 46 :: 46 :: t) =
      .ok (f.1, skipSpace (q ++ 46 :: 46 :: t)) := by
    rw [List.append_assoc, List.cons_append, scanKey_write]
  rw [quoted] at hs
  simp only [List.length_append, List.length_cons, List.length_nil] at hs
  rcases hq.append with hgapcut | ⟨x, rfl, hx⟩
  · rw [skipSpace_blank (hgapcut.blank hgap), skipSpace_cons (by decide)] at hkey
    exact .inl (scanFields_of_fails hkey (.inl (scanValue_dots _ _)))
  rw [List.append_assoc gap x, skipSpace_blank hgap, skipSpace_cut hw hx] at hkey
  rw [List.length_append] at hs
  rcases hx.append with hcut | ⟨y, rfl, hy⟩
  · exact .inl (scanFields_of_fails hkey (hf steps x t ht hcut (by omega)))
  · have hpos := length_write_pos gap hw
    rw [List.length_append] at hs
    rw [List.append_assoc (write gap f.2)] at hkey
    refine .inr ⟨y, hy, ?_, hkey, hr steps _ (stops_writeFields_cut hy t)
      (by omega)⟩
    rw [quoted]
    simp only [List.length_append, List.length_cons, List.length_nil]
    omega

/-- **Fields that are cut** are not read. -/
lemma scanFields_cut (hgap : Blank gap)
    (hw : ∀ g ∈ f :: fs, writable g.2 = true) (hr : ∀ g ∈ f :: fs, Reads gap g.2)
    (hf : ∀ g ∈ f :: fs, FailsCut gap g.2) (steps : ℕ) (ht : 34 ∉ t)
    (hp : Cut p (fieldText gap f fs)) (hs : 2 * List.length p + 2 ≤ steps) :
    scanFields steps (p ++ 46 :: 46 :: t) = .error .decode := by
  induction fs generalizing f steps p with
  | nil =>
    obtain ⟨steps, rfl⟩ := Nat.exists_eq_add_of_lt (Nat.lt_of_lt_of_le (Nat.succ_pos _) hs)
    rcases scanFields_cut_first hgap (hw f List.mem_cons_self) (hr f List.mem_cons_self)
      (hf f List.mem_cons_self) (0 + steps) ht hp hs with hfails | ⟨x, hx, -, hkey, hread⟩
    · exact hfails
    rw [writeFields] at hx
    rcases hx.cons with rfl | ⟨y, -, hy⟩
    · rw [scanFields, hkey]
      dsimp only [Except.bind]
      rw [hread]
      rfl
    · exact absurd hy not_cut_nil
  | cons f' fs ih =>
    obtain ⟨steps, rfl⟩ := Nat.exists_eq_add_of_lt (Nat.lt_of_lt_of_le (Nat.succ_pos _) hs)
    rcases scanFields_cut_first hgap (hw f List.mem_cons_self) (hr f List.mem_cons_self)
      (hf f List.mem_cons_self) (0 + steps) ht hp hs with hfails | ⟨x, hx, hlen, hkey, hread⟩
    · exact hfails
    rw [scanFields, hkey]
    dsimp only [Except.bind]
    rw [hread]
    dsimp only
    rw [writeFields_cons] at hx
    rcases hx.cons with rfl | ⟨y, rfl, hy⟩
    · rfl
    rw [List.cons_append, skipSpace_cons (by decide)]
    dsimp only
    rw [if_pos rfl]
    -- the cut is in the gap or in the next field
    rcases hy.append with hgapcut | ⟨z, rfl, hz⟩
    · rw [skipSpace_blank (hgapcut.blank hgap), skipSpace_cons (by decide), scanFields_dots]
      rfl
    · have hrest := ih (fun g h => hw g (List.mem_cons_of_mem _ h))
        (fun g h => hr g (List.mem_cons_of_mem _ h)) (fun g h => hf g (List.mem_cons_of_mem _ h))
        (0 + steps) hz (by
          simp only [List.length_cons, List.length_append] at hlen
          omega)
      have hskip : skipSpace (z ++ 46 :: 46 :: t) = z ++ 46 :: 46 :: t := by
        rw [fieldText, quoted, List.cons_append] at hz
        rcases hz.cons with rfl | ⟨w, rfl, -⟩
        · exact skipSpace_cons (by decide) _
        · exact skipSpace_cons (by decide) _
      rw [List.append_assoc, skipSpace_blank hgap, hskip, hrest]
      rfl

/-- **An object that is cut** is not read. -/
lemma fails_cut_obj (hgap : Blank gap) (hw : ∀ g ∈ fs, writable g.2 = true)
    (hr : ∀ g ∈ fs, Reads gap g.2) (hf : ∀ g ∈ fs, FailsCut gap g.2) : FailsCut gap (.obj fs) := by
  intro steps p t ht hp hs
  obtain ⟨steps, rfl⟩ := Nat.exists_eq_add_of_lt (Nat.lt_of_lt_of_le (Nat.succ_pos _) hs)
  cases fs with
  | nil =>
    rw [write] at hp
    rcases hp.cons with rfl | ⟨q, rfl, hq⟩
    · exact .inl (scanValue_dots _ _)
    · rcases hq.cons with rfl | ⟨r, -, hr⟩
      · rw [List.cons_append, List.nil_append, scanValue, if_neg (by decide), if_neg (by decide),
          if_pos rfl, skipSpace_cons (by decide), if_neg (by simp), scanFields_dots]
        exact .inl rfl
      · exact absurd hr not_cut_nil
  | cons f fs =>
    rw [write_obj_cons] at hp
    rcases hp.cons with rfl | ⟨q, rfl, hq⟩
    · exact .inl (scanValue_dots _ _)
    · obtain ⟨hskip, hfirst⟩ : skipSpace (q ++ 46 :: 46 :: t) = q ++ 46 :: 46 :: t ∧
          (q ++ 46 :: 46 :: t).head? ≠ some 125 := by
        have hcut := hq
        rw [fieldText, quoted, List.cons_append] at hcut
        rcases hcut.cons with rfl | ⟨w, rfl, -⟩
        · exact ⟨skipSpace_cons (by decide) _, by simp⟩
        · exact ⟨skipSpace_cons (by decide) _, by simp⟩
      have hfields := scanFields_cut hgap hw hr hf (0 + steps) ht hq (by
        rw [List.length_cons] at hs
        omega)
      rw [List.cons_append, scanValue, if_neg (by decide), if_neg (by decide), if_pos rfl, hskip,
        if_neg hfirst, hfields]
      exact .inl rfl

/-! ## All values -/

mutual

theorem reads_value (hgap : Blank gap) :
    ∀ v : Value, writable v = true → Reads gap v ∧ FailsCut gap v
  | .null, _ => ⟨atom_null.reads_value, atom_null.fails_cut⟩
  | .bool b, _ => ⟨(atom_bool b).reads_value, (atom_bool b).fails_cut⟩
  | .int _, h => ⟨(atom_int h).reads_value, (atom_int h).fails_cut⟩
  | .double x, _ => ⟨(atom_double x).reads_value, (atom_double x).fails_cut⟩
  | .str s, _ => ⟨reads_str s, fails_cut_str s⟩
  | .arr items, h => by
    rw [writable] at h
    have hall := reads_items hgap items h
    exact ⟨reads_arr hgap (fun w hw => (hall w hw).1) fun w hw => (hall w hw).2.1,
      fails_cut_arr hgap (fun w hw => (hall w hw).1) (fun w hw => (hall w hw).2.1)
        fun w hw => (hall w hw).2.2⟩
  | .obj fields, h => by
    rw [writable] at h
    have hall := reads_fields hgap fields h
    exact ⟨reads_obj hgap (fun f hf => (hall f hf).1) fun f hf => (hall f hf).2.1,
      fails_cut_obj hgap (fun f hf => (hall f hf).1) (fun f hf => (hall f hf).2.1)
        fun f hf => (hall f hf).2.2⟩

theorem reads_items (hgap : Blank gap) : ∀ vs : List Value, writableItems vs = true →
    ∀ w ∈ vs, writable w = true ∧ Reads gap w ∧ FailsCut gap w
  | [], _ => fun _ h => absurd h List.not_mem_nil
  | v :: vs, h => by
    rw [writableItems, Bool.and_eq_true] at h
    rw [List.forall_mem_cons]
    exact ⟨⟨h.1, reads_value hgap v h.1⟩, reads_items hgap vs h.2⟩

theorem reads_fields (hgap : Blank gap) : ∀ fs : List (Text × Value), writableFields fs = true →
    ∀ f ∈ fs, writable f.2 = true ∧ Reads gap f.2 ∧ FailsCut gap f.2
  | [], _ => fun _ h => absurd h List.not_mem_nil
  | (k, v) :: fs, h => by
    rw [writableFields, Bool.and_eq_true] at h
    rw [List.forall_mem_cons]
    exact ⟨⟨h.1, reads_value hgap v h.1⟩, reads_fields hgap fs h.2⟩

end

theorem loads_write (hgap : Blank gap) (h : writable v = true) :
    loads (write gap v) = .ok (parsed v) := by
  obtain ⟨u, t, hw, hu⟩ := write_head gap v h
  have hread := (reads_value hgap v h).1 (2 * (write gap v).unitLength + 2) [] stops_nil (by
    unfold Text.unitLength
    omega)
  rw [List.append_nil] at hread
  have hskip : skipSpace (write gap v) = write gap v := by rw [hw, skipSpace_cons hu.noSpace]
  have hmark : (write gap v).head? ≠ some 0xFEFF := by
    rw [hw, List.head?_cons]
    exact fun h => hu.noMark (Option.some.inj h)
  rw [loads, if_neg hmark, hskip, hread]
  rfl

theorem loads_cut (hgap : Blank gap) (h : writable v = true)
    (hp : Cut p (write gap v)) (ht : 34 ∉ t) : loads (p ++ 46 :: 46 :: t) = .error .decode := by
  have hcut := hp
  rw [← List.append_nil (write gap v)] at hcut
  have hskip := skipSpace_cut h hcut t
  have hmark : (p ++ 46 :: 46 :: t).head? ≠ some 0xFEFF := by
    obtain ⟨u, w, hw, hu⟩ := write_head gap v h
    rw [hw] at hp
    rcases hp.cons with rfl | ⟨q, rfl, -⟩
    · simp
    · rw [List.cons_append, List.head?_cons]
      exact fun h => hu.noMark (Option.some.inj h)
  have hfails := (reads_value hgap v h).2 (2 * (p ++ 46 :: 46 :: t).unitLength + 2) p t ht hp (by
    simp only [Text.unitLength, List.length_append]
    omega)
  rw [loads, if_neg hmark, hskip]
  rcases hfails with hfails | ⟨v, u, w, hfails, hu⟩
  · rw [hfails]
    rfl
  · rw [hfails]
    dsimp only [Except.bind]
    rw [skipSpace_cons hu.1, if_neg (by simp)]

/-! ## What is read can be written -/

lemma writableFields_iff :
    writableFields fs = true ↔ ∀ f ∈ fs, writable f.2 = true := by
  induction fs with
  | nil => simp [writableFields]
  | cons f fs ih =>
    obtain ⟨k, v⟩ := f
    rw [writableFields, Bool.and_eq_true, ih, List.forall_mem_cons]

lemma writableFields_insertField {key : Text} {value : Value}
    (h : writableFields fs = true) (hv : writable value = true) :
    writableFields (insertField fs key value) = true := by
  induction fs with
  | nil => simpa [insertField, writableFields] using hv
  | cons f fs ih =>
    obtain ⟨k, v⟩ := f
    rw [writableFields, Bool.and_eq_true] at h
    rw [insertField]
    split
    · rw [writableFields, hv, h.2]
      rfl
    · rw [writableFields, h.1, ih h.2]
      rfl

lemma writableFields_dictOf {pairs : List (Text × Value)} (h : writableFields pairs = true) :
    writableFields (dictOf pairs) = true := by
  have hfold : ∀ (pairs acc : List (Text × Value)), writableFields pairs = true →
      writableFields acc = true →
      writableFields (pairs.foldl (fun fields f => insertField fields f.1 f.2) acc) = true := by
    intro pairs
    induction pairs with
    | nil => exact fun acc _ hacc => hacc
    | cons f pairs ih =>
      obtain ⟨k, v⟩ := f
      intro acc h hacc
      rw [writableFields, Bool.and_eq_true] at h
      exact ih _ h.2 (writableFields_insertField hacc h.1)
  exact hfold pairs [] h rfl

mutual

lemma writable_parsed : ∀ {v : Value}, writable v = true → writable (parsed v) = true
  | .null, h | .bool _, h | .int _, h | .double _, h | .str _, h => by rwa [parsed]
  | .arr vs, h => by
    rw [writable] at h
    rw [parsed, writable]
    exact writableItems_parsed h
  | .obj fs, h => by
    rw [writable] at h
    rw [parsed, writable]
    exact writableFields_dictOf (writableFields_parsed h)

lemma writableItems_parsed :
    ∀ {vs : List Value}, writableItems vs = true → writableItems (parsedItems vs) = true
  | [], _ => rfl
  | v :: vs, h => by
    rw [writableItems, Bool.and_eq_true] at h
    rw [parsedItems, writableItems, writable_parsed h.1, writableItems_parsed h.2]
    rfl

lemma writableFields_parsed :
    ∀ {fs : List (Text × Value)}, writableFields fs = true → writableFields (parsedFields fs) = true
  | [], _ => rfl
  | (k, v) :: fs, h => by
    rw [writableFields, Bool.and_eq_true] at h
    rw [parsedFields, writableFields, writable_parsed h.1, writableFields_parsed h.2]
    rfl

end

end Values

end JsonText
