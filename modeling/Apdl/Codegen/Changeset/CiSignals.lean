import Apdl.Codegen.Changeset.Evidence
import Apdl.Lib.Check
import Mathlib.Data.List.Dedup

set_option autoImplicit false

/-!
# The signals of a CI observation

The payloads of GitHub become signals, one for each id. They go through a dictionary and a sort whose keys
differ, so that only the set of the payloads counts, and every signal that is built meets the validation of
its model.

## Main results

* `suiteId_of_validation` — the only payload that a model refuses.
-/

namespace Apdl.Codegen

open Text (ofString)

/-- The validation of `CheckAnnotation`: the field of the first error. -/
def CheckAnnotation.error (a : CheckAnnotation) : Option String :=
  if a.path = [] then some "path"
  else if a.startLine = some 0 then some "start_line"
  else if a.endLine = some 0 then some "end_line"
  else if a.level ∉ [ofString "notice", ofString "warning", ofString "failure"] then some "level"
  else if a.message = [] then some "message"
  else
    match a.startLine, a.endLine with
    | some s, some e => if e < s then some "annotation end_line cannot precede start_line" else none
    | _, _ => none

/-- The validation of `CISignal`: the field of the first error, or what its validator says. -/
def CISignal.error (signal : CISignal) : Option String :=
  if signal.signalId = [] then some "signal_id"
  else if signal.name = [] then some "name"
  else if signal.checkSuiteId = some 0 then some "check_suite_id"
  else if signal.checkRunId = some 0 then some "check_run_id"
  else (signal.annotations.findSome? CheckAnnotation.error).or
    (match signal.kind, signal.checkRunId with
      | .checkRun, none => some "check_run signals require check_run_id"
      | .checkRun, some id =>
        if signal.signalId = ofString "check_run:" ++ Decimal.text id then none
        else some "check_run signal_id must be derived from check_run_id"
      | .commitStatus, runId =>
        if runId.isSome ∨ signal.checkSuiteId.isSome then
          some "commit_status signals cannot carry check identifiers"
        else none)

/-! ## Texts -/

variable {t : Text} {u : CodeUnit}

lemma strip_ne_nil (hu : u ∈ t) (hspace : isSpace u = false) :
    strip t ≠ [] := by
  intro h
  rw [strip, rstrip, List.rdropWhile_eq_nil_iff] at h
  have hall : ∀ v ∈ t, isSpace v = true := by
    intro v hv
    rw [← List.takeWhile_append_dropWhile (p := isSpace) (l := t), List.mem_append] at hv
    rcases hv with hv | hv
    · exact List.mem_takeWhile_imp hv
    · exact h v hv
  rw [hall u hu] at hspace
  cases hspace

lemma exists_of_strip_ne_nil (h : strip t ≠ []) : ∃ u ∈ strip t, isSpace u = false := by
  refine ⟨(strip t).getLast h, List.getLast_mem h, ?_⟩
  have hlast := List.rdropWhile_last_not isSpace (t.dropWhile isSpace) h
  rwa [Bool.not_eq_true] at hlast

lemma bounded_ne_nil (hu : u ∈ t) (hspace : isSpace u = false)
    (limit : ℕ) : bounded t limit ≠ [] := by
  unfold bounded
  dsimp only
  split_ifs
  · exact strip_ne_nil hu hspace
  · exact List.append_ne_nil_of_right_ne_nil _ (by decide)

lemma takePoints_ne_nil {n : ℕ} (ht : t ≠ []) : takePoints (n + 1) t ≠ [] := by
  match t with
  | [] => exact absurd rfl ht
  | [u] => simp [takePoints]
  | u :: v :: rest =>
    unfold takePoints
    split_ifs <;> simp

lemma mem_joinWith {separator : Text} {parts : List Text} {part : Text}
    (hpart : part ∈ parts) (hu : u ∈ part) : u ∈ joinWith separator parts := by
  induction parts with
  | nil => cases hpart
  | cons p rest ih =>
    cases rest with
    | nil =>
      obtain rfl := List.mem_singleton.1 hpart
      exact hu
    | cons q rest =>
      unfold joinWith
      rcases List.mem_cons.1 hpart with rfl | hpart
      · exact List.mem_append_left _ (List.mem_append_left _ hu)
      · exact List.mem_append_right _ (ih hpart)

/-! ## Distinct signals -/

/-- No two signals share an id and differ. -/
def Consistent (signals : List CISignal) : Prop :=
  ∀ s ∈ signals, ∀ t ∈ signals, s.signalId = t.signalId → s = t

variable {signals seen rest distinct : List CISignal}

lemma consistent_of_nodup (h : (signals.map CISignal.signalId).Nodup) :
    Consistent signals :=
  fun _ hs _ ht heq => List.inj_on_of_nodup_map h hs ht heq

lemma distinctSignals_spec
    (hseen : (seen.map CISignal.signalId).Nodup) (h : distinctSignals seen rest = .ok distinct) :
    (distinct.map CISignal.signalId).Nodup ∧ ∀ s, s ∈ distinct ↔ s ∈ seen ∨ s ∈ rest := by
  induction rest generalizing seen with
  | nil =>
    obtain rfl := Except.ok.inj h
    exact ⟨hseen, by simp⟩
  | cons signal rest ih =>
    unfold distinctSignals at h
    cases hfind : seen.find? fun s => s.signalId == signal.signalId with
    | none =>
      simp only [hfind] at h
      have hnew : signal.signalId ∉ seen.map CISignal.signalId := by
        rintro hmem
        obtain ⟨s, hs, heq⟩ := List.mem_map.1 hmem
        simpa [heq] using List.find?_eq_none.1 hfind s hs
      have hseen' : ((seen ++ [signal]).map CISignal.signalId).Nodup := by
        rw [List.map_append, List.map_singleton]
        refine List.nodup_append.2 ⟨hseen, List.nodup_singleton _, ?_⟩
        rintro id hid _ hid' rfl
        exact hnew (List.mem_singleton.1 hid' ▸ hid)
      obtain ⟨hnodup, hmem⟩ := ih hseen' h
      refine ⟨hnodup, fun s => ?_⟩
      rw [hmem, List.mem_append, List.mem_singleton, List.mem_cons, or_assoc]
    | some previous =>
      simp only [hfind] at h
      split_ifs at h with heq
      subst heq
      obtain ⟨hnodup, hmem⟩ := ih hseen h
      refine ⟨hnodup, fun s => ?_⟩
      have hin : previous ∈ seen := List.mem_of_find?_eq_some hfind
      rw [hmem, List.mem_cons]
      constructor
      · exact fun hs => hs.imp_right .inr
      · rintro (hs | rfl | hs)
        · exact .inl hs
        · exact .inl hin
        · exact .inr hs

lemma distinctSignals_isOk (h : Consistent (seen ++ rest)) :
    ∃ distinct, distinctSignals seen rest = .ok distinct := by
  induction rest generalizing seen with
  | nil => exact ⟨seen, rfl⟩
  | cons signal rest ih =>
    unfold distinctSignals
    cases hfind : seen.find? fun s => s.signalId == signal.signalId with
    | none => exact ih (by rwa [List.append_assoc, List.singleton_append])
    | some previous =>
      have hin : previous ∈ seen := List.mem_of_find?_eq_some hfind
      have hid : previous.signalId = signal.signalId := by
        simpa using List.find?_some hfind
      have heq : previous = signal := h previous (List.mem_append_left _ hin) signal
        (List.mem_append_right _ List.mem_cons_self) hid
      dsimp only
      rw [if_pos heq]
      refine ih fun s hs t ht hst => h s ?_ t ?_ hst
      · exact (List.mem_append.1 hs).elim (List.mem_append_left _)
          fun hs => List.mem_append_right _ (List.mem_cons_of_mem _ hs)
      · exact (List.mem_append.1 ht).elim (List.mem_append_left _)
          fun ht => List.mem_append_right _ (List.mem_cons_of_mem _ ht)

lemma signalId_of_sortKey {s t : CISignal} (h : s.sortKey = t.sortKey) : s.signalId = t.signalId := by
  unfold CISignal.sortKey at h
  have hpair := congrArg (fun k => (ofLex (ofLex k).2).2) h
  exact Text.codePoints_injective hpair

lemma deduplicateSignals_spec (h : deduplicateSignals signals = .ok distinct) :
    (distinct.map CISignal.signalId).Nodup ∧ (∀ s, s ∈ distinct ↔ s ∈ signals) ∧
      distinct.Pairwise fun s t => s.sortKey ≤ t.sortKey := by
  unfold deduplicateSignals at h
  cases hd : distinctSignals [] signals with
  | error e => simp [hd, Except.map] at h
  | ok found =>
    simp only [hd, Except.map, Except.ok.injEq] at h
    subst h
    obtain ⟨hnodup, hmem⟩ := distinctSignals_spec (by simp) hd
    have hperm := List.perm_insertionSort (fun a b : CISignal => a.sortKey ≤ b.sortKey) found
    refine ⟨((hperm.map _).nodup_iff).2 hnodup, fun s => ?_, ?_⟩
    · rw [hperm.mem_iff, hmem]
      simp
    · have htotal : Std.Total fun a b : CISignal => a.sortKey ≤ b.sortKey :=
        ⟨fun a b => le_total _ _⟩
      have htrans : IsTrans CISignal fun a b => a.sortKey ≤ b.sortKey := ⟨fun a b c => le_trans⟩
      exact List.pairwise_insertionSort _ _

lemma deduplicateSignals_isOk (h : Consistent signals) :
    ∃ distinct, deduplicateSignals signals = .ok distinct := by
  have hfresh : ∃ distinct, distinctSignals [] signals = .ok distinct :=
    distinctSignals_isOk (by simpa using h)
  obtain ⟨found, hfound⟩ := hfresh
  exact ⟨_, by rw [deduplicateSignals, hfound]; rfl⟩

lemma distinctSignals_ne_validation {message : Text} :
    distinctSignals seen rest ≠ .error (.validation message) := by
  induction rest generalizing seen with
  | nil => simp [distinctSignals]
  | cons signal rest ih =>
    unfold distinctSignals
    split
    · exact ih
    · split_ifs
      · exact ih
      · simp

lemma deduplicateSignals_ne_validation {message : Text} :
    deduplicateSignals signals ≠ .error (.validation message) := by
  intro h
  unfold deduplicateSignals at h
  cases hd : distinctSignals [] signals with
  | error e =>
    rw [hd] at h
    obtain rfl := Except.error.inj h
    exact distinctSignals_ne_validation hd
  | ok distinct =>
    rw [hd] at h
    cases h

/-- **Only the set of the signals counts.** -/
lemma deduplicateSignals_congr {signals' : List CISignal}
    (hmem : ∀ s, s ∈ signals ↔ s ∈ signals') (h : deduplicateSignals signals = .ok distinct) :
    deduplicateSignals signals' = .ok distinct := by
  obtain ⟨hnodup, hin, hsorted⟩ := deduplicateSignals_spec h
  have hcons : Consistent signals' := fun s hs t ht heq =>
    consistent_of_nodup hnodup s ((hin s).2 ((hmem s).2 hs)) t ((hin t).2 ((hmem t).2 ht)) heq
  obtain ⟨distinct', h'⟩ := deduplicateSignals_isOk hcons
  obtain ⟨hnodup', hin', hsorted'⟩ := deduplicateSignals_spec h'
  have hperm : distinct'.Perm distinct := by
    refine (List.perm_ext_iff_of_nodup (List.Nodup.of_map _ hnodup') (List.Nodup.of_map _ hnodup)).2 ?_
    intro s
    rw [hin', hin, hmem]
  have heq : distinct' = distinct := by
    refine hperm.eq_of_pairwise (fun s t hs ht hst hts => ?_) hsorted' hsorted
    exact consistent_of_nodup hnodup s (hperm.mem_iff.1 hs) t ht
      (signalId_of_sortKey (le_antisymm hst hts))
  rw [h', heq]

/-! ## Signals that are built -/

section Build

variable {sha256 : Hashed → Text}

variable {value : Option Text} {source message headSha : Text}

lemma assertExactHead_eq_ok {expected : Text} {u : Unit}
    (h : assertExactHead value expected source = .ok u) : value = some expected := by
  unfold assertExactHead at h
  split at h
  · cases h
  · cases h
  · split_ifs at h with hsha
    rw [hsha]

lemma assertExactHead_ne_validation {expected : Text} :
    assertExactHead value expected source ≠ .error (.validation message) := by
  unfold assertExactHead
  split
  · simp
  · simp
  · split_ifs <;> simp

lemma signalName_eq_ok {name : Text} (h : signalName value source = .ok name) : name ≠ [] := by
  unfold signalName at h
  dsimp only at h
  split_ifs at h with hempty
  obtain rfl := Except.ok.inj h
  exact hempty

lemma signalName_ne_validation :
    signalName value source ≠ .error (.validation message) := by
  unfold signalName
  dsimp only
  split_ifs <;> simp

variable {budgets : Budgets} {signal : CISignal}

lemma commitSignal_spec {status : CommitStatus} (h : commitSignal sha256 status headSha budgets = .ok signal) :
    status.sha = some headSha ∧ signal.error = none := by
  unfold commitSignal at h
  simp only [Check.bind_eq_ok, Check.pure_eq_ok] at h
  obtain ⟨_, hhead, name, hname, rfl⟩ := h
  refine ⟨assertExactHead_eq_ok hhead, ?_⟩
  have hid : ofString "commit_status:" ++ (sha256 (.signalName name)).take 24 ≠ [] :=
    List.append_ne_nil_of_left_ne_nil (by decide) _
  simp [CISignal.error, hid, signalName_eq_ok hname]

lemma commitSignal_ne_validation {status : CommitStatus} :
    commitSignal sha256 status headSha budgets ≠ .error (.validation message) := by
  intro h
  unfold commitSignal at h
  rcases Check.bind_eq_error.1 h with h | ⟨_, -, h⟩
  · exact assertExactHead_ne_validation h
  · rcases Check.bind_eq_error.1 h with h | ⟨_, -, h⟩
    · exact signalName_ne_validation h
    · cases h

lemma lineNumber_ne_zero (value : Option ℤ) : lineNumber value ≠ some 0 := by
  intro h
  rw [lineNumber, Option.bind_eq_some_iff] at h
  obtain ⟨n, -, hn⟩ := h
  split_ifs at hn with hlt
  have hzero := Option.some.inj hn
  omega

lemma CheckAnnotation.error_eq_none {a : CheckAnnotation} (hpath : a.path ≠ [])
    (hstart : a.startLine ≠ some 0) (hend : a.endLine ≠ some 0)
    (hlevel : a.level ∈ [ofString "notice", ofString "warning", ofString "failure"])
    (hmessage : a.message ≠ [])
    (hrange : ∀ s e, a.startLine = some s → a.endLine = some e → s ≤ e) : a.error = none := by
  unfold CheckAnnotation.error
  rw [if_neg hpath, if_neg hstart, if_neg hend, if_neg (not_not.2 hlevel), if_neg hmessage]
  split
  · rename_i s e hs he
    exact if_neg (Nat.not_lt.2 (hrange s e hs he))
  · rfl

lemma annotation_error {value : RawAnnotation} {cap : ℕ} {a : CheckAnnotation}
    (h : annotation value cap = some a) : a.error = none := by
  unfold annotation at h
  dsimp only at h
  rw [Option.ite_none_left_eq_some, not_or] at h
  obtain ⟨⟨hpath, hmessage⟩, ha⟩ := h
  obtain rfl := Option.some.inj ha
  obtain ⟨u, hu, hspace⟩ := exists_of_strip_ne_nil hmessage
  have hstart := lineNumber_ne_zero value.startLine
  have hend := lineNumber_ne_zero value.endLine
  refine CheckAnnotation.error_eq_none (takePoints_ne_nil (by simpa using hpath)) hstart ?_ ?_
    (bounded_ne_nil hu hspace cap) ?_
  · dsimp only
    split
    · rename_i s e hs he
      intro h0
      rw [Option.some.injEq] at h0
      split_ifs at h0
      · exact hstart (h0 ▸ hs)
      · exact hend (h0 ▸ he)
    · exact hend
  · dsimp only
    split_ifs with hlevel
    · exact hlevel
    · exact List.mem_cons_self
  · intro s e hs he
    dsimp only at hs he
    rw [hs] at he
    cases hline : lineNumber value.endLine with
    | none => simp [hline] at he
    | some n =>
      simp only [hline, Option.some.injEq] at he
      split_ifs at he
      · exact he.le
      · omega

lemma CISignal.error_eq_none {id : ℕ} (hkind : signal.kind = .checkRun)
    (hrun : signal.checkRunId = some id) (hsignal : signal.signalId = ofString "check_run:" ++ Decimal.text id)
    (hid : id ≠ 0) (hname : signal.name ≠ []) (hsuite : signal.checkSuiteId ≠ some 0)
    (hannotations : ∀ a ∈ signal.annotations, a.error = none) : signal.error = none := by
  have hne : signal.signalId ≠ [] := by
    rw [hsignal]
    exact List.append_ne_nil_of_left_ne_nil (by decide) _
  have hnone : signal.annotations.findSome? CheckAnnotation.error = none :=
    List.findSome?_eq_none_iff.2 hannotations
  unfold CISignal.error
  rw [if_neg hne, if_neg hname, if_neg hsuite, hrun, if_neg (by simpa using hid), hnone, hkind,
    Option.none_or]
  exact if_pos hsignal

/-- The end of `_check_signal`, behind the checks of the heads. -/
def runSignal (run : CheckRun) (budgets : Budgets) : Except BuildError CISignal :=
  match run.id with
  | none => .error (.build (ofString "check run is missing a positive integer id"))
  | some id =>
    if id < 1 then .error (.build (ofString "check run is missing a positive integer id"))
    else do
      let name ← signalName run.name (ofString "check run " ++ Decimal.text id.toNat)
      let raw := if run.failureAnnotations.isEmpty then run.annotations else run.failureAnnotations
      let annotations := raw.filterMap fun v => annotation v budgets.maxAnnotationMessageChars
      let sorted := annotations.insertionSort fun a b => a.sortKey ≤ b.sortKey
      if (suiteIdOf run).any fun id => decide (id < 1) then
        .error (.validation (ofString "check_suite_id"))
      else
        return {
          signalId := ofString "check_run:" ++ Decimal.text id.toNat
          kind := .checkRun
          name := name
          conclusion := checkConclusion run
          githubUrl := linkOf run.detailsUrl
          checkSuiteId := (suiteIdOf run).map Int.toNat
          checkRunId := some id.toNat
          summary := checkSummary run budgets.maxSignalSummaryChars
          annotations := sorted.take budgets.maxAnnotationsPerSignal }

def suiteHead (run : CheckRun) (headSha : Text) : Except BuildError Unit :=
  match run.checkSuite with
  | some suite => assertExactHead suite.headSha headSha (ofString "check suite")
  | none => .ok ()

lemma checkSignal_eq (run : CheckRun) (headSha : Text) (budgets : Budgets) :
    checkSignal run headSha budgets =
      assertExactHead run.headSha headSha (ofString "check run") >>= fun _ =>
        suiteHead run headSha >>= fun _ => runSignal run budgets := by
  unfold checkSignal suiteHead
  cases run.checkSuite <;> rfl

variable {run : CheckRun}

lemma runSignal_error (h : runSignal run budgets = .ok signal) : signal.error = none := by
  unfold runSignal at h
  split at h
  · cases h
  · rename_i id _
    rw [ite_eq_iff] at h
    obtain ⟨-, h⟩ | ⟨hlow, h⟩ := h
    · cases h
    rw [Check.bind_eq_ok] at h
    obtain ⟨name, hname, h⟩ := h
    dsimp only at h
    rw [ite_eq_iff] at h
    obtain ⟨-, h⟩ | ⟨hsuite, h⟩ := h
    · cases h
    obtain rfl := Check.pure_eq_ok.1 h
    refine CISignal.error_eq_none rfl rfl rfl (by omega) (signalName_eq_ok hname) ?_ ?_
    · intro h0
      rw [Option.map_eq_some_iff] at h0
      obtain ⟨n, hn, hn0⟩ := h0
      rw [hn, Option.any_some, decide_eq_true_eq] at hsuite
      omega
    · intro a ha
      have hin := (List.mem_insertionSort _).1 (List.mem_of_mem_take ha)
      obtain ⟨v, -, hv⟩ := List.mem_filterMap.1 hin
      exact annotation_error hv

lemma checkSignal_spec (h : checkSignal run headSha budgets = .ok signal) :
    run.headSha = some headSha ∧ (∀ suite ∈ run.checkSuite, suite.headSha = some headSha) ∧
      signal.error = none := by
  rw [checkSignal_eq] at h
  simp only [Check.bind_eq_ok] at h
  obtain ⟨_, hhead, _, hsuite, hsignal⟩ := h
  refine ⟨assertExactHead_eq_ok hhead, ?_, runSignal_error hsignal⟩
  intro suite hin
  rw [suiteHead, Option.mem_def.1 hin] at hsuite
  exact assertExactHead_eq_ok hsuite

lemma suiteId_of_validation (h : checkSignal run headSha budgets = .error (.validation message)) :
    ∃ id ∈ suiteIdOf run, id < 1 := by
  rw [checkSignal_eq] at h
  rcases Check.bind_eq_error.1 h with h | ⟨_, -, h⟩
  · exact absurd h assertExactHead_ne_validation
  rcases Check.bind_eq_error.1 h with h | ⟨_, -, h⟩
  · unfold suiteHead at h
    split at h
    · exact absurd h assertExactHead_ne_validation
    · cases h
  unfold runSignal at h
  split at h
  · cases h
  rw [ite_eq_iff] at h
  obtain ⟨-, h⟩ | ⟨-, h⟩ := h
  · cases h
  rcases Check.bind_eq_error.1 h with h | ⟨_, -, h⟩
  · exact absurd h signalName_ne_validation
  dsimp only at h
  rw [ite_eq_iff] at h
  obtain ⟨hsuite, -⟩ | ⟨-, h⟩ := h
  · obtain ⟨n, hn, hlt⟩ := (Option.any_eq_true _ _).1 hsuite
    exact ⟨n, hn, of_decide_eq_true hlt⟩
  · cases h

end Build

end Apdl.Codegen
