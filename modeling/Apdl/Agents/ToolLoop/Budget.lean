import Apdl.Agents.ToolLoop.Model
import Apdl.Lib.JsonSize

set_option autoImplicit false

/-!
# The length of tool messages

An output whose JSON text is not cut is read and written again, which makes it no longer. The text
that is left of a longer one is no JSON text: it is written as a string, where each of its quotes and
backslashes takes two characters.

## Main results

* `toolMessage_too_long` — an output of ordinary rows whose message is not.
-/

namespace Apdl.Agents.ToolLoop

open JsonText
open Text (ofString)

mutual

lemma writable_sortKeys : ∀ {v : Value}, writable v = true → writable (sortKeys v) = true
  | .null, h | .bool _, h | .int _, h | .double _, h | .str _, h => by rwa [sortKeys]
  | .arr vs, h => by
    rw [writable] at h
    rw [sortKeys, writable]
    exact writableItems_sortItems h
  | .obj fs, h => by
    rw [writable] at h
    have hall := writableFields_iff.1 (writableFields_sortFields h)
    rw [sortKeys, writable, writableFields_iff]
    exact fun f hf => hall f ((List.perm_insertionSort _ _).mem_iff.1 hf)

lemma writableItems_sortItems :
    ∀ {vs : List Value}, writableItems vs = true → writableItems (sortItems vs) = true
  | [], _ => rfl
  | v :: vs, h => by
    rw [writableItems, Bool.and_eq_true] at h
    rw [sortItems, writableItems, writable_sortKeys h.1, writableItems_sortItems h.2]
    rfl

lemma writableFields_sortFields :
    ∀ {fs : List (Text × Value)}, writableFields fs = true → writableFields (sortFields fs) = true
  | [], _ => rfl
  | (k, v) :: fs, h => by
    rw [writableFields, Bool.and_eq_true] at h
    rw [sortFields, writableFields, writable_sortKeys h.1, writableFields_sortFields h.2]
    rfl

end

/-! ## The envelope -/

lemma length_quoted_source (digest : Fin 32 → UInt8) :
    List.length (quoted (ofString "warehouse:" ++ (hexdigest digest).take 24)) = 36 := by
  have hhex : ∀ n < 16, 48 ≤ (hexDigit n).toNat ∧ (hexDigit n).toNat ≤ 102 ∧ hexDigit n ≠ 92 := by decide
  have hunit : ∀ u ∈ (hexdigest digest).take 24, 48 ≤ u.toNat ∧ u.toNat ≤ 102 ∧ u ≠ 92 := by
    intro u hu
    obtain ⟨i, -, hi⟩ := List.mem_flatMap.1 (List.mem_of_mem_take hu)
    have hbyte := (digest i).toNat_lt
    simp only [List.mem_cons, List.not_mem_nil, or_false] at hi
    rcases hi with rfl | rfl
    · exact hhex _ (by omega)
    · exact hhex _ (by omega)
  have hname : Printable (ofString "warehouse:") ∧ escapes (ofString "warehouse:") = 0 ∧
      List.length (ofString "warehouse:") = 10 := by
    decide
  have hprint : Printable ((hexdigest digest).take 24) := by
    intro u hu
    have := hunit u hu
    omega
  have hescapes : escapes ((hexdigest digest).take 24) = 0 := by
    rw [escapes, List.count_eq_zero.2 fun hmem => absurd (hunit 34 hmem).1 (by decide),
      List.count_eq_zero.2 fun hmem => (hunit 92 hmem).2.2 rfl]
  have hlength : ((hexdigest digest).take 24).length = 24 := by
    rw [List.length_take, hexdigest, List.length_flatMap]
    simp
  rw [length_quoted (hname.1.append hprint), escapes_append, hname.2.1, hescapes, List.length_append,
    hname.2.2, hlength]

lemma toolResultSourceId_spec (services : Services) {entry : ToolTraceEntry}
    (h : writable (.obj entry.params) = true) :
    ∃ id, toolResultSourceId services entry = .ok id ∧ List.length (quoted id) = 36 := by
  have hpayload : writable (sortKeys (.obj [
      (ofString "tool", .str entry.tool), (ofString "params", .obj entry.params),
      (ofString "result", optional entry.result), (ofString "error", optional entry.error)])) = true := by
    have hoptional : ∀ o, writable (optional o) = true := by
      intro o
      cases o <;> rfl
    refine writable_sortKeys ?_
    simp only [writable, writableFields, Bool.and_true, hoptional] at h ⊢
    exact h
  exact ⟨_, by rw [toolResultSourceId, dumps, if_pos hpayload]; rfl, length_quoted_source _⟩

/-- The characters of an envelope around its tool, its parameters, its data and its error. -/
def frameLength : ℕ := 140

/-- **The envelope of an entry** whose result has data. -/
lemma envelope_spec (services : Services) (entry : ToolTraceEntry) (data : Value)
    (hparams : writable (.obj entry.params) = true) (hdata : resultData entry.result = .ok data)
    (hw : writable data = true) :
    ∃ message, warehouseResultEnvelope services entry = .ok message ∧ Printable message ∧
      List.length message = frameLength + List.length (quoted entry.tool) +
        List.length (write [] (.obj entry.params)) +
        List.length (write [] (if entry.error = none then data else .null)) +
        List.length (write [] (optional entry.error)) := by
  obtain ⟨id, hid, hlength⟩ := toolResultSourceId_spec services hparams
  have hshown : writable (if entry.error = none then data else .null) = true := by
    split
    · exact hw
    · rfl
  have hoptional : writable (optional entry.error) = true := by
    cases entry.error <;> rfl
  rw [warehouseResultEnvelope, hdata, hid]
  dsimp only [Except.bind]
  rw [dumps, if_pos (by
    simp only [writable, writableFields, Bool.and_true, Bool.true_and, Bool.and_eq_true] at hparams ⊢
    exact ⟨hparams, hshown, hoptional⟩)]
  have hnames : List.length (quoted (ofString "schema")) = 8 ∧
      List.length (quoted (ofString "warehouse_tool_result@1")) = 25 ∧
      List.length (quoted (ofString "trust")) = 7 ∧
      List.length (quoted (ofString "untrusted")) = 11 ∧
      List.length (quoted (ofString "source_id")) = 11 ∧
      List.length (quoted (ofString "tool")) = 6 ∧
      List.length (quoted (ofString "params")) = 8 ∧
      List.length (quoted (ofString "data")) = 6 ∧
      List.length (quoted (ofString "error")) = 7 := by decide
  obtain ⟨h1, h2, h3, h4, h5, h6, h7, h8, h9⟩ := hnames
  refine ⟨_, rfl, printable_write printable_nil _, ?_⟩
  simp only [write, writeFields, List.nil_append, List.length_cons, List.length_append,
    List.length_nil, h1, h2, h3, h4, h5, h6, h7, h8, h9, hlength, frameLength]
  omega

/-! ## Outputs that are cut -/

lemma plain_text (n : ℕ) :
    Printable (Decimal.text n) ∧ escapes (Decimal.text n) = 0 ∧ 34 ∉ Decimal.text n :=
  plain_digits Decimal.text_units

lemma truncationNote_spec (length cap : ℕ) :
    Printable (truncationNote length cap) ∧ escapes (truncationNote length cap) = 0 ∧
      ∃ t, truncationNote length cap = 46 :: 46 :: t ∧ 34 ∉ t := by
  have hwords : (Printable (ofString "... [truncated ") ∧ escapes (ofString "... [truncated ") = 0 ∧
      34 ∉ ofString "... [truncated ") ∧ (Printable (ofString " of ") ∧ escapes (ofString " of ") = 0 ∧
      34 ∉ ofString " of ") ∧ Printable (ofString " chars]") ∧ escapes (ofString " chars]") = 0 ∧
      34 ∉ ofString " chars]" := by
    decide
  obtain ⟨⟨h1, h2, h3⟩, ⟨h4, h5, h6⟩, h7, h8, h9⟩ := hwords
  obtain ⟨p1, e1, q1⟩ := plain_text (length - cap)
  obtain ⟨p2, e2, q2⟩ := plain_text length
  have hstart : ofString "... [truncated " = 46 :: 46 :: (ofString "... [truncated ").drop 2 := by decide
  refine ⟨h1.append (p1.append (h4.append (p2.append h7))), ?_, ?_⟩
  · rw [truncationNote, escapes_append, escapes_append, escapes_append, escapes_append, h2, e1, h5, e2, h8]
  · refine ⟨(ofString "... [truncated ").drop 2 ++ (Decimal.text (length - cap) ++ (ofString " of " ++
      (Decimal.text length ++ ofString " chars]"))), ?_, ?_⟩
    · rw [truncationNote]
      conv_lhs => rw [hstart]
      rfl
    · simp only [List.mem_append, not_or]
      exact ⟨fun h => h3 (List.mem_of_mem_drop h), q1, h6, q2, h9⟩

lemma blank_space : Blank [32] := List.forall_mem_singleton.2 rfl

variable {output : Value}

/-- **The data of an output whose text is cut** is a string. -/
lemma resultData_cut (hw : writable output = true)
    (hlong : resultDataCharCap < (write [32] output).unitLength) :
    resultData (some (truncate (write [32] output) resultDataCharCap)) =
        .ok (.str (truncate (write [32] output) resultDataCharCap)) ∧
      List.length (quoted (truncate (write [32] output) resultDataCharCap)) =
        resultDataCharCap + (truncationNote (write [32] output).unitLength resultDataCharCap).unitLength +
          escapes ((write [32] output).take resultDataCharCap) + 2 := by
  have hspace : Printable [32] := by
    decide
  have hprint := printable_write hspace output
  generalize hblob : write [32] output = blob at *
  obtain ⟨hnote, hescapes, t, ht, hquote⟩ := truncationNote_spec blob.unitLength resultDataCharCap
  have htake : List.length (blob.take resultDataCharCap) = resultDataCharCap :=
    List.length_take_of_le hlong.le
  have hcut : Cut (blob.take resultDataCharCap) (write [32] output) := by
    rw [hblob]
    refine ⟨List.take_prefix _ _, fun heq => ?_⟩
    rw [heq] at htake
    unfold Text.unitLength at hlong
    omega
  have htruncate : truncate blob resultDataCharCap =
      blob.take resultDataCharCap ++ truncationNote blob.unitLength resultDataCharCap :=
    if_neg (not_le.2 hlong)
  have hleft : Printable (blob.take resultDataCharCap) := fun u hu => hprint u (List.mem_of_mem_take hu)
  constructor
  · have hloads := loads_cut blank_space hw hcut hquote
    rw [resultData, htruncate, ht, hloads]
  · rw [htruncate, length_quoted (hleft.append hnote), escapes_append, hescapes, List.length_append,
      htake]
    unfold Text.unitLength
    omega

/-- **The data of an output whose text is not cut** is written in no more characters. -/
lemma resultData_whole (hw : writable output = true)
    (hshort : (write [32] output).unitLength ≤ resultDataCharCap) :
    resultData (some (truncate (write [32] output) resultDataCharCap)) = .ok (parsed output) ∧
      List.length (write [] (parsed output)) ≤ resultDataCharCap := by
  have htruncate : truncate (write [32] output) resultDataCharCap = write [32] output :=
    if_pos hshort
  refine ⟨by rw [htruncate, resultData, loads_write blank_space hw], ?_⟩
  calc List.length (write [] (parsed output))
      ≤ List.length (write [32] (parsed output)) := length_write_compact_le _ _
    _ ≤ List.length (write [32] output) := length_write_parsed_le _ _
    _ ≤ resultDataCharCap := hshort

/-! ## Messages -/

/-- The number of digits of a number. -/
def digitCount (n : ℕ) : ℕ := (Decimal.text n).unitLength

lemma length_truncationNote (length cap : ℕ) : (truncationNote length cap).unitLength =
    26 + digitCount (length - cap) + digitCount length := by
  have hwords : List.length (ofString "... [truncated ") = 15 ∧ List.length (ofString " of ") = 4 ∧
      List.length (ofString " chars]") = 7 := by decide
  obtain ⟨h1, h2, h3⟩ := hwords
  simp only [truncationNote, digitCount, Text.unitLength, List.length_append, h1, h2, h3]
  omega

/-- What the cap leaves, beside the data, the frame, the quotes of a string and the words of the
note. -/
def spareChars : ℕ := 828

lemma length_quoted_le_of_mem_catalog : ∀ name ∈ toolCatalog, List.length (quoted name) ≤ 28 := by
  decide

/-- The output fits into a message: its text is not cut, or what is left of it has few quotes and
backslashes. -/
def Fits (name : Text) (arguments : Arguments) (output : Value) : Prop :=
  writable output = true →
    (write [32] output).unitLength ≤ resultDataCharCap ∨
      escapes ((write [32] output).take resultDataCharCap) + List.length (quoted name) +
          List.length (write [] (.obj arguments)) +
          digitCount ((write [32] output).unitLength - resultDataCharCap) +
          digitCount (write [32] output).unitLength ≤ spareChars

lemma executeCall_of_output {services : Services} {allowedTools : List Text} {name : Text}
    {arguments : Arguments} (hallowed : name ∈ allowedTools)
    (hrun : runTool services name arguments = .ok output) :
    executeCall services allowedTools name arguments =
      if writable output = true then
        ⟨name, arguments, some (truncate (write [32] output) resultDataCharCap), none⟩
      else ⟨name, arguments, none, some (intTooLong.kind ++ ofString ": " ++ intTooLong.message)⟩ := by
  rw [executeCall, if_neg (not_not.2 hallowed), hrun]
  dsimp only [Except.bind]
  by_cases hw : writable output = true
  · rw [outputText, dumps, if_pos hw, if_pos hw]
    rfl
  · rw [outputText, dumps, if_neg hw, if_neg hw]
    rfl

lemma length_toolMessage_cut (services : Services) {allowedTools : List Text} {name : Text}
    {arguments : Arguments} (hallowed : name ∈ allowedTools)
    (hrun : runTool services name arguments = .ok output)
    (hparams : writable (.obj arguments) = true) (hw : writable output = true)
    (hlong : resultDataCharCap < (write [32] output).unitLength) :
    ∃ message, toolMessage services allowedTools name arguments = .ok message ∧
      message.length + spareChars = resultCharCap +
        (escapes ((write [32] output).take resultDataCharCap) + List.length (quoted name) +
          List.length (write [] (.obj arguments)) +
          digitCount ((write [32] output).unitLength - resultDataCharCap) +
          digitCount (write [32] output).unitLength) := by
  obtain ⟨hdata, hlength⟩ := resultData_cut hw hlong
  obtain ⟨message, hmessage, hprint, htotal⟩ := envelope_spec services
    ⟨name, arguments, some (truncate (write [32] output) resultDataCharCap), none⟩ _ hparams hdata rfl
  refine ⟨message, ?_, ?_⟩
  · rw [toolMessage, executeCall_of_output hallowed hrun, if_pos hw, hmessage]
  simp only [if_true, optional, write, nullText, List.length_cons, List.length_nil] at htotal
  have hcap : resultDataCharCap = 7000 := rfl
  rw [length_truncationNote, hcap] at hlength
  rw [hcap] at htotal
  rw [length_of_printable hprint, hcap]
  unfold Text.unitLength resultCharCap spareChars at *
  unfold frameLength at htotal
  omega

/-- **The message of a call whose tool has an output.**

**Proof sketch.** An output with an integer that is too long has a short error. A text that is not
cut is read back, so that its data takes no more than its own characters. Of a text that is cut, the
data is a string, and the sum of the characters of the message is compared with the cap. -/
theorem length_toolMessage_iff (services : Services) {allowedTools : List Text} {name : Text}
    {arguments : Arguments} {output : Value} {paramsText : Text} (hallowed : name ∈ allowedTools)
    (hrun : runTool services name arguments = .ok output)
    (hparams : dumps [] (.obj arguments) = .ok paramsText) (hshort : paramsText.unitLength ≤ 500) :
    ∃ message, toolMessage services allowedTools name arguments = .ok message ∧
      (message.length ≤ resultCharCap ↔ Fits name arguments output) := by
  have hname : List.length (quoted name) ≤ 28 := by
    refine length_quoted_le_of_mem_catalog name ?_
    by_contra hmem
    rw [runTool, if_neg hmem] at hrun
    cases hrun
  obtain ⟨hwritable, rfl⟩ : writable (.obj arguments) = true ∧ write [] (.obj arguments) = paramsText := by
    unfold dumps at hparams
    split at hparams
    · next hw => exact ⟨hw, Except.ok.inj hparams⟩
    · cases hparams
  unfold Text.unitLength at hshort
  by_cases hw : writable output = true
  · by_cases hwhole : (write [32] output).unitLength ≤ resultDataCharCap
    · obtain ⟨hdata, hlength⟩ := resultData_whole hw hwhole
      obtain ⟨message, hmessage, hprint, htotal⟩ := envelope_spec services
        ⟨name, arguments, some (truncate (write [32] output) resultDataCharCap), none⟩ _
        hwritable hdata (writable_parsed hw)
      refine ⟨message, ?_, iff_of_true ?_ fun _ => .inl hwhole⟩
      · rw [toolMessage, executeCall_of_output hallowed hrun, if_pos hw, hmessage]
      rw [length_of_printable hprint]
      simp only [if_true, optional, write, nullText, List.length_cons, List.length_nil] at htotal
      unfold Text.unitLength resultCharCap
      unfold resultDataCharCap resultCharCap at hlength
      unfold frameLength at htotal
      omega
    · obtain ⟨message, hmessage, hlength⟩ :=
        length_toolMessage_cut services hallowed hrun hwritable hw (not_le.1 hwhole)
      refine ⟨message, hmessage, ?_⟩
      rw [Fits, imp_iff_right hw, or_iff_right hwhole]
      omega
  · obtain ⟨message, hmessage, hprint, htotal⟩ := envelope_spec services
      ⟨name, arguments, none, some (intTooLong.kind ++ ofString ": " ++ intTooLong.message)⟩ .null
      hwritable rfl rfl
    refine ⟨message, ?_, iff_of_true ?_ fun h => absurd h hw⟩
    · rw [toolMessage, executeCall_of_output hallowed hrun, if_neg hw, hmessage]
    have herror : List.length (quoted (intTooLong.kind ++ ofString ": " ++ intTooLong.message)) ≤ 200 := by
      decide +kernel
    rw [length_of_printable hprint]
    simp only [optional, write, reduceCtorEq, if_false, nullText, List.length_cons, List.length_nil]
      at htotal
    unfold Text.unitLength resultCharCap
    unfold frameLength at htotal
    omega

/-! ## A breakdown of 65 values -/

def breakdownName : Text := ofString "query_breakdown"

/-- The parameters that the model asks for. -/
def breakdownArguments : Arguments :=
  [(ofString "selector", .obj [(ofString "event_name", .str (ofString "$click")),
      (ofString "filters", .arr [])]),
    (ofString "property_name", .str (ofString "href")),
    (ofString "limit", .int 65)]

/-- The row of a value: `/aa`, `/ab`, …. -/
def breakdownRow (i : ℕ) : Value :=
  .obj [(ofString "selector", .str (ofString "$click")),
    (ofString "property_type", .str (ofString "string")),
    (ofString "property_value", .str [47, UInt16.ofNat (97 + i / 26), UInt16.ofNat (97 + i % 26)]),
    (ofString "event_count", .int (100 - i)),
    (ofString "unique_users", .int 1)]

/-- The response of the query service. -/
def breakdownOutput : Value :=
  .obj [(ofString "selector", .str (ofString "$click")),
    (ofString "property", .str (ofString "href")),
    (ofString "results", .arr ((List.range 65).map breakdownRow))]

/-- The digest of the only entry there is, the representation of a name and the query service. -/
def breakdownServices : Services where
  sha256 := fun _ i => [227, 62, 106, 252, 243, 133, 97, 237, 155, 26, 7, 117, 58, 51, 136, 77, 170, 155,
    215, 149, 125, 220, 239, 17, 252, 38, 92, 200, 62, 239, 32, 199].getD i 0
  pyRepr := fun s => 39 :: (s ++ [39])
  runner := fun _ _ => .ok breakdownOutput

lemma breakdownOutput_text : writable breakdownOutput = true ∧
    (write [32] breakdownOutput).unitLength = 7466 ∧
      escapes ((write [32] breakdownOutput).take resultDataCharCap) = 985 := by
  decide +kernel

/-- The cap decides about the message of the response. -/
theorem length_toolMessage_breakdown : ∃ message,
    toolMessage breakdownServices [breakdownName] breakdownName breakdownArguments = .ok message ∧
      (message.length ≤ resultCharCap ↔ Fits breakdownName breakdownArguments breakdownOutput) :=
  length_toolMessage_iff breakdownServices List.mem_cons_self (by
    rw [runTool, if_pos (by decide)]
    rfl) (if_pos (by decide +kernel)) (by decide +kernel)

/-- **A message beyond the cap.** The parameters have 83 characters, and the message has 8264. -/
theorem toolMessage_too_long :
    runTool breakdownServices breakdownName breakdownArguments = .ok breakdownOutput ∧
      (write [] (.obj breakdownArguments)).unitLength = 83 ∧ ∃ message,
        toolMessage breakdownServices [breakdownName] breakdownName breakdownArguments = .ok message ∧
          message.length = 8264 ∧ resultCharCap < message.length := by
  have hrun : runTool breakdownServices breakdownName breakdownArguments = .ok breakdownOutput := by
    rw [runTool, if_pos (by decide)]
    rfl
  obtain ⟨hw, hlength, hescapes⟩ := breakdownOutput_text
  have hparams : List.length (write [] (.obj breakdownArguments)) = 83 ∧
      List.length (quoted breakdownName) = 17 ∧ digitCount (7466 - resultDataCharCap) = 3 ∧
      digitCount 7466 = 4 := by decide +kernel
  obtain ⟨h1, h2, h3, h4⟩ := hparams
  obtain ⟨message, hmessage, htotal⟩ := length_toolMessage_cut breakdownServices
    List.mem_cons_self hrun (by decide +kernel) hw (by rw [hlength]; decide)
  rw [hlength, hescapes, h1, h2, h3, h4] at htotal
  unfold spareChars resultCharCap at htotal
  refine ⟨hrun, h1, message, hmessage, by omega, ?_⟩
  unfold resultCharCap
  omega

end Apdl.Agents.ToolLoop
