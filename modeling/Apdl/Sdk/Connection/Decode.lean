import Mathlib.Data.List.TakeWhile
import Apdl.Sdk.Connection.Reference

set_option autoImplicit false

/-!
# What the decoder dispatches

The messages of a connection, for every sequence of events, terminator and cutting into chunks.
With LF or CR as terminator the blocks of the decoder are the events. With CRLF the regular
expression of the boundary also takes the two characters of one CRLF for two terminators, so that
every line is a block of its own.

## Main results

* `dispatched_iff` — when the decoder dispatches what the rules prescribe.
-/

namespace Apdl.Sdk.Connection

/-! ## Blocks -/

/-- The field of a line that is neither blank nor a comment. -/
def lineField (line : Text) : Option (Text × Text) :=
  if line = [] ∨ line.head? = some colon then none else some (fieldOf line)

/-- The value of a line if it is a field called `name`. -/
def valueOf (name : String) (line : Text) : Option Text :=
  match lineField line with
  | some (field, value) => if field = Text.ofString name then some value else none
  | none => none

/-- The value of an `id` field that the format accepts. -/
def idValue (line : Text) : Option Text := (valueOf "id" line).filter (nul ∉ ·)

/-- The values of the data fields of a block. -/
def dataOf (lines : List Text) : List Text := lines.filterMap (valueOf "data")

/-- The ID that the fields of a block set. -/
def idOf (lines : List Text) : Option Text := (lines.filterMap idValue).getLast?

/-- The type that the fields of a block set. -/
def typeOf (lines : List Text) : Text :=
  match (lines.filterMap (valueOf "event")).getLast? with
  | some value => if value = [] then messageType else value
  | none => messageType

/-- The message of a block, if it has data. -/
def messageOf (lastEventId : Text) (lines : List Text) : List Dispatch :=
  if dataOf lines = [] then []
  else
    [{ type := typeOf lines
       data := [lf].intercalate (dataOf lines)
       id := idOf lines
       lastEventId := (idOf lines).getD lastEventId }]

/-- The messages of a sequence of blocks, from a last event ID. -/
def messagesFrom (lastEventId : Text) : List (List Text) → List Dispatch
  | [] => []
  | block :: blocks =>
    messageOf lastEventId block ++ messagesFrom ((idOf block).getD lastEventId) blocks

lemma field_names :
    Text.ofString "event" ≠ Text.ofString "data" ∧ Text.ofString "event" ≠ Text.ofString "id" ∧
      Text.ofString "data" ≠ Text.ofString "id" ∧ Text.ofString "id" ≠ Text.ofString "retry" := by
  decide

lemma readLine_eq (f : Fields) (line : Text) :
    (readLine f line).type =
        (match valueOf "event" line with
          | some value => if value = [] then messageType else value
          | none => f.type) ∧
      (readLine f line).data = f.data ++ (valueOf "data" line).toList ∧
      (readLine f line).eventId = (idValue line).or f.eventId := by
  obtain ⟨hed, hei, hdi, hir⟩ := field_names
  unfold readLine idValue valueOf lineField
  by_cases hskip : line = [] ∨ line.head? = some colon
  · simp [hskip]
  · rcases fieldOf line with ⟨field, value⟩
    simp only [hskip, if_false]
    by_cases hevent : field = Text.ofString "event"
    · simp [hevent, hed, hei]
    · by_cases hdata : field = Text.ofString "data"
      · simp [hdata, hed.symm, hdi]
      · by_cases hid : field = Text.ofString "id"
        · by_cases hnul : nul ∈ value
          · simp [hid, hei.symm, hdi.symm, hir, hnul, Option.filter_some]
          · simp [hid, hei.symm, hdi.symm, hnul, Option.filter_some]
        · simp only [hevent, hdata, hid, if_false, false_and]
          split_ifs <;> simp

lemma foldl_readLine (lines : List Text) (f : Fields) :
    (lines.foldl readLine f).type =
        (match (lines.filterMap (valueOf "event")).getLast? with
          | some value => if value = [] then messageType else value
          | none => f.type) ∧
      (lines.foldl readLine f).data = f.data ++ dataOf lines ∧
      (lines.foldl readLine f).eventId = (idOf lines).or f.eventId := by
  induction lines generalizing f with
  | nil => simp [dataOf, idOf]
  | cons line lines ih =>
    obtain ⟨htype, hdata, hid⟩ := ih (readLine f line)
    obtain ⟨htype', hdata', hid'⟩ := readLine_eq f line
    rw [List.foldl_cons]
    refine ⟨?_, ?_, ?_⟩
    · rw [htype, htype']
      cases hv : valueOf "event" line with
      | none => simp [hv]
      | some v =>
        simp only [List.filterMap_cons, hv, List.getLast?_cons]
        cases (lines.filterMap (valueOf "event")).getLast? <;> simp
    · rw [hdata, hdata']
      cases hv : valueOf "data" line <;> simp [dataOf, hv]
    · rw [hid, hid']
      unfold idOf
      cases hv : idValue line with
      | none => simp [hv]
      | some v =>
        simp only [List.filterMap_cons, hv, List.getLast?_cons]
        cases (lines.filterMap idValue).getLast? <;> simp

lemma dispatchLines_dispatched (c : Conn) (lines : List Text) :
    (dispatchLines c lines).dispatched =
      c.dispatched ++ messageOf (c.lastEventId.getD []) lines := by
  obtain ⟨htype, hdata, hid⟩ := foldl_readLine lines
    { type := messageType, data := [], eventId := none, reconnectDelay := c.reconnectDelay }
  simp only [dispatchLines, htype, hdata, hid, List.nil_append, Option.or_none]
  unfold messageOf typeOf
  split_ifs with hempty
  · simp
  · cases idOf lines <;> rfl

lemma dispatchLines_lastEventId (c : Conn) (lines : List Text) :
    (dispatchLines c lines).lastEventId = (idOf lines).or c.lastEventId := by
  obtain ⟨-, -, hid⟩ := foldl_readLine lines
    { type := messageType, data := [], eventId := none, reconnectDelay := c.reconnectDelay }
  simp [dispatchLines, hid]

lemma foldl_dispatchLines (blocks : List (List Text)) (c : Conn) :
    (blocks.foldl dispatchLines c).dispatched =
      c.dispatched ++ messagesFrom (c.lastEventId.getD []) blocks := by
  induction blocks generalizing c with
  | nil => simp [messagesFrom]
  | cons block blocks ih =>
    have hlast : (dispatchLines c block).lastEventId.getD [] =
        (idOf block).getD (c.lastEventId.getD []) := by
      rw [dispatchLines_lastEventId]
      cases idOf block <;> rfl
    rw [List.foldl_cons, ih, dispatchLines_dispatched, hlast, messagesFrom, List.append_assoc]

/-! ## The rules of the format, event by event -/

namespace Whatwg

lemma line_field {line : Text} (src : Source) (hline : line ≠ []) :
    src.line line =
      match lineField line with
      | some (field, value) => src.field field value
      | none => src := by
  unfold Source.line lineField fieldOf
  simp only [hline, if_false, false_or]
  by_cases hcomment : line.head? = some colon
  · simp [hcomment]
  · by_cases hcolon : colon ∈ line
    · simp [hcomment, hcolon]
    · have hall : ∀ u ∈ line, u ≠ colon := fun u hu hc => hcolon (hc ▸ hu)
      have htake : line.takeWhile (· ≠ colon) = line := by
        rw [List.takeWhile_eq_self_iff]
        simpa using hall
      have hdrop : line.dropWhile (· ≠ colon) = [] := by
        rw [List.dropWhile_eq_nil_iff]
        simpa using hall
      simp only [hcomment, hcolon, if_false, htake, hdrop, List.tail_nil, List.head?_nil]
      rfl

lemma line_eq {line : Text} (src : Source) (hline : line ≠ []) :
    src.line line =
      { dataBuffer := src.dataBuffer ++ ((valueOf "data" line).map (· ++ [lf])).getD []
        typeBuffer := (valueOf "event" line).getD src.typeBuffer
        idBuffer := (idValue line).getD src.idBuffer
        ownId := (idValue line).or src.ownId
        messages := src.messages } := by
  obtain ⟨hed, hei, hdi, -⟩ := field_names
  rw [line_field src hline]
  unfold idValue valueOf
  cases hfield : lineField line with
  | none => simp
  | some fv =>
    obtain ⟨field, value⟩ := fv
    unfold Source.field
    by_cases hevent : field = Text.ofString "event"
    · simp [hevent, hed, hei]
    · by_cases hdata : field = Text.ofString "data"
      · simp [hdata, hed.symm, hdi]
      · by_cases hid : field = Text.ofString "id"
        · by_cases hnul : nul ∈ value
          · simp [hid, hei.symm, hdi.symm, hnul, Option.filter_some]
          · simp [hid, hei.symm, hdi.symm, hnul, Option.filter_some]
        · simp [hevent, hdata, hid]

lemma foldl_line {lines : List Text} (src : Source) (hlines : ∀ line ∈ lines, line ≠ []) :
    lines.foldl Source.line src =
      { dataBuffer := src.dataBuffer ++ (dataOf lines).flatMap (· ++ [lf])
        typeBuffer := ((lines.filterMap (valueOf "event")).getLast?).getD src.typeBuffer
        idBuffer := (idOf lines).getD src.idBuffer
        ownId := (idOf lines).or src.ownId
        messages := src.messages } := by
  induction lines generalizing src with
  | nil => simp [dataOf, idOf]
  | cons line lines ih =>
    rw [List.foldl_cons, ih _ fun l hl => hlines l (List.mem_cons_of_mem _ hl),
      line_eq src (hlines line List.mem_cons_self)]
    unfold idOf dataOf
    congr 1
    · cases hv : valueOf "data" line <;> simp [hv]
    · cases hv : valueOf "event" line with
      | none => simp [hv]
      | some v => simp [hv, List.getLast?_cons]
    · cases hv : idValue line with
      | none => simp [hv]
      | some v => simp [hv, List.getLast?_cons]
    · cases hv : idValue line with
      | none => simp [hv]
      | some v =>
        simp only [List.filterMap_cons, hv, List.getLast?_cons]
        cases (lines.filterMap idValue).getLast? <;> simp

lemma linesFrom_cons (acc : Text) (a : CodeUnit) (s : Text) :
    linesFrom acc (a :: s) =
      if a = lf then acc :: linesFrom [] s
      else if a = cr then acc :: linesFrom [] (if s.head? = some lf then s.tail else s)
      else linesFrom (acc ++ [a]) s := by
  cases s with
  | nil => simp [linesFrom]
  | cons b s => by_cases hb : b = lf <;> simp [linesFrom, hb]

lemma linesFrom_append {u : Text} (hcr : cr ∉ u) (hlf : lf ∉ u) (acc s : Text) :
    linesFrom acc (u ++ s) = linesFrom (acc ++ u) s := by
  induction u generalizing acc with
  | nil => simp
  | cons a u ih =>
    simp only [List.mem_cons, not_or] at hcr hlf
    have hstep : linesFrom acc (a :: (u ++ s)) = linesFrom (acc ++ [a]) (u ++ s) := by
      rw [linesFrom_cons, if_neg (Ne.symm hlf.1), if_neg (Ne.symm hcr.1)]
    rw [List.cons_append, hstep, ih hcr.2 hlf.2, List.append_assoc, List.singleton_append]

lemma linesFrom_units (t : Terminator) (acc : Text) {s : Text}
    (hs : t = .cr → s.head? ≠ some lf) :
    linesFrom acc (t.units ++ s) = acc :: linesFrom [] s := by
  have hne : cr ≠ lf := by decide
  cases t with
  | lf => simp [Terminator.units, linesFrom_cons]
  | cr => simp [Terminator.units, linesFrom_cons, hne, hs rfl]
  | crlf => simp [Terminator.units, linesFrom_cons, hne]

end Whatwg

lemma not_mem_of_mem_linesOf {events : List Event} {line : Text} (h : line ∈ linesOf events) :
    cr ∉ line ∧ lf ∉ line := by
  simp only [linesOf, Event.texts, List.mem_flatMap, List.mem_append, List.mem_map,
    List.mem_singleton] at h
  obtain ⟨e, -, ⟨l, -, rfl⟩ | rfl⟩ := h
  · exact ⟨l.no_cr, l.no_lf⟩
  · simp

lemma head_terminated {t : Terminator} (ht : t ≠ .lf) {lines : List Text}
    (hlines : ∀ line ∈ lines, cr ∉ line ∧ lf ∉ line) : (terminated t lines).head? ≠ some lf := by
  cases lines with
  | nil => simp [terminated]
  | cons line lines =>
    have hline := (hlines line List.mem_cons_self).2
    cases line with
    | nil => cases t <;> simp_all [terminated, Terminator.units, cr, lf]
    | cons a line =>
      simp only [List.mem_cons, not_or] at hline
      simp [terminated, Ne.symm hline.1]

lemma Whatwg.lines_terminated (t : Terminator) {lines : List Text}
    (hlines : ∀ line ∈ lines, cr ∉ line ∧ lf ∉ line) :
    Whatwg.lines (terminated t lines) = lines := by
  induction lines with
  | nil => rfl
  | cons line lines ih =>
    obtain ⟨hcr, hlf⟩ := hlines line List.mem_cons_self
    have hrest : ∀ l ∈ lines, cr ∉ l ∧ lf ∉ l := fun l hl => hlines l (List.mem_cons_of_mem _ hl)
    have hcut : terminated t (line :: lines) = line ++ (t.units ++ terminated t lines) := by
      simp [terminated]
    rw [Whatwg.lines, hcut, Whatwg.linesFrom_append hcr hlf, List.nil_append,
      Whatwg.linesFrom_units t line fun ht => head_terminated (by simp [ht]) hrest]
    exact congrArg _ (ih hrest)

lemma dropLast_flatMap {a : CodeUnit} {l : List Text} (hl : l ≠ []) :
    (l.flatMap (· ++ [a])).dropLast = [a].intercalate l := by
  induction l with
  | nil => exact absurd rfl hl
  | cons x l ih =>
    cases l with
    | nil => simp [List.intercalate]
    | cons y l =>
      have hne : (List.flatMap (· ++ [a]) (y :: l)) ≠ [] := by simp
      rw [List.flatMap_cons, List.dropLast_append_of_ne_nil hne, ih (by simp)]
      simp [List.intercalate]

lemma Whatwg.line_nil_foldl {src : Whatwg.Source} {lines : List Text}
    (hlines : ∀ line ∈ lines, line ≠ []) (hdata : src.dataBuffer = [])
    (htype : src.typeBuffer = []) (hown : src.ownId = none) :
    (lines.foldl Whatwg.Source.line src).line [] =
      { dataBuffer := []
        typeBuffer := []
        idBuffer := (idOf lines).getD src.idBuffer
        ownId := none
        messages := src.messages ++ messageOf src.idBuffer lines } := by
  rw [Whatwg.foldl_line src hlines, Whatwg.Source.line, if_pos rfl, Whatwg.Source.dispatch]
  congr 1
  unfold messageOf
  by_cases hempty : dataOf lines = []
  · simp [hempty, hdata]
  · have hne : (dataOf lines).flatMap (· ++ [lf]) ≠ [] := by
      obtain ⟨v, l, hvl⟩ := List.exists_cons_of_ne_nil hempty
      simp [hvl]
    simp only [hdata, htype, hown, List.nil_append, hne, hempty, if_false,
      dropLast_flatMap hempty, Option.or_none]
    unfold typeOf
    cases (lines.filterMap (valueOf "event")).getLast? <;> rfl

lemma Whatwg.foldl_linesOf (events : List Event) {src : Whatwg.Source} (hdata : src.dataBuffer = [])
    (htype : src.typeBuffer = []) (hown : src.ownId = none) :
    ((linesOf events).foldl Whatwg.Source.line src).messages =
      src.messages ++ messagesFrom src.idBuffer (events.map Event.texts) := by
  induction events generalizing src with
  | nil => simp [linesOf, messagesFrom]
  | cons e events ih =>
    have hlines : ∀ line ∈ e.texts, line ≠ [] := by
      intro line hline
      obtain ⟨l, -, rfl⟩ := List.mem_map.1 hline
      exact l.nonempty
    have hcut : linesOf (e :: events) = e.texts ++ ([] :: linesOf events) := by simp [linesOf]
    rw [hcut, List.foldl_append, List.foldl_cons, Whatwg.line_nil_foldl hlines hdata htype hown,
      ih rfl rfl rfl, List.map_cons, messagesFrom, List.append_assoc]

/-- **The messages the rules prescribe** for an encoded sequence of events are those of its
events. -/
lemma prescribed_encode (lastEventId : Text) (t : Terminator) (events : List Event) :
    Whatwg.prescribed lastEventId (encode t events) =
      messagesFrom lastEventId (events.map Event.texts) := by
  have hlines := Whatwg.lines_terminated t fun l (hl : l ∈ linesOf events) =>
    not_mem_of_mem_linesOf hl
  rw [Whatwg.prescribed, encode, hlines, Whatwg.foldl_linesOf events rfl rfl rfl]
  rfl

@[simp] lemma dispatchLines_nil_cons (c : Conn) (lines : List Text) :
    dispatchLines c ([] :: lines) = dispatchLines c lines := rfl

@[simp] lemma dispatchLines_nil (c : Conn) : dispatchLines c [] = c := rfl

/-! ## Terminators of one character -/

/-- A terminator of one character. -/
def IsUnit (a : CodeUnit) : Prop := a = cr ∨ a = lf

/-- The only terminator in a text is `a`. -/
def Only (a : CodeUnit) (s : Text) : Prop := ∀ u ∈ s, IsUnit u → u = a

/-- Every `a` in the text is followed by another character. -/
def Isolated (a : CodeUnit) : Text → Prop
  | [] => True
  | x :: s => (x = a → ∃ y ∈ s.head?, y ≠ a) ∧ Isolated a s

lemma Isolated.append {a : CodeUnit} {l s : Text} (hl : a ∉ l) (hs : Isolated a s) : Isolated a (l ++ s) := by
  induction l with
  | nil => exact hs
  | cons x l ih =>
    simp only [List.mem_cons, not_or] at hl
    exact ⟨fun h => absurd h.symm hl.1, ih hl.2⟩

lemma Isolated.cons {a : CodeUnit} {s : Text} (hne : s ≠ []) (hhead : s.head? ≠ some a) (hs : Isolated a s) :
    Isolated a (a :: s) := by
  obtain ⟨y, s', rfl⟩ := List.exists_cons_of_ne_nil hne
  exact ⟨fun _ => ⟨y, rfl, fun h => hhead (by simp [h])⟩, hs⟩

lemma Only.cons {a : CodeUnit} {s : Text} (hs : Only a s) : Only a (a :: s) := by
  intro u hu hunit
  obtain rfl | hu := List.mem_cons.1 hu
  · rfl
  · exact hs u hu hunit

lemma Only.append {a : CodeUnit} {s u : Text} (hs : Only a s) (hu : Only a u) :
    Only a (s ++ u) := by
  intro v hv hunit
  obtain hv | hv := List.mem_append.1 hv
  · exact hs v hv hunit
  · exact hu v hv hunit

section Single

variable {a : CodeUnit} (ha : IsUnit a)

include ha

lemma eol_only {s : Text} (hs : Only a s) : eol (a :: s) = [1] := by
  rw [eol_cons]
  obtain rfl | rfl := ha
  · have hhead : s.head? ≠ some lf := by
      intro h
      have hmem : lf ∈ s := List.mem_of_head? h
      exact absurd (hs lf hmem (.inr rfl)) (by decide)
    simp [hhead]
  · simp [show lf ≠ cr by decide]

lemma boundary_only {s : Text} (hs : Only a s) :
    boundary.matchHead s = if [a, a] <+: s then some 2 else none := by
  cases s with
  | nil => simp [boundary, Pattern.seq, Pattern.matchHead]
  | cons b s =>
    have hs' : Only a s := fun u hu => hs u (List.mem_cons_of_mem _ hu)
    by_cases hb : IsUnit b
    · obtain rfl := hs b List.mem_cons_self hb
      rw [boundary_single (eol_only ha hs')]
      cases s with
      | nil => simp [Pattern.matchHead]
      | cons d s =>
        have hs'' : Only b s := fun u hu => hs' u (List.mem_cons_of_mem _ hu)
        by_cases hd : IsUnit d
        · obtain rfl := hs' d List.mem_cons_self hd
          simp [Pattern.matchHead, eol_only ha hs'']
        · have hne : b ≠ d := by rintro rfl; exact hd hb
          simp only [IsUnit, not_or] at hd
          simp [Pattern.matchHead, eol_cons, hd.1, hd.2, hne]
    · have hne : a ≠ b := by rintro rfl; exact hb ha
      simp only [IsUnit, not_or] at hb
      simp [boundary_other hb.1 hb.2, hne]

lemma exec_append_of_some {b u : Text} (hb : Only a (b ++ u)) {m : ℕ × ℕ}
    (h : boundary.exec b = some m) : boundary.exec (b ++ u) = some m := by
  induction b generalizing m with
  | nil => simp [Pattern.exec, Pattern.matchHead, boundary, Pattern.seq] at h
  | cons x b ih =>
    have hb' : Only a (b ++ u) := fun v hv => hb v (List.mem_cons_of_mem _ hv)
    have hfront : Only a (x :: b) := fun v hv => hb v (List.mem_append_left _ hv)
    cases hhead : boundary.matchHead (x :: b) with
    | some n =>
      rw [Pattern.exec_of_matchHead hhead] at h
      rw [boundary_only ha hfront] at hhead
      split_ifs at hhead with hpre
      have hhead' : boundary.matchHead (x :: b ++ u) = some n := by
        rw [boundary_only ha hb, if_pos (hpre.trans (List.prefix_append _ _)), hhead]
      rw [Pattern.exec_of_matchHead hhead', h]
    | none =>
      rw [Pattern.exec_cons hhead] at h
      cases b with
      | nil => simp [Pattern.exec, Pattern.matchHead, boundary, Pattern.seq] at h
      | cons y b =>
        -- two characters decide whether a boundary starts here
        have hhead' : boundary.matchHead (x :: (y :: b ++ u)) = none := by
          rw [boundary_only ha hfront] at hhead
          have hpre : ¬ [a, a] <+: x :: y :: b := fun hp => by simp [hp] at hhead
          have hpre' : ¬ [a, a] <+: x :: (y :: b ++ u) := by simpa using hpre
          exact (boundary_only ha hb).trans (if_neg hpre')
        obtain ⟨m', hm', rfl⟩ := Option.map_eq_some_iff.1 h
        rw [List.cons_append, Pattern.exec_cons hhead', ih hb' hm', Option.map_some]

lemma dispatchCompleteMessages_append (c : Conn) (b u : Text) (hb : Only a (b ++ u)) :
    dispatchCompleteMessages c (b ++ u) =
      dispatchCompleteMessages (dispatchCompleteMessages c b).1
        ((dispatchCompleteMessages c b).2 ++ u) := by
  induction c, b using dispatchCompleteMessages.induct with
  | case1 c b hexec => rw [dispatchCompleteMessages_none hexec]
  | case2 c b index length hexec ih =>
    obtain ⟨-, hlen⟩ := boundary_exec_le hexec
    have hdrop : Only a (b.drop (index + length) ++ u) := by
      rw [← List.drop_append_of_le_length hlen]
      exact fun v hv => hb v (List.mem_of_mem_drop hv)
    rw [dispatchCompleteMessages_some (exec_append_of_some ha hb hexec),
      List.take_append_of_le_length (by omega), List.drop_append_of_le_length hlen, ih hdrop,
      dispatchCompleteMessages_some hexec]

lemma consumeChunks_only (c : Conn) (buffer : Text) (chunks : List Text)
    (h : Only a (buffer ++ chunks.flatten)) :
    dispatchCompleteMessages (consumeChunks c buffer chunks).1 (consumeChunks c buffer chunks).2 =
      dispatchCompleteMessages c (buffer ++ chunks.flatten) := by
  induction chunks generalizing c buffer with
  | nil => simp [consumeChunks]
  | cons chunk chunks ih =>
    rw [List.flatten_cons, ← List.append_assoc] at h ⊢
    have hrest : Only a ((dispatchCompleteMessages c (buffer ++ chunk)).2 ++ chunks.flatten) := by
      obtain ⟨hsuffix, -⟩ := dispatchCompleteMessages_rest c (buffer ++ chunk)
      intro v hv
      rw [List.mem_append] at hv
      exact h v (List.mem_append.2 (hv.imp_left fun hv => hsuffix.mem hv))
    rw [dispatchCompleteMessages_append ha c _ _ h, ← ih _ _ hrest]
    rfl

lemma exec_isolated {block s : Text} (hblock : Isolated a block)
    (honly : Only a (block ++ a :: a :: s)) :
    boundary.exec (block ++ a :: a :: s) = some (List.length block, 2) := by
  induction block with
  | nil =>
    apply Pattern.exec_of_matchHead
    exact (boundary_only ha honly).trans (if_pos (by simp))
  | cons x block ih =>
    have hnone : boundary.matchHead (x :: (block ++ a :: a :: s)) = none := by
      refine (boundary_only ha honly).trans (if_neg ?_)
      intro hpre
      obtain ⟨hx, hpre'⟩ := List.cons_prefix_cons.1 hpre
      obtain ⟨y, hy, hne⟩ := hblock.1 hx.symm
      cases block with
      | nil => simp at hy
      | cons z block =>
        obtain ⟨hz, -⟩ := List.cons_prefix_cons.1 hpre'
        simp_all
    have htail := ih hblock.2 fun v hv => honly v (List.mem_cons_of_mem _ hv)
    rw [List.cons_append, Pattern.exec_cons hnone, htail]
    rfl

omit ha in
lemma head_intercalate (a y : CodeUnit) (w : Text) (lines : List Text) :
    ([a].intercalate ((y :: w) :: lines)).head? = some y := by
  cases lines <;> simp [List.intercalate, List.intersperse]

omit ha in
lemma isolated_intercalate {lines : List Text} (hlines : ∀ l ∈ lines, l ≠ [] ∧ a ∉ l) :
    Isolated a ([a].intercalate lines) := by
  induction lines with
  | nil => trivial
  | cons l lines ih =>
    obtain ⟨-, hl⟩ := hlines l List.mem_cons_self
    cases lines with
    | nil => simpa [List.intercalate] using Isolated.append hl (s := []) trivial
    | cons l' lines =>
      obtain ⟨hne', hl'⟩ := hlines l' (by simp)
      obtain ⟨y, w, rfl⟩ := List.exists_cons_of_ne_nil hne'
      simp only [List.mem_cons, not_or] at hl'
      have hrest := ih fun l hl => hlines l (List.mem_cons_of_mem _ hl)
      have hjoin : [a].intercalate (l :: (y :: w) :: lines) =
          l ++ a :: [a].intercalate ((y :: w) :: lines) := by
        simp [List.intercalate, List.intersperse]
      rw [hjoin]
      refine Isolated.append hl (Isolated.cons ?_ ?_ hrest)
      · intro hnil
        simpa [hnil] using head_intercalate a y w lines
      · rw [head_intercalate]
        simp [Ne.symm hl'.1]

omit ha in
lemma eol_matchHead_append {l x y s : Text} (hcr : cr ∉ l) (hlf : lf ∉ l) (hl : l = x ++ y)
    (hy : y ≠ []) : eol.matchHead (y ++ s) = none := by
  obtain ⟨z, y, rfl⟩ := List.exists_cons_of_ne_nil hy
  have hz : z ∈ l := by simp [hl]
  have hzcr : z ≠ cr := by rintro rfl; exact hcr hz
  have hzlf : z ≠ lf := by rintro rfl; exact hlf hz
  simp [Pattern.matchHead, eol_cons, hzcr, hzlf]

omit ha in
lemma only_intercalate {lines : List Text} (hlines : ∀ l ∈ lines, cr ∉ l ∧ lf ∉ l) :
    Only a ([a].intercalate lines) := by
  induction lines with
  | nil => intro u hu; simp [List.intercalate] at hu
  | cons l lines ih =>
    have hl : Only a l := by
      obtain ⟨hcr, hlf⟩ := hlines l List.mem_cons_self
      rintro u hu (rfl | rfl)
      · exact absurd hu hcr
      · exact absurd hu hlf
    have hrest := ih fun l hl => hlines l (List.mem_cons_of_mem _ hl)
    cases lines with
    | nil => simpa [List.intercalate] using hl
    | cons l' lines =>
      have hjoin : [a].intercalate (l :: l' :: lines) = l ++ a :: [a].intercalate (l' :: lines) := by
        simp [List.intercalate, List.intersperse]
      rw [hjoin]
      exact hl.append hrest.cons

omit ha in
lemma only_terminated {t : Terminator} (ht : t.units = [a]) {lines : List Text}
    (hlines : ∀ l ∈ lines, cr ∉ l ∧ lf ∉ l) : Only a (terminated t lines) := by
  intro u hu hunit
  simp only [terminated, ht, List.mem_flatMap, List.mem_append, List.mem_singleton] at hu
  obtain ⟨l, hl, hu | rfl⟩ := hu
  · obtain ⟨hcr, hlf⟩ := hlines l hl
    obtain rfl | rfl := hunit
    · exact absurd hu hcr
    · exact absurd hu hlf
  · rfl

lemma split_intercalate {lines : List Text} (hne : lines ≠ [])
    (hlines : ∀ l ∈ lines, cr ∉ l ∧ lf ∉ l) : eol.split ([a].intercalate lines) = lines := by
  induction lines with
  | nil => exact absurd rfl hne
  | cons l lines ih =>
    obtain ⟨hcr, hlf⟩ := hlines l List.mem_cons_self
    cases lines with
    | nil =>
      have hone : eol.split l = [l] := Pattern.split_eq_singleton fun x y hxy hy => by
        simpa using eol_matchHead_append (s := []) hcr hlf hxy hy
      simpa [List.intercalate] using hone
    | cons l' lines =>
      have hrest := ih (by simp) fun l hl => hlines l (List.mem_cons_of_mem _ hl)
      have hjoin : [a].intercalate (l :: l' :: lines) = l ++ a :: [a].intercalate (l' :: lines) := by
        simp [List.intercalate, List.intersperse]
      have hmatch : eol.matchHead (a :: [a].intercalate (l' :: lines)) = some (0 + 1) := by
        rw [Pattern.matchHead, eol_only ha]
        · rfl
        · exact only_intercalate fun l hl => hlines l (List.mem_cons_of_mem _ hl)
      rw [hjoin, Pattern.split_append (fun x y hxy hy => eol_matchHead_append hcr hlf hxy hy) hmatch,
        List.drop_zero, hrest]

omit ha in
lemma flatMap_append_eq_intercalate {lines : List Text} (hne : lines ≠ []) :
    lines.flatMap (· ++ [a]) ++ [a] = [a].intercalate lines ++ [a, a] := by
  have hlast : lines.flatMap (· ++ [a]) = [a].intercalate lines ++ [a] := by
    induction lines with
    | nil => exact absurd rfl hne
    | cons l lines ih =>
      cases lines with
      | nil => simp [List.intercalate]
      | cons l' lines =>
        rw [List.flatMap_cons, ih (by simp)]
        simp [List.intercalate, List.intersperse]
  rw [hlast, List.append_assoc]
  rfl

lemma block_event {e : Event} (hne : e ≠ []) {front : Text} (hfront : front = [] ∨ front = [a]) :
    Isolated a (front ++ [a].intercalate e.texts) ∧ Only a (front ++ [a].intercalate e.texts) ∧
      ∀ c, dispatchMessage c (front ++ [a].intercalate e.texts) = dispatchLines c e.texts := by
  have htexts : e.texts ≠ [] := by simpa [Event.texts] using hne
  have hfree : ∀ l ∈ e.texts, cr ∉ l ∧ lf ∉ l := by
    intro l hl
    obtain ⟨line, -, rfl⟩ := List.mem_map.1 hl
    exact ⟨line.no_cr, line.no_lf⟩
  have hlines : ∀ l ∈ e.texts, l ≠ [] ∧ a ∉ l := by
    intro l hl
    obtain ⟨line, -, rfl⟩ := List.mem_map.1 hl
    exact ⟨line.nonempty, by obtain rfl | rfl := ha; exacts [line.no_cr, line.no_lf]⟩
  have hjoined := isolated_intercalate hlines
  have honly : Only a ([a].intercalate e.texts) := only_intercalate hfree
  have hsplit := split_intercalate ha htexts hfree
  obtain rfl | rfl := hfront
  · exact ⟨hjoined, honly, fun c => by rw [List.nil_append, dispatchMessage, hsplit]⟩
  · refine ⟨?_, honly.cons, fun c => ?_⟩
    · obtain ⟨l, ls, hls⟩ := List.exists_cons_of_ne_nil htexts
      obtain ⟨hlne, hal⟩ := hlines l (by simp [hls])
      obtain ⟨y, w, rfl⟩ := List.exists_cons_of_ne_nil hlne
      have hhead : ([a].intercalate e.texts).head? = some y := by rw [hls, head_intercalate]
      show Isolated a (a :: [a].intercalate e.texts)
      refine .cons ?_ ?_ hjoined
      · intro hnil
        simp [hnil] at hhead
      · rw [hhead]
        rintro ⟨⟩
        exact hal List.mem_cons_self
    · have hmatch : eol.matchHead (a :: [a].intercalate e.texts) = some (0 + 1) := by
        rw [Pattern.matchHead, eol_only ha honly]; rfl
      have hblank : eol.split ([] ++ a :: [a].intercalate e.texts) = [] :: e.texts := by
        rw [Pattern.split_append (by simp) hmatch, List.drop_zero, hsplit]
      rw [List.singleton_append, dispatchMessage, ← List.nil_append (a :: _), hblank,
        dispatchLines_nil_cons]

lemma dispatchCompleteMessages_event {e : Event} (hne : e ≠ []) {front rest : Text}
    (hfront : front = [] ∨ front = [a]) (hrest : Only a rest) (c : Conn) :
    dispatchCompleteMessages c (front ++ (e.texts.flatMap (· ++ [a]) ++ [a] ++ rest)) =
      dispatchCompleteMessages (dispatchLines c e.texts) rest := by
  have htexts : e.texts ≠ [] := by simpa [Event.texts] using hne
  obtain ⟨hisolated, honly, hdispatch⟩ := block_event ha hne hfront
  have hexec := exec_isolated ha hisolated (honly.append hrest.cons.cons)
  have hcut : front ++ (e.texts.flatMap (· ++ [a]) ++ [a] ++ rest) =
      front ++ [a].intercalate e.texts ++ a :: a :: rest := by
    rw [flatMap_append_eq_intercalate htexts]; simp
  rw [hcut, dispatchCompleteMessages_some hexec, List.take_left, hdispatch, ← List.drop_drop,
    List.drop_left]
  rfl

/-- **The blocks of a stream whose terminator is one character** are its events. A blank line may be
left over in front.

**Proof sketch.** By induction on the events. The text of an event with lines is its lines joined,
then two terminators, which is where the first boundary is. An event without lines is one more
terminator: it stays in front of what follows, or makes a block without lines with the one that is
there. -/
lemma dispatchCompleteMessages_encode {t : Terminator} (ht : t.units = [a]) (events : List Event)
    {front : Text} (hfront : front = [] ∨ front = [a]) (c : Conn) :
    (dispatchCompleteMessages c (front ++ encode t events)).1 =
      (events.map Event.texts).foldl dispatchLines c := by
  induction events generalizing front c with
  | nil =>
    have hnone : boundary.exec front = none := by
      obtain rfl | rfl := hfront
      · rfl
      · obtain rfl | rfl := ha <;> rfl
    have hempty : encode t [] = [] := rfl
    rw [hempty, List.append_nil, dispatchCompleteMessages_none hnone]
    rfl
  | cons e events ih =>
    have hrest : Only a (encode t events) :=
      only_terminated ht fun l hl => not_mem_of_mem_linesOf hl
    have hcut : encode t (e :: events) =
        e.texts.flatMap (· ++ [a]) ++ [a] ++ encode t events := by
      simp [encode, linesOf, terminated, ht]
    rw [hcut, List.map_cons, List.foldl_cons]
    by_cases hne : e = []
    · subst hne
      obtain rfl | rfl := hfront
      · exact ih (.inr rfl) c
      · have hexec : boundary.exec ([a] ++ ([] ++ [a] ++ encode t events)) = some (0, 2) :=
          Pattern.exec_of_matchHead ((boundary_only ha (hrest.cons.cons)).trans (if_pos (by simp)))
        rw [show (Event.texts []).flatMap (· ++ [a]) = [] from rfl,
          dispatchCompleteMessages_some hexec]
        exact ih (.inl rfl) c
    · rw [dispatchCompleteMessages_event ha hne hfront hrest]
      exact ih (.inl rfl) _

end Single

/-- **A stream whose terminator is LF or CR** is decoded event by event, in any chunks. -/
lemma consumeStream_single {t : Terminator} (ht : t ≠ .crlf) {events : List Event}
    {chunks : List Text} (hchunks : chunks.flatten = encode t events) (c : Conn) :
    consumeStream c chunks = (events.map Event.texts).foldl dispatchLines c := by
  obtain ⟨a, ha, hunits⟩ : ∃ a, IsUnit a ∧ t.units = [a] := by
    cases t with
    | lf => exact ⟨lf, .inr rfl, rfl⟩
    | cr => exact ⟨cr, .inl rfl, rfl⟩
    | crlf => exact absurd rfl ht
  have honly : Only a ([] ++ chunks.flatten) := by
    rw [List.nil_append, hchunks]
    exact only_terminated hunits fun l hl => not_mem_of_mem_linesOf hl
  have hwhole := consumeChunks_only ha c [] chunks honly
  rw [hchunks] at hwhole
  exact (congrArg Prod.fst hwhole).trans
    (dispatchCompleteMessages_encode ha hunits events (.inl rfl) c)

/-! ## CRLF -/

/-- The lines of a stream, each one a block of its own. -/
def singletons (lines : List Text) : List (List Text) := lines.map ([·])

@[simp] lemma foldl_singletons_nil (c : Conn) (lines : List Text) :
    (singletons ([] :: lines)).foldl dispatchLines c = (singletons lines).foldl dispatchLines c :=
  rfl

/-- Read line by line, a text is worth these lines. It may start with an LF whose CR is gone. -/
def Holds (s : Text) (lines : List Text) : Prop :=
  ∃ front lines', (front = [] ∨ front = [lf]) ∧ (∀ l ∈ lines', cr ∉ l ∧ lf ∉ l) ∧
    s = front ++ terminated .crlf lines' ∧
    ∀ c, (singletons lines').foldl dispatchLines c = (singletons lines).foldl dispatchLines c

lemma holds_terminated {lines : List Text} (hlines : ∀ l ∈ lines, cr ∉ l ∧ lf ∉ l) :
    Holds (terminated .crlf lines) lines :=
  ⟨[], lines, .inl rfl, hlines, rfl, fun _ => rfl⟩

lemma holds_drop_eol {b u : Text} {lines : List Text} (hlines : ∀ l ∈ lines, cr ∉ l ∧ lf ∉ l)
    (h : b ++ u = terminated .crlf lines) :
    Holds (b.drop ((eol.matchHead b).getD 0) ++ u) lines := by
  -- nothing changes unless a terminator stands at the head of `b`
  have hsame : eol.matchHead b = none → Holds (b.drop ((eol.matchHead b).getD 0) ++ u) lines := by
    intro hnone
    rw [hnone, Option.getD_none, List.drop_zero, h]
    exact holds_terminated hlines
  cases b with
  | nil => exact hsame rfl
  | cons x b =>
    cases lines with
    | nil => simp [terminated] at h
    | cons l lines =>
      obtain ⟨hcr, hlf⟩ := hlines l List.mem_cons_self
      have hrest : ∀ l ∈ lines, cr ∉ l ∧ lf ∉ l := fun l hl => hlines l (List.mem_cons_of_mem _ hl)
      cases l with
      | cons y l =>
        obtain ⟨rfl, -⟩ : x = y ∧ b ++ u = l ++ (Terminator.crlf.units ++ terminated .crlf lines) := by
          simpa [terminated] using h
        simp only [List.mem_cons, not_or] at hcr hlf
        apply hsame
        simp [Pattern.matchHead, eol_cons, Ne.symm hcr.1, Ne.symm hlf.1]
      | nil =>
        obtain ⟨rfl, htail⟩ : x = cr ∧ b ++ u = lf :: terminated .crlf lines := by
          simpa [terminated, Terminator.units] using h
        cases b with
        | nil =>
          refine ⟨[lf], lines, .inr rfl, hrest, ?_, fun c => rfl⟩
          simpa [Pattern.matchHead, eol_cons] using htail
        | cons y b =>
          obtain ⟨rfl, htail⟩ : y = lf ∧ b ++ u = terminated .crlf lines := by simpa using htail
          refine ⟨[], lines, .inl rfl, hrest, ?_, fun c => rfl⟩
          simpa [Pattern.matchHead, eol_cons] using htail

lemma exec_free {w s : Text} (hcr : cr ∉ w) (hlf : lf ∉ w) :
    boundary.exec (w ++ s) = (boundary.exec s).map fun m => (m.1 + List.length w, m.2) := by
  refine Pattern.exec_append fun x y hxy hy => ?_
  obtain ⟨z, y, rfl⟩ := List.exists_cons_of_ne_nil hy
  have hz : z ∈ w := by simp [hxy]
  exact boundary_other (by rintro rfl; exact hcr hz) (by rintro rfl; exact hlf hz)

lemma exec_line {b u l : Text} {lines : List Text} (hcr : cr ∉ l) (hlf : lf ∉ l)
    (h : b ++ u = l ++ cr :: lf :: terminated .crlf lines) :
    boundary.exec b = none ∨
      ∃ b', b = l ++ cr :: lf :: b' ∧ b' ++ u = terminated .crlf lines ∧
        boundary.exec b = some (List.length l, 2 + (eol.matchHead b').getD 0) := by
  obtain ⟨w, hl, -⟩ | ⟨w, rfl, hw⟩ := List.append_eq_append_iff.1 h
  · refine .inl ?_
    have hb : boundary.exec (b ++ []) = none := by
      rw [exec_free (fun hmem => hcr (by simp [hl, hmem])) (fun hmem => hlf (by simp [hl, hmem]))]
      rfl
    simpa using hb
  · rw [exec_free hcr hlf]
    obtain _ | ⟨x, _ | ⟨y, b'⟩⟩ := w
    · exact .inl rfl
    · obtain ⟨rfl, -⟩ : cr = x ∧ _ := by simpa using hw
      exact .inl rfl
    · obtain ⟨rfl, rfl, hb'⟩ : cr = x ∧ lf = y ∧ terminated .crlf lines = b' ++ u := by
        simpa using hw
      refine .inr ⟨b', rfl, hb'.symm, ?_⟩
      rw [Pattern.exec_of_matchHead (boundary_crlf b')]
      simp

lemma dispatchMessage_line {l : Text} (hcr : cr ∉ l) (hlf : lf ∉ l) (c : Conn) :
    dispatchMessage c l = dispatchLines c [l] := by
  have hone : eol.split l = [l] := Pattern.split_eq_singleton fun x y hxy hy => by
    simpa using eol_matchHead_append (s := []) hcr hlf hxy hy
  rw [dispatchMessage, hone]

lemma dispatchMessage_lf_line {l : Text} (hcr : cr ∉ l) (hlf : lf ∉ l) (c : Conn) :
    dispatchMessage c (lf :: l) = dispatchLines c [l] := by
  have hmatch : eol.matchHead (lf :: l) = some (0 + 1) := by
    rw [Pattern.matchHead, eol_cons]; rfl
  have htwo : eol.split ([] ++ lf :: l) = [] :: eol.split l := by
    rw [Pattern.split_append (by simp) hmatch, List.drop_zero]
  rw [← dispatchMessage_line hcr hlf]
  exact (congrArg (dispatchLines c) htwo).trans (dispatchLines_nil_cons c _)

lemma terminated_crlf_cons (l : Text) (lines : List Text) :
    terminated .crlf (l :: lines) = l ++ cr :: lf :: terminated .crlf lines := by
  simp [terminated, Terminator.units]

lemma advance_line {b u l : Text} {lines : List Text} (hlines : ∀ k ∈ l :: lines, cr ∉ k ∧ lf ∉ k)
    (htext : b ++ u = terminated .crlf (l :: lines)) {index length : ℕ}
    (hexec : boundary.exec b = some (index, length)) :
    b.take index = l ∧ Holds (b.drop (index + length) ++ u) lines := by
  obtain ⟨hcr, hlf⟩ := hlines l List.mem_cons_self
  rw [terminated_crlf_cons] at htext
  obtain hnone | ⟨b', rfl, hb', hexec'⟩ := exec_line hcr hlf htext
  · simp [hnone] at hexec
  · obtain ⟨rfl, rfl⟩ : List.length l = index ∧ 2 + (eol.matchHead b').getD 0 = length := by
      simpa [hexec'] using hexec
    refine ⟨List.take_left, ?_⟩
    rw [← List.drop_drop, List.drop_left, ← List.drop_drop]
    exact holds_drop_eol (fun k hk => hlines k (List.mem_cons_of_mem _ hk)) hb'

lemma advance_lf {b u l : Text} {lines : List Text} (hlines : ∀ k ∈ l :: lines, cr ∉ k ∧ lf ∉ k)
    (htext : b ++ u = terminated .crlf (l :: lines)) {index length : ℕ}
    (hexec : boundary.exec (lf :: b) = some (index, length)) :
    ((lf :: b).take index = lf :: l ∧ Holds ((lf :: b).drop (index + length) ++ u) lines) ∨
      ((lf :: b).take index = [] ∧ Holds ((lf :: b).drop (index + length) ++ u) (l :: lines)) := by
  have hhead : boundary.matchHead (lf :: b) = (eol.matchHead b).map (1 + ·) :=
    boundary_single (by rw [eol_cons]; rfl)
  cases hb : eol.matchHead b with
  | some k =>
    rw [hb, Option.map_some] at hhead
    obtain ⟨rfl, rfl⟩ : 0 = index ∧ 1 + k = length := by
      simpa [Pattern.exec_of_matchHead hhead] using hexec
    have hdrop := holds_drop_eol hlines htext
    rw [hb, Option.getD_some] at hdrop
    refine .inr ⟨rfl, ?_⟩
    rwa [Nat.zero_add, Nat.add_comm, List.drop_succ_cons]
  | none =>
    rw [hb, Option.map_none] at hhead
    rw [Pattern.exec_cons hhead] at hexec
    obtain ⟨⟨i, n⟩, hexec', hin⟩ := Option.map_eq_some_iff.1 hexec
    obtain ⟨rfl, rfl⟩ : i + 1 = index ∧ n = length := by simpa using hin
    obtain ⟨htake, hrest⟩ := advance_line hlines htext hexec'
    refine .inl ⟨by rw [List.take_succ_cons, htake], ?_⟩
    rwa [Nat.add_right_comm, List.drop_succ_cons]

lemma Holds.advance {b u : Text} {lines : List Text} (h : Holds (b ++ u) lines) {index length : ℕ}
    (hexec : boundary.exec b = some (index, length)) :
    ∃ lines', Holds (b.drop (index + length) ++ u) lines' ∧
      ∀ c, (singletons lines').foldl dispatchLines (dispatchMessage c (b.take index)) =
        (singletons lines).foldl dispatchLines c := by
  obtain ⟨front, ls, hfront, hls, htext, hsame⟩ := h
  cases ls with
  | nil =>
    obtain rfl | rfl : b = [] ∨ b = [lf] := by
      obtain rfl | rfl := hfront
      · simp_all [terminated]
      · cases b <;> simp_all [terminated]
    all_goals simp [Pattern.exec, Pattern.matchHead, boundary, Pattern.seq, eol_cons] at hexec
  | cons l ls =>
    obtain ⟨hcr, hlf⟩ := hls l List.mem_cons_self
    obtain rfl | rfl := hfront
    · obtain ⟨htake, hrest⟩ := advance_line hls htext hexec
      refine ⟨ls, hrest, fun c => ?_⟩
      rw [htake, dispatchMessage_line hcr hlf, ← hsame]
      rfl
    · cases b with
      | nil => simp [Pattern.exec, Pattern.matchHead, boundary, Pattern.seq] at hexec
      | cons x b =>
        obtain ⟨rfl, htail⟩ : x = lf ∧ b ++ u = terminated .crlf (l :: ls) := by
          simpa using htext
        obtain ⟨htake, hrest⟩ | ⟨htake, hrest⟩ := advance_lf hls htail hexec
        · refine ⟨ls, hrest, fun c => ?_⟩
          rw [htake, dispatchMessage_lf_line hcr hlf, ← hsame]
          rfl
        · refine ⟨l :: ls, hrest, fun c => ?_⟩
          rw [htake, ← hsame]
          rfl

lemma Holds.dispatch {b u : Text} {lines : List Text} (c : Conn) (h : Holds (b ++ u) lines) :
    ∃ lines', Holds ((dispatchCompleteMessages c b).2 ++ u) lines' ∧
      (singletons lines').foldl dispatchLines (dispatchCompleteMessages c b).1 =
        (singletons lines).foldl dispatchLines c := by
  induction c, b using dispatchCompleteMessages.induct generalizing lines with
  | case1 c b hexec =>
    rw [dispatchCompleteMessages_none hexec]
    exact ⟨lines, h, rfl⟩
  | case2 c b index length hexec ih =>
    obtain ⟨lines', hrest, hfold⟩ := h.advance hexec
    obtain ⟨lines'', hrest', hfold'⟩ := ih hrest
    rw [dispatchCompleteMessages_some hexec]
    exact ⟨lines'', hrest', hfold'.trans (hfold c)⟩

lemma Holds.consume {chunks : List Text} {b : Text} {lines : List Text} (c : Conn)
    (h : Holds (b ++ chunks.flatten) lines) :
    ∃ lines', Holds (consumeChunks c b chunks).2 lines' ∧
      (singletons lines').foldl dispatchLines (consumeChunks c b chunks).1 =
        (singletons lines).foldl dispatchLines c := by
  induction chunks generalizing b c lines with
  | nil =>
    rw [List.flatten_nil, List.append_nil] at h
    exact ⟨lines, h, rfl⟩
  | cons chunk chunks ih =>
    rw [List.flatten_cons, ← List.append_assoc] at h
    obtain ⟨lines', hrest, hfold⟩ := h.dispatch c
    obtain ⟨lines'', hrest', hfold'⟩ := ih _ hrest
    exact ⟨lines'', hrest', hfold'.trans hfold⟩

lemma Holds.eq_of_exec_none {s : Text} {lines : List Text} (h : Holds s lines)
    (hexec : boundary.exec s = none) (c : Conn) :
    (singletons lines).foldl dispatchLines c = c := by
  obtain ⟨front, ls, -, -, rfl, hsame⟩ := h
  cases ls with
  | nil => exact (hsame c).symm
  | cons l ls =>
    rw [terminated_crlf_cons, ← List.append_assoc] at hexec
    have hsome := Pattern.exec_isSome (p := boundary) (u := front ++ l)
      (s := cr :: lf :: terminated .crlf ls) (by simp [boundary_crlf])
    rw [hexec] at hsome
    exact absurd hsome (by simp)

/-- **A stream whose terminator is CRLF** is decoded line by line, in any chunks. -/
lemma consumeStream_crlf {events : List Event} {chunks : List Text}
    (hchunks : chunks.flatten = encode .crlf events) (c : Conn) :
    consumeStream c chunks = (singletons (linesOf events)).foldl dispatchLines c := by
  have hstart : Holds ([] ++ chunks.flatten) (linesOf events) := by
    rw [List.nil_append, hchunks]
    exact holds_terminated fun l hl => not_mem_of_mem_linesOf hl
  obtain ⟨lines, hrest, hfold⟩ := hstart.consume c
  rw [← List.append_nil (consumeChunks c [] chunks).2] at hrest
  obtain ⟨lines', hrest', hfold'⟩ := hrest.dispatch (consumeChunks c [] chunks).1
  rw [List.append_nil] at hrest'
  obtain ⟨-, hnone⟩ := dispatchCompleteMessages_rest (consumeChunks c [] chunks).1
    (consumeChunks c [] chunks).2
  exact (hrest'.eq_of_exec_none hnone _).symm.trans (hfold'.trans hfold)

/-! ## When reading line by line does not matter -/

/-- An event that gives the same messages when each line is a block of its own: if it has data, then
on one line, and nothing else sets a type or an ID. -/
def Readable (e : Event) : Prop :=
  dataOf e.texts ≠ [] →
    (dataOf e.texts).length = 1 ∧ typeOf e.texts = messageType ∧ idOf e.texts = none

lemma other_values_of_data {line value : Text} (h : valueOf "data" line = some value) :
    valueOf "event" line = none ∧ idValue line = none := by
  obtain ⟨hed, -, hdi, -⟩ := field_names
  unfold idValue valueOf at *
  cases hfield : lineField line with
  | none => simp [hfield] at h
  | some fv =>
    obtain ⟨field, v⟩ := fv
    have hname : field = Text.ofString "data" := by
      by_contra hne
      simp [hfield, hne] at h
    simp [hname, hed.symm, hdi]

lemma messageOf_singleton (lastEventId line : Text) :
    messageOf lastEventId [line] =
      ((valueOf "data" line).map fun value =>
        { type := messageType, data := value, id := none, lastEventId := lastEventId }).toList := by
  unfold messageOf dataOf typeOf idOf
  cases h : valueOf "data" line with
  | none => simp [h]
  | some value =>
    obtain ⟨hevent, hid⟩ := other_values_of_data h
    simp [h, hevent, hid, List.intercalate]

lemma getD_idOf_cons (lastEventId line : Text) (lines : List Text) :
    (idOf (line :: lines)).getD lastEventId =
      (idOf lines).getD ((idOf [line]).getD lastEventId) := by
  unfold idOf
  cases h : idValue line with
  | none => simp [h]
  | some value => simp [h, List.getLast?_cons]

lemma messagesFrom_singletons_append (lastEventId : Text) (a b : List Text) :
    messagesFrom lastEventId (singletons (a ++ b)) =
      messagesFrom lastEventId (singletons a) ++
        messagesFrom ((idOf a).getD lastEventId) (singletons b) := by
  induction a generalizing lastEventId with
  | nil => rfl
  | cons line a ih =>
    have hcons : ∀ ls, singletons (line :: ls) = [line] :: singletons ls := fun _ => rfl
    rw [List.cons_append, hcons, hcons, messagesFrom, messagesFrom, ih,
      getD_idOf_cons lastEventId line a, List.append_assoc]

lemma messagesFrom_singletons_cons (lastEventId line : Text) (lines : List Text) :
    messagesFrom lastEventId (singletons (line :: lines)) =
      messageOf lastEventId [line] ++
        messagesFrom ((idOf [line]).getD lastEventId) (singletons lines) := rfl

lemma length_messagesFrom_singletons (lastEventId : Text) (lines : List Text) :
    (messagesFrom lastEventId (singletons lines)).length = (dataOf lines).length := by
  induction lines generalizing lastEventId with
  | nil => rfl
  | cons line lines ih =>
    rw [messagesFrom_singletons_cons, List.length_append, ih, messageOf_singleton]
    cases h : valueOf "data" line with
    | none => simp [dataOf, h]
    | some value =>
      simp only [dataOf, h, List.filterMap_cons, Option.map_some, Option.toList_some,
        List.length_cons, List.length_nil]
      omega

lemma mem_messagesFrom_singletons {lastEventId : Text} {lines : List Text} {m : Dispatch}
    (h : m ∈ messagesFrom lastEventId (singletons lines)) : m.type = messageType ∧ m.id = none := by
  induction lines generalizing lastEventId with
  | nil => simp [singletons, messagesFrom] at h
  | cons line lines ih =>
    rw [messagesFrom_singletons_cons, List.mem_append] at h
    obtain h | h := h
    · rw [messageOf_singleton, Option.mem_toList, Option.map_eq_some_iff] at h
      obtain ⟨value, -, rfl⟩ := h
      exact ⟨rfl, rfl⟩
    · exact ih h

lemma messagesFrom_singletons_of_idOf {lastEventId : Text} {lines : List Text}
    (h : idOf lines = none) :
    messagesFrom lastEventId (singletons lines) =
      (dataOf lines).map fun value =>
        { type := messageType, data := value, id := none, lastEventId := lastEventId } := by
  induction lines with
  | nil => rfl
  | cons line lines ih =>
    have hids : idValue line = none ∧ idOf lines = none := by
      unfold idOf at *
      cases hv : idValue line with
      | none => simpa [hv] using h
      | some value => simp [hv, List.getLast?_cons] at h
    have hline : (idOf [line]).getD lastEventId = lastEventId := by simp [idOf, hids.1]
    rw [messagesFrom_singletons_cons, hline, ih hids.2, messageOf_singleton]
    cases hv : valueOf "data" line <;> simp [dataOf, hv]

lemma singletons_eq_messageOf_iff (lastEventId : Text) (e : Event) :
    messagesFrom lastEventId (singletons e.texts) = messageOf lastEventId e.texts ↔ Readable e := by
  constructor
  · intro heq hdata
    rw [messageOf, if_neg hdata] at heq
    have hlen := length_messagesFrom_singletons lastEventId e.texts
    rw [heq, List.length_singleton] at hlen
    obtain ⟨htype, hid⟩ := mem_messagesFrom_singletons (heq ▸ List.mem_singleton_self _)
    exact ⟨hlen.symm, htype, hid⟩
  · intro hread
    by_cases hdata : dataOf e.texts = []
    · have hlen := length_messagesFrom_singletons lastEventId e.texts
      rw [hdata, List.length_nil, List.length_eq_zero_iff] at hlen
      rw [hlen, messageOf, if_pos hdata]
    · obtain ⟨hone, htype, hid⟩ := hread hdata
      obtain ⟨value, hvalue⟩ := List.length_eq_one_iff.1 hone
      rw [messagesFrom_singletons_of_idOf hid, messageOf, if_neg hdata, htype, hid, hvalue]
      simp [List.intercalate]

lemma length_messageOf_le (lastEventId : Text) (e : Event) :
    (messageOf lastEventId e.texts).length ≤
      (messagesFrom lastEventId (singletons e.texts)).length := by
  rw [length_messagesFrom_singletons, messageOf]
  split_ifs with hdata
  · simp
  · rw [List.length_singleton]
    exact List.length_pos_iff.2 hdata

lemma messagesFrom_linesOf_cons (lastEventId : Text) (e : Event) (events : List Event) :
    messagesFrom lastEventId (singletons (linesOf (e :: events))) =
      messagesFrom lastEventId (singletons e.texts) ++
        messagesFrom ((idOf e.texts).getD lastEventId) (singletons (linesOf events)) := by
  have hcut : linesOf (e :: events) = e.texts ++ ([] :: linesOf events) := by simp [linesOf]
  rw [hcut, messagesFrom_singletons_append]
  rfl

/-- **Reading line by line** gives the messages of the events exactly when every event is readable.

**Proof sketch.** By induction on the events. Line by line there are at least as many messages, for
the first event and for the others; so if all of them agree, the numbers agree for the first event
and for the others, and then so do the messages. -/
lemma messagesFrom_linesOf_iff (lastEventId : Text) (events : List Event) :
    messagesFrom lastEventId (singletons (linesOf events)) =
        messagesFrom lastEventId (events.map Event.texts) ↔ ∀ e ∈ events, Readable e := by
  have hle : ∀ (events : List Event) (lastEventId : Text),
      (messagesFrom lastEventId (events.map Event.texts)).length ≤
        (messagesFrom lastEventId (singletons (linesOf events))).length := by
    intro events
    induction events with
    | nil => intro _; simp [linesOf, singletons]
    | cons e events ih =>
      intro lastEventId
      rw [messagesFrom_linesOf_cons, List.map_cons, messagesFrom, List.length_append,
        List.length_append]
      exact Nat.add_le_add (length_messageOf_le _ _) (ih _)
  induction events generalizing lastEventId with
  | nil => simp [linesOf, singletons]
  | cons e events ih =>
    rw [messagesFrom_linesOf_cons, List.map_cons, messagesFrom, List.forall_mem_cons]
    have hfirst := singletons_eq_messageOf_iff lastEventId e
    have hothers := ih ((idOf e.texts).getD lastEventId)
    constructor
    · intro heq
      have hlen := congrArg List.length heq
      rw [List.length_append, List.length_append] at hlen
      have hle₁ := length_messageOf_le lastEventId e
      have hle₂ := hle events ((idOf e.texts).getD lastEventId)
      obtain ⟨heq₁, heq₂⟩ := List.append_inj heq (by omega)
      exact ⟨hfirst.1 heq₁, hothers.1 heq₂⟩
    · rintro ⟨hread₁, hread₂⟩
      rw [hfirst.2 hread₁, hothers.2 hread₂]

/-- **The decoder dispatches what the rules prescribe**, in any chunks, exactly when the terminator
is LF or CR or every event is readable line by line. -/
theorem dispatched_iff (t : Terminator) (events : List Event) (chunks : List Text)
    (hchunks : chunks.flatten = encode t events) (c : Conn) :
    (consumeStream c chunks).dispatched =
        c.dispatched ++ Whatwg.prescribed (c.lastEventId.getD []) (encode t events) ↔
      (t = .crlf → ∀ e ∈ events, Readable e) := by
  rw [prescribed_encode]
  by_cases ht : t = .crlf
  · subst ht
    rw [consumeStream_crlf hchunks, foldl_dispatchLines, List.append_cancel_left_eq,
      messagesFrom_linesOf_iff]
    simp
  · rw [consumeStream_single ht hchunks, foldl_dispatchLines]
    simp [ht]

/-- A flag update as the server sends it: `id`, `event` and `data` lines. -/
def updateEvent : Event :=
  [{ text := Text.ofString "id: 7", nonempty := by decide, no_cr := by decide, no_lf := by decide },
   { text := Text.ofString "event: flag_updated"
     nonempty := by decide, no_cr := by decide, no_lf := by decide },
   { text := Text.ofString "data: \x7b\x7d"
     nonempty := by decide, no_cr := by decide, no_lf := by decide }]

/-- With LF, also cut inside a line and between the two terminators, the update is dispatched as
prescribed. -/
theorem dispatched_iff_update_lf :
    [Text.ofString "id: 7\nevent: flag", Text.ofString "_updated\ndata: \x7b\x7d\n",
        Text.ofString "\n"].flatten = encode .lf [updateEvent] ∧
      (consumeStream .new [Text.ofString "id: 7\nevent: flag",
        Text.ofString "_updated\ndata: \x7b\x7d\n", Text.ofString "\n"]).dispatched =
        [] ++ Whatwg.prescribed [] (encode .lf [updateEvent]) :=
  have hchunks : [Text.ofString "id: 7\nevent: flag", Text.ofString "_updated\ndata: \x7b\x7d\n",
      Text.ofString "\n"].flatten = encode .lf [updateEvent] := by decide
  ⟨hchunks, (dispatched_iff .lf [updateEvent] _ hchunks .new).2 (by simp)⟩

/-- With CRLF the same update, in one chunk, is dispatched without its type and its ID. -/
theorem crlf_update_loses_type_and_id :
    (consumeStream .new [encode .crlf [updateEvent]]).dispatched =
        [{ type := messageType, data := Text.ofString "\x7b\x7d", id := none
           lastEventId := Text.ofString "7" }] ∧
      Whatwg.prescribed [] (encode .crlf [updateEvent]) =
        [{ type := Text.ofString "flag_updated", data := Text.ofString "\x7b\x7d"
           id := some (Text.ofString "7"), lastEventId := Text.ofString "7" }] ∧
      (consumeStream .new [encode .crlf [updateEvent]]).dispatched ≠
        Whatwg.prescribed [] (encode .crlf [updateEvent]) := by
  decide +kernel

end Apdl.Sdk.Connection
