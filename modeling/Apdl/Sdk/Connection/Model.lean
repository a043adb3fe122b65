import Apdl.Lib.Pattern
import Apdl.Lib.Utf16
import Apdl.Lib.Double
import Mathlib.Algebra.Order.Ring.Unbundled.Rat

set_option autoImplicit false

/-!
# The JavaScript SDK's event-stream connection

The part of `SSEConnection` that turns the text of a response body into messages: `consumeStream`
appends each decoded chunk to a buffer, `dispatchCompleteMessages` cuts blocks off its front at two
consecutive line terminators, and `dispatchMessage` reads the lines of a block and calls the
message callback. Strings are sequences of UTF-16 code units, as in the runtime.

## Main definitions

* `dispatchMessage`, `dispatchCompleteMessages`, `consumeStream` — the decoder.

## Design

The connection's request, timers and reconnects are left out: they do not read the text. A chunk is
what the decoder makes of one network read. An entry of `Conn.dispatched` holds the argument of a
callback and the connection's `lastEventId` at that time, the empty text when it has none.
-/

namespace Apdl.Sdk.Connection

/-! ## Characters -/

/-- Line feed. -/
def lf : CodeUnit := 10

/-- Carriage return. -/
def cr : CodeUnit := 13

/-- The null character. -/
def nul : CodeUnit := 0

/-- The colon between a field's name and its value. -/
def colon : CodeUnit := 58

def space : CodeUnit := 32

/-- `/\r\n|\r|\n/`. -/
def eol : Pattern CodeUnit := .alt (.lit [cr, lf]) (.alt (.lit [cr]) (.lit [lf]))

/-- `/(?:\r\n|\r|\n){2}/`. -/
def boundary : Pattern CodeUnit := .seq eol eol

/-! ## The connection -/

/-- `INITIAL_RECONNECT_DELAY`, in milliseconds. -/
def initialReconnectDelay : ℚ := 1000

/-- `MAX_RECONNECT_DELAY`, in milliseconds. -/
def maxReconnectDelay : ℚ := 30000

/-- A call of the message callback: its argument, and the last event ID the connection then has. -/
structure Dispatch where
  type : Text
  data : Text
  /-- The argument's `id`, absent when the block has no `id` field. -/
  id : Option Text
  /-- `lastEventId`, the empty text when it is undefined. -/
  lastEventId : Text
  deriving DecidableEq, Repr

/-- The connection as far as the decoder reads and writes it. -/
structure Conn where
  lastEventId : Option Text
  reconnectDelay : ℚ
  dispatched : List Dispatch
  deriving DecidableEq

def Conn.new : Conn :=
  { lastEventId := none, reconnectDelay := initialReconnectDelay, dispatched := [] }

/-- The local variables of `dispatchMessage`, with the delay its lines write. -/
structure Fields where
  type : Text
  data : List Text
  eventId : Option Text
  reconnectDelay : ℚ

/-- The type of an event that names none. -/
def messageType : Text := Text.ofString "message"

/-- A line as a field name and a value: everything before the first colon, and what follows it less
one leading space. -/
def fieldOf (line : Text) : Text × Text :=
  let name := line.takeWhile (· ≠ colon)
  let value := (line.dropWhile (· ≠ colon)).tail
  (name, if value.head? = some space then value.tail else value)

/-- `/^\d+$/`. -/
def isDigits (value : Text) : Bool :=
  !value.isEmpty && value.all fun u => decide (48 ≤ u.toNat) && decide (u.toNat ≤ 57)

/-- The number a text of decimal digits denotes. -/
def decimal (value : Text) : ℕ := value.foldl (fun n u => 10 * n + (u.toNat - 48)) 0

/-- The delay after a valid `retry` value; one that is not finite leaves it as it is. -/
def retryDelay (value : Text) (delay : ℚ) : ℚ :=
  match Double.round (decimal value) with
  | some n => min (max n initialReconnectDelay) maxReconnectDelay
  | none => delay

/-- What one line does to the variables of `dispatchMessage`. -/
def readLine (f : Fields) (line : Text) : Fields :=
  if line = [] ∨ line.head? = some colon then f
  else
    let (field, value) := fieldOf line
    if field = Text.ofString "event" then
      { f with type := if value = [] then messageType else value }
    else if field = Text.ofString "data" then { f with data := f.data ++ [value] }
    else if field = Text.ofString "id" ∧ nul ∉ value then { f with eventId := some value }
    else if field = Text.ofString "retry" ∧ isDigits value then
      { f with reconnectDelay := retryDelay value f.reconnectDelay }
    else f

/-- `dispatchMessage` on the lines of its block. -/
def dispatchLines (c : Conn) (lines : List Text) : Conn :=
  let f := lines.foldl readLine
    { type := messageType, data := [], eventId := none, reconnectDelay := c.reconnectDelay }
  let lastEventId := f.eventId.or c.lastEventId
  { lastEventId := lastEventId
    reconnectDelay := f.reconnectDelay
    dispatched :=
      if f.data = [] then c.dispatched
      else
        c.dispatched ++
          [{ type := f.type
             data := [lf].intercalate f.data
             id := f.eventId
             lastEventId := lastEventId.getD [] }] }

/-- `dispatchMessage`: read the lines of a block, and call back if one of them is data. -/
def dispatchMessage (c : Conn) (block : Text) : Conn := dispatchLines c (eol.split block)

/-! ## The regular expressions -/

@[simp] lemma eol_nil : eol [] = [] := rfl

lemma eol_cons (a : CodeUnit) (s : Text) :
    eol (a :: s) =
      if a = cr then (if s.head? = some lf then [2, 1] else [1])
      else if a = lf then [1] else [] := by
  by_cases hcr : a = cr
  · subst hcr
    cases s with
    | nil => rfl
    | cons b s =>
      by_cases hlf : b = lf
      · subst hlf; simp [eol, Pattern.alt, Pattern.lit, cr, lf]
      · simp [eol, Pattern.alt, Pattern.lit, hlf, Ne.symm hlf]
        decide
  · by_cases hlf : a = lf
    · subst hlf
      simp [eol, Pattern.alt, Pattern.lit, cr, lf]
    · simp [eol, Pattern.alt, Pattern.lit, hcr, hlf, Ne.symm hcr, Ne.symm hlf]

lemma boundary_crlf (s : Text) :
    boundary.matchHead (cr :: lf :: s) = some (2 + (eol.matchHead s).getD 0) := by
  have hlf : eol (lf :: s) = [1] := by rw [eol_cons]; rfl
  have hcr : eol (cr :: lf :: s) = [2, 1] := by rw [eol_cons]; rfl
  simp only [boundary, Pattern.seq, Pattern.matchHead, hcr, hlf, List.flatMap_cons,
    List.flatMap_nil, List.drop_succ_cons, List.drop_zero, List.map_cons, List.map_nil]
  cases eol s <;> rfl

variable {s : Text}

lemma boundary_single {a : CodeUnit} (ha : eol (a :: s) = [1]) :
    boundary.matchHead (a :: s) = (eol.matchHead s).map (1 + ·) := by
  simp only [boundary, Pattern.seq, Pattern.matchHead, ha, List.flatMap_cons, List.flatMap_nil,
    List.drop_succ_cons, List.drop_zero, List.append_nil, List.head?_map]

lemma boundary_other {a : CodeUnit} (hcr : a ≠ cr) (hlf : a ≠ lf) :
    boundary.matchHead (a :: s) = none := by
  have ha : eol (a :: s) = [] := by rw [eol_cons, if_neg hcr, if_neg hlf]
  simp [boundary, Pattern.seq, Pattern.matchHead, ha]

variable {n : ℕ}

lemma eol_mem (h : n ∈ eol s) : 1 ≤ n ∧ n ≤ List.length s := by
  cases s with
  | nil => simp at h
  | cons a s =>
    rw [eol_cons] at h
    split_ifs at h with hcr hlf hlf
    · cases s with
      | nil => simp at hlf
      | cons b s =>
        simp only [List.mem_cons, List.not_mem_nil, or_false] at h
        simp only [List.length_cons]
        omega
    · simp_all
    · simp_all
    · simp at h

lemma boundary_le (h : boundary.matchHead s = some n) :
    2 ≤ n ∧ n ≤ List.length s := by
  simp only [boundary, Pattern.seq, Pattern.matchHead] at h
  have hmem := List.mem_of_head? h
  simp only [List.mem_flatMap, List.mem_map] at hmem
  obtain ⟨k, hk, m, hm, rfl⟩ := hmem
  obtain ⟨hkpos, hklen⟩ := eol_mem hk
  obtain ⟨hmpos, hmlen⟩ := eol_mem hm
  rw [List.length_drop] at hmlen
  omega

lemma boundary_exec_le {i : ℕ} (h : boundary.exec s = some (i, n)) :
    2 ≤ n ∧ i + n ≤ List.length s := by
  obtain ⟨htwo, hlen⟩ := boundary_le (Pattern.matchHead_of_exec h)
  rw [List.length_drop] at hlen
  omega

/-! ## The decoder -/

/-- `dispatchCompleteMessages`: dispatch the block before each boundary; the connection afterwards,
and what is left of the buffer. -/
def dispatchCompleteMessages (c : Conn) (buffer : Text) : Conn × Text :=
  match h : boundary.exec buffer with
  | none => (c, buffer)
  | some (index, length) =>
    dispatchCompleteMessages (dispatchMessage c (buffer.take index)) (buffer.drop (index + length))
termination_by List.length buffer
decreasing_by
  obtain ⟨htwo, hlen⟩ := boundary_exec_le h
  rw [List.length_drop]
  omega

lemma dispatchCompleteMessages_none {c : Conn} {buffer : Text} (h : boundary.exec buffer = none) :
    dispatchCompleteMessages c buffer = (c, buffer) := by
  rw [dispatchCompleteMessages]
  split <;> simp_all

lemma dispatchCompleteMessages_some {c : Conn} {buffer : Text} {index length : ℕ}
    (h : boundary.exec buffer = some (index, length)) :
    dispatchCompleteMessages c buffer =
      dispatchCompleteMessages (dispatchMessage c (buffer.take index))
        (buffer.drop (index + length)) := by
  rw [dispatchCompleteMessages]
  split <;> simp_all

lemma dispatchCompleteMessages_rest (c : Conn) (buffer : Text) :
    (dispatchCompleteMessages c buffer).2 <:+ buffer ∧
      boundary.exec (dispatchCompleteMessages c buffer).2 = none := by
  induction c, buffer using dispatchCompleteMessages.induct with
  | case1 c buffer h =>
    rw [dispatchCompleteMessages_none h]
    exact ⟨List.suffix_refl _, h⟩
  | case2 c buffer index length h ih =>
    rw [dispatchCompleteMessages_some h]
    exact ⟨List.IsSuffix.trans ih.1 (List.drop_suffix _ _), ih.2⟩

/-- `consumeStream`'s loop over the chunks, from a buffer. -/
def consumeChunks (c : Conn) (buffer : Text) : List Text → Conn × Text
  | [] => (c, buffer)
  | chunk :: chunks =>
    let (c, rest) := dispatchCompleteMessages c (buffer ++ chunk)
    consumeChunks c rest chunks

/-- `consumeStream`: the chunks of a response body, then what is left at its end. -/
def consumeStream (c : Conn) (chunks : List Text) : Conn :=
  let (c, buffer) := consumeChunks c [] chunks
  (dispatchCompleteMessages c buffer).1

end Apdl.Sdk.Connection
