import Apdl.Sdk.Connection.Model

set_option autoImplicit false

/-!
# Event streams

An event stream as text, and the rules of the event-stream format for reading it: the text is cut
into lines at CRLF, CR and LF, each line is a comment, a field or the end of an event, and at the
end of an event with data a message is dispatched. A line that is not terminated is discarded.

## Design

Lines are arbitrary texts without CR and LF, so that an event may have fields in any order and
number, comments, unknown fields and values with or without the optional space. The rules give a
message the last event ID of the source (`Dispatch.lastEventId`); `Dispatch.id` is the ID that the
message's own `id` fields set, as far as they set one.
-/

namespace Apdl.Sdk.Connection

/-- A line of an event: some text without a terminator. -/
structure Line where
  text : Text
  nonempty : text ≠ []
  no_cr : cr ∉ text
  no_lf : lf ∉ text

/-- The lines of an event, before the blank line that ends it. -/
abbrev Event := List Line

def Event.texts (e : Event) : List Text := e.map Line.text

inductive Terminator
  | lf
  | cr
  | crlf
  deriving DecidableEq, Repr

def Terminator.units : Terminator → Text
  | .lf => [Connection.lf]
  | .cr => [Connection.cr]
  | .crlf => [Connection.cr, Connection.lf]

def terminated (t : Terminator) (lines : List Text) : Text := lines.flatMap (· ++ t.units)

/-- The lines of a sequence of events: those of each event and a blank one. -/
def linesOf (events : List Event) : List Text := events.flatMap fun e => e.texts ++ [[]]

/-- The text of a sequence of events. -/
def encode (t : Terminator) (events : List Event) : Text := terminated t (linesOf events)

namespace Whatwg

/-- The terminated lines of a text; `acc` is the current line so far. -/
def linesFrom (acc : Text) : Text → List Text
  | [] => []
  | a :: s =>
    if a = lf then acc :: linesFrom [] s
    else if a = cr then
      match s with
      | [] => [acc]
      | b :: s' => if b = lf then acc :: linesFrom [] s' else acc :: linesFrom [] (b :: s')
    else linesFrom (acc ++ [a]) s

/-- The terminated lines of a text. -/
def lines (s : Text) : List Text := linesFrom [] s

/-- The buffers of the format's algorithm, and the messages dispatched. -/
structure Source where
  dataBuffer : Text
  typeBuffer : Text
  idBuffer : Text
  /-- The ID set by the fields of the current event. -/
  ownId : Option Text
  messages : List Dispatch

/-- A source whose last event ID is `lastEventId`. -/
def Source.start (lastEventId : Text) : Source :=
  { dataBuffer := [], typeBuffer := [], idBuffer := lastEventId, ownId := none, messages := [] }

/-- Dispatch the event: without data only the buffers are reset; the last line feed of the data is
removed. -/
def Source.dispatch (src : Source) : Source :=
  { dataBuffer := []
    typeBuffer := []
    idBuffer := src.idBuffer
    ownId := none
    messages :=
      if src.dataBuffer = [] then src.messages
      else
        src.messages ++
          [{ type := if src.typeBuffer = [] then messageType else src.typeBuffer
             data := src.dataBuffer.dropLast
             id := src.ownId
             lastEventId := src.idBuffer }] }

/-- Process a field. The reconnection time is not part of a message. -/
def Source.field (src : Source) (name value : Text) : Source :=
  if name = Text.ofString "event" then { src with typeBuffer := value }
  else if name = Text.ofString "data" then
    { src with dataBuffer := src.dataBuffer ++ value ++ [lf] }
  else if name = Text.ofString "id" then
    if nul ∈ value then src else { src with idBuffer := value, ownId := some value }
  else src

/-- Process a line: a blank one dispatches, one that starts with a colon is a comment, and any
other is a field, with an empty value when it has no colon. -/
def Source.line (src : Source) (line : Text) : Source :=
  if line = [] then src.dispatch
  else if line.head? = some colon then src
  else if colon ∈ line then
    let value := (line.dropWhile (· ≠ colon)).tail
    src.field (line.takeWhile (· ≠ colon))
      (if value.head? = some space then value.tail else value)
  else src.field line []

/-- The messages that the rules dispatch for a text, for a source with a last event ID. -/
def prescribed (lastEventId : Text) (s : Text) : List Dispatch :=
  ((lines s).foldl Source.line (.start lastEventId)).messages

end Whatwg

end Apdl.Sdk.Connection
