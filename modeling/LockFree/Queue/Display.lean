/-
# A queue in words

A queue is written as its values in braces, parted by commas. The values are
visited one after another and the visit cannot be broken off, so after
something failed each later value is passed over; the closing brace is written
only if nothing did.
-/
import LockFree.Text.Format

namespace LockFree.Queue

open Text (Rendering Sink)

/-- The sink while values are written: whether all went well so far, and
whether the next value is the first one. -/
structure Display where
  sink : Sink
  ok : Bool
  first : Bool
  deriving DecidableEq, Repr

namespace Display

/-- The opening brace. -/
def start (sink : Sink) : Display :=
  let (sink, ok) := sink.write "\x7b"
  ⟨sink, ok, true⟩

/-- One value is visited. -/
def visit (d : Display) (r : Rendering) : Display :=
  if !d.ok then d
  else if d.first then
    let (sink, ok) := d.sink.render r
    ⟨sink, ok, false⟩
  else
    match d.sink.write ", " with
    | (sink, true) =>
      let (sink, ok) := sink.render r
      ⟨sink, ok, false⟩
    | (sink, false) => ⟨sink, false, false⟩

/-- The closing brace, if all went well: the sink at the end, and whether
everything was written. -/
def finish (d : Display) : Sink × Bool :=
  if d.ok then d.sink.write "\x7d" else (d.sink, false)

/-- The values are written into a sink. -/
def write (sink : Sink) (rs : List Rendering) : Sink × Bool :=
  (rs.foldl visit (start sink)).finish

end Display
end LockFree.Queue
