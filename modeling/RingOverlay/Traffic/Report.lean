import RingOverlay.Traffic.Summary
import RingOverlay.Text.Column

/-!
# Traffic — collecting summaries into a report

The collector keeps the last summary of each node.  Taking a report folds them into rows ascending
by identifier and their column totals, and starts over.  The report's table has a heading, a line
per row and a line of totals, each of six columns of `columnWidth` characters.
-/

namespace RingOverlay

/-- The column totals of a report. -/
structure Totals where
  sent : UInt64
  received : UInt64
  relayed : UInt64
  sentSum : Int64
  receivedSum : Int64
  deriving DecidableEq, Repr

/-- The outcome of a run: a row per node, ascending by identifier, and the totals. -/
structure Report where
  rows : List Summary
  totals : Totals
  deriving DecidableEq, Repr

/-- The summaries collected so far, ascending by identifier. -/
structure Collector where
  summaries : List Summary
  deriving DecidableEq, Repr

/-! ### Collecting -/

namespace Collector

/-- The collector that nobody has reported to. -/
def empty : Collector := ⟨[]⟩

/-- `summaries` with `s` in its place; a summary of the same node gives way. -/
def insert (s : Summary) : List Summary → List Summary
  | [] => [s]
  | t :: ts =>
    if s.id < t.id then s :: t :: ts
    else if s.id = t.id then s :: ts
    else t :: insert s ts

/-- Records a summary. -/
def add (c : Collector) (s : Summary) : Collector := ⟨insert s c.summaries⟩

/-- How many nodes have reported. -/
def size (c : Collector) : Nat := c.summaries.length

end Collector

namespace Totals

/-- The totals of no rows. -/
def zero : Totals := ⟨0, 0, 0, 0, 0⟩

/-- The totals with one more row.  A sum that does not fit 64 bits wraps around; a build that checks
for overflow stops there instead, also if it is a partial sum and the whole one would fit. -/
def add (t : Totals) (s : Summary) : Totals where
  sent := t.sent + s.sent.toUInt64
  received := t.received + s.received.toUInt64
  relayed := t.relayed + s.relayed.toUInt64
  sentSum := t.sentSum + s.sentSum
  receivedSum := t.receivedSum + s.receivedSum

/-- The totals of rows. -/
def ofRows (rows : List Summary) : Totals := rows.foldl add zero

end Totals

/-- The report of what was collected, and the collector started over. -/
def Collector.take (c : Collector) : Report × Collector :=
  (⟨c.summaries, Totals.ofRows c.summaries⟩, empty)

/-! ### The table -/

namespace Report

/-- The width of a column. -/
def columnWidth : Nat := 20

/-- A line of the table: its cells padded to the column width, with blanks between them. -/
def line (cells : List String) : String :=
  " ".intercalate (cells.map (Text.padRight columnWidth))

/-- The heading. -/
def headings : List String :=
  ["Node", "Packets Sent", "Packets Received", "Packets Relayed", "Sum Values Sent",
    "Sum Values Received"]

/-- The cells of a node's row. -/
def rowCells (s : Summary) : List String :=
  ["Node " ++ s.id.text, toString s.sent.toNat, toString s.received.toNat,
    toString s.relayed.toNat, toString s.sentSum.toInt, toString s.receivedSum.toInt]

/-- The cells of the totals. -/
def totalCells (t : Totals) : List String :=
  ["Sum", toString t.sent.toNat, toString t.received.toNat, toString t.relayed.toNat,
    toString t.sentSum.toInt, toString t.receivedSum.toInt]

/-- The cells of the whole table, line by line. -/
def cells (r : Report) : List (List String) :=
  headings :: r.rows.map rowCells ++ [totalCells r.totals]

/-- The table. -/
def text (r : Report) : String := Text.stack (r.cells.map line)

end Report

end RingOverlay
