import FeatureServing.Lookup.Render
import FeatureServing.Resolution

/-!
# The in-memory store

A `Store` keeps a table per position and counts what is asked of it: queries that were accepted,
those under way at the moment and at most, queries that were executed, and connections handed out.
It can be told to answer late, to fail at a position, to lose the rows of a position, or to act as
if its connection were broken.

`Store.select` is the view of the tables that a lookup has: the rows whose key texts are wanted.
-/

namespace FeatureServing

/-- The rows of one position. -/
structure Table where
  /-- The columns of the primary key, in the order of the parameters. -/
  keyColumns : List String
  rows : List Row

/-- A query as the store saw it. -/
structure ExecutedQuery where
  position : Position
  form : LookupForm
  text : String
  binds : Binds

structure Store where
  tables : SortedMap Position Table := ∅
  /-- The positions whose queries fail. -/
  failing : SortedSet Position := ∅
  /-- The positions whose rows cannot be read. -/
  nullRows : SortedSet Position := ∅
  /-- The delay of every query, in milliseconds. -/
  latency : Option Nat := none
  closed : Bool := false
  /-- The executed queries, in the order they were completed in. -/
  executed : List ExecutedQuery := []
  /-- The queries that were accepted. -/
  queries : Nat := 0
  /-- The accepted queries that are neither finished nor dropped. -/
  inFlight : Nat := 0
  /-- The most queries that ever were under way at once. -/
  maxInFlight : Nat := 0
  /-- The connections that were handed out. -/
  connects : Nat := 0

namespace Table

/-- The key texts of a row; a missing column counts as null. -/
def rowKey (t : Table) (row : Row) : KeyTexts :=
  t.keyColumns.map fun c => ((row.get? c).getD .null).keyText

end Table

/-- The key texts that binds ask for. -/
def Lookup.wanted (l : Lookup) : Binds → List KeyTexts
  | .named values => [l.parameters.map fun p => ((values.get? p).getD .null).keyText]
  | .expanding tuples => tuples.map fun t => t.map Value.keyText

namespace Store

/-- The name of the backend. -/
def name : String := "memory"

def insertTable (s : Store) (p : Position) (t : Table) : Store :=
  { s with tables := s.tables.insert p t }

def setLatency (s : Store) (millis : Nat) : Store :=
  { s with latency := some millis }

def failOn (s : Store) (p : Position) : Store :=
  { s with failing := s.failing.add p }

def nullRowFor (s : Store) (p : Position) : Store :=
  { s with nullRows := s.nullRows.add p }

/-- Breaks the connection. -/
def close (s : Store) : Store :=
  { s with closed := true }

/-- Hands out a connection, which works again. -/
def connect (s : Store) : Store :=
  { s with connects := s.connects + 1, closed := false }

/-- Whether the connection works. -/
def ping (s : Store) : Except ServingError Unit :=
  if s.closed then .error (.backend .closed) else .ok ()

/-- Counts a query that is accepted. -/
def accept (s : Store) : Store :=
  { s with
    queries := s.queries + 1
    inFlight := s.inFlight + 1
    maxInFlight := max s.maxInFlight (s.inFlight + 1) }

/-- Counts a query that is finished or dropped. -/
def release (s : Store) : Store :=
  { s with inFlight := s.inFlight - 1 }

def record (s : Store) (q : ExecutedQuery) : Store :=
  { s with executed := s.executed ++ [q] }

/-- The rows that a lookup asks for, in the order of the table. -/
def select (s : Store) (l : Lookup) (binds : Binds) : RowSet :=
  match s.tables.get? l.position with
  | none => []
  | some t =>
    let wanted := l.wanted binds
    (t.rows.filter fun row => wanted.contains (t.rowKey row)).map some

/-- The rows of a lookup whose rows cannot be read: one for an entry, one per tuple of a batch. -/
def unreadable : Binds → RowSet
  | .named _ => [none]
  | .expanding tuples => tuples.map fun _ => none

end Store

end FeatureServing
