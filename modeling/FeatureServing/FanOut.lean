import FeatureServing.Store.Fetch

/-!
# All lookups of one call

A `FanOut` is one query for each position that has both a lookup and binds, all under way side by
side. It ends when the last of them has ended: with the rows of every position, or with the error
of the lowest position that failed. With a time limit, all queries are dropped when it passes.
-/

namespace FeatureServing

/-- A time limit of a number of milliseconds and the instant it passes at. -/
structure Deadline where
  millis : Nat
  passes : Nat

structure FanOut where
  /-- The queries, by ascending position. -/
  fetches : List Fetch
  deadline : Option Deadline

namespace FanOut

/-- The queries of the positions that two maps share. -/
def submitted (lookups : SortedMap Position Lookup) (binds : SortedMap Position Binds) :
    List Fetch :=
  lookups.entries.filterMap fun e =>
    (binds.get? e.1).map fun b => { lookup := e.2, binds := b, place := e.1 }

/-- Starts the clock of a fan-out. -/
def of (now : Nat) (limit : Option Nat) (fetches : List Fetch) : FanOut :=
  ⟨fetches, limit.map fun ms => ⟨ms, now + ms⟩⟩

/-- Lets every query go as far as it can, one after the other. -/
def runAll (now : Nat) (s : Store) : List Fetch → Store × List Fetch
  | [] => (s, [])
  | f :: rest =>
    let (s, f) := f.run now s
    let (s, rest) := runAll now s rest
    (s, f :: rest)

/-- Gives up on every query. -/
def dropAll (s : Store) : List Fetch → Store × List Fetch
  | [] => (s, [])
  | f :: rest =>
    let (s, f) := f.drop s
    let (s, rest) := dropAll s rest
    (s, f :: rest)

/-- The result of a query that is over, its rows with their position. -/
def positioned? (f : Fetch) : Option (Except ServingError (Position × RowSet)) :=
  f.result?.map fun r => r.map fun rows => (f.place, rows)

/-- The rows of every position, or the error of the lowest one that failed; none while a query is
under way. -/
def outcome? (fetches : List Fetch) : Option (Except ServingError (SortedMap Position RowSet)) :=
  (fetches.mapM positioned?).map fun results => (results.mapM id).map SortedMap.ofList

/-- Lets all queries go as far as they can; ends with the outcome, or because the time limit has
passed. -/
def run (now : Nat) (s : Store) (f : FanOut) :
    Store × FanOut × Option (Except ServingError (SortedMap Position RowSet)) :=
  let (s, fetches) := runAll now s f.fetches
  match outcome? fetches with
  | some result => (s, { f with fetches }, some result)
  | none =>
    match f.deadline with
    | none => (s, { f with fetches }, none)
    | some d =>
      if d.passes ≤ now then
        let (s, fetches) := dropAll s fetches
        (s, { f with fetches }, some (.error (.backend (.timedOut fetches.length d.millis))))
      else (s, { f with fetches }, none)

/-- The earliest of two times. -/
def sooner : Option Nat → Option Nat → Option Nat
  | none, t => t
  | t, none => t
  | some t, some u => some (min t u)

/-- The next time that something can happen at. -/
def wake? (f : FanOut) : Option Nat :=
  (f.fetches.map Fetch.wake?).foldl sooner (f.deadline.map (·.passes))

end FanOut

end FeatureServing
