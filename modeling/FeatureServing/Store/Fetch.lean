import FeatureServing.Store

/-!
# One query under way

A `Fetch` is a query of the in-memory store between its first step and its end. Every step is one
action on the store; other queries may take theirs in between. A query that is refused (the store
is closed, or the lookup cannot take its binds) is never counted; any other is counted when it is
accepted and given back when it finishes or is dropped.

* `Fetch.step` : the next action, none while the query waits and when it is over;
* `Fetch.run` : all actions that can be taken now;
* `Fetch.drop` : the caller gives up.
-/

namespace FeatureServing

namespace Fetch

/-- How far a query has come. -/
inductive Phase
  | fresh
  /-- Accepted; the latency is read next. -/
  | accepted (query : ExecutedQuery)
  /-- Waits for the end of the latency. -/
  | sleeping (query : ExecutedQuery) (wake : Nat)
  /-- Executed next. -/
  | recording (query : ExecutedQuery)
  /-- Fails next, if its position does. -/
  | failing
  /-- Loses its rows next, if its position does. -/
  | losing
  /-- Reads its rows next. -/
  | reading
  | finished (result : Except ServingError RowSet)
  | dropped

namespace Phase

/-- Whether a query is accepted and not over. -/
def isActive : Phase → Bool
  | accepted _ | sleeping _ _ | recording _ | failing | losing | reading => true
  | fresh | finished _ | dropped => false

/-- Whether a query is accepted, not over and not executed yet. -/
def isPending : Phase → Bool
  | accepted _ | sleeping _ _ | recording _ => true
  | _ => false

end Phase

end Fetch

/-- A query of the store and how far it has come. -/
structure Fetch where
  lookup : Lookup
  binds : Binds
  phase : Fetch.Phase := .fresh
  /-- The position that the rows are filed under. -/
  place : Position := lookup.position

namespace Fetch

def result? (f : Fetch) : Option (Except ServingError RowSet) :=
  match f.phase with
  | .finished r => some r
  | _ => none

/-- Ends an accepted query with a result. -/
def finish (s : Store) (f : Fetch) (result : Except ServingError RowSet) : Store × Fetch :=
  (s.release, { f with phase := .finished result })

/-- Accepts a query or refuses it. -/
def start (s : Store) (f : Fetch) : Store × Fetch :=
  if s.closed then (s, { f with phase := .finished (.error (.backend .closed)) })
  else
    match f.lookup.render .questionMark f.binds with
    | .error e => (s, { f with phase := .finished (.error e) })
    | .ok q => (s.accept, { f with phase := .accepted ⟨f.lookup.position, f.lookup.form, q.text, f.binds⟩ })

/-- The next action at a time. -/
def step (now : Nat) (s : Store) (f : Fetch) : Option (Store × Fetch) :=
  match f.phase with
  | .fresh => some (f.start s)
  | .accepted q =>
    match s.latency with
    | some ms => some (s, { f with phase := .sleeping q (now + ms) })
    | none => some (s, { f with phase := .recording q })
  | .sleeping q wake => if wake ≤ now then some (s, { f with phase := .recording q }) else none
  | .recording q => some (s.record q, { f with phase := .failing })
  | .failing =>
    if s.failing.contains f.lookup.position then
      some (finish s f (.error (.backend (.failed f.lookup.position))))
    else some (s, { f with phase := .losing })
  | .losing =>
    if s.nullRows.contains f.lookup.position then
      some (finish s f (.ok (Store.unreadable f.binds)))
    else some (s, { f with phase := .reading })
  | .reading => some (finish s f (.ok (s.select f.lookup f.binds)))
  | .finished _ | .dropped => none

/-- Takes up to `fuel` actions. -/
def runFor (now : Nat) : Nat → Store → Fetch → Store × Fetch
  | 0, s, f => (s, f)
  | fuel + 1, s, f =>
    match f.step now s with
    | none => (s, f)
    | some (s, f) => runFor now fuel s f

/-- Takes all actions that can be taken now; there are seven at most. -/
def run (now : Nat) (s : Store) (f : Fetch) : Store × Fetch :=
  runFor now 7 s f

/-- Gives up on a query. -/
def drop (s : Store) (f : Fetch) : Store × Fetch :=
  match f.phase with
  | .finished _ | .dropped => (s, f)
  | p => (if p.isActive then s.release else s, { f with phase := .dropped })

/-- The time that a query waits for. -/
def wake? (f : Fetch) : Option Nat :=
  match f.phase with
  | .sleeping _ wake => some wake
  | _ => none

end Fetch

end FeatureServing
