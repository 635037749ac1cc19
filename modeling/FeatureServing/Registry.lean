import FeatureServing.Lookup

/-!
# The compiled join plan

A `Registry` holds the single and the batch lookup of every position. `Registry.compile` leaves out
the statements of skipped groups before it looks at anything else, and refuses a second statement
for a position.
-/

namespace FeatureServing

structure Registry where
  single : SortedMap Position Lookup
  batch : SortedMap Position Lookup

namespace Registry

/-- Compiles statements in their order into lookups by position. -/
def compileAll (compile : PreparedStatement → Except ServingError Lookup)
    (done : SortedMap Position Lookup) :
    List PreparedStatement → Except ServingError (SortedMap Position Lookup)
  | [] => .ok done
  | s :: rest =>
    if done.contains s.position then .error (.configuration (.repeatedPosition s.position))
    else do
      let lookup ← compile s
      compileAll compile (done.insert s.position lookup) rest

/-- Compiles the single statements first, then the batch statements. -/
def compile (single batch : List PreparedStatement) (skip : SortedSet GroupId) :
    Except ServingError Registry := do
  let single ← compileAll Lookup.single ∅ (PreparedStatement.retained skip single)
  let batch ← compileAll Lookup.batch ∅ (PreparedStatement.retained skip batch)
  .ok ⟨single, batch⟩

/-- The previews of the single lookups, by ascending position. -/
def previews (r : Registry) (limit : Nat) : Except ServingError (List (Position × Lookup)) :=
  r.single.entries.mapM fun e => (e.2.preview limit).map fun l => (e.1, l)

/-- The positions with a single lookup. -/
def positions (r : Registry) : List Position :=
  r.single.keys

/-- How many lookups one call may make at once. -/
def concurrency (r : Registry) : Nat :=
  max r.single.size r.batch.size

def isEmpty (r : Registry) : Bool :=
  r.single.isEmpty && r.batch.isEmpty

end Registry

end FeatureServing
