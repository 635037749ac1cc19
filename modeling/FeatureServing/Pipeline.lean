import FeatureServing.Assembly
import FeatureServing.Executor
import FeatureServing.Registry

/-!
# From entries to vectors

A `Pipeline` is everything that one set of statements is served with. It works in two halves with
the queries in between: `prepare` checks an entry and says what to look up, `assemble` makes the
vector out of the rows. `prepareBatch` and `assembleBatch` do the same for many entries. All that
can be wrong with an entry is found before any query. The queries are made by the executor of the
pipeline, which `withExecutor` replaces.
-/

namespace FeatureServing

structure Pipeline where
  registry : Registry
  keys : KeyIndex
  schema : Schema
  executor : Executor

namespace Pipeline

/-- The pipeline with another executor. -/
def withExecutor (p : Pipeline) (executor : Executor) : Pipeline where
  registry := p.registry
  keys := p.keys
  schema := p.schema
  executor := executor

/-- Checks an entry and gives the queries that it can be looked up with. -/
def prepare (p : Pipeline) (e : Entry) : Except ServingError (List Fetch) := do
  checkSingleShape e
  p.keys.validateEntry e
  .ok (FanOut.submitted p.registry.single (p.keys.resolve e p.registry.single))

def assemble (p : Pipeline) (results : SortedMap Position RowSet) :
    Except ServingError FeatureVector :=
  p.schema.assemble results

/-- Whether there are single lookups and no batch lookups. -/
def lacksBatch (p : Pipeline) : Bool :=
  p.registry.batch.isEmpty && !p.registry.single.isEmpty

/-- Checks all entries and gives the queries that they can be looked up with together. -/
def prepareBatch (p : Pipeline) (es : List Entry) : Except ServingError (List Fetch) := do
  es.forM p.keys.validateEntry
  if p.lacksBatch then .error (.configuration .noBatchStatements)
  else .ok (FanOut.submitted p.registry.batch (p.keys.resolveBatch es p.registry.batch))

def assembleBatch (p : Pipeline) (es : List Entry) (results : SortedMap Position RowSet) :
    Except ServingError BatchVectors :=
  p.schema.assembleBatch p.keys es p.registry.batch results

end Pipeline

end FeatureServing
