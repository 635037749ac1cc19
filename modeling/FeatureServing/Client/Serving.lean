import FeatureServing.Request
import FeatureServing.World

/-!
# Serving calls

A `Serving.Call` asks a client for the vector of one entry or for those of many. The call takes the
installed state once, at its start, and works with nothing else: it prepares the queries, waits for
all of them and assembles the answer. The queries go through the executor of the pipeline.
-/

namespace FeatureServing

namespace Serving

inductive Call
  | vector (helper : Bool) (entry : Entry)
  | vectors (helper : Bool) (entries : List Entry)
  | serve (request : VectorRequest)
  | serveBatch (request : BatchRequest)

inductive Answer
  | vector (v : FeatureVector)
  | vectors (vs : BatchVectors)

namespace Call

/-- Refuses a call that makes no sense for any client. -/
def check : Call → Except ClientError Unit
  | serveBatch r => r.validate
  | _ => .ok ()

/-- Whether the call is about the helper columns. -/
def isHelper : Call → Bool
  | vector helper _ | vectors helper _ => helper
  | serve _ | serveBatch _ => false

/-- Checks the entries of a call and gives its queries. -/
def prepare (p : Pipeline) : Call → Except ServingError (List Fetch)
  | vector _ e => p.prepare e
  | serve r => p.prepare r.entry
  | vectors _ es => p.prepareBatch es
  | serveBatch r => p.prepareBatch r.entries

/-- Makes the answer out of the rows. -/
def assemble (p : Pipeline) (results : SortedMap Position RowSet) :
    Call → Except ServingError Answer
  | vector _ _ => (p.assemble results).map .vector
  | serve r => (p.assemble results).map fun v => .vector (applyPassed v r.passed)
  | vectors _ es => (p.assembleBatch es results).map .vectors
  | serveBatch r =>
    (p.assembleBatch r.entries results).map fun b =>
      .vectors { b with vectors := r.applyTo b.vectors }

end Call

/-- How far a call has come. -/
inductive Phase
  | fresh (call : Call)
  | fetching (call : Call) (state : ServingState) (pipeline : Pipeline) (fanOut : FanOut)
  | finished (result : Except ClientError Answer)

/-- Takes the installed state and prepares the queries of a call. -/
def start (w : World) (call : Call) : Except ClientError Phase := do
  call.check
  let i ← w.client.snapshot
  let p ← i.state.pipeline call.isHelper
  let fetches ← (call.prepare p).mapError .serving
  .ok (.fetching call i.state p (p.executor.submit w.now fetches))

/-- Goes as far as possible now. -/
def advance (w : World) : Phase → World × Phase
  | .fetching call s p f =>
    match f.run w.now (w.storeOf p.executor.store) with
    | (store, f, none) => (w.setStore p.executor.store store, .fetching call s p f)
    | (store, _, some (.error e)) =>
      (w.setStore p.executor.store store, .finished (.error (.serving e)))
    | (store, _, some (.ok results)) =>
      (w.setStore p.executor.store store,
        .finished ((call.assemble p results).mapError .serving))
  | phase => (w, phase)

/-- Starts a call, or goes on with it. -/
def run (w : World) : Phase → World × Phase
  | .fresh call =>
    match start w call with
    | .ok phase => advance w phase
    | .error e => (w, .finished (.error e))
  | phase => advance w phase

def wake? : Phase → Option Nat
  | .fetching _ _ _ f => f.wake?
  | _ => none

end Serving

end FeatureServing
