import FeatureServing.World

/-!
# Setting a client up

A `SetUp.Plan` is what an entity is served with, made out of its metadata by `SetUp.outline`; nothing
is connected and nothing changes for it. `SetUp.Plan.stateOver` is the serving state of a plan over a
connection. `SetUp` is the whole operation: it reads the sets of statements one after the other, each
as its source has it at that moment, plans, connects and installs. When any part of it fails, the
client is what it was.
-/

namespace FeatureServing

namespace SetUp

/-- What a client is set up for. -/
structure Request where
  entity : Entity
  external : Bool := false
  /-- Whether to set up the inference helper columns as well. -/
  helpers : Bool := false
  pool : PoolOptions := {}

/-- Where statements come from: the set of an entity for single entries or batches, of the vector
or of the helper columns; none if it is not available. -/
abbrev Source := Entity → Bool → Bool → Except ClientError (Option (List PreparedStatement))

/-- A set of statements that has to be available. -/
def statements (source : Source) (e : Entity) (batch helper : Bool) :
    Except ClientError (List PreparedStatement) := do
  match ← source e batch helper with
  | some s => .ok s
  | none => .error (.configuration (.statementsMissing helper batch e.label))

/-- Refuses an entity that cannot be served, and helper columns of anything but a feature view. -/
def checkKind (r : Request) : Except ClientError Unit :=
  if r.entity.kind = .unsupported then
    .error (.configuration (.unsupportedKind r.entity.name))
  else if r.helpers ∧ r.entity.kind ≠ .featureView then
    .error (.configuration (.helpersNotAvailable r.entity.label))
  else .ok ()

/-- The registry of the helper columns. -/
def helperRegistry (source : Source) (r : Request) : Except ClientError (Option Registry) :=
  if r.helpers then do
    let single ← statements source r.entity false true
    let batch ← statements source r.entity true true
    let registry ← (Registry.compile single batch r.entity.skip).mapError .serving
    .ok (some registry)
  else .ok none

/-- The lookups that one call makes at once, at most. -/
def concurrency (vector : Registry) (helper : Option Registry) : Nat :=
  max vector.concurrency ((helper.map Registry.concurrency).getD 0)

/-- What an entity is served with. The helper columns share the keys of the vector. -/
structure Plan where
  request : Request
  keys : KeyIndex
  vector : Registry
  helper : Option Registry

namespace Plan

/-- The pool options, with connections for all lookups of a call. -/
def pool (p : Plan) : PoolOptions :=
  p.request.pool.sizedFor (concurrency p.vector p.helper)

/-- The serving state of a plan over a connection. -/
def stateOver (p : Plan) (store : Handle) : ServingState :=
  let entity := p.request.entity
  let executor := ({ store } : Executor).withLimit p.pool.queryLimit
  { entity := entity
    external := p.request.external
    pool := p.pool
    store := store
    vector := ⟨p.vector, p.keys, .ofServed entity.features entity.skip, executor⟩
    helper := p.helper.map fun registry =>
      ⟨registry, p.keys, .ofHelpers entity.features entity.skip, executor⟩ }

end Plan

/-- Plans what an entity is served with. -/
def outline (source : Source) (r : Request) : Except ClientError Plan := do
  checkKind r
  let single ← statements source r.entity false false
  let batch ← statements source r.entity true false
  let keys ← (KeyIndex.build single r.entity.servingKeys r.entity.skip).mapError .serving
  let registry ← (Registry.compile single batch r.entity.skip).mapError .serving
  let helper ← helperRegistry source r
  .ok ⟨r, keys, registry, helper⟩

/-- The serving state of an entity over a connection. -/
def plan (source : Source) (r : Request) (store : Handle := .memory) :
    Except ClientError ServingState :=
  (outline source r).map fun p => p.stateOver store

/-- How far the operation has come. -/
inductive Phase
  | fresh (request : Request)
  | readingSingle (request : Request)
  | readingBatch (request : Request) (single : List PreparedStatement)
  /-- Reads the sets of the helper columns next; the vector is planned. -/
  | readingHelperSingle (request : Request) (keys : KeyIndex) (registry : Registry)
  | readingHelperBatch (request : Request) (keys : KeyIndex) (registry : Registry)
      (single : List PreparedStatement)
  | connecting (plan : Plan) (connection : Connecting)
  | installing (plan : Plan) (store : Handle)
  | finished (result : Except ClientError Unit)

/-- Goes on with a phase, or ends with an error. -/
def Phase.orError : Except ClientError Phase → Phase
  | .ok p => p
  | .error e => .finished (.error e)

/-- Plans the vector; connects next, or reads the sets of the helper columns. -/
def planVector (r : Request) (single batch : List PreparedStatement) :
    Except ClientError Phase := do
  let keys ← (KeyIndex.build single r.entity.servingKeys r.entity.skip).mapError .serving
  let registry ← (Registry.compile single batch r.entity.skip).mapError .serving
  if r.helpers then .ok (.readingHelperSingle r keys registry)
  else .ok (.connecting ⟨r, keys, registry, none⟩ .fresh)

/-- Plans the helper columns; connects next. -/
def planHelper (r : Request) (keys : KeyIndex) (registry : Registry)
    (single batch : List PreparedStatement) : Except ClientError Phase := do
  let helper ← (Registry.compile single batch r.entity.skip).mapError .serving
  .ok (.connecting ⟨r, keys, registry, some helper⟩ .fresh)

/-- The next action; none while a connection is awaited and at the end. -/
def step (source : Source) (w : World) : Phase → Option (World × Phase)
  | .fresh r => some (w, .orError ((checkKind r).map fun _ => .readingSingle r))
  | .readingSingle r =>
    some (w, .orError ((statements source r.entity false false).map (.readingBatch r)))
  | .readingBatch r single =>
    some (w, .orError ((statements source r.entity true false).bind (planVector r single)))
  | .readingHelperSingle r keys registry =>
    some (w, .orError
      ((statements source r.entity false true).map (.readingHelperBatch r keys registry)))
  | .readingHelperBatch r keys registry single =>
    some (w, .orError
      ((statements source r.entity true true).bind (planHelper r keys registry single)))
  | .connecting _ .refused => some (w, .finished (.error (.serving (.backend .refused))))
  | .connecting p (.connected store) => some (w, .installing p store)
  | .connecting p c => (c.step w).map fun (w, c) => (w, .connecting p c)
  | .installing p store =>
    some ({ w with client := w.client.install (p.stateOver store) }, .finished (.ok ()))
  | .finished _ => none

/-- Takes up to `fuel` actions. -/
def runFor (source : Source) : Nat → World → Phase → World × Phase
  | 0, w, p => (w, p)
  | fuel + 1, w, p =>
    match step source w p with
    | none => (w, p)
    | some (w, p) => runFor source fuel w p

/-- Takes all actions that can be taken now, with the metadata of the document; there are nine at
most. -/
def run (w : World) (p : Phase) : World × Phase :=
  runFor w.source 9 w p

def wake? : Phase → Option Nat
  | .connecting _ c => c.wake?
  | _ => none

end SetUp

end FeatureServing
