import FeatureServing.Entity
import FeatureServing.Pipeline
import FeatureServing.PoolOptions

/-!
# The client and its serving state

A `Client` is empty until it is set up, and from then on it holds a `ServingState` that never
changes: setting it up again, or connecting it again, replaces the whole state. Every installed
state has a stamp of its own, so an operation can tell whether the state it started with is still
the installed one. `ServingState.reconnected` puts a state together anew over another connection.
-/

namespace FeatureServing

/-- What a client serves an entity with. -/
@[ext]
structure ServingState where
  entity : Entity
  /-- Whether the connection is made from outside the cluster. -/
  external : Bool
  /-- The options that the connection was opened with. -/
  pool : PoolOptions
  /-- The connection. -/
  store : Handle
  vector : Pipeline
  /-- The pipeline of the inference helper columns, if they were set up. -/
  helper : Option Pipeline

/-- A state that was installed, with the number of the installation. -/
structure Installed where
  stamp : Nat
  state : ServingState

structure Client where
  installed : Option Installed := none
  /-- How many states were installed so far. -/
  installs : Nat := 0

namespace ServingState

/-- The pipeline of the vector or of the helper columns. -/
def pipeline (s : ServingState) (helper : Bool) : Except ClientError Pipeline :=
  if helper then
    match s.helper with
    | some p => .ok p
    | none => .error (.configuration (.helpersNotSetUp s.entity.label))
  else .ok s.vector

/-- The time limit of the lookups of one call, in milliseconds. -/
def queryLimit (s : ServingState) : Option Nat :=
  s.pool.queryLimit

/-- The state over another connection: both pipelines get an executor for it, with the time limit of
the pool options. -/
def reconnected (s : ServingState) (store : Handle) : ServingState :=
  let executor := ({ store } : Executor).withLimit s.pool.queryLimit
  { entity := s.entity
    external := s.external
    pool := s.pool
    store := store
    vector := s.vector.withExecutor executor
    helper := s.helper.map fun p => p.withExecutor executor }

end ServingState

namespace Client

def isReady (c : Client) : Bool :=
  c.installed.isSome

/-- The installed state; a client that was not set up has none. -/
def snapshot (c : Client) : Except ClientError Installed :=
  match c.installed with
  | some i => .ok i
  | none => .error .notReady

/-- Installs a state in the place of the present one. -/
def install (c : Client) (s : ServingState) : Client :=
  { installed := some ⟨c.installs, s⟩, installs := c.installs + 1 }

/-- Installs a state unless another one than a given one is installed. -/
def installOver (c : Client) (known : Installed) (s : ServingState) : Client :=
  match c.installed with
  | some i => if i.stamp = known.stamp then c.install s else c
  | none => c.install s

end Client

end FeatureServing
