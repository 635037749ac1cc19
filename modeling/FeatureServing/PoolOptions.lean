import FeatureServing.Json
import FeatureServing.Readable

/-!
# Pool options

`PoolOptions` are the sizes and time limits of a connection pool. `PoolOptions.sizedFor` makes the
pool at least as large as the number of lookups that one call makes at once.
-/

namespace FeatureServing

structure PoolOptions where
  maxConnections : Option UInt32 := none
  minConnections : UInt32 := 0
  /-- How long to wait for a connection, in milliseconds. -/
  acquireMillis : UInt64 := 5000
  /-- How long all lookups of one call may take, in milliseconds. -/
  queryMillis : Option UInt64 := none
deriving DecidableEq

namespace PoolOptions

/-- The connections that a number of lookups needs, counted in 32 bits; at least one is asked
for. -/
def needed (concurrency : Nat) : UInt32 :=
  UInt32.ofNat (max concurrency 1)

/-- Options with a pool that is large enough for a number of simultaneous lookups. -/
def sizedFor (o : PoolOptions) (concurrency : Nat) : PoolOptions :=
  let connections :=
    match o.maxConnections with
    | some requested => max requested (needed concurrency)
    | none => needed concurrency
  { o with
    maxConnections := some connections
    minConnections := min o.minConnections connections }

/-- The time limit of the lookups of one call, in milliseconds. -/
def queryLimit (o : PoolOptions) : Option Nat :=
  o.queryMillis.map UInt64.toNat

def fieldNames : List String :=
  ["max_connections", "min_connections", "acquire_timeout_ms", "query_timeout_ms"]

section

open Readable

def read? {τ : Type} [Readable τ] (t : τ) : Option PoolOptions := do
  let fs ← fields? fieldNames t
  let maxConnections ← fs.optional "max_connections" uint32?
  let minConnections ← fs.defaulted "min_connections" 0 uint32?
  let acquireMillis ← fs.defaulted "acquire_timeout_ms" 5000 uint64?
  let queryMillis ← fs.optional "query_timeout_ms" uint64?
  some ⟨maxConnections, minConnections, acquireMillis, queryMillis⟩

end

def toJson (o : PoolOptions) : Json :=
  .record
    [("max_connections", .ofOption (fun n => .ofNat n.toNat) o.maxConnections),
     ("min_connections", .ofNat o.minConnections.toNat),
     ("acquire_timeout_ms", .ofNat o.acquireMillis.toNat),
     ("query_timeout_ms", .ofOption (fun n => .ofNat n.toNat) o.queryMillis)]

end PoolOptions

end FeatureServing
