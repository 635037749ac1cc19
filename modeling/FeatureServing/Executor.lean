import FeatureServing.FanOut

/-!
# Executors

A `Handle` is how a connection is held: it says which store the connection reaches. An `Executor`
makes the lookups of a call through a handle and, if it has a limit, within that time.
-/

namespace FeatureServing

/-- Which store a connection reaches; the connections to the in-memory store share that store. -/
inductive Handle
  | memory
  | other (number : Nat)
deriving DecidableEq

structure Executor where
  store : Handle
  /-- How long all lookups of one call may take, in milliseconds. -/
  limit : Option Nat := none
deriving DecidableEq

namespace Executor

/-- The executor with another time limit, or without one. -/
def withLimit (x : Executor) (limit : Option Nat) : Executor :=
  { x with limit }

/-- Starts the lookups of a call. -/
def submit (x : Executor) (now : Nat) (fetches : List Fetch) : FanOut :=
  .of now x.limit fetches

end Executor

end FeatureServing
