import FeatureServing.World

/-!
# Refreshing a client's connection

`Refresh` looks whether the connection still works. If it does not, the client is connected again,
with the options of its state, and gets that state over the new connection; unless another state was
installed in the meantime, which then stays.
-/

namespace FeatureServing

namespace Refresh

/-- How far the operation has come. -/
inductive Phase
  | fresh
  | pinging (known : Installed)
  | connecting (known : Installed) (connection : Connecting)
  | installing (known : Installed) (store : Handle)
  | finished (result : Except ClientError Unit)

/-- The next action; none while a connection is awaited and at the end. -/
def step (w : World) : Phase → Option (World × Phase)
  | .fresh =>
    match w.client.snapshot with
    | .ok i => some (w, .pinging i)
    | .error e => some (w, .finished (.error e))
  | .pinging i =>
    match (w.storeOf i.state.store).ping with
    | .ok _ => some (w, .finished (.ok ()))
    | .error _ => some (w, .connecting i .fresh)
  | .connecting _ .refused => some (w, .finished (.error (.serving (.backend .refused))))
  | .connecting i (.connected store) => some (w, .installing i store)
  | .connecting i c => (c.step w).map fun (w, c) => (w, .connecting i c)
  | .installing i store =>
    some ({ w with client := w.client.installOver i (i.state.reconnected store) },
      .finished (.ok ()))
  | .finished _ => none

/-- Takes up to `fuel` actions. -/
def runFor : Nat → World → Phase → World × Phase
  | 0, w, p => (w, p)
  | fuel + 1, w, p =>
    match step w p with
    | none => (w, p)
    | some (w, p) => runFor fuel w p

/-- Takes all actions that can be taken now; there are six at most. -/
def run (w : World) (p : Phase) : World × Phase :=
  runFor 6 w p

def wake? : Phase → Option Nat
  | .connecting _ c => c.wake?
  | _ => none

end Refresh

end FeatureServing
