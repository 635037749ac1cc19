import FeatureServing.Client.Refresh
import FeatureServing.Client.Serving
import FeatureServing.Client.SetUp

/-!
# Scripted sessions

A session is a list of commands for a store and a client, run one after the other in virtual time:
the clock stands still while anything can be done and then jumps to the next moment that something
waits for. Commands may run side by side (`Command.concurrent`).

* `Command.start` : starts a command and goes as far as possible at once;
* `Task.run` : goes on with one that had to wait;
* `Session.run` : every command until it ends, with what the store saw of it.
-/

namespace FeatureServing

/-- A failure of any layer. -/
inductive Failure
  | model (e : ModelError)
  | serving (e : ServingError)
  | client (e : ClientError)
  /-- A command or an input that cannot be understood. -/
  | unreadable

/-- One step of a session. -/
inductive Command
  | insertTable (p : Position) (t : Table)
  | setLatency (millis : Nat)
  | failOn (p : Position)
  | nullRowFor (p : Position)
  | close
  | ping
  | connect
  | fetch (lookup : Except ServingError Lookup) (binds : Binds)
  | execute (lookups : Except ServingError (SortedMap Position Lookup))
      (binds : SortedMap Position Binds) (limit : Option Nat)
  | checkStore
  | setConnector (c : Connector)
  | setUp (request : SetUp.Request)
  | isReady
  | showState
  | serve (call : Serving.Call)
  | refresh
  /-- A command, and whether it left the installed state as it was. -/
  | watch (c : Command)
  /-- Commands side by side, each after a delay of its own. -/
  | concurrent (branches : List (Nat × Command))
  | unreadable

instance : Inhabited Command := ⟨.unreadable⟩

/-- What a command answers. -/
inductive Reply
  | done
  | flag (b : Bool)
  | vector (v : FeatureVector)
  | vectors (vs : BatchVectors)
  | rows (rows : RowSet)
  | rowSets (results : SortedMap Position RowSet)
  | store (name : String)
  | storeChecked (name : String) (ping : Except ServingError Unit)
  | state (s : ServingState)
  | watched (result : Except Failure Reply) (same : Bool)
  | each (results : List (Except Failure Reply))

/-- A command under way. -/
inductive Task
  /-- A command that starts later. -/
  | delayed (wake : Nat) (c : Command)
  | fetching (f : Fetch)
  | executing (f : FanOut)
  | settingUp (p : SetUp.Phase)
  | serving (p : Serving.Phase)
  | refreshing (p : Refresh.Phase)
  | watching (stamp : Nat) (t : Task)
  | together (ts : List Task)
  | finished (result : Except Failure Reply)

namespace Reply

def ofAnswer : Serving.Answer → Reply
  | .vector v => vector v
  | .vectors vs => vectors vs

end Reply

namespace Task

/-! ## Machines as tasks -/

def ofFetch (f : Fetch) : Task :=
  match f.phase with
  | .finished r => .finished ((r.map Reply.rows).mapError .serving)
  | _ => .fetching f

def ofSetUp : SetUp.Phase → Task
  | .finished r => .finished ((r.map fun _ => .done).mapError .client)
  | p => .settingUp p

def ofServing : Serving.Phase → Task
  | .finished r => .finished ((r.map Reply.ofAnswer).mapError .client)
  | p => .serving p

def ofRefresh : Refresh.Phase → Task
  | .finished r => .finished ((r.map fun _ => .done).mapError .client)
  | p => .refreshing p

def runFetch (w : World) (f : Fetch) : World × Task :=
  let (store, f) := f.run w.now w.store
  ({ w with store }, ofFetch f)

def runFanOut (w : World) (f : FanOut) : World × Task :=
  match f.run w.now w.store with
  | (store, f, none) => ({ w with store }, .executing f)
  | (store, _, some r) => ({ w with store }, .finished ((r.map Reply.rowSets).mapError .serving))

def runSetUp (w : World) (p : SetUp.Phase) : World × Task :=
  let (w, p) := SetUp.run w p
  (w, ofSetUp p)

def runServing (w : World) (p : Serving.Phase) : World × Task :=
  let (w, p) := Serving.run w p
  (w, ofServing p)

def runRefresh (w : World) (p : Refresh.Phase) : World × Task :=
  let (w, p) := Refresh.run w p
  (w, ofRefresh p)

/-- Ends a watched command once the command has ended. -/
def closeWatch (w : World) (stamp : Nat) : Task → Task
  | .finished r =>
    match w.client.snapshot with
    | .ok i => .finished (.ok (.watched r (i.stamp == stamp)))
    | .error e => .finished (.error (.client e))
  | t => .watching stamp t

def result? : Task → Option (Except Failure Reply)
  | .finished r => some r
  | _ => none

/-- Ends commands side by side once all of them have ended. -/
def closeTogether (ts : List Task) : Task :=
  match ts.mapM result? with
  | some rs => .finished (.ok (.each rs))
  | none => .together ts

end Task

/-! ## Starting commands -/

/-- A command that is done at once. -/
def finishedWith (r : Reply) : Task :=
  .finished (.ok r)

namespace Command

mutual

/-- Starts a command and goes as far as possible at once. -/
def start (w : World) : Command → World × Task
  | insertTable p t => ({ w with store := w.store.insertTable p t }, finishedWith .done)
  | setLatency ms => ({ w with store := w.store.setLatency ms }, finishedWith .done)
  | failOn p => ({ w with store := w.store.failOn p }, finishedWith .done)
  | nullRowFor p => ({ w with store := w.store.nullRowFor p }, finishedWith .done)
  | close => ({ w with store := w.store.close }, finishedWith .done)
  | ping => (w, .finished ((w.store.ping.map fun _ => .done).mapError .serving))
  | connect => ({ w with store := w.store.connect }, finishedWith (.store Store.name))
  | fetch lookup binds =>
    match lookup with
    | .ok l => Task.runFetch w { lookup := l, binds }
    | .error e => (w, .finished (.error (.serving e)))
  | execute lookups binds limit =>
    match lookups with
    | .ok ls => Task.runFanOut w (.of w.now limit (FanOut.submitted ls binds))
    | .error e => (w, .finished (.error (.serving e)))
  | checkStore => (w, finishedWith (.storeChecked Store.name w.store.ping))
  | setConnector c => ({ w with connector := c }, finishedWith .done)
  | setUp r => Task.runSetUp w (.fresh r)
  | isReady => (w, finishedWith (.flag w.client.isReady))
  | showState =>
    match w.client.snapshot with
    | .ok i => (w, finishedWith (.state i.state))
    | .error e => (w, .finished (.error (.client e)))
  | serve call => Task.runServing w (.fresh call)
  | refresh => Task.runRefresh w .fresh
  | watch c =>
    match w.client.snapshot with
    | .ok i =>
      let (w, t) := start w c
      (w, Task.closeWatch w i.stamp t)
    | .error e => (w, .finished (.error (.client e)))
  | concurrent branches =>
    let (w, ts) := startBranches w branches
    (w, Task.closeTogether ts)
  | unreadable => (w, .finished (.error .unreadable))

/-- Starts the branches without a delay and puts the others off. -/
def startBranches (w : World) : List (Nat × Command) → World × List Task
  | [] => (w, [])
  | (after, c) :: rest =>
    let (w, t) := if after = 0 then start w c else (w, .delayed (w.now + after) c)
    let (w, ts) := startBranches w rest
    (w, t :: ts)

end

mutual

/-- How often a command may have to wait. -/
def waits : Command → Nat
  | watch c => waits c
  | concurrent branches => branchWaits branches
  | setUp _ | refresh | serve _ | fetch _ _ | execute _ _ _ => 2
  | _ => 0

def branchWaits : List (Nat × Command) → Nat
  | [] => 0
  | (_, c) :: rest => 1 + waits c + branchWaits rest

end

end Command

/-! ## Going on with tasks -/

namespace Task

mutual

/-- Goes on with a task as far as possible. -/
def run (w : World) : Task → World × Task
  | delayed wake c => if wake ≤ w.now then c.start w else (w, delayed wake c)
  | fetching f => runFetch w f
  | executing f => runFanOut w f
  | settingUp p => runSetUp w p
  | serving p => runServing w p
  | refreshing p => runRefresh w p
  | watching stamp t =>
    let (w, t) := run w t
    (w, closeWatch w stamp t)
  | together ts =>
    let (w, ts) := runAll w ts
    (w, closeTogether ts)
  | finished r => (w, finished r)

def runAll (w : World) : List Task → World × List Task
  | [] => (w, [])
  | t :: rest =>
    let (w, t) := run w t
    let (w, rest) := runAll w rest
    (w, t :: rest)

end

mutual

/-- The next time that a task waits for. -/
def wake? : Task → Option Nat
  | delayed wake _ => some wake
  | fetching f => f.wake?
  | executing f => f.wake?
  | settingUp p => SetUp.wake? p
  | serving p => Serving.wake? p
  | refreshing p => Refresh.wake? p
  | watching _ t => wake? t
  | together ts => soonest ts
  | finished _ => none

/-- The first of the times that tasks wait for. -/
def soonest : List Task → Option Nat
  | [] => none
  | t :: rest => FanOut.sooner (wake? t) (soonest rest)

end

/-- Moves the clock to the next time that a task waits for and goes on, up to `fuel` times. -/
def settle : Nat → World → Task → World × Task
  | 0, w, t => (w, t)
  | fuel + 1, w, t =>
    match t.wake? with
    | none => (w, t)
    | some wake =>
      let (w, t) := t.run { w with now := max w.now wake }
      settle fuel w t

end Task

/-! ## Sessions -/

namespace Session

/-- What is known of a command when it has ended. -/
structure Report where
  /-- None if the command never ended. -/
  result : Option (Except Failure Reply)
  /-- The queries that were executed, by ascending position. -/
  executed : List ExecutedQuery
  /-- The store after the command. -/
  store : Store

/-- Runs a command until it ends. -/
def runCommand (w : World) (c : Command) : World × Report :=
  let (w', t) := c.start w
  let (w', t) := t.settle c.waits w'
  let executed := w'.store.executed.drop w.store.executed.length
  (w', ⟨t.result?, executed.mergeSort fun a b => a.position ≤ b.position, w'.store⟩)

/-- Runs commands one after the other. -/
def run (w : World) : List Command → List Report
  | [] => []
  | c :: rest =>
    let (w, report) := runCommand w c
    report :: run w rest

end Session

end FeatureServing
