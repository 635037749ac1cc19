import FeatureServing.Proofs.CallRun

/-!
# A refresh connects once

A refresh looks whether the store of the installed state works. If it does not, the refresh is given
one connection, wherever connections lead then, and ends.

* `Refresh.runFor_pinging`, `Refresh.runFor_waiting` : the actions before the connection and those
  after it;
* `Session.runCommand_refresh_open`, `Session.runCommand_refresh_closed` : what the command does.
-/

namespace FeatureServing

namespace Refresh

/-- The world when a refresh that took a state has ended with a connection. -/
def connectedWorld (w : World) (i : Installed) : World :=
  { w.setStore w.target (w.storeOf w.target).connect with
    client := w.client.installOver i (i.state.reconnected w.target) }

section

variable {w : World} {i : Installed} (fuel : Nat)

theorem installed_connectedWorld (hi : w.client.installed = some i) :
    (connectedWorld w i).client.installed =
      some ⟨w.client.installs, i.state.reconnected w.target⟩ := by
  simp [connectedWorld, Client.installOver, hi, Client.install]

theorem runFor_of_step {w' : World} {p p' : Phase} (h : step w p = some (w', p')) :
    runFor (fuel + 1) w p = runFor fuel w' p' := by
  rw [runFor, h]

theorem runFor_finished (w : World) (r : Except ClientError Unit) :
    runFor fuel w (.finished r) = (w, .finished r) := by
  cases fuel <;> rfl

theorem step_fresh (hi : w.client.installed = some i) : step w .fresh = some (w, .pinging i) := by
  rw [step, Client.snapshot, hi]

/-- Where the store is broken, a connection is asked for. -/
theorem runFor_pinging (hclosed : (w.storeOf i.state.store).closed = true)
    (hrefuses : w.connector.refuses = false) :
    runFor (fuel + 2) w (.pinging i) =
      runFor fuel w (.connecting i (.waiting (w.now + w.connector.delay) false)) := by
  have hping : step w (.pinging i) = some (w, .connecting i .fresh) := by
    simp [step, Store.ping, hclosed]
  have hasks : step w (.connecting i .fresh) =
      some (w, .connecting i (.waiting (w.now + w.connector.delay) false)) := by
    simp [step, Connecting.step, hrefuses]
  rw [runFor_of_step _ hping, runFor_of_step _ hasks]

/-- Once the connection is there, the state that is connected to it is installed, unless another one
is installed by then. -/
theorem runFor_waiting {wake : Nat} (hwake : wake ≤ w.now) :
    runFor (fuel + 3) w (.connecting i (.waiting wake false)) =
      (connectedWorld w i, .finished (.ok ())) := by
  have hconnects : step w (.connecting i (.waiting wake false)) =
      some (w.setStore w.target (w.storeOf w.target).connect,
        .connecting i (.connected w.target)) := by
    simp [step, Connecting.step, hwake]
  rw [runFor_of_step _ hconnects, runFor_of_step _ rfl, runFor_of_step _ rfl, runFor_finished,
    World.client_setStore]
  rfl

theorem runFor_asleep {wake : Nat} (hwake : w.now < wake) :
    runFor fuel w (.connecting i (.waiting wake false)) =
      (w, .connecting i (.waiting wake false)) := by
  have hwaits : step w (.connecting i (.waiting wake false)) = none := by
    simp [step, Connecting.step, Nat.not_le.2 hwake]
  cases fuel with
  | zero => rfl
  | succ fuel => rw [runFor, hwaits]

end

end Refresh

namespace Session

theorem runCommand_of_finished {w w' : World} {c : Command} {r : Except Failure Reply}
    (h : Task.settle c.waits (c.start w).1 (c.start w).2 = (w', .finished r)) :
    (runCommand w c).1 = w' ∧ (runCommand w c).2.result = some r ∧
      (runCommand w c).2.store = w'.store := by
  rw [runCommand]
  simp only [h]
  exact ⟨trivial, rfl, trivial⟩

/-- **A refresh while the store works** changes nothing. -/
theorem runCommand_refresh_open {w : World} {i : Installed} (hi : w.client.installed = some i)
    (hopen : (w.storeOf i.state.store).closed = false) :
    runCommand w .refresh = (w, ⟨some (.ok .done), [], w.store⟩) := by
  have hrun : Refresh.run w .fresh = (w, .finished (.ok ())) := by
    simp [Refresh.run, Refresh.runFor, Refresh.step, Client.snapshot, hi, Store.ping, hopen]
  apply runCommand_of_start
  rw [Command.start, Task.runRefresh, hrun]
  rfl

/-- **A refresh of a broken store** connects once, to the store that connections lead to, and gives
its state executors for that store; the clock goes on for as long as that takes. -/
theorem runCommand_refresh_closed {w : World} {i : Installed} (hi : w.client.installed = some i)
    (hclosed : (w.storeOf i.state.store).closed = true)
    (hrefuses : w.connector.refuses = false) :
    (runCommand w .refresh).1 =
        Refresh.connectedWorld { w with now := w.now + w.connector.delay } i ∧
      (runCommand w .refresh).2.result = some (.ok .done) := by
  have hrun : Refresh.run w .fresh =
      Refresh.runFor 3 w (.connecting i (.waiting (w.now + w.connector.delay) false)) := by
    rw [Refresh.run, Refresh.runFor_of_step _ (Refresh.step_fresh hi),
      Refresh.runFor_pinging _ hclosed hrefuses]
  have hstart : Command.start w .refresh =
      ((Refresh.run w .fresh).1, Task.ofRefresh (Refresh.run w .fresh).2) := rfl
  refine And.imp id And.left (runCommand_of_finished ?_)
  rw [hstart, hrun]
  by_cases hdelay : w.connector.delay = 0
  · rw [hdelay, Nat.add_zero, Refresh.runFor_waiting _ (Nat.le_refl _)]
    exact settle_finished _ _ _
  · have hlt : w.now < w.now + w.connector.delay := by omega
    have hnow : max w.now (w.now + w.connector.delay) = w.now + w.connector.delay := by omega
    rw [Refresh.runFor_asleep _ hlt]
    have hwake : Task.wake? (Task.ofRefresh
        (.connecting i (.waiting (w.now + w.connector.delay) false))) =
          some (w.now + w.connector.delay) := rfl
    have hend : Task.run { w with now := max w.now (w.now + w.connector.delay) }
        (Task.ofRefresh (.connecting i (.waiting (w.now + w.connector.delay) false))) =
          (Refresh.connectedWorld { w with now := w.now + w.connector.delay } i,
            .finished (.ok .done)) := by
      rw [hnow, Task.ofRefresh, Task.run, Task.runRefresh, Refresh.run,
        Refresh.runFor_waiting _ (Nat.le_refl _)]
      · rfl
      · intro _ h
        cases h
    rw [Command.waits, Task.settle, hwake]
    simp only [hend, settle_finished]

end Session

end FeatureServing
