import FeatureServing.Client
import FeatureServing.Document

/-!
# What clients act on

A `World` is everything that the operations of a client read and write: the clock, the in-memory
store and those that other connections reach, the connector, the metadata document and the client
itself. A store is read and written by the handle of a connection to it: `World.storeOf`,
`World.setStore`. `Connecting` is a connection in the making: the connector's settings are those of
the moment it starts, and it leads to the store that connections lead to when it comes about.
-/

namespace FeatureServing

/-- How connections come about. -/
structure Connector where
  /-- How long a connection takes, in milliseconds. -/
  delay : Nat := 0
  /-- Whether connections are refused in the end. -/
  refuses : Bool := false

structure World where
  /-- The time, in milliseconds. -/
  now : Nat := 0
  /-- The in-memory store. -/
  store : Store := {}
  /-- The stores of all other connections. -/
  elsewhere : Nat → Store := fun _ => {}
  /-- Where new connections lead. -/
  target : Handle := .memory
  connector : Connector := {}
  document : Option Document := none
  client : Client := {}

namespace World

/-- A set of statements of an entity, as the document has it. -/
def source (w : World) (asked : Entity) (batch helper : Bool) :
    Except ClientError (Option (List PreparedStatement)) :=
  match w.document with
  | some d => d.source asked batch helper
  | none => .ok none

/-- The store that a connection reaches. -/
def storeOf (w : World) : Handle → Store
  | .memory => w.store
  | .other n => w.elsewhere n

/-- Puts another store in the place of one that a connection reaches. -/
def setStore (w : World) (h : Handle) (s : Store) : World :=
  match h with
  | .memory => { w with store := s }
  | .other n => { w with elsewhere := fun m => if m = n then s else w.elsewhere m }

section Stores

variable (w : World) (h : Handle) (s s' : Store)

@[simp] theorem storeOf_memory : w.storeOf .memory = w.store := rfl

@[simp] theorem setStore_memory : w.setStore .memory s = { w with store := s } := rfl

@[simp] theorem now_setStore : (w.setStore h s).now = w.now := by cases h <;> rfl

@[simp] theorem connector_setStore : (w.setStore h s).connector = w.connector := by cases h <;> rfl

@[simp] theorem target_setStore : (w.setStore h s).target = w.target := by cases h <;> rfl

@[simp] theorem client_setStore : (w.setStore h s).client = w.client := by cases h <;> rfl

theorem setStore_now (now : Nat) :
    { w.setStore h s with now } = ({ w with now } : World).setStore h s := by cases h <;> rfl

@[simp] theorem storeOf_setStore : (w.setStore h s).storeOf h = s := by
  cases h with
  | memory => rfl
  | other n => exact if_pos rfl

theorem storeOf_setStore_of_ne {h h' : Handle} (hne : h' ≠ h) :
    (w.setStore h s).storeOf h' = w.storeOf h' := by
  cases h' with
  | memory =>
    cases h with
    | memory => exact absurd rfl hne
    | other => rfl
  | other n =>
    cases h with
    | memory => rfl
    | other m => exact if_neg fun heq : n = m => hne (congrArg Handle.other heq)

@[simp] theorem setStore_setStore : (w.setStore h s).setStore h s' = w.setStore h s' := by
  cases h with
  | memory => rfl
  | other n =>
    simp only [setStore]
    congr 1
    funext m
    split <;> rfl

@[simp] theorem setStore_storeOf : w.setStore h (w.storeOf h) = w := by
  cases h with
  | memory => rfl
  | other n =>
    have hsame : (fun m => if m = n then w.elsewhere n else w.elsewhere m) = w.elsewhere := by
      funext m
      split <;> simp_all
    simp only [setStore, storeOf, hsame]

end Stores

end World

/-- A connection in the making. -/
inductive Connecting
  | fresh
  | waiting (wake : Nat) (refuses : Bool)
  | connected (store : Handle)
  | refused

namespace Connecting

/-- The next action of a connection; none while it waits and when it is over. -/
def step (w : World) : Connecting → Option (World × Connecting)
  | fresh => some (w, waiting (w.now + w.connector.delay) w.connector.refuses)
  | waiting wake refuses =>
    if wake ≤ w.now then
      if refuses then some (w, refused)
      else some (w.setStore w.target (w.storeOf w.target).connect, connected w.target)
    else none
  | connected _ | refused => none

/-- The time that a connection waits for. -/
def wake? : Connecting → Option Nat
  | waiting wake _ => some wake
  | _ => none

end Connecting

end FeatureServing
