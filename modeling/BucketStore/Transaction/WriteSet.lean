/-
  BucketStore/Transaction/WriteSet.lean
  =====================================
  **Evaluating a transaction on copies of the values it touches.**

  The committed value of every touched key is loaded into a slot; the operations
  then act on the slots alone, so a failed evaluation leaves nothing behind in
  the store.  What is to be published are the slots whose value changed.
-/
import BucketStore.Transaction

namespace BucketStore

/-- The staged copy of one key. -/
structure Slot where
  committed : Option Bytes
  /-- The value after the operations so far. -/
  current : Option Bytes
deriving DecidableEq, Repr

/-- A key whose value is to change; `none` deletes it. -/
structure Change where
  bucket : Bytes
  key : Bytes
  value : Option Bytes
deriving DecidableEq, Repr

/-- Slots by bucket and key, in order of loading, no key twice. -/
structure WriteSet where
  slots : List ((Bytes × Bytes) × Slot) := []
deriving DecidableEq, Repr

namespace WriteSet

def slot? (ws : WriteSet) (bucket key : Bytes) : Option Slot :=
  (ws.slots.find? fun e => e.1 == (bucket, key)).map (·.2)

def isLoaded (ws : WriteSet) (bucket key : Bytes) : Bool := (ws.slot? bucket key).isSome

def committed (ws : WriteSet) (bucket key : Bytes) : Option Bytes :=
  (ws.slot? bucket key).bind Slot.committed

def current (ws : WriteSet) (bucket key : Bytes) : Option Bytes :=
  (ws.slot? bucket key).bind Slot.current

/-- Notes the committed value of a key. A key that is loaded already stays as it is. -/
def load (ws : WriteSet) (bucket key : Bytes) (value : Option Bytes) : WriteSet :=
  if ws.isLoaded bucket key then ws
  else ⟨ws.slots ++ [((bucket, key), ⟨value, value⟩)]⟩

def stage (ws : WriteSet) (bucket key : Bytes) (value : Option Bytes) : WriteSet :=
  ⟨ws.slots.map fun e => if e.1 == (bucket, key) then (e.1, { e.2 with current := value }) else e⟩

def apply (ws : WriteSet) (op : Operation) : Except Failure OpResult × WriteSet :=
  match ws.slot? op.bucket op.key with
  | none => (.error (.notLoaded op.bucket op.key), ws)
  | some slot =>
    match op with
    | .get b k =>
      match slot.current with
      | some value => (.ok (.read value), ws)
      | none => (.error (.keyNotFound b k), ws)
    | .set b k value => (.ok .written, ws.stage b k (some value))
    | .delete b k => (.ok .deleted, ws.stage b k none)
    | .compareAndSwap b k old new =>
      let result := Swap.evaluate slot.current old
      (.ok (.swap result), if result.swapped then ws.stage b k (some new) else ws)

/-- Applies operations in order, up to the first that fails. -/
def execute (ws : WriteSet) : Transaction → Except Failure TxOutcome × WriteSet
  | [] => (.ok [], ws)
  | op :: rest =>
    match ws.apply op with
    | (.error f, ws) => (.error f, ws)
    | (.ok result, ws) =>
      let (results, ws) := execute ws rest
      (results.map (result :: ·), ws)

/-- The keys whose value is to change, in order of loading. -/
def changes (ws : WriteSet) : List Change :=
  ws.slots.filterMap fun e =>
    if e.2.committed = e.2.current then none else some ⟨e.1.1, e.1.2, e.2.current⟩

/-- Loads every touched key once and applies the operations. -/
def evaluate {m : Type → Type} [Monad m] [MonadExceptOf Failure m]
    (load : Bytes → Bytes → m (Option Bytes)) (tx : Transaction) : m (WriteSet × TxOutcome) := do
  let ws ← tx.touched.foldlM (fun ws place => return ws.load place.1 place.2 (← load place.1 place.2))
    ({} : WriteSet)
  match ws.execute tx with
  | (.ok outcome, ws) => return (ws, outcome)
  | (.error f, _) => throw f

end WriteSet

end BucketStore
