/-
  BucketStore/Staging/BucketListing.lean
  ======================================
  **Listing a bucket as readers see it.**

  Records are left out, and locked items show what their transaction's state says.
  The state of a transaction is asked for once in a listing, however many of its
  locks are met.
-/
import BucketStore.Staging.Locking

namespace BucketStore.Staging

/-- The states asked for so far, by transaction. -/
abbrev SeenStates := List (String × Option TxState)

/-- The state of a lock's transaction, remembered for the next lock. -/
def seenState (seen : SeenStates) (lock : Lock) : Protocol (Option TxState × SeenStates) :=
  match seen.find? fun e => e.1 == lock.owner with
  | some (_, state) => .done (state, seen)
  | none => do
    let state ← recordState lock
    return (state, (lock.owner, state) :: seen)

/-- The values that readers see in the items of a page. -/
def visibleItems (seen : SeenStates) :
    List (Bytes × Item) → Protocol (List (Bytes × Option Bytes) × SeenStates)
  | [] => .done ([], seen)
  | (key, item) :: rest =>
    if isReservedKey key then visibleItems seen rest
    else
      match item.lock with
      | none => do
        let (items, seen) ← visibleItems seen rest
        return ((key, item.value) :: items, seen)
      | some lock => do
        let (state, seen) ← seenState seen lock
        let (items, seen) ← visibleItems seen rest
        return ((key, item.visibleIn lock state) :: items, seen)

def fetchVisible (config : Config) (bucket : Bytes) (seen : SeenStates) (token : Option Token) :
    Protocol (Page (Bytes × Option Bytes) × SeenStates) := do
  let page ← .scan bucket token config.pageSize
  let (items, seen) ← visibleItems seen page.items
  return (⟨items, page.next⟩, seen)

/-- The entry of a key, unless readers see no value there. -/
def entryOf (bucket : Bytes) (seen : Bytes × Option Bytes) : Except Failure (Option Entry) :=
  .ok (seen.2.map fun value => ⟨bucket, seen.1, value⟩)

/-- Every entry of a bucket, from at most `limit` pages. -/
def listBucket (config : Config) (limit : Nat) (bucket : Bytes) : Protocol (List Entry) :=
  listAll (fetchVisible config bucket) (entryOf bucket) limit []

end BucketStore.Staging
