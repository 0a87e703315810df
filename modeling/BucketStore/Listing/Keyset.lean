/-
  BucketStore/Listing/Keyset.lean
  ===============================
  **Pages of an ordered map: so many bindings, then the last key as the token.**

  A keyset page is cut from bindings that already start behind the previous
  token.  One binding more than the page holds is looked at, only to learn that
  the page is not the last.
-/
import BucketStore.KeyMap
import BucketStore.Listing

namespace BucketStore.Keyset

variable {α : Type}

/-- Takes at most `n` items, and tells whether any is left. The first item that failed, up to
    there, ends it. -/
def fill : Nat → List (Except Failure α) → Except Failure (List α × Bool)
  | _, [] => .ok ([], false)
  | 0, _ :: _ => .ok ([], true)
  | n + 1, item :: rest => do
    let a ← item
    let (taken, more) ← fill n rest
    return (a :: taken, more)

/-- How many items `fill` looks at. -/
def looked : Nat → List (Except Failure α) → Nat
  | _, [] => 0
  | 0, _ :: _ => 1
  | _ + 1, .error _ :: _ => 1
  | n + 1, .ok _ :: rest => looked n rest + 1

/-- The page of the items; a size of zero counts as one. -/
def page (size : UInt64) (items : List (Except Failure (Bytes × Bytes))) :
    Except Failure (Page (Bytes × Bytes)) := do
  let (taken, more) ← fill (max size 1).toNat items
  return ⟨taken, if more then taken.getLast?.map (·.1) else none⟩

def read (map : KeyMap Bytes Bytes) (size : UInt64) (token : Option Token) :
    Except Failure (Page (Bytes × Bytes)) :=
  page size ((map.after token).map .ok)

def entry (bucket : Bytes) (pair : Bytes × Bytes) : Entry := ⟨bucket, pair.1, pair.2⟩

/-- Lists a bucket's map by keyset pages; there are no more pages than bindings, and one. -/
def list (bucket : Bytes) (map : KeyMap Bytes Bytes) (size : UInt64) : Except Failure (List Entry) :=
  listAll (fun () token => return (← read map size token, ())) (fun pair => .ok (some (entry bucket pair)))
    (map.size + 1) ()

end BucketStore.Keyset
