/-
  BucketStore/Listing.lean
  ========================
  **Listing a bucket page by page, without ever giving a part of it.**

  A `Paginator` asks for a page, takes its entries, and asks again as long as
  pages name a place to go on from.  Its four states admit no answer before the
  last page: `finish` fails in every state but `done`, and a failed page leaves
  the state `accumulating`, from which nothing leads on.
-/
import BucketStore.Action
import BucketStore.Entry
import BucketStore.Program

namespace BucketStore

/-! ### Pages -/

/-- The place behind the last item of a page. -/
abbrev Token := Bytes

/-- Some items, and where to go on if there may be more. -/
structure Page (τ : Type) where
  items : List τ
  next : Option Token
deriving DecidableEq, Repr

/-- How many items are looked at for a page: one more than it holds, to learn whether it is the last.
    The number is one of 64 bits, and there is none behind the greatest size; a size of zero counts
    as one. -/
def lookAhead (size : UInt64) : Except Failure Nat :=
  let held := (max size 1).toNat
  if held + 1 < UInt64.size then .ok (held + 1) else .error .overflow

/-! ### The paginator -/

inductive ListState where
  | start
  | fetching (token : Option Token)
  | accumulating
  | done
deriving DecidableEq, Repr

structure Paginator where
  state : ListState := .start
  /-- The token of the last page that had one. -/
  lastToken : Option Token := none
  entries : List Entry := []
  pages : Nat := 0
deriving DecidableEq, Repr

namespace Paginator

variable {τ : Type}

/-- The token to fetch the next page with, or `none` if there is none to fetch. -/
def nextFetch (p : Paginator) : Option (Option Token) × Paginator :=
  match p.state with
  | .start => (some none, { p with state := .fetching none })
  | .fetching token => (some token, p)
  | .accumulating | .done => (none, p)

/-- The entries of the items; items without an entry are left out. -/
def decodeAll (decode : τ → Except Failure (Option Entry)) : List τ → Except Failure (List Entry)
  | [] => .ok []
  | item :: rest => do
    let entry ← decode item
    let entries ← decodeAll decode rest
    return entry.toList ++ entries

/-- The entries of the items in front of the first that cannot be decoded. -/
def decoded (decode : τ → Except Failure (Option Entry)) : List τ → List Entry
  | [] => []
  | item :: rest =>
    match decode item with
    | .error _ => []
    | .ok entry => entry.toList ++ decoded decode rest

/-- Where a listing goes on after a page that leads to `next`. -/
def advance (p : Paginator) (next : Option Token) : Except Failure Unit × Paginator :=
  match next with
  | none => (.ok (), { p with state := .done })
  | some token =>
    if p.lastToken = some token then (.error .repeatedToken, p)
    else (.ok (), { p with state := .fetching (some token), lastToken := some token })

/-- Takes in a page that was fetched. The entries in front of an item that cannot be decoded are
    kept, though none of them can be given any more. -/
def accumulate (decode : τ → Except Failure (Option Entry)) (page : Page τ) (p : Paginator) :
    Except Failure Unit × Paginator :=
  match p.state with
  | .fetching _ =>
    let p := { p with state := .accumulating, pages := p.pages + 1 }
    match decodeAll decode page.items with
    | .error f => (.error f, { p with entries := p.entries ++ decoded decode page.items })
    | .ok entries => { p with entries := p.entries ++ entries }.advance page.next
  | _ => (.error .pageOutsideFetch, p)

/-- The entries of all pages, once the last one is taken in. -/
def finish (p : Paginator) : Except Failure (List Entry) :=
  match p.state with
  | .done => .ok p.entries
  | _ => .error .unfinishedListing

end Paginator

/-! ### Draining a source of pages -/

section Drain

variable {m : Type → Type} [Monad m] [MonadExceptOf Failure m] {γ τ : Type}

/-- Fetches and takes in pages until there is none to fetch, at most `limit` of them. What a fetch
    remembers for the next one is threaded through. -/
def drain (fetch : γ → Option Token → m (Page τ × γ)) (decode : τ → Except Failure (Option Entry)) :
    Nat → γ → Paginator → m Paginator
  | 0, _, p => pure p
  | limit + 1, memory, p =>
    match p.nextFetch with
    | (none, p) => pure p
    | (some token, p) => do
      let (page, memory) ← fetch memory token
      match p.accumulate decode page with
      | (.error f, _) => throw f
      | (.ok (), p) => drain fetch decode limit memory p

/-- All entries of a source of pages. A source that has not ended after `limit` pages is an
    unfinished listing. -/
def listAll (fetch : γ → Option Token → m (Page τ × γ)) (decode : τ → Except Failure (Option Entry))
    (limit : Nat) (memory : γ) : m (List Entry) := do
  let p ← drain fetch decode limit memory {}
  match p.finish with
  | .ok entries => pure entries
  | .error f => throw f

end Drain

end BucketStore
