/-
  BucketStore/Workload.lean
  =========================
  **Data sets to measure drivers with.**

  Keys are numbered and padded, so that their order is that of their numbers up to
  ten digits.  Values are pseudo-random bytes, drawn from a generator that is
  given.
-/
import BucketStore.Driver
import BucketStore.Options

namespace BucketStore.Workload

structure Config where
  entryCounts : List Nat := [100, 1000, 10000]
  valueSize : Nat := 128
  pageSize : UInt64 := defaultPageSize
deriving DecidableEq, Repr

def Config.quick : Config := { entryCounts := [100, 1000] }

/-- The engines that need nothing but this machine. -/
def localBackends : List Backend := [.memory, .fjall, .redb]

def bucket : Bytes := Bytes.ofString "bench"

def keyOf (n : Nat) : Bytes :=
  let digits := toString n
  Bytes.ofString ("key-" ++ String.ofList (List.replicate (10 - digits.length) '0') ++ digits)

/-- Pseudo-random bytes, and the generator to go on with. -/
def randomBytes : Nat → StdGen → Bytes × StdGen
  | 0, gen => ([], gen)
  | n + 1, gen =>
    let (b, gen) := randNat gen 0 255
    let (rest, gen) := randomBytes n gen
    (UInt8.ofNat b :: rest, gen)

/-- So many entries of a bucket from a number on, each value of a size. -/
def entriesFrom (bucket : Bytes) (valueSize : Nat) (number : Nat) : Nat → StdGen → List Entry
  | 0, _ => []
  | count + 1, gen =>
    let (value, gen) := randomBytes valueSize gen
    ⟨bucket, keyOf number, value⟩ :: entriesFrom bucket valueSize (number + 1) count gen

/-- So many entries of a bucket, each value of a size. -/
def entries (bucket : Bytes) (count valueSize : Nat) (gen : StdGen) : List Entry :=
  entriesFrom bucket valueSize 0 count gen

/-- Pseudo-random numbers of entries, each below the count. -/
def randomNumbers (count : Nat) : Nat → StdGen → List Nat
  | 0, _ => []
  | samples + 1, gen =>
    let (n, gen) := randNat gen 0 (max count 1 - 1)
    n :: randomNumbers count samples gen

/-- Creates the bucket and writes entries one by one. -/
def populate {σ : Type} (d : Driver σ) (entries : List Entry) : Action σ Unit := do
  d.create bucket
  entries.forM fun e => d.set e.bucket e.key e.value

end BucketStore.Workload
