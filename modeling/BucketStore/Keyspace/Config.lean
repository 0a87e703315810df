/-
  BucketStore/Keyspace/Config.lean
  ================================
  **The settings of a keyspace.**
-/
import BucketStore.Options

namespace BucketStore.Keyspace

def mebibytes (n : Nat) : Nat := n * 1024 * 1024

/-- The settings of a keyspace. Numbers of workers that are not set are left to the machine. -/
structure Config where
  path? : Option String := none
  cacheSize : Nat := mebibytes 96
  /-- Milliseconds between syncs of the journal; zero leaves them to the engine. -/
  fsyncMs : Nat := 0
  pageSize : UInt64 := defaultPageSize
  flushWorkers : Option Nat := none
  compactionWorkers : Option Nat := none
  maxJournalingSize : Nat := mebibytes 512
  maxWriteBufferSize : Nat := mebibytes 128
  /-- Bits per key of the filter; a negative number does without one. -/
  bloomFilterBits : Int := 10
  maxMemtableSize : Nat := mebibytes 32
  blockSize : Nat := 4 * 1024
deriving DecidableEq, Repr

namespace Config

/-- The directory; empty as long as it is not set. -/
def path (c : Config) : String := c.path?.getD ""

/-- Sets the directory. Only the first time counts. -/
def withPath (c : Config) (path : String) : Config := { c with path? := c.path?.or (some path) }

/-- The settings with another page size; a size of zero is raised to one. -/
def withPageSize (c : Config) (n : UInt64) : Config := { c with pageSize := max n 1 }

/-- The settings with a number of flush workers, at least one. -/
def withFlushWorkers (c : Config) (n : Nat) : Config := { c with flushWorkers := some (max n 1) }

/-- The settings with a number of compaction workers, at least one. -/
def withCompactionWorkers (c : Config) (n : Nat) : Config :=
  { c with compactionWorkers := some (max n 1) }

def ofOptions (path : String) (o : Options) : Config :=
  let c := ({} : Config).withPath path
  { c with
    pageSize := o.pageSize
    cacheSize := o.cacheSize.getD c.cacheSize
    fsyncMs := o.fsyncMs.getD c.fsyncMs }

end Config

end BucketStore.Keyspace
