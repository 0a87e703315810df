/-
  BucketStore/Staging/Config.lean
  ===============================
  **The settings of staged transactions.**
-/
import BucketStore.Options

namespace BucketStore.Staging

/-- The settings of a staging engine. -/
structure Config where
  pageSize : UInt64 := defaultPageSize
  /-- The age in milliseconds at which a pending transaction may be aborted by others. -/
  lockTimeout : Nat := 30000
  /-- Are updates of several keys offered at all? -/
  emulatedTransactions : Bool := true
deriving DecidableEq, Repr

def Config.ofOptions (o : Options) : Config :=
  ⟨o.pageSize, o.lockTimeout, o.emulatedTransactions⟩

/-- The settings with another page size; a size of zero is raised to one. -/
def Config.withPageSize (c : Config) (n : UInt64) : Config := { c with pageSize := max n 1 }

end BucketStore.Staging
