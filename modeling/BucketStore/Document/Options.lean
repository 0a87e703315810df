/-
  BucketStore/Document/Options.lean
  =================================
  **The document forms of options and of the settings derived from them.**

  Numbers of settings are reported as decimal text, since some of them exceed
  what readers of documents take for exact.
-/
import BucketStore.Document.Values
import BucketStore.Options
import BucketStore.Staging.Config

namespace BucketStore

def Consistency.label : Consistency → String
  | .strong => "Strong"
  | .eventual => "Eventual"

def Document.setting (n : Option Int) : Document := n.map Document.decimal

instance : ToDocument Options where
  toDocument o := .fields [
    ("credentials", o.credentials.display),
    ("secret", o.credentials.secret?),
    ("consistency", o.consistency.label),
    ("page_size", .decimal o.pageSize.toNat),
    ("database", o.database),
    ("endpoint_url", o.endpointUrl),
    ("max_connections", .decimal o.maxConnections),
    ("lock_timeout_ms", .decimal o.lockTimeout),
    ("emulated_transactions", o.emulatedTransactions),
    ("read_capacity", .setting o.readCapacity),
    ("write_capacity", .setting o.writeCapacity),
    ("cache_size", .setting (o.cacheSize.map Int.ofNat)),
    ("fsync_ms", .setting (o.fsyncMs.map Int.ofNat))]

instance : ToDocument Staging.Config where
  toDocument c := .fields [
    ("page_size", .decimal c.pageSize.toNat),
    ("lock_timeout_ms", .decimal c.lockTimeout),
    ("emulated_transactions", c.emulatedTransactions)]

/-- Options with one setting changed, as a call on them says. -/
def Options.call (o : Options) (d : Document) : Reading Options := do
  match ← d.invocation with
  | ("credentials", [.text "default"]) => return { o with credentials := .default }
  | ("credentials", [.text "environment"]) => return { o with credentials := .environment }
  | ("credentials", [.text name]) => return { o with credentials := .profile name }
  | ("static_credentials", [id, secret]) =>
    return { o with credentials := .keys (← ofDocument id) (← ofDocument secret) }
  | ("consistency", [v]) =>
    return { o with consistency := if (← ofDocument v) == "eventual" then .eventual else .strong }
  | ("page_size", [n]) => return o.withPageSize (← ofDocument n)
  | ("database", [v]) => return { o with database := some (← ofDocument v) }
  | ("endpoint_url", [v]) => return { o with endpointUrl := some (← ofDocument v) }
  | ("max_connections", [n]) => return o.withMaxConnections (← ofDocument n)
  | ("lock_timeout_ms", [n]) => return { o with lockTimeout := ← ofDocument n }
  | ("emulated_transactions", [b]) => return { o with emulatedTransactions := ← ofDocument b }
  | ("read_capacity", [n]) => return { o with readCapacity := some (← ofDocument n) }
  | ("write_capacity", [n]) => return { o with writeCapacity := some (← ofDocument n) }
  | ("cache_size", [n]) => return { o with cacheSize := some (← ofDocument n) }
  | ("fsync_ms", [n]) => return { o with fsyncMs := some (← ofDocument n) }
  | (name, _) => .error s!"no such setting: {name}"

instance : OfDocument Staging.Config where
  ofDocument d := do
    let unset : Staging.Config := {}
    return {
      pageSize := max (← d.getD "page_size" unset.pageSize) 1
      lockTimeout := ← d.getD "lock_timeout_ms" unset.lockTimeout
      emulatedTransactions := ← d.getD "emulated_transactions" unset.emulatedTransactions }

end BucketStore
