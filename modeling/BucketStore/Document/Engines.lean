/-
  BucketStore/Document/Engines.lean
  =================================
  **The document forms of what the engines are set up with.**

  Settings are reported as fields, numbers among them as decimal text.  Attributes
  are fields of one letter, and the bytes of an attribute are hexadecimal text.
-/
import BucketStore.Document.Options
import BucketStore.Dynamo.Item
import BucketStore.Dynamo.Config
import BucketStore.Keyspace.Config
import BucketStore.Memory
import BucketStore.Sql.Config
import BucketStore.Sql.Fault
import BucketStore.TableFile.Driver

namespace BucketStore

/-! ### Settings -/

instance : ToDocument Memory.Config := ⟨fun c => .fields [("page_size", .decimal c.pageSize.toNat)]⟩

/-- The settings of a table file, without its path. -/
def TableFile.Config.fields (c : TableFile.Config) : List (String × Document) := [
  ("page_size", .decimal c.pageSize.toNat),
  ("cache_size", .setting (c.cacheSize.map Int.ofNat))]

/-- The settings of a keyspace, without its path. -/
def Keyspace.Config.fields (c : Keyspace.Config) : List (String × Document) := [
  ("cache_size", .decimal c.cacheSize),
  ("fsync_ms", .decimal c.fsyncMs),
  ("page_size", .decimal c.pageSize.toNat),
  ("max_journaling_size", .decimal c.maxJournalingSize),
  ("max_write_buffer_size", .decimal c.maxWriteBufferSize),
  ("bloom_filter_bits", .decimal c.bloomFilterBits),
  ("max_memtable_size", .decimal c.maxMemtableSize),
  ("block_size", .decimal c.blockSize)]

/-- The settings of a keyspace with one of them changed, as a call on them says. -/
def Keyspace.Config.call (c : Keyspace.Config) (d : Document) : Reading Keyspace.Config := do
  match ← d.invocation with
  | ("db_path", [p]) => return c.withPath (← ofDocument p)
  | ("page_size", [n]) => return c.withPageSize (← ofDocument n)
  | ("cache_size", [n]) => return { c with cacheSize := ← ofDocument n }
  | ("fsync_ms", [n]) => return { c with fsyncMs := ← ofDocument n }
  | ("flush_workers", [n]) => return c.withFlushWorkers (← ofDocument n)
  | ("compaction_workers", [n]) => return c.withCompactionWorkers (← ofDocument n)
  | ("max_journaling_size", [n]) => return { c with maxJournalingSize := ← ofDocument n }
  | ("max_write_buffer_size", [n]) => return { c with maxWriteBufferSize := ← ofDocument n }
  | ("bloom_filter_bits", [n]) => return { c with bloomFilterBits := ← ofDocument n }
  | ("max_memtable_size", [n]) => return { c with maxMemtableSize := ← ofDocument n }
  | ("block_size", [n]) => return { c with blockSize := ← ofDocument n }
  | (name, _) => .error s!"no such setting: {name}"

instance : ToDocument Sql.Config where
  toDocument c := .fields [
    ("url", c.url),
    ("redacted_url", c.redactedUrl),
    ("database", c.database),
    ("max_connections", .decimal c.maxConnections),
    ("page_size", .decimal c.pageSize.toNat)]

instance : ToDocument Dynamo.Billing where
  toDocument
    | .onDemand => "on_demand"
    | .provisioned read write => .list [.decimal read, .decimal write]

instance : ToDocument Dynamo.Config where
  toDocument c := .fields [
    ("region", c.region),
    ("credentials", c.credentials.display),
    ("consistent_read", c.consistentRead),
    ("endpoint_url", c.endpointUrl),
    ("billing", c.billing),
    ("staging", c.staging)]

/-! ### Statements -/

instance : OfDocument Sql.Dialect :=
  ⟨Document.labelled [("postgres", .postgres), ("mysql", .mysql)]⟩

instance : ToDocument Sql.CodeClass := ⟨.label [
  ("DuplicateKey", .duplicateKey), ("MissingTable", .missingTable), ("TableExists", .tableExists),
  ("Other", .other)]⟩

/-- How a dialect writes each statement about a table that is written as given. -/
def Sql.Dialect.statements (d : Sql.Dialect) (table : String) : Document :=
  let on (s : Sql.TableStatement) : Document := s.text d table
  .fields [
    ("name", d.name),
    ("create_table", on .create),
    ("drop_table", on .drop),
    ("select_value", on (.select false [])),
    ("select_value_for_update", on (.select true [])),
    ("insert", on (.insert [] [])),
    ("upsert", on (.upsert [] [])),
    ("update_value", on (.updateValue [] [])),
    ("delete", on (.delete [])),
    ("first_page", on (.firstPage 1)),
    ("next_page", on (.nextPage [] 1)),
    ("repeatable_read", Sql.Isolation.repeatableRead.text),
    ("update_isolation", d.updateIsolation.text),
    ("isolation_precedes_begin", if d.isolatesFirst then "true" else "false"),
    ("version_query", Sql.Statement.version.text d)]

/-! ### Attributes -/

instance : ToDocument Dynamo.Attribute where
  toDocument
    | .text s => .fields [("S", s)]
    | .blob b => .fields [("B", .hex b)]
    | .number s => .fields [("N", s)]
    | .truth b => .fields [("BOOL", b)]
    | .null => .fields [("NULL", true)]
    | .other type content => .fields [(type, content)]

instance : OfDocument Dynamo.Attribute where
  ofDocument d := do
    match ← d.tagged with
    | ("S", s) => return .text (← ofDocument s)
    | ("B", .text digits) => return .blob (← Document.hexDigits digits.toList)
    | ("N", s) => return .number (← ofDocument s)
    | ("BOOL", b) => return .truth (← ofDocument b)
    | ("NULL", _) => return .null
    | (name, _) => .error s!"no such attribute: {name}"

instance : ToDocument Dynamo.Attributes :=
  ⟨fun attributes => .fields (attributes.entries.map fun (name, a) => (name, toDocument a))⟩

instance : OfDocument Dynamo.Attributes where
  ofDocument
    | .fields fields => return .ofList (← fields.mapM fun (name, a) => return (name, ← ofDocument a))
    | _ => .error "fields were expected"

end BucketStore
