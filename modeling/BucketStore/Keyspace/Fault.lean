/-
  BucketStore/Keyspace/Fault.lean
  ===============================
  **What a keyspace reports, and which kind of failure that is.**

  The engine tells its faults in words only, so the kind is read off the words,
  in any case of letters; only the word for a deleted partition is looked for as
  it stands.  Lowering ASCII letters is enough: of the other letters only the
  Kelvin sign and the dotted I have ASCII in their lower case, and no word looked
  for has a k, or an i with a combining dot behind it.
-/
import BucketStore.Failure
import BucketStore.Text.Blank

namespace BucketStore.Keyspace

/-- The kind of failure that a fault of those words is. -/
def faultKind (text : String) : Kind :=
  let lower := Text.lowerAscii text
  let tells (word : String) := Text.containsText lower word
  if tells "closed" || tells "poisoned" then .closed
  else if Text.containsText text "deleted" || Text.containsText text "PartitionDeleted" then .notFound
  else if tells "corrupt" || tells "recovery" || tells "version" then .backend
  else if tells "io error" || tells "os error" then .unavailable
  else .backend

def faultFailure (text : String) : Failure :=
  .foreign (faultKind text) s!"Fjall Error: {text}" { text }

end BucketStore.Keyspace
