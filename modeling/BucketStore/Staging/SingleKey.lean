/-
  BucketStore/Staging/SingleKey.lean
  ==================================
  **Reading and writing one key among the locks of transactions.**
-/
import BucketStore.Staging.Locking

namespace BucketStore.Staging

def readKey (bucket key : Bytes) : Protocol Bytes := do
  match ← .load bucket key with
  | none => .fail (.keyNotFound bucket key)
  | some item =>
    match ← visible item with
    | none => .fail (.keyNotFound bucket key)
    | some value => return value

/-- Writes a value, or removes the key for `none`. -/
def writeKey (config : Config) (bucket key : Bytes) (value : Option Bytes) : Protocol Unit :=
  retry (do
    if ← .write bucket key (value.map .plain) .unlocked then return some ()
    resolveIfLocked config bucket key
    return none) .contention maxAttempts

/-- Writes `new` if the value is `old`. The value is looked at again only after the conditional
    write was refused; another writer may change it in between. -/
def swapKey (config : Config) (bucket key : Bytes) (old : Option Bytes) (new : Bytes) :
    Protocol Swap :=
  retry (do
    if ← .write bucket key (some (.plain new)) (.unlockedWith old) then return some (.took old)
    match ← .load bucket key with
    | none => return if old.isSome then some (.mismatch none) else none
    | some item =>
      if item.isLocked then
        let seen ← visible item
        if seen ≠ old then return some (.mismatch seen)
        resolveLock config bucket key item
        return none
      else return if item.value ≠ old then some (.mismatch item.value) else none)
    .contention maxAttempts

end BucketStore.Staging
