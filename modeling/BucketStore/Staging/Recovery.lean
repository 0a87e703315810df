/-
  BucketStore/Staging/Recovery.lean
  =================================
  **Finishing the transactions that their clients left behind.**

  Recovery looks at every record of a bucket.  Committed transactions are rolled
  forward, aborted ones back; a pending one is aborted first if it has expired, and
  left alone if not.
-/
import BucketStore.Staging.Update

namespace BucketStore.Staging

/-- What recovery did with the records it found. -/
structure RecoveryReport where
  rolledForward : Nat := 0
  rolledBack : Nat := 0
  /-- Pending transactions that were left alone. -/
  inFlight : Nat := 0
deriving DecidableEq, Repr

namespace RecoveryReport

def forward (r : RecoveryReport) : RecoveryReport := { r with rolledForward := r.rolledForward + 1 }

def back (r : RecoveryReport) : RecoveryReport := { r with rolledBack := r.rolledBack + 1 }

def alone (r : RecoveryReport) : RecoveryReport := { r with inFlight := r.inFlight + 1 }

end RecoveryReport

/-! ### Finding records -/

/-- The records among the items of a page, with their stored forms. -/
def recordsOf : List (Bytes × Item) → Except Failure (List (Record × Bytes))
  | [] => .ok []
  | (key, item) :: rest =>
    match isReservedKey key, item.value with
    | true, some bytes => do
      let record ← Record.decode bytes
      return (record, bytes) :: (← recordsOf rest)
    | _, _ => recordsOf rest

/-- The records of a bucket behind a token, from at most `limit` pages. -/
def findRecords (config : Config) (bucket : Bytes) :
    Nat → Option Token → Protocol (List (Record × Bytes))
  | 0, _ => .fail .unfinishedListing
  | limit + 1, token => do
    let page ← .scan bucket token config.pageSize
    let found ← .ofExcept (recordsOf page.items)
    match page.next with
    | none => return found
    | some next => return found ++ (← findRecords config bucket limit (some next))

/-! ### Finishing them -/

/-- Rolls the keys of a decided transaction forward or back, where it still holds them. -/
def settleKeys (record : Record) (forward : Bool) : List (Bytes × Bytes) → Protocol Unit
  | [] => .done ()
  | (bucket, key) :: rest =>
    .call (.load bucket key) fun
      | .ok none => settleKeys record forward rest
      | .error f => if f.isNotFound then settleKeys record forward rest else .fail f
      | .ok (some item) => do
        match item.lock with
        | some lock =>
          if lock.owner = record.id then
            if forward then discard (rollForward bucket key item lock)
            else discard (rollBack bucket key item.value record.id)
        | none => pure ()
        settleKeys record forward rest

/-- Settles the keys of a decided transaction and deletes its record. -/
def settle (recordBucket : Bytes) (record : Record) (forward : Bool) : Protocol Unit := do
  settleKeys record forward record.keys
  reclaim recordBucket record

def recoverRecord (config : Config) (bucket : Bytes) (report : RecoveryReport)
    (found : Record × Bytes) : Protocol RecoveryReport := do
  let (record, bytes) := found
  match record.state with
  | .committed =>
    settle bucket record true
    return report.forward
  | .aborted =>
    settle bucket record false
    return report.back
  | .pending =>
    let now ← Protocol.now
    if record.isExpired config.lockTimeout now then
      let aborted ← Protocol.transition record .aborted
      if ← .write bucket aborted.key (some aborted.item) (.valueEquals bytes) then
        settle bucket aborted false
        return report.back
      else return report.alone
    else return report.alone
  | .reclaimed => return report.alone

/-- Deals with every record of a bucket, found on at most `limit` pages. -/
def recoverBucket (config : Config) (limit : Nat) (bucket : Bytes) : Protocol RecoveryReport := do
  let records ← findRecords config bucket limit none
  let report ← records.foldlM (recoverRecord config bucket) {}
  if report ≠ {} then
    .log (Log.debug
      s!"Recovered bucket {Text.Utf8.lossy bucket}: {report.rolledForward} rolled forward, {report.rolledBack} rolled back, {report.inFlight} in flight")
  return report

end BucketStore.Staging
