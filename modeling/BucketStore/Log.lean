/-
  BucketStore/Log.lean
  ====================
  **The lines that operations write to the log.**
-/

namespace BucketStore.Log

inductive Level where
  | error
  | warn
  | debug
deriving DecidableEq, Repr

structure Line where
  level : Level
  text : String
deriving DecidableEq, Repr

def error (text : String) : Line := ⟨.error, text⟩

/-- A line about something that went another way than planned. -/
def warn (text : String) : Line := ⟨.warn, text⟩

def debug (text : String) : Line := ⟨.debug, text⟩

end BucketStore.Log
