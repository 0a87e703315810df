/-
  BucketStore/Sql/Config.lean
  ===========================
  **Where a SQL server is, and what of that may be shown.**

  A server is located by a URL, in which a password may stand.  `redactedUrl`
  puts stars in its place: what stands between the first `:` behind the scheme
  and the last `@`.
-/
import BucketStore.Options

namespace BucketStore.Sql

/-- The settings of a SQL driver. -/
structure Config where
  url : String
  /-- The database, if it is not left to the URL. -/
  database : Option String
  maxConnections : Nat
  pageSize : UInt64
deriving DecidableEq, Repr

/-- The settings that the options ask for, for the server at a trimmed URL. -/
def Config.ofOptions (url : String) (o : Options) : Except Failure Config :=
  let url := Text.trim url
  if url.isEmpty then .error (.stated .configuration "sql driver needs a connection URL")
  else .ok ⟨url, o.database, o.maxConnections, o.pageSize⟩

/-! ### Splitting texts -/

/-- Splits at the first place where `sep` stands. -/
def splitFirst (sep : List Char) : List Char → Option (List Char × List Char)
  | [] => if sep.isEmpty then some ([], []) else none
  | c :: cs =>
    if sep.isPrefixOf (c :: cs) then some ([], (c :: cs).drop sep.length)
    else (splitFirst sep cs).map fun (before, after) => (c :: before, after)

/-- Splits at the last place where a character stands. -/
def splitLast (sep : Char) : List Char → Option (List Char × List Char)
  | [] => none
  | c :: cs =>
    match splitLast sep cs with
    | some (before, after) => some (c :: before, after)
    | none => if c = sep then some ([], cs) else none

/-! ### Showing the URL -/

/-- The URL's characters with stars in place of the password. -/
def redactedChars (url : List Char) : List Char :=
  match splitFirst [':', '/', '/'] url with
  | none => url
  | some (scheme, rest) =>
    match splitLast '@' rest with
    | none => url
    | some (credentials, host) =>
      match splitFirst [':'] credentials with
      | none => url
      | some (user, _) => scheme ++ [':', '/', '/'] ++ user ++ [':', '*', '*', '*', '@'] ++ host

def Config.redactedUrl (c : Config) : String := String.ofList (redactedChars c.url.toList)

end BucketStore.Sql
