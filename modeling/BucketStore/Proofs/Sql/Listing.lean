/-
  BucketStore/Proofs/Sql/Listing.lean
  ===================================
  **Listing a table by statements with a limit.**

  A page is asked for with one row more than it holds, as far as a signed number
  goes.  That row tells whether the page is the last, unless no row was left behind
  (`Reaches`), and then the pages are those of the map that the table is.  For a page
  of the greatest size there is no number of rows to ask for (`list_greatest`).
-/
import BucketStore.Proofs.Listing
import BucketStore.Proofs.Sql.Calls

namespace BucketStore.Sql

open Program hiding bind
open Protocol

variable {d : Dialect} {c : Client Server} {m : Memory.Store} {version : String} {table : Table}
  {tables saved : Tables} {bucket : Bytes} {found : Rows} {size : UInt64} {token : Option Token}

/-! ### Limits -/

/-- One row more than a page holds, as far as a signed number goes. -/
def rowLimit (size : UInt64) : Nat := min (max size.toNat 1 + 1) Int64.maxValue.toInt.toNat

theorem pageLimit_eq (hsize : size.toNat + 1 < UInt64.size) : pageLimit size = .ok (rowLimit size) := by
  unfold pageLimit
  rw [lookAhead_eq hsize]
  rfl

theorem pageLimit_greatest (hsize : ¬size.toNat + 1 < UInt64.size) :
    pageLimit size = .error .overflow := by
  unfold pageLimit
  rw [lookAhead_greatest hsize]
  rfl

/-- The limit of a page leaves room for one row more than the page holds, or for all the rows. -/
def Reaches (size : UInt64) (count : Nat) : Prop :=
  max size.toNat 1 < rowLimit size ∨ count ≤ rowLimit size

theorem Reaches.mono {count count' : Nat} (h : Reaches size count) (hle : count' ≤ count) :
    Reaches size count' := h.imp id (Nat.le_trans hle)

/-- Short of the greatest page sizes the limit leaves room for the one row more, and up to them it
    does for as many rows as a signed number counts. -/
theorem reaches_of_size {count : Nat} (h : size.toNat + 1 < 2 ^ 63 ∨ count < 2 ^ 63) :
    Reaches size count := by
  have hmost : Int64.maxValue.toInt.toNat = 2 ^ 63 - 1 := by decide
  unfold Reaches rowLimit
  rw [hmost]
  omega

/-- A page cut from the rows up to the limit is cut as from all of them. -/
theorem page_take {l : List (Bytes × Bytes)} (h : Reaches size l.length) :
    Keyset.page size ((l.take (rowLimit size)).map .ok) =
      .ok ⟨l.take (max size 1).toNat, if (max size 1).toNat < l.length then
        (l.take (max size 1).toNat).getLast?.map (·.1) else none⟩ := by
  unfold Reaches at h
  rw [← max_one_toNat] at h
  unfold Keyset.page
  simp only [fill_ok, bind, Except.bind, pure, Except.pure, decide_eq_true_eq]
  rcases h with hmore | hall
  · have hlonger : (max size 1).toNat < (l.take (rowLimit size)).length ↔
        (max size 1).toNat < l.length := by
      rw [List.length_take]
      omega
    rw [List.take_take, Nat.min_eq_left (Nat.le_of_lt hmore)]
    simp only [hlonger]
  · rw [List.take_of_length_le hall]

/-! ### Pages -/

/-- Short of the greatest size, fetching a page is one statement. -/
theorem fetchPage_eq (hsize : size.toNat + 1 < UInt64.size) (token : Option Token) :
    fetchPage d bucket table size token = (do
      let rows ← execute (·.bucketFailure d bucket) (.on table (match token with
        | none => .firstPage (rowLimit size)
        | some after => .nextPage after (rowLimit size)))
      .ofExcept (Keyset.page size (rows.map (readPair d)))) := by
  unfold fetchPage
  rw [pageLimit_eq hsize]
  cases token <;> rfl

section

variable (h : Working version saved tables c) (hsize : size.toNat + 1 < UInt64.size)
include h hsize

/-- A table's page is cut from the rows behind a token, up to the limit. -/
theorem yields_fetchPage {page : Page (Bytes × Bytes)} (hfound : tables.get? table.name = some found)
    (hpage : Keyset.page size (((found.after token).take (rowLimit size)).map .ok) = .ok page) :
    (fetchPage d bucket table size token).Yields (talking d) c page (Working version saved tables) := by
  have hlimit : rowLimit size ≤ Int64.maxValue.toInt.toNat := Nat.min_le_right ..
  have hread : Keyset.page size ((((found.after token).take (rowLimit size)).map pairRow).map
      (readPair d)) = .ok page := by
    have hrows : readPair d ∘ pairRow = .ok := rfl
    rw [List.map_map, hrows, hpage]
  rw [fetchPage_eq hsize]
  cases token with
  | none =>
    have hmeaning : (TableStatement.firstPage (rowLimit size)).meaning (tables.get? table.name) =
        .ok (((found.after none).take (rowLimit size)).map pairRow, tables.get? table.name) := by
      rw [hfound]
      rfl
    refine (h.execute hmeaning hlimit id).then fun c' hc' => yields_ofExcept hread ?_
    rwa [KeyMap.put_get?] at hc'
  | some after =>
    have hmeaning : (TableStatement.nextPage after (rowLimit size)).meaning (tables.get? table.name) =
        .ok (((found.after (some after)).take (rowLimit size)).map pairRow,
          tables.get? table.name) := by
      rw [hfound]
      rfl
    refine (h.execute hmeaning hlimit id).then fun c' hc' => yields_ofExcept hread ?_
    rwa [KeyMap.put_get?] at hc'

theorem ensures_fetchPage_missing (hmissing : tables.get? table.name = none) :
    (fetchPage d bucket table size token).Ensures (talking d) c fun r c' =>
      r = .error (.bucketNotFound bucket) ∧ Begun version saved c' := by
  have hlimit : rowLimit size ≤ Int64.maxValue.toInt.toNat := Nat.min_le_right ..
  rw [fetchPage_eq hsize]
  cases token with
  | none =>
    refine ensures_bind.mpr (h.missing (t := .firstPage _) hlimit id hmissing fun c' hc' => ?_)
    exact ⟨rfl, hc'⟩
  | some after =>
    refine ensures_bind.mpr (h.missing (t := .nextPage after _) hlimit id hmissing fun c' hc' => ?_)
    exact ⟨rfl, hc'⟩

end

/-! ### Listings -/

/-- What a listing does in its transaction. -/
def listing (d : Dialect) (size : UInt64) (bucket : Bytes) (table : Table) (limit : Nat) :
    Protocol (List Entry) := do
  beginIsolated d .repeatableRead
  let entries ← listAll (fun () token => return (← fetchPage d bucket table size token, ()))
    (fun pair => .ok (some (Keyset.entry bucket pair))) limit ()
  commit d
  return entries

theorem list_eq (hadmits : d.Admits bucket) (htable : d.table bucket = .ok table)
    (limit : String → Nat) : list d size limit bucket =
      ((transaction (listing d size bucket table (limit table.name))).noteFailure (unlessMissing fun f =>
        s!"Failed to list {Text.Utf8.lossy bucket}: {f.message}")).mapFailure
          (.duringBucket "list" bucket) := by
  unfold list listing
  rw [named_bind hadmits htable]

/-- The pages of a table are read in a transaction of their own, which changes nothing. -/
theorem yields_listing {pages : Option Token → Page (Bytes × Bytes)} {entries : List Entry}
    {limit : Nat} (hpages : ∀ token c, Working version tables tables c →
      (fetchPage d bucket table size token).Yields (talking d) c (pages token)
        (Working version tables tables))
    (hlist : listAll (m := Except Failure) (fun () token => .ok (pages token, ()))
      (fun pair => .ok (some (Keyset.entry bucket pair))) limit () = .ok entries) :
    (listing d size bucket table limit).Yields (talking d) (resting version tables) entries
      (· = resting version tables) := by
  have hfetch : ∀ (_ : Unit) token c, Working version tables tables c →
      (do return (← fetchPage d bucket table size token, ()) : Protocol _).Ensures (talking d) c
        fun r c' => ∃ memory', r = .ok (pages token, memory') ∧ Working version tables tables c' :=
    fun _ token c hc => (hpages token c hc).then fun _ hc' => ⟨(), rfl, hc'⟩
  unfold listing
  refine (yields_beginIsolated _).then fun c hbegun => ?_
  refine Ensures.bind (ensures_listAll hfetch hbegun hlist) ?_ ?_
  · rintro entries' c' ⟨hentries, _, hworking⟩
    cases hentries
    refine hworking.commit.then ?_
    rintro _ rfl
    exact ⟨rfl, rfl⟩
  · rintro f _ ⟨hentries, _⟩
    cases hentries

/-- The first page decides of a listing that fails. -/
theorem listing_fails {f : Failure} {limit : Nat} (hlimit : 0 < limit)
    (hfirst : ∀ c, Working version tables tables c →
      (fetchPage d bucket table size none).Ensures (talking d) c fun r c' =>
        r = .error f ∧ Begun version tables c') :
    (listing d size bucket table limit).Ensures (talking d) (resting version tables) fun r c =>
      r = .error f ∧ Begun version tables c := by
  unfold listing
  refine (yields_beginIsolated _).then fun c hbegun => ensures_bind.mpr ?_
  refine ensures_listAll_fails hlimit (ensures_bind.mpr ((hfirst c hbegun).mono ?_))
  rintro _ c' ⟨rfl, hc'⟩
  exact ⟨f, rfl, rfl, hc'⟩

section

variable (hopen : m.closed = false) (hkeeps : (tableNaming d).Keeps id tables m.buckets)
  (hadmits : d.Admits bucket) (hsize : size.toNat + 1 < UInt64.size) {limit : String → Nat}
  (hlimit : ∀ name, ((tables.get? name).map KeyMap.size).getD 0 < limit name)
include hopen hkeeps hadmits hsize hlimit

theorem list_agrees (config : Memory.Config)
    (hreaches : ∀ found, m.buckets.get? bucket = some found → Reaches size found.size) :
    (list d size limit bucket).Ensures (talking d) (resting version tables)
      (Agrees d (Memory.list config bucket m)) := by
  obtain ⟨table, htable⟩ := table_of_admits hadmits
  have hsame := table_found hkeeps htable
  have hpages := hlimit table.name
  have hlisted : (transaction (listing d size bucket table (limit table.name))).Ensures (talking d)
      (resting version tables) (Agrees d ⟨(Memory.bucket bucket m).reply.map fun found =>
        found.entries.map (Keyset.entry bucket), m, []⟩) := by
    rw [Memory.bucket_run]
    rw [hsame] at hpages
    cases hbucket : m.buckets.get? bucket with
    | none =>
      rw [hbucket] at hsame hpages
      refine transaction_fails hopen hkeeps rfl (listing_fails hpages fun c hc => ?_)
      exact ensures_fetchPage_missing hc hsize hsame
    | some found =>
      rw [hbucket] at hsame hpages
      apply transaction_answers
      have hcut : ∀ token c, Working version tables tables c →
          (fetchPage d bucket table size token).Yields (talking d) c
            (pageOf (max size 1).toNat id found token) (Working version tables tables) := by
        intro token c hc
        apply yields_fetchPage hc hsize hsame
        have hless : (found.after token).length ≤ found.size := by
          cases token with
          | none => exact Nat.le_refl _
          | some after => exact List.length_filter_le _ _
        rw [page_take ((hreaches found hbucket).mono hless)]
        unfold pageOf
        rw [List.map_id]
      refine (yields_listing hcut (listAll_entries bucket found (max_one_pos size) hpages)).mono ?_
      rintro _ rfl
      exact mirrors_resting version hopen hkeeps
  rw [Memory.list_run hopen, checkBucket_of_admits hadmits, list_eq hadmits htable, ensures_mapFailure,
    ensures_noteFailure]
  apply hlisted.mono
  exact fun _ _ hagrees => hagrees.reworded fun _ => rfl

end

/-- For pages of the greatest size the one row more cannot be counted. Every listing panics then, and
    nothing is changed. -/
theorem list_greatest (hadmits : d.Admits bucket) (hsize : ¬size.toNat + 1 < UInt64.size)
    {limit : String → Nat} (hlimit : ∀ name, 0 < limit name) :
    (list d size limit bucket).Ensures (talking d) (resting version tables) fun r c =>
      r = .error (.duringBucket "list" bucket .overflow) ∧ c = resting version tables := by
  obtain ⟨table, htable⟩ := table_of_admits hadmits
  have hlisted : (listing d size bucket table (limit table.name)).Ensures (talking d)
      (resting version tables) fun r c => r = .error .overflow ∧ Begun version tables c := by
    refine listing_fails (hlimit table.name) fun c hc => ?_
    unfold fetchPage
    rw [pageLimit_greatest hsize]
    exact ⟨rfl, hc.toBegun⟩
  rw [list_eq hadmits htable, ensures_mapFailure, ensures_noteFailure]
  refine ensures_transaction (hlisted.mono ?_)
  rintro _ c ⟨rfl, hbegun⟩
  exact ⟨hbegun, rfl, rfl⟩

end BucketStore.Sql
