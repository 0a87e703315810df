/-
  BucketStore/Proofs/PageSizes.lean
  =================================
  **What is listed with the page sizes that options may ask for.**

  Options are accepted with any page size but zero (`pageSize_pos`).  A page is cut with
  one item more than it holds, to learn whether it is the last, and that number has 64
  bits (`lookAhead`).  For all sizes but the greatest the items of a store in memory are
  all listed, and so are the rows of a table, as far as a signed limit goes.  For the
  greatest size there is no such number: listing a bucket panics, and so does looking
  for its records (`accepted_page_sizes`, `greatest_page_size_panics`).
-/
import BucketStore.Proofs.Options
import BucketStore.Proofs.Sql.Listing
import BucketStore.Proofs.Staging.ListsAndGets
import BucketStore.Proofs.Staging.Recovered

namespace BucketStore

/-! ### Sizes that options are accepted with -/

namespace OptionDraft

variable {d d' : OptionDraft}

/-- Taking over a setting leaves a page size that is not zero. -/
theorem put_pageSize_pos {s : Setting} {value : String} (h : d.put s value = .ok d')
    (hd : 0 < d.options.pageSize.toNat) : 0 < d'.options.pageSize.toNat := by
  cases s with
  | credentials | accessKeyId | secretAccessKey | database | endpointUrl =>
    cases h
    exact hd
  | consistency | maxConnections | lockTimeout | emulatedTransactions | readCapacity | writeCapacity
      | cacheSize | fsyncMs =>
    obtain ⟨_, _, hput⟩ := bind_eq_ok.mp h
    cases hput
    exact hd
  | pageSize =>
    obtain ⟨n, _, hput⟩ := bind_eq_ok.mp h
    split at hput
    · cases hput
    · cases hput
      exact max_one_pos _

theorem foldlM_pageSize_pos {pairs : List (String × String)} (h : pairs.foldlM putPair d = .ok d')
    (hd : 0 < d.options.pageSize.toNat) : 0 < d'.options.pageSize.toNat := by
  induction pairs generalizing d with
  | nil =>
    cases h
    exact hd
  | cons pair rest ih =>
    rw [List.foldlM_cons] at h
    obtain ⟨d₁, hfirst, hrest⟩ := bind_eq_ok.mp h
    apply ih hrest
    unfold putPair at hfirst
    dsimp only at hfirst
    split at hfirst
    · exact put_pageSize_pos hfirst hd
    · cases hfirst

end OptionDraft

/-- Options are not accepted with a page size of zero. -/
theorem Options.pageSize_pos {pairs : List (String × String)} {o : Options}
    (h : ofPairs pairs = .ok o) : 0 < o.pageSize.toNat := by
  obtain ⟨d, hpairs, hfinish⟩ := ofPairs_eq_ok.mp h
  obtain ⟨credentials, _, hoptions⟩ := bind_eq_ok.mp hfinish
  cases hoptions
  have hfirst : 0 < ({} : OptionDraft).options.pageSize.toNat := by decide
  have hlast : 0 < d.options.pageSize.toNat := OptionDraft.foldlM_pageSize_pos hpairs hfirst
  exact hlast

/-! ### The greatest size -/

/-- The reply of a call that counts one item more than a page holds: it is `a`, unless the size is the
    greatest; then the call panics. -/
structure Counts {α : Type} (size : UInt64) (r : Except Failure α) (a : α) : Prop where
  counted : size.toNat + 1 < UInt64.size → r = .ok a
  uncounted : ¬size.toNat + 1 < UInt64.size → ∃ f, r = .error f ∧ f.panics = true

namespace Staging

open MemoryItems

variable {around : Surroundings} {t : Trouble} {s : MemoryItems} {config : Config} {bucket : Bytes}
  {size : UInt64}

theorem scan_greatest (hsize : ¬size.toNat + 1 < UInt64.size) (hoffers : s.Offers bucket)
    (token : Option Token) : s.scan bucket token size = .error .overflow := by
  unfold scan
  cases hitems : s.items bucket with
  | error f => exact absurd hitems (hoffers.items_ne_error f)
  | ok items =>
    change page size (items.after token) = _
    unfold page
    rw [lookAhead_greatest hsize]
    rfl

theorem ensures_listBucket_greatest (hsize : ¬config.pageSize.toNat + 1 < UInt64.size)
    (hoffers : s.Offers bucket) (limit : Nat) :
    (listBucket config (limit + 1) bucket).Ensures (storing around t) s fun r s' =>
      s' = s ∧ r = .error .overflow := by
  refine ensures_listAll_fails (Nat.succ_pos limit) (Program.ensures_bind.mpr (ensures_scan ?_))
  rw [scan_greatest hsize hoffers]
  exact ⟨_, rfl, rfl, rfl⟩

/-- With pages of the greatest size, recovery does not get to a record. -/
theorem ensures_findRecords_greatest (hsize : ¬config.pageSize.toNat + 1 < UInt64.size)
    (hoffers : s.Offers bucket) (limit : Nat) :
    (findRecords config bucket (limit + 1) none).Ensures (storing around t) s fun r s' =>
      s' = s ∧ r = .error .overflow := by
  unfold findRecords
  refine Program.ensures_bind.mpr (ensures_scan ?_)
  rw [scan_greatest hsize hoffers]
  exact ⟨rfl, rfl⟩

/-! ### Staged listings and recovery, for every size -/

/-- `list` gives all that readers see, or panics at the greatest page size. -/
theorem list_run_sized {homes : String → Bytes} (hs : s.Sound around)
    (hhoused : Contents.Housed homes s.raw) (hoffers : s.Offers bucket)
    (hname : checkBucket bucket = .ok ()) (config : Config) :
    ((Engine.driver (itemStore around) config).list bucket s).state = s ∧
      Counts config.pageSize ((Engine.driver (itemStore around) config).list bucket s).reply
        (s.entries bucket) := by
  by_cases hsize : config.pageSize.toNat + 1 < UInt64.size
  · obtain ⟨hstate, hreply⟩ := list_run hs hhoused hoffers hname hsize
    exact ⟨hstate, fun _ => hreply, absurd hsize⟩
  · obtain ⟨hstate, hreply⟩ := list_run_of hname (ensures_listBucket_greatest hsize hoffers _)
    exact ⟨hstate, fun h => absurd h hsize, fun _ => ⟨_, hreply, rfl⟩⟩

/-- Recovery finds all records of a bucket, or panics at the greatest page size. -/
theorem findRecords_run (hs : s.Sound around) (hoffers : s.Offers bucket) (config : Config) :
    ((findRecords config bucket ((s.rawItems bucket).length + 1) none).run (respond around) s).state =
      s ∧
    Counts config.pageSize
      ((findRecords config bucket ((s.rawItems bucket).length + 1) none).run (respond around) s).reply
      ((s.records bucket).map fun r => (r, r.encode)) := by
  by_cases hsize : config.pageSize.toNat + 1 < UInt64.size
  · have hfound : (findRecords config bucket ((s.rawItems bucket).length + 1) none).Ensures
        (storing around .faults) s fun r s' =>
          s' = s ∧ r = .ok ((s.records bucket).map fun r => (r, r.encode)) := by
      cases hitems : s.items bucket with
      | error f => exact absurd hitems (hoffers.items_ne_error f)
      | ok items =>
        unfold MemoryItems.records
        rw [rawItems_of_items hitems]
        exact ensures_findRecords_all hitems hs hsize ⟨[], rfl⟩ (Nat.lt_succ_self _)
    obtain ⟨hstate, hreply⟩ := run_of_faults hfound
    exact ⟨hstate, fun _ => hreply, absurd hsize⟩
  · obtain ⟨hstate, hreply⟩ := run_of_faults (ensures_findRecords_greatest hsize hoffers _)
    exact ⟨hstate, fun h => absurd h hsize, fun _ => ⟨_, hreply, rfl⟩⟩

end Staging

/-! ### Tables, for every size -/

namespace Sql

open Program hiding bind

variable {σ : Type} {service : Service σ} {view : σ → Server} {d : Dialect} {version : String}
  {table : Table} {tables : Tables} {bucket : Bytes} {rows : Rows} {size : UInt64}

/-- How many of a table's rows are listed: all, if a signed limit leaves room for the one row more;
    else as many as a signed number counts. -/
def rowsListed (size : UInt64) (count : Nat) : Nat :=
  if size.toNat + 1 < 2 ^ 63 then count else 2 ^ 63 - 1

/-- A limit without room for the one row more makes every page the last. -/
theorem page_take_short (hshort : rowLimit size ≤ (max size 1).toNat) (l : List (Bytes × Bytes)) :
    Keyset.page size ((l.take (rowLimit size)).map .ok) = .ok ⟨l.take (rowLimit size), none⟩ := by
  have hlength : (l.take (rowLimit size)).length ≤ (max size 1).toNat :=
    Nat.le_trans (List.length_take_le ..) hshort
  unfold Keyset.page
  simp only [fill_ok, bind, Except.bind, pure, Except.pure, decide_eq_true_eq,
    List.take_of_length_le hlength, if_neg (Nat.not_lt.mpr hlength)]

/-- The pages of a table, and what they list. -/
theorem listAll_rows (size : UInt64) (rows : Rows) (bucket : Bytes) {limit : Nat}
    (hlimit : rows.size < limit) :
    ∃ pages : Option Token → Page (Bytes × Bytes),
      (∀ token, Keyset.page size (((rows.after token).take (rowLimit size)).map .ok) =
        .ok (pages token)) ∧
      listAll (m := Except Failure) (fun () token => .ok (pages token, ()))
        (fun pair => .ok (some (Keyset.entry bucket pair))) limit () =
        .ok ((rows.entries.take (rowsListed size rows.size)).map (Keyset.entry bucket)) := by
  have hmost : Int64.maxValue.toInt.toNat = 2 ^ 63 - 1 := by decide
  by_cases hroom : size.toNat + 1 < 2 ^ 63
  · have hall : rows.entries.take (rowsListed size rows.size) = rows.entries := by
      unfold rowsListed
      rw [if_pos hroom]
      exact List.take_length
    refine ⟨pageOf (max size 1).toNat id rows, fun token => ?_, ?_⟩
    · rw [page_take (reaches_of_size (.inl hroom))]
      unfold pageOf
      rw [List.map_id]
    · rw [hall]
      exact listAll_entries bucket rows (max_one_pos size) hlimit
  · have hrows : rowLimit size = rowsListed size rows.size := by
      unfold rowLimit rowsListed
      rw [hmost, if_neg hroom]
      omega
    have hshort : rowLimit size ≤ (max size 1).toNat := by
      unfold rowLimit
      rw [max_one_toNat, hmost]
      omega
    refine ⟨fun token => ⟨(rows.after token).take (rowLimit size), none⟩,
      fun token => page_take_short hshort _, ?_⟩
    cases limit with
    | zero => exact absurd hlimit (Nat.not_lt_zero _)
    | succ limit =>
      apply listAll_firstPage rfl
      have hdecoded : Paginator.decodeAll (fun pair => .ok (some (Keyset.entry bucket pair)))
          ((rows.entries.take (rowLimit size)).map id) =
          .ok ((rows.entries.take (rowLimit size)).filterMap fun pair =>
            some (Keyset.entry bucket pair)) := by
        apply decodeAll_map
        exact fun _ => rfl
      rw [List.map_id, List.filterMap_eq_map', hrows] at hdecoded
      rw [hrows]
      exact hdecoded

/-- A listing gives the rows that its page size lets through, or panics at the greatest page size, and
    changes nothing. -/
theorem list_shows (h : Documented service d view) (config : Config) {c : Client σ}
    (hrests : c.through view = resting version tables) (hadmits : d.Admits bucket)
    (htable : d.table bucket = .ok table) (hfound : tables.get? table.name = some rows) :
    ((driver service d config).list bucket c).state.through view = resting version tables ∧
      Counts config.pageSize ((driver service d config).list bucket c).reply
        ((rows.entries.take (rowsListed config.pageSize rows.size)).map (Keyset.entry bucket)) := by
  have hbound : ∀ name,
      ((tables.get? name).map KeyMap.size).getD 0 < service.pageBound c.server name := by
    have htables : (view c.server).tables = tables := congrArg (fun c => c.server.tables) hrests
    rw [← htables]
    exact h.bounds c.server
  by_cases hsize : config.pageSize.toNat + 1 < UInt64.size
  · have hlist : (list d config.pageSize (service.pageBound c.server) bucket).Yields (talking d)
        (c.through view)
        ((rows.entries.take (rowsListed config.pageSize rows.size)).map (Keyset.entry bucket))
        (· = resting version tables) := by
      have hrows := hbound table.name
      rw [hfound] at hrows
      obtain ⟨pages, hpages, hall⟩ := listAll_rows config.pageSize rows bucket hrows
      rw [hrests, list_eq hadmits htable]
      have hfetch : ∀ token c, Working version tables tables c →
          (fetchPage d bucket table config.pageSize token).Yields (talking d) c (pages token)
            (Working version tables tables) := fun token c hc =>
        yields_fetchPage hc hsize hfound (hpages token)
      exact ((yields_transaction (yields_listing hfetch hall)).noteFailure _).mapFailure _
    obtain ⟨hreply, hstate⟩ := h.run hlist
    exact ⟨hstate, fun _ => hreply, absurd hsize⟩
  · have hlist : (list d config.pageSize (service.pageBound c.server) bucket).Ensures (talking d)
        (c.through view) fun r c' =>
          r = .error (.duringBucket "list" bucket .overflow) ∧ c' = resting version tables := by
      rw [hrests]
      exact list_greatest hadmits hsize fun name => Nat.zero_lt_of_lt (hbound name)
    obtain ⟨hreply, hstate⟩ := h.run hlist
    exact ⟨hstate, fun hless => absurd hless hsize, fun _ => ⟨_, hreply, rfl⟩⟩

end Sql

/-! ### Sizes from options -/

open Staging MemoryItems

/-- **What is listed with the page sizes that options are accepted with.** None of them is zero. From
    every reachable store, and whatever is locked there, `list` gives all that readers see in a bucket
    and recovery finds all its records, unless the size is the greatest: then both panic. Of a table on
    a documented SQL server a listing gives all rows, up to as many as a signed number counts if the
    size leaves no room for one more; with the greatest size it panics, too. No call changes
    anything. -/
theorem accepted_page_sizes {pairs : List (String × String)} {o : Options} {around : Surroundings}
    (hpairs : Options.ofPairs pairs = .ok o) (hids : around.Addressable) :
    0 < o.pageSize.toNat ∧
    (∀ (admits : Event → Prop) (s : MemoryItems) (bucket : Bytes), Reachable around admits s →
      Distinct around s → s.Offers bucket →
      let store := itemStore around
      let config := Staging.Config.ofOptions o
      let listed := (Engine.driver store config).list bucket s
      let scanned := (findRecords config bucket (store.pageBound s bucket) none).run store.respond s
      Counts o.pageSize listed.reply (s.entries bucket) ∧ listed.state = s ∧
      Counts o.pageSize scanned.reply ((s.records bucket).map fun r => (r, r.encode)) ∧
      scanned.state = s) ∧
    ∀ {σ : Type} (service : Sql.Service σ) (d : Sql.Dialect) (view : σ → Sql.Server)
        (url : String) (config : Sql.Config), Sql.Documented service d view →
      Sql.Config.ofOptions url o = .ok config →
      ∀ (c : Sql.Client σ) (version : String) (tables : Sql.Tables) (bucket : Bytes)
        (table : Sql.Table) (rows : Sql.Rows), c.through view = Sql.resting version tables →
      d.Admits bucket → d.table bucket = .ok table → tables.get? table.name = some rows →
      let listed := (Sql.driver service d config).list bucket c
      Counts o.pageSize listed.reply
        ((rows.entries.take (Sql.rowsListed o.pageSize rows.size)).map (Keyset.entry bucket)) ∧
      listed.state.through view = Sql.resting version tables := by
  refine ⟨Options.pageSize_pos hpairs, ?_, ?_⟩
  · intro admits s bucket hreachable hdistinct hoffers
    have hs := sound_of_reachable hids hreachable
    have hname := named_of_reachable hreachable hoffers.2
    obtain ⟨homes, hhoused⟩ := housed_of_reachable hids hreachable hdistinct
    obtain ⟨hstate, hreply⟩ := list_run_sized hs hhoused hoffers hname (Staging.Config.ofOptions o)
    obtain ⟨hscanned, hfound⟩ := findRecords_run hs hoffers (Staging.Config.ofOptions o)
    exact ⟨hreply, hstate, hfound, hscanned⟩
  · intro σ service d view url config hdocumented hconfig c version tables bucket table rows hrests
      hadmits htable hrows
    have hsize : config.pageSize = o.pageSize := by
      unfold Sql.Config.ofOptions at hconfig
      dsimp only at hconfig
      split at hconfig
      · cases hconfig
      · cases hconfig
        rfl
    obtain ⟨hstate, hreply⟩ := Sql.list_shows hdocumented config hrests hadmits htable hrows
    rw [hsize] at hreply
    exact ⟨hreply, hstate⟩

/-- A table with a row. -/
def oneRow : Sql.Tables := ({} : Sql.Tables).insert "t" (({} : Sql.Rows).insert [97] [49])

/-- The greatest size but one: a key is listed that a committed transaction still locks, its record is
    found, and so is the row of a table. -/
theorem accepted_page_sizes_greatest_but_one :
    (Options.ofPairs [("page_size", " 18446744073709551614 ")] =
        .ok { pageSize := 18446744073709551614 } ∧
      still.Addressable ∧ Reachable still (fun _ => True) crashed ∧ Distinct still crashed ∧
      crashed.Offers [65] ∧ Sql.Dialect.postgres.Admits [116]) ∧
    ((Engine.driver (itemStore still) { pageSize := 18446744073709551614 }).list [65] crashed).reply =
      .ok [⟨[65], [97], [49]⟩] ∧
    ((Sql.driver (Sql.Server.service .postgres) .postgres
        ⟨"postgres://db", none, 10, 18446744073709551614⟩).list [116]
          (Sql.resting "16" oneRow)).reply =
      .ok [⟨[116], [97], [49]⟩] := by
  have hpairs : Options.ofPairs [("page_size", " 18446744073709551614 ")] =
      .ok { pageSize := 18446744073709551614 } := by decide +kernel
  have hdistinct : Distinct still crashed := distinct_still (by decide +kernel)
  have hoffers : crashed.Offers [65] := ⟨by decide +kernel, by decide +kernel⟩
  obtain ⟨_, hstore, htable⟩ := accepted_page_sizes hpairs addressable_still
  obtain ⟨hlist, _⟩ := hstore _ _ _ reachable_crashed hdistinct hoffers
  obtain ⟨hrows, _⟩ := htable _ _ id "postgres://db" _ (Sql.Server.documented .postgres) rfl
    (Sql.resting "16" oneRow) "16" oneRow [116] ⟨[116], by decide⟩ _ rfl (by decide) rfl rfl
  have hentries : crashed.entries [65] = [⟨[65], [97], [49]⟩] := by decide +kernel
  refine ⟨⟨hpairs, addressable_still, reachable_crashed, hdistinct, hoffers, by decide⟩, ?_, ?_⟩
  · rw [← hentries]
    exact hlist.counted (by decide)
  · exact hrows.counted (by decide)

/-- **With the greatest page size listing panics.** Options ask for it and are accepted; there is a key
    with a value in the bucket, and a record; yet listing the bucket panics, recovering it does, and so
    does listing a table with a row. -/
theorem greatest_page_size_panics :
    Options.ofPairs [("page_size", "18446744073709551615")] =
      .ok { pageSize := 18446744073709551615 } ∧
    Contents.visible crashed.raw [65] [97] = some [49] ∧ crashed.records [65] ≠ [] ∧
    ((Engine.driver (itemStore still) { pageSize := 18446744073709551615 }).list [65] crashed).reply =
      .error (.duringBucket "list" [65] .overflow) ∧
    (Engine.recoverOn (itemStore still) { pageSize := 18446744073709551615 } [65] crashed).reply =
      .error (.duringBucket "recover" [65] .overflow) ∧
    ((Sql.driver (Sql.Server.service .postgres) .postgres
        ⟨"postgres://db", none, 10, 18446744073709551615⟩).list [116]
          (Sql.resting "16" oneRow)).reply =
      .error (.duringBucket "list" [116] .overflow) := by
  refine ⟨by decide +kernel, by decide +kernel, by decide +kernel, by decide +kernel,
    by decide +kernel, ?_⟩
  have hlist : (Sql.list .postgres 18446744073709551615
      ((Sql.Server.service .postgres).pageBound { tables := oneRow }) [116]).Ensures
      (Sql.talking .postgres) ((Sql.resting "16" oneRow).through id) _ :=
    Sql.list_greatest (by decide) (by decide) fun _ => Nat.succ_pos _
  exact ((Sql.Server.documented .postgres).run hlist).1

end BucketStore
