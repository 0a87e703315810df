/-
  BucketStore/Proofs/Sql/Updating.lean
  ====================================
  **An update as one SQL transaction.**

  The touched keys are locked in an order of their own (`ensures_lockAll`); the
  operations do not depend on it, nor does what is published of the changes
  (`yields_writeAll`).  So an update answers and leaves the tables as in memory
  (`update_agrees`), and without conflicts the first attempt is the only one.
-/
import BucketStore.Proofs.Sql.Calls

namespace BucketStore.Sql

open Program hiding bind
open Protocol

variable {d : Dialect} {c : Client Server} {m : Memory.Store} {version : String}
  {tables saved : Tables} {tx : Transaction}

/-! ### Locking -/

section

variable (hkeeps : (tableNaming d).Keeps id tables m.buckets)
include hkeeps

/-- Keys are locked up to the first whose bucket is missing, or all of them, and then their values
    are loaded. -/
theorem ensures_lockAll {places : List (Bytes × Bytes)} (hadmits : ∀ place ∈ places, d.Admits place.1)
    (ws : WriteSet) (h : Working version saved tables c) :
    (places.foldlM (lockKey d) ws).Ensures (talking d) c fun r c' =>
      match places.find? (fun place => !m.buckets.contains place.1) with
      | some place => r = .error (.during "lock" place.1 place.2 (.bucketNotFound place.1)) ∧
          Begun version saved c'
      | none => r = .ok (Memory.loadAll m.values places ws) ∧ Working version saved tables c' := by
  induction places generalizing ws c with
  | nil => exact ⟨rfl, h⟩
  | cons place rest ih =>
    obtain ⟨hfirst, hrest⟩ := List.forall_mem_cons.mp hadmits
    obtain ⟨table, htable⟩ := table_of_admits hfirst
    have hsame := table_found hkeeps htable
    rw [List.foldlM_cons]
    unfold lockKey
    dsimp only
    rw [tableOf_eq htable]
    change ((mapFailure _ _ >>= fun _ => _ : Protocol WriteSet) >>= _).Ensures _ _ _
    cases hbucket : m.buckets.get? place.1 with
    | none =>
      rw [hbucket] at hsame
      rw [List.find?_cons_of_pos (by simp [KeyMap.contains_eq_false.mpr hbucket]), ensures_bind,
        ensures_bind, ensures_mapFailure]
      exact h.missing (t := .select true place.2) trivial id hsame fun c' hc' => ⟨rfl, hc'⟩
    | some found =>
      rw [hbucket] at hsame
      have hmeaning : (TableStatement.select true place.2).meaning (tables.get? table.name) =
          .ok ((found.get? place.2).toList.map fun value => [some value], tables.get? table.name) := by
        rw [hsame]
        rfl
      rw [List.find?_cons_of_neg (by simp [KeyMap.contains_eq_true.mpr ⟨found, hbucket⟩]),
        ensures_bind]
      refine ((h.execute hmeaning trivial id).mapFailure _).then fun c' hc' => ?_
      rw [KeyMap.put_get?] at hc'
      rw [readValue_rows]
      have hloaded : Memory.loadAll m.values (place :: rest) ws =
          Memory.loadAll m.values rest (ws.load place.1 place.2 (found.get? place.2)) := by
        unfold Memory.loadAll
        rw [List.foldl_cons, Memory.Store.values_of_bucket hbucket]
      rw [hloaded]
      exact ih hrest _ hc'

/-! ### Writing -/

/-- Changes of buckets that exist are written as they are published in memory. -/
theorem yields_writeAll {changes : List Change} (hkeys : ∀ change ∈ changes, d.AdmitsKey change.key)
    (hexists : ∀ change ∈ changes, m.buckets.contains change.bucket = true)
    (h : Working version saved tables c) :
    (changes.forM (writeChange d)).Yields (talking d) c () fun c' =>
      ∃ tables', Working version saved tables' c' ∧
        (tableNaming d).Keeps id tables' (m.publish changes).buckets := by
  induction changes generalizing m tables c with
  | nil => exact ⟨rfl, tables, h, hkeeps⟩
  | cons change rest ih =>
    obtain ⟨hfirst, hrest⟩ := List.forall_mem_cons.mp hexists
    obtain ⟨hkey, hkeys⟩ := List.forall_mem_cons.mp hkeys
    obtain ⟨name, hcode⟩ := hkeeps.coded _ hfirst
    obtain ⟨table, htable, rfl⟩ := table_of_code hcode
    obtain ⟨found, hbucket⟩ := KeyMap.contains_eq_true.mp hfirst
    have hsame := (table_found hkeeps htable).trans hbucket
    have hwritten : (writeChange d change).Yields (talking d) c () (Working version saved
        (tables.insert table.name (found.put change.key change.value))) := by
      unfold writeChange
      rw [tableOf_eq htable]
      change (mapFailure _ _ : Protocol Unit).Yields _ _ _ _
      apply Yields.mapFailure
      cases hvalue : change.value with
      | none =>
        have hmeaning : (TableStatement.delete change.key).meaning (tables.get? table.name) =
            .ok ([], some (found.erase change.key)) := by
          rw [hsame]
          rfl
        exact h.perform hmeaning trivial id
      | some value =>
        have hmeaning : (TableStatement.upsert change.key value).meaning (tables.get? table.name) =
            .ok ([], some (found.insert change.key value)) := by
          rw [hsame]
          rfl
        exact h.perform hmeaning hkey id
    have happly : m.apply change = m.withBucket change.bucket (found.put change.key change.value) := by
      unfold Memory.Store.apply
      rw [hbucket]
    change (writeChange d change >>= fun _ => rest.forM (writeChange d)).Ensures _ _ _
    refine hwritten.then fun c' hc' => ?_
    have hkeeps' : (tableNaming d).Keeps id
        (tables.insert table.name (found.put change.key change.value)) (m.apply change).buckets := by
      rw [happly]
      exact hkeeps.insert (code_of_table htable) _
    apply ih hkeeps' hkeys _ hc'
    intro change' hchange'
    rw [Memory.contains_apply]
    exact hrest change' hchange'

end

/-! ### Attempts -/

theorem kind_of_operation {v : Places Bytes} {op : Operation} {f : Failure}
    (h : op.on v = .error f) : f.kind = .notFound := by
  cases op with
  | get bucket key =>
    unfold Operation.on at h
    dsimp only at h
    split at h
    · cases h
    · cases h
      rfl
  | _ => cases h

/-- Operations fail for a key that is absent, and so never for a conflict. -/
theorem kind_of_on {v : Places Bytes} {f : Failure} (h : Transaction.on v tx = .error f) :
    f.kind = .notFound := by
  induction tx generalizing v with
  | nil => cases h
  | cons op rest ih =>
    unfold Transaction.on at h
    cases hop : op.on v with
    | error g =>
      rw [hop] at h
      cases h
      exact kind_of_operation hop
    | ok out =>
      rw [hop] at h
      dsimp only at h
      cases hrest : Transaction.on out.2 rest with
      | error g =>
        rw [hrest] at h
        cases h
        exact ih hrest
      | ok _ =>
        rw [hrest] at h
        cases h

/-- However often an update is tried, it ends as every attempt does, if a conflict leaves a state from
    which the next attempt may start. -/
theorem ensures_tryRepeatedly {σ : Type} {K : Contract Call Call.Reply σ} {I : σ → Prop}
    {Q : Except Failure TxOutcome → σ → Prop}
    (h : ∀ s, I s → (tryUpdate d tx).Ensures K s fun r s' =>
      Q r s' ∧ ∀ f, r = .error f → f.kind = .conflict → I s')
    (attempt remaining : Nat) {s : σ} (hs : I s) :
    (tryRepeatedly d tx attempt remaining).Ensures K s Q := by
  induction remaining generalizing attempt s with
  | zero => exact (h s hs).mono fun _ _ hQ => hQ.1
  | succ remaining ih =>
    unfold tryRepeatedly
    rw [ensures_bind, ensures_attempt]
    apply (h s hs).mono
    rintro (f | outcome) s' ⟨hQ, hagain⟩
    · dsimp only
      split
      · next hkind => exact ih (attempt + 1) (hagain f rfl hkind)
      · exact hQ
    · exact hQ

/-! ### Updates -/

section

variable (hkeeps : (tableNaming d).Keeps id tables m.buckets)
  (hadmits : ∀ op ∈ tx, d.Admits op.bucket)
include hkeeps hadmits

omit hkeeps in
theorem admits_locked : ∀ place ∈ tx.touched.mergeSort lockBefore, d.Admits place.1 := by
  intro place hplace
  obtain ⟨op, hop, rfl⟩ := Transaction.mem_touched.mp (List.mem_mergeSort.mp hplace)
  exact hadmits op hop

/-- An attempt on a bucket that is missing fails for a missing bucket, if not for the same one. -/
theorem tryUpdate_missing {place : Bytes × Bytes} (hplace : place ∈ tx.touched)
    (hmissing : m.buckets.contains place.1 = false) :
    (tryUpdate d tx).Ensures (talking d) (resting version tables) fun r c =>
      (∃ f, r = .error f ∧ f.kind = .notFound) ∧ c = resting version tables := by
  unfold tryUpdate
  refine ensures_transaction ((yields_beginIsolated _).then fun c hbegun => ensures_bind.mpr ?_)
  refine (ensures_lockAll hkeeps (admits_locked hadmits) {} hbegun).mono fun r c' hlocked => ?_
  cases hfind : (tx.touched.mergeSort lockBefore).find? (fun place => !m.buckets.contains place.1) with
  | some first =>
    rw [hfind] at hlocked
    obtain ⟨rfl, hbegun⟩ := hlocked
    exact ⟨hbegun, ⟨_, rfl, rfl⟩, rfl⟩
  | none =>
    have hthere := List.find?_eq_none.mp hfind place (List.mem_mergeSort.mpr hplace)
    rw [hmissing] at hthere
    exact absurd rfl hthere

/-- An attempt on buckets that exist fails where its operations fail on the values, or writes what they
    change. -/
theorem tryUpdate_found (hkeys : ∀ op ∈ tx, d.AdmitsKey op.key)
    (hexists : ∀ place ∈ tx.touched, m.buckets.contains place.1 = true)
    {Q : Except Failure TxOutcome → Client Server → Prop}
    (hfails : ∀ f, Transaction.on m.values tx = .error f → Q (.error f) (resting version tables))
    (hanswers : ∀ outcome (m' : Memory.Store) tables',
      Transaction.on m.values tx = .ok (outcome, m'.values) → m.SameNames m' →
      (tableNaming d).Keeps id tables' m'.buckets → Q (.ok outcome) (resting version tables')) :
    (tryUpdate d tx).Ensures (talking d) (resting version tables) Q := by
  have hnone : (tx.touched.mergeSort lockBefore).find? (fun place => !m.buckets.contains place.1) =
      none := by
    rw [List.find?_eq_none]
    intro place hplace
    simp [hexists place (List.mem_mergeSort.mp hplace)]
  -- The places are loaded in another order than in memory, but all of them are.
  have hlocked : ∀ place ∈ tx.touched, place ∈ tx.touched.mergeSort lockBefore := fun _ =>
    List.mem_mergeSort.mpr
  obtain ⟨hreply, htracks, hdistinct, hloaded⟩ := Memory.execute_loadAll m.values tx hlocked
  unfold tryUpdate
  refine ensures_transaction ((yields_beginIsolated _).then fun c hbegun => ?_)
  have hall := ensures_lockAll hkeeps (admits_locked hadmits) {} hbegun
  rw [hnone] at hall
  refine Yields.then hall fun c' hworking => ?_
  generalize (Memory.loadAll m.values (tx.touched.mergeSort lockBefore) {}).execute tx = ran at *
  obtain ⟨r, ws⟩ := ran
  cases hon : Transaction.on m.values tx with
  | error f =>
    rw [hon] at hreply
    cases hreply
    exact ⟨hworking.toBegun, hfails f hon⟩
  | ok out =>
    obtain ⟨outcome, v⟩ := out
    rw [hon] at hreply
    cases hreply
    have hbuckets : ∀ b k, ws.isLoaded b k = true → m.buckets.contains b = true := fun b k hbk =>
      hexists _ (List.mem_mergeSort.mp (hloaded b k hbk))
    obtain ⟨hvalues, hclosed, hcontains⟩ := Memory.publish_tracked (htracks _ hon) hdistinct hbuckets
    have hchanged : ∀ change ∈ ws.changes, ws.isLoaded change.bucket change.key = true :=
      fun change hchange => ((WriteSet.mem_changes hdistinct).mp hchange).1
    have hfit : ∀ change ∈ ws.changes, d.AdmitsKey change.key := by
      intro change hchange
      have hplace := List.mem_mergeSort.mp (hloaded _ _ (hchanged change hchange))
      obtain ⟨op, hop, hsame⟩ := Transaction.mem_touched.mp hplace
      have hkey : op.key = change.key := congrArg Prod.snd hsame
      exact hkey ▸ hkeys op hop
    refine (yields_writeAll hkeeps hfit (fun change hchange => hbuckets _ _ (hchanged change hchange))
      hworking).then ?_
    rintro c'' ⟨tables', hwritten, hkeeps'⟩
    refine hwritten.commit.then ?_
    rintro _ rfl
    exact hanswers outcome _ tables' (hvalues ▸ hon) ⟨hcontains, hclosed⟩ hkeeps'

/-- An attempt ends as the update in memory, and not with a conflict. -/
theorem tryUpdate_agrees (hopen : m.closed = false) (hkeys : ∀ op ∈ tx, d.AdmitsKey op.key)
    (hcheck : tx.check = .ok ()) :
    (tryUpdate d tx).Ensures (talking d) (resting version tables) fun r c =>
      Agrees d ⟨(Memory.update tx m).reply, (Memory.update tx m).state, []⟩ r c ∧
        ∀ f, r = .error f → f.kind ≠ .conflict := by
  have hmirrors := mirrors_resting version hopen hkeeps
  refine Memory.update_cases (P := fun r m' => (tryUpdate d tx).Ensures (talking d)
    (resting version tables) fun r' c => Agrees d ⟨r, m', []⟩ r' c ∧
      ∀ f, r' = .error f → f.kind ≠ .conflict) hopen hcheck ?_ ?_ ?_
  · intro place hfind
    have hmissing := List.find?_some hfind
    rw [Bool.not_eq_true'] at hmissing
    apply (tryUpdate_missing hkeeps hadmits (List.mem_of_find?_eq_some hfind) hmissing).mono
    rintro _ _ ⟨⟨f, rfl, hkind⟩, rfl⟩
    refine ⟨⟨.fails hkind, hmirrors⟩, ?_⟩
    rintro _ ⟨⟩ hconflict
    rw [hkind] at hconflict
    cases hconflict
  · intro f hexists hon
    apply tryUpdate_found hkeeps hadmits hkeys hexists
    · intro f' hon'
      rw [hon] at hon'
      cases hon'
      refine ⟨⟨.fails rfl, hmirrors⟩, ?_⟩
      rintro _ ⟨⟩ hconflict
      rw [kind_of_on hon] at hconflict
      cases hconflict
    · intro _ _ _ hon'
      rw [hon] at hon'
      cases hon'
  · intro outcome v m' hexists hon hvalues hclosed hcontains
    apply tryUpdate_found hkeeps hadmits hkeys hexists
    · intro _ hon'
      rw [hon] at hon'
      cases hon'
    · intro outcome' m'' tables' hon' hnames hkeeps'
      rw [hon] at hon'
      cases hon'
      -- What was written has the values and the names of what is published in memory.
      have hsame : m'' = m' := by
        apply Memory.Store.SameNames.eq _ hvalues.symm
        exact ⟨fun b => (hnames.contains b).trans (hcontains b).symm,
          hnames.closed.trans (hopen.trans hclosed.symm)⟩
      subst hsame
      exact ⟨⟨.answers rfl, mirrors_resting version hclosed hkeeps'⟩, fun _ hr => nomatch hr⟩

/-- An update is answered as in memory, and leaves the tables with what is left there. -/
theorem update_agrees (hopen : m.closed = false) (hkeys : ∀ op ∈ tx, d.AdmitsKey op.key) :
    (update d tx).Ensures (talking d) (resting version tables) (Agrees d (Memory.update tx m)) := by
  have hmirrors := mirrors_resting version hopen hkeeps
  unfold update
  rw [ensures_bind, ensures_check]
  cases hcheck : tx.check with
  | error f =>
    rw [Memory.update_refused hopen hcheck]
    exact ⟨.fails rfl, hmirrors⟩
  | ok _ =>
    cases hempty : tx.isEmpty with
    | true =>
      cases List.isEmpty_iff.mp hempty
      unfold Memory.update
      rw [Memory.opened_bind hopen]
      exact ⟨.answers rfl, hmirrors⟩
    | false =>
      change (noteFailure _ (tryRepeatedly d tx 1 (maxAttempts - 1))).Ensures _ _ _
      rw [ensures_noteFailure]
      refine ensures_tryRepeatedly (I := (· = resting version tables)) ?_ 1 _ rfl
      rintro _ rfl
      apply (tryUpdate_agrees hkeeps hadmits hopen hkeys hcheck).mono
      exact fun _ _ h => ⟨⟨h.1.reply, h.1.state⟩, fun f hf hkind => absurd hkind (h.2 f hf)⟩

end

end BucketStore.Sql
