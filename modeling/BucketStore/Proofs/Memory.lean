/-
  BucketStore/Proofs/Memory.lean
  ==============================
  **What the calls of the driver in memory answer, and what they leave.**

  A store in memory is seen as the values under all keys (`Store.values`).  A call
  on a key is refused for its name or goes on to its bucket (`bucketOf_bind_run`).
  An update is refused for the first of its buckets that is missing, or answers and
  changes the values as its operations do one by one (`update_cases`).
-/
import BucketStore.Memory
import BucketStore.Proofs.ActionLogic
import BucketStore.Proofs.Listing
import BucketStore.Proofs.Transaction.WriteSet

namespace BucketStore.Memory

variable {m m' : Store} {name key b k : Bytes} {found : Bucket} {α : Type}

/-! ### Values -/

/-- The value under a key, if the bucket exists and has one. -/
def Store.values (m : Store) : Places Bytes := fun b k => (m.buckets.get? b).bind (·.get? k)

theorem Store.values_of_bucket (h : m.buckets.get? b = some found) :
    m.values b k = found.get? k := by
  simp [Store.values, h]

theorem Store.values_withBucket (h : m.buckets.get? name = some found) (value : Option Bytes) :
    (m.withBucket name (found.put key value)).values = m.values.put name key value := by
  funext b k
  by_cases hb : b = name
  · subst hb
    simp [Store.values, Store.withBucket, Places.put, h]
  · simp [Store.values, Store.withBucket, Places.put, hb]

theorem Store.values_withEmpty (h : m.buckets.contains name = false) :
    (m.withBucket name {}).values = m.values := by
  funext b k
  unfold Store.values Store.withBucket
  rw [KeyMap.get?_insert]
  split
  · next heq =>
    rw [heq, KeyMap.contains_eq_false.mp h]
    rfl
  · rfl

theorem Store.values_erase (m : Store) (b k : Bytes) :
    Store.values { m with buckets := m.buckets.erase name } b k =
      if b = name then none else m.values b k := by
  unfold Store.values
  rw [KeyMap.get?_erase]
  split <;> rfl

theorem Store.contains_withBucket (h : m.buckets.contains name = true) (bucket : Bucket) (b : Bytes) :
    (m.withBucket name bucket).buckets.contains b = m.buckets.contains b := by
  unfold Store.withBucket KeyMap.contains at *
  by_cases hb : b = name
  · subst hb
    simp [h]
  · simp [hb]

/-! ### Names -/

/-- The stores have buckets of the same names, and are both open or both closed. -/
structure Store.SameNames (m m' : Store) : Prop where
  contains : ∀ b, m'.buckets.contains b = m.buckets.contains b
  closed : m'.closed = m.closed

theorem Store.sameNames_withBucket (h : m.buckets.contains b = true)
    (bucket : Bucket) : m.SameNames (m.withBucket b bucket) where
  contains := Store.contains_withBucket h bucket
  closed := rfl

/-- A store is determined by the names of its buckets and by its values. -/
theorem Store.SameNames.eq (h : m.SameNames m') (hvalues : m'.values = m.values) : m' = m := by
  have hbuckets : m'.buckets = m.buckets := by
    apply KeyMap.ext_get?
    intro b
    have hcontains := h.contains b
    cases hb : m.buckets.get? b with
    | none =>
      rw [KeyMap.contains_eq_false.mpr hb] at hcontains
      exact KeyMap.contains_eq_false.mp hcontains
    | some found =>
      rw [KeyMap.contains_eq_true.mpr ⟨found, hb⟩] at hcontains
      obtain ⟨found', hb'⟩ := KeyMap.contains_eq_true.mp hcontains
      rw [hb', Option.some_inj]
      apply KeyMap.ext_get?
      intro k
      rw [← Store.values_of_bucket hb', ← Store.values_of_bucket hb, hvalues]
  cases m
  cases m'
  exact congr (congrArg Store.mk hbuckets) h.closed

/-! ### Calls on a key -/

section

variable (hopen : m.closed = false)
include hopen

theorem opened_run : opened m = ⟨.ok (), m, []⟩ := by
  change (if m.closed = true then (Action.complain _ _ : Action Store Unit) else pure ()) m = _
  rw [hopen]
  rfl

theorem opened_bind (next : Unit → Action Store α) : (opened >>= next) m = next () m := by
  rw [Action.bind_run, opened_run hopen]
  rfl

omit hopen in
theorem bucket_run : bucket name m = ⟨match m.buckets.get? name with
    | some found => .ok found
    | none => .error (.bucketNotFound name), m, []⟩ := by
  change (match m.buckets.get? name with
    | some found => pure found
    | none => Action.fail (.bucketNotFound name) : Action Store Bucket) m = _
  cases m.buckets.get? name <;> rfl

theorem bucketOf_run : bucketOf name key m = match checkKey name key with
    | .ok _ => bucket name m
    | .error f => ⟨.error f, m, f.notice⟩ := by
  unfold bucketOf
  rw [Action.bind_run, opened_run hopen]
  cases checkKey name key <;> rfl

theorem bucketOf_bind_run (next : Bucket → Action Store α) :
    (bucketOf name key >>= next) m = match checkKey name key with
      | .ok _ => (bucket name >>= next) m
      | .error f => ⟨.error f, m, f.notice⟩ := by
  rw [Action.bind_run, bucketOf_run hopen]
  cases checkKey name key <;> rfl

omit hopen in
theorem swap_run (found : Bucket) (old : Option Bytes) (new : Bytes) :
    (do
      let result := Swap.evaluate (found.get? key) old
      if result.swapped then Action.change fun m => m.withBucket name (found.insert key new)
      return result : Action Store Swap) m =
    ⟨.ok ⟨found.get? key, found.get? key == old⟩,
      if found.get? key == old then m.withBucket name (found.put key (some new)) else m, []⟩ := by
  dsimp only [Swap.evaluate]
  cases found.get? key == old <;> rfl

/-! ### Calls on a bucket -/

theorem create_run : create name m = match checkBucket name with
    | .ok _ => if m.buckets.contains name then ⟨.error (.bucketExists name), m, []⟩
      else ⟨.ok (), m.withBucket name {}, [Log.debug s!"Created bucket {Text.Utf8.lossy name}"]⟩
    | .error f => ⟨.error f, m, f.notice⟩ := by
  unfold create
  rw [Action.bind_run, opened_run hopen]
  cases checkBucket name with
  | error f => rfl
  | ok _ =>
    change (if m.buckets.contains name = true then Action.fail (.bucketExists name) else do
      Action.change fun s => s.withBucket name {}
      Action.note _ : Action Store Unit) m = _
    dsimp only
    split <;> rfl

theorem drop_run : drop name m = match checkBucket name with
    | .ok _ => if m.buckets.contains name then ⟨.ok (), { m with buckets := m.buckets.erase name },
        [Log.debug s!"Deleted bucket {Text.Utf8.lossy name}"]⟩
      else ⟨.error (.bucketNotFound name), m, []⟩
    | .error f => ⟨.error f, m, f.notice⟩ := by
  unfold drop
  rw [Action.bind_run, opened_run hopen]
  cases checkBucket name with
  | error f => rfl
  | ok _ =>
    change (bucket name >>= fun _ => _) m = _
    rw [Action.bind_run, bucket_run]
    unfold KeyMap.contains
    cases m.buckets.get? name <;> rfl

theorem list_run (config : Config) : list config name m = match checkBucket name with
    | .ok _ =>
      ⟨(bucket name m).reply.map fun found => found.entries.map (Keyset.entry name), m, []⟩
    | .error f => ⟨.error f, m, f.notice⟩ := by
  unfold list
  rw [Action.bind_run, opened_run hopen]
  cases checkBucket name with
  | error f => rfl
  | ok _ =>
    change (bucket name >>= fun found =>
      Action.check (Keyset.list name found config.pageSize)) m = _
    rw [Action.bind_run, bucket_run]
    cases m.buckets.get? name with
    | none => rfl
    | some found =>
      simp only [keyset_list]
      rfl

end

/-! ### Publishing -/

/-- The store after one change; one in an unknown bucket does nothing. -/
def Store.apply (s : Store) (c : Change) : Store :=
  match s.buckets.get? c.bucket with
  | some bucket => s.withBucket c.bucket (bucket.put c.key c.value)
  | none => s

/-- The store after changes that are carried out in order. -/
def Store.publish (s : Store) (changes : List Change) : Store := changes.foldl Store.apply s

theorem values_apply {c : Change} (h : m.buckets.contains c.bucket = true) :
    (m.apply c).values = m.values.put c.bucket c.key c.value := by
  obtain ⟨found, hget⟩ := KeyMap.contains_eq_true.mp h
  unfold Store.apply
  rw [hget]
  exact Store.values_withBucket hget c.value

theorem contains_apply (c : Change) : (m.apply c).buckets.contains b = m.buckets.contains b := by
  unfold Store.apply
  cases hget : m.buckets.get? c.bucket with
  | none => rfl
  | some found => exact Store.contains_withBucket (KeyMap.contains_eq_true.mpr ⟨found, hget⟩) _ b

theorem closed_apply (c : Change) : (m.apply c).closed = m.closed := by
  unfold Store.apply
  split <;> rfl

/-- Changes of buckets that exist are carried out, every one of them: no bucket that was there
    is missing when it is looked up again. -/
theorem publish_run {changes : List Change}
    (hexists : ∀ c ∈ changes, m.buckets.contains c.bucket = true) :
    publish changes m = ⟨.ok (), m.publish changes, []⟩ := by
  induction changes generalizing m with
  | nil => rfl
  | cons c rest ih =>
    obtain ⟨hfirst, hrest⟩ := List.forall_mem_cons.mp hexists
    obtain ⟨found, hfound⟩ := KeyMap.contains_eq_true.mp hfirst
    have hbucket : bucket c.bucket m = ⟨.ok found, m, []⟩ := by rw [bucket_run, hfound]
    have happly : m.apply c = m.withBucket c.bucket (found.put c.key c.value) := by
      unfold Store.apply
      rw [hfound]
    have hstep : (do
        let values ← bucket c.bucket
        .change fun s => s.withBucket c.bucket (values.put c.key c.value) : Action Store Unit) m =
        ⟨.ok (), m.apply c, []⟩ := by
      rw [Action.bind_of_ok hbucket, happly]
      rfl
    have hlater : ∀ c' ∈ rest, (m.apply c).buckets.contains c'.bucket = true := by
      intro c' hc'
      rw [contains_apply]
      exact hrest c' hc'
    change (_ >>= fun _ => publish rest) m = _
    rw [Action.bind_of_ok hstep]
    exact ih hlater

/-- Changes that lead to the values `v` lead there, in whatever order they are carried out. -/
theorem publish_values {changes : List Change} {v : Places Bytes}
    (hchange : ∀ c ∈ changes, m.buckets.contains c.bucket = true ∧ c.value = v c.bucket c.key)
    (hrest : ∀ b k, (∀ c ∈ changes, ¬(b = c.bucket ∧ k = c.key)) → m.values b k = v b k) :
    (m.publish changes).values = v ∧ (m.publish changes).closed = m.closed ∧
      ∀ b, (m.publish changes).buckets.contains b = m.buckets.contains b := by
  induction changes generalizing m with
  | nil =>
    refine ⟨?_, rfl, fun _ => rfl⟩
    funext b k
    exact hrest b k fun _ hc => nomatch hc
  | cons c rest ih =>
    obtain ⟨⟨hbucket, hvalue⟩, hrest'⟩ := List.forall_mem_cons.mp hchange
    have happly := values_apply hbucket
    obtain ⟨hvalues, hclosed, hcontains⟩ := ih (m := m.apply c) (by
      intro c' hc'
      rw [contains_apply]
      exact hrest' c' hc') (by
      intro b k hnone
      rw [happly]
      by_cases heq : b = c.bucket ∧ k = c.key
      · obtain ⟨rfl, rfl⟩ := heq
        rw [Places.put_same]
        exact hvalue
      · rw [Places.put_other heq]
        exact hrest b k (List.forall_mem_cons.mpr ⟨heq, hnone⟩))
    refine ⟨hvalues, hclosed.trans (closed_apply c), fun b => ?_⟩
    exact (hcontains b).trans (contains_apply c)

/-- What a write set publishes that tracks a transaction makes of the values what that has made. -/
theorem publish_tracked {ws : WriteSet} {v : Places Bytes} (h : ws.Tracks m.values v)
    (hdistinct : ws.Distinct)
    (hbuckets : ∀ b k, ws.isLoaded b k = true → m.buckets.contains b = true) :
    (m.publish ws.changes).values = v ∧ (m.publish ws.changes).closed = m.closed ∧
      ∀ b, (m.publish ws.changes).buckets.contains b = m.buckets.contains b := by
  apply publish_values
  · intro c hc
    obtain ⟨hloaded, hvalue, _⟩ := (WriteSet.mem_changes hdistinct).mp hc
    exact ⟨hbuckets _ _ hloaded, hvalue.trans (h.current _ _ hloaded)⟩
  · intro b k hnone
    cases hloaded : ws.isLoaded b k with
    | false => exact (h.others b k hloaded).symm
    | true =>
      rw [← h.committed b k hloaded, ← h.current b k hloaded]
      by_cases hsame : ws.committed b k = ws.current b k
      · exact hsame
      · have hmem : ⟨b, k, ws.current b k⟩ ∈ ws.changes :=
          (WriteSet.mem_changes hdistinct).mpr ⟨hloaded, rfl, hsame⟩
        exact absurd ⟨rfl, rfl⟩ (hnone _ hmem)

/-- What is published is the store that the write set tracks. -/
theorem publish_eq {ws : WriteSet} (h : ws.Tracks m.values m'.values) (hdistinct : ws.Distinct)
    (hbuckets : ∀ b k, ws.isLoaded b k = true → m.buckets.contains b = true)
    (hnames : m.SameNames m') : m.publish ws.changes = m' := by
  obtain ⟨hvalues, hclosed, hcontains⟩ := publish_tracked h hdistinct hbuckets
  apply Store.SameNames.eq _ hvalues
  constructor
  · exact fun b => (hcontains b).trans (hnames.contains b).symm
  · exact hclosed.trans hnames.closed.symm

/-! ### Updates -/

/-- The copies of the values of the places, loaded one after the other. -/
def loadAll (v : Places Bytes) (places : List (Bytes × Bytes)) (ws : WriteSet) : WriteSet :=
  places.foldl (fun ws place => ws.load place.1 place.2 (v place.1 place.2)) ws

theorem loadAll_tracks {v : Places Bytes} {ws : WriteSet} (h : ws.Tracks v v)
    (hdistinct : ws.Distinct) (places : List (Bytes × Bytes)) :
    (loadAll v places ws).Tracks v v ∧ (loadAll v places ws).Distinct ∧
      ∀ b k, (loadAll v places ws).isLoaded b k = true ↔
        (b, k) ∈ places ∨ ws.isLoaded b k = true := by
  induction places generalizing ws with
  | nil => exact ⟨h, hdistinct, fun b k => by simp [loadAll]⟩
  | cons place rest ih =>
    obtain ⟨htracks, hdistinct', hloaded⟩ := ih (h.load place.1 place.2)
      (WriteSet.distinct_load hdistinct place.1 place.2 (v place.1 place.2))
    refine ⟨htracks, hdistinct', fun b k => (hloaded b k).trans ?_⟩
    rw [WriteSet.isLoaded_load, List.mem_cons, Prod.ext_iff]
    constructor
    · rintro (hmem | hplace | hbefore)
      · exact .inl (.inr hmem)
      · exact .inl (.inl hplace)
      · exact .inr hbefore
    · rintro ((hplace | hmem) | hbefore)
      · exact .inr (.inl hplace)
      · exact .inl hmem
      · exact .inr (.inr hbefore)

/-- What is loaded of places that are all new is loaded in their order. -/
theorem places_loadAll (v : Places Bytes) {places : List (Bytes × Bytes)} {ws : WriteSet}
    (hnodup : places.Nodup) (hnew : ∀ place ∈ places, ws.isLoaded place.1 place.2 = false) :
    (loadAll v places ws).places = ws.places ++ places := by
  induction places generalizing ws with
  | nil => simp [loadAll]
  | cons place rest ih =>
    obtain ⟨hplace, hrest⟩ := List.nodup_cons.mp hnodup
    obtain ⟨hfirst, hlater⟩ := List.forall_mem_cons.mp hnew
    have hloaded := WriteSet.places_load_new hfirst (v place.1 place.2)
    change (loadAll v rest (ws.load place.1 place.2 (v place.1 place.2))).places = _
    rw [ih hrest, hloaded, List.append_assoc, List.singleton_append]
    intro place' hplace'
    rw [← Bool.not_eq_true, WriteSet.isLoaded_load, hlater place' hplace']
    rintro (⟨hbucket, hkey⟩ | hfalse)
    · exact hplace (Prod.ext hbucket hkey ▸ hplace')
    · cases hfalse

/-- On copies of the values of places that hold all that a transaction touches, its operations
    answer and do as on the values. -/
theorem execute_loadAll (v : Places Bytes) (tx : Transaction) {places : List (Bytes × Bytes)}
    (hplaces : ∀ place ∈ tx.touched, place ∈ places) :
    ((loadAll v places {}).execute tx).1 = (Transaction.on v tx).map (·.1) ∧
      (∀ out, Transaction.on v tx = .ok out →
        ((loadAll v places {}).execute tx).2.Tracks v out.2) ∧
      ((loadAll v places {}).execute tx).2.Distinct ∧
      ∀ b k, ((loadAll v places {}).execute tx).2.isLoaded b k = true → (b, k) ∈ places := by
  obtain ⟨htracks, hdistinct, hloaded⟩ :=
    loadAll_tracks (WriteSet.tracks_empty v) List.nodup_nil places
  have hops : ∀ op ∈ tx, (loadAll v places {}).isLoaded op.bucket op.key = true := by
    intro op hop
    rw [hloaded]
    exact .inl (hplaces _ (Transaction.mem_touched.mpr ⟨op, hop, rfl⟩))
  obtain ⟨hreply, htracks'⟩ := WriteSet.execute_tracks htracks hops
  refine ⟨hreply, htracks', WriteSet.distinct_execute hdistinct tx, ?_⟩
  intro b k hbk
  rw [WriteSet.isLoaded_execute] at hbk
  rcases (hloaded b k).mp hbk with hmem | hbk
  · exact hmem
  · cases hbk

theorem loading_run (places : List (Bytes × Bytes)) (ws : WriteSet) :
    WriteSet.loading (fun b k => do return (← bucket b).get? k) places ws m =
    ⟨match places.find? (fun place => !m.buckets.contains place.1) with
      | some place => .error (.bucketNotFound place.1)
      | none => .ok (loadAll m.values places ws), m, []⟩ := by
  unfold WriteSet.loading
  dsimp only
  induction places generalizing ws with
  | nil => rfl
  | cons place rest ih =>
    rw [List.foldlM_cons, Action.bind_run, Action.bind_run, Action.bind_run, bucket_run]
    cases hget : m.buckets.get? place.1 with
    | none =>
      rw [List.find?_cons_of_pos (by simp [KeyMap.contains_eq_false.mpr hget])]
    | some found =>
      rw [List.find?_cons_of_neg (by simp [KeyMap.contains_eq_true.mpr ⟨found, hget⟩])]
      simp only [Action.pure_run, ih]
      unfold loadAll
      rw [List.foldl_cons, Store.values_of_bucket hget]
      rfl

theorem evaluate_run (tx : Transaction) :
    (WriteSet.evaluate (m := Action Store) (fun b k => do return (← bucket b).get? k) tx m).state = m ∧
    (WriteSet.evaluate (m := Action Store) (fun b k => do return (← bucket b).get? k) tx m).reply =
      match tx.touched.find? (fun place => !m.buckets.contains place.1) with
      | some place => .error (.bucketNotFound place.1)
      | none =>
        let ran := (loadAll m.values tx.touched {}).execute tx
        ran.1.map fun outcome => (ran.2, outcome) := by
  obtain ⟨hstate, hreply⟩ := WriteSet.evaluate_run (fun b k => do return (← bucket b).get? k) tx m
  rw [hstate, hreply, loading_run]
  cases tx.touched.find? (fun place => !m.buckets.contains place.1) <;> exact ⟨rfl, rfl⟩

/-- An evaluation that answers has found the buckets of all that it changes. -/
theorem contains_of_evaluate {tx : Transaction} {ws : WriteSet} {outcome : TxOutcome}
    (h : (WriteSet.evaluate (m := Action Store) (fun b k => do return (← bucket b).get? k) tx
      m).reply = .ok (ws, outcome)) {c : Change} (hc : c ∈ ws.changes) :
    m.buckets.contains c.bucket = true := by
  rw [(evaluate_run tx).2] at h
  obtain ⟨_, _, hdistinct, hloaded⟩ := execute_loadAll m.values tx fun _ hplace => hplace
  cases hfind : tx.touched.find? (fun place => !m.buckets.contains place.1) with
  | some place =>
    rw [hfind] at h
    cases h
  | none =>
    rw [hfind] at h
    rcases hran : (loadAll m.values tx.touched {}).execute tx with ⟨r, ws'⟩
    rw [hran] at h hdistinct hloaded
    cases r with
    | error f => cases h
    | ok _ =>
      cases h
      have hexists : ∀ place ∈ tx.touched, m.buckets.contains place.1 = true := by
        simpa using hfind
      exact hexists _ (hloaded _ _ ((WriteSet.mem_changes hdistinct).mp hc).1)

/-- Once an evaluation has answered, its changes are published as a whole: publishing looks up
    only buckets that evaluation has found. -/
theorem evaluate_publish (tx : Transaction) :
    (do
      let (ws, outcome) ← WriteSet.evaluate (fun b k => do return (← bucket b).get? k) tx
      publish ws.changes
      return outcome : Action Store TxOutcome) m =
    (do
      let evaluated ← WriteSet.evaluate (fun b k => do return (← bucket b).get? k) tx
      Action.change fun s => s.publish evaluated.1.changes
      return evaluated.2 : Action Store TxOutcome) m := by
  rw [Action.bind_run, Action.bind_run]
  have hstate := (evaluate_run (m := m) tx).1
  have hexists : ∀ evaluated, (WriteSet.evaluate (m := Action Store)
      (fun b k => do return (← bucket b).get? k) tx m).reply = .ok evaluated →
      ∀ c ∈ evaluated.1.changes, m.buckets.contains c.bucket = true :=
    fun _ hreply _ hc => contains_of_evaluate hreply hc
  generalize WriteSet.evaluate (m := Action Store) _ tx m = ran at hstate hexists ⊢
  obtain ⟨_ | evaluated, state, log⟩ := ran
  · rfl
  · dsimp only at hstate
    subst hstate
    have hrun : publish evaluated.1.changes state = ⟨.ok (), state.publish evaluated.1.changes, []⟩ :=
      publish_run (hexists evaluated rfl)
    dsimp only
    rw [Action.bind_of_ok hrun]
    rfl

/-- What is evaluated and published leaves the store as it was if it fails. -/
theorem state_of_evaluate_error {tx : Transaction} {f : Failure} {act : Action Store TxOutcome}
    (hact : act = do
      let (ws, outcome) ← WriteSet.evaluate (fun b k => do return (← bucket b).get? k) tx
      publish ws.changes
      return outcome)
    (h : (act m).reply = .error f) : (act m).state = m := by
  subst hact
  rw [evaluate_publish, Action.bind_run] at h ⊢
  have hstate := (evaluate_run (m := m) tx).1
  generalize WriteSet.evaluate (m := Action Store) _ tx m = ran at hstate h ⊢
  rcases ran with ⟨_ | _, _, _⟩
  · exact hstate
  · cases h

theorem update_refused (hopen : m.closed = false) {tx : Transaction} {f : Failure}
    (hcheck : tx.check = .error f) : update tx m = ⟨.error f, m, f.notice⟩ := by
  unfold update
  rw [Action.bind_run, opened_run hopen, hcheck]
  rfl

/-- A well-formed update is evaluated, and its changes are published. -/
theorem update_checked (hopen : m.closed = false) {tx : Transaction} (hcheck : tx.check = .ok ()) :
    update tx m = (if tx.isEmpty then pure [] else do
      let evaluated ← WriteSet.evaluate (fun b k => do return (← bucket b).get? k) tx
      Action.change fun s => s.publish evaluated.1.changes
      return evaluated.2 : Action Store TxOutcome) m := by
  unfold update
  rw [opened_bind hopen, hcheck]
  cases hempty : tx.isEmpty with
  | true => rfl
  | false => exact evaluate_publish tx

/-- An update is refused for the first place whose bucket is missing, or fails where its operations
    fail on the values, or answers and makes of the values what they make. -/
theorem update_cases (hopen : m.closed = false) {tx : Transaction} (hcheck : tx.check = .ok ())
    {P : Except Failure TxOutcome → Store → Prop}
    (hmissing : ∀ place, tx.touched.find? (fun place => !m.buckets.contains place.1) = some place →
      P (.error (.bucketNotFound place.1)) m)
    (hfails : ∀ f, (∀ place ∈ tx.touched, m.buckets.contains place.1 = true) →
      Transaction.on m.values tx = .error f → P (.error f) m)
    (hanswers : ∀ outcome v m', (∀ place ∈ tx.touched, m.buckets.contains place.1 = true) →
      Transaction.on m.values tx = .ok (outcome, v) → m'.values = v → m'.closed = false →
      (∀ b, m'.buckets.contains b = m.buckets.contains b) → P (.ok outcome) m') :
    P (update tx m).reply (update tx m).state := by
  rw [update_checked hopen hcheck]
  cases hempty : tx.isEmpty with
  | true =>
    rw [List.isEmpty_iff] at hempty
    subst hempty
    refine hanswers [] m.values m ?_ rfl rfl hopen fun _ => rfl
    intro place hplace
    cases hplace
  | false =>
    rw [if_neg (by decide), Action.bind_run]
    obtain ⟨hstate, hreply⟩ := evaluate_run (m := m) tx
    generalize WriteSet.evaluate (m := Action Store) _ tx m = ran at hstate hreply ⊢
    obtain ⟨reply, state, log⟩ := ran
    dsimp only at hstate hreply
    subst hstate hreply
    -- Loading stops at the first place whose bucket is missing; else the operations decide.
    cases hfind : tx.touched.find? (fun place => !state.buckets.contains place.1) with
    | some place => exact hmissing place hfind
    | none =>
      have hexists : ∀ place ∈ tx.touched, state.buckets.contains place.1 = true := by
        simpa using hfind
      obtain ⟨hreply, htracks, hdistinct, hloaded⟩ :=
        execute_loadAll state.values tx fun _ hplace => hplace
      cases hran : (loadAll state.values tx.touched {}).execute tx with
      | mk r ws =>
      rw [hran] at hreply htracks hdistinct hloaded
      cases hon : Transaction.on state.values tx with
      | error f =>
        rw [hon] at hreply
        have hr : r = .error f := hreply
        subst hr
        exact hfails f hexists hon
      | ok out =>
        obtain ⟨outcome, v⟩ := out
        rw [hon] at hreply
        have hr : r = .ok outcome := hreply
        subst hr
        have htracked : ws.Tracks state.values v := htracks (outcome, v) hon
        obtain ⟨hvalues, hclosed, hcontains⟩ := publish_tracked htracked hdistinct
          fun b k hbk => hexists _ (hloaded b k hbk)
        exact hanswers outcome v _ hexists hon hvalues (hclosed.trans hopen) hcontains

end BucketStore.Memory
