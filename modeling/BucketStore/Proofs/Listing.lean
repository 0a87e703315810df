/-
  BucketStore/Proofs/Listing.lean
  ===============================
  **A listing by pages gives every entry once, in key order.**

  `pageOf n g m` cuts pages of `n` bindings from a map, with the last key of a
  page as the token of the next.  Going on behind that key leaves nothing out and
  takes nothing twice, so draining such pages gives the entries of all bindings
  (`listAll_pageOf`), whatever the size of the pages.

  A source of pages that is not the map itself, but answers as it would, is listed
  like it (`ensures_listAll`).  Of any other source, nothing is listed but what its
  pages hold (`ensures_listAll_forall`).
-/
import BucketStore.Listing.Keyset
import BucketStore.Proofs.Fallible
import BucketStore.Proofs.KeyMap
import BucketStore.Proofs.ProgramLogic

namespace BucketStore

variable {α τ γ σ : Type} {n : Nat} {g : Bytes × α → τ} {m : KeyMap Bytes α}

/-! ### Pages of a map -/

/-- The page of at most `n` bindings behind a token, each shown by `g`. -/
def pageOf (n : Nat) (g : Bytes × α → τ) (m : KeyMap Bytes α) (token : Option Token) : Page τ :=
  ⟨((m.after token).take n).map g,
    if n < (m.after token).length then ((m.after token).take n).getLast?.map (·.1) else none⟩

/-- A page that leads on leads to the bindings that it leaves, and those are part of the map. -/
theorem after_pageOf {token : Option Token} {next : Token} {front : List (Bytes × α)}
    (hfront : m.entries = front ++ m.after token)
    (hnext : (pageOf n g m token).next = some next) :
    n < (m.after token).length ∧ m.after (some next) = (m.after token).drop n ∧
      token ≠ some next := by
  unfold pageOf at hnext
  dsimp only at hnext
  split at hnext
  · next hmore =>
    obtain ⟨e, hlast, rfl⟩ := Option.map_eq_some_iff.mp hnext
    obtain ⟨before, htake⟩ := List.getLast?_eq_some_iff.mp hlast
    have hsplit : m.after token = before ++ e :: (m.after token).drop n := by
      have happend := List.take_append_drop n (m.after token)
      rw [htake, List.append_assoc] at happend
      exact happend.symm
    have hentries : m.entries = (front ++ before) ++ e :: (m.after token).drop n := by
      rw [List.append_assoc, ← hsplit]
      exact hfront
    refine ⟨hmore, KeyMap.after_of_append hentries, ?_⟩
    rintro rfl
    have hmem : e ∈ m.after (some e.1) := by
      rw [hsplit]
      simp
    exact KeyMap.ne_of_mem_after hmem rfl
  · cases hnext

/-- A page that leads nowhere shows all that is left. -/
theorem take_of_lastPage {token : Option Token} (hn : 0 < n)
    (hnext : (pageOf n g m token).next = none) : (m.after token).take n = m.after token := by
  unfold pageOf at hnext
  dsimp only at hnext
  split at hnext
  · next hmore =>
    rw [Option.map_eq_none_iff, List.getLast?_eq_none_iff, List.take_eq_nil_iff] at hnext
    rcases hnext with hzero | hempty
    · omega
    · simp [hempty]
  · next hless => exact List.take_of_length_le (by omega)

/-! ### How many pages there are -/

/-- The pages of `n` items each that so many items fill, the last one perhaps in part; there is a
    first page of nothing. -/
def pageCount (n items : Nat) : Nat := max 1 ((items + n - 1) / n)

theorem pageCount_of_le {items : Nat} (hn : 0 < n) (hle : items ≤ n) : pageCount n items = 1 := by
  have hless : (items + n - 1) / n < 2 := by
    apply Nat.div_lt_of_lt_mul
    omega
  unfold pageCount
  omega

theorem pageCount_of_lt {items : Nat} (hn : 0 < n) (hlt : n < items) :
    pageCount n items = pageCount n (items - n) + 1 := by
  have hround : (items + n - 1) / n = (items - n + n - 1) / n + 1 := by
    rw [← Nat.add_div_right _ hn]
    congr 1
    omega
  have hfirst : 0 < (items - n + n - 1) / n := by
    apply Nat.div_pos _ hn
    omega
  unfold pageCount
  omega

example : pageCount 2 4 = 2 ∧ pageCount 2 5 = 3 ∧ pageCount 2 0 = 1 := by decide

/-! ### Draining -/

/-- The listing is about to fetch the page behind the token. -/
structure Paginator.At (p : Paginator) (token : Option Token) : Prop where
  fetches : p.nextFetch = (some token, { p with state := .fetching token })
  lastToken : p.lastToken = token

theorem at_start : Paginator.At {} none := ⟨rfl, rfl⟩

theorem decodeAll_map {decode : τ → Except Failure (Option Entry)}
    {entry : Bytes × α → Option Entry} (hdecode : ∀ e, decode (g e) = .ok (entry e))
    (l : List (Bytes × α)) : Paginator.decodeAll decode (l.map g) = .ok (l.filterMap entry) := by
  induction l with
  | nil => rfl
  | cons e rest ih =>
    rw [List.map_cons, List.filterMap_cons]
    simp only [Paginator.decodeAll, hdecode, ih, bind, Except.bind, pure, Except.pure]
    cases entry e <;> rfl

/-- Draining the pages behind a token adds the entries of the bindings behind it, and takes as many
    pages as they fill. -/
theorem drain_pageOf {decode : τ → Except Failure (Option Entry)}
    {entry : Bytes × α → Option Entry} (hdecode : ∀ e, decode (g e) = .ok (entry e)) (hn : 0 < n)
    {limit : Nat} {token : Option Token} {p : Paginator} (hp : p.At token)
    (hfront : ∃ front, m.entries = front ++ m.after token)
    (hlimit : (m.after token).length < limit) :
    ∃ q : Paginator, drain (m := Except Failure) (fun () token => .ok (pageOf n g m token, ()))
        decode limit () p = .ok q ∧
      q.finish = .ok (p.entries ++ (m.after token).filterMap entry) ∧
      q.pages = p.pages + pageCount n (m.after token).length := by
  induction limit generalizing token p with
  | zero => omega
  | succ limit ih =>
    obtain ⟨front, hfront⟩ := hfront
    unfold drain
    rw [hp.fetches]
    simp only [bind, Except.bind, Paginator.accumulate]
    have hdecoded : Paginator.decodeAll decode (pageOf n g m token).items =
        .ok (((m.after token).take n).filterMap entry) := decodeAll_map hdecode _
    rw [hdecoded]
    dsimp only
    cases hnext : (pageOf n g m token).next with
    | none =>
      have htake := take_of_lastPage hn hnext
      have hfits : (m.after token).length ≤ n := by
        rw [← htake]
        exact List.length_take_le ..
      rw [htake, pageCount_of_le hn hfits]
      cases limit with
      | zero => exact ⟨_, rfl, rfl, rfl⟩
      | succ limit => exact ⟨_, rfl, rfl, rfl⟩
    | some next =>
      obtain ⟨hmore, hafter, hnew⟩ := after_pageOf hfront hnext
      have hnew' : p.lastToken ≠ some next := by
        rw [hp.lastToken]
        exact hnew
      simp only [Paginator.advance, hnew', if_false]
      have hfront' : ∃ front', m.entries = front' ++ m.after (some next) := by
        refine ⟨front ++ (m.after token).take n, ?_⟩
        rw [hafter, List.append_assoc, List.take_append_drop]
        exact hfront
      have hlimit' : (m.after (some next)).length < limit := by
        rw [hafter, List.length_drop]
        omega
      have hp' : Paginator.At { p with
          state := .fetching (some next)
          lastToken := some next
          entries := p.entries ++ ((m.after token).take n).filterMap entry
          pages := p.pages + 1 } (some next) := ⟨rfl, rfl⟩
      obtain ⟨q, hdrain, hfinish, hpages⟩ := ih hp' hfront' hlimit'
      refine ⟨q, hdrain, ?_, ?_⟩
      · rw [hfinish, hafter, List.append_assoc, ← List.filterMap_append, List.take_append_drop]
      · rw [hpages, hafter, List.length_drop, pageCount_of_lt hn hmore]
        dsimp only
        omega

/-- **A listing by pages gives the entries of all bindings, in key order.** -/
theorem listAll_pageOf {decode : τ → Except Failure (Option Entry)}
    {entry : Bytes × α → Option Entry} (hdecode : ∀ e, decode (g e) = .ok (entry e)) (hn : 0 < n)
    {limit : Nat} (hlimit : m.size < limit) :
    listAll (m := Except Failure) (fun () token => .ok (pageOf n g m token, ())) decode limit () =
      .ok (m.entries.filterMap entry) := by
  obtain ⟨q, hdrain, hfinish, _⟩ := drain_pageOf hdecode hn at_start ⟨[], rfl⟩ hlimit
  unfold listAll
  rw [hdrain]
  simp only [bind, Except.bind, hfinish]
  rfl

/-- If the first page is the last, its items are all that is listed. -/
theorem listAll_firstPage {τ : Type} {pages : Option Token → Page τ}
    {decode : τ → Except Failure (Option Entry)} {entries : List Entry}
    (hlast : (pages none).next = none)
    (hentries : Paginator.decodeAll decode (pages none).items = .ok entries) (limit : Nat) :
    listAll (m := Except Failure) (fun () token => .ok (pages token, ())) decode (limit + 1) () =
      .ok entries := by
  unfold listAll drain
  rw [at_start.fetches]
  simp only [bind, Except.bind, Paginator.accumulate, hlast, hentries, Paginator.advance]
  cases limit with
  | zero => rfl
  | succ limit => rfl

/-! ### Pages that decode alike -/

section

variable {τ' : Type} {decode : τ → Except Failure (Option Entry)}
  {decode' : τ' → Except Failure (Option Entry)} {pages : Option Token → Page τ}
  {pages' : Option Token → Page τ'}

/-- Leaving out items before they are decoded is like decoding them to nothing. -/
theorem decodeAll_filterMap {ι : Type} (f : ι → Option τ) (l : List ι) :
    Paginator.decodeAll decode (l.filterMap f) =
      Paginator.decodeAll (fun a => (f a).elim (.ok none) decode) l := by
  induction l with
  | nil => rfl
  | cons a rest ih =>
    rw [List.filterMap_cons]
    cases hfirst : f a with
    | none =>
      simp only [Paginator.decodeAll, hfirst, Option.elim_none, ih, bind, Except.bind, pure, Except.pure]
      cases Paginator.decodeAll (fun a => (f a).elim (.ok none) decode) rest <;> rfl
    | some item => simp only [Paginator.decodeAll, hfirst, Option.elim_some, ih]

/-- Pages that decode to the same entries are taken in alike, unless they fail. -/
theorem accumulate_congr {page : Page τ} {page' : Page τ'} (hnext : page.next = page'.next)
    (hitems : Paginator.decodeAll decode page.items = Paginator.decodeAll decode' page'.items)
    (p : Paginator) :
    (p.accumulate decode page).1 = (p.accumulate decode' page').1 ∧
      ((p.accumulate decode page).1 = .ok () →
        p.accumulate decode page = p.accumulate decode' page') := by
  unfold Paginator.accumulate
  rw [hitems, hnext]
  split
  · dsimp only
    split
    · exact ⟨rfl, fun hok => nomatch hok⟩
    · exact ⟨rfl, fun _ => rfl⟩
  · exact ⟨rfl, fun _ => rfl⟩

theorem drain_congr (hnext : ∀ token, (pages token).next = (pages' token).next)
    (hitems : ∀ token, Paginator.decodeAll decode (pages token).items =
      Paginator.decodeAll decode' (pages' token).items) (limit : Nat) (p : Paginator) :
    drain (m := Except Failure) (fun () token => .ok (pages token, ())) decode limit () p =
      drain (m := Except Failure) (fun () token => .ok (pages' token, ())) decode' limit () p := by
  induction limit generalizing p with
  | zero => rfl
  | succ limit ih =>
    unfold drain
    cases p.nextFetch with
    | mk token p' =>
      cases token with
      | none => rfl
      | some token =>
        simp only [bind, Except.bind]
        obtain ⟨hresult, hpaginator⟩ := accumulate_congr (hnext token) (hitems token) p'
        cases htaken : p'.accumulate decode (pages token) with
        | mk result q =>
          cases htaken' : p'.accumulate decode' (pages' token) with
          | mk result' q' =>
            simp only [htaken, htaken'] at hresult hpaginator
            subst hresult
            cases result with
            | error f => rfl
            | ok _ =>
              cases hpaginator rfl
              exact ih q

/-- Two sources whose pages lead on alike, and decode to the same entries, are listed alike. -/
theorem listAll_congr (hnext : ∀ token, (pages token).next = (pages' token).next)
    (hitems : ∀ token, Paginator.decodeAll decode (pages token).items =
      Paginator.decodeAll decode' (pages' token).items) (limit : Nat) :
    listAll (m := Except Failure) (fun () token => .ok (pages token, ())) decode limit () =
      listAll (m := Except Failure) (fun () token => .ok (pages' token, ())) decode' limit () := by
  unfold listAll
  rw [drain_congr hnext hitems]

end

/-! ### The pages of the other drivers -/

/-- The pages that are cut from a map's bindings as they are read. -/
theorem fill_ok (n : Nat) (l : List α) :
    Keyset.fill n (l.map .ok) = .ok (l.take n, decide (n < l.length)) := by
  induction l generalizing n with
  | nil =>
    unfold Keyset.fill
    simp
  | cons a rest ih =>
    cases n with
    | zero => simp [Keyset.fill]
    | succ n =>
      simp only [List.map_cons, Keyset.fill, bind, Except.bind, pure, Except.pure, ih]
      simp

/-- What fails to fill a page is the failure of an item. -/
theorem fill_eq_error {n : Nat} {items : List (Except Failure α)} {f : Failure}
    (h : Keyset.fill n items = .error f) : .error f ∈ items := by
  induction items generalizing n with
  | nil => cases n <;> cases h
  | cons item rest ih =>
    cases n with
    | zero => cases h
    | succ n =>
      unfold Keyset.fill at h
      rcases bind_eq_error.mp h with rfl | ⟨a, -, h⟩
      · exact List.mem_cons_self ..
      · rcases bind_eq_error.mp h with hrest | ⟨_, -, h⟩
        · exact List.mem_cons_of_mem _ (ih hrest)
        · cases h

theorem max_one_toNat (size : UInt64) : (max size 1).toNat = max size.toNat 1 := by
  change (if size ≤ 1 then 1 else size).toNat = _
  split
  · next hle =>
    have hle' : size.toNat ≤ 1 := UInt64.le_iff_toNat_le.mp hle
    rw [Nat.max_eq_right hle']
    rfl
  · next hmore =>
    have hmore' : ¬size.toNat ≤ 1 := fun hle => hmore (UInt64.le_iff_toNat_le.mpr hle)
    omega

theorem max_one_pos (size : UInt64) : 0 < (max size 1).toNat := by
  rw [max_one_toNat]
  omega

/-- Short of the greatest size there is a number for the one item more. -/
theorem lookAhead_eq {size : UInt64} (h : size.toNat + 1 < UInt64.size) :
    lookAhead size = .ok (max size.toNat 1 + 1) := by
  have htwo : 1 + 1 < UInt64.size := by decide
  unfold lookAhead
  rw [max_one_toNat]
  exact if_pos (by omega)

theorem lookAhead_eq_error {size : UInt64} {f : Failure} (h : lookAhead size = .error f) :
    f = .overflow := by
  unfold lookAhead at h
  dsimp only at h
  split at h
  · cases h
  · cases h
    rfl

theorem lookAhead_greatest {size : UInt64} (h : ¬size.toNat + 1 < UInt64.size) :
    lookAhead size = .error .overflow := by
  unfold lookAhead
  rw [max_one_toNat]
  exact if_neg (by omega)

theorem listAll_entries (bucket : Bytes) (map : KeyMap Bytes Bytes) {limit : Nat} (hn : 0 < n)
    (hlimit : map.size < limit) :
    listAll (m := Except Failure) (fun () token => .ok (pageOf n id map token, ()))
      (fun pair => .ok (some (Keyset.entry bucket pair))) limit () =
      .ok (map.entries.map (Keyset.entry bucket)) := by
  have hall : listAll (m := Except Failure) (fun () token => .ok (pageOf n id map token, ()))
      (fun pair => .ok (some (Keyset.entry bucket pair))) limit () =
      .ok (map.entries.filterMap fun pair => some (Keyset.entry bucket pair)) := by
    refine listAll_pageOf ?_ hn hlimit
    exact fun _ => rfl
  rw [hall, List.filterMap_eq_map']

/-- A keyset page is cut from the map, and a size of zero counts as one. -/
theorem keyset_read (map : KeyMap Bytes Bytes) (size : UInt64) (token : Option Token) :
    Keyset.read map size token = .ok (pageOf (max size.toNat 1) id map token) := by
  unfold Keyset.read Keyset.page
  simp only [max_one_toNat, fill_ok, bind, Except.bind, pure, Except.pure, pageOf, List.map_id,
    decide_eq_true_eq]

/-- Listing a map by keyset pages gives all its bindings. -/
theorem keyset_list (bucket : Bytes) (map : KeyMap Bytes Bytes) (size : UInt64) :
    Keyset.list bucket map size = .ok (map.entries.map (Keyset.entry bucket)) := by
  unfold Keyset.list
  simp only [keyset_read, bind, Except.bind, pure, Except.pure]
  exact listAll_entries bucket map (Nat.lt_of_lt_of_le Nat.one_pos (Nat.le_max_right ..))
    (Nat.lt_succ_self map.size)

/-! ### Sources that answer like a map -/

section

variable {Call : Type} {Reply : Call → Type} {K : Contract Call Reply σ}
  {fetch : γ → Option Token → Program Call Reply (Page τ × γ)} {pages : Option Token → Page τ}
  {decode : τ → Except Failure (Option Entry)} {P : γ → σ → Prop}

theorem ensures_drain (hfetch : ∀ memory token s, P memory s →
      (fetch memory token).Ensures K s fun r s' =>
        ∃ memory', r = .ok (pages token, memory') ∧ P memory' s')
    {limit : Nat} {memory : γ} {p q : Paginator} {s : σ} (hs : P memory s)
    (hdrain : drain (m := Except Failure) (fun () token => .ok (pages token, ())) decode limit () p =
      .ok q) :
    (drain fetch decode limit memory p).Ensures K s fun r s' =>
      r = .ok q ∧ ∃ memory', P memory' s' := by
  induction limit generalizing memory p s with
  | zero =>
    cases hdrain
    exact ⟨rfl, memory, hs⟩
  | succ limit ih =>
    unfold drain at hdrain ⊢
    cases hnext : p.nextFetch with
    | mk token p' =>
      rw [hnext] at hdrain
      cases token with
      | none =>
        cases hdrain
        exact ⟨rfl, memory, hs⟩
      | some token =>
        refine Program.ensures_bind.mpr ((hfetch memory token s hs).mono ?_)
        rintro _ s' ⟨memory', rfl, hs'⟩
        simp only [bind, Except.bind] at hdrain
        dsimp only
        cases haccumulate : p'.accumulate decode (pages token) with
        | mk r p'' =>
          rw [haccumulate] at hdrain
          cases r with
          | error f => cases hdrain
          | ok _ => exact ih hs' hdrain

/-- What fetches pages as they are cut from elsewhere lists what is there. -/
theorem ensures_listAll (hfetch : ∀ memory token s, P memory s →
      (fetch memory token).Ensures K s fun r s' =>
        ∃ memory', r = .ok (pages token, memory') ∧ P memory' s')
    {limit : Nat} {memory : γ} {s : σ} {entries : List Entry} (hs : P memory s)
    (hlist : listAll (m := Except Failure) (fun () token => .ok (pages token, ())) decode limit () =
      .ok entries) :
    (listAll fetch decode limit memory).Ensures K s fun r s' =>
      r = .ok entries ∧ ∃ memory', P memory' s' := by
  unfold listAll at hlist ⊢
  obtain ⟨q, hdrain, hfinish⟩ := bind_eq_ok.mp hlist
  refine Program.ensures_bind.mpr ((ensures_drain hfetch hs hdrain).mono ?_)
  rintro _ s' ⟨rfl, hs'⟩
  cases hfound : q.finish with
  | error f =>
    rw [hfound] at hfinish
    cases hfinish
  | ok found =>
    rw [hfound] at hfinish
    cases hfinish
    dsimp only
    rw [hfound]
    exact ⟨rfl, hs'⟩

theorem ensures_listAll_fails {limit : Nat} (hlimit : 0 < limit) {memory : γ} {s : σ}
    {Q : Except Failure (List Entry) → σ → Prop}
    (hfetch : (fetch memory none).Ensures K s fun r s' => ∃ f, r = .error f ∧ Q (.error f) s') :
    (listAll fetch decode limit memory).Ensures K s Q := by
  cases limit with
  | zero => cases hlimit
  | succ limit =>
    refine Program.ensures_bind.mpr (Program.ensures_bind.mpr (hfetch.mono ?_))
    rintro _ s' ⟨f, rfl, hQ⟩
    exact hQ

/-- What every fetch leaves, a listing does. -/
theorem leaves_listAll {I : σ → Prop}
    (hfetch : ∀ memory token s, I s → (fetch memory token).Leaves K s fun _ => I) (limit : Nat)
    {memory : γ} {s : σ} (hs : I s) : (listAll fetch decode limit memory).Leaves K s fun _ => I := by
  have hdrain : ∀ p : Paginator, (drain fetch decode limit memory p).Leaves K s fun _ => I := by
    induction limit generalizing memory s with
    | zero => exact fun p => Program.leaves_pure hs
    | succ limit ih =>
      intro p
      unfold drain
      split
      · exact Program.leaves_pure hs
      · next token _ _ =>
        refine (hfetch memory token s hs).bind fun fetched s' hs' => ?_
        dsimp only
        split
        · exact Program.leaves_throw
        · exact ih hs' _
  refine (hdrain {}).bind fun p s' hs' => ?_
  split
  · exact Program.leaves_pure hs'
  · exact Program.leaves_throw

end

/-! ### What may be listed -/

section

variable {Call : Type} {Reply : Call → Type} {K : Contract Call Reply σ}
  {fetch : γ → Option Token → Program Call Reply (Page τ × γ)}
  {decode : τ → Except Failure (Option Entry)} {P : Entry → Prop}

theorem mem_decodeAll {items : List τ} {entries : List Entry}
    (h : Paginator.decodeAll decode items = .ok entries) {e : Entry} (he : e ∈ entries) :
    ∃ item ∈ items, decode item = .ok (some e) := by
  induction items generalizing entries with
  | nil =>
    cases h
    cases he
  | cons item rest ih =>
    unfold Paginator.decodeAll at h
    obtain ⟨entry, hfirst, h⟩ := bind_eq_ok.mp h
    obtain ⟨entries', hrest, hentries⟩ := bind_eq_ok.mp h
    cases hentries
    rcases List.mem_append.mp he with hmem | hmem
    · rw [Option.mem_toList] at hmem
      exact ⟨item, List.mem_cons_self .., hfirst.trans (congrArg Except.ok hmem)⟩
    · obtain ⟨item', hitem', hdecode⟩ := ih hrest hmem
      exact ⟨item', List.mem_cons_of_mem _ hitem', hdecode⟩

theorem entries_nextFetch (p : Paginator) : p.nextFetch.2.entries = p.entries := by
  unfold Paginator.nextFetch
  split <;> rfl

theorem entries_advance (p : Paginator) (next : Option Token) :
    (p.advance next).2.entries = p.entries := by
  unfold Paginator.advance
  split
  · rfl
  · split <;> rfl

theorem mem_decoded {items : List τ} {e : Entry} (he : e ∈ Paginator.decoded decode items) :
    ∃ item ∈ items, decode item = .ok (some e) := by
  induction items with
  | nil => cases he
  | cons item rest ih =>
    unfold Paginator.decoded at he
    split at he
    · cases he
    · next entry hfirst =>
      rcases List.mem_append.mp he with hmem | hmem
      · rw [Option.mem_toList] at hmem
        exact ⟨item, List.mem_cons_self .., hfirst.trans (congrArg Except.ok hmem)⟩
      · obtain ⟨item', hitem', hdecode⟩ := ih hmem
        exact ⟨item', List.mem_cons_of_mem _ hitem', hdecode⟩

/-- Taking in a page adds decoded items of it only. -/
theorem mem_accumulate {page : Page τ} {p : Paginator} {e : Entry}
    (he : e ∈ (p.accumulate decode page).2.entries) :
    e ∈ p.entries ∨ ∃ item ∈ page.items, decode item = .ok (some e) := by
  unfold Paginator.accumulate at he
  split at he
  · dsimp only at he
    split at he
    · rcases List.mem_append.mp he with hmem | hmem
      · exact .inl hmem
      · exact .inr (mem_decoded hmem)
    · next entries hdecode =>
      rw [entries_advance] at he
      rcases List.mem_append.mp he with hmem | hmem
      · exact .inl hmem
      · exact .inr (mem_decodeAll hdecode hmem)
  · exact .inl he

/-- Nothing is listed but what the items of fetched pages are decoded to. -/
theorem ensures_listAll_forall (hfetch : ∀ memory token s,
      (fetch memory token).Ensures K s fun r _ => ∀ page memory', r = .ok (page, memory') →
        ∀ item ∈ page.items, ∀ e, decode item = .ok (some e) → P e)
    (limit : Nat) (memory : γ) (s : σ) :
    (listAll fetch decode limit memory).Ensures K s fun r _ =>
      ∀ entries, r = .ok entries → ∀ e ∈ entries, P e := by
  have hdrain : ∀ p : Paginator, (∀ e ∈ p.entries, P e) →
      (drain fetch decode limit memory p).Ensures K s fun r _ =>
        ∀ p', r = .ok p' → ∀ e ∈ p'.entries, P e := by
    induction limit generalizing memory s with
    | zero =>
      rintro p hp _ ⟨⟩
      exact hp
    | succ limit ih =>
      intro p hp
      have hnext := entries_nextFetch p
      unfold drain
      split
      · next p' hnextFetch =>
        rw [hnextFetch] at hnext
        rintro _ ⟨⟩
        exact hnext ▸ hp
      · next token p' hnextFetch =>
        rw [hnextFetch] at hnext
        refine Program.ensures_bind.mpr ((hfetch memory token s).mono ?_)
        rintro (f | ⟨page, memory'⟩) s' hpage
        · exact fun _ hr => nomatch hr
        · have hentries : ∀ e ∈ (p'.accumulate decode page).2.entries, P e := by
            intro e he
            rcases mem_accumulate he with hmem | ⟨item, hitem, hdecode⟩
            · exact hp e (hnext ▸ hmem)
            · exact hpage page memory' rfl item hitem e hdecode
          dsimp only
          split
          · exact Program.ensures_throw.mpr fun _ hr => nomatch hr
          · next hstep =>
            rw [hstep] at hentries
            exact ih memory' s' _ hentries
  refine Program.ensures_bind.mpr ((hdrain {} fun _ he => nomatch he).mono ?_)
  rintro (f | p) s' hp
  · exact fun _ hr => nomatch hr
  · dsimp only
    unfold Paginator.finish
    split
    · next entries hfinish =>
      split at hfinish
      · cases hfinish
        rintro _ ⟨⟩
        exact hp p rfl
      · cases hfinish
    · exact Program.ensures_throw.mpr fun _ hr => nomatch hr

end

end BucketStore
