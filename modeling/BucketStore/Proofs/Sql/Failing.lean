/-
  BucketStore/Proofs/Sql/Failing.lean
  ===================================
  **An attempt at an update is made as a whole, or not at all, whatever fails.**

  Any statement may fail, with any fault, whether or not it was carried out; columns
  may come back empty and connections may be lost (`Answered`).  Two things are relied
  on: a commit that fails was not carried out, and a rollback always is.

  A client that fails in the middle of a transaction can still bring back the tables
  that the transaction began with (`Undoable`), so a failed attempt leaves the tables
  as they were.  An attempt that answers has committed what its operations make of the
  values that it found (`ensures_tryUpdate`).
-/
import BucketStore.Proofs.Embedded.Updates
import BucketStore.Proofs.Sql.Updating

namespace BucketStore.Sql

open Program hiding bind
open Protocol

variable {d : Dialect} {statement : Statement} {s s' : Server} {r : Except Fault (List Row)}
  {T X : Tables} {c c' : Client Server} {α : Type}

/-! ### Statements that may fail -/

/-- The servers have the same tables, and would bring back the same ones. -/
structure Server.Same (s s' : Server) : Prop where
  tables : s'.tables = s.tables
  saved : s'.saved = s.saved

/-- What a statement may be answered with, and what server it may leave. -/
inductive Answered (d : Dialect) (statement : Statement) (s : Server) :
    Except Fault (List Row) → Server → Prop
  | served : Answered d statement s (Server.execute d statement s).1 (Server.execute d statement s).2
  /-- The last column of every row comes back empty. -/
  | emptied : Answered d statement s
      ((Server.execute d statement s).1.map fun rows => rows.map ScriptedServer.emptyLast)
      (Server.execute d statement s).2
  | refused {fault : Fault} {s' : Server} : fault.isLoss = false → statement ≠ .rollback →
    s.Same s' → Answered d statement s (.error fault) s'
  /-- It is carried out, but a fault is answered. -/
  | denied {fault : Fault} {s' : Server} : fault.isLoss = false → statement ≠ .commit →
    (Server.execute d statement s).2.Same s' → Answered d statement s (.error fault) s'
  | lost {fault : Fault} : fault.isLoss = true → Answered d statement s (.error fault) s.rolledBack
  /-- It is carried out, and the connection is lost before the answer. -/
  | lostAfter {fault : Fault} : fault.isLoss = true → statement ≠ .commit →
    Answered d statement s (.error fault) (Server.execute d statement s).2.rolledBack

/-- A client of a server that may fail every statement. -/
def failing (d : Dialect) : Contract Call Call.Reply (Client Server) where
  needs _ _ := True
  allows
    | .connect, c, _, c' => c' = c
    | .execute statement, c, reply, c' =>
      if c.closed = true then reply = .error .poolClosed ∧ c' = c
      else Answered d statement c.server reply c'.server ∧ c' = c.told statement reply c'.server
    | .abandon, c, _, c' =>
      if c.inTransaction = true ∧ c.closed = false then
        (∃ reply, Answered d .rollback c.server reply c'.server) ∧
          c' = { c with server := c'.server, inTransaction := false }
      else c' = { c with inTransaction := false }

/-- The server has these tables, and would bring back no others. -/
structure Calm (T : Tables) (s : Server) : Prop where
  tables : s.tables = T
  saved : ∀ t, s.saved = some t → t = T

/-- No transaction is open, and there are these tables. -/
structure AtRest (T : Tables) (c : Client Server) : Prop where
  idle : c.inTransaction = false
  calm : Calm T c.server

/-- A transaction that began with the tables `T` can be rolled back. -/
structure Open (T : Tables) (c : Client Server) : Prop where
  busy : c.inTransaction = true
  opened : c.closed = false
  saved : c.server.saved = some T

/-- A transaction that began with the tables `T` has made them `X` so far. -/
structure Within (T X : Tables) (c : Client Server) : Prop extends Open T c where
  tables : c.server.tables = X
  unfailed : c.server.failed = false

/-- If a transaction is open, rolling it back brings the tables `T`. -/
def Undoable (T : Tables) (c : Client Server) : Prop := AtRest T c ∨ Open T c

/-! ### Inside of a transaction -/

/-- The statement neither begins nor ends a transaction. -/
def Statement.Inner : Statement → Prop
  | .beginTransaction | .commit | .rollback => False
  | _ => True

theorem Statement.inner_on (table : Table) (t : TableStatement) : (Statement.on table t).Inner :=
  trivial

theorem Statement.inner_isolate (level : Isolation) : (Statement.isolate level).Inner := trivial

/-- What a server does with a statement that neither begins nor ends a transaction. -/
theorem Statement.Inner.execute (h : statement.Inner) (s : Server) :
    Server.execute d statement s =
      if s.failed then (.error Server.transactionFailed, s) else Server.proceed d statement s := by
  cases statement <;> first | rfl | cases h

theorem Statement.Inner.saved (h : statement.Inner) (s : Server) :
    (Server.execute d statement s).2.saved = s.saved := by
  rw [h.execute]
  split
  · rfl
  · cases statement with
    | on table t =>
      unfold Server.proceed
      dsimp only
      split <;> simp
    | isolate level =>
      unfold Server.proceed
      dsimp only
      split
      · rfl
      · split <;> simp
    | beginTransaction => cases h
    | commit => cases h
    | rollback => cases h
    | ping => exact Server.asked_saved s
    | version => exact Server.asked_saved s

/-- What answers in a transaction that has not failed leaves it so. -/
theorem Statement.Inner.unfailed (h : statement.Inner) {rows : List Row}
    (hexecute : Server.execute d statement s = (.ok rows, s')) :
    s.failed = false ∧ s'.failed = false := by
  rw [h.execute] at hexecute
  split at hexecute
  · cases hexecute
  · next hfailed =>
    rw [Bool.not_eq_true] at hfailed
    refine ⟨hfailed, ?_⟩
    unfold Server.proceed at hexecute
    cases statement with
    | on table t =>
      dsimp only at hexecute
      split at hexecute
      · cases hexecute
        exact (Server.asked_failed s).trans hfailed
      · cases hexecute
    | isolate level =>
      dsimp only at hexecute
      split at hexecute
      · cases hexecute
        exact hfailed
      · split at hexecute
        · cases hexecute
        · cases hexecute
          exact hfailed
    | beginTransaction => cases h
    | commit => cases h
    | rollback => cases h
    | ping =>
      cases hexecute
      exact (Server.asked_failed s).trans hfailed
    | version =>
      cases hexecute
      exact (Server.asked_failed s).trans hfailed

theorem tables_isolate (level : Isolation) (s : Server) :
    (Server.execute d (.isolate level) s).2.tables = s.tables := by
  rw [(Statement.inner_isolate level).execute]
  unfold Server.proceed
  split
  · rfl
  · dsimp only
    split
    · rfl
    · split <;> simp

/-- A statement about a table that is answered means something there. -/
theorem meaning_of_execute {table : Table} {t : TableStatement} {rows : List Row}
    (h : Server.execute d (.on table t) s = (.ok rows, s')) :
    ∃ after, t.meaning (s.tables.get? table.name) = .ok (rows, after) ∧
      s'.tables = s.tables.put table.name after := by
  obtain ⟨hfailed, -⟩ := (Statement.inner_on table t).unfailed h
  cases hmeaning : t.meaning (s.tables.get? table.name) with
  | ok meant =>
    rw [Server.execute_answered hfailed hmeaning] at h
    cases h
    exact ⟨_, rfl, rfl⟩
  | error refusal =>
    rw [Server.execute_refused hfailed hmeaning] at h
    cases h

/-- The server's own faults are no losses. -/
theorem isLoss_execute {fault : Fault} (h : (Server.execute d statement s).1 = .error fault) :
    fault.isLoss = false := by
  have hfault : ∀ text state number, (Server.fault d text state number).isLoss = false := by
    intro text state number
    cases d <;> rfl
  have hproceed : ∀ {fault : Fault}, (Server.proceed d statement s).1 = .error fault →
      fault.isLoss = false := by
    intro fault h
    unfold Server.proceed at h
    split at h
    · split at h
      · cases h
      · next refusal _ =>
        cases h
        cases refusal <;> exact hfault ..
    · cases h
    · split at h
      · cases h
      · split at h
        · cases h
          exact hfault ..
        · cases h
    · cases h
    · cases h
  unfold Server.execute at h
  split at h
  · cases h
  · cases h
  · split at h
    · cases h
      rfl
    · exact hproceed h

/-- A reply with rows tells that the statement was carried out. -/
theorem Answered.rows {rows : List Row} (h : Answered d statement s (.ok rows) s') :
    ∃ found, Server.execute d statement s = (.ok found, s') ∧
      (rows = found ∨ rows = found.map ScriptedServer.emptyLast) := by
  generalize hr : (Except.ok rows : Except Fault (List Row)) = r at h
  cases h with
  | served => exact ⟨rows, Prod.ext hr.symm rfl, .inl rfl⟩
  | emptied =>
    cases hfound : (Server.execute d statement s).1 with
    | error fault =>
      rw [hfound] at hr
      cases hr
    | ok found =>
      rw [hfound] at hr
      cases hr
      exact ⟨found, Prod.ext hfound rfl, .inr rfl⟩
  | _ => cases hr

theorem Server.rolledBack_of_saved (h : s.saved = some T) : s.rolledBack = { tables := T } := by
  unfold Server.rolledBack
  rw [h]
  rfl

/-- If a statement fails in the middle of a transaction, or a commit does, the tables that it began
    with are still kept, or they are back with the loss of the connection. -/
theorem Answered.fault {fault : Fault} (h : Answered d statement s (.error fault) s')
    (hstatement : statement.Inner ∨ statement = .commit) (hsaved : s.saved = some T) :
    fault.isLoss = false ∧ s'.saved = some T ∨ fault.isLoss = true ∧ s' = { tables := T } := by
  have hkept : statement ≠ .commit → (Server.execute d statement s).2.saved = some T := by
    intro hcommit
    rw [(hstatement.resolve_right hcommit).saved s, hsaved]
  -- Of itself the server does not fail a commit.
  have hserved : (Server.execute d statement s).1 = .error fault → statement ≠ .commit := by
    rintro hfault rfl
    cases hfault
  generalize hr : (Except.error fault : Except Fault (List Row)) = r at h
  cases h with
  | served => exact .inl ⟨isLoss_execute hr.symm, hkept (hserved hr.symm)⟩
  | emptied =>
    cases hfault : (Server.execute d statement s).1 with
    | ok rows =>
      rw [hfault] at hr
      cases hr
    | error fault' =>
      rw [hfault] at hr
      cases hr
      exact .inl ⟨isLoss_execute hfault, hkept (hserved hfault)⟩
  | refused hloss _ hsame =>
    cases hr
    exact .inl ⟨hloss, hsame.saved.trans hsaved⟩
  | denied hloss hcommit hsame =>
    cases hr
    exact .inl ⟨hloss, hsame.saved.trans (hkept hcommit)⟩
  | lost hloss =>
    cases hr
    exact .inr ⟨hloss, Server.rolledBack_of_saved hsaved⟩
  | lostAfter hloss hcommit =>
    cases hr
    exact .inr ⟨hloss, Server.rolledBack_of_saved (hkept hcommit)⟩

/-! ### What the client makes of it -/

theorem allows_execute (hopen : c.closed = false) (h : (failing d).allows (.execute statement) c r c') :
    Answered d statement c.server r c'.server ∧ c' = c.told statement r c'.server := by
  change if c.closed = true then _ else _ at h
  rwa [if_neg (by rw [hopen]; decide)] at h

theorem Within.rows (h : Within T X c) (hinner : statement.Inner) {rows : List Row}
    (hallows : (failing d).allows (.execute statement) c (.ok rows) c') :
    ∃ found, Server.execute d statement c.server = (.ok found, c'.server) ∧
      (rows = found ∨ rows = found.map ScriptedServer.emptyLast) ∧ Within T c'.server.tables c' := by
  obtain ⟨hanswered, hc'⟩ := allows_execute h.opened hallows
  obtain ⟨found, hexecute, hrows⟩ := hanswered.rows
  refine ⟨found, hexecute, hrows, ⟨?_, ?_, ?_⟩, rfl, (hinner.unfailed hexecute).2⟩
  · rw [hc']
    cases statement with
    | beginTransaction => cases hinner
    | commit => cases hinner
    | rollback => cases hinner
    | _ => exact h.busy
  · rw [hc']
    exact h.opened
  · have hsaved := hinner.saved (d := d) c.server
    rwa [hexecute, h.saved] at hsaved

theorem Within.undoable (h : Within T X c) (hstatement : statement.Inner ∨ statement = .commit)
    {fault : Fault} (hallows : (failing d).allows (.execute statement) c (.error fault) c') :
    Undoable T c' := by
  obtain ⟨hanswered, hc'⟩ := allows_execute h.opened hallows
  have hbegin : statement ≠ .beginTransaction := by
    rintro rfl
    rcases hstatement with hinner | hcommit
    · cases hinner
    · cases hcommit
  rcases hanswered.fault hstatement h.saved with ⟨hloss, hsaved⟩ | ⟨hloss, hserver⟩
  · right
    refine ⟨?_, ?_, hsaved⟩
    · rw [hc']
      simp [Client.told, Client.opensAfter, hloss, hbegin, h.busy]
    · rw [hc']
      exact h.opened
  · left
    refine ⟨?_, ?_, ?_⟩
    · rw [hc']
      simp [Client.told, Client.opensAfter, hloss]
    · rw [hserver]
    · simp [hserver]

/-! ### Beginning and ending -/

theorem Calm.rolledBack (h : Calm T s) : Calm T s.rolledBack := by
  refine ⟨?_, by simp [Server.rolledBack]⟩
  unfold Server.rolledBack
  cases hsaved : s.saved with
  | none => exact h.tables
  | some t => exact h.saved t hsaved

theorem Calm.same (h : Calm T s) (hsame : s.Same s') : Calm T s' :=
  ⟨hsame.tables.trans h.tables, fun t ht => h.saved t (hsame.saved.symm.trans ht)⟩

/-- A server begins a transaction with the tables that it has, or has begun one with them before. -/
theorem Calm.begins {rows : List Row} (h : Calm T s)
    (hexecute : Server.execute d .beginTransaction s = (.ok rows, s')) :
    s'.tables = T ∧ s'.saved = some T ∧ s'.failed = false := by
  change (if s.failed = true then (.error Server.transactionFailed, s)
    else (.ok [], if s.saved.isSome && d == .postgres then s else s.begun) :
      Except Fault (List Row) × Server) = _ at hexecute
  split at hexecute
  · cases hexecute
  · next hfailed =>
    rw [Bool.not_eq_true] at hfailed
    split at hexecute
    · next hbusy =>
      cases hexecute
      rw [Bool.and_eq_true, Option.isSome_iff_exists] at hbusy
      obtain ⟨⟨t, hsaved⟩, _⟩ := hbusy
      exact ⟨h.tables, h.saved t hsaved ▸ hsaved, hfailed⟩
    · cases hexecute
      exact ⟨h.tables, congrArg some h.tables, hfailed⟩

/-- A transaction may be prepared and begun in vain, and nothing is different. -/
theorem Calm.answered (h : Calm T s)
    (hstatement : statement = .beginTransaction ∨ ∃ level, statement = .isolate level)
    (hanswered : Answered d statement s r s') : Calm T s' := by
  have hexecuted : Calm T (Server.execute d statement s).2 := by
    rcases hstatement with rfl | ⟨level, rfl⟩
    · cases hexecute : Server.execute d .beginTransaction s with
      | mk reply s₁ =>
      cases reply with
      | ok rows =>
        obtain ⟨htables, hsaved, _⟩ := h.begins hexecute
        refine ⟨htables, fun t ht => ?_⟩
        rw [hsaved, Option.some_inj] at ht
        exact ht.symm
      | error fault =>
        change (if s.failed = true then (.error Server.transactionFailed, s)
          else (.ok [], _) : Except Fault (List Row) × Server) = _ at hexecute
        split at hexecute
        · cases hexecute
          exact h
        · cases hexecute
    · exact h.same ⟨tables_isolate level s, (Statement.inner_isolate level).saved s⟩
  cases hanswered with
  | served => exact hexecuted
  | emptied => exact hexecuted
  | refused _ _ hsame => exact h.same hsame
  | denied _ _ hsame => exact hexecuted.same hsame
  | lost => exact h.rolledBack
  | lostAfter => exact hexecuted.rolledBack

theorem AtRest.begun (h : AtRest T c) {rows : List Row}
    (hallows : (failing d).allows (.execute .beginTransaction) c (.ok rows) c') : Within T T c' := by
  change if c.closed = true then _ else _ at hallows
  split at hallows
  · cases hallows.1
  · next hopen =>
    obtain ⟨hanswered, hc'⟩ := hallows
    obtain ⟨found, hexecute, -⟩ := hanswered.rows
    obtain ⟨htables, hsaved, hfailed⟩ := h.calm.begins hexecute
    refine ⟨⟨?_, ?_, hsaved⟩, htables, hfailed⟩
    · rw [hc']
      rfl
    · rw [hc']
      exact Bool.eq_false_iff.mpr hopen

theorem AtRest.prepared (h : AtRest T c)
    (hstatement : statement = .beginTransaction ∨ ∃ level, statement = .isolate level)
    (hopens : Client.opensAfter false statement r = false)
    (hallows : (failing d).allows (.execute statement) c r c') : AtRest T c' := by
  change if c.closed = true then _ else _ at hallows
  split at hallows
  · rw [hallows.2]
    exact h
  · obtain ⟨hanswered, hc'⟩ := hallows
    refine ⟨?_, h.calm.answered hstatement hanswered⟩
    rw [hc']
    unfold Client.told
    rw [h.idle]
    exact hopens

theorem Within.committed (h : Within T X c) {rows : List Row}
    (hallows : (failing d).allows (.execute .commit) c (.ok rows) c') : AtRest X c' := by
  obtain ⟨hanswered, hc'⟩ := allows_execute h.opened hallows
  obtain ⟨found, hexecute, -⟩ := hanswered.rows
  rw [Server.execute_commit h.unfailed] at hexecute
  have hserver : c'.server = { tables := c.server.tables } := (congrArg Prod.snd hexecute).symm
  refine ⟨?_, ?_, ?_⟩
  · rw [hc']
    rfl
  · rw [hserver]
    exact h.tables
  · simp [hserver]

/-- Abandoning a transaction undoes it, however its rollback is answered. -/
theorem Undoable.abandoned (h : Undoable T c) {reply : Unit}
    (hallows : (failing d).allows .abandon c reply c') : AtRest T c' := by
  change if c.inTransaction = true ∧ c.closed = false then _ else _ at hallows
  rcases h with hrest | hopen
  · rw [if_neg (by simp [hrest.idle])] at hallows
    rw [hallows]
    exact ⟨rfl, hrest.calm⟩
  · rw [if_pos ⟨hopen.busy, hopen.opened⟩] at hallows
    obtain ⟨⟨r, hanswered⟩, hc'⟩ := hallows
    have hrolled : c.server.rolledBack = { tables := T } := Server.rolledBack_of_saved hopen.saved
    have hback : Calm T c.server.rolledBack := by
      rw [hrolled]
      exact ⟨rfl, by simp⟩
    have hcalm : Calm T c'.server := by
      generalize c'.server = s' at hanswered
      cases hanswered with
      | served => exact hback
      | emptied => exact hback
      | refused _ hrollback => exact absurd rfl hrollback
      | denied _ _ hsame => exact hback.same hsame
      | lost => exact hback
      | lostAfter => exact hback.rolledBack
    rw [hc']
    exact ⟨rfl, hcalm⟩

/-! ### Parts of an attempt -/

/-- A part answers as `P` says, or it fails and can be undone. -/
def OrUndoable (T : Tables) (P : α → Client Server → Prop) : Except Failure α → Client Server → Prop
  | .ok a, c => P a c
  | .error _, c => Undoable T c

section

variable {β : Type} {P : α → Client Server → Prop} {P' : β → Client Server → Prop} {p : Protocol α}
  {failure : Fault → Failure}

theorem ensures_fallible_bind {next : α → Protocol β} (h : p.Ensures (failing d) c (OrUndoable T P))
    (hnext : ∀ a c', P a c' → (next a).Ensures (failing d) c' (OrUndoable T P')) :
    (p >>= next).Ensures (failing d) c (OrUndoable T P') :=
  h.bind hnext fun _ _ hundo => hundo

theorem ensures_fallible_mapFailure {reword : Failure → Failure}
    (h : p.Ensures (failing d) c (OrUndoable T P)) :
    (p.mapFailure reword).Ensures (failing d) c (OrUndoable T P) := by
  refine ensures_mapFailure.mpr (h.mono ?_)
  rintro (f | a) c' hend <;> exact hend

theorem ensures_fallible_execute {P : List Row → Client Server → Prop}
    (hok : ∀ rows c', (failing d).allows (.execute statement) c (.ok rows) c' → P rows c')
    (herror : ∀ fault c', (failing d).allows (.execute statement) c (.error fault) c' → Undoable T c') :
    (execute failure statement).Ensures (failing d) c (OrUndoable T P) := by
  refine ⟨trivial, ?_⟩
  rintro (fault | rows) c' hallows
  · exact herror fault c' hallows
  · exact hok rows c' hallows

theorem ensures_fallible_perform {P : Unit → Client Server → Prop}
    (hok : ∀ rows c', (failing d).allows (.execute statement) c (.ok rows) c' → P () c')
    (herror : ∀ fault c', (failing d).allows (.execute statement) c (.error fault) c' → Undoable T c') :
    (perform failure statement).Ensures (failing d) c (OrUndoable T P) :=
  ensures_fallible_bind (ensures_fallible_execute (P := fun _ c' => P () c') hok herror)
    fun _ _ hP => hP

/-- A transaction that fails leaves the tables that it began with. -/
theorem ensures_fallible_transaction {Q : Except Failure α → Client Server → Prop}
    (h : p.Ensures (failing d) c (OrUndoable T P)) (hok : ∀ a c', P a c' → Q (.ok a) c')
    (herror : ∀ f c', AtRest T c' → Q (.error f) c') : (transaction p).Ensures (failing d) c Q := by
  unfold transaction
  rw [ensures_bind, ensures_attempt]
  refine h.mono ?_
  rintro (f | a) c' hend
  · refine ⟨trivial, ?_⟩
    intro reply c'' hallows
    exact herror f c'' (Undoable.abandoned hend hallows)
  · exact hok a c' hend

end

theorem ensures_begun (h : AtRest T c) (level : Isolation) :
    (beginIsolated d level).Ensures (failing d) c (OrUndoable T fun _ c' => Within T T c') := by
  unfold beginIsolated
  cases d with
  | postgres =>
    refine ensures_fallible_bind (P := fun _ c' => Within T T c') (ensures_fallible_perform ?_ ?_) ?_
    · exact fun rows c' hallows => h.begun hallows
    · intro fault c' hallows
      refine .inl (h.prepared (.inl rfl) ?_ hallows)
      simp [Client.opensAfter]
    · intro _ c' hwithin
      refine ensures_fallible_perform ?_ ?_
      · intro rows c'' hallows
        obtain ⟨found, hexecute, -, hwithin'⟩ := hwithin.rows (Statement.inner_isolate level) hallows
        have htables := tables_isolate (d := .postgres) level c'.server
        rw [hexecute, hwithin.tables] at htables
        rwa [htables] at hwithin'
      · exact fun fault c'' hallows => hwithin.undoable (.inl (Statement.inner_isolate level)) hallows
  | mysql =>
    refine ensures_fallible_bind (P := fun _ c' => AtRest T c') (ensures_fallible_perform ?_ ?_) ?_
    · exact fun rows c' hallows => h.prepared (.inr ⟨level, rfl⟩) rfl hallows
    · intro fault c' hallows
      refine .inl (h.prepared (.inr ⟨level, rfl⟩) ?_ hallows)
      simp [Client.opensAfter]
    · intro _ c' hrest
      refine ensures_fallible_perform ?_ ?_
      · exact fun rows c'' hallows => hrest.begun hallows
      · intro fault c'' hallows
        refine .inl (hrest.prepared (.inl rfl) ?_ hallows)
        simp [Client.opensAfter]

/-! ### Locking -/

theorem tableOf_failed {bucket : Bytes} (hcode : (tableNaming d).code bucket = none) :
    ∃ f, tableOf d bucket = .fail f := by
  obtain ⟨fault, htable⟩ := toOption_eq_none.mp (Option.map_eq_none_iff.mp hcode)
  refine ⟨fault.failure, ?_⟩
  unfold tableOf
  rw [htable]
  rfl

theorem execute_select {table : Table} {forUpdate : Bool} {key : Bytes} {rows : List Row}
    (h : Server.execute d (.on table (.select forUpdate key)) s = (.ok rows, s')) :
    ∃ found, s.tables.get? table.name = some found ∧ s'.tables = s.tables ∧
      rows = (found.get? key).toList.map fun value => [some value] := by
  obtain ⟨after, hmeaning, htables⟩ := meaning_of_execute h
  cases hget : s.tables.get? table.name with
  | none =>
    rw [hget] at hmeaning
    cases hmeaning
  | some found =>
    rw [hget] at hmeaning
    cases hmeaning
    rw [← hget, KeyMap.put_get?] at htables
    exact ⟨found, rfl, htables, rfl⟩

/-- A value is read if it came back, and what came back empty is not taken for an absent one. -/
theorem value_of_readValue {rows : List Row} {value value' : Option Bytes}
    (hrows : rows = (value.toList.map fun v => [some v]) ∨
      rows = (value.toList.map fun v => [some v]).map ScriptedServer.emptyLast)
    (hread : readValue d rows = .ok value') : value' = value := by
  cases value with
  | none =>
    rcases hrows with rfl | rfl
    · cases hread
      rfl
    · cases hread
      rfl
  | some v =>
    rcases hrows with rfl | rfl
    · cases hread
      rfl
    · cases hread

section

variable {m : Memory.Store} {tx : Transaction}

theorem table_of_shows {name : String} {bucket : Bytes} {found : KeyMap Bytes Bytes}
    (hshows : (tableNaming d).Shows some T X m.buckets)
    (hcode : (tableNaming d).code bucket = some name) (hget : X.get? name = some found) :
    m.buckets.get? bucket = some found := by
  rw [hshows.seen bucket, Naming.seen_of_code hcode, hget]
  rfl

theorem ensures_lockKey (hshows : (tableNaming d).Shows some T T m.buckets) (h : Within T T c)
    (ws : WriteSet) (place : Bytes × Bytes) :
    (lockKey d ws place).Ensures (failing d) c (OrUndoable T fun ws' c' => Within T T c' ∧
      m.buckets.contains place.1 = true ∧
      ws' = ws.load place.1 place.2 (m.values place.1 place.2)) := by
  unfold lockKey
  dsimp only
  cases hcode : (tableNaming d).code place.1 with
  | none =>
    obtain ⟨f, hfailed⟩ := tableOf_failed hcode
    rw [hfailed]
    exact .inr h.toOpen
  | some name =>
    obtain ⟨table, htable, rfl⟩ := table_of_code hcode
    rw [tableOf_eq htable]
    refine ensures_fallible_bind (P := fun rows c' => Within T T c' ∧ ∃ found,
      m.buckets.get? place.1 = some found ∧
        (rows = ((found.get? place.2).toList.map fun value => [some value]) ∨
          rows = ((found.get? place.2).toList.map fun value => [some value]).map
            ScriptedServer.emptyLast)) (ensures_fallible_mapFailure (ensures_fallible_execute ?_ ?_)) ?_
    · intro rows c' hallows
      obtain ⟨found, hexecute, hrows, hwithin⟩ := h.rows (Statement.inner_on ..) hallows
      obtain ⟨found, hget, hsame, rfl⟩ := execute_select hexecute
      rw [hsame, h.tables] at hwithin
      rw [h.tables] at hget
      exact ⟨hwithin, found, table_of_shows hshows hcode hget, hrows⟩
    · exact fun fault c' hallows => h.undoable (.inl (Statement.inner_on ..)) hallows
    · rintro rows c' ⟨hwithin, found, hbucket, hrows⟩
      refine ensures_fallible_bind (P := fun value c' => Within T T c' ∧ value = found.get? place.2)
        (ensures_ofExcept.mpr ?_) ?_
      · cases hread : readValue d rows with
        | error f => exact .inr hwithin.toOpen
        | ok value => exact ⟨hwithin, value_of_readValue hrows hread⟩
      · rintro _ c'' ⟨hwithin', rfl⟩
        refine ⟨hwithin', KeyMap.contains_eq_true.mpr ⟨found, hbucket⟩, ?_⟩
        rw [Memory.Store.values_of_bucket hbucket]

/-- If all keys are locked, their buckets exist and their values are loaded. -/
theorem ensures_lockPhase (hshows : (tableNaming d).Shows some T T m.buckets) (h : Within T T c)
    (places : List (Bytes × Bytes)) (ws : WriteSet) :
    (places.foldlM (lockKey d) ws).Ensures (failing d) c (OrUndoable T fun ws' c' => Within T T c' ∧
      (∀ place ∈ places, m.buckets.contains place.1 = true) ∧
      ws' = Memory.loadAll m.values places ws) := by
  induction places generalizing c ws with
  | nil => exact ⟨h, by simp, rfl⟩
  | cons place rest ih =>
    rw [List.foldlM_cons]
    refine ensures_fallible_bind (ensures_lockKey hshows h ws place) ?_
    rintro _ c' ⟨hwithin, hfirst, rfl⟩
    refine (ih hwithin _).mono ?_
    rintro (f | ws') c'' hend
    · exact hend
    · obtain ⟨hwithin', hrest, hws⟩ := hend
      exact ⟨hwithin', List.forall_mem_cons.mpr ⟨hfirst, hrest⟩, hws⟩

/-! ### Writing -/

theorem execute_write {table : Table} {change : Change} {rows : List Row}
    (h : Server.execute d (.on table (match change.value with
      | some value => .upsert change.key value
      | none => .delete change.key)) s = (.ok rows, s')) :
    ∃ found, s.tables.get? table.name = some found ∧
      s'.tables = s.tables.insert table.name (found.put change.key change.value) := by
  obtain ⟨after, hmeaning, htables⟩ := meaning_of_execute h
  cases hget : s.tables.get? table.name with
  | none =>
    rw [hget] at hmeaning
    cases hvalue : change.value with
    | none =>
      rw [hvalue] at hmeaning
      cases hmeaning
    | some value =>
      rw [hvalue] at hmeaning
      cases hmeaning
  | some found =>
    rw [hget] at hmeaning
    cases hvalue : change.value with
    | none =>
      rw [hvalue] at hmeaning
      cases hmeaning
      exact ⟨found, rfl, htables⟩
    | some value =>
      rw [hvalue] at hmeaning
      cases hmeaning
      exact ⟨found, rfl, htables⟩

theorem ensures_writeChange (hshows : (tableNaming d).Shows some T X m.buckets) (h : Within T X c)
    (change : Change) :
    (writeChange d change).Ensures (failing d) c (OrUndoable T fun _ c' => ∃ X', Within T X' c' ∧
      (tableNaming d).Shows some T X' (m.apply change).buckets) := by
  unfold writeChange
  cases hcode : (tableNaming d).code change.bucket with
  | none =>
    obtain ⟨f, hfailed⟩ := tableOf_failed hcode
    rw [hfailed]
    exact .inr h.toOpen
  | some name =>
    obtain ⟨table, htable, rfl⟩ := table_of_code hcode
    rw [tableOf_eq htable]
    refine ensures_fallible_mapFailure (ensures_fallible_perform ?_ ?_)
    · intro rows c' hallows
      obtain ⟨_, hexecute, -, hwithin⟩ := h.rows (Statement.inner_on ..) hallows
      obtain ⟨found, hget, htables⟩ := execute_write hexecute
      rw [h.tables] at hget htables
      rw [htables] at hwithin
      have happly : m.apply change =
          m.withBucket change.bucket (found.put change.key change.value) := by
        unfold Memory.Store.apply
        rw [table_of_shows hshows hcode hget]
      rw [happly]
      exact ⟨_, hwithin, hshows.insert id (fun _ => rfl) hcode _⟩
    · exact fun fault c' hallows => h.undoable (.inl (Statement.inner_on ..)) hallows

theorem ensures_writePhase (hshows : (tableNaming d).Shows some T X m.buckets) (h : Within T X c)
    (changes : List Change) :
    (changes.forM (writeChange d)).Ensures (failing d) c (OrUndoable T fun _ c' => ∃ X',
      Within T X' c' ∧ (tableNaming d).Shows some T X' (m.publish changes).buckets) := by
  induction changes generalizing m X c with
  | nil => exact ⟨X, h, hshows⟩
  | cons change rest ih =>
    change (writeChange d change >>= fun _ => rest.forM (writeChange d)).Ensures _ _ _
    refine ensures_fallible_bind (ensures_writeChange hshows h change) ?_
    rintro _ c' ⟨X', hwithin, hshows'⟩
    exact ih hshows' hwithin

end

/-! ### Attempts -/

/-- The buckets that the tables are of. -/
def shownBy (d : Dialect) (tables : Tables) : Buckets := (tableNaming d).seen some tables

/-- The tables `T'` are what the operations make of the tables `T`: of the same buckets, the touched
    ones among them, with the values that the operations leave, and the same otherwise. -/
structure Applied (d : Dialect) (tx : Transaction) (T T' : Tables) (outcome : TxOutcome) : Prop where
  operations : Transaction.on (shownBy d T).values tx = .ok (outcome, (shownBy d T').values)
  touched : ∀ op ∈ tx, (shownBy d T op.bucket).isSome = true
  buckets : ∀ b, (shownBy d T' b).isSome = (shownBy d T b).isSome
  others : ∀ name, (∀ b, (tableNaming d).code b = some name → shownBy d T b = none) →
    T'.get? name = T.get? name

/-- An attempt is made as a whole, or not at all. -/
def Whole (d : Dialect) (tx : Transaction) (T : Tables) (r : Except Failure TxOutcome)
    (c : Client Server) : Prop :=
  match r with
  | .ok outcome => ∃ T', AtRest T' c ∧ Applied d tx T T' outcome
  | .error _ => AtRest T c

theorem values_of_shows {m : Memory.Store} (hshows : (tableNaming d).Shows some T X m.buckets) :
    m.values = (shownBy d X).values := by
  funext b k
  change (m.buckets.get? b).bind _ = ((tableNaming d).seen some X b).bind _
  rw [hshows.seen b]

/-- Once the changes of a write set are written that has tracked the operations, they are applied. -/
theorem applied_of_written {m : Memory.Store} {tx : Transaction} {ws : WriteSet} {outcome : TxOutcome}
    {v : Places Bytes} (hshows : (tableNaming d).Shows some T T m.buckets)
    (hon : Transaction.on m.values tx = .ok (outcome, v)) (htracks : ws.Tracks m.values v)
    (hdistinct : ws.Distinct) (hexists : ∀ place ∈ tx.touched, m.buckets.contains place.1 = true)
    (hloaded : ∀ b k, ws.isLoaded b k = true → m.buckets.contains b = true)
    (hwritten : (tableNaming d).Shows some T X (m.publish ws.changes).buckets) :
    Applied d tx T X outcome := by
  obtain ⟨hvalues, -, hcontains⟩ := Memory.publish_tracked htracks hdistinct hloaded
  have hbefore : ∀ b, m.buckets.contains b = (shownBy d T b).isSome := fun b =>
    congrArg Option.isSome (hshows.seen b)
  have hafter : ∀ b, (m.publish ws.changes).buckets.contains b = (shownBy d X b).isSome := fun b =>
    congrArg Option.isSome (hwritten.seen b)
  refine ⟨?_, ?_, ?_, ?_⟩
  · rw [← values_of_shows hshows, ← values_of_shows hwritten, hvalues]
    exact hon
  · intro op hop
    rw [← hbefore]
    exact hexists _ (Transaction.mem_touched.mpr ⟨op, hop, rfl⟩)
  · intro b
    rw [← hafter, ← hbefore, hcontains]
  · intro name hforeign
    apply hwritten.foreign name
    intro b hcode
    rw [hcontains, hbefore, hforeign b hcode]
    rfl

/-- **An attempt at an update is made as a whole, or not at all.** -/
theorem ensures_tryUpdate (h : AtRest T c) (tx : Transaction) :
    (tryUpdate d tx).Ensures (failing d) c (Whole d tx T) := by
  obtain ⟨buckets, hshows⟩ := (tableNaming d).exists_shows some T
  let m : Memory.Store := { buckets }
  have hshows : (tableNaming d).Shows some T T m.buckets := hshows
  -- The touched places are locked in another order, but all of them are.
  have hlocked : ∀ place ∈ tx.touched, place ∈ tx.touched.mergeSort lockBefore := fun _ =>
    List.mem_mergeSort.mpr
  obtain ⟨hreply, htracks, hdistinct, hloaded⟩ := Memory.execute_loadAll m.values tx hlocked
  refine ensures_fallible_transaction (P := fun outcome c' => Whole d tx T (.ok outcome) c') ?_
    (fun _ _ hP => hP) (fun _ _ hrest => hrest)
  refine ensures_fallible_bind (ensures_begun h _) ?_
  intro _ c₁ hbegun
  refine ensures_fallible_bind (ensures_lockPhase hshows hbegun _ _) ?_
  rintro _ c₂ ⟨hwithin, hexists, rfl⟩
  generalize (Memory.loadAll m.values (tx.touched.mergeSort lockBefore) {}).execute tx = ran at *
  obtain ⟨r, ws⟩ := ran
  cases hon : Transaction.on m.values tx with
  | error f =>
    rw [hon] at hreply
    cases hreply
    exact .inr hwithin.toOpen
  | ok out =>
    obtain ⟨outcome, v⟩ := out
    rw [hon] at hreply
    cases hreply
    refine ensures_fallible_bind (ensures_writePhase hshows hwithin ws.changes) ?_
    rintro _ c₃ ⟨X, hwithin', hwritten⟩
    refine ensures_fallible_bind (P := fun _ c' => AtRest X c') (ensures_fallible_perform ?_ ?_) ?_
    · exact fun rows c₄ hallows => hwithin'.committed hallows
    · exact fun fault c₄ hallows => hwithin'.undoable (.inr rfl) hallows
    · intro _ c₄ hrest
      refine ⟨X, hrest, applied_of_written hshows hon (htracks _ hon) hdistinct ?_ ?_ hwritten⟩
      · exact fun place hplace => hexists place (hlocked place hplace)
      · exact fun b k hbk => hexists _ (hloaded b k hbk)

end BucketStore.Sql
