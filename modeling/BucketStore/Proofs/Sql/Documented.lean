/-
  BucketStore/Proofs/Sql/Documented.lean
  ======================================
  **What is documented of the statements that are sent to a SQL server.**

  A server is sent texts with values, and what a text asks for is told from its words
  (`Statement.read?`).  `Documented` says what a service does with the statements of a
  driver, where the driver makes them (`Statement.Ready`): what it answers, and the
  tables and the session that it leaves, as a `view` shows them.  Faults are told by
  their class only, and nothing else is assumed of the service; the one in memory is
  an instance (`Server.documented`).
-/
import BucketStore.Proofs.KeyMap
import BucketStore.Proofs.Sql.Reading
import BucketStore.Sql.Server

namespace BucketStore.Sql

variable {σ : Type} {d : Dialect} {statement : Statement} {s : Server}

/-! ### Where statements are made -/

/-- The greatest length of a key, as the columns are declared. -/
def Dialect.maxKey : Dialect → Option Nat
  | .postgres => none
  | .mysql => some 767

def Dialect.AdmitsKey (d : Dialect) (key : Bytes) : Prop := ∀ limit ∈ d.maxKey, key.length ≤ limit

instance (d : Dialect) : DecidablePred d.AdmitsKey := fun key =>
  inferInstanceAs (Decidable (∀ limit ∈ d.maxKey, key.length ≤ limit))

/-- The keys that are added fit their column, and limits are signed numbers. -/
def TableStatement.Fits (d : Dialect) : TableStatement → Prop
  | .insert key _ | .upsert key _ => d.AdmitsKey key
  | .firstPage limit | .nextPage _ limit => limit ≤ Int64.maxValue.toInt.toNat
  | _ => True

/-- Tables are created and dropped outside of transactions. -/
def TableStatement.Defines : TableStatement → Prop
  | .create | .drop => True
  | _ => False

/-- Where a driver makes the statement, so that it has to be known what is done with it. -/
def Statement.Ready (d : Dialect) (s : Server) : Statement → Prop
  | .on _ t => s.failed = false ∧ t.Fits d ∧ (t.Defines → s.saved = none)
  | .beginTransaction => s.failed = false ∧ s.saved = none
  | .commit => s.failed = false ∧ s.saved.isSome = true
  | .rollback => s.saved.isSome = true
  | .isolate _ => s.failed = false ∧ s.takesIsolation d = true
  | .ping | .version => False

/-! ### What is done with them -/

section

variable (service : Service σ) (view : σ → Server) (text : String) (parameters : List Parameter) (s : σ)

/-- The text is answered with these rows, and this is seen of the service afterwards. -/
def Service.Answers (rows : List Row) (after : Server) : Prop :=
  (service.execute text parameters s).reply = .ok rows ∧
    view (service.execute text parameters s).state = after

/-- The text is answered with a fault of that class, and this is seen of the service afterwards. -/
def Service.Refuses (d : Dialect) (refusal : CodeClass) (after : Server) : Prop :=
  (∃ fault, (service.execute text parameters s).reply = .error fault ∧
      fault.codeClass d = refusal) ∧
    view (service.execute text parameters s).state = after

end

/-- The service does what is documented of the statements that drivers make. -/
structure Documented (service : Service σ) (d : Dialect) (view : σ → Server) : Prop where
  /-- A statement about a table is answered by what it means, and leaves the table so. -/
  answers : ∀ {text parameters s table t rows after},
    Statement.read? d text parameters = some (.on table t) →
    (Statement.on table t).Ready d (view s) →
    t.meaning ((view s).tables.get? table.name) = .ok (rows, after) →
    service.Answers view text parameters s rows
      { (view s).asked with tables := (view s).tables.put table.name after }
  /-- If it means nothing there, a fault tells why. -/
  refuses : ∀ {text parameters s table t refusal},
    Statement.read? d text parameters = some (.on table t) →
    (Statement.on table t).Ready d (view s) →
    t.meaning ((view s).tables.get? table.name) = .error refusal →
    service.Refuses view text parameters s d refusal ((view s).refused d)
  begins : ∀ {text parameters s}, Statement.read? d text parameters = some .beginTransaction →
    Statement.beginTransaction.Ready d (view s) →
    service.Answers view text parameters s [] (view s).begun
  commits : ∀ {text parameters s}, Statement.read? d text parameters = some .commit →
    Statement.commit.Ready d (view s) →
    service.Answers view text parameters s [] (view s).committed
  rollsBack : ∀ {text parameters s}, Statement.read? d text parameters = some .rollback →
    Statement.rollback.Ready d (view s) →
    service.Answers view text parameters s [] (view s).rolledBack
  isolates : ∀ {text parameters s level},
    Statement.read? d text parameters = some (.isolate level) →
    (Statement.isolate level).Ready d (view s) →
    service.Answers view text parameters s [] { view s with isolation := some level }
  /-- A listing has no more pages than its table has rows, and one. -/
  bounds : ∀ s name, (((view s).tables.get? name).map KeyMap.size).getD 0 < service.pageBound s name

/-! ### The server in memory -/

namespace Server

@[simp] theorem asked_saved (s : Server) : s.asked.saved = s.saved := by
  unfold asked
  split <;> rfl

@[simp] theorem asked_failed (s : Server) : s.asked.failed = s.failed := by
  unfold asked
  split <;> rfl

@[simp] theorem asked_tables (s : Server) : s.asked.tables = s.tables := by
  unfold asked
  split <;> rfl

@[simp] theorem refused_saved (d : Dialect) (s : Server) : (s.refused d).saved = s.saved := by
  unfold refused
  split <;> exact asked_saved s

@[simp] theorem refused_tables (d : Dialect) (s : Server) : (s.refused d).tables = s.tables := by
  unfold refused
  split <;> exact asked_tables s

theorem codeClass_faultOf (d : Dialect) (dropping : Bool) (refusal : CodeClass) :
    (faultOf d dropping refusal).codeClass d = refusal := by
  cases d <;> cases dropping <;> cases refusal <;> decide

/-- The server in memory does what the statement asks for, since its text says so. -/
theorem answer_text (d : Dialect) (statement : Statement) (s : Server) :
    answer d (statement.text d) statement.parameters s = execute d statement s := by
  unfold answer
  rw [read?_text]

theorem answer_of_read {text : String} {parameters : List Parameter}
    (h : Statement.read? d text parameters = some statement) (s : Server) :
    answer d text parameters s = execute d statement s := by
  unfold answer
  rw [h]

section

variable {table : Table} {t : TableStatement} (hfailed : s.failed = false)
include hfailed

theorem execute_answered {rows : List Row} {after : Option Rows}
    (h : t.meaning (s.tables.get? table.name) = .ok (rows, after)) : execute d (.on table t) s =
      (.ok rows, { s.asked with tables := s.tables.put table.name after }) := by
  change (if s.failed = true then _ else proceed d (.on table t) s) = _
  rw [if_neg (by rw [hfailed]; decide)]
  unfold proceed
  dsimp only
  rw [h]

theorem execute_refused {refusal : CodeClass}
    (h : t.meaning (s.tables.get? table.name) = .error refusal) : execute d (.on table t) s =
      (.error (faultOf d (t == .drop) refusal), s.refused d) := by
  change (if s.failed = true then _ else proceed d (.on table t) s) = _
  rw [if_neg (by rw [hfailed]; decide)]
  unfold proceed
  dsimp only
  rw [h]

theorem execute_begin (hsaved : s.saved = none) :
    execute d .beginTransaction s = (.ok [], s.begun) := by
  simp [execute, proceed, hfailed, hsaved]

theorem execute_isolate {level : Isolation} (htakes : s.takesIsolation d = true) :
    execute d (.isolate level) s = (.ok [], { s with isolation := some level }) := by
  simp [execute, proceed, hfailed, htakes]

theorem execute_commit : execute d .commit s = (.ok [], s.committed) := by
  simp [execute, hfailed]

end

theorem service_answers {text : String} {parameters : List Parameter} {rows : List Row} {after : Server}
    (hread : Statement.read? d text parameters = some statement)
    (hexecute : execute d statement s = (.ok rows, after)) :
    (service d).Answers id text parameters s rows after := by
  have hanswer := (answer_of_read hread s).trans hexecute
  exact ⟨congrArg Prod.fst hanswer, congrArg Prod.snd hanswer⟩

/-- The server in memory does what is documented. -/
theorem documented (d : Dialect) : Documented (service d) d id where
  answers hread hready hmeaning := service_answers hread (execute_answered hready.1 hmeaning)
  refuses hread hready hmeaning := by
    have hanswer := (answer_of_read hread _).trans (execute_refused hready.1 hmeaning)
    exact ⟨⟨_, congrArg Prod.fst hanswer, codeClass_faultOf ..⟩, congrArg Prod.snd hanswer⟩
  begins hread hready := service_answers hread (execute_begin hready.1 hready.2)
  commits hread hready := service_answers hread (execute_commit hready.1)
  rollsBack hread _ := service_answers hread rfl
  isolates hread hready := service_answers hread (execute_isolate hready.1 hready.2)
  bounds _ _ := Nat.lt_succ_self _

end Server

end BucketStore.Sql
