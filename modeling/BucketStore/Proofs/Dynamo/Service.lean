/-
  BucketStore/Proofs/Dynamo/Service.lean
  ======================================
  **What is documented of requests about single items.**

  A `View` gives the items of each table of a service.  `Documented` says what a read, a
  put and a delete do to it: a put replaces the whole item, and a write with a condition
  is carried out if the text that is sent for the condition holds of what is stored.
  Nothing else is assumed of the service; the one in memory is an instance
  (`Tables.documented`), since it judges a condition as its text is judged.
-/
import BucketStore.Dynamo.Service
import BucketStore.Proofs.Dynamo.Expression
import Mathlib.Logic.Function.Basic

namespace BucketStore.Dynamo

variable {σ : Type}

/-- The items of a table by key. -/
abbrev Items := KeyMap String Attributes

/-- The items of the tables of a service, by name. -/
abbrev View (σ : Type) := σ → String → Option Items

section

variable (view : View σ) (table key : String) (s : σ)

/-- What a read of an item is answered, and what it leaves. -/
inductive Reads : Except Fault (Option Attributes) × σ → Prop
  | found {items : Items} {s' : σ} :
    view s table = some items → view s' = view s → Reads (.ok (items.get? key), s')
  | missing {fault : Fault} {s' : σ} :
    view s table = none → fault.code? = some notFound → view s' = view s → Reads (.error fault, s')

/-- What a conditional write of an item is answered, and what it leaves. The condition is judged by
    its text; no item takes away what is stored. -/
inductive Writes (item : Option Attributes) (condition : Condition) : Except Fault Unit × σ → Prop
  | applied {items : Items} {s' : σ} :
    view s table = some items →
    Expression.verdict? condition.expression? condition.values? (items.get? key) = some true →
    view s' = Function.update (view s) table (some (items.put key item)) →
    Writes item condition (.ok (), s')
  | declined {items : Items} {fault : Fault} {s' : σ} :
    view s table = some items →
    Expression.verdict? condition.expression? condition.values? (items.get? key) = some false →
    fault.code? = some conditionFailed → view s' = view s → Writes item condition (.error fault, s')
  | missing {fault : Fault} {s' : σ} :
    view s table = none → fault.code? = some notFound → view s' = view s →
    Writes item condition (.error fault, s')

end

/-- The service does what is documented of requests about the item of that table with that key, if
    reads are asked for with such a consistency. Nothing is said of names and keys that the service
    refuses, such as the empty key. -/
structure Documented (service : Service σ) (consistent : Bool) (view : View σ) (table key : String) :
    Prop where
  get : ∀ s, Reads view table key s (service.respond (.getItem table key consistent) s)
  put : ∀ s (item : Attributes) (condition : Condition), condition.Plain →
    item.get? keyName = some (.text key) →
    Writes view table key s (some item) condition (service.respond (.putItem table item condition) s)
  delete : ∀ s (condition : Condition), condition.Plain →
    Writes view table key s none condition (service.respond (.deleteItem table key condition) s)

namespace Tables

/-- The items of a table of the service in memory. -/
def view : View Tables := fun tables name => (tables.get? name).map Table.items

theorem view_insert (tables : Tables) (name : String) (table : Table) :
    view (tables.insert name table) = Function.update (view tables) name (some table.items) := by
  funext name'
  simp only [view, KeyMap.get?_insert, Function.update_apply]
  split <;> rfl

theorem writing_documented (name key : String) (tables : Tables) (item : Option Attributes)
    {condition : Condition} (h : condition.Plain) :
    Writes view name key tables item condition (writing name key item condition tables) := by
  unfold writing
  cases hget : tables.get? name with
  | none =>
    apply Writes.missing
    · simp only [view, hget, Option.map_none]
    · rfl
    · rfl
  | some table =>
    have hview : view tables name = some table.items := by
      simp only [view, hget, Option.map_some]
    have hverdict := Condition.verdict_eq h (table.items.get? key)
    dsimp only
    split
    · next hholds =>
      rw [hholds] at hverdict
      exact .applied hview hverdict (view_insert ..)
    · next hholds =>
      rw [Bool.not_eq_true] at hholds
      rw [hholds] at hverdict
      exact .declined hview hverdict rfl rfl

/-- The service in memory does what is documented, whatever consistency is asked for. -/
theorem documented (consistent : Bool) (name key : String) :
    Documented service consistent view name key where
  get tables := by
    change Reads view name key tables (reading name (fun table => table.items.get? key) tables)
    unfold reading
    cases hget : tables.get? name with
    | none =>
      apply Reads.missing
      · simp only [view, hget, Option.map_none]
      · rfl
      · rfl
    | some table =>
      apply Reads.found
      · simp only [view, hget, Option.map_some]
      · rfl
  put tables item condition hplain hkey := by
    have hkeyOf : keyOf item = key := by
      unfold keyOf
      rw [hkey]
    change Writes view name key tables (some item) condition
      (writing name (keyOf item) (some item) condition tables)
    rw [hkeyOf]
    exact writing_documented name key tables (some item) hplain
  delete tables condition hplain := writing_documented name key tables none hplain

end Tables

end BucketStore.Dynamo
