/-
  BucketStore/Proofs/Dynamo/Expression.lean
  =========================================
  **What the expression of a condition says to the service.**

  The service is not sent a condition but a text, and beside it the values for the
  places in the text.  `Expression.evaluate?` is the meaning that is documented for
  such texts, as far as conditions are written in them: a text is cut into words, its
  clauses stand between one `AND` and the next, and a clause says that an attribute is
  absent or that two operands are equal.  It is written without regard to `Condition`.

  A condition whose names and places are words (`Condition.Plain`) is evaluated from
  its text to what it holds of (`evaluate_expression`), and the condition of every
  precondition is such a one.
-/
import BucketStore.Dynamo.Item
import BucketStore.Proofs.KeyMap
import BucketStore.Proofs.Words

namespace BucketStore.Dynamo

open Text (isBreak words words_append)

variable {values attributes : Attributes} {name place : String} {value : Attribute}

namespace Expression

/-! ### The meaning of texts -/

/-- A mark is a word of its own. -/
def isMark (c : Char) : Bool := c == '(' || c == ')' || c == '='

/-- Does the word stand for a value that is bound to it? Other words are names of attributes. -/
def isPlace (word : String) : Bool := word.toList.head? == some ':'

/-- What an operand stands for. A place must be bound, an attribute need not be there. -/
def operand? (values attributes : Attributes) (word : String) : Option (Option Attribute) :=
  if isPlace word then (values.get? word).map some else some (attributes.get? word)

/-- Does the clause hold of the attributes? A comparison with an absent attribute does not. -/
def clause? (values attributes : Attributes) : List String → Option Bool
  | ["attribute_not_exists", "(", name, ")"] => some (attributes.get? name).isNone
  | [left, "=", right] => do
    let l ← operand? values attributes left
    let r ← operand? values attributes right
    return l.isSome && l == r
  | _ => none

/-- Does the expression hold of the attributes, if it is understood? All its clauses must. -/
def evaluate? (text : String) (values attributes : Attributes) : Option Bool :=
  (((words isMark text).splitOn "AND").mapM (clause? values attributes)).map fun held => held.all id

/-- Is a request with such an expression and such values carried out, where `stored` is there, if
    the request is understood? Where nothing is, there are no attributes. -/
def verdict? (expression : Option String) (values stored : Option Attributes) : Option Bool :=
  match expression, values with
  | none, none => some true
  | none, some _ => none
  | some text, values => evaluate? text (values.getD {}) (stored.getD {})

/-! ### Words of expressions -/

/-- What stands between the clauses is a word between their words. -/
theorem words_intercalate (texts : List String) :
    words isMark (" AND ".intercalate texts) = ["AND"].intercalate (texts.map (words isMark)) := by
  induction texts with
  | nil =>
    rw [String.intercalate_nil, List.map_nil, List.intercalate_nil]
    decide
  | cons first rest ih =>
    cases rest with
    | nil => rw [String.intercalate_singleton, List.map_singleton, List.intercalate_singleton]
    | cons next rest =>
      have hand : words isMark " AND " = ["AND"] := by decide
      rw [String.intercalate_cons_cons, String.append_assoc, words_append (by simp [isBreak]),
        words_append (by simp [isBreak]), ih, hand, List.map_cons, List.map_cons, List.map_cons,
        List.intercalate_cons_cons, List.append_assoc]

end Expression

/-! ### Conditions as texts -/

open Expression

/-- The word of an attribute: neither a place, nor what stands between clauses. -/
def IsName (name : String) : Prop := words isMark name = [name] ∧ isPlace name = false ∧ name ≠ "AND"

instance (name : String) : Decidable (IsName name) := inferInstanceAs (Decidable (_ ∧ _))

def IsPlace (place : String) : Prop := words isMark place = [place] ∧ isPlace place = true

instance (place : String) : Decidable (IsPlace place) := inferInstanceAs (Decidable (_ ∧ _))

namespace Test

/-- The clause that is written for a test. -/
def text : Test → String
  | absent name => s!"attribute_not_exists({name})"
  | equals name place _ => s!"{name} = {place}"

/-- The value that a test binds to a place. -/
def binding? : Test → Option (String × Attribute)
  | absent _ => none
  | equals _ place value => some (place, value)

/-- The test is written with the words of an attribute and of a place. -/
def Plain : Test → Prop
  | absent name => IsName name
  | equals name place _ => IsName name ∧ IsPlace place

theorem words_absent (h : words isMark name = [name]) :
    words isMark (absent name).text = ["attribute_not_exists", "(", name, ")"] := by
  have hopen : words isMark "attribute_not_exists(" = ["attribute_not_exists", "("] := by decide
  have hclose : words isMark ")" = [")"] := by decide
  change words isMark ("attribute_not_exists(" ++ name ++ ")") = _
  rw [words_append (by simp [isBreak, isMark]), words_append (by simp [isBreak, isMark]), hopen, h,
    hclose]
  rfl

theorem words_equals (h : words isMark name = [name]) (h' : words isMark place = [place]) :
    words isMark (equals name place value).text = [name, "=", place] := by
  have hequal : words isMark " = " = ["="] := by decide
  change words isMark (name ++ " = " ++ place) = _
  rw [words_append (by simp [isBreak]), words_append (by simp [isBreak]), hequal, h, h']
  rfl

theorem and_not_mem_words {test : Test} (h : test.Plain) : "AND" ∉ words isMark test.text := by
  cases test with
  | absent name =>
    obtain ⟨hname, _, hand⟩ := h
    rw [words_absent hname]
    simp [hand.symm]
  | equals name place value =>
    obtain ⟨⟨hname, _, hand⟩, hplace, hcolon⟩ := h
    have hne : "AND" ≠ place := by
      rintro rfl
      cases hcolon
    rw [words_equals hname hplace]
    simp [hand.symm, hne]

/-- The clause of a test holds where the test does, if its place has its value. -/
theorem clause_text {test : Test} (h : test.Plain)
    (hbound : ∀ e, test.binding? = some e → values.get? e.1 = some e.2) :
    clause? values attributes (words isMark test.text) = some (test.holds attributes) := by
  cases test with
  | absent name =>
    rw [words_absent h.1]
    rfl
  | equals name place value =>
    obtain ⟨⟨hname, hattribute, _⟩, hplace, hcolon⟩ := h
    have hleft : operand? values attributes name = some (attributes.get? name) := by
      unfold operand?
      rw [hattribute]
      rfl
    have hright : operand? values attributes place = some (some value) := by
      unfold operand?
      rw [hcolon, if_pos rfl, hbound (place, value) rfl]
      rfl
    rw [words_equals hname hplace]
    simp only [clause?, hleft, hright, bind, Option.bind, pure, holds]
    cases attributes.get? name <;> rfl

end Test

namespace Condition

variable {condition : Condition}

/-- The tests are written in words, and no place has two values. -/
structure Plain (condition : Condition) : Prop where
  tests : ∀ test ∈ condition, test.Plain
  places : ((condition.filterMap Test.binding?).map (·.1)).Nodup

theorem expression_eq (h : condition ≠ []) :
    condition.expression? = some (" AND ".intercalate (condition.map Test.text)) := by
  cases condition with
  | nil => exact absurd rfl h
  | cons test rest => rfl

/-- Every place has the value that a test binds to it. -/
theorem get?_values (h : condition.Plain) {test : Test} (hmem : test ∈ condition)
    {e : String × Attribute} (hbinding : test.binding? = some e) :
    (condition.values?.getD {}).get? e.1 = some e.2 := by
  have hbound : e ∈ condition.filterMap Test.binding? := List.mem_filterMap.mpr ⟨test, hmem, hbinding⟩
  have hvalues : condition.values? = some (KeyMap.ofList (condition.filterMap Test.binding?)) := by
    apply if_neg
    intro hempty
    rw [List.isEmpty_iff] at hempty
    exact List.ne_nil_of_mem hbound hempty
  rw [hvalues, Option.getD_some, KeyMap.get?_ofList h.places]
  exact Bindings.find?_eq_some_of_mem h.places hbound

/-- Clauses that are each evaluated to what their tests hold of are so together. -/
theorem mapM_clause {tests : List Test} (h : ∀ test ∈ tests,
      clause? values attributes (words isMark test.text) = some (test.holds attributes)) :
    ((tests.map Test.text).map (words isMark)).mapM (clause? values attributes) =
      some (tests.map (Test.holds attributes)) := by
  induction tests with
  | nil => rfl
  | cons test rest ih =>
    obtain ⟨hfirst, hrest⟩ := List.forall_mem_cons.mp h
    rw [List.map_cons, List.map_cons, List.mapM_cons, hfirst, ih hrest]
    rfl

/-- The expression of a condition, read by itself, says what the condition asks for. -/
theorem evaluate_expression (h : condition.Plain) (hne : condition ≠ []) :
    evaluate? (" AND ".intercalate (condition.map Test.text)) (condition.values?.getD {}) attributes =
      some (condition.all (Test.holds attributes)) := by
  -- The words are divided where the clauses were joined, since no clause has the word AND.
  have hclauses : ∀ clause ∈ (condition.map Test.text).map (words isMark), "AND" ∉ clause := by
    simp only [List.map_map, List.forall_mem_map]
    exact fun test hmem => Test.and_not_mem_words (h.tests test hmem)
  have hsplit : (words isMark (" AND ".intercalate (condition.map Test.text))).splitOn "AND" =
      (condition.map Test.text).map (words isMark) := by
    rw [words_intercalate, List.splitOn_intercalate _ hclauses (by simpa using hne)]
  have heach : ∀ test ∈ condition,
      clause? (condition.values?.getD {}) attributes (words isMark test.text) =
        some (test.holds attributes) := by
    intro test hmem
    exact Test.clause_text (h.tests test hmem) fun _ => get?_values h hmem
  unfold evaluate?
  rw [hsplit, mapM_clause heach, Option.map_some, List.all_map]
  rfl

/-- What is sent for a plain condition is judged as the condition itself. -/
theorem verdict_eq (h : condition.Plain) (stored : Option Attributes) :
    verdict? condition.expression? condition.values? stored = some (condition.holds stored) := by
  by_cases hne : condition = []
  · subst hne
    rfl
  · rw [expression_eq hne]
    exact evaluate_expression h hne

end Condition

/-- A comparison with an absent attribute does not hold. -/
example : verdict? (some "attribute_not_exists(ntx) AND nvalue = :expected")
    (some (.ofList [(":expected", .blob [1])])) none = some false := by decide +kernel

theorem conditionOf_plain (p : Staging.Precondition) : (conditionOf p).Plain := by
  have hkey : IsName keyName := by decide
  have howner : IsName ownerName := by decide
  have hvalue : IsName valueName := by decide
  have hexpected : IsPlace ":expected" := by decide
  have htx : IsPlace ":tx" := by decide
  constructor
  · rcases p with _ | _ | _ | (_ | _) | _ | _ <;>
      simp [conditionOf, Test.Plain, hkey, howner, hvalue, hexpected, htx]
  · rcases p with _ | _ | _ | (_ | _) | _ | _ <;> simp [conditionOf, Test.binding?, List.filterMap_cons]

end BucketStore.Dynamo
