/-
  BucketStore/Proofs/Sql/Reading.lean
  ===================================
  **The text of a statement says what the statement is.**

  A table's name is quoted, and an identifier is one word between quotes that names no
  other table and is no place for a value (`quoted?_quote`).  So the text of a statement
  about a table has that table as one lexeme between the lexemes of what stands in front
  of it and behind it, whatever the table is (`lexemes_text`), and it is read as the
  statement (`read?_text`).
-/
import BucketStore.Proofs.Words
import BucketStore.Sql.Reading

namespace BucketStore.Sql

open Text (isBreak words words_append words_plain)

variable {d : Dialect} {t : Table}

/-! ### Quoted names -/

theorem ascii_of_isNamePart {b : UInt8} (h : isNamePart b = true) : b.toNat < 128 := by
  simp only [isNamePart, isNameStart, Bool.or_eq_true, Bool.and_eq_true, decide_eq_true_eq,
    beq_iff_eq, UInt8.le_iff_toNat_le, ← UInt8.toNat_inj] at h
  simp only [UInt8.toNat_ofNat, Nat.reduceMod, Nat.reducePow] at h
  omega

theorem Table.isNamePart (t : Table) : ∀ b ∈ t.bytes, isNamePart b = true := by
  have h := t.identifier
  unfold isIdentifier at h
  rw [Bool.and_eq_true, List.all_eq_true] at h
  exact h.2

/-- The name of a table has the bytes that it was made of. -/
theorem Table.ofString_name (t : Table) : Bytes.ofString t.name = t.bytes :=
  Bytes.ofString_ascii fun b hb => ascii_of_isNamePart (t.isNamePart b hb)

theorem toList_quote (d : Dialect) (t : Table) :
    (d.quote t.name).toList = d.quotation :: (t.name.toList ++ [d.quotation]) := by
  unfold Dialect.quote
  simp

theorem quoted?_quote (d : Dialect) (t : Table) : d.quoted? (d.quote t.name) = some t := by
  unfold Dialect.quoted?
  rw [toList_quote]
  simp only [List.getLast?_append, List.getLast?_singleton, Option.some_or, and_self, if_true,
    List.dropLast_concat, String.ofList_toList, t.ofString_name]
  exact dif_pos t.identifier

theorem place?_quote (d : Dialect) (next : Nat) (t : Table) :
    d.place? next (d.quote t.name) = none := by
  unfold Dialect.place?
  rw [toList_quote]
  cases d <;> rfl

/-- No character of a name is a break. -/
theorem isBreak_name {c : Char} (hc : c ∈ t.name.toList) : isBreak isMark c = false := by
  unfold Table.name at hc
  rw [String.toList_ofList] at hc
  obtain ⟨b, hb, rfl⟩ := List.mem_map.mp hc
  have hbyte : ∀ n < 128, isNamePart (UInt8.ofNat n) = true →
      isBreak isMark (Char.ofNat n) = false := by
    decide
  have hpart := t.isNamePart b hb
  apply hbyte b.toNat (ascii_of_isNamePart hpart)
  rwa [UInt8.ofNat_toNat]

theorem words_quote (d : Dialect) (t : Table) :
    words isMark (d.quote t.name) = [d.quote t.name] := by
  apply words_plain
  · intro c hc
    rw [toList_quote] at hc
    rcases List.mem_cons.mp hc with rfl | hrest
    · cases d <;> decide
    · rcases List.mem_append.mp hrest with hname | hlast
      · exact isBreak_name hname
      · rw [List.mem_singleton.mp hlast]
        cases d <;> decide
  · intro hempty
    have hchars := toList_quote d t
    rw [hempty] at hchars
    cases hchars

/-! ### The words of statements about tables -/

/-- What stands in front of the table. -/
def TableStatement.front : TableStatement → String
  | .create => "CREATE TABLE "
  | .drop => "DROP TABLE "
  | .select _ _ => "SELECT nvalue FROM "
  | .insert _ _ | .upsert _ _ => "INSERT INTO "
  | .updateValue _ _ => "UPDATE "
  | .delete _ => "DELETE FROM "
  | .firstPage _ | .nextPage _ _ => "SELECT nkey, nvalue FROM "

/-- What stands behind the table. -/
def TableStatement.back (d : Dialect) : TableStatement → String
  | .create => s!" ({d.columns})"
  | .drop => ""
  | .select forUpdate _ => s!" WHERE nkey = {d.place 1}" ++ if forUpdate then " FOR UPDATE" else ""
  | .insert _ _ => s!" (nkey, nvalue) VALUES ({d.place 1}, {d.place 2})"
  | .upsert _ _ => s!" (nkey, nvalue) VALUES ({d.place 1}, {d.place 2}) {d.orOverwrite}"
  | .updateValue _ _ => s!" SET nvalue = {d.place 1} WHERE nkey = {d.place 2}"
  | .delete _ => s!" WHERE nkey = {d.place 1}"
  | .firstPage _ => s!" ORDER BY nkey LIMIT {d.place 1}"
  | .nextPage _ _ => s!" WHERE nkey > {d.place 1} ORDER BY nkey LIMIT {d.place 2}"

theorem TableStatement.text_eq (d : Dialect) (table : String) (s : TableStatement) :
    s.text d table = s.front ++ (table ++ s.back d) := by
  have hshown : ∀ s : String, toString s = s := fun _ => rfl
  cases s <;> unfold text front back <;> simp only [hshown, String.append_assoc, String.append_empty]

/-! ### The lexemes of statements about tables -/

/-- The words in front of the table. -/
def TableStatement.frontWords : TableStatement → List String
  | .create => ["CREATE", "TABLE"]
  | .drop => ["DROP", "TABLE"]
  | .select _ _ => ["SELECT", "nvalue", "FROM"]
  | .insert _ _ | .upsert _ _ => ["INSERT", "INTO"]
  | .updateValue _ _ => ["UPDATE"]
  | .delete _ => ["DELETE", "FROM"]
  | .firstPage _ | .nextPage _ _ => ["SELECT", "nkey", ",", "nvalue", "FROM"]

/-- The lexemes behind the table. -/
def TableStatement.backLexemes (d : Dialect) : TableStatement → List Lexeme
  | .create => (["("] ++ Read.columns d ++ [")"]).map .word
  | .drop => []
  | .select forUpdate _ =>
    key ++ .place 1 :: if forUpdate then ["FOR", "UPDATE"].map .word else []
  | .insert _ _ => inserted
  | .upsert _ _ => inserted ++ (Read.overwriting d).map .word
  | .updateValue _ _ => ["SET", "nvalue", "="].map .word ++ .place 1 :: key ++ [.place 2]
  | .delete _ => key ++ [.place 1]
  | .firstPage _ => limit ++ [.place 1]
  | .nextPage _ _ => ["WHERE", "nkey", ">"].map .word ++ .place 1 :: limit ++ [.place 2]
where
  key : List Lexeme := ["WHERE", "nkey", "="].map .word
  limit : List Lexeme := ["ORDER", "BY", "nkey", "LIMIT"].map .word
  inserted : List Lexeme :=
    ["(", "nkey", ",", "nvalue", ")", "VALUES", "("].map .word ++
      [.place 1, .word ",", .place 2, .word ")"]

theorem words_front (s : TableStatement) : words isMark s.front = s.frontWords := by
  cases s <;> (dsimp only [TableStatement.front, TableStatement.frontWords]; decide)

theorem lexemes_back (d : Dialect) (s : TableStatement) : d.lexemes (s.back d) = s.backLexemes d := by
  cases s with
  | select forUpdate key =>
    cases forUpdate <;> cases d <;>
      (dsimp only [TableStatement.back, TableStatement.backLexemes]; decide)
  | _ => cases d <;> (dsimp only [TableStatement.back, TableStatement.backLexemes]; decide)

/-- Words that are no places and no tables are lexemes as they stand. -/
theorem lexemesFrom_words {texts : List String} {next : Nat}
    (h : ∀ word ∈ texts, d.place? next word = none ∧ d.quoted? word = none) (rest : List String) :
    d.lexemesFrom next (texts ++ rest) = texts.map .word ++ d.lexemesFrom next rest := by
  induction texts with
  | nil => rfl
  | cons word texts ih =>
    obtain ⟨⟨hplace, hquoted⟩, hrest⟩ := List.forall_mem_cons.mp h
    rw [List.cons_append, Dialect.lexemesFrom, hplace, hquoted, List.map_cons, List.cons_append]
    exact congrArg _ (ih hrest)

theorem lexemesFrom_quote (next : Nat) (rest : List String) :
    d.lexemesFrom next (d.quote t.name :: rest) = .table t :: d.lexemesFrom next rest := by
  rw [Dialect.lexemesFrom, place?_quote, quoted?_quote]

/-- The table is one lexeme of the text, whatever its name is. -/
theorem lexemes_text (d : Dialect) (t : Table) (s : TableStatement) :
    d.lexemes (s.text d (d.quote t.name)) =
      s.frontWords.map .word ++ .table t :: s.backLexemes d := by
  have hfront : ∀ word ∈ s.frontWords, d.place? 1 word = none ∧ d.quoted? word = none := by
    cases s <;> cases d <;> (dsimp only [TableStatement.frontWords]; decide)
  have hends : s.front.toList.getLast?.any (isBreak isMark) = true := by
    cases s <;> (dsimp only [TableStatement.front]; decide)
  have hwords : words isMark (d.quote t.name ++ s.back d) =
      d.quote t.name :: words isMark (s.back d) := by
    have hbegins : s.back d = "" ∨ (s.back d).toList.head?.any (isBreak isMark) = true := by
      cases s with
      | select forUpdate key =>
        cases forUpdate <;> cases d <;> (dsimp only [TableStatement.back]; decide)
      | _ => cases d <;> (dsimp only [TableStatement.back]; decide)
    rcases hbegins with hempty | hbegins
    · rw [hempty, String.append_empty, words_quote]
      rfl
    · rw [words_append (by rw [hbegins, Bool.or_true]), words_quote]
      rfl
  rw [← lexemes_back]
  unfold Dialect.lexemes
  rw [TableStatement.text_eq, words_append (by rw [hends, Bool.true_or]), hwords, words_front,
    lexemesFrom_words hfront, lexemesFrom_quote]

/-! ### Texts of statements -/

/-- **A statement's text is read as the statement**, if the places take its values. -/
theorem read?_text (d : Dialect) (statement : Statement) :
    Statement.read? d (statement.text d) statement.parameters = some statement := by
  cases statement with
  | on t s =>
    unfold Statement.read? Statement.text
    dsimp only
    rw [lexemes_text]
    cases s with
    | select forUpdate key => cases forUpdate <;> cases d <;> rfl
    | _ => cases d <;> rfl
  | isolate level => cases level <;> cases d <;> decide +kernel
  | _ => cases d <;> decide +kernel

end BucketStore.Sql
