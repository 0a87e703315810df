/-
  BucketStore/Proofs/Words.lean
  =============================
  **The words of texts that are put together.**

  A break ends every word, so two texts that meet at one have the words of both
  (`words_append`).  A text without breaks is one word (`words_plain`).
-/
import BucketStore.Text.Words

namespace BucketStore.Text

variable {isMark : Char → Bool} {a b : String}

theorem finish_append (word : List Char) (l l' : List String) :
    finish word l ++ l' = finish word (l ++ l') := by
  unfold finish
  split <;> rfl

theorem eq_blank {c : Char} (hc : isBreak isMark c = true) (hmark : ¬isMark c = true) : c = ' ' := by
  simpa [isBreak, hmark] using hc

/-- A word ends before a break. -/
theorem cut_break {c : Char} (hc : isBreak isMark c = true) (word rest : List Char) :
    cut isMark word (c :: rest) = finish word (cut isMark [] (c :: rest)) := by
  rw [cut, cut]
  split
  · rfl
  · next hmark =>
    rw [if_pos (eq_blank hc hmark), if_pos (eq_blank hc hmark)]
    rfl

/-- Behind a break the words begin anew. -/
theorem cut_append {c : Char} (hc : isBreak isMark c = true) (front rest word : List Char) :
    cut isMark word (front ++ c :: rest) = cut isMark word front ++ cut isMark [] (c :: rest) := by
  induction front generalizing word with
  | nil =>
    rw [List.nil_append, cut_break hc, cut, finish_append]
    rfl
  | cons x front ih =>
    rw [List.cons_append, cut, cut]
    split
    · rw [ih, finish_append, List.cons_append]
    · split
      · rw [ih, finish_append]
      · exact ih _

theorem cut_cons {c : Char} (hc : isBreak isMark c = true) (rest : List Char) :
    cut isMark [] (c :: rest) = cut isMark [] [c] ++ cut isMark [] rest := by
  rw [cut, cut]
  split
  · rfl
  · next hmark =>
    rw [if_pos (eq_blank hc hmark), if_pos (eq_blank hc hmark)]
    rfl

/-- Two texts with a break where they meet have the words of both. -/
theorem words_append (h : (a.toList.getLast?.any (isBreak isMark) ||
      b.toList.head?.any (isBreak isMark)) = true) :
    words isMark (a ++ b) = words isMark a ++ words isMark b := by
  unfold words
  rw [String.toList_append]
  rcases (Bool.or_eq_true _ _).mp h with hends | hbegins
  · obtain ⟨c, hlast, hc⟩ := (Option.any_eq_true ..).mp hends
    obtain ⟨front, hfront⟩ := List.getLast?_eq_some_iff.mp hlast
    rw [hfront, List.append_assoc, List.singleton_append, cut_append hc, cut_append hc,
      cut_cons hc b.toList, List.append_assoc]
  · obtain ⟨c, hhead, hc⟩ := (Option.any_eq_true ..).mp hbegins
    obtain ⟨rest, hrest⟩ := List.head?_eq_some_iff.mp hhead
    rw [hrest, cut_append hc]

theorem cut_plain {text : List Char} (h : ∀ c ∈ text, isBreak isMark c = false) (word : List Char) :
    cut isMark word text = finish (word ++ text) [] := by
  induction text generalizing word with
  | nil => rw [List.append_nil, cut]
  | cons c rest ih =>
    obtain ⟨hfirst, hrest⟩ := List.forall_mem_cons.mp h
    obtain ⟨hblank, hmark⟩ := Bool.or_eq_false_iff.mp hfirst
    rw [cut, hmark, if_neg nofun, if_neg (ne_of_beq_false hblank), ih hrest, List.append_assoc]
    rfl

/-- A text without breaks is one word. -/
theorem words_plain (h : ∀ c ∈ a.toList, isBreak isMark c = false) (hne : a ≠ "") :
    words isMark a = [a] := by
  have hchars : a.toList.isEmpty = false := by
    rw [← Bool.not_eq_true, List.isEmpty_iff, String.toList_eq_nil_iff]
    exact hne
  unfold words
  rw [cut_plain h, List.nil_append, finish, hchars, if_neg nofun, String.ofList_toList]

end BucketStore.Text
