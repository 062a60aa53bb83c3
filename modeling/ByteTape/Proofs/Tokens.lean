import ByteTape.Proofs.Lexemes
import Mathlib.Data.List.Forall2

/-!
# Tokens and their source

Comments leave every line its number, so a token has the number of the line that its characters are
from. Only blanks are lost between the tokens of a line, and a blank put between them again is all
that it takes to cut them as before.

* `forall₂_lines`: a text with characters left out, but no line feeds, line by line.
* `exists_line_of_mem`: where a token comes from.
* `tokens_numbered`: the line of a token.
* `exists_lexeme_start`: the first lexeme of a text and what is behind it.
* `lexemes_of_mem`: a lexeme that stands alone is cut as it was in its text.
* `lexemes_kept`: what the lexemes keep of a text.
-/

namespace ByteTape.Program

/-! ## Lines -/

/-- A part of a text that has all its line feeds has its lines, with characters left out. -/
theorem forall₂_lines {part whole : List Char} (kept : part.Sublist whole)
    (feeds : part.count '\n' = whole.count '\n') :
    List.Forall₂ List.Sublist (Text.lines part) (Text.lines whole) := by
  induction kept with
  | slnil => exact .cons .slnil .nil
  | @cons part whole c kept ih =>
      -- a line feed that is left out would be missing in the count
      have other : c ≠ '\n' := by
        rintro rfl
        rw [List.count_cons_self] at feeds
        exact Nat.not_succ_le_self _ (feeds ▸ kept.count_le '\n')
      rw [List.count_cons_of_ne other] at feeds
      obtain ⟨line, others, found, longer⟩ := lines_cons other whole
      have ih := ih feeds
      rw [found] at ih
      rw [longer]
      obtain ⟨line', others', first, rest, same⟩ := List.forall₂_cons_right_iff.1 ih
      rw [same]
      exact .cons (first.cons c) rest
  | @cons_cons part whole c kept ih =>
      by_cases feed : c = '\n'
      · subst feed
        rw [List.count_cons_self, List.count_cons_self] at feeds
        exact .cons .slnil (ih (Nat.succ.inj feeds))
      · rw [List.count_cons_of_ne feed, List.count_cons_of_ne feed] at feeds
        obtain ⟨line, others, found, longer⟩ := lines_cons feed part
        obtain ⟨line', others', found', longer'⟩ := lines_cons feed whole
        have ih := ih feeds
        rw [found, found'] at ih
        rw [longer, longer']
        cases ih with
        | cons first rest => exact .cons (first.cons_cons c) rest

/-- Comments leave every line its number and take characters from it. -/
theorem forall₂_lines_stripComments (source : List Char) :
    List.Forall₂ List.Sublist (Text.lines (stripComments source)) (Text.lines source) := by
  refine forall₂_lines (stripComments_sublist source) ?_
  rw [stripComments, count_stripBlockComments, count_stripLineComments]

/-! ## Tokens of lines -/

theorem sublist_of_mem_lexemes {lexeme text : List Char} (found : lexeme ∈ lexemes text) :
    lexeme.Sublist text := by
  have within := List.sublist_flatten_of_mem found
  rw [flatten_lexemes] at within
  exact within.trans List.filter_sublist

theorem mem_lineTokens_iff {line : Nat} {text : List Char} {token : Token} :
    token ∈ lineTokens line text ↔ token.line = line ∧ token.text.toList ∈ lexemes text := by
  rw [lineTokens, List.mem_map]
  constructor
  · rintro ⟨lexeme, found, rfl⟩
    exact ⟨rfl, by rwa [String.toList_ofList]⟩
  · rintro ⟨rfl, found⟩
    exact ⟨_, found, by rw [String.ofList_toList]⟩

/-- A token of successive lines is a lexeme of one of them, and has its number. -/
theorem exists_line_of_mem {first : Nat} {texts : List (List Char)} {token : Token}
    (found : token ∈ tokensFrom first texts) :
    ∃ index text, texts[index]? = some text ∧ token.line = first + index ∧
      token.text.toList ∈ lexemes text := by
  induction texts generalizing first with
  | nil => cases found
  | cons text others ih =>
      rcases List.mem_append.1 found with here | later
      · obtain ⟨line, lexeme⟩ := mem_lineTokens_iff.1 here
        exact ⟨0, text, rfl, line, lexeme⟩
      · obtain ⟨index, text', there, line, lexeme⟩ := ih later
        exact ⟨index + 1, text', there, by rw [line, Nat.add_assoc, Nat.add_comm 1], lexeme⟩

/-- The numbers of the lines do not go down from token to token. -/
theorem lines_ascend (first : Nat) (texts : List (List Char)) :
    ((tokensFrom first texts).map Token.line).Pairwise (· ≤ ·) := by
  rw [List.pairwise_map]
  induction texts generalizing first with
  | nil => exact .nil
  | cons text others ih =>
      refine List.pairwise_append.2 ⟨?_, ih (first + 1), ?_⟩
      · refine List.pairwise_of_forall_mem_list fun token found token' found' => ?_
        have same := (mem_lineTokens_iff.1 found).1.trans (mem_lineTokens_iff.1 found').1.symm
        exact Nat.le_of_eq same
      · intro token found token' found'
        obtain ⟨index, _, _, line, _⟩ := exists_line_of_mem found'
        rw [(mem_lineTokens_iff.1 found).1, line]
        exact Nat.le_add_right_of_le (Nat.le_succ first)

/-- Without its comments a source has the same lines, with characters left out. Every token has the
number of a line of the source and is made of characters of this line in their order, and the
numbers do not go down from token to token. -/
theorem tokens_numbered (source : List Char) :
    (Text.lines (stripComments source)).length = (Text.lines source).length ∧
    List.Forall₂ List.Sublist (Text.lines (stripComments source)) (Text.lines source) ∧
    (∀ token ∈ tokens source, 1 ≤ token.line ∧ token.line ≤ (Text.lines source).length ∧
      ∃ line, (Text.lines source)[token.line - 1]? = some line ∧
        token.text.toList.Sublist line) ∧
    ((tokens source).map Token.line).Pairwise (· ≤ ·) := by
  have kept := forall₂_lines_stripComments source
  refine ⟨kept.length_eq, kept, fun token found => ?_, lines_ascend 1 _⟩
  obtain ⟨index, text, there, number, lexeme⟩ := exists_line_of_mem found
  obtain ⟨inside, rfl⟩ := List.getElem?_eq_some_iff.1 there
  have inside' : index < (Text.lines source).length := kept.length_eq ▸ inside
  have part := kept.get inside inside'
  rw [number, Nat.add_sub_cancel_left]
  refine ⟨Nat.le_add_right 1 index, Nat.add_comm 1 index ▸ inside', _,
    List.getElem?_eq_getElem inside', ?_⟩
  exact (sublist_of_mem_lexemes lexeme).trans part

/-! ## Lexemes alone -/

theorem lexemes_single {c : Char} (visible : Text.isBlank c = false) : lexemes [c] = [[c]] := by
  rw [lexemes_cons, visible]
  cases isWordChar c with
  | false => rfl
  | true => rfl

/-- A text that begins with no blank begins with a lexeme, and the rest is cut as it is. -/
theorem exists_lexeme_start {c : Char} (visible : Text.isBlank c = false) (rest : List Char) :
    ∃ tail after, rest = tail ++ after ∧ lexemes (c :: tail) = [c :: tail] ∧
      lexemes (c :: rest) = (c :: tail) :: lexemes after := by
  have notBlank : ¬ Text.isBlank c = true := Bool.eq_false_iff.1 visible
  by_cases word : isWordChar c = true
  · -- the lexeme is the longest word
    obtain ⟨tail, after, rfl, goesOn, ends⟩ := exists_word_start rest
    have all : ∀ d ∈ c :: tail, isWordChar d = true := List.forall_mem_cons.2 ⟨word, goesOn⟩
    have apart : ∀ d ∈ (c :: tail).getLast?, ∀ e ∈ after.head?, ¬ Joined d e := by
      intro d last e head joined
      exact ends e head (joined.of_word_left (all d (List.mem_of_getLast? last)))
    refine ⟨tail, after, rfl, lexemes_word all, ?_⟩
    rw [← List.cons_append, lexemes_append (c :: tail) apart, lexemes_word all,
      List.singleton_append]
  · have single := lexemes_single visible
    cases rest with
    | nil => exact ⟨[], [], rfl, single, single⟩
    | cons d others =>
        have cut (behind : List Char) : lexemes (c :: d :: behind) =
            if isOperator c d then [c, d] :: lexemes behind else [c] :: lexemes (d :: behind) := by
          rw [lexemes_cons, if_neg notBlank, if_neg word]
        by_cases operator : isOperator c d = true
        · have both (behind : List Char) := (cut behind).trans (if_pos operator)
          exact ⟨[d], others, rfl, both [], both others⟩
        · exact ⟨[], d :: others, rfl, single, (cut others).trans (if_neg operator)⟩

/-- A lexeme that stands alone is cut as it was in its text. -/
theorem lexemes_of_mem {lexeme text : List Char} (found : lexeme ∈ lexemes text) :
    lexemes lexeme = [lexeme] := by
  match text with
  | [] => cases found
  | c :: rest =>
      by_cases blank : Text.isBlank c = true
      · rw [lexemes_cons, if_pos blank] at found
        exact lexemes_of_mem found
      · obtain ⟨tail, after, split, alone, cut⟩ :=
          exists_lexeme_start (Bool.eq_false_iff.2 blank) rest
        rw [cut] at found
        rcases List.mem_cons.1 found with rfl | later
        · exact alone
        · have shorter : after.length ≤ rest.length := by simp [split]
          exact lexemes_of_mem later
termination_by text.length

/-- Texts between which stands a blank are cut each for itself. -/
theorem lexemes_intercalate {blank : Char} (isBlank : Text.isBlank blank = true)
    (texts : List (List Char)) : lexemes ([blank].intercalate texts) = texts.flatMap lexemes := by
  induction texts with
  | nil => rfl
  | cons text others ih =>
      cases others with
      | nil => rw [List.intercalate_singleton, List.flatMap_singleton]
      | cons text' others =>
          rw [List.flatMap_cons, ← ih, List.intercalate_cons_cons, List.append_assoc,
            List.singleton_append, lexemes_blank isBlank]

/-- The lexemes of a text hold all its characters but the blanks, none of them is empty, and with
blanks between them they are cut as before. The tokens of a source are the lexemes of what is left
without comments, as if it were one line. -/
theorem lexemes_kept (text : List Char) :
    (lexemes text).flatten = text.filter (fun c => !Text.isBlank c) ∧
    (∀ lexeme ∈ lexemes text, lexeme ≠ []) ∧
    lexemes ([' '].intercalate (lexemes text)) = lexemes text ∧
    (tokens text).map Token.text = (lexemes (stripComments text)).map String.ofList := by
  refine ⟨flatten_lexemes text, fun lexeme found => ?_, ?_, texts_tokens text⟩
  · rintro rfl
    cases lexemes_of_mem found
  · rw [lexemes_intercalate (by decide)]
    calc
      (lexemes text).flatMap lexemes = (lexemes text).flatMap fun lexeme => [lexeme] :=
        List.flatMap_congr fun lexeme found => lexemes_of_mem found
      _ = lexemes text := List.flatMap_singleton' _

end ByteTape.Program
