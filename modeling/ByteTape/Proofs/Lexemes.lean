import ByteTape.Proofs.Lexing

/-!
# Cutting a text between its lexemes

Two characters side by side belong to one lexeme if both are word characters or if they are an
operator. Everywhere else a text can be cut, and its parts have the lexemes that they have in the
whole.

* `Joined`: two characters that belong to one lexeme.
* `lexemes_append`: a text can be cut between characters that are not joined.
* `lexemes_blank`, `lexemes_lines`: so it can be cut at every blank, and into its lines.
* `InsideLexeme`: a place with characters of one lexeme on both sides.
* `lexemes_append_of_outside`: a text can be cut at every other place.
* `texts_tokens`: the texts of the tokens are the lexemes of what is left without comments.
-/

namespace ByteTape.Program

/-! ## Characters -/

/-- Two characters that belong to one lexeme when they stand side by side. -/
def Joined (c d : Char) : Prop :=
  (isWordChar c = true ∧ isWordChar d = true) ∨ isOperator c d = true

/-- First and last code point of each run of blanks. -/
def blankRuns : List (Nat × Nat) :=
  [(0x09, 0x0d), (0x1c, 0x20), (0x85, 0x85), (0xa0, 0xa0), (0x1680, 0x1680), (0x2000, 0x200a),
   (0x2028, 0x2028), (0x2029, 0x2029), (0x202f, 0x202f), (0x205f, 0x205f), (0x3000, 0x3000)]

theorem exists_blankRun {c : Char} (blank : Text.isBlank c = true) :
    ∃ run ∈ blankRuns, run.1 ≤ c.toNat ∧ c.toNat ≤ run.2 := by
  have exactly (n : Nat) : c.toNat = n ↔ n ≤ c.toNat ∧ c.toNat ≤ n := by
    rw [Nat.le_antisymm_iff, and_comm]
  simpa [blankRuns, Text.isBlank, exactly, or_assoc] using blank

/-- No blank is a word character. -/
theorem isWordChar_of_isBlank {c : Char} (blank : Text.isBlank c = true) :
    isWordChar c = false := by
  have all : ∀ run ∈ blankRuns, ∀ k < run.2 + 1 - run.1,
      isWordChar (Char.ofNat (run.1 + k)) = false := by decide +kernel
  obtain ⟨run, found, low, high⟩ := exists_blankRun blank
  have here := all run found (c.toNat - run.1) (by omega)
  rwa [Nat.add_sub_cancel' low, Char.ofNat_toNat] at here

theorem isBlank_of_isWordChar {c : Char} (word : isWordChar c = true) : Text.isBlank c = false := by
  cases blank : Text.isBlank c with
  | false => rfl
  | true =>
      rw [isWordChar_of_isBlank blank] at word
      cases word

theorem isOperator_iff {c d : Char} :
    isOperator c d = true ↔ d = '=' ∧ (c = '+' ∨ c = '-' ∨ c = '!') := by
  simp [isOperator, or_assoc]

theorem Joined.blank_right {c d : Char} (joined : Joined c d) : Text.isBlank d = false := by
  obtain ⟨-, word⟩ | operator := joined
  · exact isBlank_of_isWordChar word
  · exact isBlank_of_isOperator operator

/-- A word character is joined to another word character only. -/
theorem Joined.of_word_left {c d : Char} (joined : Joined c d) (word : isWordChar c = true) :
    isWordChar d = true := by
  obtain ⟨-, other⟩ | operator := joined
  · exact other
  · obtain ⟨-, rfl | rfl | rfl⟩ := isOperator_iff.1 operator <;> cases word

theorem Joined.of_word_right {c d : Char} (joined : Joined c d) (word : isWordChar d = true) :
    isWordChar c = true := by
  obtain ⟨other, -⟩ | operator := joined
  · exact other
  · obtain ⟨rfl, -⟩ := isOperator_iff.1 operator
    cases word

/-! ## Cutting -/

theorem lexemes_ne_nil {c : Char} (visible : Text.isBlank c = false) (rest : List Char) :
    lexemes (c :: rest) ≠ [] := by
  intro none
  have kept := flatten_lexemes (c :: rest)
  rw [none] at kept
  simp [visible] at kept

theorem lengthenFirst_append (c : Char) {first : List (List Char)} (some : first ≠ [])
    (second : List (List Char)) :
    lengthenFirst c (first ++ second) = lengthenFirst c first ++ second := by
  cases first with
  | nil => exact absurd rfl some
  | cons lexeme others => rfl

/-- A text can be cut between two characters that are not joined. -/
theorem lexemes_append : (first : List Char) → {second : List Char} →
    (apart : ∀ c ∈ first.getLast?, ∀ d ∈ second.head?, ¬ Joined c d) →
    lexemes (first ++ second) = lexemes first ++ lexemes second
  | [], second, _ => rfl
  | [c], [], _ => (List.append_nil _).symm
  | [c], d :: others, apart => by
      have free := apart c rfl d rfl
      rw [List.singleton_append, lexemes_cons c (d :: others), lexemes_cons c []]
      split
      next => rfl
      next =>
        split
        next word =>
          have ends : ¬ startsWord (d :: others) = true := fun goes => free (.inl ⟨word, goes⟩)
          rw [if_neg ends]
          rfl
        next =>
          have single : ¬ isOperator c d = true := fun operator => free (.inr operator)
          dsimp only
          rw [if_neg single]
          rfl
  | c :: d :: rest, second, apart => by
      have next : lexemes (d :: (rest ++ second)) = lexemes (d :: rest) ++ lexemes second :=
        lexemes_append (d :: rest) apart
      rw [List.cons_append, List.cons_append, lexemes_cons, lexemes_cons c (d :: rest), next]
      split
      next => rfl
      next =>
        split
        next =>
          have same : startsWord (d :: (rest ++ second)) = startsWord (d :: rest) := rfl
          rw [same]
          split
          next goes =>
            exact lengthenFirst_append c (lexemes_ne_nil (isBlank_of_isWordChar goes) rest) _
          next => rfl
        next =>
          dsimp only
          split
          next =>
            -- the operator takes both characters, so the cut may be right behind them
            rw [lexemes_append rest, List.cons_append]
            intro e last
            refine apart e ?_
            cases rest with
            | nil => cases last
            | cons => exact last
          next => rw [next, List.cons_append]

/-- A blank separates, and nothing else. -/
theorem lexemes_blank {blank : Char} (isBlank : Text.isBlank blank = true)
    (first second : List Char) :
    lexemes (first ++ blank :: second) = lexemes first ++ lexemes second := by
  have apart : ∀ c ∈ first.getLast?, ∀ d ∈ (blank :: second).head?, ¬ Joined c d := by
    rintro c - d ⟨⟩ joined
    rw [joined.blank_right] at isBlank
    cases isBlank
  rw [lexemes_append first apart, lexemes_cons, if_pos isBlank]

theorem lexemes_blanks {text : List Char} (blank : ∀ c ∈ text, Text.isBlank c = true) :
    lexemes text = [] := by
  induction text with
  | nil => rfl
  | cons c rest ih =>
      rw [List.forall_mem_cons] at blank
      rw [lexemes_cons, if_pos blank.1, ih blank.2]

/-! ## Places inside a lexeme -/

/-- The two parts of a text meet inside one of its lexemes. -/
def InsideLexeme (first second : List Char) : Prop :=
  ∃ before left right after, first = before ++ left ∧ second = right ++ after ∧
    left ≠ [] ∧ right ≠ [] ∧
    lexemes (first ++ second) = lexemes before ++ (left ++ right) :: lexemes after

theorem not_insideLexeme_nil (text : List Char) : ¬ InsideLexeme [] text := by
  rintro ⟨before, left, right, after, start, -, some, -⟩
  exact some (List.append_eq_nil_iff.1 start.symm).2

/-- No blank is in a lexeme. -/
theorem not_insideLexeme_blank {blank : Char} (isBlank : Text.isBlank blank = true)
    (first second : List Char) : ¬ InsideLexeme first (blank :: second) := by
  rintro ⟨before, left, right, after, -, rest, -, some, cut⟩
  obtain ⟨d, others, rfl⟩ := List.exists_cons_of_ne_nil some
  obtain rfl : blank = d := (List.cons.inj rest).1
  have within : blank ∈ (lexemes (first ++ blank :: second)).flatten := by simp [cut]
  rw [flatten_lexemes, List.mem_filter, isBlank] at within
  cases within.2

/-- Word characters alone are one lexeme. -/
theorem lexemes_word {c : Char} {rest : List Char} (word : ∀ d ∈ c :: rest, isWordChar d = true) :
    lexemes (c :: rest) = [c :: rest] := by
  induction rest generalizing c with
  | nil =>
      rw [List.forall_mem_singleton] at word
      rw [lexemes_cons, isBlank_of_isWordChar word, word]
      rfl
  | cons d others ih =>
      rw [List.forall_mem_cons] at word
      have goes : startsWord (d :: others) = true := word.2 d List.mem_cons_self
      rw [lexemes_cons, isBlank_of_isWordChar word.1, word.1, goes, ih word.2]
      rfl

/-- Every text starts with a longest run of word characters, which may be empty. -/
theorem exists_word_start (text : List Char) :
    ∃ word after, text = word ++ after ∧ (∀ c ∈ word, isWordChar c = true) ∧
      ∀ c ∈ after.head?, ¬ isWordChar c = true := by
  induction text with
  | nil => exact ⟨[], [], rfl, nofun, nofun⟩
  | cons c rest ih =>
      by_cases word : isWordChar c = true
      · obtain ⟨run, after, rfl, all, ends⟩ := ih
        exact ⟨c :: run, after, rfl, List.forall_mem_cons.2 ⟨word, all⟩, ends⟩
      · refine ⟨[], c :: rest, rfl, nofun, ?_⟩
        simpa using word

theorem exists_word_end (text : List Char) :
    ∃ before word, text = before ++ word ∧ (∀ c ∈ word, isWordChar c = true) ∧
      ∀ c ∈ before.getLast?, ¬ isWordChar c = true := by
  obtain ⟨word, before, same, all, ends⟩ := exists_word_start text.reverse
  refine ⟨before.reverse, word.reverse, ?_, by simpa using all, by simpa using ends⟩
  rw [← List.reverse_append, ← same, List.reverse_reverse]

theorem insideLexeme_of_word {c d : Char} (left : isWordChar c = true) (right : isWordChar d = true)
    (first second : List Char) : InsideLexeme (first ++ [c]) (d :: second) := by
  obtain ⟨before, start, rfl, startWord, startEnds⟩ := exists_word_end first
  obtain ⟨rest, after, rfl, restWord, restEnds⟩ := exists_word_start second
  refine ⟨before, start ++ [c], d :: rest, after, List.append_assoc .., rfl, by simp, by simp, ?_⟩
  -- the whole word around the cut
  obtain ⟨e, word, same⟩ : ∃ e word, start ++ [c] ++ d :: rest = e :: word :=
    List.exists_cons_of_ne_nil (by simp)
  have all : ∀ k ∈ e :: word, isWordChar k = true := by
    rw [← same]
    simpa [or_imp, forall_and, left, right] using ⟨startWord, restWord⟩
  have split : before ++ start ++ [c] ++ d :: (rest ++ after) = before ++ (e :: word ++ after) := by
    simp [← same]
  have apart : ∀ k ∈ before.getLast?, ∀ k' ∈ (e :: word ++ after).head?, ¬ Joined k k' := by
    rintro k last k' ⟨⟩ joined
    exact startEnds k last (joined.of_word_right (all e List.mem_cons_self))
  have apart' : ∀ k ∈ (e :: word).getLast?, ∀ k' ∈ after.head?, ¬ Joined k k' := by
    intro k last k' head joined
    exact restEnds k' head (joined.of_word_left (all k (List.mem_of_getLast? last)))
  rw [split, lexemes_append before apart, lexemes_append (e :: word) apart',
    lexemes_word all, same]
  rfl

theorem insideLexeme_of_operator {c d : Char} (operator : isOperator c d = true)
    (first second : List Char) : InsideLexeme (first ++ [c]) (d :: second) := by
  refine ⟨first, [c], [d], second, rfl, rfl, nofun, nofun, ?_⟩
  obtain ⟨rfl, sign⟩ := isOperator_iff.1 operator
  have plain : Text.isBlank c = false ∧ isWordChar c = false ∧ c ≠ '=' := by
    rcases sign with rfl | rfl | rfl <;> decide
  have apart : ∀ k ∈ first.getLast?, ∀ k' ∈ (c :: '=' :: second).head?, ¬ Joined k k' := by
    rintro k - k' ⟨⟩ (⟨-, word⟩ | other)
    · rw [plain.2.1] at word
      cases word
    · exact plain.2.2 (isOperator_iff.1 other).1
  rw [List.append_assoc, List.singleton_append, lexemes_append first apart, lexemes_cons, plain.1,
    plain.2.1]
  simp [operator]

/-- A text can be cut at every place that is not inside one of its lexemes. -/
theorem lexemes_append_of_outside {first second : List Char}
    (outside : ¬ InsideLexeme first second) :
    lexemes (first ++ second) = lexemes first ++ lexemes second := by
  refine lexemes_append first fun c last d head joined => outside ?_
  obtain ⟨before, rfl⟩ := List.getLast?_eq_some_iff.1 last
  obtain ⟨after, rfl⟩ := List.head?_eq_some_iff.1 head
  rcases joined with ⟨left, right⟩ | operator
  · exact insideLexeme_of_word left right before after
  · exact insideLexeme_of_operator operator before after

/-! ## Lines and tokens -/

theorem lines_of_notMem {text : List Char} (unbroken : '\n' ∉ text) : Text.lines text = [text] := by
  induction text with
  | nil => rfl
  | cons c rest ih =>
      rw [List.mem_cons, not_or] at unbroken
      rw [Text.lines, if_neg (Ne.symm unbroken.1), ih unbroken.2]

/-- Induction on the lines of a text. -/
theorem line_induction {motive : List Char → Prop}
    (unbroken : ∀ line, '\n' ∉ line → motive line)
    (joined : ∀ line rest, '\n' ∉ line → motive rest → motive (line ++ '\n' :: rest))
    (text : List Char) : motive text := by
  by_cases broken : '\n' ∈ text
  · obtain ⟨line, rest, same, free⟩ := List.eq_append_cons_of_mem broken
    have shorter : rest.length < text.length := by simp [same, Nat.lt_add_left]
    rw [same]
    exact joined line rest free (line_induction unbroken joined rest)
  · exact unbroken text broken
termination_by text.length

/-- No lexeme reaches over the end of a line. -/
theorem lexemes_lines (text : List Char) : (Text.lines text).flatMap lexemes = lexemes text := by
  induction text using line_induction with
  | unbroken line free => rw [lines_of_notMem free, List.flatMap_singleton]
  | joined line rest free ih =>
      rw [lines_joined, lines_of_notMem free, List.flatMap_append, ih, lexemes_blank (by decide),
        List.flatMap_singleton]

theorem texts_tokensFrom (line : Nat) (texts : List (List Char)) :
    (tokensFrom line texts).map Token.text = (texts.flatMap lexemes).map String.ofList := by
  induction texts generalizing line with
  | nil => rfl
  | cons text others ih =>
      rw [tokensFrom, List.map_append, ih, List.flatMap_cons, List.map_append, lineTokens,
        List.map_map]
      rfl

/-- The texts of the tokens are the lexemes of what is left without comments. -/
theorem texts_tokens (source : List Char) :
    (tokens source).map Token.text = (lexemes (stripComments source)).map String.ofList := by
  rw [tokens, texts_tokensFrom, lexemes_lines]

end ByteTape.Program
