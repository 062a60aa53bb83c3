import ByteTape.Program.Token

/-!
# The tokens of a source

Taking out comments and cutting into lines and tokens leaves characters out and adds none, so a
source has no more tokens than characters. Outside comments only blanks are left out. A source that
is continued on a new line has its tokens in front of those of the rest, unless a comment goes on.

* `stripComments_sublist`: what is left without comments is a subsequence.
* `length_tokens_le`: a source has no more tokens than characters.
* `mem_tokens`: a character that is neither a blank nor in a comment is in a token.
* `stripComments_joined`: a text that has no slash left has ended all its comments.
* `tokens_joined`: the tokens of the rest follow, as many lines further down as there are before it.
-/

namespace ByteTape.Program

/-! ## Comments -/

theorem stripLineComments_sublist (inside : Bool) (text : List Char) :
    (stripLineComments inside text).Sublist text := by
  fun_induction stripLineComments inside text with
  | case1 => exact .slnil
  | case2 rest ih => exact ih.cons_cons _
  | case3 c rest _ ih => exact ih.cons c
  | case4 rest ih => exact (ih.cons _).cons _
  | case5 c rest _ ih => exact ih.cons_cons c

theorem stripBlockComments_sublist (inside : Bool) (text : List Char) :
    (stripBlockComments inside text).Sublist text := by
  fun_induction stripBlockComments inside text with
  | case1 => exact .slnil
  | case2 rest ih => exact (ih.cons _).cons _
  | case3 rest ih => exact ih.cons_cons _
  | case4 c rest _ _ ih => exact ih.cons c
  | case5 rest _ ih => exact (ih.cons _).cons _
  | case6 rest _ ih => exact (ih.cons_cons _).cons_cons _
  | case7 c rest _ ih => exact ih.cons_cons c

theorem stripComments_sublist (source : List Char) : (stripComments source).Sublist source :=
  (stripBlockComments_sublist false _).trans (stripLineComments_sublist false source)

/-! ## Comments of joined texts -/

theorem starts_of_joined {first second tail : List Char} {c : Char} (differs : c ≠ '\n')
    (same : first ++ '\n' :: second = c :: tail) : ∃ rest, first = c :: rest := by
  cases first with
  | nil => exact absurd (List.cons.inj same).1.symm differs
  | cons d rest =>
      obtain rfl := (List.cons.inj same).1
      exact ⟨rest, rfl⟩

theorem stripLineComments_joined (inside : Bool) (first second : List Char) :
    stripLineComments inside (first ++ '\n' :: second) =
      stripLineComments inside first ++ '\n' :: stripLineComments false second := by
  fun_induction stripLineComments inside first with
  | case1 inside => cases inside <;> simp [stripLineComments]
  | case2 rest ih => simp [stripLineComments, ih]
  | case3 c rest other ih =>
      rw [List.cons_append, stripLineComments, ih]
      exact other
  | case4 rest ih => simp [stripLineComments, ih]
  | case5 c rest other ih =>
      rw [List.cons_append, stripLineComments, ih, List.cons_append]
      intro tail slash same
      obtain ⟨rest', again⟩ := starts_of_joined (by decide) same
      exact other rest' slash again

theorem closesComment_cons {rest : List Char} (closes : closesComment rest = true) (c : Char) :
    closesComment (c :: rest) = true := by
  unfold closesComment
  split
  next => rfl
  next same =>
    obtain ⟨-, rfl⟩ := List.cons.inj same
    exact closes
  next same => cases same

theorem closesComment_append {first : List Char} (closes : closesComment first = true)
    (second : List Char) : closesComment (first ++ second) = true := by
  fun_induction closesComment first with
  | case1 => rfl
  | case2 c rest _ ih => exact closesComment_cons (ih closes) c
  | case3 => cases closes

/-- No block comment reaches over the line end if the first part closes the one that it begins in
and has no slash left. -/
theorem stripBlockComments_joined {inside : Bool} {first : List Char}
    (closes : inside = true → closesComment first = true)
    (clean : '/' ∉ stripBlockComments inside first) (second : List Char) :
    stripBlockComments inside (first ++ '\n' :: second) =
      stripBlockComments inside first ++ '\n' :: stripBlockComments false second := by
  fun_induction stripBlockComments inside first with
  | case1 inside =>
      cases inside with
      | false => simp [stripBlockComments]
      | true => cases closes rfl
  | case2 rest ih => exact ih nofun clean
  | case3 rest ih =>
      rw [List.mem_cons, not_or] at clean
      rw [List.cons_append, stripBlockComments, ih closes clean.2, List.cons_append]
  | case4 c rest unclosed other ih =>
      rw [List.cons_append, stripBlockComments]
      · refine ih (fun _ => ?_) clean
        rw [← closes rfl, closesComment]
        exact unclosed
      · intro tail star same
        obtain ⟨rest', again⟩ := starts_of_joined (by decide) same
        exact unclosed rest' star again
      · exact other
  | case5 rest closed ih =>
      rw [List.cons_append, List.cons_append, stripBlockComments,
        if_pos (closesComment_append closed _)]
      exact ih (fun _ => closed) clean
  -- an opening that is never closed stays, with its slash
  | case6 => exact absurd List.mem_cons_self clean
  | case7 c rest _ ih =>
      rw [List.mem_cons, not_or] at clean
      rw [List.cons_append, stripBlockComments, ih nofun clean.2, List.cons_append]
      intro _ slash
      exact absurd slash.symm clean.1

theorem stripComments_joined {first : List Char} (clean : '/' ∉ stripComments first)
    (second : List Char) :
    stripComments (first ++ '\n' :: second) =
      stripComments first ++ '\n' :: stripComments second := by
  unfold stripComments
  rw [stripLineComments_joined]
  have outside : false = true → closesComment (stripLineComments false first) = true := nofun
  exact stripBlockComments_joined outside clean _

/-! ## Lines -/

theorem count_stripLineComments (inside : Bool) (text : List Char) :
    (stripLineComments inside text).count '\n' = text.count '\n' := by
  fun_induction stripLineComments inside text with
  | case1 => rfl
  | case2 rest ih => simp [ih]
  | case3 c rest other ih => rw [ih, List.count_cons_of_ne other]
  | case4 rest ih => simp [ih]
  | case5 c rest _ ih => simp [List.count_cons, ih]

theorem count_stripBlockComments (inside : Bool) (text : List Char) :
    (stripBlockComments inside text).count '\n' = text.count '\n' := by
  fun_induction stripBlockComments inside text with
  | case1 => rfl
  | case2 rest ih => simp [ih]
  | case3 rest ih => simp [ih]
  | case4 c rest _ other ih => rw [ih, List.count_cons_of_ne other]
  | case5 rest _ ih => simp [ih]
  | case6 rest _ ih => simp [ih]
  | case7 c rest _ ih => simp [List.count_cons, ih]

theorem lines_cons {c : Char} (other : c ≠ '\n') (rest : List Char) :
    ∃ line others, Text.lines rest = line :: others ∧
      Text.lines (c :: rest) = (c :: line) :: others := by
  obtain ⟨line, others, found⟩ := List.exists_cons_of_ne_nil (Text.lines_ne_nil rest)
  exact ⟨line, others, found, by rw [Text.lines, if_neg other, found]⟩

theorem length_lines (text : List Char) : (Text.lines text).length = text.count '\n' + 1 := by
  induction text with
  | nil => rfl
  | cons c rest ih =>
      by_cases feed : c = '\n'
      · simp [Text.lines, feed, ih]
      · obtain ⟨line, others, found, longer⟩ := lines_cons feed rest
        rw [longer, List.count_cons_of_ne feed, ← ih, found]
        rfl

/-- Every line keeps its number when comments go. -/
theorem length_lines_stripComments (source : List Char) :
    (Text.lines (stripComments source)).length = (Text.lines source).length := by
  rw [length_lines, length_lines, stripComments, count_stripBlockComments, count_stripLineComments]

theorem lines_joined (first second : List Char) :
    Text.lines (first ++ '\n' :: second) = Text.lines first ++ Text.lines second := by
  induction first with
  | nil => simp [Text.lines]
  | cons c rest ih =>
      by_cases feed : c = '\n'
      · simp [Text.lines, feed, ih]
      · obtain ⟨line, others, found, longer⟩ := lines_cons feed rest
        rw [List.cons_append, Text.lines, if_neg feed, ih, longer, found]
        rfl

theorem flatten_lines (text : List Char) : (Text.lines text).flatten = text.filter (· ≠ '\n') := by
  induction text with
  | nil => rfl
  | cons c rest ih =>
      by_cases feed : c = '\n'
      · simp [Text.lines, feed, ih]
      · obtain ⟨line, others, found, longer⟩ := lines_cons feed rest
        rw [found] at ih
        rw [longer]
        simpa [feed] using ih

theorem flatten_lines_sublist (text : List Char) : (Text.lines text).flatten.Sublist text := by
  rw [flatten_lines]
  exact List.filter_sublist

/-! ## Lexemes -/

theorem length_lengthenFirst_le (c : Char) (lexemes : List (List Char)) :
    (lengthenFirst c lexemes).length ≤ lexemes.length + 1 := by
  cases lexemes with
  | nil => exact Nat.le_refl _
  | cons first others => exact Nat.le_succ _

theorem lexemes_cons (c : Char) (rest : List Char) :
    lexemes (c :: rest) =
      if Text.isBlank c then lexemes rest
      else if isWordChar c then
        if startsWord rest then lengthenFirst c (lexemes rest) else [c] :: lexemes rest
      else
        match rest with
        | [] => [[c]]
        | d :: others =>
            if isOperator c d then [c, d] :: lexemes others else [c] :: lexemes (d :: others) := by
  cases rest with
  | nil => rfl
  | cons d others => rfl

theorem length_lexemes_le : (text : List Char) → (lexemes text).length ≤ text.length
  | [] => Nat.le_refl _
  | c :: rest => by
      have ih := length_lexemes_le rest
      rw [lexemes_cons]
      split
      next => exact Nat.le_succ_of_le ih
      next =>
        split
        next =>
          split
          next => exact Nat.le_trans (length_lengthenFirst_le c _) (Nat.succ_le_succ ih)
          next => exact Nat.succ_le_succ ih
        next =>
          match rest with
          | [] => exact Nat.le_refl _
          | d :: others =>
              dsimp only
              split
              next => exact Nat.le_succ_of_le (Nat.succ_le_succ (length_lexemes_le others))
              next => exact Nat.succ_le_succ ih

theorem flatten_lengthenFirst (c : Char) (lexemes : List (List Char)) :
    (lengthenFirst c lexemes).flatten = c :: lexemes.flatten := by
  cases lexemes with
  | nil => rfl
  | cons first others => rfl

theorem isBlank_of_isOperator {c d : Char} (operator : isOperator c d = true) :
    Text.isBlank d = false := by
  obtain ⟨second, -⟩ := Bool.and_eq_true_iff.1 operator
  rw [eq_of_beq second]
  rfl

/-- The lexemes of a text hold all its characters but the blanks. -/
theorem flatten_lexemes : (text : List Char) →
    (lexemes text).flatten = text.filter fun c => !Text.isBlank c
  | [] => rfl
  | c :: rest => by
      have ih := flatten_lexemes rest
      rw [lexemes_cons]
      split
      next blank => simp [blank, ih]
      next visible =>
        have kept : (c :: rest).filter (fun c => !Text.isBlank c) =
            c :: rest.filter fun c => !Text.isBlank c := by simp [visible]
        rw [kept, ← ih]
        split
        next =>
          split
          next => exact flatten_lengthenFirst c _
          next => rfl
        next =>
          match rest with
          | [] => rfl
          | d :: others =>
              dsimp only
              split
              next operator =>
                rw [ih, List.flatten_cons, flatten_lexemes others]
                simp [isBlank_of_isOperator operator]
              next => rfl

/-! ## Tokens -/

theorem length_tokensFrom_le (line : Nat) (texts : List (List Char)) :
    (tokensFrom line texts).length ≤ texts.flatten.length := by
  induction texts generalizing line with
  | nil => exact Nat.le_refl _
  | cons text others ih =>
      rw [tokensFrom, lineTokens, List.length_append, List.length_map, List.flatten_cons,
        List.length_append]
      exact Nat.add_le_add (length_lexemes_le text) (ih (line + 1))

/-- A source has no more tokens than characters. -/
theorem length_tokens_le (source : List Char) : (tokens source).length ≤ source.length := by
  have fewer := (flatten_lines_sublist _).trans (stripComments_sublist source)
  exact Nat.le_trans (length_tokensFrom_le 1 _) fewer.length_le

theorem mem_lineTokens {c : Char} {text : List Char} (inside : c ∈ text)
    (visible : Text.isBlank c = false) (line : Nat) :
    ∃ token ∈ lineTokens line text, c ∈ token.text.toList := by
  have kept : c ∈ (lexemes text).flatten := by
    rw [flatten_lexemes]
    simp [inside, visible]
  obtain ⟨lexeme, found, within⟩ := List.mem_flatten.1 kept
  refine ⟨_, List.mem_map_of_mem found, ?_⟩
  rw [String.toList_ofList]
  exact within

theorem mem_tokensFrom {c : Char} {texts : List (List Char)} (inside : c ∈ texts.flatten)
    (visible : Text.isBlank c = false) (line : Nat) :
    ∃ token ∈ tokensFrom line texts, c ∈ token.text.toList := by
  induction texts generalizing line with
  | nil => cases inside
  | cons text others ih =>
      rw [List.flatten_cons, List.mem_append] at inside
      rw [tokensFrom]
      rcases inside with here | later
      · obtain ⟨token, found, within⟩ := mem_lineTokens here visible line
        exact ⟨token, List.mem_append_left _ found, within⟩
      · obtain ⟨token, found, within⟩ := ih later (line + 1)
        exact ⟨token, List.mem_append_right _ found, within⟩

/-- Every character that is neither a blank nor in a comment is in a token. -/
theorem mem_tokens {c : Char} {source : List Char} (inside : c ∈ stripComments source)
    (visible : Text.isBlank c = false) : ∃ token ∈ tokens source, c ∈ token.text.toList := by
  refine mem_tokensFrom ?_ visible 1
  rw [flatten_lines]
  have other : c ≠ '\n' := by
    rintro rfl
    cases visible
  simp [inside, other]

/-! ## Tokens of joined sources -/

/-- A token of a text behind so many lines. -/
def Token.below (lines : Nat) (token : Token) : Token :=
  { token with line := token.line + lines }

theorem tokensFrom_append (line : Nat) (first second : List (List Char)) :
    tokensFrom line (first ++ second) =
      tokensFrom line first ++ tokensFrom (line + first.length) second := by
  induction first generalizing line with
  | nil => rfl
  | cons text others ih =>
      rw [List.cons_append, tokensFrom, tokensFrom, ih, List.append_assoc, List.length_cons,
        Nat.add_right_comm, Nat.add_assoc]

theorem tokensFrom_below (lines line : Nat) (texts : List (List Char)) :
    tokensFrom (line + lines) texts = (tokensFrom line texts).map (Token.below lines) := by
  induction texts generalizing line with
  | nil => rfl
  | cons text others ih =>
      rw [tokensFrom, tokensFrom, List.map_append, ← ih, Nat.add_right_comm]
      simp [lineTokens, Token.below]

theorem tokens_joined {first : List Char} (clean : '/' ∉ stripComments first)
    (second : List Char) :
    tokens (first ++ '\n' :: second) =
      tokens first ++ (tokens second).map (Token.below (Text.lines first).length) := by
  unfold tokens
  rw [stripComments_joined clean, lines_joined, tokensFrom_append, length_lines_stripComments,
    tokensFrom_below]

end ByteTape.Program
