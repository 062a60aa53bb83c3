import ByteTape.Proofs.Lexemes

/-!
# Comments do not count

Line comments go first, also inside block comments. So a block comment between two tokens goes
without a trace unless its last line holds a `//`, which takes the closing mark with it. A line
comment at the end of a line always goes without a trace.

* `goesOn`: whether a text ends inside a line comment; `goesOn_iff`: when its last line has a `//`.
* `stripLineComments_append`: line comments go part by part.
* `stripComments_block`, `slash_mem_stripComments_block`: what is left of a block comment.
* `stripComments_line`: nothing is left of a line comment.
* `tokens_commented`: the tokens of a text into which a comment is put.
* `tokens_commented_swallowed`: a block comment whose closing mark is in a line comment.
-/

namespace ByteTape.Program

/-- A block comment between blanks. -/
def blockComment (comment : List Char) : List Char :=
  [' ', '/', '*'] ++ comment ++ ['*', '/', ' ']

def lineComment (comment : List Char) : List Char :=
  ['/', '/'] ++ comment

/-- The part of a text behind its last line feed. -/
def lastLine (text : List Char) : List Char :=
  (Text.lines text).getLast (Text.lines_ne_nil text)

theorem lastLine_of_notMem {text : List Char} (unbroken : '\n' ∉ text) : lastLine text = text := by
  simp only [lastLine, lines_of_notMem unbroken, List.getLast_singleton]

theorem lastLine_joined (first second : List Char) :
    lastLine (first ++ '\n' :: second) = lastLine second := by
  simp only [lastLine, lines_joined]
  exact List.getLast_append_of_ne_nil _ (Text.lines_ne_nil second)

/-- Where two characters stand side by side. -/
theorem pair_infix_cons {a b c : Char} {rest : List Char} :
    [a, b] <:+: c :: rest ↔ (c = a ∧ ∃ tail, rest = b :: tail) ∨ [a, b] <:+: rest := by
  rw [List.infix_cons_iff, List.cons_prefix_cons, eq_comm]
  refine or_congr_left (and_congr_right fun _ => exists_congr fun tail => ?_)
  rw [List.singleton_append, eq_comm]

/-! ## Line comments -/

/-- Whether a text ends inside a line comment. The flag says whether it starts inside one. -/
def goesOn : Bool → List Char → Bool
  | inside, [] => inside
  | true, '\n' :: rest => goesOn false rest
  | true, _ :: rest => goesOn true rest
  | false, '/' :: '/' :: rest => goesOn true rest
  | false, _ :: rest => goesOn false rest

theorem apart_of_cons {c : Char} {rest second : List Char}
    (apart : (c :: rest).getLast? ≠ some '/' ∨ second.head? ≠ some '/') :
    rest.getLast? ≠ some '/' ∨ second.head? ≠ some '/' := by
  cases rest with
  | nil => exact .inl nofun
  | cons => simpa using apart

/-- Line comments go part by part if no two slashes meet between the parts. -/
theorem stripLineComments_append (inside : Bool) (first : List Char) {second : List Char}
    (apart : first.getLast? ≠ some '/' ∨ second.head? ≠ some '/') :
    stripLineComments inside (first ++ second) =
      stripLineComments inside first ++ stripLineComments (goesOn inside first) second := by
  fun_induction stripLineComments inside first with
  | case1 inside => cases inside <;> rfl
  | case2 rest ih =>
      rw [List.cons_append, stripLineComments, ih (apart_of_cons apart), goesOn, List.cons_append]
  | case3 c rest other ih =>
      rw [List.cons_append, stripLineComments, ih (apart_of_cons apart), goesOn]
      · exact other
      · exact other
  | case4 rest ih =>
      rw [List.cons_append, List.cons_append, stripLineComments,
        ih (apart_of_cons (apart_of_cons apart)), goesOn]
  | case5 c rest other ih =>
      rw [List.cons_append, stripLineComments, ih (apart_of_cons apart), goesOn, List.cons_append]
      · exact other
      · intro tail slash same
        cases rest with
        | nil =>
            -- the two slashes would be on both sides of the cut
            rw [List.nil_append] at same
            simp [slash, same] at apart
        | cons d others =>
            obtain ⟨rfl, -⟩ := List.cons.inj same
            exact other others slash rfl

theorem goesOn_joined (inside : Bool) (first second : List Char) :
    goesOn inside (first ++ '\n' :: second) = goesOn false second := by
  fun_induction goesOn inside first with
  | case1 inside => cases inside <;> simp [goesOn]
  | case2 rest ih => simpa [goesOn] using ih
  | case3 c rest other ih =>
      rw [List.cons_append, goesOn, ih]
      exact other
  | case4 rest ih => simpa [goesOn] using ih
  | case5 c rest other ih =>
      rw [List.cons_append, goesOn, ih]
      intro tail slash same
      obtain ⟨rest', again⟩ := starts_of_joined (by decide) same
      exact other rest' slash again

theorem goesOn_unbroken {inside : Bool} {line : List Char} (unbroken : '\n' ∉ line) :
    goesOn inside line = true ↔ inside = true ∨ ['/', '/'] <:+: line := by
  fun_induction goesOn inside line with
  | case1 inside => simp
  | case2 rest ih => simp at unbroken
  | case3 c rest other ih =>
      rw [List.mem_cons, not_or] at unbroken
      simp [ih unbroken.2]
  | case4 rest ih =>
      have later : '\n' ∉ rest := by simpa using unbroken
      have here : ['/', '/'] <:+: '/' :: '/' :: rest := ⟨[], rest, rfl⟩
      simp [ih later, here]
  | case5 c rest other ih =>
      rw [List.mem_cons, not_or] at unbroken
      have elsewhere : ¬ (c = '/' ∧ ∃ tail, rest = '/' :: tail) := by
        rintro ⟨slash, tail, again⟩
        exact other tail slash again
      simp [ih unbroken.2, pair_infix_cons, elsewhere]

/-- A text ends inside a line comment if its last line has two slashes side by side. -/
theorem goesOn_iff (text : List Char) :
    goesOn false text = true ↔ ['/', '/'] <:+: lastLine text := by
  induction text using line_induction with
  | unbroken line free => simp [goesOn_unbroken free, lastLine_of_notMem free]
  | joined line rest free ih => rw [goesOn_joined, lastLine_joined, ih]

theorem stripLineComments_plain {text : List Char} (plain : '/' ∉ text) :
    stripLineComments false text = text ∧ goesOn false text = false := by
  induction text with
  | nil => exact ⟨rfl, rfl⟩
  | cons c rest ih =>
      rw [List.mem_cons, not_or] at plain
      obtain ⟨same, ends⟩ := ih plain.2
      have other : ∀ tail, c = '/' → rest = '/' :: tail → False :=
        fun _ slash _ => plain.1 slash.symm
      rw [stripLineComments, goesOn, same, ends]
      · exact ⟨rfl, rfl⟩
      · exact other
      · exact other

theorem stripLineComments_unbroken {line : List Char} (unbroken : '\n' ∉ line) :
    stripLineComments true line = [] := by
  induction line with
  | nil => rfl
  | cons c rest ih =>
      rw [List.mem_cons, not_or] at unbroken
      rw [stripLineComments, ih unbroken.2]
      exact fun feed => unbroken.1 feed.symm

/-! ## Block comments -/

theorem stripBlockComments_append {first : List Char} (plain : '/' ∉ first) (second : List Char) :
    stripBlockComments false (first ++ second) = first ++ stripBlockComments false second := by
  induction first with
  | nil => rfl
  | cons c rest ih =>
      rw [List.mem_cons, not_or] at plain
      rw [List.cons_append, stripBlockComments, ih plain.2, List.cons_append]
      exact fun _ slash _ => plain.1 slash.symm

theorem stripBlockComments_plain {text : List Char} (plain : '/' ∉ text) :
    stripBlockComments false text = text := by
  have whole := stripBlockComments_append plain []
  rwa [List.append_nil, stripBlockComments, List.append_nil] at whole

theorem stripBlockComments_opened {before : List Char} (plain : '/' ∉ before) (rest : List Char) :
    stripBlockComments false (before ++ ' ' :: '/' :: '*' :: rest) =
      before ++ ' ' :: if closesComment rest then stripBlockComments true rest
        else '/' :: '*' :: stripBlockComments false rest := by
  rw [stripBlockComments_append plain, stripBlockComments, stripBlockComments]
  exact fun _ slash => absurd slash (by decide)

theorem closesComment_iff (text : List Char) :
    closesComment text = true ↔ ['*', '/'] <:+: text := by
  fun_induction closesComment text with
  | case1 rest => simp [pair_infix_cons]
  | case2 c rest other ih =>
      have elsewhere : ¬ (c = '*' ∧ ∃ tail, rest = '/' :: tail) := by
        rintro ⟨star, tail, slash⟩
        exact other tail star slash
      simp [ih, pair_infix_cons, elsewhere]
  | case3 => simp

/-- Of a block comment only the line feeds are left. -/
theorem stripBlockComments_inside {comment : List Char} (unclosed : ¬ ['*', '/'] <:+: comment)
    (rest : List Char) :
    stripBlockComments true (comment ++ '*' :: '/' :: rest) =
      comment.filter (· = '\n') ++ stripBlockComments false rest := by
  induction comment with
  | nil => rfl
  | cons c others ih =>
      rw [pair_infix_cons, not_or] at unclosed
      have ih := ih unclosed.2
      by_cases feed : c = '\n'
      · subst feed
        rw [List.cons_append, stripBlockComments, ih]
        rfl
      · rw [List.cons_append, stripBlockComments, ih]
        · simp [feed]
        · intro tail star same
          cases others with
          | nil => cases same
          | cons d more =>
              obtain ⟨rfl, -⟩ := List.cons.inj same
              exact unclosed.1 ⟨star, more, rfl⟩
        · exact feed

/-- A closing mark needs its slash. -/
theorem closing_of_append {first second : List Char} (plain : '/' ∉ second)
    (closing : ['*', '/'] <:+: first ++ second) : ['*', '/'] <:+: first := by
  induction first with
  | nil => exact absurd (closing.subset (by simp)) plain
  | cons c rest ih =>
      rw [List.cons_append, pair_infix_cons] at closing
      rw [pair_infix_cons]
      rcases closing with ⟨star, tail, same⟩ | later
      · refine .inl ⟨star, ?_⟩
        cases rest with
        | nil =>
            rw [List.nil_append] at same
            simp [same] at plain
        | cons d others =>
            obtain ⟨rfl, -⟩ := List.cons.inj same
            exact ⟨others, rfl⟩
      · exact .inr (ih later)

/-- A slash that is left in front was in front, and outside line comments. -/
theorem slash_of_stripLineComments {inside : Bool} {text tail : List Char}
    (starts : stripLineComments inside text = '/' :: tail) :
    inside = false ∧ ∃ rest, text = '/' :: rest := by
  fun_induction stripLineComments inside text with
  | case1 => cases starts
  | case2 rest ih => cases starts
  | case3 c rest other ih => cases (ih starts).1
  | case4 rest ih => exact ⟨rfl, _, rfl⟩
  | case5 c rest other ih =>
      obtain ⟨rfl, -⟩ := List.cons.inj starts
      exact ⟨rfl, rest, rfl⟩

/-- Taking out line comments makes no closing mark. -/
theorem closing_of_stripLineComments {inside : Bool} {text : List Char}
    (closing : ['*', '/'] <:+: stripLineComments inside text) : ['*', '/'] <:+: text := by
  fun_induction stripLineComments inside text with
  | case1 => exact closing
  | case2 rest ih =>
      rw [pair_infix_cons] at closing ⊢
      rcases closing with ⟨star, -⟩ | later
      · cases star
      · exact .inr (ih later)
  | case3 c rest other ih => exact pair_infix_cons.2 (.inr (ih closing))
  | case4 rest ih => exact pair_infix_cons.2 (.inr (pair_infix_cons.2 (.inr (ih closing))))
  | case5 c rest other ih =>
      rw [pair_infix_cons] at closing ⊢
      rcases closing with ⟨star, tail, slash⟩ | later
      · exact .inl ⟨star, (slash_of_stripLineComments slash).2⟩
      · exact .inr (ih later)

/-! ## Sources with a comment -/

section

variable {before after : List Char} (plain : '/' ∉ before ++ after) (comment : List Char)

include plain

theorem stripComments_plain : stripComments (before ++ after) = before ++ after := by
  rw [stripComments, (stripLineComments_plain plain).1, stripBlockComments_plain plain]

/-- What stands before a comment stays. -/
theorem stripLineComments_before (rest : List Char) :
    stripLineComments false (before ++ rest) = before ++ stripLineComments false rest := by
  rw [List.mem_append, not_or] at plain
  have apart : before.getLast? ≠ some '/' := fun last => plain.1 (List.mem_of_getLast? last)
  obtain ⟨same, ends⟩ := stripLineComments_plain plain.1
  rw [stripLineComments_append false before (.inl apart), same, ends]

/-- Nothing is left of a line comment at the end of a line. -/
theorem stripComments_line {comment : List Char} (unbroken : '\n' ∉ comment)
    (ends : after = [] ∨ after.head? = some '\n') :
    stripComments (before ++ lineComment comment ++ after) = before ++ after := by
  have apart : after.head? ≠ some '/' := by
    rcases ends with rfl | feed
    · nofun
    · simp [feed]
  have goes : goesOn true comment = true := (goesOn_unbroken unbroken).2 (.inl rfl)
  have behind : stripLineComments true after = after := by
    rcases ends with rfl | feed
    · rfl
    · obtain ⟨rest, rfl⟩ := List.head?_eq_some_iff.1 feed
      have later : '/' ∉ rest := fun slash => plain (by simp [slash])
      rw [stripLineComments, (stripLineComments_plain later).1]
  have lines : stripLineComments false (before ++ lineComment comment ++ after) =
      before ++ after := by
    calc stripLineComments false (before ++ lineComment comment ++ after)
      _ = before ++ stripLineComments true (comment ++ after) := by
          rw [List.append_assoc, stripLineComments_before plain]
          rfl
      _ = before ++ after := by
          rw [stripLineComments_append true comment (.inr apart),
            stripLineComments_unbroken unbroken, goes, behind, List.nil_append]
  rw [stripComments, lines, stripBlockComments_plain plain]

/-- What the line comments leave of a text with a block comment. -/
theorem stripLineComments_block :
    stripLineComments false (before ++ blockComment comment ++ after) =
      before ++ ' ' :: '/' :: '*' :: (stripLineComments false comment ++
        (stripLineComments (goesOn false comment) ['*', '/', ' '] ++
          stripLineComments (goesOn false comment) after)) := by
  have closing (inside : Bool) : stripLineComments inside (['*', '/', ' '] ++ after) =
      stripLineComments inside ['*', '/', ' '] ++ stripLineComments inside after := by
    rw [stripLineComments_append inside _ (.inl (by decide))]
    cases inside <;> rfl
  rw [List.append_assoc, stripLineComments_before plain, blockComment, List.append_assoc,
    List.append_assoc, stripLineComments_append false [' ', '/', '*'] (.inl (by decide))]
  have apart : (['*', '/', ' '] ++ after).head? ≠ some '/' := by simp
  have within := stripLineComments_append false comment (.inr apart)
  rw [closing] at within
  exact congrArg (before ++ ' ' :: '/' :: '*' :: ·) within

/-- Of a block comment that ends outside line comments only the line feeds are left. -/
theorem stripComments_block {comment : List Char} (unclosed : ¬ ['*', '/'] <:+: comment)
    (ends : goesOn false comment = false) :
    stripComments (before ++ blockComment comment ++ after) =
      before ++ ' ' :: ((stripLineComments false comment).filter (· = '\n') ++ ' ' :: after) := by
  have inner : ¬ ['*', '/'] <:+: stripLineComments false comment :=
    fun closing => unclosed (closing_of_stripLineComments closing)
  obtain ⟨left, right⟩ := not_or.1 (mt List.mem_append.2 plain)
  have behind : '/' ∉ ' ' :: after := by simpa using right
  have same : stripLineComments false after = after := (stripLineComments_plain right).1
  have lines : stripLineComments false (before ++ blockComment comment ++ after) =
      before ++ ' ' :: '/' :: '*' :: (stripLineComments false comment ++
        '*' :: '/' :: ' ' :: after) := by
    rw [stripLineComments_block plain, ends, same]
    rfl
  have closed : closesComment (stripLineComments false comment ++ '*' :: '/' :: ' ' :: after) :=
    (closesComment_iff _).2 ⟨stripLineComments false comment, ' ' :: after, by simp⟩
  rw [stripComments, lines, stripBlockComments_opened left, if_pos closed,
    stripBlockComments_inside inner, stripBlockComments_plain behind]

/-- A block comment that ends inside a line comment is none: its opening mark stays. -/
theorem slash_mem_stripComments_block {comment : List Char} (unclosed : ¬ ['*', '/'] <:+: comment)
    (goes : goesOn false comment = true) :
    '/' ∈ stripComments (before ++ blockComment comment ++ after) := by
  obtain ⟨left, right⟩ := not_or.1 (mt List.mem_append.2 plain)
  have behind : '/' ∉ stripLineComments true after :=
    fun slash => right ((stripLineComments_sublist true after).subset slash)
  have lines : stripLineComments false (before ++ blockComment comment ++ after) =
      before ++ ' ' :: '/' :: '*' :: (stripLineComments false comment ++
        stripLineComments true after) := by
    rw [stripLineComments_block plain, goes]
    rfl
  have stays :
      ¬ closesComment (stripLineComments false comment ++ stripLineComments true after) := by
    rw [closesComment_iff]
    exact fun closing => unclosed (closing_of_stripLineComments (closing_of_append behind closing))
  rw [stripComments, lines, stripBlockComments_opened left, if_neg stays]
  simp

end

theorem mem_of_mem_texts {c : Char} {source : List Char} {text : String}
    (found : text ∈ (tokens source).map Token.text) (within : c ∈ text.toList) : c ∈ source := by
  rw [texts_tokens] at found
  obtain ⟨lexeme, cut, rfl⟩ := List.mem_map.1 found
  rw [String.toList_ofList] at within
  have kept : c ∈ (lexemes (stripComments source)).flatten :=
    List.mem_flatten.2 ⟨lexeme, cut, within⟩
  rw [flatten_lexemes] at kept
  exact (stripComments_sublist source).subset (List.mem_filter.1 kept).1

/-- A block comment between two tokens of a source without slashes leaves the texts of the tokens as
they are exactly if there are no two slashes side by side on its last line. A line comment at the
end of a line leaves the tokens as they are, with their lines. -/
theorem tokens_commented {before after : List Char} (plain : '/' ∉ before ++ after) :
    (¬ InsideLexeme before after → ∀ comment, ¬ ['*', '/'] <:+: comment →
      ((tokens (before ++ blockComment comment ++ after)).map Token.text =
          (tokens (before ++ after)).map Token.text ↔
        ¬ ['/', '/'] <:+: lastLine comment)) ∧
    (after = [] ∨ after.head? = some '\n' → ∀ comment, '\n' ∉ comment →
      tokens (before ++ lineComment comment ++ after) = tokens (before ++ after)) := by
  refine ⟨fun outside comment unclosed => ?_, fun ends comment unbroken => ?_⟩
  · rw [← goesOn_iff]
    constructor
    · intro same goes
      have slash := slash_mem_stripComments_block plain unclosed goes
      obtain ⟨token, found, within⟩ := mem_tokens slash (by decide)
      have again : token.text ∈ (tokens (before ++ after)).map Token.text :=
        same ▸ List.mem_map_of_mem found
      exact plain (mem_of_mem_texts again within)
    · intro ends
      have feeds : ∀ c ∈ (stripLineComments false comment).filter (· = '\n'),
          Text.isBlank c = true := by
        intro c feed
        obtain rfl : c = '\n' := by simpa using (List.mem_filter.1 feed).2
        decide
      rw [texts_tokens, texts_tokens, stripComments_plain plain,
        stripComments_block plain unclosed (Bool.eq_false_iff.2 ends),
        lexemes_blank (by decide), lexemes_blank (by decide), lexemes_blanks feeds,
        lexemes_append_of_outside outside, List.nil_append]
  · rw [tokens, tokens, stripComments_line plain unbroken ends, stripComments_plain plain]

/-- A block comment with a `//` on its first line and an opening mark on its last, and a line
comment with an opening mark. -/
theorem tokens_commented_feeds :
    (tokens (['a'] ++ blockComment ['/', '/', '\n', '/', '*'] ++ [' ', '+', '=', 'b', ';'])).map
        Token.text = ["a", "+=", "b", ";"] ∧
      tokens (['a', '='] ++ lineComment ['/', '*', 'b'] ++ ['\n', 'b', ';']) =
        [⟨"a", 1⟩, ⟨"=", 1⟩, ⟨"b", 2⟩, ⟨";", 2⟩] := by
  have plain : '/' ∉ ['a'] ++ [' ', '+', '=', 'b', ';'] := by decide
  have outside : ¬ InsideLexeme ['a'] [' ', '+', '=', 'b', ';'] :=
    not_insideLexeme_blank (by decide) _ _
  have block := (tokens_commented plain).1 outside ['/', '/', '\n', '/', '*'] (by decide)
  have plain' : '/' ∉ ['a', '='] ++ ['\n', 'b', ';'] := by decide
  have line := (tokens_commented plain').2 (.inr rfl) ['/', '*', 'b'] (by decide)
  exact ⟨(block.2 (by decide)).trans (by decide +kernel), line.trans (by decide +kernel)⟩

/-- The block comment `/*//*/` takes the rest of its line with it and leaves its opening mark. -/
theorem tokens_commented_swallowed :
    '/' ∉ ['a', ';'] ∧ ¬ InsideLexeme [] ['a', ';'] ∧ ¬ ['*', '/'] <:+: ['/', '/'] ∧
      (tokens ['a', ';']).map Token.text = ["a", ";"] ∧
      (tokens ([] ++ blockComment ['/', '/'] ++ ['a', ';'])).map Token.text = ["/", "*"] :=
  ⟨by decide, not_insideLexeme_nil _, by decide, by decide +kernel, by decide +kernel⟩

end ByteTape.Program
