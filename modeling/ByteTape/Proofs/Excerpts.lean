import ByteTape.Proofs.Tokens
import ByteTape.Proofs.Viability

/-!
# Excerpts

A mistake is told with an excerpt of the source around its line. The line is counted where comments
have been taken out and the excerpt is cut from the source as it is, and both countings agree.

* `line_of_mistake`: the line of a mistake is a line of the source.
* `row`: what a row of an excerpt looks like.
* `filterMap_window`: keeping the items of a list whose numbers are in a range is cutting it.
* `lines_context`: the lines of an excerpt are the rows of the lines around the marked one.
* `context_rows`: what the excerpt of a mistake shows.
-/

namespace ByteTape.Program

/-! ## The line of a mistake -/

theorem line_of_mem_tokens {source : List Char} {token : Token} (found : token ∈ tokens source) :
    1 ≤ token.line ∧ token.line ≤ (Text.lines source).length := by
  obtain ⟨index, text, there, line, -⟩ := exists_line_of_mem found
  have inside := (List.getElem?_eq_some_iff.1 there).1
  rw [length_lines_stripComments] at inside
  omega

theorem line_of_mistake {source : String} {names final : Names} {mistake : Mistake} {line : Nat}
    (refused : parse source names = (.error (.mistake mistake line), final)) :
    1 ≤ line ∧ line ≤ (Text.lines source.toList).length := by
  rcases Parser.run_mistake refused with ⟨before, token, after, -, split, -, -, rfl⟩ |
    ⟨-, -, -, rfl⟩
  · exact line_of_mem_tokens (split ▸ List.mem_append_right before List.mem_cons_self)
  · cases last : (tokens source.toList).getLast? with
    | none => exact ⟨Nat.le_refl 1, List.length_pos_iff.2 (Text.lines_ne_nil _)⟩
    | some token => exact line_of_mem_tokens (List.mem_of_getLast? last)

/-! ## Rows -/

/-- A row of an excerpt: a mark, the number of the line at the right end of four places, or more if
it is long, and the line. -/
def row (marked : Bool) (number : Nat) (line : List Char) : List Char :=
  (if marked then '>' else ' ') :: ' ' ::
    (Nat.toDigits 10 number).leftpad 4 ' ' ++ [' ', '|', ' '] ++ line

theorem toList_lineNumber (number : Nat) :
    (lineNumber number).toList = (Nat.toDigits 10 number).leftpad 4 ' ' := by
  have digits : toString (number : Int) = number.repr := rfl
  have length : number.repr.length = (Nat.toDigits 10 number).length := by
    rw [← Nat.toList_repr, String.length_toList]
  rw [lineNumber, digits, length, String.toList_append, String.toList_ofList, Nat.toList_repr]
  rfl

theorem toList_excerptRow (marked : Bool) (number : Nat) (line : String) :
    (excerptRow marked number line).toList = row marked number line.toList := by
  have same (text : String) : toString text = text := rfl
  simp only [excerptRow, same, String.toList_append, toList_lineNumber, row]
  cases marked with
  | false => simp
  | true => simp

theorem unbroken_digits (number : Nat) : '\n' ∉ Nat.toDigits 10 number :=
  fun found => absurd (Nat.isDigit_of_mem_toDigits (by decide) (by decide) found) (by decide)

theorem unbroken_row {line : List Char} (unbroken : '\n' ∉ line) (marked : Bool) (number : Nat) :
    '\n' ∉ row marked number line := by
  have digits := unbroken_digits number
  cases marked with
  | false => simp [row, List.leftpad, digits, unbroken]
  | true => simp [row, List.leftpad, digits, unbroken]

/-! ## Numbered items -/

theorem zipIdx_window {α : Type} {lines : List α} {first last : Nat} (positive : 1 ≤ first)
    (order : first ≤ last + 1) (inside : last ≤ lines.length) :
    lines.zipIdx 1 = (lines.take (first - 1)).zipIdx 1 ++
      ((lines.take last).drop (first - 1)).zipIdx first ++ (lines.drop last).zipIdx (last + 1) := by
  have before : lines.take (first - 1) = (lines.take last).take (first - 1) := by
    rw [List.take_take, Nat.min_eq_left (by omega)]
  have upTo : (lines.take last).zipIdx 1 = (lines.take (first - 1)).zipIdx 1 ++
      ((lines.take last).drop (first - 1)).zipIdx first := by
    conv_lhs => rw [← List.take_append_drop (first - 1) (lines.take last)]
    rw [List.zipIdx_append, ← before, List.length_take, Nat.min_eq_left (by omega),
      Nat.add_sub_cancel' positive]
  conv_lhs => rw [← List.take_append_drop last lines]
  rw [List.zipIdx_append, upTo, List.length_take, Nat.min_eq_left inside, Nat.add_comm 1]

/-- Keeping the items with the numbers from `first` to `last` is cutting off those before and
behind. -/
theorem filterMap_window {α β : Type} {lines : List α} {first last : Nat} (positive : 1 ≤ first)
    (order : first ≤ last + 1) (inside : last ≤ lines.length) (make : α × Nat → β) :
    (lines.zipIdx 1).filterMap
        (fun item => if first ≤ item.2 ∧ item.2 ≤ last then some (make item) else none) =
      (((lines.take last).drop (first - 1)).zipIdx first).map make := by
  have before : ∀ item ∈ (lines.take (first - 1)).zipIdx 1,
      ¬ (first ≤ item.2 ∧ item.2 ≤ last) := by
    intro item found
    have bound := List.snd_lt_add_of_mem_zipIdx found
    rw [List.length_take] at bound
    omega
  have between : ∀ item ∈ ((lines.take last).drop (first - 1)).zipIdx first,
      first ≤ item.2 ∧ item.2 ≤ last := by
    intro item found
    have bound := List.snd_lt_add_of_mem_zipIdx found
    rw [List.length_drop, List.length_take] at bound
    exact ⟨List.le_snd_of_mem_zipIdx found, by omega⟩
  have behind : ∀ item ∈ (lines.drop last).zipIdx (last + 1),
      ¬ (first ≤ item.2 ∧ item.2 ≤ last) :=
    fun item found within => Nat.not_le.2 (List.le_snd_of_mem_zipIdx found) within.2
  rw [zipIdx_window positive order inside, List.filterMap_append, List.filterMap_append,
    List.filterMap_eq_nil_iff.2 fun item found => if_neg (before item found),
    List.filterMap_eq_nil_iff.2 fun item found => if_neg (behind item found),
    List.nil_append, List.append_nil, ← List.filterMap_eq_map]
  exact List.filterMap_congr fun item found => if_pos (between item found)

theorem length_window {α : Type} {lines : List α} {first last : Nat} (positive : 1 ≤ first)
    (inside : last ≤ lines.length) :
    (((lines.take last).drop (first - 1)).zipIdx first).length = last + 1 - first := by
  rw [List.length_zipIdx, List.length_drop, List.length_take]
  omega

theorem getElem?_window {α : Type} {lines : List α} {first last number : Nat} (positive : 1 ≤ first)
    (above : first ≤ number) (below : number ≤ last) :
    (((lines.take last).drop (first - 1)).zipIdx first)[number - first]? =
      lines[number - 1]?.map fun line => (line, number) := by
  rw [List.getElem?_zipIdx, List.getElem?_drop, List.getElem?_take, if_pos (by omega),
    show first - 1 + (number - first) = number - 1 by omega, Nat.add_sub_cancel' above]

/-! ## The rows of an excerpt -/

/-- The rows are those of the lines around the marked one, as far as there are such lines. -/
theorem excerptRows_eq {lines : List String} {line : Nat} (radius : Nat) (positive : 1 ≤ line)
    (inside : line ≤ lines.length) :
    excerptRows lines line radius =
      (((lines.take (min lines.length (line + radius))).drop (max 1 (line - radius) - 1)).zipIdx
        (max 1 (line - radius))).map fun (text, number) =>
          excerptRow (number = line) number text := by
  have marked : nearestLine lines.length line = line := by
    unfold nearestLine
    omega
  unfold excerptRows
  rw [marked, ← filterMap_window (by omega) (by omega) (by omega)]
  refine List.filterMap_congr fun item found => ?_
  have above := List.le_snd_of_mem_zipIdx found
  have below := List.snd_lt_add_of_mem_zipIdx found
  -- in the excerpt the bounds are integers, which need not be cut at the ends of the list
  have same : ((line : Int) - radius ≤ item.2 ∧ item.2 ≤ (line : Int) + radius) ↔
      max 1 (line - radius) ≤ item.2 ∧ item.2 ≤ min lines.length (line + radius) := by omega
  simp only [same, Int.natCast_inj]

theorem unbroken_of_mem_lines {text line : List Char} (found : line ∈ Text.lines text) :
    '\n' ∉ line := by
  intro broken
  have kept : '\n' ∈ (Text.lines text).flatten := List.mem_flatten_of_mem found broken
  rw [flatten_lines] at kept
  simp at kept

/-- Unbroken lines with line feeds between them are the lines of the whole. -/
theorem lines_intercalate {rows : List (List Char)} (nonempty : rows ≠ [])
    (unbroken : ∀ row ∈ rows, '\n' ∉ row) : Text.lines (['\n'].intercalate rows) = rows := by
  induction rows with
  | nil => exact absurd rfl nonempty
  | cons row others ih =>
      obtain ⟨here, there⟩ := List.forall_mem_cons.1 unbroken
      cases others with
      | nil => rw [List.intercalate_singleton, lines_of_notMem here]
      | cons next others =>
          rw [List.intercalate_cons_cons, List.append_assoc, List.singleton_append, lines_joined,
            lines_of_notMem here, ih (List.cons_ne_nil _ _) there]
          rfl

/-- The lines of the excerpt in a report are the rows of the lines around the marked one. -/
theorem lines_context {report : Report} {texts : List (List Char)} {line first last : Nat}
    (split : Text.lines report.source.toList = texts) (marked : report.line = line)
    (positive : 1 ≤ line) (inside : line ≤ texts.length) (start : first = max 1 (line - 2))
    (stop : last = min texts.length (line + 2)) :
    Text.lines report.context.toList =
      (((texts.take last).drop (first - 1)).zipIdx first).map fun (text, number) =>
        row (number = line) number text := by
  have rows : (excerptRows (texts.map String.ofList) report.line 2).map String.toList =
      (((texts.take last).drop (first - 1)).zipIdx first).map fun (text, number) =>
        row (number = line) number text := by
    have radius : (2 : Int) = (2 : Nat) := rfl
    rw [marked, radius, excerptRows_eq 2 positive (by rwa [List.length_map]),
      List.length_map, ← start, ← stop, ← List.map_take, ← List.map_drop, List.zipIdx_map,
      List.map_map, List.map_map]
    exact List.map_congr_left fun (text, number) _ => by
      simp [toList_excerptRow]
  have unbroken : ∀ shown ∈ (excerptRows (texts.map String.ofList) report.line 2).map String.toList,
      '\n' ∉ shown := by
    rw [rows]
    intro shown found
    obtain ⟨⟨text, number⟩, there, rfl⟩ := List.mem_map.1 found
    have kept : text ∈ texts :=
      List.mem_of_mem_take (List.mem_of_mem_drop (List.fst_mem_of_mem_zipIdx there))
    exact unbroken_row (unbroken_of_mem_lines (split ▸ kept)) _ _
  have nonempty : (excerptRows (texts.map String.ofList) report.line 2).map String.toList ≠ [] := by
    rw [rows, ← List.length_pos_iff]
    simp only [List.length_map, List.length_zipIdx, List.length_drop, List.length_take]
    omega
  rw [← rows, ← lines_intercalate nonempty unbroken, Report.context, excerpt, split,
    String.toList_intercalate]
  rfl

/-- The excerpt of a mistake shows the lines up to two away from the mistake, with their own numbers
and unchanged, and marks the line of the mistake. -/
theorem context_rows {source : String} {names final : Names} {mistake : Mistake} {line : Nat}
    (refused : parse source names = (.error (.mistake mistake line), final)) :
    let texts := Text.lines source.toList
    let first := max 1 (line - 2)
    let last := min texts.length (line + 2)
    1 ≤ line ∧ line ≤ texts.length ∧
    ∃ report, Refusal.report? source (.mistake mistake line) = some report ∧ report.line = line ∧
      let rows := Text.lines report.context.toList
      rows.length = last + 1 - first ∧
      ∀ number, first ≤ number → number ≤ last → ∃ text, texts[number - 1]? = some text ∧
        rows[number - first]? = some (row (number = line) number text) := by
  intro texts first last
  obtain ⟨positive, inside⟩ := line_of_mistake refused
  refine ⟨positive, inside, _, rfl, rfl, ?_⟩
  intro rows
  have shown : rows = (((texts.take last).drop (first - 1)).zipIdx first).map
      fun (text, number) => row (number = line) number text :=
    lines_context rfl rfl positive inside rfl rfl
  have start : 1 ≤ first := Nat.le_max_left 1 _
  have stop : last ≤ texts.length := Nat.min_le_left _ _
  rw [shown, List.length_map]
  refine ⟨length_window start stop, fun number above below => ?_⟩
  have there : number - 1 < texts.length := by omega
  refine ⟨_, List.getElem?_eq_getElem there, ?_⟩
  rw [List.getElem?_map, getElem?_window start above below, List.getElem?_eq_getElem there]
  rfl

/-- A comment over two lines stands before the mistake, and the source ends one line behind it. -/
theorem context_rows_behind_comment :
    let source := "a = 1;\n/* one\ntwo */ b = 2;\nprint a b;\nprint b;"
    parse source {} = (.error (.mistake .semicolon 4), ⟨[("a", 0), ("b", 1)], 2⟩) ∧
    ∃ report, Refusal.report? source (.mistake .semicolon 4) = some report ∧
      (Text.lines report.context.toList).length = 4 ∧
      (Text.lines report.context.toList)[1]? = some "     3 | two */ b = 2;".toList ∧
      (Text.lines report.context.toList)[2]? = some ">    4 | print a b;".toList := by
  intro source
  have refused : parse source {} =
      (.error (.mistake .semicolon 4), ⟨[("a", 0), ("b", 1)], 2⟩) := by decide +kernel
  have lines : Text.lines source.toList = ["a = 1;".toList, "/* one".toList,
      "two */ b = 2;".toList, "print a b;".toList, "print b;".toList] := by decide +kernel
  obtain ⟨-, -, report, told, -, length, rows⟩ := context_rows refused
  rw [lines] at length rows
  obtain ⟨third, thirdText, thirdRow⟩ := rows 3 (by decide) (by decide)
  obtain ⟨fourth, fourthText, fourthRow⟩ := rows 4 (by decide) (by decide)
  cases thirdText
  cases fourthText
  exact ⟨refused, report, told, length, thirdRow, fourthRow⟩

end ByteTape.Program
