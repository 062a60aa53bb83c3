import ByteTape.Proofs.Excerpts
import ByteTape.Proofs.Renaming

/-!
# Hints

A hint should go by the kind of a mistake. It is chosen by the words of the message, though, and a
message can tell a name of the source. So a name with such words in it can bring about the hint of
another mistake.

* `sound_of_parse`: the names that a mistake tells are variables.
* `Apart`: a text cannot be found across the ends of a name; `tells_around`: then it is found before
  the name, in it, or behind it.
* `Mistake.diversion?`: what the name in a mistake makes of its hint.
* `hint?_message`: this is the hint that is given, or else the one that goes by the kind.
* `hintLines_render`: a report has one line with a hint, or none.
* `hintLines_renamed`: when variables get other names, the hint stays the same if and only if the
  names divert it in the same way.
-/

namespace ByteTape.Program

/-! ## The names in a mistake -/

/-- Names are names of variables, and where a name is missing behind a word, this is one that a name
can follow. -/
def Mistake.Sound : Mistake → Prop
  | operator x | repeated x | test x | zero x | openBrace x => IsVariable x
  | nameAfter word => word ∈ ["print", "input", "while", "+=", "-="]
  | _ => True

namespace Parser

theorem sound_takeOperand {s : State} {dest : String} {make : Int → Command} {name : String}
    (isVariable : IsVariable name) : (s.takeOperand dest make name).stage.mistake.Sound := by
  unfold State.takeOperand
  split
  · exact isVariable
  · trivial

/-- The mistake that can be made next tells a name that was taken before, or one that is now. -/
theorem sound_of_taken {s next : State} {symbol : Symbol} (taken : Taken s symbol next)
    (symbolSound : symbol.Sound) (sound : s.stage.mistake.Sound) : next.stage.mistake.Sound := by
  cases taken with
  | dest => exact symbolSound
  | whileName => exact symbolSound
  | addend => exact sound_takeOperand symbolSound
  | subtrahend => exact sound_takeOperand symbolSound
  | operand => exact sound_takeOperand symbolSound
  | whileTest stage =>
      rw [stage] at sound
      exact sound
  | whileZero stage =>
      rw [stage] at sound
      exact sound
  | print | input | loop | addAssign | subAssign =>
      simp [Stage.mistake, Mistake.Sound]
  | _ => trivial

theorem mistake_of_step {s : State} {symbol : Symbol} {mistake : Mistake}
    (refused : s.step symbol = .error (.mistake mistake)) :
    mistake = s.stage.mistake ∨ ∃ value, mistake = .tooLarge value := by
  unfold State.step at refused
  split at refused <;> try cases refused
  next stage =>
    unfold State.closeLoop at refused
    split at refused
    next =>
      cases refused
      exact .inl (congrArg Stage.mistake stage).symm
    next => cases refused
  next =>
    unfold State.takeNumber at refused
    split at refused
    next => cases refused
    next =>
      dsimp only at refused
      split at refused
      next =>
        cases refused
        exact .inr ⟨_, rfl⟩
      next => cases refused
  next => exact .inl rfl

theorem mistake_of_finish {s : State} {mistake : Mistake} (refused : s.finish = .error mistake) :
    mistake = s.stage.mistake ∨ mistake = .closeBrace := by
  unfold State.finish at refused
  split at refused
  next => cases refused
  next =>
    cases refused
    exact .inr rfl
  next =>
    cases refused
    exact .inl rfl

theorem sound_of_takeAll {s next : State} {texts : List String}
    (taken : s.takeAll texts = .ok next) (sound : s.stage.mistake.Sound) :
    next.stage.mistake.Sound := by
  induction texts generalizing s with
  | nil =>
      cases taken
      exact sound
  | cons text texts ih =>
      cases stepped : s.step (.ofText text) with
      | error objection =>
          rw [State.takeAll_cons_error stepped] at taken
          cases taken
      | ok after =>
          rw [State.takeAll_cons rfl stepped] at taken
          exact ih taken (sound_of_taken (taken_of_step stepped) (Symbol.sound_ofText text) sound)

end Parser

theorem sound_of_parse {source : String} {names final : Names} {mistake : Mistake} {line : Nat}
    (refused : parse source names = (.error (.mistake mistake line), final)) : mistake.Sound := by
  rcases Parser.run_mistake refused with ⟨before, token, after, s, -, taken, wrong, -⟩ |
    ⟨s, taken, wrong, -⟩
  · rcases Parser.mistake_of_step wrong with rfl | ⟨value, rfl⟩
    · exact Parser.sound_of_takeAll taken trivial
    · trivial
  · rcases Parser.mistake_of_finish wrong with rfl | rfl
    · exact Parser.sound_of_takeAll taken trivial
    · trivial

/-! ## Finding a text around a name -/

theorem occursIn_iff {part text : List Char} : occursIn part text = true ↔ part <:+: text := by
  induction text with
  | nil => rw [occursIn, List.isEmpty_iff, List.infix_nil]
  | cons c rest ih =>
      rw [occursIn, Bool.or_eq_true, List.isPrefixOf_iff_prefix, ih, List.infix_cons_iff]

theorem take_drop_of_append {α : Type} {text first second : List α}
    (split : text = first ++ second) :
    first.length ≤ text.length ∧ text.take first.length = first ∧
      text.drop first.length = second := by
  subst split
  simp

theorem infix_append_of_apart {part front rest : List Char}
    (apart : ∀ n ≤ part.length, part.take n <:+ front → n = 0) :
    part <:+: front ++ rest ↔ part <:+: front ∨ part <:+: rest := by
  rw [List.infix_append_iff]
  refine ⟨?_, fun found => found.imp_right .inl⟩
  rintro (inFront | inRest | ⟨first, second, split, ends, begins⟩)
  · exact .inl inFront
  · exact .inr inRest
  · obtain ⟨short, taken, -⟩ := take_drop_of_append split
    have empty : first = [] := List.length_eq_zero_iff.1 (apart _ short (taken.symm ▸ ends))
    subst empty split
    exact .inr begins.isInfix

/-- A text that begins in a name and goes on behind it has no blank in the part that is in the
name. -/
theorem infix_append_of_solid {part name back : List Char} (solid : ' ' ∉ name)
    (apart : ∀ n ≤ part.length, part.drop n <+: back → n = part.length ∨ ' ' ∈ part.take n) :
    part <:+: name ++ back ↔ part <:+: name ∨ part <:+: back := by
  rw [List.infix_append_iff]
  refine ⟨?_, fun found => found.imp_right .inl⟩
  rintro (inName | inBack | ⟨first, second, split, ends, begins⟩)
  · exact .inl inName
  · exact .inr inBack
  · obtain ⟨short, taken, dropped⟩ := take_drop_of_append split
    rcases apart _ short (dropped.symm ▸ begins) with whole | blank
    · have same : part = first := by rw [← taken, whole, List.take_length]
      exact .inl (same ▸ ends.isInfix)
    · rw [taken] at blank
      exact absurd (ends.subset blank) solid

/-- Whether a text has another one in it, small and capital letters alike. -/
def tells (text cue : String) : Bool := occursIn cue.toList (text.toList.map Char.toLower)

/-- A cue cannot be found in two parts, one at the end of the text before a name or one at the
beginning of the text behind it: no such part fits, or there would have to be a blank in the
name. -/
def Apart (cue front back : String) : Prop :=
  (∀ n ≤ cue.toList.length, cue.toList.take n <:+ front.toList.map Char.toLower → n = 0) ∧
  ∀ n ≤ cue.toList.length, cue.toList.drop n <+: back.toList.map Char.toLower →
    n = cue.toList.length ∨ ' ' ∈ cue.toList.take n

instance (cue front back : String) : Decidable (Apart cue front back) :=
  inferInstanceAs (Decidable (_ ∧ _))

theorem toLower_ne_blank {c : Char} (other : c ≠ ' ') : c.toLower ≠ ' ' := by
  unfold Char.toLower
  split
  next capital =>
    intro same
    have large : 65 ≤ c.toNat := UInt32.le_iff_toNat_le.1 capital.1
    have small : c.toNat ≤ 90 := UInt32.le_iff_toNat_le.1 capital.2
    have value := congrArg (fun c : Char => c.val.toNat) same
    simp at value
    omega
  next => exact other

theorem solid_of_isVariable {name : String} (isVariable : IsVariable name) :
    ' ' ∉ name.toList.map Char.toLower := by
  intro found
  obtain ⟨c, member, lower⟩ := List.mem_map.1 found
  have blank : c = ' ' := Decidable.byContradiction fun other => toLower_ne_blank other lower
  exact absurd (alphanumeric_of_isName isVariable.1 (blank ▸ member)) (by decide)

theorem tells_around {cue front name back : String} (apart : Apart cue front back)
    (isVariable : IsVariable name) :
    tells (front ++ name ++ back) cue = (tells front cue || tells name cue || tells back cue) := by
  rw [Bool.eq_iff_iff, Bool.or_eq_true, Bool.or_eq_true]
  simp only [tells, occursIn_iff, String.toList_append, List.map_append, List.append_assoc]
  rw [infix_append_of_apart apart.1, infix_append_of_solid (solid_of_isVariable isVariable) apart.2,
    or_assoc]

/-! ## Messages with a name -/

/-- What stands before the name and behind it in the messages that tell one. -/
def frames : List (String × String) :=
  [("expected '+=', '-=' or '=' after '", "'"),
    ("'", "' cannot be used on both sides of the same statement"),
    ("expected '!=' after 'while ", "'"),
    ("expected '0' after 'while ", " !='"),
    ("expected '\x7b' after 'while ", " != 0'")]

/-- The words that choose a hint. -/
def cueWords : List String := ["semicolon", "number", "255"]

/-- The phrases that choose a hint. The last one lacks the quote at its front, which may be the one
before the name. -/
def cuePhrases : List String :=
  ["expected '!='", "expected '0'", "expected '\x7d'", "+=', '-=' or '='"]

theorem apart_frames :
    ∀ frame ∈ frames, ∀ cue ∈ cueWords ++ cuePhrases, Apart cue frame.1 frame.2 := by
  decide +kernel

theorem tells_frames : ∀ frame ∈ frames, (∀ word ∈ cueWords, tells frame.1 word = false) ∧
    ∀ cue ∈ cueWords ++ cuePhrases, tells frame.2 cue = false := by
  decide +kernel

section

variable {front name back : String} (framed : (front, back) ∈ frames)
  (isVariable : IsVariable name)

include framed isVariable

theorem tells_word {word : String} (listed : word ∈ cueWords) :
    tells (front ++ name ++ back) word = tells name word := by
  have cue := List.mem_append_left cuePhrases listed
  have before : tells front word = false := (tells_frames _ framed).1 word listed
  have behind : tells back word = false := (tells_frames _ framed).2 word cue
  rw [tells_around (apart_frames _ framed _ cue) isVariable, before, behind, Bool.false_or,
    Bool.or_false]

theorem tells_phrase {phrase : String} (listed : phrase ∈ cuePhrases) :
    tells (front ++ name ++ back) phrase = tells front phrase := by
  have cue := List.mem_append_right cueWords listed
  have blank : ∀ phrase ∈ cuePhrases, ' ' ∈ phrase.toList := by decide
  have within : tells name phrase = false := by
    rw [Bool.eq_false_iff, tells, Ne, occursIn_iff]
    exact fun found => solid_of_isVariable isVariable (found.subset (blank phrase listed))
  have behind : tells back phrase = false := (tells_frames _ framed).2 phrase cue
  rw [tells_around (apart_frames _ framed _ cue) isVariable, within, behind, Bool.or_false,
    Bool.or_false]

theorem tells_operators :
    tells (front ++ name ++ back) "'+=', '-=' or '='" = tells front "'+=', '-=' or '='" := by
  have quoted : ∀ frame ∈ frames, tells frame.1 "+=', '-=' or '='" = true →
      tells frame.1 "'+=', '-=' or '='" = true := by decide +kernel
  rw [Bool.eq_iff_iff]
  constructor
  · intro said
    refine quoted _ framed ?_
    have unquoted : tells (front ++ name ++ back) "+=', '-=' or '='" = true := by
      rw [tells, occursIn_iff] at said ⊢
      exact (List.suffix_cons '\'' _).isInfix.trans said
    rwa [tells_phrase framed isVariable (by decide)] at unquoted
  · intro said
    rw [tells, occursIn_iff] at said ⊢
    rw [String.toList_append, String.toList_append, List.append_assoc, List.map_append]
    exact said.trans (List.prefix_append _ _).isInfix

end

/-! ## Diverted hints -/

/-- What a name can make of a hint. -/
inductive Diversion
  | semicolon
  | number
deriving DecidableEq, Repr

/-- The hint that is given then. It belongs to another kind of mistake. -/
def Diversion.hint : Diversion → String
  | semicolon => "Every statement except while ends with \";\". Example: a = 3;"
  | number => "Constants are single bytes. Use a value between 0 and 255."

/-- What a name makes of the hint of a mistake. The hint about the test of a loop goes before the
one about numbers. -/
def diversion? (inTest : Bool) (name : String) : Option Diversion :=
  if tells name "semicolon" then some .semicolon
  else if !inTest && (tells name "number" && tells name "255") then some .number
  else none

/-- What the name in a mistake makes of its hint. -/
def Mistake.diversion? : Mistake → Option Diversion
  | operator x | repeated x | openBrace x => Program.diversion? false x
  | test x | zero x => Program.diversion? true x
  | _ => none

/-- The hint that a mistake has by its kind, as if every variable were called `x`. -/
def Mistake.ownHint? (mistake : Mistake) : Option String :=
  hint? (mistake.mapNames fun _ => "x").message

/-- The hint for a message that tells of a semicolon, of a test, of a brace, of numbers or of the
operators, whichever comes first. -/
def firstHint? (semicolon test brace number operators : Bool) : Option String :=
  if semicolon then some Diversion.semicolon.hint
  else if test then some "Loops only test against zero: while name != 0 \x7b ... \x7d"
  else if brace then some "Check for a missing closing \"\x7d\" on a while body."
  else if number then some Diversion.number.hint
  else if operators then
    some "Statements are: x = 3; x = y; x += y; x -= y; print x; input x; while x != 0 \x7b \x7d"
  else none

theorem hint?_eq (message : String) :
    hint? message =
      firstHint? (tells message "semicolon")
        (tells message "expected '!='" || tells message "expected '0'")
        (tells message "expected '\x7d'") (tells message "number" && tells message "255")
        (tells message "'+=', '-=' or '='") :=
  rfl

/-- In a message with a name, the words that choose a hint can only be in the name, and the phrases
only before it. -/
theorem hint?_framed {front name back : String} (framed : (front, back) ∈ frames)
    (isVariable : IsVariable name) :
    hint? (front ++ name ++ back) =
      firstHint? (tells name "semicolon")
        (tells front "expected '!='" || tells front "expected '0'")
        false (tells name "number" && tells name "255") (tells front "'+=', '-=' or '='") := by
  have semicolon : tells (front ++ name ++ back) "semicolon" = tells name "semicolon" :=
    tells_word framed isVariable (by decide)
  have number : tells (front ++ name ++ back) "number" = tells name "number" :=
    tells_word framed isVariable (by decide)
  have bound : tells (front ++ name ++ back) "255" = tells name "255" :=
    tells_word framed isVariable (by decide)
  have test : tells (front ++ name ++ back) "expected '!='" = tells front "expected '!='" :=
    tells_phrase framed isVariable (by decide)
  have zero : tells (front ++ name ++ back) "expected '0'" = tells front "expected '0'" :=
    tells_phrase framed isVariable (by decide)
  have brace : tells (front ++ name ++ back) "expected '\x7d'" = tells front "expected '\x7d'" :=
    tells_phrase framed isVariable (by decide)
  have closed : ∀ frame ∈ frames, tells frame.1 "expected '\x7d'" = false := by decide +kernel
  have never : tells front "expected '\x7d'" = false := closed _ framed
  rw [hint?_eq, semicolon, number, bound, test, zero, brace, never,
    tells_operators framed isVariable]

theorem hint?_plain {front back : String} (framed : (front, back) ∈ frames) :
    hint? (front ++ "x" ++ back) =
      firstHint? false (tells front "expected '!='" || tells front "expected '0'") false false
        (tells front "'+=', '-=' or '='") := by
  have wordless : ∀ word ∈ cueWords, tells "x" word = false := by decide +kernel
  have semicolon : tells "x" "semicolon" = false := wordless _ (by decide)
  have number : tells "x" "number" = false := wordless _ (by decide)
  rw [hint?_framed framed ⟨rfl, by decide⟩, semicolon, number, Bool.false_and]

theorem hint?_diverted {front name back : String} {inTest : Bool} (framed : (front, back) ∈ frames)
    (test : (tells front "expected '!='" || tells front "expected '0'") = inTest)
    (isVariable : IsVariable name) :
    hint? (front ++ name ++ back) =
      ((diversion? inTest name).map Diversion.hint).or (hint? (front ++ "x" ++ back)) := by
  rw [hint?_framed framed isVariable, hint?_plain framed, test, diversion?]
  cases tells name "semicolon" with
  | true => rfl
  | false =>
      cases inTest with
      | true => rfl
      | false =>
          cases tells name "number" && tells name "255" with
          | true => rfl
          | false => rfl

/-- The hint of a mistake is the one that its name brings about, or else the one of its kind. -/
theorem hint?_message {mistake : Mistake} (sound : mistake.Sound) :
    hint? mistake.message =
      (mistake.diversion?.map Diversion.hint).or mistake.ownHint? := by
  cases mistake with
  | operator x | repeated x | test x | zero x | openBrace x =>
      exact hint?_diverted (by decide) (by decide +kernel) sound
  | _ => exact Option.none_or.symm

theorem Diversion.hint_injective : Function.Injective Diversion.hint := by
  intro first second same
  cases first <;> cases second <;> first | rfl | exact absurd same (by decide)

theorem hint?_plain_ne {front back : String} (framed : (front, back) ∈ frames)
    (diversion : Diversion) : hint? (front ++ "x" ++ back) ≠ some diversion.hint := by
  have differ : ∀ test operators,
      firstHint? false test false false operators ≠ some Diversion.semicolon.hint ∧
        firstHint? false test false false operators ≠ some Diversion.number.hint := by decide
  rw [hint?_plain framed]
  cases diversion with
  | semicolon => exact (differ _ _).1
  | number => exact (differ _ _).2

/-- A diverted hint is not the one of the kind. -/
theorem Mistake.ownHint?_ne {mistake : Mistake} {diversion : Diversion}
    (diverted : mistake.diversion? = some diversion) (other : Diversion) :
    mistake.ownHint? ≠ some other.hint := by
  cases mistake with
  | operator x | repeated x | test x | zero x | openBrace x =>
      exact hint?_plain_ne (by decide) other
  | _ => cases diverted

theorem Mistake.ownHint?_mapNames (f : String → String) (mistake : Mistake) :
    (mistake.mapNames f).ownHint? = mistake.ownHint? := by
  cases mistake <;> rfl

/-- Other names leave the hint as it is if they divert it in the same way, and only then. -/
theorem hint?_mapNames_iff {f : String → String} {mistake : Mistake} (sound : mistake.Sound)
    (sound' : (mistake.mapNames f).Sound) :
    hint? (mistake.mapNames f).message = hint? mistake.message ↔
      (mistake.mapNames f).diversion? = mistake.diversion? := by
  have ownHint := Mistake.ownHint?_mapNames f mistake
  rw [hint?_message sound, hint?_message sound', ownHint]
  cases new : (mistake.mapNames f).diversion? with
  | none =>
      cases old : mistake.diversion? with
      | none => simp
      | some diversion =>
          simpa using mistake.ownHint?_ne old diversion
  | some diversion =>
      have differs := ownHint ▸ Mistake.ownHint?_ne new
      cases old : mistake.diversion? with
      | none => simpa using (differs diversion).symm
      | some other => simpa using Diversion.hint_injective.eq_iff

/-! ## The line with the hint -/

/-- The lines of a message that give a hint. -/
def hintLines (message : String) : List String :=
  ((Text.lines message.toList).filter fun line => "Hint: ".toList.isPrefixOf line).map String.ofList

theorem unbroken_of_isVariable {name : String} (isVariable : IsVariable name) :
    '\n' ∉ name.toList :=
  fun found => absurd (alphanumeric_of_isName isVariable.1 found) (by decide)

/-- For a fixed text, which is its list of characters by definition. -/
theorem unbroken_ofList {chars : List Char} (unbroken : '\n' ∉ chars) :
    '\n' ∉ (String.ofList chars).toList := by
  rwa [String.toList_ofList]

theorem unbroken_append {first second : String} (here : '\n' ∉ first.toList)
    (there : '\n' ∉ second.toList) : '\n' ∉ (first ++ second).toList := by
  rw [String.toList_append, List.mem_append, not_or]
  exact ⟨here, there⟩

theorem unbroken_message {mistake : Mistake} (sound : mistake.Sound) :
    '\n' ∉ mistake.message.toList := by
  have around {front back : List Char} {word : String} (within : '\n' ∉ word.toList)
      (before : '\n' ∉ front) (behind : '\n' ∉ back) :
      '\n' ∉ (String.ofList front ++ word ++ String.ofList back).toList :=
    unbroken_append (unbroken_append (unbroken_ofList before) within) (unbroken_ofList behind)
  cases mistake with
  | operator x | repeated x | test x | zero x | openBrace x =>
      exact around (unbroken_of_isVariable sound) (by decide) (by decide)
  | nameAfter word =>
      have words : ∀ word ∈ ["print", "input", "while", "+=", "-="], '\n' ∉ word.toList := by
        decide +kernel
      exact around (words word sound) (by decide) (by decide)
  | tooLarge value =>
      exact unbroken_append (unbroken_ofList (by decide)) (Nat.toList_repr ▸ unbroken_digits value)
  | _ => exact unbroken_ofList (by decide)

theorem unbroken_hint {message hint : String} (given : hint? message = some hint) :
    '\n' ∉ hint.toList := by
  rw [hint?_eq, firstHint?] at given
  repeat' split at given
  all_goals cases given <;> exact unbroken_ofList (by decide)

/-- The first line of a report. -/
def Report.headline (report : Report) : String :=
  s!"ParseError: {report.message} (line {report.line})"

theorem unbroken_headline {report : Report} {line : Nat} (marked : report.line = line)
    (unbroken : '\n' ∉ report.message.toList) : '\n' ∉ report.headline.toList := by
  have number : '\n' ∉ (toString report.line).toList := by
    rw [marked]
    show '\n' ∉ line.repr.toList
    rw [Nat.toList_repr]
    exact unbroken_digits line
  have opened : '\n' ∉ ("ParseError: " ++ report.message ++ " (line ").toList :=
    unbroken_append (unbroken_append (by decide) unbroken) (by decide)
  exact unbroken_append (unbroken_append opened number) (by decide)

theorem toList_render (report : Report) :
    report.render.toList = report.headline.toList ++ '\n' :: (report.context.toList ++
      match hint? report.message with
      | some hint => '\n' :: ("Hint: " ++ hint).toList
      | none => []) := by
  have same (text : String) : toString text = text := rfl
  have ending : ")\n".toList = ")".toList ++ ['\n'] := by decide
  unfold Report.render Report.headline
  cases hint? report.message with
  | none => simp [same, ending]
  | some hint => simp [same, ending]

theorem lines_render {report : Report} (unbroken : '\n' ∉ report.headline.toList) :
    Text.lines report.render.toList = report.headline.toList :: Text.lines report.context.toList ++
      ((hint? report.message).map fun hint => ("Hint: " ++ hint).toList).toList := by
  rw [toList_render, lines_joined, lines_of_notMem unbroken]
  cases given : hint? report.message with
  | none => simp
  | some hint =>
      have unbrokenHint : '\n' ∉ ("Hint: " ++ hint).toList :=
        unbroken_append (by decide) (unbroken_hint given)
      simp only [lines_joined, lines_of_notMem unbrokenHint]
      simp

/-- A report has one line with a hint if its message gets a hint, and none otherwise. -/
theorem hintLines_render {report : Report} {line : Nat} (marked : report.line = line)
    (positive : 1 ≤ line) (inside : line ≤ (Text.lines report.source.toList).length)
    (unbroken : '\n' ∉ report.message.toList) :
    hintLines report.render = ((hint? report.message).map fun hint => "Hint: " ++ hint).toList := by
  have other {c : Char} (differs : 'H' ≠ c) (rest : List Char) :
      "Hint: ".toList.isPrefixOf (c :: rest) = false := by
    rw [Bool.eq_false_iff, Ne, List.isPrefixOf_iff_prefix]
    exact fun begins => differs (List.cons_prefix_cons.1 begins).1
  have first : "Hint: ".toList.isPrefixOf report.headline.toList = false := by
    have starts : ∃ rest, report.headline.toList = 'P' :: rest := by
      unfold Report.headline
      simp only [String.toList_append, List.append_assoc]
      exact ⟨_, rfl⟩
    obtain ⟨rest, starts⟩ := starts
    rw [starts]
    exact other (by decide) rest
  have rows : ∀ shown ∈ Text.lines report.context.toList,
      "Hint: ".toList.isPrefixOf shown = false := by
    rw [lines_context rfl marked positive inside rfl rfl]
    intro shown found
    obtain ⟨⟨text, number⟩, -, rfl⟩ := List.mem_map.1 found
    refine other ?_ _
    split <;> decide
  have hints : ∀ shown ∈ ((hint? report.message).map fun hint => ("Hint: " ++ hint).toList).toList,
      "Hint: ".toList.isPrefixOf shown = true := by
    intro shown found
    obtain ⟨hint, -, rfl⟩ := Option.map_eq_some_iff.1 (Option.mem_toList.1 found)
    rw [List.isPrefixOf_iff_prefix, String.toList_append]
    exact List.prefix_append _ _
  rw [hintLines, lines_render (unbroken_headline marked unbroken), List.cons_append,
    List.filter_cons_of_neg (by rw [first]; exact Bool.false_ne_true), List.filter_append,
    List.filter_eq_nil_iff.2 fun shown found => by rw [rows shown found]; exact Bool.false_ne_true,
    List.filter_eq_self.2 hints, List.nil_append]
  cases hint? report.message with
  | none => rfl
  | some hint =>
      rw [Option.map_some, Option.toList_some, List.map_singleton, String.ofList_toList,
        Option.map_some, Option.toList_some]

theorem hintLines_message {source : String} {names final : Names} {mistake : Mistake} {line : Nat}
    (refused : parse source names = (.error (.mistake mistake line), final)) :
    hintLines ((Refusal.mistake mistake line).message source) =
      ((hint? mistake.message).map fun hint => "Hint: " ++ hint).toList := by
  obtain ⟨positive, inside⟩ := line_of_mistake refused
  exact hintLines_render rfl positive inside (unbroken_message (sound_of_parse refused))

theorem hintLine_inj {first second : Option String} :
    (first.map fun hint => "Hint: " ++ hint).toList =
      (second.map fun hint => "Hint: " ++ hint).toList ↔ first = second := by
  cases first with
  | none => cases second <;> simp
  | some hint =>
      cases second with
      | none => simp
      | some other => simp [String.append_right_inj]

/-- When the variables of a refused source get other names, the other source is refused for the same
mistake on the same line. It gets the same hint if and only if the names in the mistake divert the
hint in the same way, as they do where they do not divert it at all. -/
theorem hintLines_renamed (renames : Renaming) {source other : String}
    (renamed : tokens other.toList = (tokens source.toList).map renames.token)
    {names final : Names} {mistake : Mistake} {line : Nat}
    (refused : parse source names = (.error (.mistake mistake line), final)) :
    parse other (names.mapNames renames.text) =
      (.error (.mistake (mistake.mapNames renames.text) line), final.mapNames renames.text) ∧
    (hintLines ((Refusal.mistake (mistake.mapNames renames.text) line).message other) =
        hintLines ((Refusal.mistake mistake line).message source) ↔
      (mistake.mapNames renames.text).diversion? = mistake.diversion?) := by
  have refused' : parse other (names.mapNames renames.text) =
      (.error (.mistake (mistake.mapNames renames.text) line), final.mapNames renames.text) := by
    rw [parse_renamed renames renamed names, refused]
    rfl
  refine ⟨refused', ?_⟩
  rw [hintLines_message refused, hintLines_message refused', hintLine_inj]
  exact hint?_mapNames_iff (sound_of_parse refused) (sound_of_parse refused')

/-- In the test of a loop, numbers in a name do not matter. -/
theorem hintLines_renamed_number :
    let source := "while a = 0 \x7b \x7d"
    let other := "while number255 = 0 \x7b \x7d"
    ∃ renames : Renaming,
      tokens other.toList = (tokens source.toList).map renames.token ∧
      parse source {} = (.error (.mistake (.test "a") 1), {}) ∧
      parse other {} = (.error (.mistake (.test "number255") 1), {}) ∧
      hintLines ((Refusal.mistake (.test "number255") 1).message other) =
        hintLines ((Refusal.mistake (.test "a") 1).message source) := by
  intro source other
  have isShort : IsVariable "a" := ⟨rfl, by decide⟩
  have isLong : IsVariable "number255" := ⟨rfl, by decide⟩
  have lexed : tokens source.toList =
      ["while", "a", "=", "0", "\x7b", "\x7d"].map fun text => ⟨text, 1⟩ := by decide +kernel
  have lexed' : tokens other.toList =
      ["while", "number255", "=", "0", "\x7b", "\x7d"].map fun text => ⟨text, 1⟩ := by
    decide +kernel
  have renamed : tokens other.toList =
      (tokens source.toList).map (Renaming.swap isShort isLong).token := by
    rw [lexed, lexed']
    rfl
  have refused : parse source {} = (.error (.mistake (.test "a") 1), {}) := by
    rw [parse, lexed]
    rfl
  obtain ⟨refused', same⟩ := hintLines_renamed _ renamed refused
  have undiverted : (Mistake.test "number255").diversion? = (Mistake.test "a").diversion? := by
    decide +kernel
  exact ⟨_, renamed, refused, refused', same.2 undiverted⟩

/-- A variable called `semicolon` diverts the hint of a wrong test. -/
theorem hintLines_diverted :
    let source := "while a = 0 \x7b \x7d"
    let other := "while semicolon = 0 \x7b \x7d"
    ∃ renames : Renaming,
      tokens other.toList = (tokens source.toList).map renames.token ∧
      parse source {} = (.error (.mistake (.test "a") 1), {}) ∧
      parse other {} = (.error (.mistake (.test "semicolon") 1), {}) ∧
      hintLines ((Refusal.mistake (.test "a") 1).message source) =
        ["Hint: Loops only test against zero: while name != 0 \x7b ... \x7d"] ∧
      hintLines ((Refusal.mistake (.test "semicolon") 1).message other) =
        ["Hint: Every statement except while ends with \";\". Example: a = 3;"] := by
  intro source other
  have isShort : IsVariable "a" := ⟨rfl, by decide⟩
  have isLong : IsVariable "semicolon" := ⟨rfl, by decide⟩
  have lexed : tokens source.toList =
      ["while", "a", "=", "0", "\x7b", "\x7d"].map fun text => ⟨text, 1⟩ := by decide +kernel
  have lexed' : tokens other.toList =
      ["while", "semicolon", "=", "0", "\x7b", "\x7d"].map fun text => ⟨text, 1⟩ := by
    decide +kernel
  have refused : parse source {} = (.error (.mistake (.test "a") 1), {}) := by
    rw [parse, lexed]
    rfl
  have refused' : parse other {} = (.error (.mistake (.test "semicolon") 1), {}) := by
    rw [parse, lexed']
    rfl
  refine ⟨Renaming.swap isShort isLong, ?_, refused, refused', ?_, ?_⟩
  · rw [lexed, lexed']
    rfl
  · rw [hintLines_message refused]
    decide +kernel
  · rw [hintLines_message refused']
    decide +kernel

end ByteTape.Program
