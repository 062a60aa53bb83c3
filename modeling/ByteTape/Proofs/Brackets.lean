import ByteTape.Proofs.Reading

/-!
# Brackets

What reading says about the brackets of a text, in terms of the text alone.

* `Balanced`: the texts in which all brackets pair off.
* `FirstOverrun`: the first position at which more brackets have closed than opened.
* `FirstUnpaired`: the first opening bracket without a partner.
* `exists_split`: a text is balanced up to its first bracket without a partner, if it has one.
* `ofPrimitives_unopened`, `ofPrimitives_unclosed`: that bracket is reported.
* `ofText_brackets`: when a text is read, and which bracket is reported when it is not.
-/

namespace ByteTape

namespace Primitive

/-! ## Pairs of brackets -/

/-- All brackets pair off. -/
inductive Balanced : List Primitive → Prop
  | nil : Balanced []
  | plain {p : Primitive} {rest : List Primitive} :
      p ≠ .opening → p ≠ .closing → Balanced rest → Balanced (p :: rest)
  | loop {inner rest : List Primitive} :
      Balanced inner → Balanced rest → Balanced (.opening :: inner ++ .closing :: rest)

/-- The opening bracket at a position has a partner. -/
def Paired (text : List Primitive) (position : Nat) : Prop :=
  ∃ before inner after, text = before ++ (.opening :: inner ++ .closing :: after) ∧
    before.length = position ∧ Balanced inner

/-- Up to a position and at it, more brackets close than open. -/
def Overrun (text : List Primitive) (position : Nat) : Prop :=
  (text.take (position + 1)).count .opening < (text.take (position + 1)).count .closing

theorem Balanced.count_eq {text : List Primitive} (balanced : Balanced text) :
    text.count .opening = text.count .closing := by
  induction balanced with
  | nil => rfl
  | plain opens closes _ ih => rw [List.count_cons_of_ne opens, List.count_cons_of_ne closes, ih]
  | loop _ _ ihInner ihRest =>
      simp only [List.cons_append, List.count_append, List.count_cons_self,
        List.count_cons_of_ne (show opening ≠ closing by decide),
        List.count_cons_of_ne (show closing ≠ opening by decide), ihInner, ihRest]
      omega

/-- A pair stays one when text is put around it. -/
theorem Paired.around {text : List Primitive} {position : Nat} (paired : Paired text position)
    (first second : List Primitive) :
    Paired (first ++ (text ++ second)) (first.length + position) := by
  obtain ⟨before, inner, after, rfl, rfl, balanced⟩ := paired
  exact ⟨first ++ before, inner, after ++ second, by simp, by simp, balanced⟩

theorem Balanced.paired {text : List Primitive} (balanced : Balanced text) {position : Nat}
    (opens : text[position]? = some .opening) : Paired text position := by
  induction balanced generalizing position with
  | nil => cases opens
  | @plain p rest stays _ _ ih =>
      cases position with
      | zero => exact absurd (Option.some.inj opens) stays
      | succ position =>
          have later := (ih opens).around [p] []
          rwa [List.append_nil, Nat.add_comm] at later
  | @loop inner rest balanced _ ihInner ihRest =>
      cases position with
      | zero => exact ⟨[], inner, rest, rfl, rfl, balanced⟩
      | succ position =>
          rw [List.cons_append, List.getElem?_cons_succ] at opens
          rcases Nat.lt_or_ge position inner.length with within | behind
          · rw [List.getElem?_append_left within] at opens
            have inside := (ihInner opens).around [.opening] (.closing :: rest)
            rwa [Nat.add_comm] at inside
          · rw [List.getElem?_append_right behind] at opens
            cases found : position - inner.length with
            | zero =>
                rw [found] at opens
                cases opens
            | succ offset =>
                rw [found] at opens
                have later := (ihRest opens).around (.opening :: inner ++ [.closing]) []
                rw [List.append_nil, List.append_assoc] at later
                have place : (opening :: inner ++ [closing]).length + offset = position + 1 := by
                  simp only [List.length_append, List.length_cons, List.length_nil]
                  omega
                rwa [place] at later

/-- The first position at which more brackets have closed than opened. -/
def FirstOverrun (text : List Primitive) (position : Nat) : Prop :=
  text[position]? = some .closing ∧ Overrun text position ∧ ∀ n < position, ¬ Overrun text n

/-- The first opening bracket that has no partner. -/
def FirstUnpaired (text : List Primitive) (position : Nat) : Prop :=
  text[position]? = some .opening ∧ ¬ Paired text position ∧
    ∀ n < position, text[n]? = some .opening → Paired text n

theorem FirstOverrun.unique {text : List Primitive} {position other : Nat}
    (first : FirstOverrun text position) (first' : FirstOverrun text other) : other = position := by
  rcases Nat.lt_trichotomy other position with less | same | more
  · exact absurd first'.2.1 (first.2.2 other less)
  · exact same
  · exact absurd first.2.1 (first'.2.2 position more)

theorem FirstUnpaired.unique {text : List Primitive} {position other : Nat}
    (first : FirstUnpaired text position) (first' : FirstUnpaired text other) :
    other = position := by
  rcases Nat.lt_trichotomy other position with less | same | more
  · exact absurd (first.2.2 other less first'.1) first'.2.1
  · exact same
  · exact absurd (first'.2.2 position more first.1) first.2.1

theorem Balanced.not_firstUnpaired {text : List Primitive} (balanced : Balanced text)
    (position : Nat) : ¬ FirstUnpaired text position :=
  fun first => first.2.1 (balanced.paired first.1)

/-! ## Brackets that are left open -/

/-- With so many brackets open before it, a text never closes more than are open. -/
def Steady (depth : Nat) (text : List Primitive) : Prop :=
  ∀ n, (text.take n).count .closing ≤ (text.take n).count .opening + depth

theorem steady_nil (depth : Nat) : Steady depth [] := by
  intro n
  simp

theorem Steady.deeper {depth : Nat} {text : List Primitive} (steady : Steady depth text) :
    Steady (depth + 1) text :=
  fun n => Nat.le_succ_of_le (steady n)

theorem steady_cons {depth : Nat} {p : Primitive} {rest : List Primitive} :
    Steady depth (p :: rest) ↔
      ∀ n, (p :: rest.take n).count .closing ≤ (p :: rest.take n).count .opening + depth := by
  constructor
  · intro steady n
    exact steady (n + 1)
  · intro later n
    cases n with
    | zero => simp
    | succ n => exact later n

theorem steady_opening {depth : Nat} {rest : List Primitive} :
    Steady depth (.opening :: rest) ↔ Steady (depth + 1) rest := by
  rw [steady_cons]
  refine forall_congr' fun n => ?_
  rw [List.count_cons_self, List.count_cons_of_ne (by decide)]
  omega

theorem steady_closing {depth : Nat} {rest : List Primitive} :
    Steady (depth + 1) (.closing :: rest) ↔ Steady depth rest := by
  rw [steady_cons]
  refine forall_congr' fun n => ?_
  rw [List.count_cons_self, List.count_cons_of_ne (by decide)]
  omega

theorem not_steady_closing {rest : List Primitive} : ¬ Steady 0 (.closing :: rest) := by
  intro steady
  have first := steady 1
  simp at first

theorem steady_plain {depth : Nat} {p : Primitive} {rest : List Primitive} (opens : p ≠ .opening)
    (closes : p ≠ .closing) : Steady depth (p :: rest) ↔ Steady depth rest := by
  rw [steady_cons]
  refine forall_congr' fun n => ?_
  rw [List.count_cons_of_ne opens, List.count_cons_of_ne closes]

theorem Balanced.steady_append {text : List Primitive} (balanced : Balanced text) {depth : Nat}
    {rest : List Primitive} (steady : Steady depth rest) : Steady depth (text ++ rest) := by
  induction balanced generalizing depth rest with
  | nil => exact steady
  | plain opens closes _ ih => exact (steady_plain opens closes).2 (ih steady)
  | loop _ _ ihInner ihRest =>
      rw [List.append_assoc]
      exact steady_opening.2 (ihInner (steady_closing.2 (ihRest steady)))

theorem Balanced.steady {text : List Primitive} (balanced : Balanced text) : Steady 0 text := by
  have whole := balanced.steady_append (steady_nil 0)
  rwa [List.append_nil] at whole

theorem Steady.not_overrun {text : List Primitive} (steady : Steady 0 text) (position : Nat) :
    ¬ Overrun text position :=
  Nat.not_lt.2 (steady (position + 1))

theorem firstOverrun_of_balanced {before : List Primitive} (balanced : Balanced before)
    (rest : List Primitive) : FirstOverrun (before ++ .closing :: rest) before.length := by
  refine ⟨by simp, ?_, fun n earlier overrun => ?_⟩
  · rw [Overrun, List.take_length_add_append]
    simp [balanced.count_eq]
  · rw [Overrun, List.take_append_of_le_length earlier] at overrun
    exact balanced.steady.not_overrun n overrun

/-- A bracket has no partner if behind it no more brackets close than open. -/
theorem not_paired_of_steady {before after : List Primitive} (steady : Steady 0 after) :
    ¬ Paired (before ++ .opening :: after) before.length := by
  rintro ⟨before', inner, rest, same, length, balanced⟩
  obtain ⟨rfl, behind⟩ := List.append_inj same length.symm
  have tail : after = inner ++ .closing :: rest := (List.cons.inj behind).2
  subst tail
  have closed := steady (inner.length + 1)
  rw [List.take_length_add_append, List.count_append, List.count_append, balanced.count_eq] at closed
  exact Nat.not_succ_le_self _ closed

theorem firstUnpaired_of_steady {before after : List Primitive} (balanced : Balanced before)
    (steady : Steady 0 after) : FirstUnpaired (before ++ .opening :: after) before.length := by
  refine ⟨by simp, not_paired_of_steady steady, fun n earlier opens => ?_⟩
  rw [List.getElem?_append_left earlier] at opens
  have kept := (balanced.paired opens).around [] (.opening :: after)
  rwa [List.length_nil, Nat.zero_add] at kept

/-! ## The first bracket without a partner -/

/-- What stands behind the longest balanced beginning of a text: nothing, a bracket that closes
nothing, or a bracket that is never closed. -/
inductive Leftover : List Primitive → Prop
  | nothing : Leftover []
  | unopened (rest : List Primitive) : Leftover (.closing :: rest)
  | unclosed {rest : List Primitive} : Steady 0 rest → Leftover (.opening :: rest)

theorem exists_split (text : List Primitive) :
    ∃ before after, text = before ++ after ∧ Balanced before ∧ Leftover after := by
  match text with
  | [] => exact ⟨[], [], rfl, .nil, .nothing⟩
  | p :: rest =>
      obtain ⟨inner, after, rfl, balanced, leftover⟩ := exists_split rest
      by_cases closes : p = .closing
      · subst closes
        exact ⟨[], _, rfl, .nil, .unopened _⟩
      by_cases opens : p = .opening
      · subst opens
        cases leftover with
        | nothing =>
            exact ⟨[], _, rfl, .nil, .unclosed (balanced.steady_append (steady_nil 0))⟩
        | unopened rest =>
            -- the bracket has its partner, and the text goes on behind it
            obtain ⟨before, after, rfl, balanced', leftover⟩ := exists_split rest
            refine ⟨.opening :: inner ++ .closing :: before, after, ?_, ?_, leftover⟩
            · simp
            · exact .loop balanced balanced'
        | unclosed steady =>
            have later := balanced.steady_append (steady_opening.2 steady.deeper)
            exact ⟨[], _, rfl, .nil, .unclosed later⟩
      · exact ⟨p :: inner, after, rfl, .plain opens closes balanced, leftover⟩
termination_by text.length

/-! ## Reading -/

theorem exists_spells_of_balanced {text : List Primitive} (balanced : Balanced text) :
    ∃ code, Code.Spells code text := by
  induction balanced with
  | nil => exact ⟨.nil, .nil⟩
  | @plain p rest opens closes _ ih =>
      obtain ⟨code, spelled⟩ := ih
      cases p with
      | opening => exact absurd rfl opens
      | closing => exact absurd rfl closes
      | _ => exact ⟨.op _ code, .op rfl spelled⟩
  | loop _ _ ihInner ihRest =>
      obtain ⟨body, spelledBody⟩ := ihInner
      obtain ⟨rest, spelledRest⟩ := ihRest
      exact ⟨.loop body rest, .loop spelledBody spelledRest⟩

end Primitive

namespace Draft

open Primitive

/-- Behind balanced text no bracket is open. -/
theorem read_balanced {text : List Primitive} (balanced : Balanced text) :
    ∃ code, ∀ rest, read {} 0 (text ++ rest) = read ⟨code, []⟩ text.length rest := by
  obtain ⟨plain, spelled⟩ := exists_spells_of_balanced balanced
  refine ⟨pushCode .nil plain, fun rest => ?_⟩
  have done := read_spells spelled .nil [] 0 rest
  rwa [Nat.zero_add] at done

/-- The outermost open bracket is reported if the rest of the text does not get to close it. -/
theorem read_unclosed {text : List Primitive} {levels : List (Nat × Code)}
    (steady : Steady levels.length text) (current level : Code) (first position : Nat) :
    read ⟨current, levels ++ [(first, level)]⟩ position text = .error (.unclosed first) := by
  induction text generalizing levels current position with
  | nil =>
      rw [read, finish]
      simp
  | cons p rest ih =>
      rw [read]
      cases p with
      | opening =>
          have deeper : Steady ((position, current) :: levels).length rest :=
            steady_opening.1 steady
          exact ih deeper .nil (position + 1)
      | closing =>
          cases levels with
          | nil => exact absurd steady not_steady_closing
          | cons inner levels => exact ih (steady_closing.1 steady) _ (position + 1)
      | _ => refine ih ((steady_plain ?_ ?_).1 steady) _ (position + 1) <;> decide

end Draft

namespace Code

open Primitive

theorem ofPrimitives_balanced {text : List Primitive} (balanced : Balanced text) :
    ∃ code, ofPrimitives text = .ok code := by
  obtain ⟨plain, spelled⟩ := exists_spells_of_balanced balanced
  exact ⟨plain.coalesce, ofPrimitives_eq_coalesce spelled⟩

theorem ofPrimitives_unopened {before : List Primitive} (balanced : Balanced before)
    (rest : List Primitive) :
    ofPrimitives (before ++ .closing :: rest) = .error (.unopened before.length) := by
  obtain ⟨code, reads⟩ := Draft.read_balanced balanced
  rw [ofPrimitives, reads]
  rfl

theorem ofPrimitives_unclosed {before rest : List Primitive} (balanced : Balanced before)
    (steady : Steady 0 rest) :
    ofPrimitives (before ++ .opening :: rest) = .error (.unclosed before.length) := by
  obtain ⟨code, reads⟩ := Draft.read_balanced balanced
  have shallow : Steady ([] : List (Nat × Code)).length rest := steady
  rw [ofPrimitives, reads, Draft.read]
  exact Draft.read_unclosed shallow .nil code before.length (before.length + 1)

end Code

open Primitive in
/-- A text is read if and only if its brackets pair off. If somewhere more brackets have closed than
opened, the first closing bracket that is too many is reported; otherwise, if a bracket is never
closed, the first one that has no partner. Positions count the primitives of the text. -/
theorem ofText_brackets (text : String) :
    (∀ position : Int, Code.ofText text = .error (.unopened position) ↔
      ∃ n : Nat, position = n ∧ FirstOverrun (Primitive.ofText text) n) ∧
    (∀ position : Int, Code.ofText text = .error (.unclosed position) ↔
      (¬ ∃ n, FirstOverrun (Primitive.ofText text) n) ∧
        ∃ n : Nat, position = n ∧ FirstUnpaired (Primitive.ofText text) n) ∧
    ((∃ code, Code.ofText text = .ok code) ↔ Balanced (Primitive.ofText text)) := by
  unfold Code.ofText
  generalize Primitive.ofText text = primitives
  obtain ⟨before, after, rfl, balanced, leftover⟩ := exists_split primitives
  cases leftover with
  | nothing =>
      rw [List.append_nil]
      obtain ⟨code, read⟩ := Code.ofPrimitives_balanced balanced
      rw [read]
      refine ⟨fun position => ⟨nofun, ?_⟩, fun position => ⟨nofun, ?_⟩,
        fun _ => balanced, fun _ => ⟨code, rfl⟩⟩
      · rintro ⟨n, -, first⟩
        exact absurd first.2.1 (balanced.steady.not_overrun n)
      · rintro ⟨-, n, -, first⟩
        exact absurd first (balanced.not_firstUnpaired n)
  | unopened rest =>
      have first := firstOverrun_of_balanced balanced rest
      rw [Code.ofPrimitives_unopened balanced]
      refine ⟨fun position => ⟨?_, ?_⟩, fun position => ⟨nofun, ?_⟩, nofun, fun whole => ?_⟩
      · rintro ⟨⟩
        exact ⟨before.length, rfl, first⟩
      · rintro ⟨n, rfl, first'⟩
        rw [first.unique first']
      · rintro ⟨none, -⟩
        exact absurd ⟨_, first⟩ none
      · exact absurd first.2.1 (whole.steady.not_overrun _)
  | unclosed steady =>
      have first := firstUnpaired_of_steady balanced steady
      have whole := balanced.steady_append (steady_opening.2 steady.deeper)
      rw [Code.ofPrimitives_unclosed balanced steady]
      refine ⟨fun position => ⟨nofun, ?_⟩, fun position => ⟨?_, ?_⟩, nofun, fun paired => ?_⟩
      · rintro ⟨n, -, first'⟩
        exact absurd first'.2.1 (whole.not_overrun n)
      · rintro ⟨⟩
        exact ⟨fun ⟨n, first'⟩ => whole.not_overrun n first'.2.1, before.length, rfl, first⟩
      · rintro ⟨-, n, rfl, first'⟩
        rw [first.unique first']
      · exact absurd first (paired.not_firstUnpaired _)

end ByteTape
