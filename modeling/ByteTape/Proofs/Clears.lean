import ByteTape.Proofs.Canonical

/-!
# Clearing loops in a text

What is read and written again differs from the text in its clearing loops only: each `[+]` has
become `[-]`, and of several `[-]` in a row one is left. Here this is said of the text alone.

* `unified`, `collapsed`: the two changes, one after the other; `settled`: both.
* `Settled`: the texts with nothing to change; `settled_settled`: what is left is one of them.
* `ofPrimitives_settled`: the changes do not show in what is read.
* `text_of_settled`: a text with nothing to change is written as it was.
* `toText_ofText`: so what is written is the settled text.
-/

namespace ByteTape

namespace Primitive

/-! ## The changes -/

/-- The loop `[+]`. -/
def climbing : List Primitive := [opening, increment, closing]

/-- Every `[+]` replaced by `[-]`. -/
def unified : List Primitive → List Primitive
  | .opening :: .increment :: .closing :: rest => clearing ++ unified rest
  | p :: rest => p :: unified rest
  | [] => []

/-- Every block of `[-]` one behind another replaced by one `[-]`: those that another one follows
are left out. -/
def collapsed : List Primitive → List Primitive
  | .opening :: .decrement :: .closing :: rest =>
      if clearing <+: rest then collapsed rest else clearing ++ collapsed rest
  | p :: rest => p :: collapsed rest
  | [] => []

def settled (text : List Primitive) : List Primitive := collapsed (unified text)

/-- Neither `[+]` nor `[-][-]` occurs. -/
def Settled (text : List Primitive) : Prop :=
  ¬ climbing <:+: text ∧ ¬ clearing ++ clearing <:+: text

theorem Settled.of_infix {part text : List Primitive} (settled : Settled text)
    (inside : part <:+: text) : Settled part :=
  ⟨fun occurs => settled.1 (occurs.trans inside), fun occurs => settled.2 (occurs.trans inside)⟩

/-! ## What is left -/

theorem unified_eq_cons {text tail : List Primitive} {q : Primitive} (stays : q ≠ .opening)
    (starts : unified text = q :: tail) : ∃ rest, text = q :: rest ∧ unified rest = tail := by
  fun_induction unified text with
  | case1 rest => exact absurd (List.cons.inj starts).1.symm stays
  | case2 p rest =>
      obtain ⟨rfl, tail⟩ := List.cons.inj starts
      exact ⟨rest, rfl, tail⟩
  | case3 => cases starts

theorem collapsed_eq_cons {text tail : List Primitive} {q : Primitive} (stays : q ≠ .opening)
    (starts : collapsed text = q :: tail) : ∃ rest, text = q :: rest ∧ collapsed rest = tail := by
  fun_induction collapsed text with
  | case1 rest again ih =>
      -- a block starts with a bracket, however much of it is left out
      obtain ⟨rest', rfl, -⟩ := ih starts
      obtain ⟨after, same⟩ := again
      exact absurd (List.cons.inj same).1.symm stays
  | case2 rest => exact absurd (List.cons.inj starts).1.symm stays
  | case3 p rest =>
      obtain ⟨rfl, tail⟩ := List.cons.inj starts
      exact ⟨rest, rfl, tail⟩
  | case4 => cases starts

/-- What starts with a bracket does not start inside a clearing loop. -/
theorem infix_clearing {part rest : List Primitive} (starts : part.head? = some .opening)
    (occurs : part <:+: clearing ++ rest) : part <+: clearing ++ rest ∨ part <:+: rest := by
  obtain ⟨tail, rfl⟩ : ∃ tail, part = .opening :: tail := List.head?_eq_some_iff.1 starts
  have inside :
      .opening :: tail <:+: decrement :: closing :: rest → .opening :: tail <:+: rest := by
    simp [List.infix_cons_iff, List.cons_prefix_cons]
  exact (List.infix_cons_iff.1 occurs).imp_right inside

theorem not_climbing_unified (text : List Primitive) : ¬ climbing <:+: unified text := by
  fun_induction unified text with
  | case1 rest ih =>
      intro occurs
      rcases infix_clearing rfl occurs with first | later
      · simp [climbing, clearing, List.cons_prefix_cons] at first
      · exact ih later
  | case2 p rest other ih =>
      intro occurs
      rcases List.infix_cons_iff.1 occurs with first | later
      · obtain ⟨rfl, tail, same⟩ := List.cons_prefix_cons.1 first
        obtain ⟨rest', rfl, same'⟩ := unified_eq_cons (by decide) same.symm
        obtain ⟨rest'', rfl, -⟩ := unified_eq_cons (by decide) same'
        exact other rest'' rfl rfl
      · exact ih later
  | case3 => simp [climbing]

/-- Text that starts with `[-]` behind the change did so before it. -/
theorem clearing_of_collapsed {p : Primitive} {rest : List Primitive}
    (starts : clearing <+: p :: collapsed rest) : clearing <+: p :: rest := by
  obtain ⟨rfl, tail, same⟩ := List.cons_prefix_cons.1 starts
  obtain ⟨rest', rfl, same'⟩ := collapsed_eq_cons (by decide) same.symm
  obtain ⟨rest'', rfl, -⟩ := collapsed_eq_cons (by decide) same'
  exact List.prefix_append clearing rest''

theorem clearing_prefix_collapsed {text : List Primitive} (starts : clearing <+: collapsed text) :
    clearing <+: text := by
  fun_induction collapsed text with
  | case1 rest _ ih => exact List.prefix_append clearing rest
  | case2 rest => exact List.prefix_append clearing rest
  | case3 p rest => exact clearing_of_collapsed starts
  | case4 => simp [clearing] at starts

theorem not_repeated_collapsed (text : List Primitive) :
    ¬ clearing ++ clearing <:+: collapsed text := by
  fun_induction collapsed text with
  | case1 rest _ ih => exact ih
  | case2 rest alone ih =>
      intro occurs
      rcases infix_clearing rfl occurs with first | later
      · exact alone (clearing_prefix_collapsed ((List.prefix_append_right_inj clearing).1 first))
      · exact ih later
  | case3 p rest other ih =>
      intro occurs
      rcases List.infix_cons_iff.1 occurs with first | later
      · obtain ⟨rest', same⟩ := clearing_of_collapsed ((List.prefix_append _ _).trans first)
        obtain ⟨rfl, rfl⟩ := List.cons.inj same
        exact other rest' rfl rfl
      · exact ih later
  | case4 => simp [clearing]

theorem not_climbing_collapsed {text : List Primitive} (none : ¬ climbing <:+: text) :
    ¬ climbing <:+: collapsed text := by
  fun_induction collapsed text with
  | case1 rest _ ih =>
      exact ih fun occurs => none (occurs.trans (List.suffix_append clearing rest).isInfix)
  | case2 rest _ ih =>
      intro occurs
      rcases infix_clearing rfl occurs with first | later
      · simp [climbing, clearing, List.cons_prefix_cons] at first
      · refine ih (fun occurs => none ?_) later
        exact occurs.trans (List.suffix_append clearing rest).isInfix
  | case3 p rest other ih =>
      intro occurs
      rcases List.infix_cons_iff.1 occurs with first | later
      · obtain ⟨rfl, tail, same⟩ := List.cons_prefix_cons.1 first
        obtain ⟨rest', rfl, same'⟩ := collapsed_eq_cons (by decide) same.symm
        obtain ⟨rest'', rfl, -⟩ := collapsed_eq_cons (by decide) same'
        exact none (List.prefix_append climbing rest'').isInfix
      · exact ih (fun occurs => none (occurs.trans (List.suffix_cons p rest).isInfix)) later
  | case4 => simp [climbing]

theorem settled_settled (text : List Primitive) : Settled (settled text) :=
  ⟨not_climbing_collapsed (not_climbing_unified text), not_repeated_collapsed (unified text)⟩

theorem length_unified (text : List Primitive) : (unified text).length = text.length := by
  fun_induction unified text with
  | case1 rest ih => simp [clearing, ih]
  | case2 p rest _ ih => simp [ih]
  | case3 => rfl

theorem length_collapsed_le (text : List Primitive) : (collapsed text).length ≤ text.length := by
  fun_induction collapsed text with
  | case1 rest _ ih => exact Nat.le_trans ih (by simp; omega)
  | case2 rest _ ih => simpa [clearing] using ih
  | case3 p rest _ ih => simpa using ih
  | case4 => exact Nat.le_refl _

theorem length_settled_le (text : List Primitive) : (settled text).length ≤ text.length := by
  rw [← length_unified text]
  exact length_collapsed_le (unified text)

end Primitive

/-! ## The changes do not show in what is read -/

namespace Draft

open Primitive

/-- Drafts that may differ in the positions of their brackets. -/
def Alike (draft other : Draft) : Prop :=
  draft.current = other.current ∧ draft.outer.map Prod.snd = other.outer.map Prod.snd

theorem Alike.step {draft other next : Draft} (alike : Alike draft other) {position : Nat}
    {p : Primitive} (stepped : draft.step position p = .ok next) (position' : Nat) :
    ∃ next', other.step position' p = .ok next' ∧ Alike next next' := by
  obtain ⟨current, outer⟩ := draft
  obtain ⟨_, outer'⟩ := other
  obtain ⟨rfl, levels⟩ := alike
  cases p with
  | opening =>
      cases stepped
      exact ⟨_, rfl, rfl, congrArg (current :: ·) levels⟩
  | closing =>
      match outer, outer' with
      | [], _ => cases stepped
      | _ :: _, [] => cases levels
      | (_, before) :: outer, (_, _) :: outer' =>
          cases stepped
          obtain ⟨rfl, around⟩ := List.cons.inj levels
          exact ⟨_, rfl, rfl, around⟩
  | _ =>
      cases stepped
      exact ⟨_, rfl, rfl, levels⟩

theorem Alike.finish {draft other : Draft} (alike : Alike draft other) {code : Code}
    (done : draft.finish = .ok code) : other.finish = .ok code := by
  obtain ⟨current, outer⟩ := draft
  obtain ⟨_, outer'⟩ := other
  obtain ⟨rfl, levels⟩ := alike
  cases outer with
  | nil =>
      obtain rfl := List.map_eq_nil_iff.1 levels.symm
      exact done
  | cons level outer =>
      rw [Draft.finish, List.getLast?_cons] at done
      cases done

theorem read_clearing (draft : Draft) (position : Nat) (rest : List Primitive) :
    draft.read position (clearing ++ rest) =
      read ⟨pushLoop draft.current (.ofOp (.sub 1)), draft.outer⟩ (position + 3) rest := rfl

theorem pushLoop_clearing {body : Code} (clears : body = .ofOp (.sub 1) ∨ body = .ofOp (.add 1))
    (level : Code) :
    pushLoop level body = match level with
      | .op .clear before => .op .clear before
      | level => .op .clear level :=
  if_pos clears

theorem read_climbing (draft : Draft) (position : Nat) (rest : List Primitive) :
    draft.read position (climbing ++ rest) = draft.read position (clearing ++ rest) := by
  rw [read_clearing, pushLoop_clearing (.inl rfl), ← pushLoop_clearing (.inr rfl)]
  rfl

theorem pushLoop_clearing_twice (level : Code) :
    pushLoop (pushLoop level (.ofOp (.sub 1))) (.ofOp (.sub 1)) =
      pushLoop level (.ofOp (.sub 1)) := by
  rw [pushLoop_clearing (.inl rfl), pushLoop_clearing (.inl rfl)]
  cases level with
  | op last before => cases last <;> rfl
  | _ => rfl

/-- The second of two clearing loops only moves the positions. -/
theorem read_clearing_twice (draft : Draft) (position : Nat) (rest : List Primitive) :
    draft.read position (clearing ++ (clearing ++ rest)) =
      draft.read (position + 3) (clearing ++ rest) := by
  rw [read_clearing, read_clearing, pushLoop_clearing_twice, read_clearing]

theorem read_unified (draft : Draft) (position : Nat) (text : List Primitive) :
    draft.read position (unified text) = draft.read position text := by
  fun_induction unified text generalizing draft position with
  | case1 rest ih =>
      show _ = draft.read position (climbing ++ rest)
      rw [read_climbing, read_clearing, read_clearing, ih]
  | case2 p rest _ ih =>
      rw [read, read]
      cases draft.step position p with
      | ok next => exact ih next (position + 1)
      | error imbalance => rfl
  | case3 => rfl

theorem read_collapsed {draft other : Draft} (alike : Alike draft other) {position : Nat}
    (position' : Nat) {text : List Primitive} {code : Code}
    (done : draft.read position text = .ok code) :
    other.read position' (collapsed text) = .ok code := by
  fun_induction collapsed text generalizing draft other position position' with
  | case1 rest again ih =>
      obtain ⟨rest, rfl⟩ := again
      exact ih alike position' ((read_clearing_twice draft position rest).symm.trans done)
  | case2 rest _ ih =>
      have pushed : Alike ⟨pushLoop draft.current (.ofOp (.sub 1)), draft.outer⟩
          ⟨pushLoop other.current (.ofOp (.sub 1)), other.outer⟩ := ⟨by rw [alike.1], alike.2⟩
      exact ih pushed (position' + 3) done
  | case3 p rest _ ih =>
      rw [read] at done ⊢
      cases stepped : draft.step position p with
      | ok next =>
          rw [stepped] at done
          obtain ⟨next', stepped', alike'⟩ := alike.step stepped position'
          rw [stepped']
          exact ih alike' (position' + 1) done
      | error imbalance =>
          rw [stepped] at done
          cases done
  | case4 => exact alike.finish done

end Draft

theorem Code.ofPrimitives_settled {text : List Primitive} {code : Code}
    (read : ofPrimitives text = .ok code) : ofPrimitives (Primitive.settled text) = .ok code := by
  rw [ofPrimitives, ← Draft.read_unified] at read
  exact Draft.read_collapsed ⟨rfl, rfl⟩ 0 read

/-! ## A settled text is written as it was -/

theorem Code.text_append (first second : Code) :
    (first ++ second).text = first.text ++ second.text := by
  induction first with
  | nil => rfl
  | op head rest ih => simp only [op_append, text, ih, List.append_assoc]
  | loop body rest _ ih =>
      simp only [loop_append, text, ih, List.append_assoc, List.cons_append]

theorem Code.text_reverse_op (head : Op) (rest : Code) :
    (op head rest).reverse.text = rest.reverse.text ++ head.text := by
  rw [reverse_op, text_append, ofOp, text, text, List.append_nil]

theorem Code.text_reverse_loop (body rest : Code) :
    (loop body rest).reverse.text = rest.reverse.text ++ (.opening :: body.text ++ [.closing]) := by
  rw [reverse_loop, text_append]
  rfl

theorem Primitive.run_add (p : Primitive) {m n : Int} (natural : 0 ≤ m) (natural' : 0 ≤ n) :
    run p (m + n) = run p m ++ run p n := by
  rw [run, run, run, Int.toNat_add natural natural', List.replicate_append_replicate]

theorem Op.text_merge {first second merged : Op} (regular : first.Regular)
    (regular' : second.Regular) (merges : first.merge second = some merged) :
    merged.text = first.text ++ second.text := by
  unfold Op.merge at merges
  split at merges
  · cases merges
    exact Primitive.run_add _ regular regular'
  · cases merges
    exact Primitive.run_add _ regular regular'
  · cases merges
    exact Primitive.run_add _ regular regular'
  · cases merges
    exact Primitive.run_add _ regular regular'
  · cases merges

theorem Primitive.text_of_op? {p : Primitive} {o : Op} (stands : p.op? = some o) :
    o.text = [p] := by
  cases p <;> cases stands <;> rfl

namespace Draft

open Primitive Code

theorem text_pushOp {level : Code} (canonical : level.Canonical) {o : Op} (readable : o.Readable) :
    (pushOp level o).reverse.text = level.reverse.text ++ o.text := by
  cases level with
  | nil => exact text_reverse_op o .nil
  | loop body before => exact text_reverse_op o (.loop body before)
  | op last before =>
      rw [pushOp]
      cases merges : last.merge o with
      | none => exact text_reverse_op o (.op last before)
      | some merged =>
          rw [text_reverse_op, text_reverse_op, List.append_assoc,
            Op.text_merge canonical.1.regular readable.regular merges]

/-- A loop that settled text holds is pushed as it is written. -/
theorem text_pushLoop {level body : Code}
    (settled : Settled (level.reverse.text ++ (.opening :: body.text ++ [.closing]))) :
    (pushLoop level body).reverse.text =
      level.reverse.text ++ (.opening :: body.text ++ [.closing]) := by
  unfold pushLoop
  split
  next clears =>
    have down : body = .ofOp (.sub 1) := by
      refine clears.resolve_right ?_
      rintro rfl
      exact settled.1 (List.suffix_append _ _).isInfix
    subst down
    split
    next before =>
      refine absurd ?_ settled.2
      rw [text_reverse_op, List.append_assoc]
      exact (List.suffix_append _ _).isInfix
    next => exact text_reverse_op .clear level
  next => exact text_reverse_loop body level

theorem text_pushCode {code : Code} {text : List Primitive} (spelled : Spells code text)
    {level : Code} (canonical : level.Canonical) (settled : Settled (level.reverse.text ++ text)) :
    (pushCode level code).reverse.text = level.reverse.text ++ text := by
  induction spelled generalizing level with
  | nil => rw [pushCode, List.append_nil]
  | @op p o rest text stands _ ih =>
      have readable : o.Readable ∧ o ≠ .clear := by cases p <;> cases stands <;> decide
      have pushed : (pushOp level o).reverse.text = level.reverse.text ++ [p] := by
        rw [text_pushOp canonical readable.1, text_of_op? stands]
      have split : level.reverse.text ++ p :: text = (pushOp level o).reverse.text ++ text := by
        rw [pushed, List.append_assoc, List.singleton_append]
      rw [split] at settled ⊢
      exact ih (pushOp_canonical canonical readable.1 readable.2) settled
  | @loop body rest inner text spelledBody _ ihBody ihRest =>
      have split : level.reverse.text ++ (.opening :: inner ++ .closing :: text) =
          level.reverse.text ++ (.opening :: inner ++ [.closing]) ++ text := by simp
      rw [split] at settled ⊢
      have within : inner <:+: level.reverse.text ++ (.opening :: inner ++ [.closing]) ++ text :=
        ⟨level.reverse.text ++ [.opening], .closing :: text, by simp⟩
      have written : (pushCode .nil body).reverse.text = inner :=
        ihBody trivial (settled.of_infix within)
      have canonicalBody : (pushCode .nil body).Canonical := pushCode_canonical spelledBody trivial
      have first := settled.of_infix (List.prefix_append _ _).isInfix
      rw [← written] at first
      have pushed := text_pushLoop first
      rw [written] at pushed
      rw [← pushed] at settled ⊢
      exact ihRest (pushLoop_canonical canonical canonicalBody.reverse) settled

end Draft

namespace Code

open Primitive

theorem text_of_settled {text : List Primitive} {code : Code} (settled : Settled text)
    (read : ofPrimitives text = .ok code) : code.text = text := by
  obtain ⟨plain, spelled⟩ := exists_spells read
  obtain rfl := Except.ok.inj (read.symm.trans (ofPrimitives_eq_coalesce spelled))
  have written : (Draft.pushCode .nil plain).reverse.text = text :=
    Draft.text_pushCode spelled trivial settled
  exact written

/-- What is read from a text has the primitives of the settled text. -/
theorem text_of_ofPrimitives {text : List Primitive} {code : Code}
    (read : ofPrimitives text = .ok code) : code.text = settled text :=
  text_of_settled (settled_settled text) (ofPrimitives_settled read)

end Code

open Primitive in
/-- What is read from a text and written again is the text without its other characters, every `[+]`
replaced by `[-]` and then every block of `[-]` by one of them. So it is the same text if and only if
neither `[+]` nor `[-][-]` occurs in it, and it is never longer. -/
theorem toText_ofText {text : Text} {code : Code} (read : Code.ofText text.chars = .ok code) :
    code.toText = .ok (toText (settled (Primitive.ofText text.chars))) ∧
      (toText (settled (Primitive.ofText text.chars)) = toText (Primitive.ofText text.chars) ↔
        Settled (Primitive.ofText text.chars)) ∧
      (toText (settled (Primitive.ofText text.chars))).length ≤
        (toText (Primitive.ofText text.chars)).length := by
  have regular := (Code.canonical_of_ofText read).regular
  have same := Code.text_of_ofPrimitives read
  refine ⟨?_, ⟨fun unchanged => ?_, fun settled => ?_⟩, ?_⟩
  · rw [← same]
    exact (Code.toText_ok_iff regular).2 ⟨Code.size_lt_of_ofText read, rfl⟩
  · have back := congrArg Primitive.ofText unchanged
    rw [ofText_toText, ofText_toText] at back
    rw [← back]
    exact settled_settled _
  · rw [← same, Code.text_of_settled settled read]
  · simpa [toText] using length_settled_le (Primitive.ofText text.chars)

/-- Blocks of both kinds of loop, outside and at both ends of a body. -/
theorem toText_ofText_blocks :
    ∃ code, Code.ofText "[-][+] [[+]-[-][-]>[+][-]][+]" = .ok code ∧
      code.toText = .ok "[-][[-]-[-]>[-]][-]" ∧
      ¬ Primitive.Settled (Primitive.ofText "[-][+] [[+]-[-][-]>[+][-]][+]") := by
  let body : Code := .op .clear (.op (.sub 1) (.op .clear (.op (.right 1) (.ofOp .clear))))
  have read : Code.ofText "[-][+] [[+]-[-][-]>[+][-]][+]" =
      .ok (.op .clear (.loop body (.ofOp .clear))) := rfl
  let text : Text := ⟨"[-][+] [[+]-[-][-]>[+][-]][+]", by decide⟩
  have settles : Primitive.toText (Primitive.settled (Primitive.ofText text.chars)) =
      "[-][[-]-[-]>[-]][-]" := by decide +kernel
  obtain ⟨written, unchanged, -⟩ := @toText_ofText text _ read
  rw [settles] at written unchanged
  exact ⟨_, read, written, fun settled => absurd (unchanged.2 settled) (by decide)⟩

end ByteTape
