import ByteTape.Proofs.Equivalence

/-!
# Reading and meaning

Reading rewrites code while it goes: runs are counted, `[-]` and `[+]` become `clear`, and a
repeated `clear` is dropped. Here the reader is compared with plain code, in which every operation
is one primitive.

* `Spells code text`: the text is the plain code, written down primitive by primitive.
* `exists_spells`: a text that can be read is spelled by some plain code.
* `ofPrimitives_eq_coalesce`: reading it gives the plain code, coalesced.
* `coalesce_equiv`: coalescing does not change what code does.
-/

namespace ByteTape

/-- The operation that a primitive stands for. A bracket stands for none. -/
def Primitive.op? : Primitive → Option Op
  | increment => some (.add 1)
  | decrement => some (.sub 1)
  | left => some (.left 1)
  | right => some (.right 1)
  | opening => none
  | closing => none
  | read => some .read
  | write => some .write

namespace Code

theorem reverse_op (head : Op) (rest : Code) :
    (op head rest).reverse = rest.reverse ++ ofOp head := reverseOnto_eq rest (ofOp head)

theorem reverse_loop (body rest : Code) :
    (loop body rest).reverse = rest.reverse ++ ofLoop body := reverseOnto_eq rest (ofLoop body)

/-- Plain code and its text, one primitive for each operation. -/
inductive Spells : Code → List Primitive → Prop
  | nil : Spells .nil []
  | op {p : Primitive} {o : Op} {rest : Code} {text : List Primitive} :
      p.op? = some o → Spells rest text → Spells (.op o rest) (p :: text)
  | loop {body rest : Code} {inner text : List Primitive} :
      Spells body inner → Spells rest text →
      Spells (.loop body rest) (.opening :: inner ++ .closing :: text)

end Code

namespace Draft

open Code

theorem pushOp_equiv (level : Code) (o : Op) :
    Equivalent (pushOp level o).reverse (level.reverse ++ ofOp o) := by
  cases level with
  | nil => exact .refl _
  | loop body before =>
      show Equivalent (Code.op o (.loop body before)).reverse _
      rw [reverse_op]
      exact .refl _
  | op last before =>
      rw [pushOp]
      cases merges : last.merge o with
      | none =>
          rw [reverse_op]
          exact .refl _
      | some merged =>
          rw [reverse_op, reverse_op, append_assoc]
          exact (Equivalent.refl before.reverse).append (equiv_merge merges).symm

theorem pushLoop_equiv (level body : Code) :
    Equivalent (pushLoop level body).reverse (level.reverse ++ ofLoop body) := by
  unfold pushLoop
  split
  next clears =>
    split
    next before =>
      -- a second clearing adds nothing to the first
      rw [reverse_op, append_assoc]
      refine (Equivalent.refl before.reverse).append ?_
      exact equiv_clear_clear.symm.trans ((Equivalent.refl _).append (equiv_clearing clears).symm)
    next =>
      rw [reverse_op]
      exact (Equivalent.refl level.reverse).append (equiv_clearing clears).symm
  next =>
    rw [reverse_loop]
    exact .refl _

/-- Puts code behind a level that is held last item first, item by item as they are read. -/
def pushCode (level : Code) : Code → Code
  | .nil => level
  | .op head rest => pushCode (pushOp level head) rest
  | .loop body rest => pushCode (pushLoop level (pushCode .nil body).reverse) rest

theorem pushCode_equiv (level code : Code) :
    Equivalent (pushCode level code).reverse (level.reverse ++ code) := by
  induction code generalizing level with
  | nil =>
      rw [append_nil]
      exact .refl _
  | op head rest ih =>
      have pushed := (pushOp_equiv level head).append (Equivalent.refl rest)
      rw [append_assoc] at pushed
      exact (ih _).trans pushed
  | loop body rest ihBody ihRest =>
      have later := Equivalent.refl rest
      have pushed := (pushLoop_equiv level (pushCode .nil body).reverse).append later
      have inner := (Equivalent.refl level.reverse).append ((ihBody .nil).ofLoop.append later)
      rw [append_assoc] at pushed
      exact (ihRest _).trans (pushed.trans inner)

end Draft

namespace Code

/-- Code as it comes out of reading its text. -/
def coalesce (code : Code) : Code := (Draft.pushCode .nil code).reverse

theorem coalesce_equiv (code : Code) : Equivalent code.coalesce code :=
  Draft.pushCode_equiv .nil code

end Code

/-! ## The text of plain code -/

namespace Draft

open Code

theorem step_op {p : Primitive} {o : Op} (stands : p.op? = some o) (draft : Draft)
    (position : Nat) : draft.step position p = .ok (draft.put o) := by
  cases p <;> cases stands <;> rfl

/-- Reading the text of plain code pushes the code onto the current level. -/
theorem read_spells {code : Code} {text : List Primitive} (spelled : Spells code text)
    (current : Code) (outer : List (Nat × Code)) (position : Nat) (rest : List Primitive) :
    read ⟨current, outer⟩ position (text ++ rest) =
      read ⟨pushCode current code, outer⟩ (position + text.length) rest := by
  induction spelled generalizing current outer position rest with
  | nil => rfl
  | op stands _ ih =>
      rw [List.cons_append, read, step_op stands]
      show read ⟨pushOp current _, outer⟩ (position + 1) _ = _
      rw [ih, List.length_cons, Nat.add_assoc, Nat.add_comm 1]
      rfl
  | @loop body rest' inner text _ _ ihBody ihRest =>
      have opened : read ⟨current, outer⟩ position
          (.opening :: inner ++ .closing :: text ++ rest) =
            read ⟨.nil, (position, current) :: outer⟩ (position + 1)
              (inner ++ (.closing :: (text ++ rest))) := by
        simp only [List.cons_append, List.append_assoc]
        rfl
      rw [opened, ihBody]
      show read ⟨pushLoop current (pushCode .nil body).reverse, outer⟩ _ (text ++ rest) = _
      rw [ihRest]
      simp only [List.length_cons, List.length_append]
      congr 1
      omega

/-- What can follow a draft with some open levels: text up to the end of each of them. -/
def Closes : Nat → List Primitive → Prop
  | 0, text => ∃ code, Spells code text
  | depth + 1, text =>
      ∃ code inner rest, text = inner ++ .closing :: rest ∧ Spells code inner ∧ Closes depth rest

theorem Closes.prepend (front : List Primitive) (item : Code → Code)
    (spells : ∀ {code text}, Spells code text → Spells (item code) (front ++ text)) {depth : Nat}
    {text : List Primitive} (closes : Closes depth text) : Closes depth (front ++ text) := by
  cases depth with
  | zero =>
      obtain ⟨code, spelled⟩ := closes
      exact ⟨item code, spells spelled⟩
  | succ depth =>
      obtain ⟨code, inner, rest, rfl, spelled, closes⟩ := closes
      have split := (List.append_assoc front inner (.closing :: rest)).symm
      exact ⟨item code, front ++ inner, rest, split, spells spelled, closes⟩

theorem closes_of_read {draft : Draft} {position : Nat} {text : List Primitive} {code : Code}
    (done : draft.read position text = .ok code) : Closes draft.outer.length text := by
  induction text generalizing draft position with
  | nil =>
      rw [read, finish] at done
      split at done
      next empty =>
        rw [List.getLast?_eq_none_iff.1 empty]
        exact ⟨.nil, .nil⟩
      next => cases done
  | cons p rest ih =>
      rw [read] at done
      cases p with
      | opening =>
          obtain ⟨body, inner, after, rfl, spelled, closes⟩ := ih done
          have front : ∀ {code text}, Spells code text →
              Spells (Code.loop body code) ((.opening :: inner ++ [.closing]) ++ text) := by
            intro code text later
            rw [List.append_assoc]
            exact Spells.loop spelled later
          have whole := closes.prepend (.opening :: inner ++ [.closing]) (Code.loop body) front
          rwa [List.append_assoc] at whole
      | closing =>
          rw [step] at done
          cases levels : draft.outer with
          | nil =>
              rw [levels] at done
              cases done
          | cons level outer =>
              rw [levels] at done
              exact ⟨.nil, [], rest, rfl, .nil, ih done⟩
      | _ => exact (ih done).prepend [_] _ (Spells.op rfl)

end Draft

namespace Code

theorem ofPrimitives_eq_coalesce {code : Code} {text : List Primitive}
    (spelled : Spells code text) : ofPrimitives text = .ok code.coalesce := by
  have done := Draft.read_spells spelled .nil [] 0 []
  rwa [List.append_nil] at done

theorem exists_spells {text : List Primitive} {code : Code} (done : ofPrimitives text = .ok code) :
    ∃ plain, Spells plain text :=
  Draft.closes_of_read done

/-- What is read is plain code, coalesced. -/
theorem exists_coalesce {text : String} {code : Code} (read : ofText text = .ok code) :
    ∃ plain, Spells plain (Primitive.ofText text) ∧ code = plain.coalesce := by
  obtain ⟨plain, spelled⟩ := exists_spells read
  exact ⟨plain, spelled, Except.ok.inj (read.symm.trans (ofPrimitives_eq_coalesce spelled))⟩

end Code

end ByteTape
