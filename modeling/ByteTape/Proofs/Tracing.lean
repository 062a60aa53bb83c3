import ByteTape.Layout.Lowering
import ByteTape.Proofs.Lending

/-!
# Tracing

A layout can record what happens to it. No action of lowering looks at the record, so an action can
be studied on layouts that record nothing.

* `Blind`: an action does the same on a layout that records nothing, but for the record.
* `blind_lower`: lowering is blind, for every block.
* `compile_indifferent`: compiling is blind and forgets what the layout was before.
-/

namespace ByteTape.Layout

/-- The layout without its record. -/
def untraced (layout : Layout) : Layout := { layout with tracing := false, trace := #[] }

def Outcome.untraced {α : Type} : Outcome α → Outcome α
  | .ok value layout => .ok value layout.untraced
  | .error fault layout => .error fault layout.untraced

/-- An action that does not look at the record. -/
def Blind {α : Type} (action : Action α) : Prop :=
  ∀ layout : Layout, action layout.untraced = Outcome.untraced (action layout)

/-! ## Actions one after another -/

theorem bind_ok {α β : Type} {action : Action α} {next : α → Action β} {layout after : Layout}
    {value : α} (done : action layout = .ok value after) :
    (action >>= next) layout = next value after := by
  show EStateM.bind action next layout = _
  rw [EStateM.bind, done]

theorem bind_error {α β : Type} {action : Action α} {next : α → Action β} {layout after : Layout}
    {fault : Fault} (failed : action layout = .error fault after) :
    (action >>= next) layout = .error fault after := by
  show EStateM.bind action next layout = _
  rw [EStateM.bind, failed]

theorem blind_pure {α : Type} (value : α) : Blind (pure value) := fun _ => rfl

theorem blind_throw {α : Type} (fault : Fault) : Blind (throw fault : Action α) := fun _ => rfl

theorem Blind.bind {α β : Type} {action : Action α} {next : α → Action β} (first : Blind action)
    (second : ∀ value, Blind (next value)) : Blind (action >>= next) := by
  intro layout
  have same := first layout
  cases outcome : action layout with
  | ok value after =>
      rw [outcome] at same
      rw [bind_ok outcome, bind_ok same]
      exact second value after
  | error fault after =>
      rw [outcome] at same
      rw [bind_error outcome, bind_error same]
      rfl

theorem blind_get_bind {α : Type} {next : Layout → Action α}
    (overlooks : ∀ layout, next (untraced layout) = next layout)
    (blind : ∀ layout, Blind (next layout)) :
    Blind (get >>= next) := by
  intro layout
  show next layout.untraced layout.untraced = Outcome.untraced (next layout layout)
  rw [overlooks]
  exact blind layout layout

theorem untraced_note (layout : Layout) (event : Event) :
    (layout.note event).untraced = layout.untraced := by
  unfold note
  split
  · rfl
  · rfl

theorem blind_note (event : Layout → Event) :
    Blind (modify fun layout => layout.note (event layout)) := by
  intro layout
  show EStateM.Result.ok () layout.untraced = .ok () (layout.note (event layout)).untraced
  rw [untraced_note]

/-! ## The actions of lowering -/

theorem blind_allocate : Blind allocate := by
  intro layout
  have free : layout.untraced.free = layout.free := rfl
  cases found : layout.free.min? with
  | some cell =>
      simp only [allocate, free, found, Outcome.untraced, untraced_note]
      rfl
  | none =>
      have next : layout.untraced.next = layout.next := rfl
      have used : layout.untraced.used = layout.used := rfl
      by_cases taken : layout.next ∈ layout.used
      · simp only [allocate, free, found, next, used, if_pos taken, Outcome.untraced]
      · simp only [allocate, free, found, next, used, if_neg taken, Outcome.untraced, untraced_note]
        rfl

theorem blind_release (cell : Int) : Blind (release cell) := by
  intro layout
  unfold release
  show (if cell ∈ layout.free then _ else _) = _
  by_cases twice : cell ∈ layout.free
  · simp only [if_pos twice]
    rfl
  · simp only [if_neg twice, Outcome.untraced, untraced_note]
    rfl

theorem blind_moveTo (cell : Int) : Blind (moveTo cell) := fun _ => rfl

theorem blind_approach (cell : Int) : Blind (approach cell) := by
  refine (blind_moveTo cell).bind fun move => ?_
  cases move with
  | none => exact blind_pure _
  | some move => exact blind_pure _

theorem blind_opAt (cell : Int) (o : Op) : Blind (opAt cell o) :=
  (blind_approach cell).bind fun _ => blind_pure _

theorem blind_withLoop {body : Action Code} (blind : Blind body) : Blind (withLoop body) := by
  refine blind_get_bind (fun _ => rfl) fun start => ?_
  refine (blind_note fun _ => .enter start.pointer).bind fun _ => ?_
  refine blind.bind fun code => ?_
  refine blind_get_bind (fun _ => rfl) fun finish => ?_
  show Blind (if finish.pointer = start.pointer then _ else _)
  split
  · exact (blind_note fun _ => .leave start.pointer).bind fun _ => blind_pure _
  · exact blind_throw _

theorem blind_requireUsed (cell : Int) : Blind (requireUsed cell) := by
  refine blind_get_bind (fun _ => rfl) fun layout => ?_
  split
  · exact blind_pure _
  · exact blind_throw _

theorem blind_requireDistinct (dest operand : Int) : Blind (requireDistinct dest operand) := by
  unfold requireDistinct
  split
  · exact blind_throw _
  · exact blind_pure _

theorem blind_requireTemporary : Blind requireTemporary := by
  refine blind_get_bind (fun _ => rfl) fun layout => ?_
  split
  · exact blind_pure _
  · exact blind_throw _

theorem blind_tell (event : Event) : Blind (tell event) := by
  intro layout
  unfold tell
  split
  · rw [Outcome.untraced, untraced_note]
    rfl
  · rfl

theorem blind_drain (source target temp : Int) (o : Op) : Blind (drain source target temp o) :=
  blind_withLoop <| (blind_opAt target o).bind fun _ =>
    (blind_opAt temp _).bind fun _ => (blind_opAt source _).bind fun _ => blind_pure _

theorem blind_restore (source temp : Int) : Blind (restore source temp) :=
  blind_withLoop <| (blind_opAt source _).bind fun _ =>
    (blind_opAt temp _).bind fun _ => blind_pure _

theorem blind_transfer (source target : Int) (o : Op) (clearing : Bool) :
    Blind (transfer source target o clearing) := by
  have later : ∀ (temp : Int) (before : Code), Blind (do
      let toSource ← approach source
      let draining ← drain source target temp o
      let toTemp ← approach temp
      let restoring ← restore source temp
      release temp
      return before ++ toSource ++ draining ++ toTemp ++ restoring) := fun temp before =>
    (blind_approach source).bind fun _ => (blind_drain source target temp o).bind fun _ =>
      (blind_approach temp).bind fun _ => (blind_restore source temp).bind fun _ =>
        (blind_release temp).bind fun _ => blind_pure _
  refine blind_allocate.bind fun temp => (blind_opAt temp .clear).bind fun clearTemp => ?_
  cases clearing with
  | false =>
      exact (blind_pure Code.nil).bind fun clearTarget => later temp (clearTemp ++ clearTarget)
  | true =>
      exact (blind_opAt target .clear).bind fun clearTarget => later temp (clearTemp ++ clearTarget)

theorem blind_lowerCommand (command : Command) : Blind (lowerCommand command) := by
  cases command with
  | set cell value =>
      refine (blind_requireUsed cell).bind fun _ => ?_
      split
      · exact blind_opAt _ _
      · exact blind_throw _
  | copy dest source =>
      exact (blind_requireUsed dest).bind fun _ => (blind_requireUsed source).bind fun _ =>
        (blind_requireDistinct dest source).bind fun _ =>
          blind_requireTemporary.bind fun _ => blind_transfer _ _ _ _
  | add dest operand =>
      exact (blind_requireUsed dest).bind fun _ => (blind_requireUsed operand).bind fun _ =>
        (blind_requireDistinct dest operand).bind fun _ =>
          blind_requireTemporary.bind fun _ => blind_transfer _ _ _ _
  | sub dest operand =>
      exact (blind_requireUsed dest).bind fun _ => (blind_requireUsed operand).bind fun _ =>
        (blind_requireDistinct dest operand).bind fun _ =>
          blind_requireTemporary.bind fun _ => blind_transfer _ _ _ _
  | print cell => exact (blind_requireUsed cell).bind fun _ => blind_opAt _ _
  | input cell => exact (blind_requireUsed cell).bind fun _ => blind_opAt _ _
  | unknown name => exact blind_throw _

theorem blind_lower (block : Block) : Blind (lower block) := by
  induction block with
  | nil => exact blind_pure _
  | command head rest ih =>
      exact blind_get_bind (fun _ => rfl) fun _ => (blind_tell _).bind fun _ =>
        (blind_lowerCommand head).bind fun _ => ih.bind fun _ => blind_pure _
  | loop cell body rest ihBody ihRest =>
      have inner : Blind (do
          let inner ← lower body
          let back ← approach cell
          return inner ++ back) :=
        ihBody.bind fun _ => (blind_approach cell).bind fun _ => blind_pure _
      exact blind_get_bind (fun _ => rfl) fun _ => (blind_tell _).bind fun _ =>
        (blind_requireUsed cell).bind fun _ => (blind_approach cell).bind fun _ =>
          (blind_withLoop inner).bind fun _ => ihRest.bind fun _ => blind_pure _

/-! ## Compiling -/

theorem untraced_foldl_markUsed (cells : List Int) (layout : Layout) :
    (cells.foldl markUsed layout).untraced = cells.foldl markUsed layout.untraced := by
  induction cells generalizing layout with
  | nil => rfl
  | cons head tail ih => exact ih (layout.markUsed head)

theorem untraced_markTargets (layout : Layout) (block : Block) :
    (layout.markTargets block).untraced = layout.untraced.markTargets block := by
  induction block generalizing layout with
  | nil => rfl
  | command head rest ih =>
      cases head with
      | set cell value => exact ih (layout.markUsed cell)
      | input cell => exact ih (layout.markUsed cell)
      | _ => exact ih layout
  | loop cell body rest ihBody ihRest =>
      rw [markTargets, markTargets, ihRest, ihBody]
      rfl

theorem untraced_markOperands (layout : Layout) (block : Block) :
    (layout.markOperands block).untraced = layout.untraced.markOperands block := by
  induction block generalizing layout with
  | nil => rfl
  | command head rest ih => rw [markOperands, markOperands, ih, untraced_foldl_markUsed]
  | loop cell body rest ihBody ihRest =>
      rw [markOperands, markOperands, ihRest, ihBody]
      rfl

theorem blind_reset : Blind (modify reset) := fun _ => rfl

theorem blind_reserve (block : Block) : Blind (modify (·.reserve block)) := by
  intro layout
  show EStateM.Result.ok () (layout.untraced.reserve block) = .ok () (layout.reserve block).untraced
  rw [reserve, reserve, untraced_markOperands, untraced_markTargets]

theorem blind_compile (stack : Stack Block.nesting) (block : Block) :
    Blind (compile stack block) := by
  refine blind_reset.bind fun _ => ?_
  split
  · exact (blind_reserve block).bind fun _ => blind_lower block
  · exact blind_throw _

/-- Compiling starts over, so all that it keeps of a layout is whether it is traced. -/
theorem compile_fresh (stack : Stack Block.nesting) (block : Block) (layout : Layout) :
    Outcome.untraced (compile stack block layout) = compile stack block {} :=
  (blind_compile stack block { tracing := layout.tracing }).symm

/-- Two layouts that differ at most in what is recorded. -/
structure SameCells (first second : Layout) : Prop where
  pointer : first.pointer = second.pointer
  used : first.used = second.used
  free : first.free = second.free
  next : first.next = second.next

theorem sameCells_untraced (layout : Layout) : SameCells layout layout.untraced where
  pointer := rfl
  used := rfl
  free := rfl
  next := rfl

/-- Whatever a layout was before and whether it is traced, compiling a block on it gives the code,
or stops with the fault, that it gives on a fresh layout without tracing, and the cells are left in
the same way. Without tracing nothing is recorded, and what was recorded before is gone. -/
theorem compile_indifferent (stack : Stack Block.nesting) (block : Block) (layout : Layout) :
    ((∃ code after fresh, compile stack block layout = .ok code after ∧
        compile stack block {} = .ok code fresh ∧ SameCells after fresh) ∨
      ∃ fault after fresh, compile stack block layout = .error fault after ∧
        compile stack block {} = .error fault fresh ∧ SameCells after fresh) ∧
    (layout.tracing = false → (Outcome.layout (compile stack block layout)).trace = #[]) := by
  have same := compile_fresh stack block layout
  constructor
  · cases outcome : compile stack block layout with
    | ok code after =>
        rw [outcome] at same
        exact .inl ⟨code, after, after.untraced, rfl, same.symm, sameCells_untraced after⟩
    | error fault after =>
        rw [outcome] at same
        exact .inr ⟨fault, after, after.untraced, rfl, same.symm, sameCells_untraced after⟩
  · intro untraced
    have silent : compile stack block layout = compile stack block {} := by
      show compile stack block { tracing := layout.tracing } = _
      rw [untraced]
    rw [silent, ← same]
    cases compile stack block layout with
    | ok code after => rfl
    | error fault after => rfl

/-- A layout with a history, and a block that fails in the body of a loop, behind a transfer. -/
theorem compile_indifferent_failing :
    let stack : Stack Block.nesting := .endless 0
    let block : Block := .loop 0 (.command (.copy 1 0) (.command (.set 1 300) .nil)) .nil
    let layout : Layout :=
      { pointer := 7, used := .ofList [2], free := .ofList [2, 5], next := -3,
        trace := #[.remark "earlier"] }
    layout.tracing = false ∧ (Outcome.layout (compile stack block layout)).trace = #[] ∧
    ∃ after fresh, compile stack block layout = .error (.constant 300) after ∧
      compile stack block {} = .error (.constant 300) fresh ∧ SameCells after fresh := by
  intro stack block layout
  obtain ⟨same, silent⟩ := compile_indifferent stack block layout
  have fails : (match compile stack block {} with
      | .error fault _ => decide (fault = .constant 300)
      | .ok _ _ => false) = true := by decide +kernel
  refine ⟨rfl, silent rfl, ?_⟩
  rcases same with ⟨code, after, fresh, -, compiled, -⟩ |
    ⟨fault, after, fresh, failed, failed', cells⟩
  · rw [compiled] at fails
    cases fails
  · rw [failed'] at fails
    obtain rfl := of_decide_eq_true fails
    exact ⟨after, fresh, failed, failed', cells⟩

end ByteTape.Layout
