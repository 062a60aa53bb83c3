import ByteTape.Proofs.Safety
import ByteTape.Proofs.Scratch
import ByteTape.Proofs.Tables

/-!
# Cell usage

A compiled block takes the cells that it names and, if it has a transfer anywhere, one more: the
cell behind them, which all its transfers share. The parser leaves no gaps between the cells of
names, so a program takes as many cells as it has variables, and one more for its transfers.

* `lent_compile`: every temporary cell that is handed out while a block is compiled is the one
  behind its cells.
* `State.Covers`: the cells that names have been given turn up in what was parsed so far;
  `Taken.covers`: every step keeps it so.
* `top_eq_of_parse`: the cells of a parsed block are those from zero on, one for each name.
* `cells_used`: what is taken after compiling, and how many cells a program uses.
-/

namespace ByteTape

/-! ## What compiling hands out -/

namespace Layout

theorem trace_foldl_markUsed (cells : List Int) (layout : Layout) :
    (cells.foldl markUsed layout).trace = layout.trace ∧
      (cells.foldl markUsed layout).tracing = layout.tracing := by
  induction cells generalizing layout with
  | nil => exact ⟨rfl, rfl⟩
  | cons head tail ih => exact ih (layout.markUsed head)

/-- The layout that lowering starts from. -/
theorem temporary_reserve_reset (layout : Layout) (block : Block) :
    (layout.reset.reserve block).temporary = block.top := by
  have planned := reserve_reset layout block
  have free : (layout.reset.reserve block).free = ∅ := congrArg Layout.free planned
  have next : (layout.reset.reserve block).next = block.top := congrArg Layout.next planned
  rw [temporary, free, next]
  rfl

theorem lent_compile {stack : Stack Block.nesting} {block : Block} {layout final : Layout}
    {code : Code} (traced : layout.tracing = true)
    (done : compile stack block layout = .ok code final) :
    final.lent = List.replicate (block.commands.countP Command.transfers) block.top := by
  have reserved : (layout.reset.reserve block).lent = [] ∧
      (layout.reset.reserve block).tracing = true := by
    rw [reserve_eq, lent, (trace_foldl_markUsed _ _).1, (trace_foldl_markUsed _ _).2]
    exact ⟨rfl, traced⟩
  have lowers := lower_lowers block (layout.reset.reserve block)
  rw [← compile_eq_lower (compile_ok_iff.1 ⟨code, final, done⟩).1 layout, done] at lowers
  cases lowers with
  | done _ sequel =>
      rw [sequel.lent reserved.2, reserved.1, temporary_reserve_reset, List.nil_append]

end Layout

/-! ## What parsing covers -/

theorem Block.mem_cells_reverseOnto {block tail : Block} {cell : Int} :
    cell ∈ (block.reverseOnto tail).cells ↔ cell ∈ block.cells ∨ cell ∈ tail.cells := by
  induction block generalizing tail with
  | nil => simp [reverseOnto, cells]
  | command head rest ih =>
      simp only [reverseOnto, ih, cells, List.mem_append]
      exact or_left_comm.trans or_assoc.symm
  | loop other body rest _ ih =>
      simp only [reverseOnto, ih, cells, List.mem_append]
      exact or_left_comm.trans or_assoc.symm

theorem Block.mem_cells_reverse {block : Block} {cell : Int} :
    cell ∈ block.reverse.cells ↔ cell ∈ block.cells :=
  mem_cells_reverseOnto.trans (or_iff_left List.not_mem_nil)

namespace Program

/-- The only cell that looking a name up can add is the one of the name. -/
theorem Names.lt_next_cell {names : Names} {name : String} {place : Nat}
    (below : place < (names.cell name).2.next) :
    place < names.next ∨ place = (names.cell name).1 := by
  unfold Names.cell at below ⊢
  cases found : names.find? name with
  | some known =>
      rw [found] at below
      exact .inl below
  | none =>
      rw [found] at below
      exact Nat.lt_succ_iff_lt_or_eq.1 below

namespace Parser

/-- The cells of a statement that is not complete. -/
def Stage.cells : Stage → List Int
  | .operator _ cell => [(cell : Int)]
  | .addend _ cell => [(cell : Int)]
  | .subtrahend _ cell => [(cell : Int)]
  | .operand _ cell => [(cell : Int)]
  | .commandEnd command => command.cells
  | _ => []

/-- All cells of a state: those of the statement under way and of the blocks that are open. -/
def State.cells (s : State) : List Int :=
  s.stage.cells ++ s.block.cells ++ s.outer.flatMap fun level => level.2.cells

/-- Every cell that a name has been given from `first` on turns up in the state. -/
def State.Covers (first : Nat) (s : State) : Prop :=
  ∀ place, first ≤ place → place < s.names.next → (place : Int) ∈ s.cells

namespace State.Covers

variable {first : Nat} {s next : State}

theorem keep (covers : s.Covers first) (names : next.names = s.names)
    (kept : s.cells ⊆ next.cells) : next.Covers first := by
  intro place new below
  rw [names] at below
  exact kept (covers place new below)

theorem add (covers : s.Covers first) {name : String} (names : next.names = (s.names.cell name).2)
    (kept : s.cells ⊆ next.cells) (added : ((s.names.cell name).1 : Int) ∈ next.cells) :
    next.Covers first := by
  intro place new below
  rw [names] at below
  rcases Names.lt_next_cell below with below | rfl
  · exact kept (covers place new below)
  · exact added

/-- An operand joins the left side, unless it is refused. -/
theorem takeOperand (covers : s.Covers first) {dest : String} {cell : Nat} {make : Int → Command}
    (stage : s.stage.cells = [(cell : Int)])
    (makes : ∀ operand, (make operand).cells = [(cell : Int), operand]) (name : String) :
    (∃ name', (s.takeOperand dest make name).stage = .repeated name') ∨
      (s.takeOperand dest make name).Covers first := by
  by_cases same : name = dest
  · exact .inl ⟨name, congrArg State.stage (if_pos same)⟩
  · have taken : s.takeOperand dest make name =
        { s with
          stage := .commandEnd (make (s.names.cell name).1), names := (s.names.cell name).2 } :=
      if_neg same
    have cells : (s.takeOperand dest make name).cells = (cell : Int) :: (s.names.cell name).1 ::
        (s.block.cells ++ s.outer.flatMap fun level => level.2.cells) := by
      rw [taken, State.cells, Stage.cells, makes]
      rfl
    refine .inr (covers.add (congrArg State.names taken) ?_ ?_)
    · rw [cells, State.cells, stage]
      exact List.cons_subset_cons _ (List.subset_cons_self _ _)
    · rw [cells]
      exact .tail _ (.head _)

end State.Covers

/-- Every step keeps the cells of names covered, but for an operand that will be refused. -/
theorem Taken.covers {first : Nat} {s next : State} {symbol : Symbol} (taken : Taken s symbol next)
    (covers : s.Covers first) : (∃ name, next.stage = .repeated name) ∨ next.Covers first := by
  have cells : s.cells = s.stage.cells ++ s.block.cells ++
    s.outer.flatMap fun level => level.2.cells := rfl
  cases taken with
  | addend name stage => exact covers.takeOperand (by rw [stage]; rfl) (fun _ => rfl) name
  | subtrahend name stage => exact covers.takeOperand (by rw [stage]; rfl) (fun _ => rfl) name
  | operand name stage => exact covers.takeOperand (by rw [stage]; rfl) (fun _ => rfl) name
  | dest name stage =>
      rw [stage] at cells
      exact .inr (covers.add rfl (cells ▸ List.subset_cons_self _ _) (.head _))
  | printEnd stage =>
      rw [stage] at cells
      exact .inr (covers.add rfl (cells ▸ List.subset_cons_self _ _) (.head _))
  | inputEnd stage =>
      rw [stage] at cells
      exact .inr (covers.add rfl (cells ▸ List.subset_cons_self _ _) (.head _))
  | @close name before outer stage levels =>
      rw [stage, levels] at cells
      refine .inr (covers.add rfl (fun cell member => .tail _ ?_) (.head _))
      rw [cells] at member
      rcases List.mem_append.1 member with inside | around
      · have inside := Block.mem_cells_reverse.2 inside
        exact List.mem_append_left _ (List.mem_append_left _ inside)
      · rcases List.mem_append.1 around with behind | around
        · exact List.mem_append_left _ (List.mem_append_right _ behind)
        · exact List.mem_append_right _ around
  | print stage | input stage | loop stage | printName _ stage | inputName _ stage
  | addAssign stage | subAssign stage | assign stage | number stage | commandEnd stage
  | whileName _ stage | whileTest stage | whileZero stage | whileBrace stage =>
      rw [stage] at cells
      exact .inr (covers.keep rfl (cells ▸ List.Subset.refl _))

theorem Taken.not_repeated {s next : State} {symbol : Symbol} (taken : Taken s symbol next)
    (name : String) : s.stage ≠ .repeated name := by
  intro repeated
  cases taken with
  | print stage | input stage | loop stage | dest _ stage | close stage _ | printName _ stage
  | printEnd stage | inputName _ stage | inputEnd stage | addAssign stage | subAssign stage
  | assign stage | addend _ stage | subtrahend _ stage | operand _ stage | number stage _ _
  | commandEnd stage | whileName _ stage | whileTest stage | whileZero stage | whileBrace stage =>
      cases repeated.symm.trans stage

end Parser

/-- Every cell that a parse gives to a name is a cell of the block. -/
theorem mem_cells_of_parse {source : String} {earlier names : Names} {block : Block}
    (parsed : parse source earlier = (.ok block, names)) {place : Nat} (new : earlier.next ≤ place)
    (below : place < names.next) : (place : Int) ∈ block.cells := by
  have start : Parser.State.Covers earlier.next { names := earlier } :=
    fun _ new below => absurd below (Nat.not_lt.2 new)
  obtain ⟨final, covers, stage, outer, rfl, rfl⟩ := Parser.run_ok
    (fun s => (∃ name, s.stage = .repeated name) ∨ s.Covers earlier.next)
    (fun taken before => by
      rcases before with ⟨name, repeated⟩ | covers
      · exact absurd repeated (taken.not_repeated name)
      · exact taken.covers covers)
    parsed (.inr start)
  rcases covers with ⟨name, repeated⟩ | covers
  · cases stage.symm.trans repeated
  · have member := covers place new below
    rw [Parser.State.cells, stage, outer, List.flatMap_nil, List.append_nil] at member
    exact Block.mem_cells_reverse.2 member

/-- The cells of a parsed program are those from zero on, one for each name. -/
theorem top_eq_of_parse {source : String} {names : Names} {block : Block}
    (parsed : parse source {} = (.ok block, names)) : block.top = names.entries.length := by
  obtain ⟨orderly, proper⟩ := parse_proper Names.orderly_empty parsed
  rw [orderly.length_entries]
  refine Int.le_antisymm (proper.top_le orderly) (Int.le_of_sub_one_lt (Layout.lt_foldl_max ?_))
  cases last : names.next with
  | zero => exact .inl (by decide)
  | succ place =>
      right
      rw [Int.natCast_succ, Int.add_sub_cancel]
      exact mem_cells_of_parse parsed (Nat.zero_le place) (last ▸ Nat.lt_succ_self place)

end Program

/-! ## Compiled programs -/

/-- A block takes the cells that it names, and one temporary cell behind them if it has a transfer;
every transfer is handed that one. A program thus uses one cell for each variable, and one more if
it has a transfer. -/
theorem cells_used :
    (∀ stack block layout code final, Layout.compile stack block layout = .ok code final →
      final.used = (if block.transfers then (CellSet.ofList block.cells).insert block.top
        else CellSet.ofList block.cells) ∧
      final.free = (if block.transfers then CellSet.insert block.top ∅ else ∅) ∧
      final.next = (if block.transfers then block.top + 1 else block.top) ∧
      ∃ watched, Layout.compile stack block { layout with tracing := true } = .ok code watched ∧
        watched.lent = List.replicate (block.commands.countP Command.transfers) block.top) ∧
    ∀ host source tracing compilation,
      Compilation.ofSource host source tracing = .ok compilation →
      ∃ block, Program.parse source {} = (.ok block, compilation.names) ∧
        compilation.cellsUsed =
          compilation.names.entries.length + if block.transfers then 1 else 0 := by
  constructor
  · intro stack block layout code final done
    obtain ⟨holds, clear⟩ := Layout.compile_ok_iff.1 ⟨code, final, done⟩
    obtain ⟨_, done', planned⟩ := Layout.compile_ok holds clear layout
    obtain ⟨rfl, rfl⟩ := EStateM.Result.ok.inj (done.symm.trans done')
    obtain ⟨watched, traced, _⟩ := Layout.compile_ok holds clear { layout with tracing := true }
    refine ⟨(Layout.compiled done).used, ?_, (Layout.compiled done).next, watched, traced,
      Layout.lent_compile rfl traced⟩
    exact congrArg Layout.free planned
  · intro host source tracing compilation compiled
    obtain ⟨block, layout, parsed, done, used⟩ := Compilation.exists_block compiled
    refine ⟨block, parsed, ?_⟩
    rw [used, (Layout.compiled done).next, Program.top_eq_of_parse parsed]
    split
    · rfl
    · exact (Int.add_zero _).symm

/-- Behind negative cells the temporary cell is zero, and in a loop it is handed out once for each
transfer. -/
theorem cells_used_negative :
    (∃ code final watched,
      let block : Block :=
        .loop (-3) (.command (.copy (-1) (-3)) (.command (.sub (-3) (-1)) .nil)) .nil
      Layout.compile (.endless 0) block { next := 7 } = .ok code final ∧
        final.used = CellSet.ofList [-3, -1, 0] ∧ final.free = CellSet.ofList [0] ∧
        final.next = 1 ∧
        Layout.compile (.endless 0) block { next := 7, tracing := true } = .ok code watched ∧
        watched.lent = [0, 0]) ∧
    ∃ compilation,
      Compilation.ofSource .ample "while n!=0\x7bk=n;n-=k;\x7d" false = .ok compilation ∧
      compilation.cellsUsed = 3 := by
  constructor
  · let block : Block :=
      .loop (-3) (.command (.copy (-1) (-3)) (.command (.sub (-3) (-1)) .nil)) .nil
    have clear : block.stop? block.top = none := by decide
    obtain ⟨final, done, _⟩ := @Layout.compile_ok (.endless 0) block rfl clear { next := 7 }
    obtain ⟨used, free, next, watched, traced, lent⟩ := cells_used.1 _ _ _ _ _ done
    exact ⟨_, final, watched, done, used, free, next, traced, lent⟩
  · have tokens : Program.tokens "while n!=0\x7bk=n;n-=k;\x7d".toList =
        ["while", "n", "!=", "0", "\x7b", "k", "=", "n", ";", "n", "-=", "k", ";", "\x7d"].map
          fun text => ⟨text, 1⟩ := by
      decide +kernel
    obtain ⟨block, same⟩ : ∃ block : Block, block =
        .loop 1 (.command (.copy 0 1) (.command (.sub 1 0) .nil)) .nil := ⟨_, rfl⟩
    have parsed : Program.parse "while n!=0\x7bk=n;n-=k;\x7d" {} =
        (.ok block, ⟨[("k", 0), ("n", 1)], 2⟩) := by
      rw [Program.parse, tokens, same]
      rfl
    have clear : block.stop? block.top = none := by
      rw [same]
      rfl
    obtain ⟨final, lowered, _⟩ := @Layout.compile_ok Host.ample.lowering block rfl clear {}
    have compiled : ∃ compilation,
        Compilation.ofSource .ample "while n!=0\x7bk=n;n-=k;\x7d" false = .ok compilation := by
      rw [Compilation.ofSource, parsed]
      simp only [lowered]
      exact ⟨_, rfl⟩
    obtain ⟨compilation, done⟩ := compiled
    obtain ⟨block', parsed', used⟩ := cells_used.2 _ _ _ _ done
    obtain ⟨block_eq, names⟩ := Prod.mk.inj (parsed.symm.trans parsed')
    refine ⟨compilation, done, ?_⟩
    rw [used, ← names, ← Except.ok.inj block_eq, same]
    rfl

end ByteTape
