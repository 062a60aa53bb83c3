import ByteTape.Proofs.Fragments
import ByteTape.Proofs.Naming

/-!
# Compiled code and its program

The code of a block does on a tape what the block does on a store. A machine mirrors a world when
its named cells hold the bytes of the store; the temporary cell may hold anything.

* `command_mirrors`: a command and its code go together.
* `Block.every_code`: what compiled code consists of.
* `gives_of_runs`, `runs_of_gives`: so do a block and its code, in both directions.
* `compile_simulates`: hence for what comes out of the compiler.
-/

namespace ByteTape

open Behaviour Bounded Code

/-- The world that a machine shows around its pointer. -/
def World.of (m : Machine) : World :=
  { toPort := m.toPort, store := fun cell => m.tape.get (m.tape.place cell) }

/-- A machine with the pointer at a cell, that holds a world in the named cells of a window. -/
structure Mirrors (window : Window) (named : CellSet) (cell : Int) (w : World) (m : Machine) :
    Prop where
  port : m.toPort = w.toPort
  reliable : w.source.Reliable
  shown : ∃ store, Store.Agree named store w.store ∧ window.Shows cell store m.tape

/-- A window that has room for a block with the given named cells and its temporary cell. -/
structure Window.Fits (window : Window) (named : CellSet) (temp : Int) (transfers : Bool) :
    Prop where
  holds : ∀ cell ∈ named, cell ∈ window.cells
  fresh : temp ∉ named
  room : transfers = true → temp ∈ window.cells

namespace Mirrors

variable {window : Window} {named : CellSet} {start : Int} {w : World} {m : Machine}

/-- Code that works on the tape alone. -/
theorem of_does {code : Code} {finish : Int} (mirrors : Mirrors window named start w m)
    (w' : World) (same : w'.toPort = w.toPort)
    (does : ∀ store : Store, Store.Agree named store w.store → ∃ after : Store,
      window.Does code start store finish after ∧ Store.Agree named after w'.store) :
    ∃ m', code.Gives m (.ok () m') ∧ Mirrors window named finish w' m' := by
  obtain ⟨store, agrees, shows⟩ := mirrors.shown
  obtain ⟨after, does, agreesAfter⟩ := does store agrees
  obtain ⟨tape, gives, shows⟩ := does m shows
  refine ⟨_, gives, mirrors.port.trans same.symm, ?_, after, agreesAfter, shows⟩
  rw [same]
  exact mirrors.reliable

theorem travel (mirrors : Mirrors window named start w m) (finish : Int) :
    ∃ m', (travel start finish).Gives m (.ok () m') ∧ Mirrors window named finish w m' :=
  mirrors.of_does w rfl fun store agrees => ⟨store, Window.does_travel start finish store, agrees⟩

theorem current {cell : Int} (mirrors : Mirrors window named cell w m)
    (inside : ∀ cell ∈ named, cell ∈ window.cells) (member : cell ∈ named) :
    m.tape.current = w.store cell := by
  obtain ⟨store, agrees, shows⟩ := mirrors.shown
  rw [shows.current (inside cell member), agrees cell member]

end Mirrors

/-! ## Commands -/

section Commands

variable {window : Window} {named : CellSet} {temp start : Int} {w : World} {m : Machine}

theorem put_agrees {store : Store} {cell : Int} {byte : UInt8}
    (agrees : Store.Agree named store w.store) :
    Store.Agree named (store.put cell byte) (w.put cell byte).store := by
  intro other member
  show store.put cell byte other = w.store.put cell byte other
  by_cases same : other = cell
  · subst same
    rw [Store.put_self, Store.put_self]
  · rw [Store.put_other same, Store.put_other same, agrees other member]

theorem transfer_mirrors (fits : window.Fits named temp true) {source target : Int}
    (inSource : source ∈ named) (inTarget : target ∈ named) (distinct : target ≠ source) {o : Op}
    {amount : UInt8} (edits : o.Edits (· + amount)) (clearing : Bool)
    (mirrors : Mirrors window named start w m) :
    ∃ m', (transferring temp start source target o clearing).Gives m (.ok () m') ∧
      Mirrors window named temp (w.put target
        ((if clearing then 0 else w.store target) + amount * w.store source)) m' := by
  have fromTemp : source ≠ temp := fun same => fits.fresh (same ▸ inSource)
  have targetTemp : target ≠ temp := fun same => fits.fresh (same ▸ inTarget)
  refine mirrors.of_does _ rfl fun store agrees => ⟨_, Window.does_transferring distinct.symm
    fromTemp targetTemp edits (fits.holds source inSource) (fits.holds target inTarget)
    (fits.room rfl) store start clearing, fun cell member => ?_⟩
  have notTemp : cell ≠ temp := fun same => fits.fresh (same ▸ member)
  rw [Window.transferred, Store.put_other notTemp, agrees source inSource, agrees target inTarget]
  exact put_agrees agrees cell member

theorem print_mirrors {cell : Int} (inside : ∀ cell ∈ named, cell ∈ window.cells)
    (member : cell ∈ named) (mirrors : Mirrors window named start w m) :
    ∃ m', (opFrom start cell .write).Gives m (.ok () m') ∧
      Mirrors window named cell { w with written := w.written.push (w.store cell) } m' := by
  obtain ⟨m', arrives, mirrors⟩ := mirrors.travel cell
  have current := mirrors.current inside member
  refine ⟨_, gives_append_ok.2 ⟨m', arrives, gives_ofOp.2 rfl⟩, ?_, mirrors.reliable,
    mirrors.shown⟩
  rw [current, mirrors.port]

theorem input_mirrors {cell : Int} (inside : ∀ cell ∈ named, cell ∈ window.cells)
    (member : cell ∈ named) (mirrors : Mirrors window named start w m) :
    ∃ w' m', World.perform (.input cell) w = some w' ∧
      (opFrom start cell .read).Gives m (.ok () m') ∧ Mirrors window named cell w' m' := by
  obtain ⟨m', arrives, mirrors⟩ := mirrors.travel cell
  obtain ⟨byte, port, found⟩ := w.toPort.exists_nextByte mirrors.reliable
  have taken : World.perform (.input cell) w = some ⟨port, w.store.put cell byte⟩ := by
    rw [World.perform, found]
  have read : Machine.perform .read m' = .ok () ⟨port, m'.tape.put byte⟩ := by
    rw [← mirrors.port] at found
    exact Machine.perform_read_ok found
  have reliable : port.source.Reliable := by
    have same := w.toPort.nextByte_keeps.1
    rw [found] at same
    intro i
    rw [same]
    exact mirrors.reliable i
  obtain ⟨store, agrees, shows⟩ := mirrors.shown
  exact ⟨_, _, taken, gives_append_ok.2 ⟨m', arrives, gives_ofOp.2 read.symm⟩, rfl, reliable,
    store.put cell byte, put_agrees agrees, shows.put (inside cell member) byte⟩

/-- A command that has code can be performed, and its code does the same. -/
theorem command_mirrors {command : Command} (fits : window.Fits named temp command.transfers)
    (reserved : ∀ cell ∈ command.cells, cell ∈ named) (fine : command.fault? = none)
    (mirrors : Mirrors window named start w m) :
    ∃ w' m', World.perform command w = some w' ∧ (command.code temp start).Gives m (.ok () m') ∧
      Mirrors window named (command.finish temp start) w' m' := by
  cases command with
  | set cell value =>
      have byte : 0 ≤ value ∧ value ≤ 255 := by simpa [Command.fault?] using fine
      have member := reserved cell (.head _)
      obtain ⟨m', gives, mirrors⟩ := mirrors.of_does (w.put cell (UInt8.ofInt value)) rfl
        fun store agrees => ⟨_, Window.does_opFrom (Op.edits_set byte) start
          (fits.holds cell member) store, put_agrees agrees⟩
      exact ⟨_, m', rfl, gives, mirrors⟩
  | copy dest source =>
      have distinct : dest ≠ source := by simpa [Command.fault?] using fine
      obtain ⟨m', gives, mirrors⟩ := transfer_mirrors fits (reserved source (.tail _ (.head _)))
        (reserved dest (.head _)) distinct (Op.edits_add 1) true mirrors
      rw [if_pos rfl, UInt8.zero_add, UInt8.ofInt_one, UInt8.one_mul] at mirrors
      exact ⟨_, m', rfl, gives, mirrors⟩
  | add dest operand =>
      have distinct : dest ≠ operand := by simpa [Command.fault?] using fine
      obtain ⟨m', gives, mirrors⟩ := transfer_mirrors fits (reserved operand (.tail _ (.head _)))
        (reserved dest (.head _)) distinct (Op.edits_add 1) false mirrors
      rw [if_neg Bool.false_ne_true, UInt8.ofInt_one, UInt8.one_mul] at mirrors
      exact ⟨_, m', rfl, gives, mirrors⟩
  | sub dest operand =>
      have distinct : dest ≠ operand := by simpa [Command.fault?] using fine
      obtain ⟨m', gives, mirrors⟩ := transfer_mirrors fits (reserved operand (.tail _ (.head _)))
        (reserved dest (.head _)) distinct (Op.edits_sub 1) false mirrors
      rw [if_neg Bool.false_ne_true, UInt8.ofInt_neg_one, UInt8.neg_mul, UInt8.one_mul,
        ← UInt8.sub_eq_add_neg] at mirrors
      exact ⟨_, m', rfl, gives, mirrors⟩
  | print cell =>
      obtain ⟨m', gives, mirrors⟩ := print_mirrors fits.holds (reserved cell (.head _)) mirrors
      exact ⟨_, m', rfl, gives, mirrors⟩
  | input cell => exact input_mirrors fits.holds (reserved cell (.head _)) mirrors
  | unknown name => cases fine

end Commands

/-! ## The operations of compiled code -/

/-- What holds of the moves between some cells and of all else that compiled code consists of. -/
structure Op.Covers (inside : Int → Prop) (holds : Op → Prop) : Prop where
  right : ∀ {start finish}, inside start → inside finish → start < finish →
    holds (.right (finish - start))
  left : ∀ {start finish}, inside start → inside finish → finish < start →
    holds (.left (start - finish))
  increment : holds (.add 1)
  decrement : holds (.sub 1)
  clear : holds .clear
  set : ∀ {value}, 0 ≤ value ∧ value ≤ 255 → holds (.set value)
  read : holds .read
  write : holds .write

section Covers

variable {inside : Int → Prop} {holds : Op → Prop} (covers : Op.Covers inside holds)

include covers

namespace Code

theorem every_travel {start finish : Int} (begins : inside start) (ends : inside finish) :
    (travel start finish).Every holds := by
  unfold travel
  split
  · exact ⟨covers.right begins ends (by omega), trivial⟩
  · split
    · rw [Int.neg_sub]
      exact ⟨covers.left begins ends (by omega), trivial⟩
    · trivial

theorem every_opFrom {start cell : Int} (begins : inside start) (ends : inside cell) {o : Op}
    (fits : holds o) : (opFrom start cell o).Every holds :=
  every_append (every_travel covers begins ends) ⟨fits, trivial⟩

theorem every_transferring {temp start source target : Int} (spare : inside temp)
    (begins : inside start) (onSource : inside source) (onTarget : inside target) {o : Op}
    (fits : holds o) (clearing : Bool) :
    (transferring temp start source target o clearing).Every holds := by
  have prepared : (preparing temp start target clearing).Every holds := by
    refine every_append (every_opFrom covers begins spare covers.clear) ?_
    split
    · exact every_opFrom covers spare onTarget covers.clear
    · trivial
  have approached : (travel (if clearing then target else temp) source).Every holds := by
    refine every_travel covers ?_ onSource
    split
    · exact onTarget
    · exact spare
  have drained : (draining source target temp o).Every holds :=
    ⟨every_append (every_append (every_opFrom covers onSource onTarget fits)
      (every_opFrom covers onTarget spare covers.increment))
      (every_opFrom covers spare onSource covers.decrement), trivial⟩
  have restored : (restoring source temp).Every holds :=
    ⟨every_append (every_opFrom covers spare onSource covers.increment)
      (every_opFrom covers onSource spare covers.decrement), trivial⟩
  exact every_append (every_append (every_append (every_append prepared approached) drained)
    (every_travel covers onSource spare)) restored

end Code

theorem Command.every_code {command : Command} (fine : command.fault? = none) {temp start : Int}
    (spare : inside temp) (begins : inside start) (cells : ∀ cell ∈ command.cells, inside cell) :
    (command.code temp start).Every holds ∧ inside (command.finish temp start) := by
  cases command with
  | set cell value =>
      have byte : 0 ≤ value ∧ value ≤ 255 := by simpa [Command.fault?] using fine
      have ends := cells cell (.head _)
      exact ⟨every_opFrom covers begins ends (covers.set byte), ends⟩
  | copy dest source =>
      have onTarget := cells dest (.head _)
      have onSource := cells source (.tail _ (.head _))
      exact ⟨every_transferring covers spare begins onSource onTarget covers.increment true, spare⟩
  | add dest operand =>
      have onTarget := cells dest (.head _)
      have onSource := cells operand (.tail _ (.head _))
      exact ⟨every_transferring covers spare begins onSource onTarget covers.increment false, spare⟩
  | sub dest operand =>
      have onTarget := cells dest (.head _)
      have onSource := cells operand (.tail _ (.head _))
      exact ⟨every_transferring covers spare begins onSource onTarget covers.decrement false, spare⟩
  | print cell =>
      have ends := cells cell (.head _)
      exact ⟨every_opFrom covers begins ends covers.write, ends⟩
  | input cell =>
      have ends := cells cell (.head _)
      exact ⟨every_opFrom covers begins ends covers.read, ends⟩
  | unknown name => cases fine

/-- Compiled code consists of moves between the cells of its block and the temporary cell, and of a
few other operations. -/
theorem Block.every_code {block : Block} (fine : block.fault? = none) {temp start : Int}
    (spare : inside temp) (begins : inside start) (cells : ∀ cell ∈ block.cells, inside cell) :
    (block.code temp start).Every holds ∧ inside (block.finish temp start) := by
  induction block generalizing start with
  | nil => exact ⟨trivial, begins⟩
  | command head rest ih =>
      obtain ⟨fineHead, fineRest⟩ := Layout.orElse_eq_none.1 fine
      obtain ⟨first, between⟩ := Command.every_code covers fineHead spare begins
        fun cell member => cells cell (List.mem_append_left _ member)
      obtain ⟨later, ends⟩ := ih fineRest between
        fun cell member => cells cell (List.mem_append_right _ member)
      exact ⟨every_append first later, ends⟩
  | loop cell body rest ihBody ihRest =>
      obtain ⟨fineBody, fineRest⟩ := Layout.orElse_eq_none.1 fine
      have here : inside cell := cells cell (List.mem_append_left _ (.head _))
      obtain ⟨inner, between⟩ := ihBody fineBody here
        fun cell member => cells cell (List.mem_append_left _ (.tail _ member))
      obtain ⟨later, ends⟩ := ihRest fineRest here
        fun cell member => cells cell (List.mem_append_right _ member)
      have round := every_append inner (every_travel covers between here)
      exact ⟨every_append (every_append (every_travel covers begins here) ⟨round, trivial⟩) later,
        ends⟩

end Covers

theorem Op.executable_covers : Op.Covers (fun _ => True) Op.Executable where
  right _ _ _ := trivial
  left _ _ _ := trivial
  increment := trivial
  decrement := trivial
  clear := trivial
  set := id
  read := trivial
  write := trivial

/-- The code of a block can only fail with its source. -/
theorem Block.executable_code {block : Block} (fine : block.fault? = none) (temp start : Int) :
    (block.code temp start).Every Op.Executable :=
  (Block.every_code Op.executable_covers fine trivial trivial fun _ _ => trivial).1

/-! ## Blocks -/

theorem Code.travel_self (cell : Int) : travel cell cell = .nil := by
  rw [travel, Int.sub_self]
  rfl

section Blocks

variable {window : Window} {named : CellSet} {temp : Int}

theorem Window.Fits.weaken {transfers transfers' : Bool} (fits : window.Fits named temp transfers)
    (fewer : transfers' = true → transfers = true) : window.Fits named temp transfers' :=
  ⟨fits.holds, fits.fresh, fun needs => fits.room (fewer needs)⟩

/-- What a block needs for its code to be right. -/
structure Block.Sound (window : Window) (named : CellSet) (temp : Int) (block : Block) : Prop where
  fits : window.Fits named temp block.transfers
  reserved : ∀ cell ∈ block.cells, cell ∈ named
  fine : block.fault? = none

namespace Block.Sound

variable {head : Command} {cell : Int} {body rest : Block}

theorem rest_of_command (sound : Sound window named temp (.command head rest)) :
    Sound window named temp rest where
  fits := sound.fits.weaken fun needs => by rw [Block.transfers, needs, Bool.or_true]
  reserved := fun cell member => sound.reserved cell (List.mem_append_right _ member)
  fine := (Layout.orElse_eq_none.1 sound.fine).2

theorem rest_of_loop (sound : Sound window named temp (.loop cell body rest)) :
    Sound window named temp rest where
  fits := sound.fits.weaken fun needs => by rw [Block.transfers, needs, Bool.or_true]
  reserved := fun cell member => sound.reserved cell (List.mem_append_right _ member)
  fine := (Layout.orElse_eq_none.1 sound.fine).2

theorem body_of_loop (sound : Sound window named temp (.loop cell body rest)) :
    Sound window named temp body where
  fits := sound.fits.weaken fun needs => by rw [Block.transfers, needs, Bool.true_or]
  reserved := fun _ member => sound.reserved _ (List.mem_append_left _ (.tail _ member))
  fine := (Layout.orElse_eq_none.1 sound.fine).1

theorem head_mirrors (sound : Sound window named temp (.command head rest)) {start : Int}
    {w : World} {m : Machine} (mirrors : Mirrors window named start w m) :
    ∃ w' m', World.perform head w = some w' ∧ (head.code temp start).Gives m (.ok () m') ∧
      Mirrors window named (head.finish temp start) w' m' :=
  command_mirrors (sound.fits.weaken fun needs => by rw [Block.transfers, needs, Bool.true_or])
    (fun cell member => sound.reserved cell (List.mem_append_left _ member))
    (Layout.orElse_eq_none.1 sound.fine).1 mirrors

theorem current (sound : Sound window named temp (.loop cell body rest)) {w : World} {m : Machine}
    (mirrors : Mirrors window named cell w m) : m.tape.current = w.store cell :=
  mirrors.current sound.fits.holds (sound.reserved cell (.head _))

end Block.Sound

/-- Whatever a block does, its code does. -/
theorem gives_of_runs {block : Block} {w w' : World} (runs : block.Runs w w')
    (sound : block.Sound window named temp) {start : Int} {m : Machine}
    (mirrors : Mirrors window named start w m) :
    ∃ m', (block.code temp start).Gives m (.ok () m') ∧
      Mirrors window named (block.finish temp start) w' m' := by
  induction runs generalizing start m with
  | nil => exact ⟨m, rfl, mirrors⟩
  | command performed _ ih =>
      obtain ⟨between, m', performed', begun, mirrors⟩ := sound.head_mirrors mirrors
      cases performed.symm.trans performed'
      obtain ⟨m', ended, mirrors⟩ := ih sound.rest_of_command mirrors
      exact ⟨m', gives_append_ok.2 ⟨_, begun, ended⟩, mirrors⟩
  | @leave cell body rest w w' zero _ ih =>
      obtain ⟨m', arrives, mirrors⟩ := mirrors.travel cell
      have current := sound.current mirrors
      obtain ⟨m', ended, mirrors⟩ := ih sound.rest_of_loop mirrors
      refine ⟨m', gives_append_ok.2 ⟨_, gives_append_ok.2 ⟨_, arrives, ?_⟩, ended⟩, mirrors⟩
      exact gives_ofLoop.2 (.done (current.trans zero))
  | @round cell body rest w between w' more _ _ ihBody ihLoop =>
      obtain ⟨m', arrives, mirrors⟩ := mirrors.travel cell
      have current := sound.current mirrors
      rw [← current] at more
      obtain ⟨inner, once, mirrors⟩ := ihBody sound.body_of_loop mirrors
      obtain ⟨back, returns, mirrors⟩ := mirrors.travel cell
      obtain ⟨m', later, mirrors⟩ := ihLoop sound mirrors
      -- the loop starts over from its own cell
      rw [Block.code, travel_self, nil_append, gives_append_ok] at later
      obtain ⟨after, loops, ended⟩ := later
      have again := gives_ofLoop.2
        (.again more (gives_append_ok.2 ⟨_, once, returns⟩) (gives_ofLoop.1 loops))
      exact ⟨m', gives_append_ok.2 ⟨_, gives_append_ok.2 ⟨_, arrives, again⟩, ended⟩, mirrors⟩

/-- The rounds of a compiled loop are rounds of the loop. -/
theorem rounds_of_repeated {cell : Int} {body rest : Block}
    (sound : (Block.loop cell body rest).Sound window named temp)
    (once : ∀ {w m m'}, Mirrors window named cell w m →
      (body.code temp cell ++ travel (body.finish temp cell) cell).Gives m (.ok () m') →
      ∃ w', body.Runs w w' ∧ Mirrors window named cell w' m')
    {w : World} {m m' : Machine} (mirrors : Mirrors window named cell w m)
    (loops : Repeated (body.code temp cell ++ travel (body.finish temp cell) cell).Gives m
      (.ok () m')) :
    ∃ w', w'.store cell = 0 ∧ Mirrors window named cell w' m' ∧
      ∀ {last}, (Block.loop cell body rest).Runs w' last →
        (Block.loop cell body rest).Runs w last := by
  -- the world moves along with the machine, round by round
  generalize ended : (.ok () m' : Machine.Outcome Unit) = outcome at loops
  induction loops generalizing w with
  | done zero =>
      cases ended
      exact ⟨w, (sound.current mirrors).symm.trans zero, mirrors, id⟩
  | again more ran _ ih =>
      rw [sound.current mirrors] at more
      obtain ⟨between, runs, mirrors⟩ := once mirrors ran
      obtain ⟨w', zero, mirrors, later⟩ := ih mirrors ended
      exact ⟨w', zero, mirrors, fun rest => .round more runs (later rest)⟩
  | fault _ _ => cases ended

/-- Whatever the code of a block does, the block does. -/
theorem runs_of_gives {block : Block} (sound : block.Sound window named temp) {start : Int}
    {w : World} {m m' : Machine} (mirrors : Mirrors window named start w m)
    (gives : (block.code temp start).Gives m (.ok () m')) :
    ∃ w', block.Runs w w' ∧ Mirrors window named (block.finish temp start) w' m' := by
  induction block generalizing start w m m' with
  | nil =>
      cases gives
      exact ⟨w, .nil, mirrors⟩
  | command head rest ih =>
      obtain ⟨between, begun, ended⟩ := gives_append_ok.1 gives
      -- the command can be performed, and its code has no other outcome than that
      obtain ⟨w', m', performed, begun', mirrors⟩ := sound.head_mirrors mirrors
      cases gives_deterministic _ begun begun'
      obtain ⟨w', runs, mirrors⟩ := ih sound.rest_of_command mirrors ended
      exact ⟨w', .command performed runs, mirrors⟩
  | loop cell body rest ihBody ihRest =>
      obtain ⟨between, first, ended⟩ := gives_append_ok.1 gives
      obtain ⟨_, arrives, loops⟩ := gives_append_ok.1 first
      obtain ⟨_, arrives', mirrors⟩ := mirrors.travel cell
      cases gives_deterministic _ arrives arrives'
      have once : ∀ {w m m'}, Mirrors window named cell w m →
          (body.code temp cell ++ travel (body.finish temp cell) cell).Gives m (.ok () m') →
          ∃ w', body.Runs w w' ∧ Mirrors window named cell w' m' := by
        intro w m m' mirrors gives
        obtain ⟨_, inner, returns⟩ := gives_append_ok.1 gives
        obtain ⟨w', runs, mirrors⟩ := ihBody sound.body_of_loop mirrors inner
        obtain ⟨_, returns', mirrors⟩ := mirrors.travel cell
        cases gives_deterministic _ returns returns'
        exact ⟨w', runs, mirrors⟩
      obtain ⟨w', zero, mirrors, rounds⟩ :=
        rounds_of_repeated sound once mirrors (gives_ofLoop.1 loops)
      obtain ⟨w'', runs, mirrors⟩ := ihRest sound.rest_of_loop mirrors ended
      exact ⟨w'', rounds (.leave zero runs), mirrors⟩

end Blocks

/-! ## Compiled programs -/

section Compiled

variable {block : Block} {layout final : Layout} {code : Code}

theorem Block.top_nonneg (block : Block) : 0 ≤ block.top := by
  have above : -1 < block.top := Layout.lt_foldl_max (.inl (by decide))
  omega

/-- The cells of a program without negative cells are apart on every ring that has as many. -/
theorem Layout.Compiled.apart (compiled : Compiled block code final)
    (natural : ∀ cell ∈ block.cells, 0 ≤ cell) {size : Nat} (enough : final.next ≤ size) :
    final.used.Apart size := by
  have below : ∀ cell ∈ block.cells, cell < block.top := fun cell member =>
    lt_foldl_max (.inr member)
  have bounds : ∀ cell ∈ final.used, 0 ≤ cell ∧ cell < size := by
    intro cell member
    have nonneg := block.top_nonneg
    rw [compiled.used] at member
    rw [compiled.next] at enough
    cases transfers : block.transfers with
    | false =>
        simp only [transfers, Bool.false_eq_true, if_false, CellSet.mem_ofList] at member enough
        exact ⟨natural cell member, Int.lt_of_lt_of_le (below cell member) enough⟩
    | true =>
        simp only [transfers, if_true, CellSet.mem_insert, CellSet.mem_ofList] at member enough
        rcases member with rfl | member
        · exact ⟨nonneg, by omega⟩
        · have := below cell member
          exact ⟨natural cell member, by omega⟩
  intro first inFirst second inSecond same
  have one := bounds first inFirst
  have other := bounds second inSecond
  rwa [Int.emod_eq_of_lt one.1 one.2, Int.emod_eq_of_lt other.1 other.2] at same

/-- All cells of a compiled program have room in a window around its used cells. -/
theorem Layout.Compiled.sound (compiled : Compiled block code final) (window : Window)
    (cells : window.cells = final.used) :
    block.Sound window (CellSet.ofList block.cells) block.top where
  fits := by
    rw [compiled.used] at cells
    refine ⟨fun cell member => ?_, top_not_mem block, fun transfers => ?_⟩
    · rw [cells]
      split
      · exact CellSet.mem_insert.2 (.inr member)
      · exact member
    · rw [cells, transfers]
      exact CellSet.mem_insert.2 (.inl rfl)
  reserved := fun _ => CellSet.mem_ofList.2
  fine := compiled.fine

theorem Window.mirrors_start (window : Window) (named : CellSet) {m : Machine}
    (start : window.start = m.tape) (reliable : m.source.Reliable) :
    Mirrors window named 0 (World.of m) m := by
  have shows := window.shows_start
  rw [start] at shows
  exact ⟨rfl, reliable, _, fun _ _ => rfl, shows⟩

end Compiled

/-- Compiled code does on a ring what its program does on a store. It comes to its end exactly if
the program does, and then it has taken the same input, has written the same bytes and holds the
bytes of the store in the named cells; the pointer is at the last cell of the layout, and no place
outside the used cells has changed. The used cells must not share a place on the ring; those of a
parsed program do not, if the ring has at least as many places as the program has cells. -/
theorem compile_simulates {stack : Stack Block.nesting} {block : Block} {layout final : Layout}
    {code : Code} (done : Layout.compile stack block layout = .ok code final) :
    (∀ (source : String) (names : Program.Names) (size : Nat),
      Program.parse source {} = (.ok block, names) → final.next ≤ size → final.used.Apart size) ∧
    ∀ m : Machine, m.tape.pointer < m.tape.size → m.source.Reliable →
      final.used.Apart m.tape.size →
      ((∃ outcome, Stops (Machine.run · [⟨code, none⟩] m) outcome) ↔
        ∃ w, block.Runs (World.of m) w) ∧
      ∀ outcome w, Stops (Machine.run · [⟨code, none⟩] m) outcome → block.Runs (World.of m) w →
        ∃ m', outcome = .ok () m' ∧ m'.toPort = w.toPort ∧
          (∀ cell ∈ block.cells, m'.tape.get (m.tape.place cell) = w.store cell) ∧
          m'.tape.pointer = m.tape.place final.pointer ∧ m'.tape.size = m.tape.size ∧
          ∀ place, (∀ cell ∈ final.used, place ≠ m.tape.place cell) →
            m'.tape.get place = m.tape.get place := by
  have compiled := Layout.compiled done
  constructor
  · intro source names size parsed enough
    have proper := (Program.parse_proper Program.Names.orderly_empty parsed).2
    exact compiled.apart proper.natural enough
  · intro m inside reliable apart
    have sound := compiled.sound ⟨m.tape, final.used, inside, apart⟩ rfl
    have mirrors := Window.mirrors_start ⟨m.tape, final.used, inside, apart⟩
      (CellSet.ofList block.cells) rfl reliable
    simp only [Machine.stops_iff_gives, compiled.code]
    refine ⟨⟨?_, ?_⟩, ?_⟩
    · rintro ⟨outcome, gives⟩
      have executable := Block.executable_code compiled.fine block.top 0
      obtain ⟨m', rfl⟩ := gives_ok executable reliable gives
      obtain ⟨w, runs, _⟩ := runs_of_gives sound mirrors gives
      exact ⟨w, runs⟩
    · rintro ⟨w, runs⟩
      obtain ⟨m', gives, _⟩ := gives_of_runs runs sound mirrors
      exact ⟨_, gives⟩
    · intro outcome w gives runs
      obtain ⟨m', gives', mirrors⟩ := gives_of_runs runs sound mirrors
      obtain ⟨store, agrees, shows⟩ := mirrors.shown
      refine ⟨m', gives_deterministic _ gives gives', mirrors.port, fun cell member => ?_, ?_,
        shows.size, shows.others⟩
      · have named := CellSet.mem_ofList.2 member
        rw [← agrees cell named]
        exact shows.cells cell (sound.fits.holds cell named)
      · rw [compiled.pointer]
        exact shows.pointer

theorem compile_simulates_copy :
    ∃ block names code final m',
      Program.parse "a = 2; b = a; while a != 0 \x7b a -= b; \x7d print b;" {} =
        (.ok block, names) ∧
      Layout.compile (.endless 0) block {} = .ok code final ∧ final.used.Apart 3 ∧
      Stops (Machine.run · [⟨code, none⟩]
        ⟨{ source := .empty, sink := .unlimited }, (Tape.blank 3).move 2⟩) (.ok () m') ∧
      m'.written = #[2] ∧ m'.tape.get 2 = 0 ∧ m'.tape.get 0 = 2 := by
  have tokens : Program.tokens "a = 2; b = a; while a != 0 \x7b a -= b; \x7d print b;".toList =
      ["a", "=", "2", ";", "b", "=", "a", ";", "while", "a", "!=", "0", "\x7b", "a", "-=", "b", ";",
        "\x7d", "print", "b", ";"].map fun text => ⟨text, 1⟩ := by decide +kernel
  obtain ⟨block, same⟩ : ∃ block : Block, block = .command (.set 0 2) (.command (.copy 1 0)
      (.loop 0 (.command (.sub 0 1) .nil) (.command (.print 1) .nil))) := ⟨_, rfl⟩
  have parsed : Program.parse "a = 2; b = a; while a != 0 \x7b a -= b; \x7d print b;" {} =
      (.ok block, ⟨[("a", 0), ("b", 1)], 2⟩) := by
    rw [Program.parse, tokens, same]
    rfl
  have clear : block.stop? block.top = none := by
    rw [same]
    rfl
  obtain ⟨final, done, planned⟩ := @Layout.compile_ok (.endless 0) block rfl clear {}
  have enough : final.untraced.next ≤ 3 := by
    rw [planned, same]
    decide
  obtain ⟨apart, simulates⟩ := compile_simulates done
  have distinct := apart _ _ 3 parsed enough
  obtain ⟨stops, agrees⟩ := simulates
    ⟨{ source := .empty, sink := .unlimited }, (Tape.blank 3).move 2⟩ (by decide)
    Source.reliable_empty distinct
  obtain ⟨w, runs, written, zero, two⟩ : ∃ w, block.Runs (World.of
      ⟨{ source := .empty, sink := .unlimited }, (Tape.blank 3).move 2⟩) w ∧
      w.written = #[2] ∧ w.store 0 = 0 ∧ w.store 1 = 2 := by
    rw [same]
    exact ⟨_, .command rfl (.command rfl (.round (by decide) (.command rfl .nil)
      (.leave rfl (.command rfl .nil)))), rfl, rfl, rfl⟩
  obtain ⟨outcome, stopped⟩ := stops.2 ⟨w, runs⟩
  obtain ⟨m', rfl, port, cells, _⟩ := agrees outcome w stopped runs
  refine ⟨block, _, _, final, m', parsed, done, distinct, stopped, ?_, ?_, ?_⟩
  · rw [port, written]
  · rw [← zero]
    exact cells 0 (by rw [same]; decide)
  · rw [← two]
    exact cells 1 (by rw [same]; decide)

end ByteTape
