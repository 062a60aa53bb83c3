import ByteTape.Proofs.Equivalence
import ByteTape.Proofs.Lowered
import ByteTape.Proofs.Store

/-!
# Lowered code on a tape

Lowered code counts cells from where it started. A window says which places of the ring those cells
are, and code that stays inside a window is described by what it does to a store.

* `Shows`: a tape shows a store through a window.
* `Does`: code takes every tape that shows one store to a tape that shows another, and does nothing
  else.
* `does_loop`: a loop that counts its own cell down.
* `does_transferring`: a transfer adds its operand to its target as often as asked, and restores it.
-/

namespace ByteTape

open Code

/-- No two cells of the set share a place on a ring. -/
def CellSet.Apart (set : CellSet) (size : Nat) : Prop :=
  ∀ first ∈ set, ∀ second ∈ set, first % (size : Int) = second % (size : Int) → first = second

/-- The place of a cell on a ring, counted from the pointer. -/
def Tape.place (tape : Tape) (cell : Int) : Nat :=
  ((tape.pointer + cell) % (tape.size : Int)).toNat

/-- Cells that are apart have different places. -/
theorem Tape.place_inj {tape : Tape} {cells : CellSet} (positive : 0 < tape.size)
    (apart : cells.Apart tape.size) {first second : Int} (inFirst : first ∈ cells)
    (inSecond : second ∈ cells) (same : tape.place first = tape.place second) : first = second := by
  have size : (tape.size : Int) ≠ 0 := Int.ne_of_gt (Int.natCast_pos.2 positive)
  have lower := Int.emod_nonneg (tape.pointer + first) size
  have lower' := Int.emod_nonneg (tape.pointer + second) size
  have rests : (tape.pointer + first) % (tape.size : Int) =
      (tape.pointer + second) % (tape.size : Int) := by
    unfold place at same
    omega
  refine apart first inFirst second inSecond ?_
  -- both cells are counted from the same pointer, which drops out of the difference
  rw [Int.emod_eq_emod_iff_emod_sub_eq_zero, Int.add_sub_add_left,
    ← Int.emod_eq_emod_iff_emod_sub_eq_zero] at rests
  exact rests

/-- Some cells of a ring, counted from the pointer of a tape that shows what all other places
hold. -/
structure Window where
  start : Tape
  cells : CellSet
  inside : start.pointer < start.size
  apart : cells.Apart start.size

namespace Window

/-- A tape with the pointer at a cell, that holds a store in the cells of the window and is as it
was everywhere else. -/
structure Shows (window : Window) (cell : Int) (store : Store) (tape : Tape) : Prop where
  size : tape.size = window.start.size
  pointer : tape.pointer = window.start.place cell
  cells : ∀ cell ∈ window.cells, tape.get (window.start.place cell) = store cell
  others : ∀ place, (∀ cell ∈ window.cells, place ≠ window.start.place cell) →
    tape.get place = window.start.get place

variable {window : Window}

theorem positive (window : Window) : 0 < window.start.size := Nat.zero_lt_of_lt window.inside

theorem shows_start (window : Window) :
    window.Shows 0 (fun cell => window.start.get (window.start.place cell)) window.start where
  size := rfl
  pointer := by
    have bound : window.start.pointer < window.start.size := window.inside
    rw [Tape.place, Int.add_zero, ← Int.natCast_emod, Nat.mod_eq_of_lt bound, Int.toNat_natCast]
  cells := fun _ _ => rfl
  others := fun _ _ => rfl

namespace Shows

variable {cell : Int} {store : Store} {tape : Tape}

theorem inside (shows : window.Shows cell store tape) : tape.pointer < tape.size := by
  rw [shows.size, shows.pointer]
  exact Tape.pointer_move_lt window.positive cell

theorem current (shows : window.Shows cell store tape) (member : cell ∈ window.cells) :
    tape.current = store cell := by
  rw [Tape.current, shows.pointer]
  exact shows.cells cell member

theorem move (shows : window.Shows cell store tape) (distance : Int) :
    window.Shows (cell + distance) store (tape.move distance) where
  size := shows.size
  pointer := by
    have pointer : tape.pointer = (window.start.move cell).pointer := shows.pointer
    have size : tape.cells.size = window.start.cells.size := shows.size
    have moved := congrArg Tape.pointer (Tape.move_move window.positive cell distance)
    rw [Tape.move, pointer, size]
    exact moved
  cells := shows.cells
  others := shows.others

theorem put (shows : window.Shows cell store tape) (member : cell ∈ window.cells) (byte : UInt8) :
    window.Shows cell (store.put cell byte) (tape.put byte) where
  size := by rw [Tape.size_put, shows.size]
  pointer := by rw [Tape.pointer_put, shows.pointer]
  cells := by
    intro other inside
    rw [Tape.get_put]
    by_cases same : other = cell
    · subst same
      rw [if_pos ⟨shows.pointer.symm, shows.inside⟩, Store.put_self]
    · have elsewhere : window.start.place other ≠ tape.pointer := by
        rw [shows.pointer]
        exact fun equal => same (Tape.place_inj window.positive window.apart inside member equal)
      rw [if_neg fun both => elsewhere both.1, Store.put_other same, shows.cells other inside]
  others := by
    intro place outside
    have elsewhere : place ≠ tape.pointer := by
      rw [shows.pointer]
      exact outside cell member
    rw [Tape.get_put, if_neg fun both => elsewhere both.1, shows.others place outside]

end Shows

/-! ## What code does to a store -/

/-- Code that takes every tape which shows one store to a tape which shows another. It neither
reads nor writes. -/
def Does (window : Window) (code : Code) (start : Int) (before : Store) (finish : Int)
    (after : Store) : Prop :=
  ∀ m : Machine, window.Shows start before m.tape →
    ∃ tape, code.Gives m (.ok () { m with tape := tape }) ∧ window.Shows finish after tape

theorem does_nil (cell : Int) (store : Store) : window.Does .nil cell store cell store :=
  fun m shows => ⟨m.tape, rfl, shows⟩

theorem Does.append {first second : Code} {start between finish : Int}
    {before middle after : Store} (one : window.Does first start before between middle)
    (other : window.Does second between middle finish after) :
    window.Does (first ++ second) start before finish after := by
  intro m shows
  obtain ⟨tape, begun, shows⟩ := one m shows
  obtain ⟨tape', ended, shows⟩ := other { m with tape := tape } shows
  exact ⟨tape', gives_append_ok.2 ⟨_, begun, ended⟩, shows⟩

theorem does_travel (start finish : Int) (store : Store) :
    window.Does (travel start finish) start store finish store := by
  intro m shows
  have moved := shows.move (finish - start)
  rw [show start + (finish - start) = finish by omega] at moved
  unfold travel
  split
  next => exact ⟨_, gives_ofOp.2 rfl, moved⟩
  next =>
    split
    next =>
      refine ⟨m.tape.move (finish - start), gives_ofOp.2 ?_, moved⟩
      simp only [Machine.perform, Int.neg_neg]
    next =>
      obtain rfl : finish = start := by omega
      exact does_nil finish store m shows

end Window

/-- An operation that only changes the byte under the pointer. -/
def Op.Edits (o : Op) (edit : UInt8 → UInt8) : Prop :=
  ∀ m : Machine, Machine.perform o m = .ok () { m with tape := m.tape.put (edit m.tape.current) }

theorem Op.edits_add (count : Int) : Edits (.add count) (· + UInt8.ofInt count) := fun _ => rfl

theorem Op.edits_sub (count : Int) : Edits (.sub count) (· + UInt8.ofInt (-count)) := fun _ => rfl

theorem Op.edits_clear : Edits .clear fun _ => 0 := fun _ => rfl

theorem Op.edits_set {value : Int} (byte : 0 ≤ value ∧ value ≤ 255) :
    Edits (.set value) fun _ => UInt8.ofInt value := by
  intro m
  have rest : value % 2 ^ 8 = value := by omega
  rw [Machine.perform_set, if_pos byte, UInt8.ofInt, rest]

namespace Window

variable {window : Window}

theorem does_opFrom {o : Op} {edit : UInt8 → UInt8} (edits : o.Edits edit) (start : Int)
    {cell : Int} (member : cell ∈ window.cells) (store : Store) :
    window.Does (opFrom start cell o) start store cell (store.put cell (edit (store cell))) := by
  refine (does_travel start cell store).append fun m shows => ?_
  refine ⟨m.tape.put (edit (store cell)), gives_ofOp.2 ?_, shows.put member _⟩
  rw [edits m, shows.current member]

/-- A loop whose body counts the cell of the loop down. Whatever a round leaves to be done is done
by the rounds that follow. -/
theorem does_loop {body : Code} {cell : Int} (member : cell ∈ window.cells)
    (round result : Store → Store)
    (once : ∀ store : Store, window.Does body cell store cell (round store))
    (counts : ∀ store : Store, round store cell = store cell + UInt8.ofInt (-1))
    (ends : ∀ store : Store, store cell = 0 → result store = store)
    (goesOn : ∀ store : Store, result (round store) = result store) (store : Store) :
    window.Does (ofLoop body) cell store cell (result store) := by
  -- the byte in the cell is the number of rounds
  induction left : (store cell).toNat using Nat.strongRecOn generalizing store with
  | ind left ih =>
      intro m shows
      have current := shows.current member
      by_cases zero : store cell = 0
      · rw [ends store zero]
        exact ⟨m.tape, gives_ofLoop.2 (.done (current.trans zero)), shows⟩
      · have closer := toNat_pred_lt zero
        rw [← counts, left] at closer
        obtain ⟨tape, ran, shows⟩ := once store m shows
        obtain ⟨tape', loops, shows⟩ := ih _ closer (round store) rfl { m with tape := tape } shows
        rw [goesOn] at shows
        rw [← current] at zero
        exact ⟨tape', gives_ofLoop.2 (.again zero ran (gives_ofLoop.1 loops)), shows⟩

/-! ## Transfers -/

/-- One round of draining. -/
def drainRound (source target temp : Int) (amount : UInt8) (store : Store) : Store :=
  ((store.put target (store target + amount)).put temp (store temp + 1)).put source
    (store source - 1)

/-- All rounds of draining. -/
def drained (source target temp : Int) (amount : UInt8) (store : Store) : Store :=
  ((store.put target (store target + amount * store source)).put temp
    (store temp + store source)).put source 0

/-- One round of restoring. -/
def restoreRound (source temp : Int) (store : Store) : Store :=
  (store.put source (store source + 1)).put temp (store temp - 1)

/-- All rounds of restoring. -/
def restored (source temp : Int) (store : Store) : Store :=
  (store.put source (store source + store temp)).put temp 0

/-- What a transfer leaves behind. -/
def transferred (source target temp : Int) (amount : UInt8) (clearing : Bool) (store : Store) :
    Store :=
  (store.put target ((if clearing then 0 else store target) + amount * store source)).put temp 0

section Transfers

variable {source target temp : Int} (fromTarget : source ≠ target) (fromTemp : source ≠ temp)
  (targetTemp : target ≠ temp) {o : Op} {amount : UInt8} (edits : o.Edits (· + amount))
  (inSource : source ∈ window.cells) (inTarget : target ∈ window.cells)
  (inTemp : temp ∈ window.cells) (store : Store)

include fromTarget fromTemp targetTemp edits inSource inTarget inTemp in
theorem does_draining :
    window.Does (draining source target temp o) source store source
      (drained source target temp amount store) := by
  refine does_loop inSource (drainRound source target temp amount)
    (drained source target temp amount) (fun store => ?_) (fun store => ?_) (fun store zero => ?_)
    (fun store => ?_) store
  · have all := ((does_opFrom edits source inTarget store).append
      (does_opFrom (Op.edits_add 1) target inTemp _)).append
      (does_opFrom (Op.edits_sub 1) temp inSource _)
    rw [Store.put_other fromTemp, Store.put_other fromTarget, Store.put_other targetTemp.symm,
      UInt8.ofInt_one, UInt8.ofInt_neg_one, ← UInt8.sub_eq_add_neg] at all
    exact all
  · rw [drainRound, Store.put_self, UInt8.ofInt_neg_one, UInt8.sub_eq_add_neg]
  · funext cell
    simp only [drained, Store.put]
    grind
  · funext cell
    simp only [drained, drainRound, Store.put]
    grind

include fromTemp inSource inTemp in
theorem does_restoring :
    window.Does (restoring source temp) temp store temp (restored source temp store) := by
  refine does_loop inTemp (restoreRound source temp) (restored source temp)
    (fun store => ?_) (fun store => ?_) (fun store zero => ?_) (fun store => ?_) store
  · have both := (does_opFrom (Op.edits_add 1) temp inSource store).append
      (does_opFrom (Op.edits_sub 1) source inTemp _)
    rw [Store.put_other fromTemp.symm, UInt8.ofInt_one, UInt8.ofInt_neg_one,
      ← UInt8.sub_eq_add_neg] at both
    exact both
  · rw [restoreRound, Store.put_self, UInt8.ofInt_neg_one, UInt8.sub_eq_add_neg]
  · funext cell
    simp only [restored, Store.put]
    grind
  · funext cell
    simp only [restored, restoreRound, Store.put]
    grind

include inTarget inTemp in
theorem does_preparing (start : Int) (clearing : Bool) :
    window.Does (preparing temp start target clearing) start store
      (if clearing then target else temp)
      (if clearing then (store.put temp 0).put target 0 else store.put temp 0) := by
  have first := does_opFrom Op.edits_clear start inTemp store
  cases clearing with
  | false => exact first.append (does_nil temp _)
  | true => exact first.append (does_opFrom Op.edits_clear temp inTarget _)

include fromTarget fromTemp targetTemp in
/-- Draining and restoring, after the clearing, make a transfer. -/
theorem restored_drained (amount : UInt8) (clearing : Bool) :
    restored source temp (drained source target temp amount
      (if clearing then (store.put temp 0).put target 0 else store.put temp 0)) =
      transferred source target temp amount clearing store := by
  funext cell
  cases clearing with
  | false =>
      simp only [Bool.false_eq_true, if_false, restored, drained, transferred, Store.put]
      grind
  | true =>
      simp only [if_true, restored, drained, transferred, Store.put]
      grind

include fromTarget fromTemp targetTemp edits inSource inTarget inTemp in
/-- A transfer changes its target, and leaves zero in the temporary cell. -/
theorem does_transferring (start : Int) (clearing : Bool) :
    window.Does (transferring temp start source target o clearing) start store temp
      (transferred source target temp amount clearing store) := by
  have begun := (does_preparing inTarget inTemp store start clearing).append
    (does_travel _ source _)
  have drained := begun.append
    (does_draining fromTarget fromTemp targetTemp edits inSource inTarget inTemp _)
  have all := (drained.append (does_travel source temp _)).append
    (does_restoring fromTemp inSource inTemp _)
  rw [restored_drained fromTarget fromTemp targetTemp store amount clearing] at all
  exact all

end Transfers

end Window

end ByteTape
