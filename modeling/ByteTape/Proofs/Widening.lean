import ByteTape.Proofs.Sessions

/-!
# Larger tapes

Code that never moves over an end of its tape does not notice that it is on a ring, so it does the
same on a longer tape. Both runs take the same steps, and the cells that were added stay zero.

* `Tape.widen`: a tape with blank cells added at its end. Seen through `get` it is the same tape.
* `Op.StaysOn`: an operation that does not move over an end of the tape.
* `perform_widen`, `run_widen`: a step and a run on the longer tape are those on the shorter one.
* `execute_larger`: code that stays on the shorter tape ends on both in the same way, or on neither.
-/

namespace ByteTape

open Behaviour Bounded

/-! ## Wider tapes -/

namespace Tape

/-- The tape with blank cells added at its end. -/
def widen (extra : Nat) (tape : Tape) : Tape :=
  { tape with cells := appendBlank extra tape.cells }

variable (extra : Nat)

@[simp]
theorem size_widen (tape : Tape) : (tape.widen extra).size = tape.size + extra := by
  rw [size_eq, widen, data_appendBlank, Array.size_append, Array.size_replicate, size_eq]

/-- Where there is no cell, `get` sees zero, so blank cells make no difference to it. -/
@[simp]
theorem get_widen (tape : Tape) (cell : Nat) : (tape.widen extra).get cell = tape.get cell := by
  rw [get_eq, get_eq, widen, data_appendBlank, Array.getD_eq_getD_getElem?,
    Array.getD_eq_getD_getElem?, Array.getElem?_append, Array.getElem?_replicate]
  split
  · rfl
  next outside =>
    rw [Array.getElem?_eq_none (Nat.not_lt.1 outside)]
    split <;> rfl

@[simp]
theorem current_widen (tape : Tape) : (tape.widen extra).current = tape.current :=
  get_widen extra tape tape.pointer

theorem get_outside {tape : Tape} {cell : Nat} (outside : tape.size ≤ cell) : tape.get cell = 0 :=
  dif_neg (Nat.not_lt.2 outside)

/-- A tape is known by its size, its pointer and what is in its cells. -/
theorem ext_of_get {first second : Tape} (size : first.size = second.size)
    (pointer : first.pointer = second.pointer)
    (cells : ∀ cell, first.get cell = second.get cell) : first = second := by
  obtain ⟨firstCells, firstPointer⟩ := first
  obtain ⟨secondCells, secondPointer⟩ := second
  obtain rfl : firstPointer = secondPointer := pointer
  rw [mk.injEq]
  refine ⟨ByteArray.ext (Array.ext size fun cell inside inside' => ?_), rfl⟩
  have same := cells cell
  rwa [get_eq, get_eq, Array.getD, dif_pos inside, Array.getD, dif_pos inside'] at same

theorem widen_blank (size : Nat) : (blank size).widen extra = blank (size + extra) :=
  ext_of_get (by simp) rfl (by simp)

theorem put_widen {tape : Tape} (inside : tape.pointer < tape.size) (byte : UInt8) :
    (tape.widen extra).put byte = (tape.put byte).widen extra := by
  refine ext_of_get (by simp) (by simp [widen]) fun cell => ?_
  have inside' : (tape.widen extra).pointer < (tape.widen extra).size := by
    rw [size_widen]
    exact Nat.lt_add_right extra inside
  rw [get_put, get_widen, get_widen, get_put]
  simp only [inside, inside', and_true]
  rfl

theorem add_widen {tape : Tape} (inside : tape.pointer < tape.size) (amount : Int) :
    (tape.widen extra).add amount = (tape.add amount).widen extra := by
  rw [add, current_widen, put_widen extra inside, add]

/-- A move that ends between the ends of the tape is the same on a ring of any size. -/
theorem move_widen {tape : Tape} {distance : Int}
    (stays : 0 ≤ tape.pointer + distance ∧ tape.pointer + distance < tape.size) :
    (tape.widen extra).move distance = (tape.move distance).widen extra := by
  have unwrapped (size : Nat) (larger : tape.size ≤ size) :
      (tape.pointer + distance) % (size : Int) = tape.pointer + distance :=
    Int.emod_eq_of_lt stays.1 (by omega)
  refine ext_of_get (by simp) ?_ (by simp)
  show ((tape.pointer + distance) % ((tape.widen extra).size : Int)).toNat =
    ((tape.pointer + distance) % (tape.size : Int)).toNat
  rw [unwrapped _ (by simp), unwrapped _ (Nat.le_refl _)]

end Tape

/-- An operation that does not move over an end of the tape: where it goes to is a cell, without
counting on around the ring. -/
def Op.StaysOn (tape : Tape) : Op → Prop
  | .left count => 0 ≤ tape.pointer - count ∧ tape.pointer - count < tape.size
  | .right count => 0 ≤ tape.pointer + count ∧ tape.pointer + count < tape.size
  | _ => True

/-! ## Runs -/

namespace Machine

def widen (extra : Nat) (m : Machine) : Machine := { m with tape := m.tape.widen extra }

def Outcome.widen (extra : Nat) : Outcome Unit → Outcome Unit
  | .ok result m => .ok result (m.widen extra)
  | .error fault m => .error fault (m.widen extra)

variable (extra : Nat)

theorem perform_widen {o : Op} {m : Machine} (inside : m.tape.pointer < m.tape.size)
    (stays : o.StaysOn m.tape) :
    perform o (m.widen extra) = Outcome.widen extra (perform o m) := by
  cases o with
  | add count => simp only [perform, widen, Outcome.widen, Tape.add_widen extra inside]
  | sub count => simp only [perform, widen, Outcome.widen, Tape.add_widen extra inside]
  | left count =>
      rw [Op.StaysOn, Int.sub_eq_add_neg] at stays
      simp only [perform, widen, Outcome.widen, Tape.move_widen extra stays]
  | right count => simp only [perform, widen, Outcome.widen, Tape.move_widen extra stays]
  | clear => simp only [perform, widen, Outcome.widen, Tape.put_widen extra inside]
  | set value =>
      rw [perform_set, perform_set]
      split
      · simp only [widen, Outcome.widen, Tape.put_widen extra inside]
      · rfl
  | read =>
      have port : (m.widen extra).nextByte = m.nextByte := rfl
      rcases found : m.nextByte with ⟨_ | byte, after⟩
      · rw [perform_read_error found, perform_read_error (port.trans found)]
        rfl
      · rw [perform_read_ok found, perform_read_ok (port.trans found)]
        simp only [widen, Outcome.widen, Tape.put_widen extra inside]
  | write => simp only [perform, widen, Outcome.widen, Tape.current_widen]
  | unknown name => rfl

/-- No operation that a run comes to moves over an end of the tape. -/
def OnTape (frames : List Frame) (m : Machine) : Prop :=
  ∀ o before, Comes frames m o before → o.StaysOn before.tape

theorem OnTape.next {frames frames' : List Frame} {m m' : Machine} (onTape : OnTape frames m)
    (moves : Moves (frames, m) (frames', m')) : OnTape frames' m' :=
  fun o before comes => onTape o before (comes.head moves)

/-- A run that stays on the tape takes the same steps on a wider tape. -/
theorem run_widen {steps : Nat} {frames : List Frame} {m : Machine}
    (inside : m.tape.pointer < m.tape.size) (onTape : OnTape frames m) :
    run steps frames (m.widen extra) = (run steps frames m).map (Outcome.widen extra) := by
  have current (m : Machine) : (m.widen extra).tape.current = m.tape.current :=
    Tape.current_widen extra m.tape
  fun_induction run steps frames m with
  | case1 => rfl
  | case2 => rfl
  | case3 _ frames m ih => exact ih inside (onTape.next .close)
  | case4 _ body frames m zero ih =>
      rw [run, if_pos ((current m).trans zero)]
      exact ih inside (onTape.next (.leave zero))
  | case5 _ body frames m more ih =>
      rw [run, if_neg (by rwa [current m])]
      exact ih inside (onTape.next (.again more))
  | case6 _ head rest body frames m _ m' performed ih =>
      have stays := onTape head m ⟨rest, body, frames, .refl⟩
      rw [run, perform_widen extra inside stays, performed]
      exact ih ((perform_keeps performed).2.1 inside) (onTape.next (.op performed))
  | case7 _ head rest body frames m fault m' failed =>
      have stays := onTape head m ⟨rest, body, frames, .refl⟩
      rw [run, perform_widen extra inside stays, failed]
      rfl
  | case8 _ inner rest body frames m zero ih =>
      rw [run, if_pos ((current m).trans zero)]
      exact ih inside (onTape.next (.skip zero))
  | case9 _ inner rest body frames m more ih =>
      rw [run, if_neg (by rwa [current m])]
      exact ih inside (onTape.next (.enter more))

/-! ## Executions -/

/-- What is left when code has been run: output is flushed behind code that has come to its end. -/
def finished : Outcome Unit → Outcome Unit
  | .ok _ m => flush m
  | failed => failed

theorem execute_eq (steps : Nat) (code : Code) (m : Machine) :
    execute steps code m = (run steps [⟨code, none⟩] m).map finished := by
  unfold execute
  rcases run steps [⟨code, none⟩] m with _ | ⟨_, m'⟩ | ⟨fault, m'⟩
  · rfl
  · rfl
  · rfl

theorem flushSink_widen (m : Machine) :
    flushSink (m.widen extra) = Outcome.widen extra (flushSink m) := by
  unfold flushSink
  show (if m.sink.flushes m.sink.requests then _ else _) = _
  dsimp only
  split
  · rfl
  · rfl

theorem finished_widen (outcome : Outcome Unit) :
    finished (Outcome.widen extra outcome) = Outcome.widen extra (finished outcome) := by
  cases outcome with
  | ok result m =>
      show flush (m.widen extra) = Outcome.widen extra (flush m)
      unfold flush
      show (if m.written.isEmpty then _ else if m.sink.accepts m.sink.calls then _ else _) = _
      split
      · exact flushSink_widen extra m
      · split
        · exact flushSink_widen extra { m with
            written := #[]
            sink := { m.sink with
              calls := m.sink.calls + 1, taken := m.sink.taken ++ m.written } }
        · rfl
  | error fault m => rfl

/-- Executing code has one outcome, whatever the bound is. -/
theorem execute_unique {code : Code} {m : Machine} {one other : Outcome Unit}
    (stops : Stops (execute · code m) one) (stops' : Stops (execute · code m) other) :
    one = other := by
  simp only [Stops, execute_eq, Option.map_eq_some_iff] at stops stops'
  obtain ⟨steps, ended, ran, rfl⟩ := stops
  obtain ⟨steps', ended', ran', rfl⟩ := stops'
  have gives := stops_iff_gives.1 ⟨steps, ran⟩
  have gives' := stops_iff_gives.1 ⟨steps', ran'⟩
  rw [Code.gives_deterministic code gives gives']

theorem execute_widen {code : Code} {m : Machine} (inside : m.tape.pointer < m.tape.size)
    (onTape : OnTape [⟨code, none⟩] m) (steps : Nat) :
    execute steps code (m.widen extra) =
      (execute steps code m).map (Outcome.widen extra) := by
  rw [execute_eq, execute_eq, run_widen extra inside onTape, Option.map_map, Option.map_map]
  congr 1
  exact funext fun outcome => finished_widen extra outcome

theorem reset_widen {small large : Machine} (longer : large.tape.size = small.tape.size + extra)
    (source : large.source = small.source) (sink : large.sink = small.sink) :
    large.reset = small.reset.widen extra := by
  unfold reset widen
  rw [Tape.widen_blank, longer, source, sink]

/-- Code that is executed from the reset state of a machine, and does not move over an end of its
tape, does the same on a machine with a longer tape. Either both never stop, or both stop in the
same way: the same input is used up and the same output is written, the pointers are at the same
cell, the cells of the shorter tape are the same, and the other cells of the longer one are zero. -/
theorem execute_larger {code : Code} {small large : Machine} (positive : 0 < small.tape.size)
    (larger : small.tape.size ≤ large.tape.size) (source : large.source = small.source)
    (sink : large.sink = small.sink) (onTape : OnTape [⟨code, none⟩] small.reset) :
    ((∃ outcome, Stops (execute · code large.reset) outcome) ↔
      ∃ outcome, Stops (execute · code small.reset) outcome) ∧
    ∀ outcome outcome', Stops (execute · code small.reset) outcome →
      Stops (execute · code large.reset) outcome' →
      ∃ m m', ((outcome = .ok () m ∧ outcome' = .ok () m') ∨
          ∃ fault, outcome = .error fault m ∧ outcome' = .error fault m') ∧
        m'.toPort = m.toPort ∧ m'.tape.pointer = m.tape.pointer ∧
        m.tape.size = small.tape.size ∧ m'.tape.size = large.tape.size ∧
        (∀ cell < small.tape.size, m'.tape.get cell = m.tape.get cell) ∧
        ∀ cell, small.tape.size ≤ cell → m'.tape.get cell = 0 := by
  obtain ⟨extra, longer⟩ := Nat.exists_eq_add_of_le larger
  have reset : small.reset.tape.size = small.tape.size := Tape.size_blank _
  have inside : small.reset.tape.pointer < small.reset.tape.size := reset ▸ positive
  have lockstep := execute_widen extra inside onTape
  rw [reset_widen extra longer source sink]
  constructor
  · simp only [Stops, lockstep, Option.map_eq_some_iff]
    constructor
    · rintro ⟨_, steps, outcome, stopped, -⟩
      exact ⟨outcome, steps, stopped⟩
    · rintro ⟨outcome, steps, stopped⟩
      exact ⟨_, steps, outcome, stopped, rfl⟩
  · rintro outcome outcome' stops ⟨steps, stopped'⟩
    obtain ⟨again, stopped, rfl⟩ := Option.map_eq_some_iff.1 ((lockstep steps).symm.trans stopped')
    obtain rfl := execute_unique stops ⟨steps, stopped⟩
    obtain ⟨log, session⟩ := steps_of_execute stopped
    generalize ended : Outcome.machine outcome = m at session
    have size : m.tape.size = small.tape.size := (size_of_steps session).trans reset
    refine ⟨m, m.widen extra, ?_, rfl, rfl, size, ?_, fun cell _ => Tape.get_widen extra _ cell, ?_⟩
    · subst ended
      cases outcome with
      | ok _ m => exact .inl ⟨rfl, rfl⟩
      | error fault m => exact .inr ⟨fault, rfl, rfl⟩
    · rw [widen, Tape.size_widen, size, longer]
    · intro cell outside
      rw [widen, Tape.get_widen, Tape.get_outside (size ▸ outside)]

/-! ## Runs that stay on the tape -/

theorem Moves.unique {now one other : List Frame × Machine} (moves : Moves now one)
    (moves' : Moves now other) : one = other := by
  cases moves with
  | close =>
      cases moves'
      rfl
  | leave zero =>
      cases moves' with
      | leave => rfl
      | again more => exact absurd zero more
  | again more =>
      cases moves' with
      | leave zero => exact absurd zero more
      | again => rfl
  | op performed =>
      cases moves' with
      | op performed' =>
          cases performed.symm.trans performed'
          rfl
  | skip zero =>
      cases moves' with
      | skip => rfl
      | enter more => exact absurd zero more
  | enter more =>
      cases moves' with
      | skip zero => exact absurd zero more
      | enter => rfl

/-- The operation that a stack of frames comes to next, if it is one, stays on the tape. -/
def NextStaysOn (tape : Tape) : List Frame → Prop
  | ⟨.op o _, _⟩ :: _ => o.StaysOn tape
  | _ => True

theorem onTape_nil (m : Machine) : OnTape [] m := by
  rintro o before ⟨rest, body, below, comes⟩
  rcases comes.cases_head with same | ⟨_, moves, _⟩
  · cases same
  · cases moves

theorem OnTape.back {frames frames' : List Frame} {m m' : Machine}
    (moves : Moves (frames, m) (frames', m')) (stays : NextStaysOn m.tape frames)
    (later : OnTape frames' m') : OnTape frames m := by
  rintro o before ⟨rest, body, below, comes⟩
  rcases comes.cases_head with same | ⟨next, moves', later'⟩
  · cases same
    exact stays
  · rw [← moves.unique moves'] at later'
    exact later o before ⟨rest, body, below, later'⟩

/-- Counts the first cell up, pours it into the second, and writes this one. -/
def pouring : Code :=
  .op (.add 1) <| .loop (.op (.right 1) <| .op (.add 1) <| .op (.left 1) <| .op (.sub 1) .nil) <|
    .op (.right 1) <| .op .write .nil

/-- A machine without input. -/
def deafMachine (size : Nat) : Machine := ⟨{ source := .empty, sink := .unlimited }, .blank size⟩

/-- On five cells instead of two, pouring the first cell into the second does the same. -/
theorem execute_larger_pouring :
    OnTape [⟨pouring, none⟩] (deafMachine 2).reset ∧
    ∃ m m', Stops (execute · pouring (deafMachine 2).reset) (.ok () m) ∧
      Stops (execute · pouring (deafMachine 5).reset) (.ok () m') ∧
      m'.sink.taken = #[1] ∧ m'.tape.pointer = 1 ∧ m'.tape.size = 5 ∧ m'.tape.get 1 = 1 ∧
      ∀ cell, 2 ≤ cell → m'.tape.get cell = 0 := by
  have onTape : OnTape [⟨pouring, none⟩] (deafMachine 2).reset :=
    .back (.op rfl) trivial <| .back (.enter (by decide)) trivial <|
    .back (.op rfl) ⟨by decide, by decide⟩ <| .back (.op rfl) trivial <|
    .back (.op rfl) ⟨by decide, by decide⟩ <| .back (.op rfl) trivial <|
    .back (.leave (by decide)) trivial <| .back (.op rfl) ⟨by decide, by decide⟩ <|
    .back (.op rfl) trivial <| .back .close trivial <| onTape_nil _
  have stops : Stops (execute · pouring (deafMachine 2).reset) (.ok ()
      ⟨{ source := .empty, sink := { Sink.unlimited with calls := 1, requests := 1, taken := #[1] } },
        { cells := ⟨#[0, 1]⟩, pointer := 1 }⟩) := ⟨11, rfl⟩
  have larger : (deafMachine 2).tape.size ≤ (deafMachine 5).tape.size := by decide
  obtain ⟨same, agrees⟩ := execute_larger (by decide) larger rfl rfl onTape
  obtain ⟨outcome, stops'⟩ := same.2 ⟨_, stops⟩
  obtain ⟨m, m', ended, port, pointer, -, size, cells, beyond⟩ := agrees _ _ stops stops'
  rcases ended with ⟨⟨⟩, rfl⟩ | ⟨_, ⟨⟩, _⟩
  exact ⟨onTape, _, m', stops, stops', by rw [port], pointer, size, cells 1 (by decide), beyond⟩

end Machine

end ByteTape
