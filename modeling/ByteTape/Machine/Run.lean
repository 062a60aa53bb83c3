import ByteTape.Machine.Basic

/-!
# Running code

Code runs on a stack of frames, one for each loop that is being executed and one for the code
around them. A run takes a bound on its number of steps and gives `none` when the bound is too
small, so code that does not stop gives `none` for every bound.
-/

namespace ByteTape

namespace Machine

structure Frame where
  /-- What is still to be run. -/
  rest : Code
  /-- The body to start over with, if the frame belongs to a loop. -/
  body : Option Code := none

def run : Nat → List Frame → Machine → Option (Outcome Unit)
  | 0, _, _ => none
  | _ + 1, [], m => some (.ok () m)
  | steps + 1, ⟨.nil, none⟩ :: frames, m => run steps frames m
  | steps + 1, ⟨.nil, some body⟩ :: frames, m =>
      if m.tape.current = 0 then run steps frames m
      else run steps (⟨body, some body⟩ :: frames) m
  | steps + 1, ⟨.op head rest, body⟩ :: frames, m =>
      match perform head m with
      | .ok _ m => run steps (⟨rest, body⟩ :: frames) m
      | .error fault m => some (.error fault m)
  | steps + 1, ⟨.loop inner rest, body⟩ :: frames, m =>
      if m.tape.current = 0 then run steps (⟨rest, body⟩ :: frames) m
      else run steps (⟨inner, some inner⟩ :: ⟨rest, body⟩ :: frames) m

/-- Runs code and, if it comes to its end, flushes the output. -/
def execute (steps : Nat) (code : Code) (m : Machine) : Option (Outcome Unit) :=
  match run steps [⟨code, none⟩] m with
  | some (.ok _ m) => some (flush m)
  | other => other

/-- The bytes that code writes on a fresh machine. -/
def output (steps : Nat) (room : Nat → Bool) (size : Int) (source : Source) (code : Code) :
    Option (Except Fault (List UInt8)) :=
  match create room size source .unlimited with
  | .error fault => some (.error fault)
  | .ok m =>
      match execute steps code m with
      | none => none
      | some (.ok _ m) => some (.ok m.sink.taken.toList)
      | some (.error fault _) => some (.error fault)

end Machine

end ByteTape
