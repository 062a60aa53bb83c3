/-!
# Limits

What bounds the work on texts and programs. Positions are signed 64-bit indices, so a text is
shorter than `Memory.indexLimit`. Work that goes into a loop for each loop of its subject runs on a
stack, which may run out when loops nest too deep. Memory for texts and code is taken to suffice.
-/

namespace ByteTape

namespace Memory

/-- The first number beyond the signed 64-bit indices. -/
def indexLimit : Int := 0x8000000000000000

/-- Whether a number, of either sign, can be an index. -/
def isIndex (n : Int) : Bool := -indexLimit ≤ n && n < indexLimit

theorem isIndex_of_nonneg {n : Int} (natural : 0 ≤ n) : isIndex n = true ↔ n < indexLimit := by
  have limit : indexLimit = 9223372036854775808 := rfl
  rw [isIndex, Bool.and_eq_true, decide_eq_true_iff, decide_eq_true_iff]
  omega

end Memory

/-- A text that can be held: its length is an index. -/
structure Text where
  chars : String
  short : (chars.length : Int) < Memory.indexLimit

/-- The stack for work that goes as deep as its subject nests. Nothing that nests up to `depth` makes
it run out; with something that nests deeper it may run out or hold. -/
structure Stack {α : Type} (nesting : α → Nat) where
  depth : Nat
  holds : α → Bool
  holds_shallow : ∀ subject, nesting subject ≤ depth → holds subject = true

namespace Stack

variable {α : Type} {nesting : α → Nat}

/-- A stack that never runs out. -/
def endless (depth : Nat) : Stack nesting where
  depth := depth
  holds := fun _ => true
  holds_shallow := fun _ _ => rfl

/-- Only what nests deep makes a stack run out. -/
theorem depth_lt {stack : Stack nesting} {subject : α} (runsOut : stack.holds subject = false) :
    stack.depth < nesting subject := by
  rcases Nat.lt_or_ge stack.depth (nesting subject) with deep | shallow
  · exact deep
  · rw [stack.holds_shallow subject shallow] at runsOut
    cases runsOut

end Stack

end ByteTape
