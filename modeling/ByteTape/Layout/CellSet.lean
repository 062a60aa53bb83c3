/-!
# Sets of cells

A finite set of cells, held in ascending order. Two sets with the same members are equal.
-/

namespace ByteTape

structure CellSet where
  toList : List Int
  ascending : toList.Pairwise (· < ·)
deriving DecidableEq

namespace CellSet

def empty : CellSet := ⟨[], .nil⟩

instance : EmptyCollection CellSet := ⟨empty⟩

instance : Inhabited CellSet := ⟨empty⟩

instance : Membership Int CellSet := ⟨fun set cell => cell ∈ set.toList⟩

instance (cell : Int) (set : CellSet) : Decidable (cell ∈ set) :=
  inferInstanceAs (Decidable (cell ∈ set.toList))

theorem mem_toList {cell : Int} {set : CellSet} : cell ∈ set.toList ↔ cell ∈ set := Iff.rfl

@[simp]
theorem not_mem_empty (cell : Int) : cell ∉ (∅ : CellSet) := List.not_mem_nil

/-- Puts a cell at its place in an ascending list, unless it is there already. -/
def place (cell : Int) : List Int → List Int
  | [] => [cell]
  | head :: tail =>
      if cell < head then cell :: head :: tail
      else if head < cell then head :: place cell tail
      else head :: tail

theorem mem_place {cell other : Int} {list : List Int} :
    other ∈ place cell list ↔ other = cell ∨ other ∈ list := by
  induction list with
  | nil => simp [place]
  | cons head tail ih =>
      rw [place]
      split
      · simp
      · split
        · simp only [List.mem_cons, ih]
          grind
        · have equal : cell = head := by omega
          simp [equal]

theorem ascending_place {cell : Int} {list : List Int} (ascending : list.Pairwise (· < ·)) :
    (place cell list).Pairwise (· < ·) := by
  induction list with
  | nil => simp [place]
  | cons head tail ih =>
      obtain ⟨below, rest⟩ := List.pairwise_cons.1 ascending
      rw [place]
      split
      next before =>
        refine List.pairwise_cons.2 ⟨fun other member => ?_, ascending⟩
        rcases List.mem_cons.1 member with rfl | member
        · exact before
        · exact Int.lt_trans before (below other member)
      next =>
        split
        next after =>
          refine List.pairwise_cons.2 ⟨fun other member => ?_, ih rest⟩
          rcases mem_place.1 member with rfl | member
          · exact after
          · exact below other member
        next => exact ascending

def insert (cell : Int) (set : CellSet) : CellSet :=
  ⟨place cell set.toList, ascending_place set.ascending⟩

def erase (cell : Int) (set : CellSet) : CellSet :=
  ⟨set.toList.filter (· ≠ cell), set.ascending.filter _⟩

/-- The lowest cell. -/
def min? (set : CellSet) : Option Int := set.toList.head?

def ofList (cells : List Int) : CellSet := cells.foldr insert ∅

@[simp]
theorem mem_insert {cell other : Int} {set : CellSet} :
    other ∈ set.insert cell ↔ other = cell ∨ other ∈ set := mem_place

@[simp]
theorem mem_erase {cell other : Int} {set : CellSet} :
    other ∈ set.erase cell ↔ other ∈ set ∧ other ≠ cell := by
  simp [← mem_toList, erase]

@[simp]
theorem mem_ofList {cell : Int} {cells : List Int} : cell ∈ ofList cells ↔ cell ∈ cells := by
  induction cells with
  | nil => simp [ofList]
  | cons head tail ih =>
      rw [show ofList (head :: tail) = (ofList tail).insert head from rfl, mem_insert, ih,
        List.mem_cons]

/-- Two ascending lists with the same members are the same list. -/
theorem list_ext {first second : List Int} (ascendingFirst : first.Pairwise (· < ·))
    (ascendingSecond : second.Pairwise (· < ·)) (same : ∀ cell, cell ∈ first ↔ cell ∈ second) :
    first = second := by
  induction first generalizing second with
  | nil =>
      cases second with
      | nil => rfl
      | cons head tail => exact absurd ((same head).2 List.mem_cons_self) List.not_mem_nil
  | cons a as ih =>
      cases second with
      | nil => exact absurd ((same a).1 List.mem_cons_self) List.not_mem_nil
      | cons b bs =>
          obtain ⟨belowFirst, restFirst⟩ := List.pairwise_cons.1 ascendingFirst
          obtain ⟨belowSecond, restSecond⟩ := List.pairwise_cons.1 ascendingSecond
          have equal : a = b := by
            rcases List.mem_cons.1 ((same a).1 List.mem_cons_self) with equal | inBs
            · exact equal
            · rcases List.mem_cons.1 ((same b).2 List.mem_cons_self) with equal | inAs
              · exact equal.symm
              · have := belowFirst b inAs
                have := belowSecond a inBs
                omega
          subst equal
          rw [ih restFirst restSecond fun cell => ?_]
          have := same cell
          constructor
          · intro member
            rcases List.mem_cons.1 (this.1 (List.mem_cons_of_mem a member)) with rfl | found
            · have := belowFirst cell member
              omega
            · exact found
          · intro member
            rcases List.mem_cons.1 (this.2 (List.mem_cons_of_mem a member)) with rfl | found
            · have := belowSecond cell member
              omega
            · exact found

@[ext]
theorem ext {first second : CellSet} (same : ∀ cell, cell ∈ first ↔ cell ∈ second) :
    first = second := by
  cases first with
  | mk first ascendingFirst =>
      cases second with
      | mk second ascendingSecond =>
          have equal : first = second := list_ext ascendingFirst ascendingSecond same
          subst equal
          rfl

end CellSet

end ByteTape
