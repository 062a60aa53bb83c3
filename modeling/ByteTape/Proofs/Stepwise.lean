import ByteTape.Proofs.Reading

/-!
# Primitives one at a time

A text of primitives can be executed as it stands: a place in the text moves on by one primitive at
a time, and a bracket may send it to its partner, which is found by counting brackets.

* `walk` is this execution. It knows nothing of code.
* `walk_stops_iff`: on the text of plain code it stops exactly with the outcomes of the code.
* `read_sameEnd`: so what is read from a text does what the text does.
-/

namespace ByteTape

open Behaviour Bounded

/-! ## The execution -/

namespace Primitive

/-- What a primitive does to a machine. A bracket does nothing; it only says where to go on. -/
def act (p : Primitive) (m : Machine) : Machine.Outcome Unit :=
  match p with
  | increment => .ok () { m with tape := m.tape.put (m.tape.current + 1) }
  | decrement => .ok () { m with tape := m.tape.put (m.tape.current - 1) }
  | left =>
      .ok () { m with tape.pointer := (m.tape.pointer + m.tape.size - 1) % m.tape.size }
  | right => .ok () { m with tape.pointer := (m.tape.pointer + 1) % m.tape.size }
  | opening => .ok () m
  | closing => .ok () m
  | read =>
      match m.nextByte with
      | (.ok byte, port) => .ok () ⟨port, m.tape.put byte⟩
      | (.error cause, port) => .error (.source cause) ⟨port, m.tape⟩
  | write => .ok () { m with written := m.written.push m.tape.current }

end Primitive

/-- A place in a text of primitives. -/
structure Place where
  /-- What stands before it, nearest first. -/
  before : List Primitive
  /-- What stands behind it. -/
  after : List Primitive

namespace Place

/-- Passes over primitives up to the bracket that leaves `depth + 1` levels, and over this one.
Gives what has been passed, nearest first, and what lies ahead. -/
def pass (enters leaves : Primitive) :
    Nat → List Primitive → List Primitive → List Primitive × List Primitive
  | _, passed, [] => (passed, [])
  | depth, passed, p :: ahead =>
      if p = leaves then
        match depth with
        | 0 => (p :: passed, ahead)
        | depth + 1 => pass enters leaves depth (p :: passed) ahead
      else if p = enters then pass enters leaves (depth + 1) (p :: passed) ahead
      else pass enters leaves depth (p :: passed) ahead

/-- The place behind the end of the loop that the place is inside of. -/
def behindLoop (place : Place) : Place :=
  let (before, after) := pass .opening .closing 0 place.before place.after
  ⟨before, after⟩

/-- The place before the start of the loop that the place is inside of. -/
def beforeLoop (place : Place) : Place :=
  let (after, before) := pass .closing .opening 0 place.after place.before
  ⟨before, after⟩

/-- Executes a text from a place on, with a bound on the number of primitives. -/
def walk : Nat → Place → Machine → Option (Machine.Outcome Unit)
  | 0, _, _ => none
  | _ + 1, ⟨_, []⟩, m => some (.ok () m)
  | steps + 1, ⟨before, .opening :: after⟩, m =>
      if m.tape.current = 0 then walk steps (behindLoop ⟨.opening :: before, after⟩) m
      else walk steps ⟨.opening :: before, after⟩ m
  | steps + 1, ⟨before, .closing :: after⟩, m =>
      if m.tape.current = 0 then walk steps ⟨.closing :: before, after⟩ m
      else walk steps (beforeLoop ⟨before, .closing :: after⟩) m
  | steps + 1, ⟨before, p :: after⟩, m =>
      match p.act m with
      | .ok _ m => walk steps ⟨p :: before, after⟩ m
      | .error fault m => some (.error fault m)

end Place

/-! ## Jumps -/

namespace Place

theorem pass_enters {enters leaves : Primitive} (differ : enters ≠ leaves) (depth : Nat)
    (passed ahead : List Primitive) :
    pass enters leaves depth passed (enters :: ahead) =
      pass enters leaves (depth + 1) (enters :: passed) ahead := by
  cases depth <;> rw [pass, if_neg differ, if_pos rfl]

theorem pass_other {enters leaves p : Primitive} (stays : p ≠ enters) (stays' : p ≠ leaves)
    (depth : Nat) (passed ahead : List Primitive) :
    pass enters leaves depth passed (p :: ahead) =
      pass enters leaves depth (p :: passed) ahead := by
  cases depth <;> rw [pass, if_neg stays', if_neg stays]

/-- Passing over a text leaves the depth as it is. -/
def Neutral (enters leaves : Primitive) (text : List Primitive) : Prop :=
  ∀ depth passed ahead,
    pass enters leaves depth passed (text ++ ahead) =
      pass enters leaves depth (text.reverse ++ passed) ahead

theorem Neutral.append {enters leaves : Primitive} {first second : List Primitive}
    (one : Neutral enters leaves first) (other : Neutral enters leaves second) :
    Neutral enters leaves (first ++ second) := by
  intro depth passed ahead
  rw [List.append_assoc, one, other, List.reverse_append, List.append_assoc]

theorem Neutral.single {enters leaves p : Primitive} (stays : p ≠ enters) (stays' : p ≠ leaves) :
    Neutral enters leaves [p] :=
  pass_other stays stays'

theorem Neutral.wrap {enters leaves : Primitive} (differ : enters ≠ leaves)
    {inner : List Primitive} (neutral : Neutral enters leaves inner) :
    Neutral enters leaves (enters :: inner ++ [leaves]) := by
  intro depth passed ahead
  simp only [List.append_assoc, List.cons_append, List.nil_append]
  rw [pass_enters differ, neutral, pass, if_pos rfl]
  simp

end Place

namespace Place

open Code

theorem op?_ne {p : Primitive} {o : Op} (stands : p.op? = some o) :
    p ≠ .opening ∧ p ≠ .closing := by
  constructor
  · rintro rfl
    cases stands
  · rintro rfl
    cases stands

theorem neutral_spells {code : Code} {text : List Primitive} (spelled : Spells code text) :
    Neutral .opening .closing text := by
  induction spelled with
  | nil => exact fun _ _ _ => rfl
  | op stands _ ih =>
      obtain ⟨opens, closes⟩ := op?_ne stands
      exact (Neutral.single opens closes).append ih
  | loop _ _ ihBody ihRest =>
      have whole := (ihBody.wrap (by decide)).append ihRest
      rwa [List.append_assoc] at whole

theorem neutral_reverse {code : Code} {text : List Primitive} (spelled : Spells code text) :
    Neutral .closing .opening text.reverse := by
  induction spelled with
  | nil => exact fun _ _ _ => rfl
  | op stands _ ih =>
      obtain ⟨opens, closes⟩ := op?_ne stands
      rw [List.reverse_cons]
      exact ih.append (Neutral.single closes opens)
  | loop _ _ ihBody ihRest =>
      have whole := ihRest.append (ihBody.wrap (by decide))
      simpa using whole

/-- The place where a jump from the start of a loop ends is behind the loop. -/
theorem behindLoop_eq {body : Code} {inner : List Primitive} (spelled : Spells body inner)
    (before after : List Primitive) :
    behindLoop ⟨before, inner ++ .closing :: after⟩ =
      ⟨.closing :: (inner.reverse ++ before), after⟩ := by
  rw [behindLoop, neutral_spells spelled, pass, if_pos rfl]

/-- The place where a jump from the end of a loop ends is before the loop. -/
theorem beforeLoop_eq {body : Code} {inner : List Primitive} (spelled : Spells body inner)
    (before after : List Primitive) :
    beforeLoop ⟨inner.reverse ++ .opening :: before, .closing :: after⟩ =
      ⟨before, .opening :: (inner ++ .closing :: after)⟩ := by
  rw [beforeLoop, neutral_reverse spelled, pass, if_pos rfl, List.reverse_reverse]

end Place

/-! ## Steps -/

theorem Tape.move_succ (tape : Tape) :
    tape.move 1 = { tape with pointer := (tape.pointer + 1) % tape.size } := by
  rw [move, ← Int.natCast_one, ← Int.natCast_add, ← Int.natCast_emod, Int.toNat_natCast]
  rfl

theorem Tape.move_pred {tape : Tape} (positive : 0 < tape.size) :
    tape.move (-1) = { tape with pointer := (tape.pointer + tape.size - 1) % tape.size } := by
  have around : (tape.pointer : Int) + -1 =
      ((tape.pointer + tape.size - 1 : Nat) : Int) + (tape.size : Int) * -1 := by omega
  show ({ tape with pointer := (((tape.pointer : Int) + -1) % (tape.size : Int)).toNat } : Tape) = _
  rw [around, Int.add_mul_emod_self_left, ← Int.natCast_emod, Int.toNat_natCast]

theorem Primitive.act_eq {p : Primitive} {o : Op} (stands : p.op? = some o) {m : Machine}
    (inside : m.tape.pointer < m.tape.size) : p.act m = Machine.perform o m := by
  cases p with
  | increment =>
      cases stands
      rfl
  | decrement =>
      cases stands
      show _ = EStateM.Result.ok ()
        { m with tape := m.tape.put (m.tape.current + UInt8.ofInt (-1)) }
      rw [act, UInt8.sub_eq_add_neg]
      rfl
  | left =>
      cases stands
      show _ = EStateM.Result.ok () { m with tape := m.tape.move (-1) }
      rw [act, Tape.move_pred (Nat.zero_lt_of_lt inside)]
  | right =>
      cases stands
      show _ = EStateM.Result.ok () { m with tape := m.tape.move 1 }
      rw [act, Tape.move_succ]
  | opening => cases stands
  | closing => cases stands
  | read =>
      cases stands
      rcases found : m.nextByte with ⟨cause | byte, port⟩
      · rw [Machine.perform_read_error found]
        simp only [act, found]
      · rw [Machine.perform_read_ok found]
        simp only [act, found]
  | write =>
      cases stands
      rfl

namespace Place

open Code

theorem walk_op {p : Primitive} {o : Op} (stands : p.op? = some o) {m : Machine}
    (inside : m.tape.pointer < m.tape.size) (steps : Nat) (before after : List Primitive) :
    walk (steps + 1) ⟨before, p :: after⟩ m =
      match Machine.perform o m with
      | .ok _ m => walk steps ⟨p :: before, after⟩ m
      | .error fault m => some (.error fault m) := by
  rw [← Primitive.act_eq stands inside]
  cases p with
  | opening => cases stands
  | closing => cases stands
  | _ => rfl

/-- A run from the start of a loop is a number of rounds and a run from behind it, in no more
steps. -/
theorem sequence_of_loop {body : Code} {inner : List Primitive} (spelled : Spells body inner)
    (round : ∀ {steps before after m outcome}, m.tape.pointer < m.tape.size →
      walk steps ⟨before, inner ++ after⟩ m = some outcome →
      Sequence body.Gives (fun m outcome => ∃ left ≤ steps,
        walk left ⟨inner.reverse ++ before, after⟩ m = some outcome) m outcome)
    {steps : Nat} {before after : List Primitive} {m : Machine} {outcome : Machine.Outcome Unit}
    (inside : m.tape.pointer < m.tape.size)
    (stopped : walk steps ⟨before, .opening :: (inner ++ .closing :: after)⟩ m = some outcome) :
    Sequence (Repeated body.Gives) (fun m outcome => m.tape.pointer < m.tape.size ∧ ∃ left ≤ steps,
      walk left ⟨.closing :: (inner.reverse ++ .opening :: before), after⟩ m = some outcome)
      m outcome := by
  induction steps using Nat.strongRecOn generalizing m with
  | ind steps ih =>
      cases steps with
      | zero => cases stopped
      | succ steps =>
          rw [walk] at stopped
          split at stopped
          next zero =>
            rw [behindLoop_eq spelled] at stopped
            exact .both (.done zero) ⟨inside, steps, by omega, stopped⟩
          next more =>
            refine sequence_round more ?_
            cases round inside stopped with
            | fault once => exact .fault once
            | both once later =>
                obtain ⟨left, fewer, stopped⟩ := later
                have inside := inside_of_gives once inside
                refine .both once ?_
                cases left with
                | zero => cases stopped
                | succ left =>
                    rw [walk] at stopped
                    split at stopped
                    next zero => exact .both (.done zero) ⟨inside, left, by omega, stopped⟩
                    next =>
                      -- back to the start of the loop, with fewer steps left
                      rw [beforeLoop_eq spelled] at stopped
                      refine (ih left (by omega) inside stopped).imp ?_
                      rintro m outcome ⟨inside, last, fewer', stopped⟩
                      exact ⟨inside, last, by omega, stopped⟩

/-- A run of plain code and what stands behind it is a run of the code and a run from behind it,
in no more steps. -/
theorem sequence_of_walk {code : Code} {text : List Primitive} (spelled : Spells code text)
    {steps : Nat} {before after : List Primitive} {m : Machine} {outcome : Machine.Outcome Unit}
    (inside : m.tape.pointer < m.tape.size)
    (stopped : walk steps ⟨before, text ++ after⟩ m = some outcome) :
    Sequence code.Gives (fun m outcome => ∃ left ≤ steps,
      walk left ⟨text.reverse ++ before, after⟩ m = some outcome) m outcome := by
  induction spelled generalizing steps before after m outcome with
  | nil =>
      rw [Gives, sequence_skip]
      exact ⟨steps, Nat.le_refl _, stopped⟩
  | @op p o rest text stands _ ih =>
      cases steps with
      | zero => cases stopped
      | succ steps =>
          rw [List.cons_append, walk_op stands inside] at stopped
          rw [Gives, sequence_assoc]
          cases performed : Machine.perform o m with
          | error fault m' =>
              rw [performed] at stopped
              cases stopped
              exact .fault performed.symm
          | ok _ m' =>
              rw [performed] at stopped
              have kept := (Machine.perform_keeps performed).2.1 inside
              refine .both performed.symm ((ih kept stopped).imp ?_)
              rintro m outcome ⟨left, fewer, stopped⟩
              refine ⟨left, by omega, ?_⟩
              rwa [List.reverse_cons, List.append_assoc]
  | @loop body rest inner text spelledBody _ ihBody ihRest =>
      rw [Gives, sequence_assoc]
      rw [List.append_assoc, List.cons_append, List.cons_append] at stopped
      refine (sequence_of_loop spelledBody ihBody inside stopped).imp ?_
      rintro m outcome ⟨inside, left, fewer, stopped⟩
      refine (ihRest inside stopped).imp ?_
      rintro m outcome ⟨last, fewer', stopped⟩
      refine ⟨last, by omega, ?_⟩
      simpa using stopped

theorem leads_behind {body : Code} {inner : List Primitive} (spelled : Spells body inner)
    {m : Machine} (zero : m.tape.current = 0) (before after : List Primitive) :
    Leads (walk · ⟨before, .opening :: (inner ++ .closing :: after)⟩ m)
      (walk · ⟨.closing :: (inner.reverse ++ .opening :: before), after⟩ m) := by
  refine ⟨1, fun steps => ?_⟩
  show walk (steps + 1) _ m = _
  rw [walk, if_pos zero, behindLoop_eq spelled]

/-- The end of a loop is as good a place to go on from as its start. -/
theorem stops_closing {body : Code} {inner : List Primitive} (spelled : Spells body inner)
    {before after : List Primitive} {m : Machine} {outcome : Machine.Outcome Unit}
    (stops : Stops (walk · ⟨before, .opening :: (inner ++ .closing :: after)⟩ m) outcome) :
    Stops (walk · ⟨inner.reverse ++ .opening :: before, .closing :: after⟩ m) outcome := by
  obtain ⟨steps, stopped⟩ := stops
  by_cases zero : m.tape.current = 0
  · cases steps with
    | zero => cases stopped
    | succ steps =>
        refine ⟨steps + 1, ?_⟩
        replace stopped : walk (steps + 1) _ m = _ := stopped
        show walk (steps + 1) _ m = _
        rw [walk, if_pos zero, behindLoop_eq spelled] at stopped
        rwa [walk, if_pos zero]
  · refine ⟨steps + 1, ?_⟩
    show walk (steps + 1) _ m = _
    rwa [walk, if_neg zero, beforeLoop_eq spelled]

/-- A run of plain code and a run from behind it are a run of the whole. -/
theorem stops_of_sequence {code : Code} {text : List Primitive} (spelled : Spells code text)
    {before after : List Primitive} {m : Machine} {outcome : Machine.Outcome Unit}
    (inside : m.tape.pointer < m.tape.size)
    (runs : Sequence code.Gives (fun m => Stops (walk · ⟨text.reverse ++ before, after⟩ m))
      m outcome) : Stops (walk · ⟨before, text ++ after⟩ m) outcome := by
  induction spelled generalizing before after m outcome with
  | nil => rwa [Gives, sequence_skip] at runs
  | @op p o rest text stands _ ih =>
      rw [Gives, sequence_assoc] at runs
      cases runs with
      | both performed runs =>
          have kept := (Machine.perform_keeps performed.symm).2.1 inside
          simp only [List.reverse_cons, List.append_assoc] at runs
          obtain ⟨steps, stopped⟩ := ih kept runs
          refine ⟨steps + 1, ?_⟩
          show walk (steps + 1) ⟨before, p :: (text ++ after)⟩ m = _
          rw [walk_op stands inside, ← performed]
          exact stopped
      | fault performed =>
          refine ⟨1, ?_⟩
          show walk (0 + 1) ⟨before, p :: (text ++ after)⟩ m = _
          rw [walk_op stands inside, ← performed]
  | @loop body rest inner text spelledBody _ ihBody ihRest =>
      rw [Gives, sequence_assoc] at runs
      rw [List.append_assoc, List.cons_append, List.cons_append]
      refine repeated_induction (fun m outcome => m.tape.pointer < m.tape.size →
        Stops (walk · ⟨before, .opening :: (inner ++ .closing :: (text ++ after))⟩ m) outcome)
        ?_ ?_ runs inside
      · intro m outcome zero runs inside
        simp only [List.reverse_append, List.reverse_cons, List.append_assoc] at runs
        exact (leads_behind spelledBody zero _ _).stops (ihRest inside runs)
      · intro m outcome more runs inside
        have entered : Stops (walk · ⟨.opening :: before, inner ++ .closing :: (text ++ after)⟩ m)
            outcome := by
          refine ihBody inside ?_
          cases runs with
          | both once later =>
              have kept := inside_of_gives once inside
              exact .both once (stops_closing spelledBody (later kept))
          | fault once => exact .fault once
        have leads : Leads (walk · ⟨before, .opening :: (inner ++ .closing :: (text ++ after))⟩ m)
            (walk · ⟨.opening :: before, inner ++ .closing :: (text ++ after)⟩ m) :=
          ⟨1, fun _ => if_neg more⟩
        exact leads.stops entered

/-- The text of plain code does what the code does. -/
theorem walk_stops_iff {code : Code} {text : List Primitive} (spelled : Spells code text)
    {m : Machine} (inside : m.tape.pointer < m.tape.size) {outcome : Machine.Outcome Unit} :
    Stops (walk · ⟨[], text⟩ m) outcome ↔ code.Gives m outcome := by
  constructor
  · rintro ⟨steps, stopped⟩
    rw [← List.append_nil text] at stopped
    cases sequence_of_walk spelled inside stopped with
    | both runs later =>
        obtain ⟨left, _, stopped⟩ := later
        cases left with
        | zero => cases stopped
        | succ left =>
            cases stopped
            exact runs
    | fault runs => exact runs
  · intro runs
    rw [← List.append_nil text]
    refine stops_of_sequence spelled inside ?_
    cases outcome with
    | ok _ m' => exact .both runs ⟨1, rfl⟩
    | error fault m' => exact .fault runs

end Place

/-! ## Reading and executing -/

theorem Code.executable_of_spells {code : Code} {text : List Primitive}
    (spelled : Spells code text) : code.Every Op.Executable := by
  induction spelled with
  | nil => trivial
  | @op p _ _ _ stands _ ih =>
      refine ⟨?_, ih⟩
      cases p <;> cases stands <;> trivial
  | loop _ _ ihBody ihRest => exact ⟨ihBody, ihRest⟩

/-- What is read from a text does what the text does when it is executed one primitive at a time:
neither ever stops, or both come to their end with the same tape and pointer, the same bytes written
and the same input taken. -/
theorem read_sameEnd {text : String} {code : Code} (read : Code.ofText text = .ok code)
    {m : Machine} (inside : m.tape.pointer < m.tape.size) (reliable : m.source.Reliable) :
    Machine.SameEnd (Machine.run · [⟨code, none⟩] m)
      (Place.walk · ⟨[], Primitive.ofText text⟩ m) := by
  obtain ⟨plain, spelled⟩ := Code.exists_spells read
  obtain rfl : code = plain.coalesce :=
    Except.ok.inj (read.symm.trans (Code.ofPrimitives_eq_coalesce spelled))
  have runs : ∀ outcome, Stops (Machine.run · [⟨plain.coalesce, none⟩] m) outcome ↔
      plain.Gives m outcome :=
    fun outcome => Machine.stops_iff_gives.trans (plain.coalesce_equiv m inside outcome)
  refine Machine.sameEnd_of_iff (fun outcome => ?_) fun stops => ?_
  · rw [runs, Place.walk_stops_iff spelled inside]
  · exact Code.gives_ok (Code.executable_of_spells spelled) reliable ((runs _).1 stops)

theorem read_sameEnd_clearing :
    Code.ofText "[-][+]+>[-<+>]<." = .ok (.op .clear (.op (.add 1) (.op (.right 1)
      (.loop (.op (.sub 1) (.op (.left 1) (.op (.add 1) (.op (.right 1) .nil))))
        (.op (.left 1) (.op .write .nil)))))) ∧
      Machine.SameEnd
        (Machine.run · [⟨.op .clear (.op (.add 1) (.op (.right 1)
          (.loop (.op (.sub 1) (.op (.left 1) (.op (.add 1) (.op (.right 1) .nil))))
            (.op (.left 1) (.op .write .nil))))), none⟩]
          ⟨{ source := .empty, sink := .unlimited }, .blank 2⟩)
        (Place.walk · ⟨[], Primitive.ofText "[-][+]+>[-<+>]<."⟩
          ⟨{ source := .empty, sink := .unlimited }, .blank 2⟩) :=
  ⟨rfl, read_sameEnd rfl (by decide) Source.reliable_empty⟩

end ByteTape
