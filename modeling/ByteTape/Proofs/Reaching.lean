import Mathlib.Logic.Relation
import ByteTape.Proofs.Behaviour

/-!
# Operations that a run comes to

A run that fails does so at one operation, and `Code.Gives` does not say which. Here the operations
that a run comes to are described twice: by recursion on the code, and by the steps of the machine
that runs it on frames.

* `Op.Acts`: the rules of the single operations, with floored remainders and line by line input.
  `acts_iff`: the machine performs operations by these rules.
* `Code.Reaches`: an operation that code comes to, and the machine it finds.
* `Machine.Comes`: the same for a stack of frames. `comes_iff_reaches`: both are the same.
* `run_compositional`: the machine ends, fails and goes on exactly as the code says, and it fails at
  the same operation.
-/

namespace ByteTape

open Behaviour Bounded Relation

/-! ## The rules of the operations -/

namespace Op

/-- What an operation does to a machine. Counts and distances may be any integers: cells are counted
modulo 256 and places modulo the size of the tape, with the remainder that is not negative. -/
inductive Acts : Op → Machine → Machine.Outcome Unit → Prop
  | add (count : Int) (m : Machine) :
      Acts (.add count) m (.ok () { m with
        tape := m.tape.put (UInt8.ofNat ((m.tape.current.toNat + count).fmod 256).toNat) })
  | sub (count : Int) (m : Machine) :
      Acts (.sub count) m (.ok () { m with
        tape := m.tape.put (UInt8.ofNat ((m.tape.current.toNat - count).fmod 256).toNat) })
  | left (count : Int) (m : Machine) :
      Acts (.left count) m (.ok () { m with
        tape.pointer := ((m.tape.pointer - count).fmod m.tape.size).toNat })
  | right (count : Int) (m : Machine) :
      Acts (.right count) m (.ok () { m with
        tape.pointer := ((m.tape.pointer + count).fmod m.tape.size).toNat })
  | clear (m : Machine) : Acts .clear m (.ok () { m with tape := m.tape.put 0 })
  | set {value : Int} (m : Machine) : 0 ≤ value ∧ value ≤ 255 →
      Acts (.set value) m (.ok () { m with tape := m.tape.put (UInt8.ofNat value.toNat) })
  | setOutside {value : Int} (m : Machine) : ¬ (0 ≤ value ∧ value ≤ 255) →
      Acts (.set value) m (.error (.value value) m)
  | write (m : Machine) :
      Acts .write m (.ok () { m with written := m.written.push m.tape.current })
  | readPending {m : Machine} {byte : UInt8} {rest : List UInt8} : m.pending = byte :: rest →
      Acts .read m (.ok () { m with pending := rest, tape := m.tape.put byte })
  | readEnded {m : Machine} : m.pending = [] → m.ended = true →
      Acts .read m (.ok () { m with tape := m.tape.put 0 })
  /-- The line is followed by one more line feed. -/
  | readLine {m : Machine} {byte : UInt8} {rest : List UInt8} {source : Source} :
      m.pending = [] → m.ended = false → m.source.next = (.line (byte :: rest), source) →
      Acts .read m (.ok () { m with
        source, pending := rest ++ [Port.lineFeed], tape := m.tape.put byte })
  | readEnd {m : Machine} {source : Source} :
      m.pending = [] → m.ended = false → m.source.next = (.line [], source) →
      Acts .read m (.ok () { m with source, ended := true, tape := m.tape.put 0 })
  | readFailure {m : Machine} {cause : Source.Failure} {source : Source} :
      m.pending = [] → m.ended = false → m.source.next = (.failure cause, source) →
      Acts .read m (.error (.source cause) { m with source })
  | unknown (name : String) (m : Machine) : Acts (.unknown name) m (.error (.unknown name) m)

end Op

namespace Tape

theorem add_eq (tape : Tape) (amount : Int) :
    tape.add amount =
      tape.put (UInt8.ofNat ((tape.current.toNat + amount).fmod 256).toNat) := by
  rw [add, Int.fmod_eq_emod_of_nonneg _ (by decide)]
  congr 1
  apply UInt8.toNat_inj.1
  rw [UInt8.toNat_add, UInt8.ofInt, UInt8.toNat_ofNat', UInt8.toNat_ofNat']
  omega

theorem move_eq (tape : Tape) (distance : Int) :
    tape.move distance =
      { tape with pointer := ((tape.pointer + distance).fmod tape.size).toNat } := by
  rw [move, Int.fmod_eq_emod_of_nonneg _ (Int.natCast_nonneg tape.size)]
  rfl

end Tape

namespace Op

/-- There is a rule for every operation on every machine. -/
theorem exists_acts (o : Op) (m : Machine) : ∃ outcome, o.Acts m outcome := by
  cases o with
  | add count => exact ⟨_, .add count m⟩
  | sub count => exact ⟨_, .sub count m⟩
  | left count => exact ⟨_, .left count m⟩
  | right count => exact ⟨_, .right count m⟩
  | clear => exact ⟨_, .clear m⟩
  | set value =>
      by_cases byte : 0 ≤ value ∧ value ≤ 255
      · exact ⟨_, .set m byte⟩
      · exact ⟨_, .setOutside m byte⟩
  | read =>
      cases pending : m.pending with
      | cons byte rest => exact ⟨_, .readPending pending⟩
      | nil =>
          cases ended : m.ended with
          | true => exact ⟨_, .readEnded pending ended⟩
          | false =>
              rcases next : m.source.next with ⟨⟨_ | ⟨byte, rest⟩⟩ | _, source⟩
              · exact ⟨_, .readEnd pending ended next⟩
              · exact ⟨_, .readLine pending ended next⟩
              · exact ⟨_, .readFailure pending ended next⟩
  | write => exact ⟨_, .write m⟩
  | unknown name => exact ⟨_, .unknown name m⟩

theorem perform_of_acts {o : Op} {m : Machine} {outcome : Machine.Outcome Unit}
    (acts : o.Acts m outcome) : Machine.perform o m = outcome := by
  cases acts with
  | add count => simp only [Machine.perform, Tape.add_eq]
  | sub count => simp only [Machine.perform, Tape.add_eq, Int.sub_eq_add_neg]
  | left count => simp only [Machine.perform, Tape.move_eq, Int.sub_eq_add_neg]
  | right count => simp only [Machine.perform, Tape.move_eq]
  | clear => rfl
  | set _ byte => exact if_pos byte
  | setOutside _ outside => exact if_neg outside
  | write => rfl
  | readPending pending => exact Machine.perform_read_ok (by simp only [Port.nextByte, pending])
  | readEnded pending ended =>
      exact Machine.perform_read_ok (by simp only [Port.nextByte, pending, ended, if_true])
  | readLine pending ended next =>
      exact Machine.perform_read_ok (by simp [Port.nextByte, pending, ended, next])
  | readEnd pending ended next =>
      exact Machine.perform_read_ok (by simp [Port.nextByte, pending, ended, next])
  | readFailure pending ended next =>
      exact Machine.perform_read_error (by simp [Port.nextByte, pending, ended, next])
  | unknown name => rfl

/-- The machine performs operations by their rules. -/
theorem acts_iff {o : Op} {m : Machine} {outcome : Machine.Outcome Unit} :
    o.Acts m outcome ↔ outcome = Machine.perform o m := by
  constructor
  · exact fun acts => (perform_of_acts acts).symm
  · rintro rfl
    obtain ⟨outcome, acts⟩ := exists_acts o m
    rwa [perform_of_acts acts]

/-- An operation that fails may have used up a reading of the source, and has changed nothing
else. -/
theorem Acts.keeps {o : Op} {m m' : Machine} {fault : Machine.Fault}
    (acts : o.Acts m (.error fault m')) : m' = { m with source := m'.source } := by
  cases acts with
  | setOutside => rfl
  | readFailure => rfl
  | unknown => rfl

end Op

/-! ## By recursion on the code -/

namespace Code

/-- Code that is run on a machine comes to the operation `o`, which finds the machine `before`. -/
inductive Reaches (o : Op) (before : Machine) : Code → Machine → Prop
  | here {rest : Code} : Reaches o before (.op o rest) before
  | later {head : Op} {rest : Code} {m m' : Machine} :
      Machine.perform head m = .ok () m' → Reaches o before rest m' →
      Reaches o before (.op head rest) m
  | inside {body rest : Code} {m : Machine} :
      m.tape.current ≠ 0 → Reaches o before body m → Reaches o before (.loop body rest) m
  | round {body rest : Code} {m m' : Machine} :
      m.tape.current ≠ 0 → body.Gives m (.ok () m') → Reaches o before (.loop body rest) m' →
      Reaches o before (.loop body rest) m
  | behind {body rest : Code} {m : Machine} :
      m.tape.current = 0 → Reaches o before rest m → Reaches o before (.loop body rest) m

/-- What a chain of code comes to is in its first part, or in the second after the first. -/
theorem reaches_append {first second : Code} {m before : Machine} {o : Op}
    (reached : (first ++ second).Reaches o before m) :
    first.Reaches o before m ∨ ∃ m', first.Gives m (.ok () m') ∧ second.Reaches o before m' := by
  induction first generalizing m with
  | nil => exact .inr ⟨m, rfl, reached⟩
  | op head rest ih =>
      cases reached with
      | here => exact .inl .here
      | later performed reached =>
          rcases ih reached with reached | ⟨m', gives, reached⟩
          · exact .inl (.later performed reached)
          · exact .inr ⟨m', .both performed.symm gives, reached⟩
  | loop body rest _ ih =>
      rw [loop_append] at reached
      generalize whole : loop body (rest ++ second) = code at reached
      -- the rounds of the loop are those of the run that comes to the operation
      induction reached with
      | here => cases whole
      | later => cases whole
      | inside more reached _ =>
          cases whole
          exact .inl (.inside more reached)
      | round more once _ ihRound =>
          cases whole
          rcases ihRound rfl with reached | ⟨m', gives, reached⟩
          · exact .inl (.round more once reached)
          · exact .inr ⟨m', sequence_round more (.both once gives), reached⟩
      | behind zero reached _ =>
          cases whole
          rcases ih reached with reached | ⟨m', gives, reached⟩
          · exact .inl (.behind zero reached)
          · exact .inr ⟨m', .both (.done zero) gives, reached⟩

/-- A round of a loop, then the loop, comes to what the loop comes to. -/
theorem reaches_round {body rest : Code} {m before : Machine} {o : Op} (more : m.tape.current ≠ 0)
    (reached : (body ++ loop body rest).Reaches o before m) :
    (loop body rest).Reaches o before m := by
  rcases reaches_append reached with reached | ⟨m', gives, reached⟩
  · exact .inside more reached
  · exact .round more gives reached

end Code

/-! ## By the steps of the machine -/

namespace Machine

/-- A step that does not end the run: a stack of frames with its machine, before and after. -/
inductive Moves : List Frame × Machine → List Frame × Machine → Prop
  | close {frames : List Frame} {m : Machine} : Moves (⟨.nil, none⟩ :: frames, m) (frames, m)
  | leave {body : Code} {frames : List Frame} {m : Machine} : m.tape.current = 0 →
      Moves (⟨.nil, some body⟩ :: frames, m) (frames, m)
  | again {body : Code} {frames : List Frame} {m : Machine} : m.tape.current ≠ 0 →
      Moves (⟨.nil, some body⟩ :: frames, m) (⟨body, some body⟩ :: frames, m)
  | op {head : Op} {rest : Code} {body : Option Code} {frames : List Frame} {m m' : Machine} :
      perform head m = .ok () m' →
      Moves (⟨.op head rest, body⟩ :: frames, m) (⟨rest, body⟩ :: frames, m')
  | skip {inner rest : Code} {body : Option Code} {frames : List Frame} {m : Machine} :
      m.tape.current = 0 →
      Moves (⟨.loop inner rest, body⟩ :: frames, m) (⟨rest, body⟩ :: frames, m)
  | enter {inner rest : Code} {body : Option Code} {frames : List Frame} {m : Machine} :
      m.tape.current ≠ 0 →
      Moves (⟨.loop inner rest, body⟩ :: frames, m)
        (⟨inner, some inner⟩ :: ⟨rest, body⟩ :: frames, m)

theorem run_moves {now next : List Frame × Machine} (moves : Moves now next) (steps : Nat) :
    run (steps + 1) now.1 now.2 = run steps next.1 next.2 := by
  cases moves with
  | close => rfl
  | leave zero => exact if_pos zero
  | again more => exact if_neg more
  | op performed => simp only [run, performed]
  | skip zero => exact if_pos zero
  | enter more => exact if_neg more

/-- A run on frames comes to an operation, which finds the machine `before`. -/
def Comes (frames : List Frame) (m : Machine) (o : Op) (before : Machine) : Prop :=
  ∃ rest body below, ReflTransGen Moves (frames, m) (⟨.op o rest, body⟩ :: below, before)

theorem Comes.head {frames frames' : List Frame} {m m' before : Machine} {o : Op}
    (moves : Moves (frames, m) (frames', m')) (comes : Comes frames' m' o before) :
    Comes frames m o before := by
  obtain ⟨rest, body, below, later⟩ := comes
  exact ⟨rest, body, below, .head moves later⟩

theorem comes_of_run {steps : Nat} {frames : List Frame} {m after : Machine} {fault : Fault}
    (stopped : run steps frames m = some (.error fault after)) :
    ∃ o before, Comes frames m o before ∧ perform o before = .error fault after := by
  fun_induction run steps frames m with
  | case1 => cases stopped
  | case2 => cases stopped
  | case3 _ frames m ih =>
      obtain ⟨o, before, comes, failed⟩ := ih stopped
      exact ⟨o, before, comes.head .close, failed⟩
  | case4 _ body frames m zero ih =>
      obtain ⟨o, before, comes, failed⟩ := ih stopped
      exact ⟨o, before, comes.head (.leave zero), failed⟩
  | case5 _ body frames m more ih =>
      obtain ⟨o, before, comes, failed⟩ := ih stopped
      exact ⟨o, before, comes.head (.again more), failed⟩
  | case6 _ head rest body frames m _ m' performed ih =>
      obtain ⟨o, before, comes, failed⟩ := ih stopped
      exact ⟨o, before, comes.head (.op performed), failed⟩
  | case7 _ head rest body frames m _ m' failed =>
      cases stopped
      exact ⟨head, m, ⟨rest, body, frames, .refl⟩, failed⟩
  | case8 _ inner rest body frames m zero ih =>
      obtain ⟨o, before, comes, failed⟩ := ih stopped
      exact ⟨o, before, comes.head (.skip zero), failed⟩
  | case9 _ inner rest body frames m more ih =>
      obtain ⟨o, before, comes, failed⟩ := ih stopped
      exact ⟨o, before, comes.head (.enter more), failed⟩

/-- A run stops with a fault exactly if it comes to an operation that fails with it. -/
theorem stops_error_iff {frames : List Frame} {m after : Machine} {fault : Fault} :
    Stops (run · frames m) (.error fault after) ↔
      ∃ o before, Comes frames m o before ∧ perform o before = .error fault after := by
  constructor
  · rintro ⟨steps, stopped⟩
    exact comes_of_run stopped
  · rintro ⟨o, before, ⟨rest, body, below, comes⟩, failed⟩
    have stops (now : List Frame × Machine)
        (comes : ReflTransGen Moves now (⟨.op o rest, body⟩ :: below, before)) :
        Stops (run · now.1 now.2) (.error fault after) := by
      induction comes using ReflTransGen.head_induction_on with
      | refl => exact ⟨1, by simp only [run, failed]⟩
      | head moves _ ih =>
          obtain ⟨steps, stopped⟩ := ih
          exact ⟨steps + 1, (run_moves moves steps).trans stopped⟩
    exact stops _ comes

/-! ## Both are the same -/

/-- What a stack of frames has still to run, as one code. -/
def codeLeft : List Frame → Code
  | [] => .nil
  | ⟨rest, none⟩ :: frames => rest ++ codeLeft frames
  | ⟨rest, some body⟩ :: frames => rest ++ .loop body (codeLeft frames)

theorem codeLeft_cons (rest : Code) (body : Option Code) (frames : List Frame) :
    codeLeft (⟨rest, body⟩ :: frames) = rest ++ codeLeft (⟨.nil, body⟩ :: frames) := by
  cases body with
  | none => rfl
  | some body => rfl

theorem reaches_of_moves {now next : List Frame × Machine} {o : Op} {before : Machine}
    (moves : Moves now next) (reached : (codeLeft next.1).Reaches o before next.2) :
    (codeLeft now.1).Reaches o before now.2 := by
  cases moves with
  | close => exact reached
  | leave zero => exact .behind zero reached
  | again more => exact Code.reaches_round more reached
  | op performed =>
      rw [codeLeft_cons] at reached ⊢
      exact .later performed reached
  | skip zero =>
      rw [codeLeft_cons] at reached ⊢
      exact .behind zero reached
  | @enter inner rest body frames m more =>
      have entered :
          (inner ++ .loop inner (codeLeft (⟨rest, body⟩ :: frames))).Reaches o before m := reached
      rw [codeLeft_cons rest] at entered
      show (codeLeft (⟨.loop inner rest, body⟩ :: frames)).Reaches o before m
      rw [codeLeft_cons]
      exact Code.reaches_round more entered

theorem reaches_of_comes {frames : List Frame} {m before : Machine} {o : Op}
    (comes : Comes frames m o before) : (codeLeft frames).Reaches o before m := by
  obtain ⟨rest, body, below, comes⟩ := comes
  have reaches (now : List Frame × Machine)
      (comes : ReflTransGen Moves now (⟨.op o rest, body⟩ :: below, before)) :
      (codeLeft now.1).Reaches o before now.2 := by
    induction comes using ReflTransGen.head_induction_on with
    | refl =>
        rw [codeLeft_cons]
        exact .here
    | head moves _ ih => exact reaches_of_moves moves ih
  exact reaches _ comes

/-- A loop starts as if its body had just been run. -/
theorem moves_loop {inner rest : Code} {body : Option Code} {frames : List Frame} {m : Machine}
    {next : List Frame × Machine} :
    Moves (⟨.loop inner rest, body⟩ :: frames, m) next ↔
      Moves (⟨.nil, some inner⟩ :: ⟨rest, body⟩ :: frames, m) next := by
  constructor
  · intro moves
    cases moves with
    | skip zero => exact .leave zero
    | enter more => exact .again more
  · intro moves
    cases moves with
    | leave zero => exact .skip zero
    | again more => exact .enter more

/-- The end of a round takes at least one step, and leads behind the loop. -/
theorem moves_of_repeated {inner : Code} {frames : List Frame} {m m' : Machine}
    (round : ∀ {m m'}, inner.Gives m (.ok () m') →
      ReflTransGen Moves (⟨inner, some inner⟩ :: frames, m) (⟨.nil, some inner⟩ :: frames, m'))
    (loops : Repeated inner.Gives m (.ok () m')) :
    ∃ next, Moves (⟨.nil, some inner⟩ :: frames, m) next ∧
      ReflTransGen Moves next (frames, m') := by
  generalize ended : (.ok () m' : Outcome Unit) = outcome at loops
  induction loops with
  | done zero =>
      cases ended
      exact ⟨_, .leave zero, .refl⟩
  | again more once _ ih =>
      obtain ⟨next, first, later⟩ := ih ended
      exact ⟨_, .again more, (round once).trans (.head first later)⟩
  | fault => cases ended

/-- Code that comes to its end leaves the frames below it as they are. -/
theorem moves_of_gives {code : Code} {body : Option Code} {frames : List Frame} {m m' : Machine}
    (gives : code.Gives m (.ok () m')) :
    ReflTransGen Moves (⟨code, body⟩ :: frames, m) (⟨.nil, body⟩ :: frames, m') := by
  induction code generalizing body frames m m' with
  | nil =>
      cases gives
      exact .refl
  | op head rest ih =>
      obtain ⟨between, performed, gives⟩ := sequence_ok_iff.1 gives
      exact .head (.op performed.symm) (ih gives)
  | loop inner rest ihInner ihRest =>
      obtain ⟨between, loops, gives⟩ := sequence_ok_iff.1 gives
      obtain ⟨next, first, later⟩ := moves_of_repeated ihInner loops
      exact .head (moves_loop.2 first) (later.trans (ihRest gives))

theorem comes_of_reaches {code : Code} {m before : Machine} {o : Op}
    (reached : code.Reaches o before m) (body : Option Code) (frames : List Frame) :
    Comes (⟨code, body⟩ :: frames) m o before := by
  induction reached generalizing body frames with
  | here => exact ⟨_, _, _, .refl⟩
  | later performed _ ih => exact (ih body frames).head (.op performed)
  | inside more _ ih => exact (ih _ _).head (.enter more)
  | behind zero _ ih => exact (ih body frames).head (.skip zero)
  | round more once _ ih =>
      obtain ⟨rest, inner, below, comes⟩ := ih body frames
      rcases comes.cases_head with same | ⟨next, first, later⟩
      · cases same
      · exact ⟨rest, inner, below, .head (.enter more)
          ((moves_of_gives once).trans (.head (moves_loop.1 first) later))⟩

/-- The machine comes to exactly those operations that the code comes to. -/
theorem comes_iff_reaches {code : Code} {m before : Machine} {o : Op} :
    Comes [⟨code, none⟩] m o before ↔ code.Reaches o before m := by
  constructor
  · intro comes
    have reached := reaches_of_comes comes
    rwa [codeLeft, codeLeft, Code.append_nil] at reached
  · exact fun reached => comes_of_reaches reached none []

end Machine

/-- Code that is run on frames behaves as its parts do: it comes to its end, or fails, exactly as
the relation `Code.Gives` says, and operations act by their rules. Where it fails, it has come to an
operation that fails by its rule on the machine that it finds; the code comes to the same operation
with the same machine, and nothing but the source can differ in the machine that is left behind. -/
theorem run_compositional (code : Code) (m : Machine) :
    (∀ outcome, Stops (Machine.run · [⟨code, none⟩] m) outcome ↔ code.Gives m outcome) ∧
    (∀ fault m', Stops (Machine.run · [⟨code, none⟩] m) (.error fault m') ↔
      ∃ o before, Machine.Comes [⟨code, none⟩] m o before ∧
        Machine.perform o before = .error fault m') ∧
    (∀ o before fault m',
      Machine.Comes [⟨code, none⟩] m o before ∧ Machine.perform o before = .error fault m' ↔
        code.Reaches o before m ∧ o.Acts before (.error fault m') ∧
          m' = { before with source := m'.source }) ∧
    ∀ (o : Op) (before : Machine) (outcome : Machine.Outcome Unit),
      Machine.perform o before = outcome ↔ o.Acts before outcome := by
  refine ⟨fun _ => Machine.stops_iff_gives, fun _ _ => Machine.stops_error_iff, ?_, ?_⟩
  · intro o before fault m'
    rw [Machine.comes_iff_reaches, Op.acts_iff]
    constructor
    · rintro ⟨reached, failed⟩
      exact ⟨reached, failed.symm, (Op.acts_iff.2 failed.symm).keeps⟩
    · rintro ⟨reached, failed, _⟩
      exact ⟨reached, failed.symm⟩
  · intro o before outcome
    rw [Op.acts_iff, eq_comm]

end ByteTape
