import ByteTape.Machine.Run

/-!
# The behaviour of code

What running code leads to, said by recursion on the code: its items run in order, a loop repeats
its body as long as the cell under the pointer is not zero, and a fault ends everything.

1. `Code.Gives` is this relation; `gives_append` splits it along a chain of code and
   `gives_deterministic` says that there is at most one outcome.
2. `gives_invariant`: what every operation preserves is preserved by code.
3. `gives_permits`, `gives_ok`: code whose operations can only fail with their source comes to its end
   or stops with a failure of the source, and does not fail on a source that does not.
4. `stops_iff_gives`: the machine that runs code on frames stops with exactly these outcomes. Later
   proofs use `Code.Gives` and never look at frames.
-/

namespace ByteTape

/-- The outcomes that a machine may come to. -/
abbrev Behaviour := Machine → Machine.Outcome Unit → Prop

namespace Behaviour

def skip : Behaviour := fun m outcome => outcome = .ok () m

def does (o : Op) : Behaviour := fun m outcome => outcome = Machine.perform o m

/-- One behaviour after another. A fault of the first is a fault of both. -/
inductive Sequence (first second : Behaviour) : Machine → Machine.Outcome Unit → Prop
  | both {m m' : Machine} {outcome : Machine.Outcome Unit} :
      first m (.ok () m') → second m' outcome → Sequence first second m outcome
  | fault {m m' : Machine} {fault : Machine.Fault} :
      first m (.error fault m') → Sequence first second m (.error fault m')

/-- A behaviour again and again, as long as the cell under the pointer is not zero. -/
inductive Repeated (body : Behaviour) : Machine → Machine.Outcome Unit → Prop
  | done {m : Machine} : m.tape.current = 0 → Repeated body m (.ok () m)
  | again {m m' : Machine} {outcome : Machine.Outcome Unit} :
      m.tape.current ≠ 0 → body m (.ok () m') → Repeated body m' outcome → Repeated body m outcome
  | fault {m m' : Machine} {fault : Machine.Fault} :
      m.tape.current ≠ 0 → body m (.error fault m') → Repeated body m (.error fault m')

theorem sequence_ok_iff {first second : Behaviour} {m m' : Machine} :
    Sequence first second m (.ok () m') ↔
      ∃ between, first m (.ok () between) ∧ second between (.ok () m') := by
  constructor
  · intro both
    cases both with
    | both one other => exact ⟨_, one, other⟩
  · rintro ⟨between, one, other⟩
    exact .both one other

theorem sequence_skip (second : Behaviour) : Sequence skip second = second := by
  funext m outcome
  apply propext
  constructor
  · intro both
    cases both with
    | both one other =>
        cases one
        exact other
    | fault one => cases one
  · exact fun other => .both rfl other

theorem sequence_assoc (first second third : Behaviour) :
    Sequence (Sequence first second) third = Sequence first (Sequence second third) := by
  funext m outcome
  apply propext
  constructor
  · intro all
    cases all with
    | both pair last =>
        cases pair with
        | both one other => exact .both one (.both other last)
    | fault pair =>
        cases pair with
        | both one other => exact .both one (.fault other)
        | fault one => exact .fault one
  · intro all
    cases all with
    | both one pair =>
        cases pair with
        | both other last => exact .both (.both one other) last
        | fault other => exact .fault (.both one other)
    | fault one => exact .fault (.fault one)

theorem Sequence.imp {first second second' : Behaviour}
    (weaker : ∀ {m outcome}, second m outcome → second' m outcome) {m : Machine}
    {outcome : Machine.Outcome Unit} (both : Sequence first second m outcome) :
    Sequence first second' m outcome := by
  cases both with
  | both one other => exact .both one (weaker other)
  | fault one => exact .fault one

/-- A round of a loop, then the loop, is the loop. -/
theorem sequence_round {body next : Behaviour} {m : Machine} {outcome : Machine.Outcome Unit}
    (more : m.tape.current ≠ 0) (round : Sequence body (Sequence (Repeated body) next) m outcome) :
    Sequence (Repeated body) next m outcome := by
  cases round with
  | both once rest =>
      cases rest with
      | both loops ended => exact .both (.again more once loops) ended
      | fault loops => exact .fault (.again more once loops)
  | fault once => exact .fault (.fault more once)

/-- A loop and what follows it do all that is closed under ending the loop and under one more
round of it. -/
theorem repeated_induction {body next : Behaviour} (goal : Behaviour)
    (finish : ∀ {m outcome}, m.tape.current = 0 → next m outcome → goal m outcome)
    (round : ∀ {m outcome}, m.tape.current ≠ 0 → Sequence body goal m outcome → goal m outcome)
    {m : Machine} {outcome : Machine.Outcome Unit}
    (runs : Sequence (Repeated body) next m outcome) : goal m outcome := by
  cases runs with
  | both loops rest =>
      generalize ended : (.ok () _ : Machine.Outcome Unit) = between at loops
      induction loops with
      | done zero =>
          cases ended
          exact finish zero rest
      | again more once _ ih => exact round more (.both once (ih ended))
      | fault _ _ => cases ended
  | fault loops =>
      generalize ended : (.error _ _ : Machine.Outcome Unit) = between at loops
      induction loops with
      | done _ => cases ended
      | again more once _ ih => exact round more (.both once (ih ended))
      | fault more once =>
          cases ended
          exact round more (.fault once)

/-- No machine has two outcomes. -/
def Deterministic (behaviour : Behaviour) : Prop :=
  ∀ ⦃m : Machine⦄ ⦃one other : Machine.Outcome Unit⦄,
    behaviour m one → behaviour m other → one = other

theorem deterministic_does (o : Op) : Deterministic (does o) :=
  fun _ _ _ run rerun => Eq.trans run (Eq.symm rerun)

theorem deterministic_sequence {first second : Behaviour} (sure : Deterministic first)
    (thenSure : Deterministic second) : Deterministic (Sequence first second) := by
  intro m one other run rerun
  cases run with
  | both begun ended =>
      cases rerun with
      | both begun' ended' =>
          cases sure begun begun'
          exact thenSure ended ended'
      | fault begun' => cases sure begun begun'
  | fault begun =>
      cases rerun with
      | both begun' _ => cases sure begun begun'
      | fault begun' => exact sure begun begun'

theorem deterministic_repeated {body : Behaviour} (sure : Deterministic body) :
    Deterministic (Repeated body) := by
  intro m one other run rerun
  induction run generalizing other with
  | done zero =>
      cases rerun with
      | done _ => rfl
      | again more _ _ => exact absurd zero more
      | fault more _ => exact absurd zero more
  | again more once _ ih =>
      cases rerun with
      | done zero => exact absurd zero more
      | again _ once' rest =>
          cases sure once once'
          exact ih rest
      | fault _ once' => cases sure once once'
  | fault more once =>
      cases rerun with
      | done zero => exact absurd zero more
      | again _ once' _ => cases sure once once'
      | fault _ once' => exact sure once once'

theorem repeated_invariant {body : Behaviour} (invariant : Machine → Prop)
    (step : ∀ {m m'}, body m (.ok () m') → invariant m → invariant m') {m m' : Machine}
    (loops : Repeated body m (.ok () m')) (start : invariant m) : invariant m' := by
  generalize ended : (.ok () m' : Machine.Outcome Unit) = outcome at loops
  induction loops with
  | done _ =>
      cases ended
      exact start
  | again _ once _ ih => exact ih (step once start) ended
  | fault _ _ => cases ended

/-- A loop can only fail with its body. -/
theorem repeated_outcome {body : Behaviour} (invariant : Machine → Prop)
    (step : ∀ {m m'}, body m (.ok () m') → invariant m → invariant m')
    {good : Machine.Outcome Unit → Prop} (ended : ∀ m, good (.ok () m))
    (sure : ∀ {m outcome}, body m outcome → invariant m → good outcome) {m : Machine}
    {outcome : Machine.Outcome Unit} (loops : Repeated body m outcome) (start : invariant m) :
    good outcome := by
  induction loops with
  | done _ => exact ended _
  | again _ once _ ih => exact ih (step once start)
  | fault _ once => exact sure once start

end Behaviour

open Behaviour

namespace Code

/-- The outcomes of code. -/
def Gives : Code → Behaviour
  | nil => skip
  | op head rest => Sequence (does head) rest.Gives
  | loop body rest => Sequence (Repeated body.Gives) rest.Gives

theorem gives_ofOp {o : Op} {m : Machine} {outcome : Machine.Outcome Unit} :
    (ofOp o).Gives m outcome ↔ outcome = Machine.perform o m := by
  constructor
  · intro runs
    cases runs with
    | both one rest =>
        rw [show outcome = .ok () _ from rest]
        exact one
    | fault one => exact one
  · rintro rfl
    cases performed : Machine.perform o m with
    | ok result m' => exact .both performed.symm rfl
    | error fault m' => exact .fault performed.symm

theorem gives_ofLoop {body : Code} {m : Machine} {outcome : Machine.Outcome Unit} :
    (ofLoop body).Gives m outcome ↔ Repeated body.Gives m outcome := by
  constructor
  · intro runs
    cases runs with
    | both loops rest =>
        rw [show outcome = .ok () _ from rest]
        exact loops
    | fault loops => exact loops
  · intro loops
    cases outcome with
    | ok result m' => exact .both loops rfl
    | error fault m' => exact .fault loops

theorem gives_append (first second : Code) :
    (first ++ second).Gives = Sequence first.Gives second.Gives := by
  induction first with
  | nil => exact (sequence_skip second.Gives).symm
  | op head rest ih => rw [op_append, Gives, Gives, ih, sequence_assoc]
  | loop body rest _ ih => rw [loop_append, Gives, Gives, ih, sequence_assoc]

theorem gives_append_ok {first second : Code} {m m' : Machine} :
    (first ++ second).Gives m (.ok () m') ↔
      ∃ between, first.Gives m (.ok () between) ∧ second.Gives between (.ok () m') := by
  rw [gives_append, sequence_ok_iff]

theorem gives_deterministic (code : Code) : Deterministic code.Gives := by
  induction code with
  | nil => exact fun _ _ _ run rerun => Eq.trans run (Eq.symm rerun)
  | op head rest ih => exact deterministic_sequence (deterministic_does head) ih
  | loop body rest ihBody ihRest =>
      exact deterministic_sequence (deterministic_repeated ihBody) ihRest

end Code

/-! ## What runs preserve -/

namespace Source

/-- A source that never fails. -/
def Reliable (source : Source) : Prop := ∀ i cause, source.reading i ≠ .failure cause

theorem reliable_empty : Source.empty.Reliable := fun _ _ => Reading.noConfusion

/-- A source leaves two outcomes to code that nothing else can stop: the code comes to its end, or it
stops with a failure that the source has in store. -/
def Permits (source : Source) (outcome : Machine.Outcome Unit) : Prop :=
  (∃ m, outcome = .ok () m) ∨
    ∃ cause m i, outcome = .error (.source cause) m ∧ source.reading i = .failure cause

theorem permits_congr {source source' : Source} (same : source'.reading = source.reading)
    {outcome : Machine.Outcome Unit} (permits : source'.Permits outcome) :
    source.Permits outcome := by
  rcases permits with ended | ⟨cause, m, i, stopped, reads⟩
  · exact .inl ended
  · exact .inr ⟨cause, m, i, stopped, same ▸ reads⟩

theorem Permits.ended {source : Source} {outcome : Machine.Outcome Unit}
    (permits : source.Permits outcome) (reliable : source.Reliable) :
    ∃ m, outcome = .ok () m := by
  rcases permits with ended | ⟨cause, _, i, _, reads⟩
  · exact ended
  · exact absurd reads (reliable i cause)

end Source

namespace Port

theorem nextByte_keeps (port : Port) :
    port.nextByte.2.source.reading = port.source.reading ∧ port.nextByte.2.sink = port.sink := by
  unfold nextByte Source.next
  split
  · exact ⟨rfl, rfl⟩
  · split
    · exact ⟨rfl, rfl⟩
    · split <;> rename_i next <;> rw [← (Prod.mk.inj next).2] <;> exact ⟨rfl, rfl⟩

theorem nextByte_cases (port : Port) :
    (∃ byte after, port.nextByte = (.ok byte, after)) ∨
    ∃ cause after i, port.nextByte = (.error cause, after) ∧
      port.source.reading i = .failure cause := by
  unfold nextByte Source.next
  split
  · exact .inl ⟨_, _, rfl⟩
  · split
    · exact .inl ⟨_, _, rfl⟩
    · split
      · next cause _ failed => exact .inr ⟨cause, _, _, rfl, (Prod.mk.inj failed).1⟩
      · exact .inl ⟨_, _, rfl⟩
      · exact .inl ⟨_, _, rfl⟩

theorem exists_nextByte (port : Port) (reliable : port.source.Reliable) :
    ∃ byte after, port.nextByte = (.ok byte, after) := by
  rcases port.nextByte_cases with found | ⟨cause, _, i, _, reads⟩
  · exact found
  · exact absurd reads (reliable i cause)

end Port

namespace Machine

theorem perform_set (value : Int) (m : Machine) :
    perform (.set value) m =
      if 0 ≤ value ∧ value ≤ 255 then
        .ok () { m with tape := m.tape.put (UInt8.ofNat value.toNat) }
      else .error (.value value) m := rfl

theorem perform_read_ok {m : Machine} {byte : UInt8} {port : Port}
    (found : m.nextByte = (.ok byte, port)) :
    perform .read m = .ok () ⟨port, m.tape.put byte⟩ := by
  have read : readByte m = .ok byte { m with toPort := port } := by simp only [readByte, found]
  simp only [perform, read]

theorem perform_read_error {m : Machine} {cause : Source.Failure} {port : Port}
    (found : m.nextByte = (.error cause, port)) :
    perform .read m = .error (.source cause) { m with toPort := port } := by
  have read : readByte m = .error (.source cause) { m with toPort := port } := by
    simp only [readByte, found]
  simp only [perform, read]

/-- No operation changes the number of cells or takes the pointer off the ring, and none changes
what the source is going to give or what the sink has taken. -/
theorem perform_keeps {o : Op} {m m' : Machine} (performed : perform o m = .ok () m') :
    m'.tape.size = m.tape.size ∧
      (m.tape.pointer < m.tape.size → m'.tape.pointer < m'.tape.size) ∧
      m'.source.reading = m.source.reading ∧ m'.sink = m.sink := by
  have put (byte : UInt8) : (m.tape.put byte).size = m.tape.size ∧
      (m.tape.pointer < m.tape.size → (m.tape.put byte).pointer < (m.tape.put byte).size) := by
    rw [Tape.size_put, Tape.pointer_put]
    exact ⟨rfl, id⟩
  have move (distance : Int) : (m.tape.move distance).size = m.tape.size ∧
      (m.tape.pointer < m.tape.size →
        (m.tape.move distance).pointer < (m.tape.move distance).size) :=
    ⟨rfl, fun inside => Tape.pointer_move_lt (Nat.zero_lt_of_lt inside) distance⟩
  cases o with
  | add count =>
      cases performed
      exact ⟨(put _).1, (put _).2, rfl, rfl⟩
  | sub count =>
      cases performed
      exact ⟨(put _).1, (put _).2, rfl, rfl⟩
  | left count =>
      cases performed
      exact ⟨(move _).1, (move _).2, rfl, rfl⟩
  | right count =>
      cases performed
      exact ⟨(move _).1, (move _).2, rfl, rfl⟩
  | clear =>
      cases performed
      exact ⟨(put _).1, (put _).2, rfl, rfl⟩
  | set value =>
      rw [perform_set] at performed
      split at performed
      · cases performed
        exact ⟨(put _).1, (put _).2, rfl, rfl⟩
      · cases performed
  | read =>
      have same := m.toPort.nextByte_keeps
      rcases found : m.nextByte with ⟨cause | byte, port⟩
      · rw [perform_read_error found] at performed
        cases performed
      · rw [perform_read_ok found] at performed
        cases performed
        rw [found] at same
        exact ⟨(put _).1, (put _).2, same⟩
  | write =>
      cases performed
      exact ⟨rfl, id, rfl, rfl⟩
  | unknown name => cases performed

end Machine

/-- An operation that can only fail with its source. -/
def Op.Executable : Op → Prop
  | .set value => 0 ≤ value ∧ value ≤ 255
  | .unknown _ => False
  | _ => True

theorem Machine.perform_permits {o : Op} (executable : o.Executable) (m : Machine) :
    m.source.Permits (Machine.perform o m) := by
  cases o with
  | set value => exact .inl ⟨_, if_pos executable⟩
  | unknown name => exact executable.elim
  | read =>
      rcases m.toPort.nextByte_cases with ⟨byte, port, found⟩ | ⟨cause, port, i, found, reads⟩
      · exact .inl ⟨_, perform_read_ok found⟩
      · exact .inr ⟨cause, _, i, perform_read_error found, reads⟩
  | _ => exact .inl ⟨_, rfl⟩

namespace Code

/-- Something holds of every operation, at any depth. -/
def Every (holds : Op → Prop) : Code → Prop
  | nil => True
  | op head rest => holds head ∧ rest.Every holds
  | loop body rest => body.Every holds ∧ rest.Every holds

theorem every_append {holds : Op → Prop} {first second : Code} (one : first.Every holds)
    (other : second.Every holds) : (first ++ second).Every holds := by
  induction first with
  | nil => exact other
  | op head rest ih => exact ⟨one.1, ih one.2⟩
  | loop body rest _ ih => exact ⟨one.1, ih one.2⟩

/-- What every operation preserves is preserved by code. -/
theorem gives_invariant (invariant : Machine → Prop)
    (step : ∀ {o m m'}, Machine.perform o m = .ok () m' → invariant m → invariant m')
    {code : Code} {m m' : Machine} (runs : code.Gives m (.ok () m')) (start : invariant m) :
    invariant m' := by
  induction code generalizing m m' with
  | nil =>
      cases runs
      exact start
  | op head rest ih =>
      obtain ⟨between, performed, runs⟩ := sequence_ok_iff.1 runs
      exact ih runs (step performed.symm start)
  | loop body rest ihBody ihRest =>
      obtain ⟨between, loops, runs⟩ := sequence_ok_iff.1 runs
      exact ihRest runs (repeated_invariant invariant ihBody loops start)

theorem inside_of_gives {code : Code} {m m' : Machine} (runs : code.Gives m (.ok () m'))
    (inside : m.tape.pointer < m.tape.size) : m'.tape.pointer < m'.tape.size :=
  gives_invariant (fun between => between.tape.pointer < between.tape.size)
    (fun performed => (Machine.perform_keeps performed).2.1) runs inside

theorem reading_of_gives {code : Code} {m m' : Machine} (runs : code.Gives m (.ok () m')) :
    m'.source.reading = m.source.reading :=
  gives_invariant (fun between => between.source.reading = m.source.reading)
    (fun performed start => (Machine.perform_keeps performed).2.2.1.trans start) runs rfl

theorem sink_of_gives {code : Code} {m m' : Machine} (runs : code.Gives m (.ok () m')) :
    m'.sink = m.sink :=
  gives_invariant (fun between => between.sink = m.sink)
    (fun performed start => (Machine.perform_keeps performed).2.2.2.trans start) runs rfl

/-- Code whose operations can only fail with their source comes to its end or stops with a failure
of the source. -/
theorem gives_permits {code : Code} (executable : code.Every Op.Executable) {m : Machine}
    {outcome : Machine.Outcome Unit} (runs : code.Gives m outcome) : m.source.Permits outcome := by
  induction code generalizing m outcome with
  | nil => exact .inl ⟨m, runs⟩
  | op head rest ih =>
      cases runs with
      | both one other =>
          have kept := reading_of_gives (gives_ofOp.2 one)
          exact Source.permits_congr kept (ih executable.2 other)
      | fault one =>
          rw [show _ = _ from one]
          exact Machine.perform_permits executable.1 m
  | loop body rest ihBody ihRest =>
      cases runs with
      | both loops other =>
          have kept := reading_of_gives (gives_ofLoop.2 loops)
          exact Source.permits_congr kept (ihRest executable.2 other)
      | fault loops =>
          refine repeated_outcome (fun between => between.source.reading = m.source.reading)
            (fun once kept => (reading_of_gives once).trans kept) (fun _ => .inl ⟨_, rfl⟩)
            (fun once kept => ?_) loops rfl
          exact Source.permits_congr kept (ihBody executable.1 once)

/-- Such code does not fail on a source that never does. -/
theorem gives_ok {code : Code} (executable : code.Every Op.Executable) {m : Machine}
    (reliable : m.source.Reliable) {outcome : Machine.Outcome Unit} (runs : code.Gives m outcome) :
    ∃ m', outcome = .ok () m' :=
  (gives_permits executable runs).ended reliable

end Code

/-! ## Bounded runs -/

namespace Bounded

/-- A run stops with a result, if its bound is large enough. -/
def Stops {α : Type} (run : Nat → Option α) (result : α) : Prop := ∃ steps, run steps = some result

/-- A run never stops, however large its bound is. -/
def Diverges {α : Type} (run : Nat → Option α) : Prop := ∀ steps, run steps = none

/-- One run goes on as another one after some steps. -/
def Leads {α : Type} (run next : Nat → Option α) : Prop :=
  ∃ count, ∀ steps, run (steps + count) = next steps

theorem Leads.stops {α : Type} {run next : Nat → Option α} {result : α} (leads : Leads run next)
    (stops : Stops next result) : Stops run result := by
  obtain ⟨count, begun⟩ := leads
  obtain ⟨steps, ended⟩ := stops
  exact ⟨steps + count, by rw [begun, ended]⟩

theorem diverges_or_stops {α : Type} (run : Nat → Option α) :
    Diverges run ∨ ∃ result, Stops run result := by
  by_cases all : Diverges run
  · exact .inl all
  · refine .inr ?_
    unfold Diverges at all
    obtain ⟨steps, some⟩ := Classical.not_forall.1 all
    obtain ⟨result, found⟩ := Option.ne_none_iff_exists'.1 some
    exact ⟨result, steps, found⟩

theorem diverges_of_iff {α : Type} {first second : Nat → Option α}
    (same : ∀ result, Stops first result ↔ Stops second result) (never : Diverges first) :
    Diverges second := by
  rcases diverges_or_stops second with never' | ⟨result, stops⟩
  · exact never'
  · obtain ⟨steps, stopped⟩ := (same result).2 stops
    rw [never steps] at stopped
    cases stopped

end Bounded

/-! ## Frames -/

namespace Machine

open Bounded

/-- Two runs that both never stop, or that both come to their end with the same machine. -/
def SameEnd (first second : Nat → Option (Outcome Unit)) : Prop :=
  (Diverges first ∧ Diverges second) ∨ ∃ m, Stops first (.ok () m) ∧ Stops second (.ok () m)

theorem sameEnd_of_iff {first second : Nat → Option (Outcome Unit)}
    (same : ∀ outcome, Stops first outcome ↔ Stops second outcome)
    (sure : ∀ {outcome}, Stops first outcome → ∃ m, outcome = .ok () m) :
    SameEnd first second := by
  rcases diverges_or_stops first with never | ⟨outcome, stops⟩
  · exact .inl ⟨never, diverges_of_iff same never⟩
  · obtain ⟨m, rfl⟩ := sure stops
    exact .inr ⟨m, stops, (same _).1 stops⟩

/-- What a frame does when its rest has been run. -/
def Frame.again : Option Code → Behaviour
  | none => skip
  | some body => Repeated body.Gives

/-- The outcomes of a stack of frames. -/
def FramesGive : List Frame → Behaviour
  | [] => skip
  | frame :: frames =>
      Sequence frame.rest.Gives (Sequence (Frame.again frame.body) (FramesGive frames))

/-- A run on frames stops only with outcomes of the frames. -/
theorem framesGive_of_run {steps : Nat} {frames : List Frame} {m : Machine}
    {outcome : Outcome Unit} (stopped : run steps frames m = some outcome) :
    FramesGive frames m outcome := by
  fun_induction run steps frames m with
  | case1 => cases stopped
  | case2 => exact (Option.some.inj stopped).symm
  | case3 _ frames m ih => exact .both rfl (.both rfl (ih stopped))
  | case4 _ body frames m zero ih => exact .both rfl (.both (.done zero) (ih stopped))
  | case5 _ body frames m more ih => exact .both rfl (sequence_round more (ih stopped))
  | case6 _ head rest body frames m _ m' performed ih =>
      have later := ih stopped
      unfold FramesGive at later ⊢
      rw [Code.Gives, sequence_assoc]
      exact .both performed.symm later
  | case7 _ head rest body frames m fault m' performed =>
      cases stopped
      unfold FramesGive
      rw [Code.Gives, sequence_assoc]
      exact .fault performed.symm
  | case8 _ inner rest body frames m zero ih =>
      have later := ih stopped
      unfold FramesGive at later ⊢
      rw [Code.Gives, sequence_assoc]
      exact .both (.done zero) later
  | case9 _ inner rest body frames m more ih =>
      have round := ih stopped
      unfold FramesGive at round ⊢
      rw [Code.Gives, sequence_assoc]
      exact sequence_round more round

/-- A loop starts as if its body had just been run. -/
theorem run_loop (steps : Nat) (inner rest : Code) (body : Option Code) (frames : List Frame)
    (m : Machine) :
    run steps (⟨.loop inner rest, body⟩ :: frames) m =
      run steps (⟨.nil, some inner⟩ :: ⟨rest, body⟩ :: frames) m := by
  cases steps with
  | zero => rfl
  | succ steps => rfl

/-- Code does to the frames below it what it does as a behaviour. -/
theorem stops_of_sequence {code : Code} {body : Option Code} {frames : List Frame} {m : Machine}
    {outcome : Outcome Unit}
    (runs : Sequence code.Gives (fun m => Stops (run · (⟨.nil, body⟩ :: frames) m)) m outcome) :
    Stops (run · (⟨code, body⟩ :: frames) m) outcome := by
  induction code generalizing body frames m outcome with
  | nil => rwa [Code.Gives, sequence_skip] at runs
  | op head rest ih =>
      rw [Code.Gives, sequence_assoc] at runs
      cases runs with
      | both performed runs =>
          obtain ⟨steps, stopped⟩ := ih runs
          refine ⟨steps + 1, ?_⟩
          show run (steps + 1) (⟨.op head rest, body⟩ :: frames) m = _
          rw [run, ← performed]
          exact stopped
      | fault performed =>
          refine ⟨1, ?_⟩
          show run 1 (⟨.op head rest, body⟩ :: frames) m = _
          rw [run, ← performed]
  | loop inner rest ihInner ihRest =>
      rw [Code.Gives, sequence_assoc] at runs
      simp only [run_loop]
      refine repeated_induction
        (fun m => Stops (run · (⟨.nil, some inner⟩ :: ⟨rest, body⟩ :: frames) m)) ?_ ?_ runs
      · intro m outcome zero runs
        have leads : Leads (run · (⟨.nil, some inner⟩ :: ⟨rest, body⟩ :: frames) m)
            (run · (⟨rest, body⟩ :: frames) m) := ⟨1, fun _ => if_pos zero⟩
        exact leads.stops (ihRest runs)
      · intro m outcome more runs
        have leads : Leads (run · (⟨.nil, some inner⟩ :: ⟨rest, body⟩ :: frames) m)
            (run · (⟨inner, some inner⟩ :: ⟨rest, body⟩ :: frames) m) := ⟨1, fun _ => if_neg more⟩
        exact leads.stops (ihInner runs)

/-- Code that is run on frames stops exactly with the outcomes it gives. -/
theorem stops_iff_gives {code : Code} {m : Machine} {outcome : Outcome Unit} :
    Stops (run · [⟨code, none⟩] m) outcome ↔ code.Gives m outcome := by
  constructor
  · rintro ⟨steps, stopped⟩
    have given := framesGive_of_run stopped
    cases given with
    | both runs rest =>
        rw [Frame.again, FramesGive, sequence_skip] at rest
        cases rest
        exact runs
    | fault runs => exact runs
  · intro runs
    refine stops_of_sequence ?_
    cases outcome with
    | ok result m' => exact .both runs ⟨2, rfl⟩
    | error fault m' => exact .fault runs

end Machine

end ByteTape
