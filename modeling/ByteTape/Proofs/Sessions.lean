import ByteTape.Code.Reader
import ByteTape.Proofs.Reaching

/-!
# Sessions

A machine in use. Bytes are read and written, output is flushed, the machine is reset, and code is
executed, in any order and with any failures. Each call is a step of its own, except that code takes
a step for each move on its frames, so that a session can be looked at while code is running, also
while it runs forever.

* `Step`: the steps, each with the bytes that it reads and writes.
* `Effect`: all that a step can do to the machine; `effect_of_step`: it does nothing else.
* `Steps.invariant`: what every effect keeps holds at every point of a session.
* `unreset_of_execute`, `steps_of_execute`: what executing code ends with is what its steps lead to.
-/

namespace ByteTape

open Relation

/-! ## Reading -/

/-- The ways to get the next byte of the input, or to fail, and the port afterwards. -/
inductive Port.Hears (port : Port) : Except Source.Failure UInt8 → Port → Prop
  | pending {byte : UInt8} {rest : List UInt8} : port.pending = byte :: rest →
      Hears port (.ok byte) { port with pending := rest }
  | behind : port.pending = [] → port.ended = true → Hears port (.ok 0) port
  | line {byte : UInt8} {rest : List UInt8} : port.pending = [] → port.ended = false →
      port.source.reading port.source.used = .line (byte :: rest) →
      Hears port (.ok byte)
        { port with source := port.source.next.2, pending := rest ++ [lineFeed] }
  | ending : port.pending = [] → port.ended = false →
      port.source.reading port.source.used = .line [] →
      Hears port (.ok 0) { port with source := port.source.next.2, ended := true }
  | failure {cause : Source.Failure} : port.pending = [] → port.ended = false →
      port.source.reading port.source.used = .failure cause →
      Hears port (.error cause) { port with source := port.source.next.2 }

theorem Port.hears_iff {port after : Port} {heard : Except Source.Failure UInt8} :
    port.Hears heard after ↔ port.nextByte = (heard, after) := by
  constructor
  · intro hears
    cases hears with
    | pending pending => simp only [nextByte, pending]
    | behind pending ended => simp [nextByte, pending, ended]
    | line pending ended reads => simp [nextByte, pending, ended, Source.next, reads]
    | ending pending ended reads => simp [nextByte, pending, ended, Source.next, reads]
    | failure pending ended reads => simp [nextByte, pending, ended, Source.next, reads]
  · intro next
    suffices hears : port.Hears port.nextByte.1 port.nextByte.2 by rwa [next] at hears
    cases pending : port.pending with
    | cons first rest => simpa only [nextByte, pending] using Hears.pending pending
    | nil =>
        cases ended : port.ended with
        | true => simpa [nextByte, pending, ended] using Hears.behind pending ended
        | false =>
            cases reads : port.source.reading port.source.used with
            | failure cause =>
                simpa [nextByte, pending, ended, Source.next, reads]
                  using Hears.failure pending ended reads
            | line bytes =>
                cases bytes with
                | nil =>
                    simpa [nextByte, pending, ended, Source.next, reads]
                      using Hears.ending pending ended reads
                | cons first rest =>
                    simpa [nextByte, pending, ended, Source.next, reads]
                      using Hears.line pending ended reads

namespace Machine

/-- The machine that an action leaves behind. -/
def Outcome.machine {α : Type} : Outcome α → Machine
  | .ok _ m => m
  | .error _ m => m

theorem readByte_ok_iff {m m' : Machine} {byte : UInt8} :
    readByte m = .ok byte m' ↔ ∃ port, m.Hears (.ok byte) port ∧ m' = ⟨port, m.tape⟩ := by
  simp only [Port.hears_iff]
  unfold readByte
  rcases m.nextByte with ⟨cause | heard, port⟩
  · simp
  · simp [and_assoc, eq_comm]

theorem readByte_error_iff {m m' : Machine} {fault : Fault} :
    readByte m = .error fault m' ↔
      ∃ cause port, m.Hears (.error cause) port ∧ fault = .source cause ∧ m' = ⟨port, m.tape⟩ := by
  simp only [Port.hears_iff]
  unfold readByte
  rcases m.nextByte with ⟨cause | heard, port⟩
  · simp [and_assoc, eq_comm]
  · simp

/-! ## Steps -/

/-- What can be seen of a session. -/
inductive Event
  /-- A read gave a byte, as a call or as an operation of running code. -/
  | heard (byte : UInt8)
  /-- A byte was written, by a call or by an operation of running code. -/
  | produced (byte : UInt8)
  | reset
deriving DecidableEq, Repr

/-- The bytes that were read, in their order. -/
def heard (log : List Event) : List UInt8 :=
  log.filterMap fun
    | .heard byte => some byte
    | _ => none

/-- The bytes that were written, in their order. -/
def produced (log : List Event) : List UInt8 :=
  log.filterMap fun
    | .produced byte => some byte
    | _ => none

theorem heard_append (log events : List Event) :
    heard (log ++ events) = heard log ++ heard events :=
  List.filterMap_append

theorem produced_append (log events : List Event) :
    produced (log ++ events) = produced log ++ produced events :=
  List.filterMap_append

/-- What can be seen of an operation that does not fail. -/
def events (o : Op) (m : Machine) : List Event :=
  match o with
  | .read =>
      match readByte m with
      | .ok byte _ => [.heard byte]
      | .error _ _ => []
  | .write => [.produced m.tape.current]
  | _ => []

/-- What can be seen of the next move on a stack of frames. -/
def frameEvents : List Frame → Machine → List Event
  | ⟨.op head _, _⟩ :: _, m => events head m
  | _, _ => []

inductive Session
  /-- Between two calls. -/
  | idle (m : Machine)
  /-- While code is executed. -/
  | running (frames : List Frame) (m : Machine)

def Session.machine : Session → Machine
  | idle m => m
  | running _ m => m

inductive Step : Session → List Event → Session → Prop
  | read {m m' : Machine} {byte : UInt8} : readByte m = .ok byte m' →
      Step (.idle m) [.heard byte] (.idle m')
  | readFails {m m' : Machine} {fault : Fault} : readByte m = .error fault m' →
      Step (.idle m) [] (.idle m')
  | write {m m' : Machine} {value : Int} : writeByte value m = .ok () m' →
      Step (.idle m) [.produced (UInt8.ofNat value.toNat)] (.idle m')
  | writeFails {m m' : Machine} {value : Int} {fault : Fault} :
      writeByte value m = .error fault m' → Step (.idle m) [] (.idle m')
  | flush (m : Machine) : Step (.idle m) [] (.idle (Outcome.machine (flush m)))
  | reset (m : Machine) : Step (.idle m) [.reset] (.idle m.reset)
  /-- Looking at the tape leaves it as it is. -/
  | dump (m : Machine) : Step (.idle m) [] (.idle m)
  | execute (code : Code) (m : Machine) : Step (.idle m) [] (.running [⟨code, none⟩] m)
  | executeText {text : String} {code : Code} (m : Machine) : Code.ofText text = .ok code →
      Step (.idle m) [] (.running [⟨code, none⟩] m)
  | unbalanced {text : String} {imbalance : Imbalance} (m : Machine) :
      Code.ofText text = .error imbalance → Step (.idle m) [] (.idle m)
  | move {frames frames' : List Frame} {m m' : Machine} : Moves (frames, m) (frames', m') →
      Step (.running frames m) (frameEvents frames m) (.running frames' m')
  | fault {o : Op} {rest : Code} {body : Option Code} {below : List Frame} {m m' : Machine}
      {fault : Fault} : perform o m = .error fault m' →
      Step (.running (⟨.op o rest, body⟩ :: below) m) [] (.idle m')
  /-- Code that has come to its end is flushed. -/
  | finish (m : Machine) : Step (.running [] m) [] (.idle (Outcome.machine (flush m)))

/-- Steps one after another, with all that can be seen of them. -/
inductive Steps : Session → List Event → Session → Prop
  | refl (s : Session) : Steps s [] s
  | next {s t u : Session} {first rest : List Event} : Step s first t → Steps t rest u →
      Steps s (first ++ rest) u

/-! ## Effects -/

/-- All that a step can do to a machine. -/
inductive Effect (m : Machine) : List Event → Machine → Prop
  | tape {tape : Tape} : tape.size = m.tape.size →
      (m.tape.pointer < m.tape.size → tape.pointer < tape.size) → Effect m [] ⟨m.toPort, tape⟩
  | heard {byte : UInt8} {port : Port} {tape : Tape} : m.Hears (.ok byte) port →
      tape = m.tape ∨ tape = m.tape.put byte → Effect m [.heard byte] ⟨port, tape⟩
  | deaf {cause : Source.Failure} {port : Port} : m.Hears (.error cause) port →
      Effect m [] ⟨port, m.tape⟩
  | produced (byte : UInt8) :
      Effect m [.produced byte] { m with written := m.written.push byte }
  /-- The sink takes what is collected and is asked to flush itself, whether it does so or not. -/
  | delivered : Effect m [] { m with
      written := #[]
      sink := { m.sink with
        calls := m.sink.calls + 1
        requests := m.sink.requests + 1
        taken := m.sink.taken ++ m.written } }
  | undelivered : Effect m [] { m with sink := { m.sink with calls := m.sink.calls + 1 } }
  | asked : Effect m [] { m with sink := { m.sink with requests := m.sink.requests + 1 } }
  | reset : Effect m [.reset] m.reset

theorem Effect.nothing (m : Machine) : Effect m [] m := .tape rfl id

theorem size_of_effect {m m' : Machine} {events : List Event} (effect : Effect m events m') :
    m'.tape.size = m.tape.size := by
  cases effect with
  | tape size => exact size
  | heard _ tape =>
      rcases tape with rfl | rfl
      · rfl
      · exact Tape.size_put _ _
  | reset => exact Tape.size_blank _
  | _ => rfl

theorem machine_flushSink (m : Machine) : Outcome.machine (flushSink m) =
    { m with sink := { m.sink with requests := m.sink.requests + 1 } } := by
  unfold flushSink
  dsimp only
  split
  · rfl
  · rfl

theorem effect_of_flush (m : Machine) : Effect m [] (Outcome.machine (flush m)) := by
  unfold flush
  split
  · rw [machine_flushSink]
    exact .asked
  · split
    · rw [machine_flushSink]
      exact .delivered
    · exact .undelivered

theorem effect_of_writeByte {m m' : Machine} {value : Int}
    (writes : writeByte value m = .ok () m') :
    Effect m [.produced (UInt8.ofNat value.toNat)] m' := by
  unfold writeByte at writes
  split at writes
  · cases writes
    exact .produced _
  · cases writes

theorem writeByte_error {m m' : Machine} {value : Int} {fault : Fault}
    (fails : writeByte value m = .error fault m') : m' = m := by
  unfold writeByte at fails
  split at fails
  · cases fails
  · cases fails
    rfl

theorem events_read {m : Machine} {byte : UInt8} {port : Port} (hears : m.Hears (.ok byte) port) :
    events .read m = [.heard byte] := by
  unfold events
  rw [readByte_ok_iff.2 ⟨port, hears, rfl⟩]

/-- An operation that does not fail reads, writes, or does something to the tape. -/
theorem effect_of_perform {o : Op} {m m' : Machine} (performed : perform o m = .ok () m') :
    Effect m (events o m) m' := by
  have kept := perform_keeps performed
  cases o with
  | add count =>
      cases performed
      exact .tape kept.1 kept.2.1
  | sub count =>
      cases performed
      exact .tape kept.1 kept.2.1
  | left count =>
      cases performed
      exact .tape kept.1 kept.2.1
  | right count =>
      cases performed
      exact .tape kept.1 kept.2.1
  | clear =>
      cases performed
      exact .tape kept.1 kept.2.1
  | set value =>
      rw [perform_set] at performed
      split at performed
      · cases performed
        exact .tape kept.1 kept.2.1
      · cases performed
  | read =>
      rcases found : m.nextByte with ⟨cause | byte, port⟩
      · rw [perform_read_error found] at performed
        cases performed
      · rw [perform_read_ok found] at performed
        cases performed
        have hears := Port.hears_iff.2 found
        rw [events_read hears]
        exact .heard hears (.inr rfl)
  | write =>
      cases performed
      exact .produced _
  | unknown name => cases performed

/-- An operation that fails has used up a reading of the source, or done nothing. -/
theorem effect_of_failure {o : Op} {m m' : Machine} {fault : Fault}
    (failed : perform o m = .error fault m') : Effect m [] m' := by
  have acts := Op.acts_iff.2 failed.symm
  cases acts with
  | setOutside => exact .nothing m
  | @readFailure _ cause source pending ended next =>
      have found : m.nextByte = (.error cause, { m.toPort with source }) := by
        simp [Port.nextByte, pending, ended, next]
      exact .deaf (Port.hears_iff.2 found)
  | unknown => exact .nothing m

theorem effect_of_move {frames frames' : List Frame} {m m' : Machine}
    (moves : Moves (frames, m) (frames', m')) : Effect m (frameEvents frames m) m' := by
  cases moves with
  | op performed => exact effect_of_perform performed
  | close => exact .nothing m
  | leave => exact .nothing m
  | again => exact .nothing m
  | skip => exact .nothing m
  | enter => exact .nothing m

theorem effect_of_step {before after : Session} {events : List Event}
    (step : Step before events after) : Effect before.machine events after.machine := by
  cases step with
  | read reads =>
      obtain ⟨port, hears, rfl⟩ := readByte_ok_iff.1 reads
      exact .heard hears (.inl rfl)
  | readFails fails =>
      obtain ⟨cause, port, hears, -, rfl⟩ := readByte_error_iff.1 fails
      exact .deaf hears
  | write writes => exact effect_of_writeByte writes
  | writeFails fails =>
      rw [writeByte_error fails]
      exact .nothing _
  | flush m => exact effect_of_flush m
  | reset m => exact .reset
  | dump m => exact .nothing m
  | execute code m => exact .nothing m
  | executeText m read => exact .nothing m
  | unbalanced m read => exact .nothing m
  | move moves => exact effect_of_move moves
  | fault failed => exact effect_of_failure failed
  | finish m => exact effect_of_flush m

/-! ## Whole sessions -/

theorem create_ok {room : Nat → Bool} {size : Int} {source : Source} {sink : Sink} {m : Machine}
    (created : create room size source sink = .ok m) :
    m = ⟨{ source, sink }, .blank size.toNat⟩ := by
  unfold create at created
  split at created
  · cases created
  · split at created
    · cases created
    · split at created
      · cases created
        rfl
      · cases created

theorem Steps.trans {s t u : Session} {first rest : List Event} (begun : Steps s first t)
    (ended : Steps t rest u) : Steps s (first ++ rest) u := by
  induction begun with
  | refl s => exact ended
  | next step _ ih =>
      rw [List.append_assoc]
      exact .next step (ih ended)

/-- What every effect keeps, with what has been seen so far, holds at every point of a session. -/
theorem Steps.invariant (holds : List Event → Machine → Prop)
    (keeps : ∀ {log events m m'}, Effect m events m' → holds log m → holds (log ++ events) m')
    {s t : Session} {log events : List Event} (steps : Steps s events t)
    (start : holds log s.machine) : holds (log ++ events) t.machine := by
  induction steps generalizing log with
  | refl s =>
      rw [List.append_nil]
      exact start
  | next step _ ih =>
      rw [← List.append_assoc]
      exact ih (keeps (effect_of_step step) start)

/-- The same for sessions without a reset. -/
theorem Steps.invariant_of_not_reset (holds : List Event → Machine → Prop)
    (keeps : ∀ {log events m m'}, Effect m events m' → .reset ∉ events → holds log m →
      holds (log ++ events) m')
    {s t : Session} {log : List Event} (steps : Steps s log t) (begins : holds [] s.machine)
    (unreset : .reset ∉ log) : holds log t.machine := by
  have start : Event.reset ∉ [] → holds [] s.machine := fun _ => begins
  refine Steps.invariant (fun log m => .reset ∉ log → holds log m) ?_ steps start unreset
  intro log events m m' effect held unreset
  rw [List.mem_append, not_or] at unreset
  exact keeps effect unreset.2 (held unreset.1)

/-- No session makes a tape longer or shorter. -/
theorem size_of_steps {s t : Session} {log : List Event} (steps : Steps s log t) :
    t.machine.tape.size = s.machine.tape.size := by
  induction steps with
  | refl s => rfl
  | next step _ ih => exact ih.trans (size_of_effect (effect_of_step step))

/-! ## Executing code -/

theorem reset_not_mem_frameEvents (frames : List Frame) (m : Machine) :
    .reset ∉ frameEvents frames m := by
  unfold frameEvents events
  split
  · split
    · split <;> simp
    · simp
    · exact List.not_mem_nil
  · exact List.not_mem_nil

theorem steps_of_moves {now next : List Frame × Machine} (moves : ReflTransGen Moves now next) :
    ∃ log, Steps (.running now.1 now.2) log (.running next.1 next.2) ∧ .reset ∉ log := by
  induction moves using ReflTransGen.head_induction_on with
  | refl => exact ⟨[], .refl _, List.not_mem_nil⟩
  | head first _ ih =>
      obtain ⟨log, steps, unreset⟩ := ih
      refine ⟨_, .next (.move first) steps, ?_⟩
      rw [List.mem_append, not_or]
      exact ⟨reset_not_mem_frameEvents _ _, unreset⟩

/-- Executing code that stops is a part of a session without a reset: it leads to the machine that
is left behind. -/
theorem unreset_of_execute {bound : Nat} {code : Code} {m : Machine} {outcome : Outcome Unit}
    (stopped : execute bound code m = some outcome) :
    ∃ log, Steps (.idle m) log (.idle (Outcome.machine outcome)) ∧ .reset ∉ log := by
  unfold execute at stopped
  cases ran : run bound [⟨code, none⟩] m with
  | none =>
      rw [ran] at stopped
      cases stopped
  | some result =>
      rw [ran] at stopped
      cases result with
      | ok _ m' =>
          cases stopped
          have gives := stops_iff_gives.1 ⟨bound, ran⟩
          obtain ⟨log, steps, unreset⟩ := steps_of_moves ((moves_of_gives gives).tail .close)
          refine ⟨_, .next (.execute code m) (steps.trans (.next (.finish m') (.refl _))), ?_⟩
          simpa using unreset
      | error fault m' =>
          cases stopped
          obtain ⟨o, before, ⟨rest, body, below, comes⟩, failed⟩ := comes_of_run ran
          obtain ⟨log, steps, unreset⟩ := steps_of_moves comes
          refine ⟨_, .next (.execute code m) (steps.trans (.next (.fault failed) (.refl _))), ?_⟩
          simpa using unreset

theorem steps_of_execute {bound : Nat} {code : Code} {m : Machine} {outcome : Outcome Unit}
    (stopped : execute bound code m = some outcome) :
    ∃ log, Steps (.idle m) log (.idle (Outcome.machine outcome)) := by
  obtain ⟨log, steps, -⟩ := unreset_of_execute stopped
  exact ⟨log, steps⟩

end Machine

end ByteTape
