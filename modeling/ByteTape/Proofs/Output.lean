import ByteTape.Proofs.Sessions

/-!
# The output of a session

No byte of a session without a reset is lost or delivered twice, whichever calls fail and whichever
writes the sink refuses: what the sink has taken and what is still collected are together the bytes
that were written.

* `Delivered`: the invariant; `delivered_of_effect`: every effect keeps it.
* `sink_of_run`: code that fails has not called the sink.
-/

namespace ByteTape

open Relation

theorem Port.output_of_hears {port after : Port} {heard : Except Source.Failure UInt8}
    (hears : port.Hears heard after) : after.written = port.written ∧ after.sink = port.sink := by
  cases hears with
  | pending => exact ⟨rfl, rfl⟩
  | behind => exact ⟨rfl, rfl⟩
  | line => exact ⟨rfl, rfl⟩
  | ending => exact ⟨rfl, rfl⟩
  | failure => exact ⟨rfl, rfl⟩

namespace Machine

/-! ## Bytes written and bytes delivered -/

/-- All bytes written so far, behind the bytes that the sink had at first. -/
def Delivered (first : List UInt8) (log : List Event) (m : Machine) : Prop :=
  m.sink.taken.toList ++ m.written.toList = first ++ produced log

theorem delivered_of_effect {first : List UInt8} {log events : List Event} {m m' : Machine}
    (effect : Effect m events m') (unreset : .reset ∉ events) (delivered : Delivered first log m) :
    Delivered first (log ++ events) m' := by
  unfold Delivered at delivered ⊢
  rw [produced_append, ← List.append_assoc, ← delivered]
  cases effect with
  | tape => exact (List.append_nil _).symm
  | heard hears =>
      obtain ⟨written, sink⟩ := Port.output_of_hears hears
      simp [written, sink, produced]
  | deaf hears =>
      obtain ⟨written, sink⟩ := Port.output_of_hears hears
      simp [written, sink, produced]
  | produced byte => simp [produced]
  | delivered => simp [produced]
  | undelivered => exact (List.append_nil _).symm
  | asked => exact (List.append_nil _).symm
  | reset => exact absurd (List.mem_singleton_self _) unreset

/-! ## Code that fails and code that ends -/

theorem sink_of_move {now next : List Frame × Machine} (moves : Moves now next) :
    next.2.sink = now.2.sink := by
  cases moves with
  | op performed => exact (perform_keeps performed).2.2.2
  | close => rfl
  | leave => rfl
  | again => rfl
  | skip => rfl
  | enter => rfl

theorem sink_of_moves {now next : List Frame × Machine} (moves : ReflTransGen Moves now next) :
    next.2.sink = now.2.sink := by
  induction moves with
  | refl => rfl
  | tail _ last ih => rw [sink_of_move last, ih]

theorem sink_of_run {steps : Nat} {frames : List Frame} {m m' : Machine} {fault : Fault}
    (failed : run steps frames m = some (.error fault m')) : m'.sink = m.sink := by
  obtain ⟨o, before, ⟨rest, body, below, comes⟩, fails⟩ := comes_of_run failed
  rw [(Op.acts_iff.2 fails.symm).keeps]
  exact sink_of_moves comes

theorem written_of_flushSink {m m' : Machine} (flushed : flushSink m = .ok () m') :
    m'.written = m.written := by
  have left := machine_flushSink m
  rw [flushed, Outcome.machine] at left
  rw [left]

theorem written_of_flush {m m' : Machine} (flushed : flush m = .ok () m') : m'.written = #[] := by
  unfold flush at flushed
  split at flushed
  next empty => rw [written_of_flushSink flushed, Array.isEmpty_iff.1 empty]
  next =>
    split at flushed
    · rw [written_of_flushSink flushed]
    · cases flushed

theorem execute_ok {steps : Nat} {code : Code} {m m' : Machine}
    (ended : execute steps code m = some (.ok () m')) :
    ∃ between, run steps [⟨code, none⟩] m = some (.ok () between) ∧ flush between = .ok () m' := by
  unfold execute at ended
  split at ended
  next between ran => exact ⟨between, ran, Option.some.inj ended⟩
  next unflushed => exact absurd ended (unflushed () m')

/-- At every point of a session without a reset, the bytes that the sink has taken and those still
collected are, in their order, the bytes written so far. Executing code is a part of a session, also
when it fails. Code that fails has passed nothing to the sink, and code that is executed to its end
leaves nothing collected. -/
theorem produced_delivered (size : Nat) (source : Source) (sink : Sink) :
    (∀ room start, create room size source sink = .ok start →
      start = ⟨{ source, sink }, .blank size⟩) ∧
    (∀ log session, Steps (.idle ⟨{ source, sink }, .blank size⟩) log session → .reset ∉ log →
      session.machine.sink.taken.toList ++ session.machine.written.toList =
        sink.taken.toList ++ produced log) ∧
    (∀ steps code m outcome, execute steps code m = some outcome →
      ∃ log, Steps (.idle m) log (.idle (Outcome.machine outcome))) ∧
    (∀ steps code m fault m', run steps [⟨code, none⟩] m = some (.error fault m') →
      execute steps code m = some (.error fault m') ∧ m'.sink = m.sink) ∧
    ∀ steps code m m', execute steps code m = some (.ok () m') → m'.written = #[] := by
  refine ⟨fun room start created => create_ok created, ?_, fun _ _ _ _ => steps_of_execute, ?_, ?_⟩
  · intro log session steps unreset
    exact steps.invariant_of_not_reset (Delivered sink.taken.toList) delivered_of_effect
      rfl unreset
  · intro steps code m fault m' failed
    refine ⟨?_, sink_of_run failed⟩
    rw [execute, failed]
  · intro steps code m m' ended
    obtain ⟨between, -, flushed⟩ := execute_ok ended
    exact written_of_flush flushed

/-- The sink refuses its first call, and the byte of that call goes out with the next one, behind
which the sink does not flush itself. -/
theorem produced_delivered_again :
    let sink : Sink := { accepts := fun call => call != 0, flushes := fun request => request != 0 }
    ∃ session,
      Steps (.idle ⟨{ source := .empty, sink }, .blank 1⟩) [.produced 7, .produced 0] session ∧
      session.machine.sink.taken.toList ++ session.machine.written.toList = [7, 0] ∧
      session.machine.sink.calls = 2 ∧ session.machine.written = #[] := by
  intro sink
  let start : Machine := ⟨{ source := .empty, sink }, .blank 1⟩
  have steps : ∃ session, Steps (.idle start) [.produced 7, .produced 0] session ∧
      session.machine.sink.calls = 2 ∧ session.machine.written = #[] :=
    ⟨_, .next (@Step.write start _ 7 rfl) <| .next (.flush _) <|
      .next (.execute (.op .write .nil) _) <| .next (.move (.op rfl)) <| .next (.move .close) <|
      .next (.finish _) <| .refl _, rfl, rfl⟩
  obtain ⟨session, steps, calls, written⟩ := steps
  exact ⟨session, steps, (produced_delivered 1 .empty sink).2.1 _ _ steps (by decide), calls,
    written⟩

end Machine

end ByteTape
