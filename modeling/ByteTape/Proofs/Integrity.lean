import ByteTape.Proofs.Sessions

/-!
# The integrity of a session

Whatever is called on a machine, and whichever calls fail, the machine stays in order. Its tape
keeps its size, the pointer stays on it, and nothing is pending once the end of the input has been
seen, which is not forgotten before a reset. A number becomes a byte only if it is one.

* `Intact`: the invariant; `intact_of_effect`: every effect keeps it.
* `ended_of_effect`: the end of the input is forgotten by a reset only.
* `writeByte_ok_iff`, `perform_set_ok_iff`: no number is cut down to a byte.
-/

namespace ByteTape

namespace Port

variable {port after : Port} {heard : Except Source.Failure UInt8}

theorem ended_of_hears (hears : port.Hears heard after) (ended : port.ended = true) :
    after.ended = true := by
  cases hears with
  | pending => exact ended
  | behind => exact ended
  | line => exact ended
  | ending => rfl
  | failure => exact ended

/-- Reading leaves nothing pending behind the end of the input. -/
theorem drained_of_hears (hears : port.Hears heard after)
    (drained : port.ended = true → port.pending = []) :
    after.ended = true → after.pending = [] := by
  intro ended
  cases hears with
  | pending pending => cases pending.symm.trans (drained ended)
  | behind => exact drained ended
  | line _ going => cases going.symm.trans ended
  | ending pending => exact pending
  | failure _ going => cases going.symm.trans ended

end Port

namespace Machine

/-! ## Numbers and bytes -/

/-- A number that is a byte is taken as that byte, and any other one is refused. -/
theorem taken_ok_iff {value : Int} (take : UInt8 → Machine) {fault : Fault} {m m' : Machine} :
    (if 0 ≤ value ∧ value ≤ 255 then .ok () (take (UInt8.ofNat value.toNat))
      else .error fault m : Outcome Unit) = .ok () m' ↔
      ∃ byte : UInt8, (byte.toNat : Int) = value ∧ m' = take byte := by
  constructor
  · intro taken
    split at taken
    next range =>
      cases taken
      refine ⟨_, ?_, rfl⟩
      rw [UInt8.toNat_ofNat']
      omega
    next => cases taken
  · rintro ⟨byte, rfl, rfl⟩
    have bound := byte.toNat_lt
    rw [if_pos (by omega), Int.toNat_natCast, UInt8.ofNat_toNat]

theorem writeByte_ok_iff {value : Int} {m m' : Machine} :
    writeByte value m = .ok () m' ↔
      ∃ byte : UInt8, (byte.toNat : Int) = value ∧
        m' = { m with written := m.written.push byte } :=
  taken_ok_iff fun byte => { m with written := m.written.push byte }

theorem perform_set_ok_iff {value : Int} {m m' : Machine} :
    perform (.set value) m = .ok () m' ↔
      ∃ byte : UInt8, (byte.toNat : Int) = value ∧ m' = { m with tape := m.tape.put byte } :=
  taken_ok_iff fun byte => { m with tape := m.tape.put byte }

/-! ## What every effect keeps -/

/-- A machine in order, on a tape of so many cells. -/
structure Intact (size : Nat) (m : Machine) : Prop where
  size : m.tape.size = size
  inside : m.tape.pointer < m.tape.size
  /-- Nothing is pending behind the end of the input. -/
  drained : m.ended = true → m.pending = []

theorem intact_blank {size : Nat} (positive : 0 < size) (source : Source) (sink : Sink) :
    Intact size ⟨{ source, sink }, .blank size⟩ where
  size := Tape.size_blank size
  inside := (Tape.size_blank size).symm ▸ positive
  drained := fun _ => rfl

theorem intact_of_effect {size : Nat} {m m' : Machine} {events : List Event}
    (effect : Effect m events m') (intact : Intact size m) : Intact size m' := by
  have kept : m'.tape.size = size := (size_of_effect effect).trans intact.size
  cases effect with
  | tape _ stays => exact ⟨kept, stays intact.inside, intact.drained⟩
  | heard hears tape =>
      have drained := Port.drained_of_hears hears intact.drained
      rcases tape with rfl | rfl
      · exact ⟨kept, intact.inside, drained⟩
      · refine ⟨kept, ?_, drained⟩
        rw [Tape.pointer_put, Tape.size_put]
        exact intact.inside
  | deaf hears => exact ⟨kept, intact.inside, Port.drained_of_hears hears intact.drained⟩
  | produced => exact ⟨kept, intact.inside, intact.drained⟩
  | delivered => exact ⟨kept, intact.inside, intact.drained⟩
  | undelivered => exact ⟨kept, intact.inside, intact.drained⟩
  | asked => exact ⟨kept, intact.inside, intact.drained⟩
  | reset =>
      refine ⟨kept, ?_, fun _ => rfl⟩
      rw [size_of_effect .reset]
      exact Nat.zero_lt_of_lt intact.inside

theorem ended_of_effect {m m' : Machine} {events : List Event} (effect : Effect m events m')
    (unreset : .reset ∉ events) (ended : m.ended = true) : m'.ended = true := by
  cases effect with
  | tape => exact ended
  | heard hears => exact Port.ended_of_hears hears ended
  | deaf hears => exact Port.ended_of_hears hears ended
  | produced => exact ended
  | delivered => exact ended
  | undelivered => exact ended
  | asked => exact ended
  | reset => exact absurd (List.mem_singleton_self _) unreset

/-! ## Whole sessions -/

theorem intact_of_steps {size : Nat} {s t : Session} {log : List Event} (steps : Steps s log t)
    (intact : Intact size s.machine) : Intact size t.machine := by
  induction steps with
  | refl s => exact intact
  | next step _ ih => exact ih (intact_of_effect (effect_of_step step) intact)

theorem ended_of_steps {s t : Session} {log : List Event} (steps : Steps s log t)
    (unreset : .reset ∉ log) (ended : s.machine.ended = true) : t.machine.ended = true :=
  steps.invariant_of_not_reset (fun _ m => m.ended = true) ended_of_effect ended unreset

/-- At every point of a session that starts on a blank tape, also while code is running and behind
calls that failed, the tape has the cells it was made with and the pointer is on one of them, all
that is held is bytes, and nothing is pending if the end of the input has been seen; that it has
been seen is not forgotten before the next reset. Executing code is a part of a session, without a
reset, whatever it ends with. A value is stored as the byte that it is, or not at all. -/
theorem session_intact {size : Nat} (positive : 0 < size) (source : Source) (sink : Sink) :
    (∀ room start, create room size source sink = .ok start →
      start = ⟨{ source, sink }, .blank size⟩) ∧
    (∀ log session, Steps (.idle ⟨{ source, sink }, .blank size⟩) log session →
      session.machine.tape.size = size ∧ session.machine.tape.pointer < size ∧
      (∀ byte, byte ∈ session.machine.tape.cells.data ∨ byte ∈ session.machine.pending ∨
        byte ∈ session.machine.written → byte.toNat ≤ 255) ∧
      (session.machine.ended = true → session.machine.pending = []) ∧
      ∀ later session', Steps session later session' → .reset ∉ later →
        session.machine.ended = true → session'.machine.ended = true) ∧
    (∀ bound code m outcome, execute bound code m = some outcome →
      ∃ log, Steps (.idle m) log (.idle (Outcome.machine outcome)) ∧ .reset ∉ log) ∧
    ∀ value m m',
      (writeByte value m = .ok () m' ↔ ∃ byte : UInt8, (byte.toNat : Int) = value ∧
        m' = { m with written := m.written.push byte }) ∧
      (perform (.set value) m = .ok () m' ↔ ∃ byte : UInt8, (byte.toNat : Int) = value ∧
        m' = { m with tape := m.tape.put byte }) := by
  refine ⟨fun room start created => create_ok created, ?_, fun _ _ _ _ => unreset_of_execute,
    fun _ _ _ => ⟨writeByte_ok_iff, perform_set_ok_iff⟩⟩
  intro log session steps
  have intact := intact_of_steps steps (intact_blank positive source sink)
  exact ⟨intact.size, intact.size ▸ intact.inside, fun byte _ => Nat.le_of_lt_succ byte.toNat_lt,
    intact.drained, fun later session' => ended_of_steps⟩

/-- A read, a write and a run fail, and then the input is read to its end. -/
theorem session_intact_failing :
    let source : Source := .ofReadings [.failure .closed, .line [65]]
    ∃ session, Steps (.idle ⟨{ source, sink := .unlimited }, .blank 2⟩)
        [.heard 65, .heard 10, .heard 0] session ∧
      session.machine.ended = true ∧ session.machine.tape.get 1 = 253 ∧
      session.machine.tape.size = 2 ∧ session.machine.tape.pointer < 2 ∧
      session.machine.pending = [] ∧
      ∀ later session', Steps session later session' → .reset ∉ later →
        session'.machine.ended = true := by
  intro source
  let start : Machine := ⟨{ source, sink := .unlimited }, .blank 2⟩
  let code : Code := .op (.left 5) <| .op (.add (-3)) <| .op (.set 256) .nil
  have steps : ∃ session, Steps (.idle start) [.heard 65, .heard 10, .heard 0] session ∧
      session.machine.ended = true ∧ session.machine.tape.get 1 = 253 :=
    ⟨_, .next (.readFails rfl) <| .next (@Step.writeFails _ _ 300 _ rfl) <|
      .next (.execute code _) <| .next (.move (.op rfl)) <| .next (.move (.op rfl)) <|
      .next (.fault rfl) <| .next (.read rfl) <| .next (.read rfl) <| .next (.read rfl) <|
      .next (.dump _) <| .refl _, rfl, by decide⟩
  obtain ⟨session, steps, ended, cell⟩ := steps
  obtain ⟨size, inside, -, drained, stays⟩ :=
    (session_intact (by decide) source .unlimited).2.1 _ _ steps
  exact ⟨session, steps, ended, cell, size, inside, drained ended,
    fun later session' further unreset => stays later session' further unreset ended⟩

end Machine

end ByteTape
