import ByteTape.Code.Reader
import ByteTape.Proofs.Behaviour

/-!
# Equivalent code

Two codes are equivalent when they have the same outcomes, faults included, from every place on a
ring.

* Equivalence is a congruence: `Equivalent.append` and `Equivalent.ofLoop`.
* The laws that reading relies on: runs in the same direction add up (`equiv_merge`), the loops
  `[-]` and `[+]` clear the cell (`equiv_clearing`), and clearing twice is clearing once
  (`equiv_clear_clear`).
-/

namespace ByteTape

open Behaviour

namespace Code

/-- The same outcomes from every place on a ring. -/
def Equivalent (first second : Code) : Prop :=
  ∀ m : Machine, m.tape.pointer < m.tape.size →
    ∀ outcome, first.Gives m outcome ↔ second.Gives m outcome

namespace Equivalent

theorem refl (code : Code) : Equivalent code code := fun _ _ _ => Iff.rfl

theorem symm {first second : Code} (same : Equivalent first second) : Equivalent second first :=
  fun m inside outcome => (same m inside outcome).symm

/-- Equivalent codes stop with the same outcomes, also with faults. -/
theorem stops_iff {first second : Code} (same : Equivalent first second) {m : Machine}
    (inside : m.tape.pointer < m.tape.size) (outcome : Machine.Outcome Unit) :
    Bounded.Stops (Machine.run · [⟨first, none⟩] m) outcome ↔
      Bounded.Stops (Machine.run · [⟨second, none⟩] m) outcome := by
  rw [Machine.stops_iff_gives, Machine.stops_iff_gives, same m inside]

theorem trans {first second third : Code} (same : Equivalent first second)
    (other : Equivalent second third) : Equivalent first third :=
  fun m inside outcome => (same m inside outcome).trans (other m inside outcome)

theorem sequence {first first' second second' : Code} (same : Equivalent first first')
    (other : Equivalent second second') {m : Machine} (inside : m.tape.pointer < m.tape.size)
    {outcome : Machine.Outcome Unit} (runs : Sequence first.Gives second.Gives m outcome) :
    Sequence first'.Gives second'.Gives m outcome := by
  cases runs with
  | both begun ended =>
      have kept := inside_of_gives begun inside
      exact .both ((same m inside _).1 begun) ((other _ kept _).1 ended)
  | fault begun => exact .fault ((same m inside _).1 begun)

theorem append {first first' second second' : Code} (same : Equivalent first first')
    (other : Equivalent second second') : Equivalent (first ++ second) (first' ++ second') := by
  intro m inside outcome
  rw [gives_append, gives_append]
  exact ⟨same.sequence other inside, same.symm.sequence other.symm inside⟩

theorem repeated {body body' : Code} (same : Equivalent body body') {m : Machine}
    (inside : m.tape.pointer < m.tape.size) {outcome : Machine.Outcome Unit}
    (loops : Repeated body.Gives m outcome) : Repeated body'.Gives m outcome := by
  induction loops with
  | done zero => exact .done zero
  | again more once _ ih =>
      have kept := inside_of_gives once inside
      exact .again more ((same _ inside _).1 once) (ih kept)
  | fault more once => exact .fault more ((same _ inside _).1 once)

theorem ofLoop {body body' : Code} (same : Equivalent body body') :
    Equivalent (Code.ofLoop body) (Code.ofLoop body') := by
  intro m inside outcome
  rw [gives_ofLoop, gives_ofLoop]
  exact ⟨same.repeated inside, same.symm.repeated inside⟩

end Equivalent

/-- Two operations that never fail together are one that never fails. -/
theorem equiv_pair {first second both : Op}
    (same : ∀ m : Machine, m.tape.pointer < m.tape.size → ∃ between after,
      Machine.perform first m = .ok () between ∧ Machine.perform second between = .ok () after ∧
        Machine.perform both m = .ok () after) :
    Equivalent (ofOp first ++ ofOp second) (ofOp both) := by
  intro m inside outcome
  obtain ⟨between, after, begun, ended, once⟩ := same m inside
  have runs : (ofOp first ++ ofOp second).Gives m (.ok () after) :=
    gives_append_ok.2 ⟨between, gives_ofOp.2 begun.symm, gives_ofOp.2 ended.symm⟩
  rw [gives_ofOp, once]
  constructor
  · exact fun rerun => gives_deterministic _ rerun runs
  · rintro rfl
    exact runs

theorem equiv_merge {first second merged : Op} (merges : first.merge second = some merged) :
    Equivalent (ofOp first ++ ofOp second) (ofOp merged) := by
  refine equiv_pair fun m inside => ?_
  have positive := Nat.zero_lt_of_lt inside
  unfold Op.merge at merges
  split at merges
  · cases merges
    exact ⟨_, _, rfl, rfl, by simp only [Machine.perform, Tape.add_add]⟩
  · cases merges
    exact ⟨_, _, rfl, rfl, by simp only [Machine.perform, Tape.add_add, Int.neg_add]⟩
  · cases merges
    exact ⟨_, _, rfl, rfl, by simp only [Machine.perform, Tape.move_move positive, Int.neg_add]⟩
  · cases merges
    exact ⟨_, _, rfl, rfl, by simp only [Machine.perform, Tape.move_move positive]⟩
  · cases merges

theorem equiv_clear_clear : Equivalent (ofOp .clear ++ ofOp .clear) (ofOp .clear) :=
  equiv_pair fun _ _ => ⟨_, _, rfl, rfl, by simp only [Machine.perform, Tape.put_put]⟩

/-- A loop that brings the cell nearer to zero, by a fixed amount each time, clears it. -/
theorem repeated_add {body : Code} (amount : Int)
    (adds : ∀ m, body.Gives m (.ok () { m with tape := m.tape.add amount }))
    (distance : UInt8 → Nat)
    (nearer : ∀ byte, byte ≠ 0 → distance (byte + UInt8.ofInt amount) < distance byte)
    (m : Machine) : Repeated body.Gives m (.ok () { m with tape := m.tape.put 0 }) := by
  -- the distance that is left bounds the number of rounds
  induction left : distance m.tape.current using Nat.strongRecOn generalizing m with
  | ind left ih =>
      by_cases zero : m.tape.current = 0
      · have kept : m.tape.put 0 = m.tape := by rw [← zero, Tape.put_current]
        rw [kept]
        exact .done zero
      · have inside := Tape.inside_of_current zero
        have moved : (m.tape.add amount).current = m.tape.current + UInt8.ofInt amount :=
          Tape.current_put inside _
        refine .again zero (adds m) ?_
        have closer := nearer _ zero
        rw [← moved, left] at closer
        have rest := ih _ closer { m with tape := m.tape.add amount } rfl
        rwa [Tape.add, Tape.put_put] at rest

theorem toNat_pred_lt {byte : UInt8} (notZero : byte ≠ 0) :
    (byte + UInt8.ofInt (-1)).toNat < byte.toNat := by
  have inside : byte.toNat ≠ 0 := fun zero => notZero (UInt8.toNat_inj.1 zero)
  have bound := byte.toNat_lt
  rw [UInt8.toNat_add, show (UInt8.ofInt (-1)).toNat = 255 from rfl]
  omega

theorem toNat_neg_succ_lt {byte : UInt8} (notZero : byte ≠ 0) :
    (-(byte + UInt8.ofInt 1)).toNat < (-byte).toNat := by
  have inside : byte.toNat ≠ 0 := fun zero => notZero (UInt8.toNat_inj.1 zero)
  have bound := byte.toNat_lt
  rw [UInt8.toNat_neg, UInt8.toNat_neg, UInt8.toNat_add, show (UInt8.ofInt 1).toNat = 1 from rfl,
    show UInt8.size = 256 from rfl]
  omega

theorem equiv_clearing {body : Code} (clears : body = ofOp (.sub 1) ∨ body = ofOp (.add 1)) :
    Equivalent (ofLoop body) (ofOp .clear) := by
  have loops : ∀ m : Machine,
      (ofLoop body).Gives m (.ok () { m with tape := m.tape.put 0 }) := by
    intro m
    rw [gives_ofLoop]
    rcases clears with rfl | rfl
    · exact repeated_add (-1) (fun m => gives_ofOp.2 rfl) UInt8.toNat
        (fun _ => toNat_pred_lt) m
    · exact repeated_add 1 (fun m => gives_ofOp.2 rfl) (fun byte => (-byte).toNat)
        (fun _ => toNat_neg_succ_lt) m
  intro m _ outcome
  rw [gives_ofOp]
  constructor
  · exact fun runs => gives_deterministic _ runs (loops m)
  · rintro rfl
    exact loops m

end Code

end ByteTape
