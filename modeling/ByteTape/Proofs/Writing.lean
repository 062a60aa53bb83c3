import ByteTape.Code.Writer
import ByteTape.Proofs.Reading

/-!
# Writing and reading back

Code that is written and read back is other code: a `set` comes back as a `clear` and a run, runs
that stood side by side are one run, and a loop may come back as a `clear`. It still does the same.

* `Code.spelled`: the primitives of code by recursion; `write_cons`: the loop of the writer, with code
  at the top of its stack, writes these.
* `Code.text`: the primitives of code, however many they are; `size_eq_length_text`: their number.
* `toText_cases`: code is written as this text, unless the text is too long to have a length.
* `exists_spells_text`: the text of code is also the text of plain code that does the same.
* `exists_equivalent`: so what is read back from a text of code does the same.
* `reread_sameEnd`: code that is written and read back does what it did.
-/

namespace ByteTape

open Behaviour Bounded

/-! ## Regular operations -/

namespace Op

/-- An instruction with a count that is not negative, or with a value that is a byte. -/
def Regular : Op → Prop
  | .add count => 0 ≤ count
  | .sub count => 0 ≤ count
  | .left count => 0 ≤ count
  | .right count => 0 ≤ count
  | .set value => 0 ≤ value ∧ value ≤ 255
  | .unknown _ => False
  | _ => True

theorem Regular.executable {o : Op} (regular : o.Regular) : o.Executable := by
  cases o with
  | set value => exact regular
  | unknown name => exact regular
  | _ => trivial

end Op

theorem Code.Every.imp {holds holds' : Op → Prop} (weaker : ∀ {o}, holds o → holds' o)
    {code : Code} (every : code.Every holds) : code.Every holds' := by
  induction code with
  | nil => trivial
  | op head rest ih => exact ⟨weaker every.1, ih every.2⟩
  | loop body rest ihBody ihRest => exact ⟨ihBody every.1, ihRest every.2⟩

/-! ## The loop of the writer -/

namespace Code

/-- The primitives of code: those of its items one behind the other, with brackets around those of a
body. -/
def spelled : Code → Except Unwritable (List Primitive)
  | nil => .ok []
  | op head rest => do
      let first ← head.primitives
      let later ← rest.spelled
      return first ++ later
  | loop body rest => do
      let inner ← body.spelled
      let later ← rest.spelled
      return .opening :: inner ++ .closing :: later

theorem write_cons (out : Array Primitive) (code : Code) (stack : List Code) :
    write out (code :: stack) =
      code.spelled >>= fun text => write (closeLevel (out ++ text) stack) stack := by
  induction code generalizing out stack with
  | nil =>
      rw [write, spelled]
      simp [bind, Except.bind]
  | op head rest ih =>
      rw [write, spelled]
      cases head.primitives with
      | error error => rfl
      | ok first =>
          dsimp only
          rw [ih]
          cases rest.spelled with
          | error error => rfl
          | ok later =>
              have joined : out ++ first ++ later = out ++ (first ++ later) := Array.ext' (by simp)
              simp only [bind, Except.bind, pure, Except.pure, joined]
  | loop body rest ihBody ihRest =>
      rw [write, ihBody, spelled]
      cases body.spelled with
      | error error => rfl
      | ok inner =>
          dsimp only [bind, Except.bind]
          rw [ihRest]
          cases rest.spelled with
          | error error => rfl
          | ok later =>
              have joined : (out.push .opening ++ inner).push .closing ++ later =
                  out ++ (.opening :: inner ++ .closing :: later) := Array.ext' (by simp)
              simp only [bind, Except.bind, pure, Except.pure, closeLevel, List.isEmpty_cons,
                Bool.false_eq_true, if_false, joined]

theorem write_singleton (code : Code) : write #[] [code] = code.spelled.map List.toArray := by
  rw [write_cons]
  cases code.spelled with
  | error error => rfl
  | ok text =>
      have whole : closeLevel (#[] ++ text) [] = text.toArray :=
        Array.ext' (Array.toList_appendList ..)
      simp only [bind, Except.bind, whole, write, Except.map]

theorem toText_eq_spelled (code : Code) : code.toText = code.spelled >>= join := by
  rw [toText, write_singleton]
  cases code.spelled with
  | error error => simp only [Except.map, bind, Except.bind]
  | ok text => simp only [Except.map, bind, Except.bind]

end Code

/-! ## The primitives of code -/

/-- The primitives of an operation, however many they are. -/
def Op.text : Op → List Primitive
  | .add count => Primitive.run .increment count
  | .sub count => Primitive.run .decrement count
  | .left count => Primitive.run .left count
  | .right count => Primitive.run .right count
  | .clear => Primitive.clearing
  | .set value =>
      Primitive.clearing ++
        if 128 < value then Primitive.run .decrement (setCost value)
        else Primitive.run .increment value
  | .read => [.read]
  | .write => [.write]
  | .unknown _ => []

/-- The primitives of code: those of its items one after another, with brackets around the body of
a loop. -/
def Code.text : Code → List Primitive
  | nil => []
  | op head rest => head.text ++ rest.text
  | loop body rest => .opening :: body.text ++ .closing :: rest.text

theorem Primitive.length_run {count : Int} (natural : 0 ≤ count) (p : Primitive) :
    ((run p count).length : Int) = count := by
  rw [run, List.length_replicate, Int.toNat_of_nonneg natural]

/-- A count that is not negative is written out unless it is no index. -/
theorem Primitive.counted_cases (p : Primitive) {count : Int} (natural : 0 ≤ count) :
    counted p count = .ok (run p count) ∨
      counted p count = .error .count ∧ Memory.indexLimit ≤ count := by
  unfold counted
  split
  next index => exact .inl rfl
  next index =>
    rw [Memory.isIndex_of_nonneg natural] at index
    exact .inr ⟨rfl, Int.not_lt.1 index⟩

namespace Op

theorem size_eq_length_text {o : Op} (regular : o.Regular) : o.size = o.text.length := by
  cases o with
  | add count | sub count | left count | right count => exact (Primitive.length_run regular _).symm
  | set value =>
      obtain ⟨low, high⟩ := regular
      rw [Op.size, Op.text, List.length_append, Int.natCast_add]
      by_cases down : 128 < value
      · have cost : setCost value = 256 - value := if_neg (Int.not_le.2 down)
        rw [if_pos down, Primitive.length_run (by omega)]
        rfl
      · have cost : setCost value = value := if_pos (Int.not_lt.1 down)
        rw [if_neg down, Primitive.length_run low, cost]
        rfl
  | unknown name => exact regular.elim
  | _ => rfl

theorem primitives_cases {o : Op} (regular : o.Regular) :
    o.primitives = .ok o.text ∨ o.primitives = .error .count ∧ Memory.indexLimit ≤ o.size := by
  cases o with
  | add count | sub count | left count | right count => exact Primitive.counted_cases _ regular
  | set value =>
      left
      rw [primitives, Primitive.setting, text]
      rw [if_pos (show 0 ≤ value ∧ value ≤ 255 from regular)]
      split
      · rfl
      · rfl
  | unknown name => exact regular.elim
  | _ => exact .inl rfl

end Op

namespace Code

theorem size_eq_length_text {code : Code} (regular : code.Every Op.Regular) :
    code.size = code.text.length := by
  induction code with
  | nil => exact size_nil
  | op head rest ih =>
      rw [size_op, text, Op.size_eq_length_text regular.1, ih regular.2, List.length_append,
        Int.natCast_add]
  | loop body rest ihBody ihRest =>
      rw [size_loop, text, ihBody regular.1, ihRest regular.2]
      simp only [List.length_append, List.length_cons]
      omega

theorem size_nonneg {code : Code} (regular : code.Every Op.Regular) : 0 ≤ code.size := by
  rw [size_eq_length_text regular]
  exact Int.natCast_nonneg _

/-- All primitives of code are written out unless one of its counts is no index. -/
theorem spelled_cases {code : Code} (regular : code.Every Op.Regular) :
    code.spelled = .ok code.text ∨
      code.spelled = .error .count ∧ Memory.indexLimit ≤ code.size := by
  induction code with
  | nil => exact .inl rfl
  | op head rest ih =>
      have first : 0 ≤ head.size := by
        rw [Op.size_eq_length_text regular.1]
        exact Int.natCast_nonneg _
      have later := size_nonneg regular.2
      rw [spelled, size_op]
      rcases Op.primitives_cases regular.1 with written | ⟨failed, long⟩
      · rcases ih regular.2 with writtenRest | ⟨failed, long⟩
        · rw [written, writtenRest]
          exact .inl rfl
        · rw [written, failed]
          exact .inr ⟨rfl, by omega⟩
      · rw [failed]
        exact .inr ⟨rfl, by omega⟩
  | loop body rest ihBody ihRest =>
      have inner := size_nonneg regular.1
      have later := size_nonneg regular.2
      rw [spelled, size_loop]
      rcases ihBody regular.1 with written | ⟨failed, long⟩
      · rcases ihRest regular.2 with writtenRest | ⟨failed, long⟩
        · rw [written, writtenRest]
          exact .inl rfl
        · rw [written, failed]
          exact .inr ⟨rfl, by omega⟩
      · rw [failed]
        exact .inr ⟨rfl, by omega⟩

/-- Code is written as its text if the number of its primitives is an index, and else not at all. -/
theorem toText_cases {code : Code} (regular : code.Every Op.Regular) :
    code.size < Memory.indexLimit ∧ code.toText = .ok (Primitive.toText code.text) ∨
      Memory.indexLimit ≤ code.size ∧
        (code.toText = .error .count ∨ code.toText = .error .length) := by
  rcases spelled_cases regular with written | ⟨failed, long⟩
  · have joined : code.toText = join code.text := by
      rw [toText_eq_spelled, written]
      simp only [bind, Except.bind]
    rw [joined, size_eq_length_text regular]
    rcases Int.lt_or_le code.text.length Memory.indexLimit with short | long
    · exact .inl ⟨short, if_neg (Int.not_le.2 short)⟩
    · exact .inr ⟨long, .inr (if_pos long)⟩
  · rw [toText_eq_spelled, failed]
    exact .inr ⟨long, .inl rfl⟩

theorem toText_ok_iff {code : Code} (regular : code.Every Op.Regular) {text : String} :
    code.toText = .ok text ↔
      code.size < Memory.indexLimit ∧ text = Primitive.toText code.text := by
  rcases toText_cases regular with ⟨short, written⟩ | ⟨long, failed | failed⟩
  · rw [written]
    exact ⟨fun same => ⟨short, (Except.ok.inj same).symm⟩, fun same => by rw [same.2]⟩
  · rw [failed]
    exact ⟨nofun, fun same => absurd same.1 (Int.not_lt.2 long)⟩
  · rw [failed]
    exact ⟨nofun, fun same => absurd same.1 (Int.not_lt.2 long)⟩

theorem exists_toText_iff {code : Code} (regular : code.Every Op.Regular) :
    (∃ text, code.toText = .ok text) ↔ code.size < Memory.indexLimit := by
  simp [toText_ok_iff regular]

theorem toText_error {code : Code} (regular : code.Every Op.Regular)
    (long : Memory.indexLimit ≤ code.size) :
    code.toText = .error .count ∨ code.toText = .error .length := by
  rcases toText_cases regular with ⟨short, -⟩ | ⟨-, failed⟩
  · exact absurd short (Int.not_lt.2 long)
  · exact failed

end Code

/-! ## Runs -/

namespace Code

theorem Spells.append {first second : Code} {text text' : List Primitive}
    (one : Spells first text) (other : Spells second text') :
    Spells (first ++ second) (text ++ text') := by
  induction one with
  | nil => exact other
  | op stands _ ih => exact .op stands ih
  | loop spelled _ _ ih =>
      rw [List.append_assoc]
      exact .loop spelled ih

/-- One operation again and again. -/
def times (o : Op) : Nat → Code
  | 0 => nil
  | count + 1 => op o (times o count)

theorem spells_times {p : Primitive} {o : Op} (stands : p.op? = some o) (count : Nat) :
    Spells (times o count) (List.replicate count p) := by
  induction count with
  | zero => exact .nil
  | succ count ih => exact .op stands ih

theorem equiv_idle {o : Op} (idle : ∀ m : Machine, m.tape.pointer < m.tape.size →
    Machine.perform o m = .ok () m) : Equivalent .nil (ofOp o) := by
  intro m inside outcome
  rw [gives_ofOp, idle m inside]
  exact Iff.rfl

/-- A run of steps is one step of the whole count. -/
theorem equiv_times {step : Int → Op}
    (merges : ∀ first second, (step first).merge (step second) = some (step (first + second)))
    (idle : Equivalent .nil (ofOp (step 0))) (count : Nat) :
    Equivalent (times (step 1) count) (ofOp (step count)) := by
  induction count with
  | zero => exact idle
  | succ count ih =>
      have grown := equiv_merge (merges 1 count)
      rw [Int.add_comm] at grown
      exact ((Equivalent.refl (ofOp (step 1))).append ih).trans grown

theorem exists_run {p : Primitive} {step : Int → Op} (stands : p.op? = some (step 1))
    (merges : ∀ first second, (step first).merge (step second) = some (step (first + second)))
    (idle : Equivalent .nil (ofOp (step 0))) {count : Int} (natural : 0 ≤ count) :
    ∃ plain, Spells plain (Primitive.run p count) ∧ Equivalent plain (ofOp (step count)) := by
  have whole := equiv_times merges idle count.toNat
  rw [Int.toNat_of_nonneg natural] at whole
  exact ⟨times (step 1) count.toNat, spells_times stands _, whole⟩

theorem exists_run_add {count : Int} (natural : 0 ≤ count) :
    ∃ plain, Spells plain (Primitive.run .increment count) ∧
      Equivalent plain (ofOp (.add count)) := by
  refine exists_run rfl (fun _ _ => rfl) (equiv_idle fun m _ => ?_) natural
  simp only [Machine.perform, Tape.add_zero]

theorem exists_run_sub {count : Int} (natural : 0 ≤ count) :
    ∃ plain, Spells plain (Primitive.run .decrement count) ∧
      Equivalent plain (ofOp (.sub count)) := by
  refine exists_run rfl (fun _ _ => rfl) (equiv_idle fun m _ => ?_) natural
  simp only [Machine.perform, Int.neg_zero, Tape.add_zero]

theorem exists_run_left {count : Int} (natural : 0 ≤ count) :
    ∃ plain, Spells plain (Primitive.run .left count) ∧
      Equivalent plain (ofOp (.left count)) := by
  refine exists_run rfl (fun _ _ => rfl) (equiv_idle fun m inside => ?_) natural
  simp only [Machine.perform, Int.neg_zero, Tape.move_zero inside]

theorem exists_run_right {count : Int} (natural : 0 ≤ count) :
    ∃ plain, Spells plain (Primitive.run .right count) ∧
      Equivalent plain (ofOp (.right count)) := by
  refine exists_run rfl (fun _ _ => rfl) (equiv_idle fun m inside => ?_) natural
  simp only [Machine.perform, Tape.move_zero inside]

/-- Clearing and counting up or down to a byte is setting it. -/
theorem equiv_set {value amount : Int} {count : Op} (reaches : amount % 256 = value)
    (counts : ∀ m, Machine.perform count m = .ok () { m with tape := m.tape.add amount }) :
    Equivalent (ofOp .clear ++ ofOp count) (ofOp (.set value)) := by
  refine equiv_pair fun m inside => ⟨_, _, rfl, counts _, ?_⟩
  have byte : 0 ≤ value ∧ value ≤ 255 := by omega
  have added : UInt8.ofInt amount = UInt8.ofNat value.toNat := by
    rw [UInt8.ofInt, show (2 : Int) ^ 8 = 256 from rfl, reaches]
  rw [Machine.perform_set, if_pos byte]
  simp only [Tape.add, Tape.current_put inside, UInt8.zero_add, Tape.put_put, added]

theorem exists_setting {value : Int} {counting : Code} {count : Op} {text : List Primitive}
    (sets : Equivalent (ofOp .clear ++ ofOp count) (ofOp (.set value)))
    (spelled : Spells counting text) (counts : Equivalent counting (ofOp count)) :
    ∃ plain, Spells plain (Primitive.clearing ++ text) ∧ Equivalent plain (ofOp (.set value)) := by
  have clears : Equivalent (ofLoop (ofOp (.sub 1))) (ofOp .clear) := equiv_clearing (.inl rfl)
  refine ⟨ofLoop (ofOp (.sub 1)) ++ counting, ?_, (clears.append counts).trans sets⟩
  exact Spells.append (.loop (.op rfl .nil) .nil) spelled

theorem exists_spells_set {value : Int} (byte : 0 ≤ value ∧ value ≤ 255) :
    ∃ plain, Spells plain (Op.set value).text ∧ Equivalent plain (ofOp (.set value)) := by
  rw [Op.text]
  by_cases high : 128 < value
  · have down : setCost value = 256 - value := if_neg (by omega)
    obtain ⟨plain, spelled, same⟩ := exists_run_sub (show 0 ≤ setCost value by omega)
    have reaches : -setCost value % 256 = value := by omega
    rw [if_pos high]
    exact exists_setting (equiv_set reaches fun _ => rfl) spelled same
  · obtain ⟨plain, spelled, same⟩ := exists_run_add byte.1
    have reaches : value % 256 = value := by omega
    rw [if_neg high]
    exact exists_setting (equiv_set reaches fun _ => rfl) spelled same

/-- The text of an operation spells plain code that does the same. -/
theorem exists_spells_op {o : Op} (regular : o.Regular) :
    ∃ plain, Spells plain o.text ∧ Equivalent plain (ofOp o) := by
  cases o with
  | add count => exact exists_run_add regular
  | sub count => exact exists_run_sub regular
  | left count => exact exists_run_left regular
  | right count => exact exists_run_right regular
  | clear => exact ⟨ofLoop (ofOp (.sub 1)), .loop (.op rfl .nil) .nil, equiv_clearing (.inl rfl)⟩
  | set value => exact exists_spells_set regular
  | read => exact ⟨ofOp .read, .op rfl .nil, .refl _⟩
  | write => exact ⟨ofOp .write, .op rfl .nil, .refl _⟩
  | unknown name => exact regular.elim

/-- The text of code spells plain code that does the same. -/
theorem exists_spells_text {code : Code} (regular : code.Every Op.Regular) :
    ∃ plain, Spells plain code.text ∧ Equivalent plain code := by
  induction code with
  | nil => exact ⟨.nil, .nil, .refl _⟩
  | op head rest ih =>
      obtain ⟨first, spelledFirst, sameFirst⟩ := exists_spells_op regular.1
      obtain ⟨later, spelledLater, sameLater⟩ := ih regular.2
      exact ⟨first ++ later, spelledFirst.append spelledLater, sameFirst.append sameLater⟩
  | loop body rest ihBody ihRest =>
      obtain ⟨inner, spelledInner, sameInner⟩ := ihBody regular.1
      obtain ⟨later, spelledLater, sameLater⟩ := ihRest regular.2
      exact ⟨.loop inner later, .loop spelledInner spelledLater, sameInner.ofLoop.append sameLater⟩

/-- Any text with the primitives of code is read as code that does the same. -/
theorem exists_equivalent {code : Code} (regular : code.Every Op.Regular) {text : String}
    (same : Primitive.ofText text = code.text) :
    ∃ reread, ofText text = .ok reread ∧ Equivalent code reread := by
  obtain ⟨plain, spelled, equivalent⟩ := exists_spells_text regular
  refine ⟨plain.coalesce, ?_, equivalent.symm.trans plain.coalesce_equiv.symm⟩
  rw [ofText, same]
  exact ofPrimitives_eq_coalesce spelled

end Code

/-- Code with counts that are not negative is written exactly if the number of its primitives is an
index, and what is written and read back does what the code does, also where a read fails. On a source
that does not fail, neither ever stops, or both come to their end with the same tape and pointer, the
same bytes written and the same input taken. -/
theorem reread_sameEnd {code : Code} (regular : code.Every Op.Regular) :
    (Memory.indexLimit ≤ code.size →
      code.toText = .error .count ∨ code.toText = .error .length) ∧
    (code.size < Memory.indexLimit → ∃ text reread,
      code.toText = .ok text ∧ Code.ofText text = .ok reread ∧
        ∀ m : Machine, m.tape.pointer < m.tape.size →
          (∀ outcome, Stops (Machine.run · [⟨code, none⟩] m) outcome ↔
            Stops (Machine.run · [⟨reread, none⟩] m) outcome) ∧
          (m.source.Reliable →
            Machine.SameEnd (Machine.run · [⟨code, none⟩] m)
              (Machine.run · [⟨reread, none⟩] m))) := by
  refine ⟨Code.toText_error regular, fun short => ?_⟩
  have written := (Code.toText_ok_iff regular).2 ⟨short, rfl⟩
  obtain ⟨reread, read, same⟩ := Code.exists_equivalent regular (Primitive.ofText_toText _)
  refine ⟨_, reread, written, read, fun m inside => ?_⟩
  have outcomes := same.stops_iff inside
  refine ⟨outcomes, fun reliable => Machine.sameEnd_of_iff outcomes fun stops => ?_⟩
  exact Code.gives_ok (regular.imp Op.Regular.executable) reliable
    (Machine.stops_iff_gives.1 stops)

theorem reread_sameEnd_set :
    ∃ text reread,
      (Code.op .clear (.op (.set 253) (.loop (.ofOp (.add 1)) .nil))).toText = .ok text ∧
      Code.ofText text = .ok reread ∧
      Machine.SameEnd
        (Machine.run · [⟨.op .clear (.op (.set 253) (.loop (.ofOp (.add 1)) .nil)), none⟩]
          ⟨{ source := .empty, sink := .unlimited }, .blank 3⟩)
        (Machine.run · [⟨reread, none⟩]
          ⟨{ source := .empty, sink := .unlimited }, .blank 3⟩) := by
  have regular : (Code.op .clear (.op (.set 253) (.loop (.ofOp (.add 1)) .nil))).Every
      Op.Regular := ⟨trivial, ⟨by decide, by decide⟩, ⟨Int.one_nonneg, trivial⟩, trivial⟩
  have short : (Code.op .clear (.op (.set 253) (.loop (.ofOp (.add 1)) .nil))).size <
      Memory.indexLimit := by
    simp only [Code.size_op, Code.size_loop, Code.size_nil, Code.size_ofOp]
    decide
  obtain ⟨text, reread, written, read, same⟩ := (reread_sameEnd regular).2 short
  exact ⟨text, reread, written, read, (same _ (by decide)).2 Source.reliable_empty⟩

/-- A run whose count is no index has no text. -/
theorem longRun_not_written :
    (Code.ofOp (.add Memory.indexLimit)).Every Op.Regular ∧
      (Code.ofOp (.add Memory.indexLimit)).toText = .error .count ∧
      ¬ ∃ text reread, (Code.ofOp (.add Memory.indexLimit)).toText = .ok text ∧
        Code.ofText text = .ok reread := by
  have failed : (Code.ofOp (.add Memory.indexLimit)).toText = .error .count := by
    rw [Code.toText_eq_spelled]
    rfl
  have natural : 0 ≤ Memory.indexLimit := by decide
  refine ⟨⟨natural, trivial⟩, failed, ?_⟩
  rintro ⟨text, _, written, _⟩
  cases failed.symm.trans written

end ByteTape
