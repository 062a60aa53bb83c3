import ByteTape.Proofs.Writing

/-!
# Canonical code

Not every code can come out of reading a text. A count is at least one, runs in one direction are
one run, a second `clear` in a row is gone, and no loop is left that could be a `clear`. Code of
this form is canonical. Reading gives nothing else, and gives canonical code back when it was
written.

* `canonical_of_ofText`: what is read is canonical.
* `ofPrimitives_text`: canonical code is read back from its primitives.
* `size_le_of_ofText`: what is read has no more primitives than its text.
* `reread_canonical`: reading gives exactly the canonical codes that can be written, and writing
  undoes it on them.
-/

namespace ByteTape

open Draft

namespace Op

/-- An operation that reading can give. -/
def Readable : Op → Prop
  | .add count => 1 ≤ count
  | .sub count => 1 ≤ count
  | .left count => 1 ≤ count
  | .right count => 1 ≤ count
  | .set _ => False
  | .unknown _ => False
  | _ => True

/-- Whether two operations do not stay two when they are read side by side. -/
def joins : Op → Op → Bool
  | .add _, .add _ => true
  | .sub _, .sub _ => true
  | .left _, .left _ => true
  | .right _, .right _ => true
  | .clear, .clear => true
  | _, _ => false

instance decidableReadable : DecidablePred Readable
  | .add count => inferInstanceAs (Decidable (1 ≤ count))
  | .sub count => inferInstanceAs (Decidable (1 ≤ count))
  | .left count => inferInstanceAs (Decidable (1 ≤ count))
  | .right count => inferInstanceAs (Decidable (1 ≤ count))
  | .clear => isTrue trivial
  | .set _ => isFalse id
  | .read => isTrue trivial
  | .write => isTrue trivial
  | .unknown _ => isFalse id

theorem joins_symm {first second : Op} (joined : first.joins second) : second.joins first := by
  unfold joins at joined
  split at joined
  · rfl
  · rfl
  · rfl
  · rfl
  · rfl
  · cases joined

theorem Readable.regular {o : Op} (readable : o.Readable) : o.Regular := by
  cases o with
  | add count => exact Int.le_trans Int.one_nonneg readable
  | sub count => exact Int.le_trans Int.one_nonneg readable
  | left count => exact Int.le_trans Int.one_nonneg readable
  | right count => exact Int.le_trans Int.one_nonneg readable
  | set value => exact readable.elim
  | unknown name => exact readable
  | _ => trivial

/-- Merging counts adds them up and stays in their direction. -/
theorem Readable.merge {first second merged : Op} (readable : first.Readable)
    (readable' : second.Readable) (merges : first.merge second = some merged) :
    merged.Readable ∧ ∀ other : Op, merged.joins other → first.joins other := by
  have sum {m n : Int} (one : 1 ≤ m) (other : 1 ≤ n) : 1 ≤ m + n := by omega
  unfold Op.merge at merges
  split at merges
  · cases merges
    exact ⟨sum readable readable', fun other joined => by cases other <;> exact joined⟩
  · cases merges
    exact ⟨sum readable readable', fun other joined => by cases other <;> exact joined⟩
  · cases merges
    exact ⟨sum readable readable', fun other joined => by cases other <;> exact joined⟩
  · cases merges
    exact ⟨sum readable readable', fun other joined => by cases other <;> exact joined⟩
  · cases merges

theorem not_joins_of_merge {last o : Op} (apart : last.merge o = none) (counts : o ≠ .clear) :
    ¬ o.joins last := by
  intro joined
  unfold joins at joined
  split at joined
  · cases apart
  · cases apart
  · cases apart
  · cases apart
  · exact counts rfl
  · cases joined

/-- What does not join an operation is not merged with any of its kind. -/
theorem merge_eq_none {last o other : Op} (apart : ¬ last.joins o) (alike : other.joins o) :
    last.merge other = none := by
  unfold Op.merge
  split
  · cases o with
    | add count => exact absurd rfl apart
    | _ => cases alike
  · cases o with
    | sub count => exact absurd rfl apart
    | _ => cases alike
  · cases o with
    | left count => exact absurd rfl apart
    | _ => cases alike
  · cases o with
    | right count => exact absurd rfl apart
    | _ => cases alike
  · rfl

end Op

namespace Code

/-- The operation that code starts with. -/
def head? : Code → Option Op
  | op head _ => some head
  | _ => none

/-- Nothing joins where two codes meet with their starts. The first is a level that is held last
item first. -/
def Apart (level code : Code) : Prop :=
  ∀ last ∈ level.head?, ∀ first ∈ code.head?, ¬ last.joins first

/-- Readable operations that do not join with their neighbours, and loops that are no `clear`, at
any depth. -/
def Canonical : Code → Prop
  | nil => True
  | op head rest => head.Readable ∧ (∀ next ∈ rest.head?, ¬ head.joins next) ∧ rest.Canonical
  | loop body rest =>
      body ≠ ofOp (.add 1) ∧ body ≠ ofOp (.sub 1) ∧ body.Canonical ∧ rest.Canonical

instance decidableCanonical : DecidablePred Canonical
  | nil => isTrue trivial
  | op head rest =>
      have := decidableCanonical rest
      inferInstanceAs (Decidable (head.Readable ∧ (∀ next ∈ rest.head?, ¬ head.joins next) ∧
        rest.Canonical))
  | loop body rest =>
      have := decidableCanonical body
      have := decidableCanonical rest
      inferInstanceAs (Decidable (body ≠ ofOp (.add 1) ∧ body ≠ ofOp (.sub 1) ∧
        body.Canonical ∧ rest.Canonical))

theorem Canonical.regular {code : Code} (canonical : code.Canonical) : code.Every Op.Regular := by
  induction code with
  | nil => trivial
  | op head rest ih => exact ⟨canonical.1.regular, ih canonical.2.2⟩
  | loop body rest ihBody ihRest =>
      obtain ⟨_, _, body, rest⟩ := canonical
      exact ⟨ihBody body, ihRest rest⟩

/-- Which of two neighbours comes first does not matter to them. -/
theorem Canonical.reverseOnto {code tail : Code} (canonical : code.Canonical)
    (canonicalTail : tail.Canonical) (apart : Apart tail code) :
    (code.reverseOnto tail).Canonical := by
  induction code generalizing tail with
  | nil => exact canonicalTail
  | op head rest ih =>
      obtain ⟨readable, next, canonical⟩ := canonical
      refine ih canonical ⟨readable, fun last member joined => ?_, canonicalTail⟩ ?_
      · exact apart last member head rfl (Op.joins_symm joined)
      · rintro _ ⟨⟩ first member
        exact next first member
  | loop body rest _ ih =>
      obtain ⟨notAdd, notSub, canonicalBody, canonical⟩ := canonical
      exact ih canonical ⟨notAdd, notSub, canonicalBody, canonicalTail⟩ nofun

theorem Canonical.reverse {code : Code} (canonical : code.Canonical) : code.reverse.Canonical :=
  canonical.reverseOnto trivial nofun

theorem reverse_reverseOnto (code tail : Code) :
    (code.reverseOnto tail).reverse = tail.reverseOnto code := by
  induction code generalizing tail with
  | nil => rfl
  | op head rest ih => exact ih (op head tail)
  | loop body rest _ ih => exact ih (loop body tail)

theorem reverse_reverse (code : Code) : code.reverse.reverse = code :=
  code.reverse_reverseOnto nil

end Code

/-! ## What is read is canonical -/

namespace Draft

open Code

theorem pushOp_canonical {level : Code} (canonical : level.Canonical) {o : Op}
    (readable : o.Readable) (counts : o ≠ .clear) : (pushOp level o).Canonical := by
  cases level with
  | nil => exact ⟨readable, nofun, trivial⟩
  | loop body before => exact ⟨readable, nofun, canonical⟩
  | op last before =>
      rw [pushOp]
      cases merges : last.merge o with
      | none =>
          refine ⟨readable, ?_, canonical⟩
          rintro _ ⟨⟩
          exact Op.not_joins_of_merge merges counts
      | some merged =>
          obtain ⟨readableMerged, joins⟩ := canonical.1.merge readable merges
          exact ⟨readableMerged, fun next member joined =>
            canonical.2.1 next member (joins next joined), canonical.2.2⟩

theorem pushLoop_canonical {level body : Code} (canonical : level.Canonical)
    (canonicalBody : body.Canonical) : (pushLoop level body).Canonical := by
  unfold pushLoop
  split
  next =>
    split
    next => exact canonical
    next different =>
      refine ⟨trivial, fun last member joined => ?_, canonical⟩
      -- the only operation that a `clear` joins is another `clear`
      cases level with
      | op head before =>
          cases member
          cases last with
          | clear => exact different before rfl
          | _ => cases joined
      | _ => cases member
  next loops =>
    obtain ⟨notSub, notAdd⟩ := not_or.1 loops
    exact ⟨notAdd, notSub, canonicalBody, canonical⟩

theorem pushCode_canonical {code : Code} {text : List Primitive} (spelled : Spells code text)
    {level : Code} (canonical : level.Canonical) : (pushCode level code).Canonical := by
  induction spelled generalizing level with
  | nil => exact canonical
  | @op p _ _ _ stands _ ih =>
      refine ih (pushOp_canonical canonical ?_ ?_)
      · cases p <;> cases stands <;> decide
      · cases p <;> cases stands <;> decide
  | loop _ _ ihBody ihRest =>
      have inner : (pushCode .nil _).Canonical := ihBody trivial
      exact ihRest (pushLoop_canonical canonical inner.reverse)

end Draft

namespace Code

theorem canonical_of_ofText {text : String} {code : Code} (read : ofText text = .ok code) :
    code.Canonical := by
  obtain ⟨plain, spelled, rfl⟩ := exists_coalesce read
  have pushed : (pushCode .nil plain).Canonical := pushCode_canonical spelled trivial
  exact pushed.reverse

end Code

/-! ## Canonical code is read back -/

namespace Draft

open Code

theorem pushCode_append (level first second : Code) :
    pushCode level (first ++ second) = pushCode (pushCode level first) second := by
  induction first generalizing level with
  | nil => rfl
  | op head rest ih => exact ih (pushOp level head)
  | loop body rest _ ih => exact ih (pushLoop level (pushCode .nil body).reverse)

theorem pushOp_apart {level : Code} {o : Op} (apart : ∀ last ∈ level.head?, last.merge o = none) :
    pushOp level o = .op o level := by
  cases level with
  | op last before => rw [pushOp, apart last rfl]
  | _ => rfl

/-- A run that has begun takes up all that follows of it. -/
theorem pushCode_times {step : Int → Op}
    (merges : ∀ first second, (step first).merge (step second) = some (step (first + second)))
    (begun : Int) (count : Nat) (level : Code) :
    pushCode (.op (step begun) level) (times (step 1) count) =
      .op (step (begun + count)) level := by
  induction count generalizing begun with
  | zero => rw [times, pushCode, Int.natCast_zero, Int.add_zero]
  | succ count ih =>
      rw [times, pushCode, pushOp, merges]
      show pushCode (.op (step (begun + 1)) level) _ = _
      rw [ih, Int.natCast_succ, Int.add_assoc, Int.add_comm 1]

/-- The primitives of an operation bring it back, unless it joins with what was read before. -/
def Rereads (text : List Primitive) (o : Op) : Prop :=
  ∃ plain, Spells plain text ∧ ∀ level : Code, (∀ last ∈ level.head?, ¬ last.joins o) →
    pushCode level plain = .op o level

theorem rereads_run {p : Primitive} (step : Int → Op) (stands : p.op? = some (step 1))
    (merges : ∀ first second, (step first).merge (step second) = some (step (first + second)))
    (alike : ∀ count, (step 1).joins (step count)) {count : Int} (positive : 1 ≤ count) :
    Rereads (Primitive.run p count) (step count) := by
  obtain ⟨more, rfl⟩ : ∃ more : Nat, count = 1 + more := ⟨(count - 1).toNat, by omega⟩
  have length : (1 + (more : Int)).toNat = more + 1 := by omega
  refine ⟨times (step 1) (more + 1), ?_, fun level apart => ?_⟩
  · rw [Primitive.run, length]
    exact spells_times stands _
  · have first : pushOp level (step 1) = .op (step 1) level :=
      pushOp_apart fun last member => Op.merge_eq_none (apart last member) (alike _)
    rw [times, pushCode, first, pushCode_times merges]

theorem rereads_op {o : Op} (readable : o.Readable) : Rereads o.text o := by
  cases o with
  | add count => exact rereads_run .add rfl (fun _ _ => rfl) (fun _ => rfl) readable
  | sub count => exact rereads_run .sub rfl (fun _ _ => rfl) (fun _ => rfl) readable
  | left count => exact rereads_run .left rfl (fun _ _ => rfl) (fun _ => rfl) readable
  | right count => exact rereads_run .right rfl (fun _ _ => rfl) (fun _ => rfl) readable
  | clear =>
      refine ⟨ofLoop (ofOp (.sub 1)), .loop (.op rfl .nil) .nil, fun level apart => ?_⟩
      show pushLoop level (ofOp (.sub 1)) = _
      unfold pushLoop
      rw [if_pos (.inl rfl)]
      split
      next => exact absurd rfl (apart .clear rfl)
      next => rfl
  | read =>
      refine ⟨ofOp .read, .op rfl .nil, fun level _ => pushOp_apart fun last _ => ?_⟩
      cases last <;> rfl
  | write =>
      refine ⟨ofOp .write, .op rfl .nil, fun level _ => pushOp_apart fun last _ => ?_⟩
      cases last <;> rfl
  | set value => exact readable.elim
  | unknown name => exact readable.elim

/-- Canonical code comes back item by item on any level that does not join with it. -/
theorem exists_plain_of_canonical {code : Code} (canonical : code.Canonical) :
    ∃ plain, Spells plain code.text ∧ ∀ level : Code, Apart level code →
      pushCode level plain = code.reverseOnto level := by
  induction code with
  | nil => exact ⟨.nil, .nil, fun _ _ => rfl⟩
  | op head rest ih =>
      obtain ⟨readable, next, canonical⟩ := canonical
      obtain ⟨first, spelledFirst, pushesFirst⟩ := rereads_op readable
      obtain ⟨later, spelledLater, pushesLater⟩ := ih canonical
      refine ⟨first ++ later, spelledFirst.append spelledLater, fun level apart => ?_⟩
      rw [pushCode_append, pushesFirst level fun last member => apart last member head rfl]
      refine pushesLater (.op head level) ?_
      rintro _ ⟨⟩
      exact next
  | loop body rest ihBody ihRest =>
      obtain ⟨notAdd, notSub, canonicalBody, canonicalRest⟩ := canonical
      obtain ⟨inner, spelledInner, pushesInner⟩ := ihBody canonicalBody
      obtain ⟨later, spelledLater, pushesLater⟩ := ihRest canonicalRest
      have read : (pushCode .nil inner).reverse = body := by
        rw [pushesInner .nil nofun]
        exact reverse_reverse body
      refine ⟨.loop inner later, .loop spelledInner spelledLater, fun level _ => ?_⟩
      rw [pushCode, read]
      unfold pushLoop
      rw [if_neg (not_or.2 ⟨notSub, notAdd⟩)]
      exact pushesLater (.loop body level) nofun

end Draft

namespace Code

theorem ofPrimitives_text {code : Code} (canonical : code.Canonical) :
    ofPrimitives code.text = .ok code := by
  obtain ⟨plain, spelled, pushes⟩ := exists_plain_of_canonical canonical
  have read : plain.coalesce = code := by
    rw [coalesce, pushes .nil nofun]
    exact reverse_reverse code
  rw [ofPrimitives_eq_coalesce spelled, read]

/-! ## Sizes -/

theorem size_reverseOnto (code tail : Code) :
    (code.reverseOnto tail).size = code.size + tail.size := by
  induction code generalizing tail with
  | nil => rw [reverseOnto, size_nil, Int.zero_add]
  | op head rest ih =>
      rw [reverseOnto, ih, size_op, size_op]
      omega
  | loop body rest _ ih =>
      rw [reverseOnto, ih, size_loop, size_loop]
      omega

theorem size_reverse (code : Code) : code.reverse.size = code.size := by
  rw [reverse, size_reverseOnto, size_nil, Int.add_zero]

theorem size_merge {first second merged : Op} (merges : first.merge second = some merged) :
    merged.size = first.size + second.size := by
  unfold Op.merge at merges
  split at merges <;> cases merges <;> rfl

theorem size_pushOp (level : Code) (o : Op) : (pushOp level o).size = level.size + o.size := by
  cases level with
  | op last before =>
      rw [pushOp]
      cases merges : last.merge o with
      | none =>
          simp only [size_op]
          omega
      | some merged =>
          simp only [size_op, size_merge merges]
          omega
  | _ =>
      simp only [pushOp, size_nil, size_op, size_loop]
      omega

theorem size_pushLoop_le (level body : Code) :
    (pushLoop level body).size ≤ level.size + (2 + body.size) := by
  unfold pushLoop
  split
  next clears =>
    have one : body.size = 1 := by
      rcases clears with rfl | rfl
      · exact size_ofOp (.sub 1)
      · exact size_ofOp (.add 1)
    split
    next => omega
    next =>
      simp only [size_op, Op.size]
      omega
  next =>
    rw [size_loop]
    omega

theorem size_pushCode_le (level code : Code) :
    (pushCode level code).size ≤ level.size + code.size := by
  induction code generalizing level with
  | nil =>
      rw [pushCode, size_nil]
      omega
  | op head rest ih =>
      have later := ih (pushOp level head)
      rw [size_pushOp] at later
      rw [pushCode, size_op]
      omega
  | loop body rest ihBody ihRest =>
      have inner := ihBody .nil
      have pushed := size_pushLoop_le level (pushCode .nil body).reverse
      have later := ihRest (pushLoop level (pushCode .nil body).reverse)
      rw [size_reverse] at pushed
      rw [size_nil] at inner
      rw [pushCode, size_loop]
      omega

theorem size_of_spells {code : Code} {text : List Primitive} (spelled : Spells code text) :
    code.size = text.length := by
  induction spelled with
  | nil => exact size_nil
  | @op p o _ _ stands _ ih =>
      have one : o.size = 1 := by cases p <;> cases stands <;> rfl
      rw [size_op, one, ih, List.length_cons]
      omega
  | loop _ _ ihBody ihRest =>
      simp only [size_loop, ihBody, ihRest, List.length_cons, List.length_append]
      omega

/-- Reading never makes code longer than its text. -/
theorem size_le_of_ofText {text : String} {code : Code} (read : ofText text = .ok code) :
    code.size ≤ text.length := by
  obtain ⟨plain, spelled, rfl⟩ := exists_coalesce read
  have pushed := size_pushCode_le .nil plain
  have kept : (Primitive.ofText text).length ≤ text.length := by
    rw [← String.length_toList]
    exact List.length_filterMap_le _ _
  rw [size_of_spells spelled, size_nil] at pushed
  rw [coalesce, size_reverse]
  omega

/-- Canonical code that can be written is read back from what is written. -/
theorem exists_reread {code : Code} (canonical : code.Canonical)
    (short : code.size < Memory.indexLimit) :
    ∃ text : Text, code.toText = .ok text.chars ∧ ofText text.chars = .ok code := by
  have length : (Primitive.toText code.text).length = code.text.length := by
    rw [Primitive.toText, String.length_ofList, List.length_map]
  have short' : ((Primitive.toText code.text).length : Int) < Memory.indexLimit := by
    rwa [length, ← size_eq_length_text canonical.regular]
  refine ⟨⟨_, short'⟩, (toText_ok_iff canonical.regular).2 ⟨short, rfl⟩, ?_⟩
  rw [ofText, Primitive.ofText_toText, ofPrimitives_text canonical]

/-- What is read of a text can be written. -/
theorem size_lt_of_ofText {text : Text} {code : Code} (read : ofText text.chars = .ok code) :
    code.size < Memory.indexLimit :=
  Int.lt_of_le_of_lt (size_le_of_ofText read) text.short

end Code

/-- Texts are read as exactly the canonical codes whose number of primitives is an index. Such code
is written and read back as it was, and canonical code with more primitives is not written. So every
text that is read, written and read again gives the same code. -/
theorem reread_canonical (code : Code) :
    ((∃ text : Text, Code.ofText text.chars = .ok code) ↔
      code.Canonical ∧ code.size < Memory.indexLimit) ∧
    (code.Canonical →
      (code.size < Memory.indexLimit →
        ∃ text : Text, code.toText = .ok text.chars ∧ Code.ofText text.chars = .ok code) ∧
      (Memory.indexLimit ≤ code.size →
        code.toText = .error .count ∨ code.toText = .error .length)) ∧
    ∀ text : Text, Code.ofText text.chars = .ok code →
      ∃ written : Text, code.toText = .ok written.chars ∧ Code.ofText written.chars = .ok code := by
  have reads {text : Text} (read : Code.ofText text.chars = .ok code) :
      code.Canonical ∧ code.size < Memory.indexLimit :=
    ⟨Code.canonical_of_ofText read, Code.size_lt_of_ofText read⟩
  refine ⟨⟨?_, ?_⟩, fun canonical => ?_, fun text read => ?_⟩
  · rintro ⟨text, read⟩
    exact reads read
  · rintro ⟨canonical, short⟩
    obtain ⟨text, -, read⟩ := Code.exists_reread canonical short
    exact ⟨text, read⟩
  · exact ⟨Code.exists_reread canonical, Code.toText_error canonical.regular⟩
  · obtain ⟨canonical, short⟩ := reads read
    exact Code.exists_reread canonical short

/-- Empty loops, a loop around a `clear`, and `clear` next to loops. -/
theorem reread_canonical_clears :
    let code : Code :=
      .op .clear (.loop (.ofOp .clear) (.op .clear (.loop .nil (.ofOp (.sub 1)))))
    code.Canonical ∧ Code.ofText "[-][[-]][-][]-" = .ok code ∧
      ∃ written : Text, code.toText = .ok written.chars ∧ Code.ofText written.chars = .ok code := by
  intro code
  have canonical : code.Canonical := by decide
  have read : Code.ofText "[-][[-]][-][]-" = .ok code := rfl
  have short : (("[-][[-]][-][]-" : String).length : Int) < Memory.indexLimit := by decide
  obtain ⟨-, -, rereads⟩ := reread_canonical code
  exact ⟨canonical, read, rereads ⟨_, short⟩ read⟩

/-- A canonical run whose count is no index has no text. -/
theorem longTravel_not_written :
    (Code.ofLoop (.ofOp (.right Memory.indexLimit))).Canonical ∧
      (Code.ofLoop (.ofOp (.right Memory.indexLimit))).toText = .error .count ∧
      ¬ ∃ text, (Code.ofLoop (.ofOp (.right Memory.indexLimit))).toText = .ok text ∧
        Code.ofText text = .ok (.ofLoop (.ofOp (.right Memory.indexLimit))) := by
  have failed : (Code.ofLoop (.ofOp (.right Memory.indexLimit))).toText = .error .count := by
    rw [Code.toText_eq_spelled]
    rfl
  refine ⟨by decide, failed, ?_⟩
  rintro ⟨text, written, _⟩
  cases failed.symm.trans written

end ByteTape
