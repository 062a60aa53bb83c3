import ByteTape.Proofs.Sessions

/-!
# The input of a session

Whatever happens between two reads, a session without a reset hears one stream of bytes: each line
of the source followed by one more line feed, and zeros from the end of the input on.

* `Source.stream`: as much of the stream as a number of line reads gives.
* `Port.stream_of_hears`: a read takes the first byte of what is still to come.
* `cutLines_flatMap`: for given bytes the stream repeats each line feed.
* `ofText_eq_ofBytes`: a text is heard as its UTF-8 bytes.
-/

namespace ByteTape

open Port (lineFeed)

/-! ## The stream of a source -/

namespace Source

/-- What the next line reads, as many as given, add to the stream. A read that fails adds nothing,
and behind the end of the input each read stands for one more zero. -/
def stream : Nat → Source → List UInt8
  | 0, _ => []
  | reads + 1, source =>
      match source.next with
      | (.failure _, after) => stream reads after
      | (.line [], _) => List.replicate (reads + 1) 0
      | (.line (byte :: rest), after) => byte :: rest ++ lineFeed :: stream reads after

/-- The stream of a source begins with the given bytes. -/
def Begins (source : Source) (given : List UInt8) : Prop :=
  ∃ reads, given <+: source.stream reads

theorem stream_failure {source : Source} {cause : Failure} (reads : Nat)
    (failure : source.reading source.used = .failure cause) :
    source.stream (reads + 1) = source.next.2.stream reads := by
  simp [stream, next, failure]

theorem stream_ending {source : Source} (reads : Nat)
    (ending : source.reading source.used = .line []) :
    source.stream (reads + 1) = List.replicate (reads + 1) 0 := by
  simp [stream, next, ending]

theorem stream_line {source : Source} {byte : UInt8} {rest : List UInt8} (reads : Nat)
    (line : source.reading source.used = .line (byte :: rest)) :
    source.stream (reads + 1) = byte :: rest ++ lineFeed :: source.next.2.stream reads := by
  simp [stream, next, line]

theorem stream_prefix_succ (reads : Nat) (source : Source) :
    source.stream reads <+: source.stream (reads + 1) := by
  induction reads generalizing source with
  | zero => exact List.nil_prefix
  | succ reads ih =>
      cases reading : source.reading source.used with
      | failure cause =>
          rw [stream_failure _ reading, stream_failure _ reading]
          exact ih _
      | line bytes =>
          cases bytes with
          | nil =>
              rw [stream_ending _ reading, stream_ending _ reading]
              exact ⟨[0], List.replicate_succ'.symm⟩
          | cons byte rest =>
              rw [stream_line _ reading, stream_line _ reading, List.prefix_append_right_inj,
                List.cons_prefix_cons]
              exact ⟨rfl, ih _⟩

theorem stream_prefix_add (source : Source) (reads more : Nat) :
    source.stream reads <+: source.stream (reads + more) := by
  induction more with
  | zero => exact List.prefix_rfl
  | succ more ih => exact ih.trans (stream_prefix_succ _ _)

/-- Two sources that go on alike have one stream. -/
theorem stream_congr {one other : Source}
    (alike : ∀ k, one.reading (one.used + k) = other.reading (other.used + k)) (reads : Nat) :
    one.stream reads = other.stream reads := by
  induction reads generalizing one other with
  | zero => rfl
  | succ reads ih =>
      have here : one.reading one.used = other.reading other.used := alike 0
      have later : one.next.2.stream reads = other.next.2.stream reads := by
        apply ih
        intro k
        simpa [next, Nat.add_assoc, Nat.add_comm 1] using alike (k + 1)
      cases reading : other.reading other.used with
      | failure cause =>
          rw [stream_failure _ (here.trans reading), stream_failure _ reading, later]
      | line bytes =>
          cases bytes with
          | nil => rw [stream_ending _ (here.trans reading), stream_ending _ reading]
          | cons byte rest =>
              rw [stream_line _ (here.trans reading), stream_line _ reading, later]

end Source

/-! ## The stream of a port -/

/-- What is still to be heard of a port. -/
def Port.stream (reads : Nat) (port : Port) : List UInt8 :=
  port.pending ++ if port.ended then List.replicate reads 0 else port.source.stream reads

/-- A read takes the first byte of the stream, or leaves the stream as it is. -/
theorem Port.stream_of_hears {port after : Port} {heard : Except Source.Failure UInt8}
    (hears : port.Hears heard after) (reads : Nat) :
    ∃ all, port.stream all = heard.toOption.toList ++ after.stream reads := by
  cases hears with
  | pending pending =>
      refine ⟨reads, ?_⟩
      simp [stream, Except.toOption, pending]
  | behind pending ended =>
      refine ⟨reads + 1, ?_⟩
      simp [stream, Except.toOption, pending, ended, List.replicate_succ]
  | line pending ended reading =>
      refine ⟨reads + 1, ?_⟩
      simp [stream, Except.toOption, pending, ended, Source.stream_line _ reading]
  | ending pending ended reading =>
      refine ⟨reads + 1, ?_⟩
      simp [stream, Except.toOption, pending, ended, Source.stream_ending _ reading, List.replicate_succ]
  | failure pending ended reading =>
      refine ⟨reads + 1, ?_⟩
      simp [stream, Except.toOption, pending, ended, Source.stream_failure _ reading]

/-- A port after the given bytes of a source were heard. -/
structure Port.Follows (source : Source) (given : List UInt8) (port : Port) : Prop where
  reading : port.source.reading = source.reading
  stream (reads : Nat) : ∃ all, source.stream all = given ++ port.stream reads
  /-- No line is read behind the end of the input. -/
  ending {i : Nat} : source.used ≤ i → i < port.source.used → source.reading i = .line [] →
    i + 1 = port.source.used ∧ port.ended = true

namespace Port.Follows

variable {source : Source} {given : List UInt8} {port after : Port}

theorem start (source : Source) (sink : Sink) : Follows source [] { source, sink } where
  reading := rfl
  stream reads := ⟨reads, rfl⟩
  ending early late := absurd late (Nat.not_lt.2 early)

/-- Nothing is heard of what happens to the output. -/
theorem output (follows : Follows source given port) (written : Array UInt8) (sink : Sink) :
    Follows source given { port with written, sink } :=
  ⟨follows.reading, follows.stream, follows.ending⟩

/-- While the end of the input has not been seen, it can only be in the reading that comes next. -/
theorem ending_of_open (follows : Follows source given port) (ended : port.ended = false) {i : Nat}
    (begun : source.used ≤ i) (past : i < port.source.used + 1)
    (reading : source.reading i = .line []) : i = port.source.used := by
  rcases Nat.lt_or_eq_of_le (Nat.le_of_lt_succ past) with before | here
  · have seen := (follows.ending begun before reading).2
    rw [ended] at seen
    cases seen
  · exact here

theorem hears {heard : Except Source.Failure UInt8} (follows : Follows source given port)
    (hears : port.Hears heard after) :
    Follows source (given ++ heard.toOption.toList) after where
  reading := by
    rw [← follows.reading]
    cases hears <;> rfl
  stream reads := by
    obtain ⟨more, rest⟩ := Port.stream_of_hears hears reads
    obtain ⟨all, whole⟩ := follows.stream more
    refine ⟨all, ?_⟩
    rw [whole, rest, List.append_assoc]
  ending {i} begun past reading := by
    cases hears with
    | pending => exact follows.ending begun past reading
    | behind => exact follows.ending begun past reading
    | line _ ended line =>
        have here := follows.ending_of_open ended begun past reading
        rw [follows.reading, ← here, reading] at line
        cases line
    | ending _ ended =>
        obtain rfl := follows.ending_of_open ended begun past reading
        exact ⟨rfl, rfl⟩
    | failure _ ended failure =>
        have here := follows.ending_of_open ended begun past reading
        rw [follows.reading, ← here, reading] at failure
        cases failure

end Port.Follows

namespace Machine

theorem follows_of_effect {source : Source} {log events : List Event} {m m' : Machine}
    (effect : Effect m events m') (unreset : .reset ∉ events)
    (follows : Port.Follows source (heard log) m.toPort) :
    Port.Follows source (heard (log ++ events)) m'.toPort := by
  rw [heard_append]
  cases effect with
  | heard hears => exact follows.hears hears
  | deaf hears => exact follows.hears hears
  | reset => exact absurd (List.mem_singleton_self _) unreset
  | tape => simpa [heard] using follows
  | produced byte => simpa [heard] using follows.output _ _
  | delivered => simpa [heard] using follows.output _ _
  | undelivered => simpa [heard] using follows.output _ _
  | asked => simpa [heard] using follows.output _ _

theorem follows_of_steps {source : Source} {sink : Sink} {tape : Tape} {session : Session}
    {log : List Event} (steps : Steps (.idle ⟨{ source, sink }, tape⟩) log session)
    (unreset : .reset ∉ log) : Port.Follows source (heard log) session.machine.toPort :=
  steps.invariant_of_not_reset (fun log m => Port.Follows source (heard log) m.toPort)
    follows_of_effect (Port.Follows.start source sink) unreset

end Machine

/-! ## Lines -/

namespace Source

section

variable {α : Type} {endsLine : α → Bool}

theorem cutLines_eq_nil {items : List α} : cutLines endsLine items = [] ↔ items = [] := by
  cases items with
  | nil => simp [cutLines]
  | cons item rest =>
      rw [cutLines]
      split
      · simp
      · split <;> simp

theorem nil_notMem_cutLines (endsLine : α → Bool) (items : List α) :
    [] ∉ cutLines endsLine items := by
  induction items with
  | nil => simp [cutLines]
  | cons item rest ih =>
      rw [cutLines]
      split
      · simpa using ih
      · split
        · simp
        · rename_i line lines cut
          rw [cut] at ih
          simp_all

/-- Items in front that end no line belong to the first line. -/
theorem cutLines_append {front : List α} (plain : ∀ item ∈ front, endsLine item = false)
    (full : front ≠ []) (rest : List α) :
    cutLines endsLine (front ++ rest) =
      match cutLines endsLine rest with
      | [] => [front]
      | line :: lines => (front ++ line) :: lines := by
  induction front with
  | nil => exact absurd rfl full
  | cons item front ih =>
      have ends : endsLine item = false := plain item List.mem_cons_self
      have plain' : ∀ item ∈ front, endsLine item = false :=
        fun other inside => plain other (List.mem_cons_of_mem _ inside)
      rw [List.cons_append, cutLines, ends]
      cases front with
      | nil => rfl
      | cons second front =>
          rw [ih plain' (List.cons_ne_nil _ _)]
          cases cutLines endsLine rest <;> rfl

end

/-! ## Given bytes -/

/-- Each line feed is repeated. -/
def doubled (bytes : List UInt8) : List UInt8 :=
  bytes.flatMap fun byte => if byte = lineFeed then [byte, byte] else [byte]

/-- What a last line without a line feed is ended with. -/
def closing (bytes : List UInt8) : List UInt8 :=
  match bytes.getLast? with
  | none => []
  | some last => if last = lineFeed then [] else [lineFeed]

theorem closing_lineFeed (bytes : List UInt8) : closing (lineFeed :: bytes) = closing bytes := by
  cases bytes <;> simp [closing, List.getLast?_cons]

theorem closing_cons {bytes : List UInt8} (full : bytes ≠ []) (byte : UInt8) :
    closing (byte :: bytes) = closing bytes := by
  obtain ⟨first, rest, rfl⟩ := List.exists_cons_of_ne_nil full
  simp [closing, List.getLast?_cons_cons]

theorem cutLines_flatMap (bytes : List UInt8) :
    (cutLines (· == lineFeed) bytes).flatMap (· ++ [lineFeed]) =
      doubled bytes ++ closing bytes := by
  induction bytes with
  | nil => rfl
  | cons byte rest ih =>
      by_cases feed : byte = lineFeed
      · subst feed
        rw [closing_lineFeed]
        simpa [cutLines, doubled] using ih
      · cases cut : cutLines (· == lineFeed) rest with
        | nil =>
            have none := cutLines_eq_nil.1 cut
            subst none
            simp [cutLines, doubled, closing, feed]
        | cons line lines =>
            rw [cut] at ih
            have full : rest ≠ [] := fun none => by simp [none, cutLines] at cut
            rw [closing_cons full]
            simpa [cutLines, doubled, feed, cut] using ih

theorem reading_ofReadings (readings : List Reading) (i : Nat) :
    (ofReadings readings).reading i = readings.getD i (.line []) := by
  simp [ofReadings]

theorem stream_next_ofReadings (first : Reading) (readings : List Reading) (reads : Nat) :
    (ofReadings (first :: readings)).next.2.stream reads = (ofReadings readings).stream reads := by
  refine stream_congr (fun k => ?_) reads
  have behind : (ofReadings (first :: readings)).next.2.used + k = k + 1 := Nat.add_comm 1 k
  have fresh : (ofReadings readings).used + k = k := Nat.zero_add k
  rw [behind, fresh, reading_ofReadings, next, reading_ofReadings]
  rfl

/-- Lines that are given one by one are heard with a line feed more each, and then zeros. -/
theorem stream_ofReadings {lines : List (List UInt8)} (full : [] ∉ lines) (count : Nat) :
    (ofReadings (lines.map .line)).stream (lines.length + count) =
      lines.flatMap (· ++ [lineFeed]) ++ List.replicate count 0 := by
  induction lines with
  | nil =>
      rw [List.length_nil, Nat.zero_add]
      cases count with
      | zero => rfl
      | succ count => exact stream_ending count rfl
  | cons line lines ih =>
      rw [List.mem_cons, not_or] at full
      obtain ⟨byte, rest, rfl⟩ := List.exists_cons_of_ne_nil (Ne.symm full.1)
      rw [List.length_cons, Nat.add_right_comm, stream_line (lines.length + count) rfl,
        List.map_cons, stream_next_ofReadings, ih full.2]
      simp

theorem begins_ofBytes {bytes given : List UInt8} :
    (ofBytes bytes).Begins given ↔
      ∃ count, given <+: doubled bytes ++ closing bytes ++ List.replicate count 0 := by
  have all (count : Nat) := stream_ofReadings (nil_notMem_cutLines (· == lineFeed) bytes) count
  rw [cutLines_flatMap] at all
  constructor
  · rintro ⟨reads, begins⟩
    refine ⟨reads, ?_⟩
    rw [← all, Nat.add_comm]
    exact begins.trans (stream_prefix_add _ _ _)
  · rintro ⟨count, begins⟩
    rw [← all] at begins
    exact ⟨_, begins⟩

end Source

/-! ## Texts -/

namespace Text

theorem toList_loop (bytes : ByteArray) (i : Nat) (front : List UInt8) :
    ByteArray.toList.loop bytes i front = front.reverse ++ bytes.data.toList.drop i := by
  fun_induction ByteArray.toList.loop bytes i front with
  | case1 i front inside ih =>
      have inside' : i < bytes.data.toList.length := by simpa using inside
      rw [ih, List.drop_eq_getElem_cons inside']
      simp [ByteArray.get!, inside]
  | case2 i front outside =>
      have past : bytes.data.toList.length ≤ i := by simpa using outside
      rw [List.drop_eq_nil_of_le past, List.append_nil]

theorem toUTF8_ofList (chars : List Char) :
    (String.ofList chars).toUTF8.toList = chars.flatMap String.utf8EncodeChar := by
  rw [String.toUTF8_eq_toByteArray, String.toByteArray_ofList, List.utf8Encode, ByteArray.toList,
    toList_loop, List.toList_data_toByteArray]
  rfl

theorem lineFeed_eq_ofNat {n : Nat} (byte : n < 256) : lineFeed = UInt8.ofNat n ↔ n = 10 := by
  rw [← UInt8.toNat_inj, UInt8.toNat_ofNat_of_lt' byte]
  exact eq_comm

theorem lineFeed_mem_utf8 {c : Char} : lineFeed ∈ String.utf8EncodeChar c ↔ c = '\n' := by
  have code : lineFeed ∈ String.utf8EncodeChar c ↔ c.val.toNat = 10 := by
    unfold String.utf8EncodeChar
    generalize c.val.toNat = v
    dsimp only
    split
    · simp (disch := omega) only [List.mem_singleton, lineFeed_eq_ofNat]
    -- All bytes of a longer encoding are 128 or more.
    · split
      · simp (disch := omega) only [List.mem_cons, List.not_mem_nil, or_false, lineFeed_eq_ofNat]
        omega
      · split
        all_goals
          simp (disch := omega) only [List.mem_cons, List.not_mem_nil, or_false, lineFeed_eq_ofNat]
          omega
  rw [code, Char.ext_iff, ← UInt32.toNat_inj]
  rfl

theorem utf8_lineFeed : String.utf8EncodeChar '\n' = [lineFeed] := by decide

end Text

namespace Source

/-- The lines of a text are the lines of its bytes. -/
theorem cutLines_utf8 (chars : List Char) :
    cutLines (· == lineFeed) (chars.flatMap String.utf8EncodeChar) =
      (cutLines (· == '\n') chars).map (·.flatMap String.utf8EncodeChar) := by
  induction chars with
  | nil => rfl
  | cons c rest ih =>
      by_cases feed : c = '\n'
      · subst feed
        simp [Text.utf8_lineFeed, cutLines, ih]
      · have plain : ∀ byte ∈ String.utf8EncodeChar c, (byte == lineFeed) = false := by
          intro byte inside
          refine beq_false_of_ne fun isFeed => feed (Text.lineFeed_mem_utf8.1 ?_)
          rwa [← isFeed]
        rw [List.flatMap_cons, cutLines_append plain String.utf8EncodeChar_ne_nil, ih]
        cases cut : cutLines (· == '\n') rest with
        | nil => simp [cutLines, feed, cut]
        | cons line lines => simp [cutLines, feed, cut]

theorem ofText_eq_ofBytes (text : String) : ofText text = ofBytes text.toUTF8.toList := by
  have bytes := Text.toUTF8_ofList text.toList
  rw [String.ofList_toList] at bytes
  unfold ofText ofBytes
  simp only [Text.toUTF8_ofList]
  rw [bytes, ← lineFeed, cutLines_utf8, List.map_map]
  rfl

end Source

/-! ## What a session hears -/

namespace Machine

/-- A line has to be read and this fails. Only the reading is used up. -/
def ReadFails (cause : Source.Failure) (m m' : Machine) : Prop :=
  m.pending = [] ∧ m.ended = false ∧ m.source.reading m.source.used = .failure cause ∧
    m' = { m with source := m.source.next.2 }

theorem readByte_fails_iff {m m' : Machine} {fault : Fault} :
    readByte m = .error fault m' ↔ ∃ cause, fault = .source cause ∧ ReadFails cause m m' := by
  rw [readByte_error_iff]
  constructor
  · rintro ⟨cause, port, hears, rfl, rfl⟩
    cases hears with
    | failure pending ended reading => exact ⟨cause, rfl, pending, ended, reading, rfl⟩
  · rintro ⟨cause, rfl, pending, ended, reading, rfl⟩
    exact ⟨cause, _, .failure pending ended reading, rfl, rfl⟩

theorem perform_read_fails_iff {m m' : Machine} {fault : Fault} :
    perform .read m = .error fault m' ↔ ∃ cause, fault = .source cause ∧ ReadFails cause m m' := by
  rw [← readByte_fails_iff]
  cases read : readByte m with
  | ok byte after => simp [perform, read]
  | error problem after => simp [perform, read]

/-- The bytes that a session without a reset reads, by calls and by code, are the beginning of one
stream, and no line is read behind the end of the input. A read fails just when it needs a line that
cannot be read. The stream of given bytes repeats each line feed and ends the last line, and a text
is heard as its UTF-8 bytes. -/
theorem heard_stream (size : Nat) (source : Source) (sink : Sink) :
    (∀ room start, create room size source sink = .ok start →
      start = ⟨{ source, sink }, .blank size⟩) ∧
    (∀ log session, Steps (.idle ⟨{ source, sink }, .blank size⟩) log session → .reset ∉ log →
      source.Begins (heard log) ∧
        ∀ i, source.used ≤ i → source.reading i = .line [] →
          session.machine.source.used ≤ i + 1) ∧
    (∀ m fault m',
      (readByte m = .error fault m' ↔ ∃ cause, fault = .source cause ∧ ReadFails cause m m') ∧
        (perform .read m = .error fault m' ↔
          ∃ cause, fault = .source cause ∧ ReadFails cause m m')) ∧
    (∀ bytes given, (Source.ofBytes bytes).Begins given ↔
      ∃ count, given <+:
        Source.doubled bytes ++ Source.closing bytes ++ List.replicate count 0) ∧
    ∀ text, Source.ofText text = Source.ofBytes text.toUTF8.toList := by
  refine ⟨fun room start created => create_ok created, ?_,
    fun m fault m' => ⟨readByte_fails_iff, perform_read_fails_iff⟩,
    fun bytes given => Source.begins_ofBytes, Source.ofText_eq_ofBytes⟩
  intro log session steps unreset
  have follows := follows_of_steps steps unreset
  constructor
  · obtain ⟨reads, whole⟩ := follows.stream 0
    exact ⟨reads, whole ▸ List.prefix_append _ _⟩
  · intro i begun reading
    rcases Nat.lt_or_ge i session.machine.source.used with past | ahead
    · exact Nat.le_of_eq (follows.ending begun past reading).1.symm
    · exact Nat.le_succ_of_le ahead

/-- Two lines cannot be read, the second because of a surrogate in it. -/
theorem heard_stream_after_failure :
    let source : Source :=
      .ofReadings [.failure .closed, .failure (.unencodable 0xDC80 0 0), .line [65]]
    ∃ session,
      Steps (.idle ⟨{ source, sink := .unlimited }, .blank 1⟩) [.heard 65, .heard 10, .heard 0]
        session ∧
      source.Begins [65, 10, 0] ∧ session.machine.source.used ≤ 4 := by
  intro source
  have steps : ∃ session, Steps (.idle ⟨{ source, sink := .unlimited }, .blank 1⟩)
      [.heard 65, .heard 10, .heard 0] session :=
    ⟨_, .next (.readFails rfl) <| .next (.readFails rfl) <| .next (.read rfl) <|
      .next (.execute (.op .read .nil) _) <| .next (.move (.op rfl)) <| .next (.move .close) <|
      .next (.finish _) <| .next (.read rfl) <| .refl _⟩
  obtain ⟨session, steps⟩ := steps
  obtain ⟨begins, ended⟩ := (heard_stream 1 source .unlimited).2.1 _ _ steps (by decide)
  exact ⟨session, steps, begins, ended 3 (by decide) rfl⟩

end Machine

end ByteTape
