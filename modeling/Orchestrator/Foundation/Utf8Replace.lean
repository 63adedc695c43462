import Orchestrator.Foundation.PyText

/-! # Decoding that replaces

What is no UTF-8 is read as the replacement character, once for the longest start of a sequence.
-/

namespace Orchestrator.Foundation.PyText

/-- A lead byte and a second byte that some code point starts with. -/
def startsSequence (first second : UInt8) : Bool :=
  (continuation second).isSome && (0xE0 ≤ first.toNat && first.toNat < 0xF5) &&
    !(first.toNat = 0xE0 && second.toNat < 0xA0) && !(first.toNat = 0xED && 0xA0 ≤ second.toNat) &&
    !(first.toNat = 0xF0 && second.toNat < 0x90) && !(first.toNat = 0xF4 && 0x90 ≤ second.toNat)

/-- How many bytes are replaced at once, where no code point is. -/
def brokenLength : List UInt8 → Nat
  | first :: second :: rest =>
      if startsSequence first second then
        if 0xF0 ≤ first.toNat && (rest.head?.bind continuation).isSome then 3 else 2
      else 1
  | _ => 1

/-- Decode at most a number of code points and broken sequences. -/
def decodeReplacingWithin : Nat → List UInt8 → PyText
  | _, [] => []
  | 0, _ :: _ => []
  | fuel + 1, bytes =>
      match decodePoint bytes with
      | some (point, rest) => point :: decodeReplacingWithin fuel rest
      | none => 0xFFFD :: decodeReplacingWithin fuel (bytes.drop (brokenLength bytes))

/-- `bytes.decode("utf-8", errors="replace")`. -/
def decodeReplacing (bytes : List UInt8) : PyText := decodeReplacingWithin bytes.length bytes

theorem decodeReplacingWithin_cons (fuel : Nat) (byte : UInt8) (bytes : List UInt8) :
    decodeReplacingWithin (fuel + 1) (byte :: bytes) =
      match decodePoint (byte :: bytes) with
      | some (point, rest) => point :: decodeReplacingWithin fuel rest
      | none => 0xFFFD :: decodeReplacingWithin fuel
          ((byte :: bytes).drop (brokenLength (byte :: bytes))) := by
  rw [decodeReplacingWithin]
  exact fun none => List.cons_ne_nil _ _ none

/-- A code point below 128 is its byte. -/
def asciiPoint (byte : UInt8) : CodePoint := ⟨byte.toNat, by have := byte.toNat_lt; omega⟩

theorem decodePoint_ascii {byte : UInt8} (ascii : byte.toNat < 0x80) (bytes : List UInt8) :
    decodePoint (byte :: bytes) = some (asciiPoint byte, bytes) := by
  have plain : isSurrogate (asciiPoint byte) = false := by
    rw [isSurrogate, Bool.and_eq_false_iff]
    exact .inl (decide_eq_false (by change ¬ 0xD800 ≤ byte.toNat; omega))
  have read : decoded 0 byte.toNat = some (asciiPoint byte) := decoded_val (Nat.zero_le _) plain
  rw [decodePoint.eq_def]
  dsimp only
  rw [if_pos ascii, read, Option.map_some]

/-- A byte of ASCII is read as it is, whatever follows. -/
theorem decodeReplacing_cons_ascii {byte : UInt8} (ascii : byte.toNat < 0x80) (bytes : List UInt8) :
    decodeReplacing (byte :: bytes) = asciiPoint byte :: decodeReplacing bytes := by
  rw [decodeReplacing, List.length_cons, decodeReplacingWithin_cons, decodePoint_ascii ascii]
  rfl

/-- Bytes of ASCII are read as they are. -/
theorem decodeReplacing_append_ascii {bytes : List UInt8}
    (ascii : ∀ byte ∈ bytes, byte.toNat < 0x80)
    (rest : List UInt8) :
    decodeReplacing (bytes ++ rest) = bytes.map asciiPoint ++ decodeReplacing rest := by
  induction bytes with
  | nil => rfl
  | cons byte bytes ih =>
      obtain ⟨here, others⟩ := List.forall_mem_cons.mp ascii
      rw [List.cons_append, decodeReplacing_cons_ascii here, ih others, List.map_cons,
        List.cons_append]

/-- What is encoded is read as it was. -/
theorem decodeReplacing_flatMap {text : PyText} (plain : encodable text = true) :
    decodeReplacing (text.flatMap utf8Bytes) = text := by
  have within (fuel : Nat) (enough : text.length ≤ fuel) :
      decodeReplacingWithin fuel (text.flatMap utf8Bytes) = text := by
    induction text generalizing fuel with
    | nil => cases fuel <;> rfl
    | cons point rest ih =>
        cases fuel with
        | zero => cases enough
        | succ fuel =>
            rw [encodable, List.all_cons, Bool.and_eq_true, Bool.not_eq_true'] at plain
            obtain ⟨byte, bytes, shape⟩ := List.exists_cons_of_ne_nil (utf8Bytes_ne_nil point)
            rw [List.flatMap_cons, shape, List.cons_append, decodeReplacingWithin_cons,
              ← List.cons_append, ← shape, decodePoint_utf8Bytes plain.1]
            dsimp only
            rw [ih plain.2 fuel (Nat.le_of_succ_le_succ enough)]
  exact within _ (length_le_length_flatMap text)

theorem isSurrogate_of_decoded {least number : Nat} {point : CodePoint}
    (read : decoded least number = some point) : isSurrogate point = false := by
  rw [decoded] at read
  split at read
  · obtain ⟨-, plain⟩ := Option.filter_eq_some_iff.mp read
    rwa [Bool.not_eq_true'] at plain
  · cases read

theorem isSurrogate_of_decodeTwo {first second : UInt8} {point : CodePoint}
    (read : decodeTwo first second = some point) : isSurrogate point = false := by
  obtain ⟨_, _, read⟩ := Option.bind_eq_some_iff.mp read
  obtain ⟨_, _, read⟩ := Option.bind_eq_some_iff.mp read
  exact isSurrogate_of_decoded read

theorem isSurrogate_of_decodeThree {first second third : UInt8} {point : CodePoint}
    (read : decodeThree first second third = some point) : isSurrogate point = false := by
  obtain ⟨_, _, read⟩ := Option.bind_eq_some_iff.mp read
  obtain ⟨_, _, read⟩ := Option.bind_eq_some_iff.mp read
  obtain ⟨_, _, read⟩ := Option.bind_eq_some_iff.mp read
  exact isSurrogate_of_decoded read

theorem isSurrogate_of_decodeFour {first second third fourth : UInt8} {point : CodePoint}
    (read : decodeFour first second third fourth = some point) : isSurrogate point = false := by
  obtain ⟨_, _, read⟩ := Option.bind_eq_some_iff.mp read
  obtain ⟨_, _, read⟩ := Option.bind_eq_some_iff.mp read
  obtain ⟨_, _, read⟩ := Option.bind_eq_some_iff.mp read
  obtain ⟨_, _, read⟩ := Option.bind_eq_some_iff.mp read
  exact isSurrogate_of_decoded read

/-- What is put before a rest was read itself. -/
theorem eq_some_of_map_pair {read : Option CodePoint} {rest others : List UInt8} {point : CodePoint}
    (paired : read.map (·, rest) = some (point, others)) : read = some point := by
  obtain ⟨found, same, pair⟩ := Option.map_eq_some_iff.mp paired
  cases pair
  exact same

/-- No surrogate is decoded. -/
theorem isSurrogate_of_decodePoint {bytes rest : List UInt8} {point : CodePoint}
    (read : decodePoint bytes = some (point, rest)) : isSurrogate point = false := by
  rw [decodePoint.eq_def] at read
  split at read
  · cases read
  · split at read
    · exact isSurrogate_of_decoded (eq_some_of_map_pair read)
    · split at read
      · split at read
        · exact isSurrogate_of_decodeTwo (eq_some_of_map_pair read)
        · cases read
      · split at read
        · split at read
          · exact isSurrogate_of_decodeThree (eq_some_of_map_pair read)
          · cases read
        · split at read
          · exact isSurrogate_of_decodeFour (eq_some_of_map_pair read)
          · cases read

theorem encodable_decodeReplacing (bytes : List UInt8) :
    encodable (decodeReplacing bytes) = true := by
  have within (fuel : Nat) : encodable (decodeReplacingWithin fuel bytes) = true := by
    induction fuel generalizing bytes with
    | zero => cases bytes <;> rfl
    | succ fuel ih =>
        cases bytes with
        | nil => rfl
        | cons byte bytes =>
            rw [decodeReplacingWithin_cons]
            split
            · next point rest read =>
              rw [encodable, List.all_cons, isSurrogate_of_decodePoint read]
              exact ih rest
            · rw [encodable, List.all_cons]
              exact ih _
  exact within _

theorem decodeReplacing_ne_nil {bytes : List UInt8} (filled : bytes ≠ []) :
    decodeReplacing bytes ≠ [] := by
  cases bytes with
  | nil => exact absurd rfl filled
  | cons byte bytes =>
      rw [decodeReplacing, List.length_cons, decodeReplacingWithin_cons]
      split
      · exact List.cons_ne_nil _ _
      · exact List.cons_ne_nil _ _

/-! ## How much is read -/

/-- A chunk of bytes: a single one, or a code point as it is encoded. -/
def IsChunk (bytes : List UInt8) : Prop :=
  (∃ byte, bytes = [byte]) ∨ ∃ point, isSurrogate point = false ∧ bytes = utf8Bytes point

/-- Bytes inside of a sequence. -/
def Continues (bytes : List UInt8) : Prop := ∀ byte ∈ bytes, (continuation byte).isSome = true

/-- Nothing that is encoded starts inside of a sequence. -/
theorem continuation_head_utf8Bytes (point : CodePoint) :
    ∀ byte ∈ (utf8Bytes point).head?, continuation byte = none := by
  intro byte head
  have lead : byte.toNat < 0x80 ∨ 0xC0 ≤ byte.toNat := by
    have bound := point.isLt
    unfold utf8Bytes at head
    dsimp only at head
    split_ifs at head
    · obtain rfl := Option.some.inj head
      rw [toNat_ofNat (by omega)]
      omega
    · obtain rfl := Option.some.inj head
      rw [toNat_ofNat (by omega)]
      omega
    · obtain rfl := Option.some.inj head
      rw [toNat_ofNat (by omega)]
      omega
    · obtain rfl := Option.some.inj head
      rw [toNat_ofNat (by omega)]
      omega
  rw [continuation, if_neg]
  omega

/-- What is dropped from inside of a sequence is a number of chunks. -/
theorem exists_chunks_drop (count : Nat) : ∀ {chunks : List (List UInt8)},
    (∀ chunk ∈ chunks, IsChunk chunk) → Continues (chunks.flatten.take count) →
      ∃ left : List (List UInt8), (∀ chunk ∈ left, IsChunk chunk) ∧ left.length ≤ chunks.length ∧
        left.flatten = chunks.flatten.drop count := by
  induction count with
  | zero => exact fun each _ => ⟨_, each, Nat.le_refl _, rfl⟩
  | succ count ih =>
      intro chunks each continues
      cases chunks with
      | nil => exact ⟨[], each, Nat.le_refl _, rfl⟩
      | cons chunk chunks =>
          rcases each chunk List.mem_cons_self with ⟨byte, rfl⟩ | ⟨point, -, rfl⟩
          · have later : Continues (chunks.flatten.take count) := fun other among =>
              continues other (List.mem_cons_of_mem _ among)
            obtain ⟨left, leftEach, short, same⟩ :=
              ih (fun chunk among => each chunk (List.mem_cons_of_mem _ among)) later
            exact ⟨left, leftEach, Nat.le_succ_of_le short, same⟩
          · obtain ⟨byte, bytes, shape⟩ := List.exists_cons_of_ne_nil (utf8Bytes_ne_nil point)
            have inside := continues byte (by
              rw [List.flatten_cons, shape]
              exact List.mem_cons_self)
            rw [continuation_head_utf8Bytes point byte (by rw [shape]; rfl)] at inside
            cases inside

theorem isSome_of_bind {α β : Type} {read : Option α} {next : α → Option β} {found : β}
    (bound : read.bind next = some found) : read.isSome = true := by
  cases read with
  | none => cases bound
  | some value => rfl

/-- A code point is a byte and bytes inside of its sequence. -/
theorem exists_drop_of_decodePoint {byte : UInt8} {bytes rest : List UInt8} {point : CodePoint}
    (read : decodePoint (byte :: bytes) = some (point, rest)) :
    ∃ count, rest = bytes.drop count ∧ Continues (bytes.take count) := by
  have single : ∀ {second : UInt8}, (continuation second).isSome = true → Continues [second] :=
    fun inside => List.forall_mem_singleton.mpr inside
  have pairRest : ∀ {read : Option CodePoint} {others : List UInt8},
      read.map (·, others) = some (point, rest) → rest = others ∧ read = some point := by
    intro read others paired
    obtain ⟨found, same, pair⟩ := Option.map_eq_some_iff.mp paired
    cases pair
    exact ⟨rfl, same⟩
  rw [decodePoint.eq_def] at read
  dsimp only at read
  split at read
  · exact ⟨0, (pairRest read).1, fun _ among => absurd among List.not_mem_nil⟩
  · split at read
    · split at read
      · next second others =>
          obtain ⟨rfl, decodes⟩ := pairRest read
          obtain ⟨_, _, decodes⟩ := Option.bind_eq_some_iff.mp decodes
          exact ⟨1, rfl, single (isSome_of_bind decodes)⟩
      · cases read
    · split at read
      · split at read
        · next second third others =>
            obtain ⟨rfl, decodes⟩ := pairRest read
            obtain ⟨_, _, decodes⟩ := Option.bind_eq_some_iff.mp decodes
            obtain ⟨_, inside, decodes⟩ := Option.bind_eq_some_iff.mp decodes
            refine ⟨2, rfl, List.forall_mem_cons.mpr ⟨Option.isSome_of_eq_some inside, ?_⟩⟩
            exact single (isSome_of_bind decodes)
        · cases read
      · split at read
        · next second third fourth others =>
            obtain ⟨rfl, decodes⟩ := pairRest read
            obtain ⟨_, _, decodes⟩ := Option.bind_eq_some_iff.mp decodes
            obtain ⟨_, inside, decodes⟩ := Option.bind_eq_some_iff.mp decodes
            obtain ⟨_, deeper, decodes⟩ := Option.bind_eq_some_iff.mp decodes
            refine ⟨3, rfl, List.forall_mem_cons.mpr ⟨Option.isSome_of_eq_some inside, ?_⟩⟩
            refine List.forall_mem_cons.mpr ⟨Option.isSome_of_eq_some deeper, ?_⟩
            exact single (isSome_of_bind decodes)
        · cases read

/-- What is replaced at once is too. -/
theorem continues_brokenLength (byte : UInt8) (bytes : List UInt8) :
    ∃ count, (byte :: bytes).drop (brokenLength (byte :: bytes)) = bytes.drop count ∧
      Continues (bytes.take count) := by
  have none : Continues [] := fun _ among => absurd among List.not_mem_nil
  rw [brokenLength.eq_def]
  split
  · next first second rest same =>
      obtain ⟨rfl, rfl⟩ := List.cons.inj same
      split
      · next starts =>
          have inside : (continuation second).isSome = true := by
            simp only [startsSequence, Bool.and_eq_true] at starts
            exact starts.1.1.1.1.1
          split
          · next more =>
              obtain ⟨-, deeper⟩ := Bool.and_eq_true_iff.mp more
              cases rest with
              | nil => cases deeper
              | cons third rest =>
                  refine ⟨2, rfl, List.forall_mem_cons.mpr ⟨inside, ?_⟩⟩
                  exact List.forall_mem_singleton.mpr deeper
          · exact ⟨1, rfl, List.forall_mem_singleton.mpr inside⟩
      · exact ⟨0, rfl, none⟩
  · exact ⟨0, rfl, none⟩

/-- No more code points are read than there are chunks. -/
theorem length_decodeReplacing {chunks : List (List UInt8)}
    (each : ∀ chunk ∈ chunks, IsChunk chunk) :
    (decodeReplacing chunks.flatten).length ≤ chunks.length := by
  have within (fuel : Nat) : ∀ {chunks : List (List UInt8)}, (∀ chunk ∈ chunks, IsChunk chunk) →
      (decodeReplacingWithin fuel chunks.flatten).length ≤ chunks.length := by
    induction fuel with
    | zero =>
        intro chunks _
        cases chunks.flatten with
        | nil => exact Nat.zero_le _
        | cons byte bytes => exact Nat.zero_le _
    | succ fuel ih =>
        intro chunks each
        cases chunks with
        | nil => exact Nat.zero_le _
        | cons chunk chunks =>
            have others : ∀ chunk ∈ chunks, IsChunk chunk := fun chunk among =>
              each chunk (List.mem_cons_of_mem _ among)
            rcases each chunk List.mem_cons_self with ⟨byte, rfl⟩ | ⟨point, plain, rfl⟩
            · rw [List.flatten_cons, List.singleton_append, decodeReplacingWithin_cons]
              have shorter : ∀ {rest : List UInt8}, (∃ count, rest = chunks.flatten.drop count ∧
                  Continues (chunks.flatten.take count)) →
                  (decodeReplacingWithin fuel rest).length ≤ chunks.length := by
                rintro _ ⟨count, rfl, continues⟩
                obtain ⟨left, leftEach, short, same⟩ := exists_chunks_drop count others continues
                rw [← same]
                exact Nat.le_trans (ih leftEach) short
              split
              · next read => exact Nat.succ_le_succ (shorter (exists_drop_of_decodePoint read))
              · obtain ⟨count, dropped, continues⟩ := continues_brokenLength byte chunks.flatten
                exact Nat.succ_le_succ (shorter ⟨count, dropped, continues⟩)
            · obtain ⟨byte, bytes, shape⟩ := List.exists_cons_of_ne_nil (utf8Bytes_ne_nil point)
              rw [List.flatten_cons, shape, List.cons_append, decodeReplacingWithin_cons,
                ← List.cons_append, ← shape, decodePoint_utf8Bytes plain]
              exact Nat.succ_le_succ (ih others)
  exact within _ each

end Orchestrator.Foundation.PyText
