import Orchestrator.Git.UnifiedDiff

/-! # Paths of a diff

A path is read from every place of a header as it was printed there: quoted or not, after its side,
with a tab behind it, and twice on the first line of a block.
-/

namespace Orchestrator.Git

open Orchestrator.Foundation
open Orchestrator.Foundation.PyText (ofString utf8Bytes decodeReplacing asciiPoint startsWith
  endsWith encodable)

/-! ## Quoted bodies -/

/-- A body between quotes, and the bytes that it stands for. -/
inductive Quoted : PyText → List UInt8 → Prop where
  | nil : Quoted [] []
  | plain {point : CodePoint} {body : PyText} {bytes : List UInt8} (shown : isControl point = false)
      (mark : point ≠ 34) (slash : point ≠ 92) (rest : Quoted body bytes) :
      Quoted (point :: body) (utf8Bytes point ++ bytes)
  | letter {escape : CodePoint × CodePoint} {body : PyText} {bytes : List UInt8}
      (known : escape ∈ cEscapes) (rest : Quoted body bytes) :
      Quoted (92 :: escape.1 :: body) (utf8Bytes escape.2 ++ bytes)
  | octal {body : PyText} {bytes : List UInt8} (byte : UInt8) (rest : Quoted body bytes) :
      Quoted (octalEscape byte.toNat ++ body) (byte :: bytes)

section Quoted

variable {body other : PyText} {bytes others : List UInt8}

theorem Quoted.append (first : Quoted body bytes) (second : Quoted other others) :
    Quoted (body ++ other) (bytes ++ others) := by
  induction first with
  | nil => exact second
  | plain shown mark slash _ ih =>
      rw [List.append_assoc]
      exact .plain shown mark slash ih
  | letter known _ ih =>
      rw [List.append_assoc]
      exact .letter known ih
  | octal byte _ ih =>
      rw [List.append_assoc]
      exact .octal byte ih

theorem octalDigit_val (number : Nat) : (octalDigit number).val = 48 + number % 8 := by
  have digits : ∀ digit < 8, (PyText.ofChar (Nat.digitChar digit)).val = 48 + digit := by decide
  exact digits _ (Nat.mod_lt _ (by decide))

theorem isOctal_octalDigit (number : Nat) : isOctal (octalDigit number) = true := by
  rw [isOctal, octalDigit_val, Bool.and_eq_true, decide_eq_true_eq, decide_eq_true_eq]
  omega

theorem octalByte_octalDigits (byte : UInt8) :
    octalByte (octalDigit (byte.toNat / 64)) (octalDigit (byte.toNat / 8)) (octalDigit byte.toNat) =
      byte := by
  have bound := byte.toNat_lt
  have whole : 64 * (48 + byte.toNat / 64 % 8 - 48) + 8 * (48 + byte.toNat / 8 % 8 - 48) +
      (48 + byte.toNat % 8 - 48) = byte.toNat := by omega
  rw [octalByte, octalDigit_val, octalDigit_val, octalDigit_val, whole, UInt8.ofNat_toNat]

/-- The letters of escapes are no octal digits, and each stands for its character. -/
theorem cUnescaped_letter {escape : CodePoint × CodePoint} (known : escape ∈ cEscapes) :
    isOctal escape.1 = false ∧ cUnescaped escape.1 = escape.2 := by
  have all : (cEscapes.all fun escape =>
      isOctal escape.1 = false ∧ cUnescaped escape.1 = escape.2) = true := by decide
  exact of_decide_eq_true (List.all_eq_true.mp all escape known)

/-- A quoted body is read as its bytes. -/
theorem Quoted.unquoteBytes (quoted : Quoted body bytes) : Git.unquoteBytes body = bytes := by
  induction quoted with
  | nil => rfl
  | @plain point body bytes shown mark slash rest ih =>
      cases body with
      | nil =>
          cases rest
          exact (List.append_nil _).symm
      | cons first after =>
          rw [Git.unquoteBytes.eq_def]
          dsimp only
          rw [if_pos slash, ih]
  | @letter escape body bytes known rest ih =>
      obtain ⟨letter, stands⟩ := cUnescaped_letter known
      rw [Git.unquoteBytes.eq_def]
      dsimp only
      rw [if_neg (not_not.mpr rfl)]
      cases body with
      | nil =>
          dsimp only
          rw [stands, ih]
      | cons second after =>
          cases after with
          | nil =>
              dsimp only
              rw [stands, ih]
          | cons third last =>
              dsimp only
              rw [letter, Bool.false_and, Bool.false_and, if_neg Bool.false_ne_true, stands, ih]
  | @octal body bytes byte rest ih =>
      change Git.unquoteBytes (92 :: octalDigit (byte.toNat / 64) :: octalDigit (byte.toNat / 8) ::
        octalDigit byte.toNat :: body) = byte :: bytes
      rw [Git.unquoteBytes.eq_def]
      dsimp only
      rw [if_neg (not_not.mpr rfl), isOctal_octalDigit, isOctal_octalDigit, isOctal_octalDigit,
        Bool.and_true, Bool.and_true, if_pos rfl,
        octalByte_octalDigits, ih]

theorem untilQuote_cons {point : CodePoint} (mark : point ≠ 34) (slash : point ≠ 92)
    {rest : PyText} (more : rest ≠ []) :
    untilQuote (point :: rest) = (untilQuote rest).map fun parts =>
      (point :: parts.1, parts.2) := by
  cases rest with
  | nil => exact absurd rfl more
  | cons next after => rw [untilQuote, if_neg slash, if_neg mark]

theorem octalDigit_ne (number : Nat) : octalDigit number ≠ 34 ∧ octalDigit number ≠ 92 := by
  have value := octalDigit_val number
  constructor
  · intro same
    rw [same] at value
    change 34 = 48 + number % 8 at value
    omega
  · intro same
    rw [same] at value
    change 92 = 48 + number % 8 at value
    omega

/-- A quoted body ends at the quote behind it. -/
theorem Quoted.untilQuote (quoted : Quoted body bytes) (tail : PyText) :
    Git.untilQuote (body ++ 34 :: tail) = some (body, tail) := by
  have more (body : PyText) : body ++ 34 :: tail ≠ [] :=
    List.append_ne_nil_of_right_ne_nil _ (List.cons_ne_nil _ _)
  induction quoted with
  | nil =>
      cases tail with
      | nil => rfl
      | cons next after => rfl
  | @plain point body _ shown mark slash _ ih =>
      rw [List.cons_append, untilQuote_cons mark slash (more body), ih, Option.map_some]
  | @letter escape body _ known _ ih =>
      rw [List.cons_append, List.cons_append, Git.untilQuote, if_pos rfl, ih, Option.map_some]
  | @octal body _ byte _ ih =>
      obtain ⟨mark, slash⟩ := octalDigit_ne (byte.toNat / 8)
      obtain ⟨lastMark, lastSlash⟩ := octalDigit_ne byte.toNat
      change Git.untilQuote (92 :: octalDigit (byte.toNat / 64) :: octalDigit (byte.toNat / 8) ::
        octalDigit byte.toNat :: (body ++ 34 :: tail)) = _
      rw [Git.untilQuote, if_pos rfl, untilQuote_cons mark slash (List.cons_ne_nil _ _),
        untilQuote_cons lastMark lastSlash (more body), ih]
      rfl

/-- A quoted body has no control character. -/
theorem Quoted.isControl (quoted : Quoted body bytes) :
    ∀ point ∈ body, isControl point = false := by
  have letters : ∀ escape ∈ cEscapes, (!Git.isControl escape.1) = true :=
    List.all_eq_true.mp (by decide : cEscapes.all (fun escape => !Git.isControl escape.1) = true)
  have digit (number : Nat) : Git.isControl (octalDigit number) = false := by
    rw [Git.isControl, octalDigit_val, Bool.or_eq_false_iff, decide_eq_false_iff_not,
      decide_eq_false_iff_not]
    omega
  induction quoted with
  | nil => exact fun _ none => absurd none List.not_mem_nil
  | plain shown _ _ _ ih => exact List.forall_mem_cons.mpr ⟨shown, ih⟩
  | letter known _ ih =>
      exact List.forall_mem_cons.mpr ⟨rfl, List.forall_mem_cons.mpr
        ⟨Bool.not_eq_true' _ ▸ letters _ known, ih⟩⟩
  | octal byte _ ih =>
      refine List.forall_mem_append.mpr ⟨?_, ih⟩
      simp only [octalEscape, List.forall_mem_cons, List.not_mem_nil, false_implies, implies_true,
        and_true]
      exact ⟨rfl, digit _, digit _, digit _⟩

end Quoted

/-! ## Quoting -/

theorem utf8Bytes_asciiPoint {byte : UInt8} (ascii : byte.toNat < 128) :
    utf8Bytes (asciiPoint byte) = [byte] := by
  have low : (asciiPoint byte).val < 0x80 := ascii
  rw [PyText.utf8Bytes, if_pos low]
  change [UInt8.ofNat byte.toNat] = [byte]
  rw [UInt8.ofNat_toNat]

/-- What stands for a character is an escape of its own, or there is none. -/
theorem cQuoted_cases (point : CodePoint) :
    (∃ escape ∈ cEscapes, escape.2 = point ∧ cQuoted point = some [92, escape.1]) ∨
      cQuoted point = none ∧ point ≠ 34 ∧ point ≠ 92 := by
  rw [cQuoted]
  cases found : cEscapes.find? fun escape => escape.2 = point with
  | some escape =>
      have same := List.find?_some found
      exact .inl ⟨escape, List.mem_of_find?_eq_some found, of_decide_eq_true same, rfl⟩
  | none =>
      have other := List.find?_eq_none.mp found
      refine .inr ⟨rfl, ?_, ?_⟩
      · rintro rfl
        exact other (34, 34) (by decide) rfl
      · rintro rfl
        exact other (92, 92) (by decide) rfl

/-- A byte of a quoted path stands for itself. -/
theorem quoted_quotedByte (byte : UInt8) : Quoted (quotedByte byte) [byte] := by
  rw [quotedByte]
  rcases cQuoted_cases (asciiPoint byte) with ⟨escape, known, same, shown⟩ | ⟨none, mark, slash⟩
  · have ascii : (cEscapes.all fun escape => escape.2.val < 128) = true := by decide
    have low : byte.toNat < 128 := by
      have below := of_decide_eq_true (List.all_eq_true.mp ascii escape known)
      rwa [same] at below
    rw [shown, Option.getD_some, ← utf8Bytes_asciiPoint low, ← same,
      ← List.append_nil (utf8Bytes escape.2)]
    exact .letter known .nil
  · rw [none, Option.getD_none]
    split
    · exact .octal byte .nil
    · next plain =>
      rw [quotesByte, Bool.not_eq_true, Bool.or_eq_false_iff, Bool.or_eq_false_iff,
        Bool.or_eq_false_iff, decide_eq_false_iff_not, decide_eq_false_iff_not] at plain
      obtain ⟨⟨⟨low, high⟩, -⟩, -⟩ := plain
      have ascii : byte.toNat < 128 := by omega
      have shown : isControl (asciiPoint byte) = false := by
        rw [isControl, Bool.or_eq_false_iff, decide_eq_false_iff_not, decide_eq_false_iff_not]
        exact ⟨low, fun del => high (by change byte.toNat = 127 at del; omega)⟩
      have one := utf8Bytes_asciiPoint ascii
      rw [← List.append_nil [byte], ← one]
      exact .plain shown mark slash .nil

/-- A character of a quoted path stands for its bytes. -/
theorem quoted_quotedPoint (point : CodePoint) : Quoted (quotedPoint point) (utf8Bytes point) := by
  rw [quotedPoint]
  rcases cQuoted_cases point with ⟨escape, known, rfl, shown⟩ | ⟨none, mark, slash⟩
  · rw [shown, Option.getD_some, ← List.append_nil (utf8Bytes escape.2)]
    exact .letter known .nil
  · rw [none, Option.getD_none]
    split
    · next control =>
      have low : point.val < 128 := by
        rw [isControl, Bool.or_eq_true, decide_eq_true_eq, decide_eq_true_eq] at control
        omega
      have byte : (UInt8.ofNat point.val).toNat = point.val := PyText.toNat_ofNat (by omega)
      have one : utf8Bytes point = [.ofNat point.val] := by
        rw [PyText.utf8Bytes, if_pos low]
      have quoted := Quoted.octal (.ofNat point.val) .nil
      rw [byte] at quoted
      rw [one]
      exact quoted
    · next plain =>
      rw [← List.append_nil (utf8Bytes point)]
      exact .plain (Bool.eq_false_iff.mpr plain) mark slash .nil

theorem quoted_flatMap {α : Type} {shown : α → PyText} {stands : α → List UInt8}
    (each : ∀ unit, Quoted (shown unit) (stands unit)) (units : List α) :
    Quoted (units.flatMap shown) (units.flatMap stands) := by
  induction units with
  | nil => exact .nil
  | cons unit rest ih => exact (each unit).append ih

/-- A path is shown as it is, or between quotes, after the same side each time. -/
inductive ShownAs (quotePath : Bool) (path : GitPath) : Prop where
  | plain (shown : ∀ side, shownPath quotePath side path = side ++ path.text)
      (clean : ∀ point ∈ path.text, quotesPoint point = false)
  | quoted (body : PyText) (bytes : List UInt8) (quoted : Quoted body bytes)
      (stands : ∀ side : List UInt8, (∀ byte ∈ side, byte.toNat < 128) →
        decodeReplacing (side ++ bytes) = side.map asciiPoint ++ path.text)
      (shown : ∀ side, shownPath quotePath side path = 34 :: side ++ body ++ [34])

/-- A byte that a path is not quoted for is a character that it is not quoted for. -/
theorem plain_of_quotesByte {byte : UInt8} (plain : quotesByte byte = false) :
    byte.toNat < 128 ∧ quotesPoint (asciiPoint byte) = false := by
  simp only [quotesByte, Bool.or_eq_false_iff, decide_eq_false_iff_not] at plain
  obtain ⟨⟨⟨low, high⟩, mark⟩, slash⟩ := plain
  have value : (asciiPoint byte).val = byte.toNat := rfl
  have back (number : UInt8) (same : (asciiPoint byte).val = number.toNat) : byte = number :=
    UInt8.toNat_inj.mp same
  refine ⟨by omega, ?_⟩
  simp only [quotesPoint, isControl, Bool.or_eq_false_iff, decide_eq_false_iff_not, value]
  refine ⟨⟨⟨low, by omega⟩, fun same => mark (back 34 ?_)⟩, fun same => slash (back 92 ?_)⟩
  · rw [same]
    rfl
  · rw [same]
    rfl

theorem shownAs (quotePath : Bool) (path : GitPath) : ShownAs quotePath path := by
  cases quotePath with
  | true =>
      by_cases quotes : path.bytes.any quotesByte = true
      · have bytes : path.bytes.flatMap (fun byte => [byte]) = path.bytes :=
          List.flatMap_singleton' _
        refine .quoted (path.bytes.flatMap quotedByte) path.bytes ?_ ?_ ?_
        · have quoted := quoted_flatMap quoted_quotedByte path.bytes
          rwa [bytes] at quoted
        · exact fun side ascii => PyText.decodeReplacing_append_ascii ascii _
        · intro side
          rw [shownPath, if_pos rfl, if_pos quotes]
      · have plain : ∀ byte ∈ path.bytes, quotesByte byte = false := by
          intro byte among
          rw [Bool.not_eq_true, List.any_eq_false] at quotes
          exact Bool.eq_false_iff.mpr (quotes byte among)
        have ascii : ∀ byte ∈ path.bytes, byte.toNat < 128 :=
          fun byte among => (plain_of_quotesByte (plain byte among)).1
        have text : path.text = path.bytes.map asciiPoint := by
          have read := PyText.decodeReplacing_append_ascii ascii []
          rw [List.append_nil] at read
          rw [GitPath.text, read]
          exact List.append_nil _
        refine .plain ?_ ?_
        · intro side
          rw [shownPath, if_pos rfl, if_neg quotes, text]
        · intro point among
          rw [text] at among
          obtain ⟨byte, listed, rfl⟩ := List.mem_map.mp among
          exact (plain_of_quotesByte (plain byte listed)).2
  | false =>
      by_cases quotes : path.text.any quotesPoint = true
      · refine .quoted (path.text.flatMap quotedPoint) (path.text.flatMap utf8Bytes) ?_ ?_ ?_
        · exact quoted_flatMap quoted_quotedPoint path.text
        · intro side ascii
          rw [PyText.decodeReplacing_append_ascii ascii, PyText.decodeReplacing_flatMap]
          exact PyText.encodable_decodeReplacing path.bytes
        · intro side
          rw [shownPath, if_neg Bool.false_ne_true, if_pos quotes]
      · refine .plain ?_ ?_
        · intro side
          rw [shownPath, if_neg Bool.false_ne_true, if_neg quotes]
        · intro point among
          rw [Bool.not_eq_true, List.any_eq_false] at quotes
          exact Bool.eq_false_iff.mpr (quotes point among)

/-! ## Reading paths -/

section Reading

variable {quotePath : Bool} {path : GitPath}

theorem GitPath.text_ne_nil (path : GitPath) : path.text ≠ [] :=
  PyText.decodeReplacing_ne_nil path.filled

/-- A character that a path is not quoted for. -/
theorem quotesPoint_eq_false {point : CodePoint} (clean : quotesPoint point = false) :
    isControl point = false ∧ point ≠ 34 ∧ point ≠ 92 := by
  simp only [quotesPoint, Bool.or_eq_false_iff, decide_eq_false_iff_not] at clean
  exact ⟨clean.1.1, clean.1.2, clean.2⟩

theorem startsWith_quote {text : PyText} (none : 34 ∉ text) : startsWith text [34] = false := by
  rw [startsWith, Bool.eq_false_iff, Ne, List.isPrefixOf_iff_prefix]
  exact fun starts => none (starts.subset List.mem_cons_self)

/-- A text without quotes is left as it is. -/
theorem unquote_plain {text : PyText} (none : 34 ∉ text) : unquote text = text := by
  rw [unquote, startsWith_quote none, Bool.false_and, if_pos (.inr Bool.false_ne_true)]

/-- A quoted text is read as the bytes of its body. -/
theorem unquote_quoted {body : PyText} {bytes : List UInt8} (quoted : Quoted body bytes) :
    unquote (34 :: body ++ [34]) = decodeReplacing bytes := by
  have starts : startsWith (34 :: body ++ [34]) [34] = true := rfl
  have ends : endsWith (34 :: body ++ [34]) [34] = true :=
    List.isSuffixOf_iff_suffix.mpr (List.suffix_append _ _)
  have long : ¬ (34 :: body ++ [34]).length < 2 := by
    rw [List.length_append, List.length_cons, List.length_singleton]
    omega
  rw [unquote, starts, ends, Bool.and_true, if_neg (not_or.mpr ⟨long, not_not.mpr rfl⟩),
    List.cons_append,
    List.drop_one, List.tail_cons, List.dropLast_concat, quoted.unquoteBytes]

/-- The sides that a header shows, as bytes. -/
structure IsSide (side : PyText) (bytes : List UInt8) : Prop where
  ascii : ∀ byte ∈ bytes, byte.toNat < 128
  text : side = bytes.map asciiPoint
  quoted : Quoted side bytes
  noQuote : 34 ∉ side

theorem isSide_nil : IsSide [] [] :=
  ⟨fun _ none => absurd none List.not_mem_nil, rfl, .nil, List.not_mem_nil⟩

theorem isSide_letter {letter : CodePoint} {byte : UInt8} (ascii : byte.toNat < 128)
    (same : letter = asciiPoint byte) (shown : isControl letter = false) (mark : letter ≠ 34)
    (slash : letter ≠ 92) : IsSide [letter, 47] [byte, 47] where
  ascii := List.forall_mem_cons.mpr ⟨ascii, List.forall_mem_singleton.mpr (by decide)⟩
  text := by rw [same]; rfl
  quoted := by
    have one : utf8Bytes letter = [byte] := by rw [same, utf8Bytes_asciiPoint ascii]
    have quoted := Quoted.plain shown mark slash (Quoted.plain (by decide) (by decide) (by decide)
      .nil : Quoted [47] [47])
    rwa [one] at quoted
  noQuote := by
    intro among
    rcases List.mem_cons.mp among with same | same
    · exact mark same.symm
    · cases List.mem_singleton.mp same

theorem isSide_sideA : IsSide sideA [97, 47] :=
  isSide_letter (by decide) rfl rfl (by decide) (by decide)

theorem isSide_sideB : IsSide sideB [98, 47] :=
  isSide_letter (by decide) rfl rfl (by decide) (by decide)

/-- A shown path is read with its side. -/
theorem unquote_shownPath {side : PyText} {bytes : List UInt8} (isSide : IsSide side bytes) :
    unquote (shownPath quotePath side path) = side ++ path.text := by
  cases shownAs quotePath path with
  | plain shown clean =>
      rw [shown]
      apply unquote_plain
      intro among
      rcases List.mem_append.mp among with before | inside
      · exact isSide.noQuote before
      · exact (quotesPoint_eq_false (clean 34 inside)).2.1 rfl
  | quoted body stood quoted stands shown =>
      rw [shown, List.cons_append, unquote_quoted (isSide.quoted.append quoted),
        stands bytes isSide.ascii, isSide.text]

/-- A shown path has no control character. -/
theorem isControl_shownPath {side : PyText} {bytes : List UInt8} (isSide : IsSide side bytes) :
    ∀ point ∈ shownPath quotePath side path, isControl point = false := by
  have sides := isSide.quoted.isControl
  cases shownAs quotePath path with
  | plain shown clean =>
      rw [shown, List.forall_mem_append]
      exact ⟨sides, fun point among => (quotesPoint_eq_false (clean point among)).1⟩
  | quoted body stood quoted stands shown =>
      rw [shown, List.cons_append, List.cons_append, List.forall_mem_cons,
        List.forall_mem_append, List.forall_mem_append]
      exact ⟨rfl, ⟨sides, quoted.isControl⟩, List.forall_mem_singleton.mpr rfl⟩

/-- The tab behind a side is dropped. -/
theorem removesuffix_withTab {side : PyText} (shown : ∀ point ∈ side, isControl point = false) :
    removesuffix [9] (withTab side) = side := by
  rw [withTab]
  split
  · rw [removesuffix, if_pos (List.isSuffixOf_iff_suffix.mpr (List.suffix_append _ _)),
      List.length_append, Nat.add_sub_cancel, List.take_left]
  · rw [List.append_nil, removesuffix, if_neg]
    intro ends
    have among : 9 ∈ side := (List.isSuffixOf_iff_suffix.mp ends).subset List.mem_cons_self
    exact Bool.false_ne_true (shown 9 among).symm

/-- A shown side starts with its letter or a quote. -/
theorem shownPath_ne_devNull {letter : CodePoint} (other : letter ≠ 47) :
    shownPath quotePath [letter, 47] path ≠ devNull := by
  cases shownAs quotePath path with
  | plain shown clean =>
      rw [shown]
      exact fun same => other (List.cons.inj same).1
  | quoted body stood quoted stands shown =>
      rw [shown]
      exact fun same => absurd (List.cons.inj same).1 (by decide)

theorem sidePath_devNull (side : PyText) : sidePath (withTab devNull) side = none := by
  have plain : devNull.all (fun point => !isControl point) = true := rfl
  have clean : ∀ point ∈ devNull, isControl point = false := by
    intro point among
    have none := List.all_eq_true.mp plain point among
    rwa [Bool.not_eq_true'] at none
  rw [sidePath, removesuffix_withTab clean, if_pos rfl]

/-- The path of a side is read as it is. -/
theorem sidePath_shownPath {letter : CodePoint} {bytes : List UInt8} (other : letter ≠ 47)
    (isSide : IsSide [letter, 47] bytes) :
    sidePath (withTab (shownPath quotePath [letter, 47] path)) [letter, 47] = some path.text := by
  rw [sidePath, removesuffix_withTab (isControl_shownPath isSide),
    if_neg (shownPath_ne_devNull other), unquote_shownPath isSide, removeprefix_append]

/-- The first line of a block names its path twice. -/
theorem pathFromGitLine_shownPath : pathFromGitLine
    (shownPath quotePath sideA path ++ [32] ++ shownPath quotePath sideB path) =
      some path.text := by
  cases shownAs quotePath path with
  | plain shown clean =>
      have none : 34 ∉ path.text := fun among => (quotesPoint_eq_false (clean 34 among)).2.1 rfl
      have noQuote : startsWith (sideA ++ path.text ++ [32] ++ (sideB ++ path.text)) [34] = false :=
        rfl
      have half : ((sideA ++ path.text ++ [32] ++ (sideB ++ path.text)).length - 1) / 2 =
          (sideA ++ path.text).length := by
        simp only [List.length_append, List.length_singleton]
        change (2 + path.text.length + 1 + (2 + path.text.length) - 1) / 2 = 2 + path.text.length
        omega
      rw [shown, shown, pathFromGitLine, noQuote, if_neg Bool.false_ne_true]
      dsimp only
      rw [half, List.append_assoc (sideA ++ path.text), List.take_left, List.drop_left,
        ← List.drop_drop, List.drop_left, List.singleton_append, List.drop_one, List.tail_cons,
        removeprefix_append, removeprefix_append]
      exact if_pos ⟨rfl, rfl⟩
  | quoted body stood quoted stands shown =>
      let tail := [32] ++ (34 :: (sideB ++ body) ++ [34])
      have first := unquote_quoted (isSide_sideA.quoted.append quoted)
      have second := unquote_quoted (isSide_sideB.quoted.append quoted)
      rw [stands _ isSide_sideA.ascii, ← isSide_sideA.text] at first
      rw [stands _ isSide_sideB.ascii, ← isSide_sideB.text] at second
      have whole : shownPath quotePath sideA path ++ [32] ++ shownPath quotePath sideB path =
          34 :: (sideA ++ body ++ 34 :: tail) := by
        rw [shown, shown]
        simp only [tail, List.append_assoc, List.cons_append, List.nil_append]
      have taken : takeQuoted (34 :: (sideA ++ body ++ 34 :: tail)) =
          some (sideA ++ path.text, tail) := by
        rw [takeQuoted, List.drop_one, List.tail_cons,
          (isSide_sideA.quoted.append quoted).untilQuote, Option.map_some, first]
      have noText : path.text.isEmpty = false :=
        Bool.eq_false_iff.mpr fun empty => path.text_ne_nil (List.isEmpty_iff.mp empty)
      have starts : startsWith (34 :: (sideA ++ body ++ 34 :: tail)) [34] = true := rfl
      rw [whole, pathFromGitLine, starts, if_pos rfl, taken, Option.map_some]
      dsimp only [tail]
      rw [removeprefix_append, second, removeprefix_append, removeprefix_append, orElseText, noText,
        if_neg Bool.false_ne_true]

end Reading

/-! ## Displayed paths -/

section Displayed

variable {body text : PyText}

/-- A text between two quotes. -/
def looksQuoted (text : PyText) : Bool :=
  2 ≤ text.length && startsWith text [34] && endsWith text [34]

/-- A quoted point stands for its bytes, so a quoted path for its text. -/
theorem unquote_display_of_control (plain : encodable text = true)
    (control : text.any isControl = true) : unquote (display text) = text := by
  rw [display, if_pos control, unquote_quoted (quoted_flatMap quoted_quotedPoint text),
    PyText.decodeReplacing_flatMap plain]

/-- A text that is not between quotes is left as it is. -/
theorem unquote_of_looksQuoted_eq_false (bare : looksQuoted text = false) :
    unquote text = text := by
  rw [looksQuoted, Bool.and_assoc, Bool.and_eq_false_iff, decide_eq_false_iff_not] at bare
  rw [unquote, if_pos]
  rcases bare with short | bare
  · exact .inl (Nat.lt_of_not_le short)
  · rw [bare]
    exact .inr Bool.false_ne_true

/-- A letter behind a backslash stands for one that can be encoded too. -/
theorem isSurrogate_cUnescaped {letter : CodePoint} (plain : PyText.isSurrogate letter = false) :
    PyText.isSurrogate (cUnescaped letter) = false := by
  have known : encodable (cEscapes.map Prod.snd) = true := rfl
  rw [cUnescaped]
  cases found : cEscapes.find? fun escape => escape.1 = letter with
  | none => exact plain
  | some escape =>
      have listed := List.mem_map_of_mem (f := Prod.snd) (List.mem_of_find?_eq_some found)
      have plain := List.all_eq_true.mp known _ listed
      rwa [Bool.not_eq_true'] at plain

/-- Bytes of at most a number of chunks. -/
def Chunked (bytes : List UInt8) (count : Nat) : Prop :=
  ∃ chunks : List (List UInt8), (∀ chunk ∈ chunks, PyText.IsChunk chunk) ∧
    chunks.flatten = bytes ∧ chunks.length ≤ count

theorem Chunked.cons {chunk bytes : List UInt8} {count more : Nat} (first : PyText.IsChunk chunk)
    (rest : Chunked bytes count) (room : count < more) : Chunked (chunk ++ bytes) more := by
  obtain ⟨chunks, each, rfl, short⟩ := rest
  refine ⟨chunk :: chunks, List.forall_mem_cons.mpr ⟨first, each⟩, rfl, ?_⟩
  rw [List.length_cons]
  omega

theorem isChunk_utf8Bytes {point : CodePoint} (plain : PyText.isSurrogate point = false) :
    PyText.IsChunk (utf8Bytes point) := .inr ⟨point, plain, rfl⟩

theorem encodable_cons {point : CodePoint} {rest : PyText} :
    encodable (point :: rest) = true ↔
      PyText.isSurrogate point = false ∧ encodable rest = true := by
  rw [encodable, List.all_cons, Bool.and_eq_true, Bool.not_eq_true']
  rfl

/-- A body stands for no more chunks than it has characters. -/
theorem chunked_unquoteBytes (body : PyText) (plain : encodable body = true) :
    Chunked (unquoteBytes body) body.length := by
  induction body using unquoteBytes.induct with
  | case1 => exact ⟨[], fun _ among => absurd among List.not_mem_nil, rfl, Nat.le_refl 0⟩
  | case2 point =>
      refine ⟨[utf8Bytes point], List.forall_mem_singleton.mpr ?_, ?_, Nat.le_refl 1⟩
      · exact isChunk_utf8Bytes (encodable_cons.mp plain).1
      · rw [List.flatten_singleton, unquoteBytes.eq_def]
  | case3 point first rest other ih =>
      obtain ⟨here, later⟩ := encodable_cons.mp plain
      have reads : unquoteBytes (point :: first :: rest) =
          utf8Bytes point ++ unquoteBytes (first :: rest) := by
        rw [unquoteBytes.eq_def]
        exact if_pos other
      rw [reads]
      exact (ih later).cons (isChunk_utf8Bytes here) (Nat.lt_succ_self _)
  | case4 point first slash second third after octal ih =>
      obtain ⟨-, later⟩ := encodable_cons.mp plain
      obtain ⟨-, later⟩ := encodable_cons.mp later
      obtain ⟨-, later⟩ := encodable_cons.mp later
      obtain ⟨-, later⟩ := encodable_cons.mp later
      have reads : unquoteBytes (point :: first :: second :: third :: after) =
          [octalByte first second third] ++ unquoteBytes after := by
        rw [unquoteBytes.eq_def]
        exact (if_neg slash).trans (if_pos octal)
      rw [reads]
      refine (ih later).cons (.inl ⟨_, rfl⟩) ?_
      simp only [List.length_cons]
      omega
  | case5 point first slash second third after other ih =>
      obtain ⟨-, later⟩ := encodable_cons.mp plain
      obtain ⟨here, later⟩ := encodable_cons.mp later
      have reads : unquoteBytes (point :: first :: second :: third :: after) =
          utf8Bytes (cUnescaped first) ++ unquoteBytes (second :: third :: after) := by
        rw [unquoteBytes.eq_def]
        exact (if_neg slash).trans (if_neg other)
      rw [reads]
      refine (ih later).cons (isChunk_utf8Bytes (isSurrogate_cUnescaped here)) ?_
      simp only [List.length_cons]
      omega
  | case6 point first slash after short ih =>
      obtain ⟨-, later⟩ := encodable_cons.mp plain
      obtain ⟨here, later⟩ := encodable_cons.mp later
      have reads : unquoteBytes (point :: first :: after) =
          utf8Bytes (cUnescaped first) ++ unquoteBytes after := by
        rw [unquoteBytes.eq_def]
        refine (if_neg slash).trans ?_
        split
        · exact absurd rfl (short _ _ _)
        · rfl
      rw [reads]
      refine (ih later).cons (isChunk_utf8Bytes (isSurrogate_cUnescaped here)) ?_
      simp only [List.length_cons]
      omega

/-- A text between quotes is read as a shorter one. -/
theorem unquote_ne (plain : encodable text = true) (quoted : looksQuoted text = true) :
    unquote text ≠ text := by
  rw [looksQuoted, Bool.and_assoc, Bool.and_eq_true, decide_eq_true_eq] at quoted
  obtain ⟨long, quoted⟩ := quoted
  have reads : unquote text = decodeReplacing (unquoteBytes (text.drop 1).dropLast) := by
    rw [unquote, if_neg]
    exact not_or.mpr ⟨Nat.not_lt.mpr long, not_not.mpr quoted⟩
  have inner : encodable (text.drop 1).dropLast = true := by
    refine List.all_eq_true.mpr fun point among => List.all_eq_true.mp plain point ?_
    exact List.mem_of_mem_drop (List.dropLast_subset _ among)
  obtain ⟨chunks, each, same, short⟩ := chunked_unquoteBytes _ inner
  have bound : (unquote text).length ≤ text.length - 1 - 1 := by
    rw [reads, ← same]
    refine Nat.le_trans (PyText.length_decodeReplacing each) ?_
    rwa [List.length_dropLast, List.length_drop] at short
  intro whole
  rw [whole] at bound
  omega

/-- A displayed path is read back unless it only looks quoted. -/
theorem unquote_display_iff (plain : encodable text = true) :
    unquote (display text) = text ↔ text.any isControl = true ∨ looksQuoted text = false := by
  by_cases control : text.any isControl = true
  · exact iff_of_true (unquote_display_of_control plain control) (.inl control)
  · have shown : display text = text := if_neg control
    rw [shown]
    constructor
    · intro same
      refine .inr (Bool.eq_false_iff.mpr fun quoted => ?_)
      exact unquote_ne plain quoted same
    · rintro (bad | bare)
      · exact absurd bad control
      · exact unquote_of_looksQuoted_eq_false bare

theorem display_any_isControl (text : PyText) : ¬ (display text).any isControl = true := by
  intro control
  obtain ⟨point, among, bad⟩ := List.any_eq_true.mp control
  rcases mem_display among with plain | ⟨-, clean⟩
  · rw [writable, bad] at plain
    cases plain
  · rw [clean] at bad
    cases bad

/-- Two paths are displayed alike where one has a control character and the other is the quoted text
of it. -/
theorem display_eq_iff {other : PyText} (plain : encodable text = true)
    (otherPlain : encodable other = true) :
    display text = display other ↔
      text = other ∨ (text.any isControl = true ∧ other = display text) ∨
        (other.any isControl = true ∧ text = display other) := by
  have shown : ∀ {path : PyText}, ¬ path.any isControl = true → display path = path :=
    fun none => if_neg none
  by_cases control : text.any isControl = true
  · by_cases otherControl : other.any isControl = true
    · constructor
      · intro same
        left
        rw [← unquote_display_of_control plain control, same,
          unquote_display_of_control otherPlain otherControl]
      · rintro (rfl | ⟨-, quoted⟩ | ⟨-, quoted⟩)
        · rfl
        · exact absurd otherControl (quoted ▸ display_any_isControl text)
        · exact absurd control (quoted ▸ display_any_isControl other)
    · rw [shown otherControl]
      constructor
      · exact fun same => .inr (.inl ⟨control, same.symm⟩)
      · rintro (rfl | ⟨-, quoted⟩ | ⟨bad, -⟩)
        · exact absurd control otherControl
        · exact quoted.symm
        · exact absurd bad otherControl
  · rw [shown control]
    constructor
    · intro same
      by_cases otherControl : other.any isControl = true
      · exact .inr (.inr ⟨otherControl, same⟩)
      · rw [shown otherControl] at same
        exact .inl same
    · rintro (rfl | ⟨bad, -⟩ | ⟨-, quoted⟩)
      · exact (shown control).symm
      · exact absurd bad control
      · exact quoted

/-- A path that is between quotes by itself is read back as another one, and a quoted path is
displayed as the path of its quoted text is. -/
theorem not_display_reads :
    (∃ path : GitPath, unquote (display path.text) ≠ path.text) ∧
      ∃ first second : GitPath, first.text ≠ second.text ∧
        display first.text = display second.text := by
  refine ⟨⟨⟨[34, 97, 34], List.cons_ne_nil _ _⟩, ?_⟩,
    ⟨[97, 9, 98], List.cons_ne_nil _ _⟩, ⟨[34, 97, 92, 116, 98, 34], List.cons_ne_nil _ _⟩, ?_, ?_⟩
  · decide +kernel
  · decide +kernel
  · decide +kernel

/-- A displayed path is read back exactly where it has a control character or does not look quoted,
and two paths are displayed alike only where one is the quoted text of the other. -/
theorem display_reads :
    (∀ path : GitPath, unquote (display path.text) = path.text ↔
      path.text.any isControl = true ∨ looksQuoted path.text = false) ∧
    ∀ first second : GitPath, display first.text = display second.text ↔
      first.text = second.text ∨
        (first.text.any isControl = true ∧ second.text = display first.text) ∨
          (second.text.any isControl = true ∧ first.text = display second.text) := by
  have plain (path : GitPath) : encodable path.text = true :=
    PyText.encodable_decodeReplacing path.bytes
  exact ⟨fun path => unquote_display_iff (plain path),
    fun first second => display_eq_iff (plain first) (plain second)⟩

end Displayed

end Orchestrator.Git
