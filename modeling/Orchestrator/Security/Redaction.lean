import Mathlib.Data.List.Dedup
import Mathlib.Data.List.Sort
import Orchestrator.Foundation.JsonSorted
import Orchestrator.Foundation.Regex

/-! # The redaction of secrets

Known secrets, assignments to names that carry secrets and texts of the shape of a token are
replaced before a text is kept. Each kind is a pass of its own over what the pass before it left.
-/

namespace Orchestrator.Security

open Orchestrator.Foundation PyText

def redacted : PyText := ofString "[REDACTED]"

/-- The shortest secret that is replaced literally. -/
def minLiteralLen : Nat := 8

/-! ## Characters -/

/-- An ASCII letter or digit, or an underscore. -/
def isAsciiWord (point : CodePoint) : Bool :=
  (48 ≤ point.val && point.val ≤ 57) || (65 ≤ point.val && point.val ≤ 90) || point.val = 95 ||
    (97 ≤ point.val && point.val ≤ 122)

/-- What `\w` matches: among the ASCII characters, those of a word. -/
structure WordTest where
  isWord : CodePoint → Bool
  ascii : ∀ point, point.val < 0x80 → isWord point = isAsciiWord point

/-- The words of ASCII. -/
def WordTest.ofAscii : WordTest := ⟨isAsciiWord, fun _ _ => rfl⟩

theorem lowerCase_lt (point : CodePoint) (upper : 65 ≤ point.val ∧ point.val ≤ 90) :
    point.val + 32 < 0x110000 := by
  omega

/-- The lowercase letter that a character matches when case is ignored. -/
def foldCase (point : CodePoint) : CodePoint :=
  if upper : 65 ≤ point.val ∧ point.val ≤ 90 then ⟨point.val + 32, lowerCase_lt point upper⟩
  else if point.val = 0x130 ∨ point.val = 0x131 then ofChar 'i'
  else if point.val = 0x17F then ofChar 's'
  else if point.val = 0x212A then ofChar 'k'
  else point

/-- `[A-Za-z0-9_]` in any case. -/
def isNamePart (point : CodePoint) : Bool := isAsciiWord (foldCase point)

/-- The letters of a text in any case. -/
def anyCase (text : String) : Regex CodePoint :=
  .sequence ((ofString text).map fun letter => .one fun point => foldCase point = letter)

def oneChar (letter : Char) : Regex CodePoint := .one fun point => point = ofChar letter

/-- A character of a class that is listed. -/
def among (letters : String) (point : CodePoint) : Bool := point ∈ ofString letters

def isUpperAlnum (point : CodePoint) : Bool :=
  (48 ≤ point.val && point.val ≤ 57) || (65 ≤ point.val && point.val ≤ 90)

/-- `[A-Za-z0-9]`. -/
def isAlnum (point : CodePoint) : Bool := isAsciiWord point && point.val ≠ 95

section Words

variable (words : WordTest)

/-- `\b`. -/
def wordBoundary : Regex CodePoint :=
  .look fun before rest => before.head?.any words.isWord != rest.head?.any words.isWord

/-- `(?<!\w)secret(?!\w)`. -/
def literalSecret (secret : PyText) : Regex CodePoint :=
  .sequence [
    .look fun before _ => !before.head?.any words.isWord,
    .literal secret,
    .look fun _ rest => !rest.head?.any words.isWord]

/-! ## Names -/

/-- The sensitive words that the prefilter of assignments looks for. -/
def sensitiveWord : Regex CodePoint :=
  let gap : Regex CodePoint := .optional (.one (among "_-"))
  .oneOf [
    anyCase "token", anyCase "secret", anyCase "password", anyCase "passwd",
    .sequence [anyCase "api", gap, anyCase "key"],
    .sequence [anyCase "access", gap, anyCase "key"],
    anyCase "authorization",
    .sequence [anyCase "credential", .optional (anyCase "s")],
    .sequence [anyCase "private", gap, anyCase "key"]]

/-- `_ASSIGNMENT`. -/
def assignment : Regex CodePoint :=
  let name : Regex CodePoint := .star true (.one isNamePart)
  let quote : Regex CodePoint := .optional (oneChar '"')
  .sequence [
    .group 1 (.sequence [name, sensitiveWord, name]),
    .group 2 (.sequence [quote, .star true (.one isSpace), .one (among ":="),
      .star true (.one isSpace), quote]),
    .group 3 (.plus true (.one fun point => !isSpace point && point ≠ ofChar '"'))]

def sensitiveSegments : List PyText :=
  ["token", "secret", "password", "passwd", "pwd", "passphrase", "authorization", "credential",
    "credentials", "key", "apikey", "accesskey", "privatekey", "secretkey"].map ofString

/-- `name.lower()`, as far as it gives letters or digits within ASCII. -/
def lowerName (name : PyText) : PyText :=
  name.flatMap fun point =>
    if point.val = 0x130 then [ofChar 'i', 0x307]
    else if point.val = 0x131 ∨ point.val = 0x17F then [point]
    else [foldCase point]

/-- `[a-z0-9]`. -/
def isLowerAlnum (point : CodePoint) : Bool :=
  (48 ≤ point.val && point.val ≤ 57) || (97 ≤ point.val && point.val ≤ 122)

/-- `is_sensitive_key`: a segment of letters and digits of the lowered name is a sensitive one. -/
def isSensitiveKey (name : PyText) : Bool :=
  ((lowerName name).splitOnP fun point => !isLowerAlnum point).any fun segment =>
    segment ∈ sensitiveSegments

/-- `_redact_assignment`: the value is replaced when the name is sensitive. -/
def redactAssignment (start stop : Regex.Cursor CodePoint) : PyText :=
  let name := (stop.group? 1).getD []
  if isSensitiveKey name then name ++ ((stop.group? 2).getD [] ++ redacted) else start.taken stop

/-! ## Tokens -/

/-- `_TOKEN_PATTERNS`. -/
def tokenPatterns : List (Regex CodePoint) :=
  let alnum : Regex CodePoint := .one isAlnum
  let alnumOr (letters : String) : Regex CodePoint :=
    .one fun point => isAlnum point || among letters point
  let part : Regex CodePoint := .atLeast (alnumOr "_-") 6
  [.sequence [.literal (ofString "gh"), .one (among "opsur"), oneChar '_', .atLeast alnum 16],
    .sequence [.literal (ofString "github_pat_"), .atLeast (alnumOr "_") 20],
    .sequence [.literal (ofString "sk-"), .atLeast (alnumOr "_-") 16],
    .sequence [.literal (ofString "xox"), .one (among "baprs"), oneChar '-',
      .atLeast (alnumOr "-") 10],
    .sequence [.literal (ofString "AKIA"), .times (.one isUpperAlnum) .empty 16],
    .sequence [wordBoundary words, anyCase "bearer", .plus true (.one isSpace),
      .plus true (.one fun point => isAlnum (foldCase point) || among "._~+/-" point),
      .star true (oneChar '=')],
    .sequence [wordBoundary words, .literal (ofString "eyJ"), part, oneChar '.', part, oneChar '.',
      part]]

/-! ## Passes -/

/-- The literal secrets that are long enough, the longest first. Those of one length stand in the
order in which the set gives them. -/
def literalSecrets (extraSecrets : List PyText) : List PyText :=
  (extraSecrets.dedup.filter fun secret => minLiteralLen ≤ secret.length).insertionSort
    fun first second => second.length ≤ first.length

def replaceAll (text : PyText) (pattern : Regex CodePoint) : PyText :=
  pattern.sub (fun _ _ => redacted) text

/-- The literal secrets replaced. -/
def redactLiterals (extraSecrets : List PyText) (text : PyText) : PyText :=
  (literalSecrets extraSecrets).foldl
    (fun text secret => replaceAll text (literalSecret words secret))
    text

/-- `redact_text`. -/
def redactText (extraSecrets : List PyText) (text : PyText) : PyText :=
  (tokenPatterns words).foldl replaceAll
    (assignment.sub redactAssignment (redactLiterals words extraSecrets text))

mutual

/-- `_redact_node`. -/
def redactNode (extraSecrets : List PyText) : Json → Json
  | .string value => .string (redactText words extraSecrets value)
  | .array items => .array (redactItems extraSecrets items)
  | .object members => .object (redactMembers extraSecrets members)
  | .null => .null
  | .bool value => .bool value
  | .number literal => .number literal

def redactItems (extraSecrets : List PyText) : List Json → List Json
  | [] => []
  | item :: items => redactNode extraSecrets item :: redactItems extraSecrets items

/-- `_redact_value` of each member: what is under a sensitive name is replaced whole. -/
def redactMembers (extraSecrets : List PyText) : List (PyText × Json) → List (PyText × Json)
  | [] => []
  | (key, value) :: members =>
      (key, if isSensitiveKey key then .string redacted else redactNode extraSecrets value) ::
        redactMembers extraSecrets members

end

end Words

end Orchestrator.Security

/-! ## What redaction leaves

Redaction adds no characters but those of its mark, and it leaves a digest as it is unless the
digest is itself a secret. Of a document it keeps the keys and the numbers.
-/

namespace Orchestrator.Security

open Orchestrator.Foundation PyText

section Letters

variable (words : WordTest) {letters : PyText} (marks : redacted ⊆ letters)
include marks

theorem replaceAll_subset (pattern : Regex CodePoint) {text : PyText} (within : text ⊆ letters) :
    replaceAll text pattern ⊆ letters :=
  Regex.mem_sub within fun _ _ => marks

/-- The passes of a list of patterns. -/
theorem foldl_replaceAll_subset {patterns : List (Regex CodePoint)} {text : PyText}
    (within : text ⊆ letters) : patterns.foldl replaceAll text ⊆ letters := by
  induction patterns generalizing text with
  | nil => exact within
  | cons pattern patterns ih => exact ih (replaceAll_subset marks pattern within)

theorem redactAssignment_subset {before rest : PyText} {stop : Regex.Cursor CodePoint}
    (reached : stop ∈ assignment.outcomes ⟨before, rest, []⟩) (within : rest ⊆ letters) :
    redactAssignment ⟨before, rest, []⟩ stop ⊆ letters := by
  have groups := fun index => List.Subset.trans (Regex.group?_subset reached index) within
  rw [redactAssignment]
  split
  · exact List.append_subset.mpr ⟨groups 1, List.append_subset.mpr ⟨groups 2, marks⟩⟩
  · exact List.Subset.trans (List.take_subset _ _) within

/-- Redaction adds the letters of its mark only. -/
theorem redactText_subset (extraSecrets : List PyText) {text : PyText} (within : text ⊆ letters) :
    redactText words extraSecrets text ⊆ letters := by
  have literals : redactLiterals words extraSecrets text ⊆ letters := by
    rw [redactLiterals, ← List.foldl_map (f := literalSecret words) (g := replaceAll)]
    exact foldl_replaceAll_subset marks within
  exact foldl_replaceAll_subset marks
    (Regex.mem_sub literals fun reached rest => redactAssignment_subset marks reached rest)

end Letters

/-- Redaction keeps a test of characters that the mark passes. -/
theorem all_redactText (words : WordTest) (extraSecrets : List PyText) {test : CodePoint → Bool}
    {text : PyText} (mark : redacted.all test = true) (passes : text.all test = true) :
    (redactText words extraSecrets text).all test = true := by
  refine List.all_eq_true.mpr fun point among => ?_
  have within := redactText_subset words (List.subset_append_right text redacted) extraSecrets
    (List.subset_append_left text redacted) among
  rcases List.mem_append.mp within with before | added
  · exact List.all_eq_true.mp passes point before
  · exact List.all_eq_true.mp mark point added

/-! ## Digests -/

/-- The digits of a hexadecimal digest. -/
def hexDigits : PyText := ofString "0123456789abcdef"

/-- A digest has no assignment and no token in it. -/
theorem hexDigits_unmatched (words : WordTest) :
    assignment.mayMatch hexDigits = false ∧
      ∀ pattern ∈ tokenPatterns words, pattern.mayMatch hexDigits = false := by
  refine ⟨by decide, ?_⟩
  simp only [tokenPatterns, List.mem_cons, List.not_mem_nil, or_false]
  rintro pattern (rfl | rfl | rfl | rfl | rfl | rfl | rfl)
  all_goals rfl

/-- A literal secret is one of the secrets, and long enough. -/
theorem mem_literalSecrets {extraSecrets : List PyText} {secret : PyText}
    (listed : secret ∈ literalSecrets extraSecrets) :
    secret ∈ extraSecrets ∧ minLiteralLen ≤ secret.length := by
  rw [literalSecrets, List.mem_insertionSort, List.mem_filter, List.mem_dedup, decide_eq_true_eq]
    at listed
  exact listed

section Digests

variable (words : WordTest) {text : PyText} (hex : text ⊆ hexDigits)
include hex

theorem isWord_of_hex {point : CodePoint} (among : point ∈ text) : words.isWord point = true := by
  have ascii : (hexDigits.all fun point => point.val < 0x80 && isAsciiWord point) = true := by
    decide
  have both := List.all_eq_true.mp ascii point (hex among)
  rw [Bool.and_eq_true, decide_eq_true_eq] at both
  rw [words.ascii point both.1, both.2]

/-- A literal secret that is not the whole digest is nowhere in it. -/
theorem sub_literalSecret {secret : PyText} (other : secret ≠ text) :
    replaceAll text (literalSecret words secret) = text := by
  refine Regex.sub_eq_self fun front back shape nonempty => ?_
  have shown : ∀ point ∈ front ++ back, words.isWord point = true := fun point among =>
    isWord_of_hex words hex (by rw [shape]; exact among)
  refine List.eq_nil_iff_forall_not_mem.mpr fun stop reached => ?_
  obtain ⟨begun, start, reached⟩ := List.mem_flatMap.mp reached
  rw [Regex.outcomes] at start
  split at start
  · rename_i opens
    rw [List.mem_singleton.mp start] at reached
    obtain ⟨ended, read, reached⟩ := List.mem_flatMap.mp reached
    rw [Regex.outcomes_literal] at read
    split at read
    · rename_i begins
      rw [List.mem_singleton.mp read] at reached
      obtain ⟨last, close, -⟩ := List.mem_flatMap.mp reached
      rw [Regex.outcomes] at close
      split at close
      · rename_i closes
        have first : front = [] := by
          by_contra some
          have last := shown _ (List.mem_append_left back (List.getLast_mem some))
          rw [List.head?_reverse, List.getLast?_eq_some_getLast some, Option.any_some, last]
            at opens
          cases opens
        have nothing : back.drop secret.length = [] := by
          cases later : back.drop secret.length with
          | nil => rfl
          | cons point rest =>
              have within : point ∈ back :=
                (List.drop_suffix secret.length back).subset (later ▸ List.mem_cons_self)
              rw [later, List.head?_cons, Option.any_some,
                shown point (List.mem_append_right front within)] at closes
              cases closes
        rw [shape, first, List.nil_append] at other
        exact other (begins.eq_of_length_le (List.drop_eq_nil_iff.mp nothing))
      · cases close
    · cases read
  · cases start

/-- A digest that is no secret is left as it is. -/
theorem redactText_hex {extraSecrets : List PyText} (shown : text ∉ literalSecrets extraSecrets) :
    redactText words extraSecrets text = text := by
  obtain ⟨noAssignment, noToken⟩ := hexDigits_unmatched words
  have literals : redactLiterals words extraSecrets text = text := by
    have kept : ∀ secrets : List PyText, text ∉ secrets →
        secrets.foldl (fun text secret => replaceAll text (literalSecret words secret)) text =
          text := by
      intro secrets
      induction secrets with
      | nil => exact fun _ => rfl
      | cons secret secrets ih =>
          intro apart
          rw [List.mem_cons, not_or] at apart
          rw [List.foldl_cons, sub_literalSecret words hex (Ne.symm apart.1), ih apart.2]
    exact kept _ shown
  have tokens : ∀ patterns ⊆ tokenPatterns words, patterns.foldl replaceAll text = text := by
    intro patterns
    induction patterns with
    | nil => exact fun _ => rfl
    | cons pattern patterns ih =>
        intro within
        obtain ⟨here, later⟩ := List.cons_subset.mp within
        rw [List.foldl_cons, replaceAll, Regex.sub_eq_self_of_letters hex (noToken pattern here),
          ih later]
  rw [redactText, literals, Regex.sub_eq_self_of_letters hex noAssignment,
    tokens _ (List.Subset.refl _)]

end Digests

/-! ## Documents -/

section Documents

variable (words : WordTest) (extraSecrets : List PyText)

/-- `_redact_value` under a name. -/
def redactMember (member : PyText × Json) : PyText × Json :=
  (member.1, if isSensitiveKey member.1 then .string redacted
    else redactNode words extraSecrets member.2)

theorem redactMembers_eq_map (members : List (PyText × Json)) :
    redactMembers words extraSecrets members =
      members.map (redactMember words extraSecrets) := by
  induction members with
  | nil => rfl
  | cons member members ih => rw [redactMembers, ih, List.map_cons, redactMember]

theorem map_fst_redactMembers (members : List (PyText × Json)) :
    (redactMembers words extraSecrets members).map Prod.fst = members.map Prod.fst := by
  rw [redactMembers_eq_map, List.map_map]
  exact List.map_congr_left fun _ _ => rfl

/-- A text under a name that carries no secret. -/
theorem mem_redactMembers {members : List (PyText × Json)} {key value : PyText}
    (among : (key, .string value) ∈ members) (plain : isSensitiveKey key = false) :
    (key, .string (redactText words extraSecrets value)) ∈
      redactMembers words extraSecrets members := by
  rw [redactMembers_eq_map]
  refine List.mem_map.mpr ⟨_, among, ?_⟩
  rw [redactMember, plain, if_neg Bool.false_ne_true, redactNode]

mutual

/-- Redaction keeps the numbers. -/
theorem numeric_redactNode : ∀ document : Json, document.numeric = true →
    (redactNode words extraSecrets document).numeric = true
  | .array items, fine => by
      rw [redactNode, Json.numeric]
      exact numeric_redactItems items fine
  | .object members, fine => by
      rw [redactNode, Json.numeric]
      exact numeric_redactMembers members fine
  | .null, fine => fine
  | .bool _, fine => fine
  | .number _, fine => fine
  | .string _, _ => by
      rw [redactNode]
      rfl

theorem numeric_redactItems : ∀ items : List Json, Json.numericItems items = true →
    Json.numericItems (redactItems words extraSecrets items) = true
  | [], fine => fine
  | item :: items, fine => by
      rw [Json.numericItems, Bool.and_eq_true] at fine
      rw [redactItems, Json.numericItems, numeric_redactNode item fine.1,
        numeric_redactItems items fine.2, Bool.and_self]

theorem numeric_redactMembers : ∀ members : List (PyText × Json),
    Json.numericMembers members = true →
      Json.numericMembers (redactMembers words extraSecrets members) = true
  | [], fine => fine
  | (key, value) :: members, fine => by
      rw [Json.numericMembers, Bool.and_eq_true] at fine
      rw [redactMembers, Json.numericMembers, numeric_redactMembers members fine.2, Bool.and_true]
      split
      · rfl
      · exact numeric_redactNode value fine.1

end

mutual

/-- Redaction keeps the keys distinct. -/
theorem distinctKeys_redactNode : ∀ document : Json, document.distinctKeys = true →
    (redactNode words extraSecrets document).distinctKeys = true
  | .array items, fine => by
      rw [redactNode, Json.distinctKeys]
      exact distinctKeys_redactItems items fine
  | .object members, fine => by
      rw [Json.distinctKeys, Bool.and_eq_true] at fine
      rw [redactNode, Json.distinctKeys, map_fst_redactMembers, fine.1,
        distinctKeys_redactMembers members fine.2, Bool.and_self]
  | .null, fine => fine
  | .bool _, fine => fine
  | .number _, fine => fine
  | .string _, _ => by
      rw [redactNode]
      rfl

theorem distinctKeys_redactItems : ∀ items : List Json, Json.distinctItems items = true →
    Json.distinctItems (redactItems words extraSecrets items) = true
  | [], fine => fine
  | item :: items, fine => by
      rw [Json.distinctItems, Bool.and_eq_true] at fine
      rw [redactItems, Json.distinctItems, distinctKeys_redactNode item fine.1,
        distinctKeys_redactItems items fine.2, Bool.and_self]

theorem distinctKeys_redactMembers : ∀ members : List (PyText × Json),
    Json.distinctMembers members = true →
      Json.distinctMembers (redactMembers words extraSecrets members) = true
  | [], fine => fine
  | (key, value) :: members, fine => by
      rw [Json.distinctMembers, Bool.and_eq_true] at fine
      rw [redactMembers, Json.distinctMembers, distinctKeys_redactMembers members fine.2,
        Bool.and_true]
      split
      · rfl
      · exact distinctKeys_redactNode value fine.1

end

end Documents

end Orchestrator.Security
