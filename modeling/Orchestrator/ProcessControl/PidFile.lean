import Mathlib.Algebra.Ring.Nat
import Orchestrator.Foundation.JsonCharacters

/-! # Pid files

The marker of an executor is one line of JSON with its pid and the token of its start time.
What a process writes about itself is read back; every other text is no record.
-/

namespace Orchestrator.ProcessControl

open Orchestrator.Foundation PyText Json

/-- A recorded process. -/
structure ProcessIdentity where
  pid : Nat
  startTime : Option PyText
  deriving DecidableEq

/-! ## Writing and reading a marker -/

def startTimeJson : Option PyText → PyText
  | none => ofString "null"
  | some token => dumpText true token

/-- `json.dumps({"pid": …, "start_time": …})`. -/
def markerLine (identity : ProcessIdentity) : PyText :=
  ofChar '\x7b' :: (dumpText true (ofString "pid") ++ ofChar ':' :: ofChar ' ' ::
    (naturalLiteral identity.pid ++ ofChar ',' :: ofChar ' ' ::
      (dumpText true (ofString "start_time") ++ ofChar ':' :: ofChar ' ' ::
        (startTimeJson identity.startTime ++ [ofChar '\x7d']))))

def markerPayload (identity : ProcessIdentity) : PyText := markerLine identity ++ [10]

/-- The digits that Python reads into one integer at most. -/
def maxIntDigits : Nat := 4300

/-- The number of a JSON integer, when it is positive. -/
def positiveInt : Json → Option Nat
  | .number literal =>
      let number := Nat.ofDigitChars 10 (asString literal).toList 0
      if literal.all isDigit ∧ 0 < number ∧ literal.length ≤ maxIntDigits then some number
      else none
  | _ => none

def startTimeOf : Option Json → Option PyText
  | some (.string token) => some token
  | _ => none

/-- The record of a marker's text, or nothing where it is malformed. -/
def readPidRecord (text : PyText) : Option ProcessIdentity :=
  match loads (strip text) with
  | some (.object members) =>
      ((Json.object members).get? "pid" >>= positiveInt).map fun pid =>
        ⟨pid, startTimeOf ((Json.object members).get? "start_time")⟩
  | _ => none

/-! ## Probing a record -/

/-- What `os.kill(pid, 0)` does: nothing, or one of its errors. -/
inductive Signalled where
  | sent
  | notPermitted
  | noSuchProcess
  | overflow

/-- The first pid that does not fit a `pid_t`. -/
def pidLimit : Nat := 2 ^ 31

/-- Whether a process runs, or nothing where the signal itself raises. -/
def isRunning (kill : Nat → Signalled) (startTime : Nat → Option PyText)
    (record : ProcessIdentity) : Option Bool :=
  match kill record.pid with
  | .notPermitted => some true
  | .noSuchProcess => some false
  | .overflow => none
  | .sent =>
      match record.startTime with
      | none => some true
      | some expected =>
          match startTime record.pid with
          | none => some true
          | some actual => some (actual = expected)

/-! ## Reading back -/

theorem asString_map_ofChar (letters : List Char) :
    (asString (letters.map ofChar)).toList = letters := by
  rw [asString, String.toList_ofList, List.map_map]
  refine List.map_id'' (fun letter => ?_) letters
  have valid : (ofChar letter).val.isValidChar := letter.valid
  rw [Function.comp_apply, dif_pos valid]
  rfl

/-- What is written about a number is read as that number. -/
theorem positiveInt_naturalLiteral {number : Nat} (positive : 0 < number)
    (bounded : number < pidLimit) :
    positiveInt (.number (naturalLiteral number)) = some number := by
  have digits : (naturalLiteral number).all isDigit = true := by
    have natural := isNatural_naturalLiteral number
    rw [isNatural, Bool.and_eq_true] at natural
    exact natural.1
  have short : (naturalLiteral number).length ≤ maxIntDigits := by
    rw [naturalLiteral, List.length_map]
    have ten : (Nat.toDigits 10 number).length ≤ 10 :=
      (Nat.length_toDigits_le_iff (by decide) (by decide)).mpr (by rw [pidLimit] at bounded; omega)
    exact Nat.le_trans ten (by decide)
  have value : Nat.ofDigitChars 10 (asString (naturalLiteral number)).toList 0 = number := by
    rw [naturalLiteral, asString_map_ofChar, Nat.ofDigitChars_ten_toDigits]
  rw [positiveInt, value, if_pos ⟨digits, positive, short⟩]

section RoundTrip

variable {identity : ProcessIdentity}

/-- The members of a marker. -/
def markerMembers (identity : ProcessIdentity) : List (PyText × Json) :=
  [(ofString "pid", .number (naturalLiteral identity.pid)),
    (ofString "start_time", (identity.startTime.map Json.string).getD .null)]

theorem blank_space : Blank [ofChar ' '] := by
  intro point among
  rw [List.mem_singleton.mp among]
  rfl

/-- A start token is read back, up to the end of the object. -/
theorem parseValue_startTime {startTime : Option PyText} {fuel : Nat}
    (plain : ∀ token ∈ startTime, encodable token = true) :
    parseValue (fuel + 1) (startTimeJson startTime ++ [ofChar '\x7d']) =
      some ((startTime.map Json.string).getD .null, [ofChar '\x7d']) := by
  cases startTime with
  | none => rfl
  | some token =>
      have whole : readable true token = true := plain token rfl
      exact parseValue_string true whole [ofChar '\x7d']

theorem skipSpace_startTimeJson (startTime : Option PyText) (rest : PyText) :
    skipSpace (startTimeJson startTime ++ rest) = startTimeJson startTime ++ rest := by
  cases startTime with
  | none => exact skipSpace_cons (by decide) _
  | some token => exact skipSpace_cons (by decide) _

/-- The member of the start token and the end of the object. -/
theorem parseMembers_startTime {startTime : Option PyText} {fuel : Nat}
    (plain : ∀ token ∈ startTime, encodable token = true) :
    parseMembers (fuel + 2) (ofChar ',' :: ([ofChar ' '] ++
        (dumpText true (ofString "start_time") ++ ofChar ':' :: ofChar ' ' ::
          (startTimeJson startTime ++ [ofChar '\x7d'])))) =
      some ([(ofString "start_time", (startTime.map Json.string).getD .null)], []) :=
  parseMembers_cons (by decide) (parseValue_startTime plain) rfl
    (skipSpace_startTimeJson startTime _) blank_space

/-- The line of a marker is the object of its members. -/
theorem loads_markerLine (plain : ∀ token ∈ identity.startTime, encodable token = true) :
    loads (markerLine identity) = some (.object (markerMembers identity)) := by
  have natural := isNatural_naturalLiteral identity.pid
  obtain ⟨point, digits, shape, digit⟩ := exists_digit_of_isNatural natural
  have solid : ∀ rest, skipSpace (naturalLiteral identity.pid ++ rest) =
      naturalLiteral identity.pid ++ rest := by
    intro rest
    rw [shape, List.cons_append, skipSpace_cons]
    cases blank : isWhitespace point with
    | false => rfl
    | true =>
        simp only [isDigit, isWhitespace, Bool.and_eq_true, Bool.or_eq_true,
          decide_eq_true_eq] at digit blank
        omega
  have number : ∀ fuel rest, Delimited rest → parseValue (fuel + 1)
      (naturalLiteral identity.pid ++ rest) =
        some (.number (naturalLiteral identity.pid), rest) := fun fuel rest delimited =>
    parseValue_dump true (.number (naturalLiteral identity.pid)) 0 (fuel + 1) rest natural
      (Nat.le_add_left 1 fuel) delimited
  obtain ⟨fuel, long⟩ : ∃ fuel, (markerLine identity).length = fuel + 3 :=
    ⟨(markerLine identity).length - 3, by
      rw [markerLine, List.length_cons, List.length_append, List.length_cons, List.length_cons]
      omega⟩
  have tight : Blank [] := fun _ among => absurd among List.not_mem_nil
  have whole : parseValue (fuel + 3) (markerLine identity) =
      some (.object (markerMembers identity), []) :=
    parseValue_object (by decide) (number (fuel + 1) _ (delimited_cons (by decide)))
      (parseMembers_startTime plain) (solid _) tight
  have begins : skipSpace (markerLine identity) = markerLine identity :=
    skipSpace_cons (by decide) _
  rw [loads, begins, long, whole]
  rfl

theorem strip_markerPayload (identity : ProcessIdentity) :
    strip (markerPayload identity) = markerLine identity := by
  obtain ⟨body, ends⟩ :
      ∃ body, markerLine identity = ofChar '\x7b' :: (body ++ [ofChar '\x7d']) := by
    refine ⟨dumpText true (ofString "pid") ++ ofChar ':' :: ofChar ' ' ::
      (naturalLiteral identity.pid ++ ofChar ',' :: ofChar ' ' ::
        (dumpText true (ofString "start_time") ++ ofChar ':' :: ofChar ' ' ::
          startTimeJson identity.startTime)), ?_⟩
    simp only [markerLine, List.append_assoc, List.cons_append]
  have opens : isSpace (ofChar '\x7b') = false := by decide
  have closes : isSpace (ofChar '\x7d') = false := by decide
  have feed : isSpace 10 = true := by decide
  rw [markerPayload, ends, strip, List.cons_append, List.dropWhile_cons, if_neg (by simp [opens])]
  simp only [List.reverse_cons, List.reverse_append, List.reverse_nil, List.nil_append,
    List.cons_append, List.dropWhile_cons, feed, closes, if_true, Bool.false_eq_true, if_false,
    List.reverse_reverse]

/-- What a process writes about itself is read back. -/
theorem readPidRecord_markerPayload (positive : 0 < identity.pid)
    (bounded : identity.pid < pidLimit)
    (plain : ∀ token ∈ identity.startTime, encodable token = true) :
    readPidRecord (markerPayload identity) = some identity := by
  have distinct : ((markerMembers identity).map Prod.fst).Nodup := by
    have keys : [ofString "pid", ofString "start_time"].Nodup := by decide
    exact keys
  have pid : (Json.object (markerMembers identity)).get? "pid" =
      some (.number (naturalLiteral identity.pid)) :=
    get?_of_mem distinct List.mem_cons_self
  have token : (Json.object (markerMembers identity)).get? "start_time" =
      some ((identity.startTime.map Json.string).getD .null) :=
    get?_of_mem distinct (List.mem_cons_of_mem _ List.mem_cons_self)
  rw [readPidRecord, strip_markerPayload, loads_markerLine plain]
  dsimp only
  rw [pid, token, Option.bind_eq_bind, Option.bind_some,
    positiveInt_naturalLiteral positive bounded]
  cases named : identity with
  | mk number start =>
      cases start with
      | none => rfl
      | some token => rfl

end RoundTrip

end Orchestrator.ProcessControl
