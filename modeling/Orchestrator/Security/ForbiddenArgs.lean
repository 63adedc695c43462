import Mathlib.Data.List.Infix
import Mathlib.Data.List.TakeWhile
import Orchestrator.Security.Identifiers

/-! # Spellings of a bypass

A long option takes its value as the next token or after an equals sign; a short one takes it
attached too. The scan reads the first two spellings, and a sandbox value that is attached to its
short option is read as another flag.
-/

namespace Orchestrator.Security

open Orchestrator.Foundation

variable {args : List String} {option value token : String}

/-- An option takes a value from the next token, or after an equals sign. -/
inductive Spelled (args : List String) (option value : String) : Prop
  | next (apart : [option, value] <:+: args)
  | joined (whole : option ++ "=" ++ value ∈ args)

/-- The short option with its value attached. -/
def attachedSandbox : String := "-s" ++ forbiddenSandboxValue

/-- The vector selects the sandbox value that grants full access. -/
def SelectsFullAccess (args : List String) : Prop :=
  (∃ option ∈ sandboxFlags, Spelled args option forbiddenSandboxValue) ∨ attachedSandbox ∈ args

/-- The vector selects the permission mode that bypasses the prompts. -/
def SelectsBypassMode (args : List String) : Prop :=
  Spelled args permissionModeFlag bypassPermissionMode

/-- A token is a flag, alone or with a value after an equals sign. -/
def IsFlag (token flag : String) : Prop := token = flag ∨ ∃ value, token = flag ++ "=" ++ value

/-- The vector contains a dangerous flag or a listed one. -/
def ContainsBypassFlag (args : List String) : Prop :=
  ∃ token ∈ args, Text.startsWith token "--dangerously" = true ∨
    ∃ flag ∈ forbiddenFlags, IsFlag token flag

/-- The vector bypasses the sandbox or the approvals. -/
def Bypasses (args : List String) : Prop :=
  SelectsFullAccess args ∨ SelectsBypassMode args ∨ ContainsBypassFlag args

/-- A sandbox flag takes no value, or an empty one. -/
def LacksSandbox (args : List String) : Prop :=
  ∃ option ∈ sandboxFlags, Spelled args option "" ∨ args.getLast? = some option

/-- What the scan refuses: the bypasses it reads, and a sandbox flag without a value. -/
def Refused (args : List String) : Prop :=
  (∃ option ∈ sandboxFlags, Spelled args option forbiddenSandboxValue) ∨ LacksSandbox args ∨
    SelectsBypassMode args ∨ ContainsBypassFlag args

/-! ## One token -/

/-- A token without an equals sign is its flag; another is its flag and its value. -/
theorem partition_cases (token : String) :
    '=' ∉ token.toList ∧ Text.partition token '=' = (token, false, "") ∨
      ∃ flag inline, '=' ∉ flag.toList ∧ token = flag ++ "=" ++ inline ∧
        Text.partition token '=' = (flag, true, inline) := by
  have parts := List.takeWhile_append_dropWhile (p := (· != '=')) (l := token.toList)
  have dropped : token.toList.drop (token.toList.takeWhile (· != '=')).length =
      token.toList.dropWhile (· != '=') :=
    (congrArg (List.drop _) parts.symm).trans List.drop_left
  have plain : '=' ∉ token.toList.takeWhile (· != '=') := by
    intro among
    have other := List.mem_takeWhile_imp among
    cases other
  unfold Text.partition
  dsimp only
  rw [dropped]
  cases later : token.toList.dropWhile (· != '=') with
  | nil =>
      rw [later, List.append_nil] at parts
      exact .inl ⟨parts ▸ plain, rfl⟩
  | cons letter rest =>
      have equals : letter = '=' := by
        have stop := List.head_dropWhile_not (· != '=')
          (show token.toList.dropWhile _ ≠ [] by rw [later]; exact List.cons_ne_nil _ _)
        simpa only [later, List.head_cons, bne_eq_false_iff_eq] using stop
      refine .inr ⟨String.ofList (token.toList.takeWhile (· != '=')), String.ofList rest, ?_, ?_,
        rfl⟩
      · rw [String.toList_ofList]
        exact plain
      · apply String.toList_injective
        rw [String.toList_append, String.toList_append, String.toList_ofList,
          String.toList_ofList, String.toList_ofList, List.append_assoc]
        rw [later, equals] at parts
        exact parts.symm

/-- A flag without an equals sign is read from a token that is it, with or without a value. -/
theorem partition_flag {flag : String} (plain : '=' ∉ flag.toList) :
    Text.partition flag '=' = (flag, false, "") ∧
      ∀ inline, Text.partition (flag ++ "=" ++ inline) '=' = (flag, true, inline) := by
  have split : ∀ {first second : List Char} {rest more : List Char}, '=' ∉ first → '=' ∉ second →
      first ++ '=' :: rest = second ++ '=' :: more → first = second ∧ rest = more := by
    intro first
    induction first with
    | nil =>
        intro second rest more _ outside same
        cases second with
        | nil => exact ⟨rfl, (List.cons.inj same).2⟩
        | cons letter second =>
            exact absurd ((List.cons.inj same).1 ▸ List.mem_cons_self) outside
    | cons letter first ih =>
        intro second rest more before outside same
        cases second with
        | nil => exact absurd ((List.cons.inj same).1 ▸ List.mem_cons_self) before
        | cons other second =>
            obtain ⟨rfl, later⟩ := List.cons.inj same
            obtain ⟨rfl, rfl⟩ := ih (fun among => before (List.mem_cons_of_mem _ among))
              (fun among => outside (List.mem_cons_of_mem _ among)) later
            exact ⟨rfl, rfl⟩
  have letters : ∀ flag inline : String,
      (flag ++ "=" ++ inline).toList = flag.toList ++ '=' :: inline.toList := by
    intro flag inline
    rw [String.toList_append, String.toList_append, List.append_assoc]
    rfl
  constructor
  · rcases partition_cases flag with ⟨-, whole⟩ | ⟨front, inline, -, rfl, -⟩
    · exact whole
    · refine absurd ?_ plain
      rw [letters]
      exact List.mem_append_right _ List.mem_cons_self
  · intro inline
    rcases partition_cases (flag ++ "=" ++ inline) with ⟨none, -⟩ |
      ⟨front, later, outside, same, whole⟩
    · refine absurd ?_ none
      rw [letters]
      exact List.mem_append_right _ List.mem_cons_self
    · have cut := congrArg String.toList same
      rw [letters, letters] at cut
      obtain ⟨first, rest⟩ := split plain outside cut
      rw [whole, String.toList_injective first, String.toList_injective rest]

/-- The flag and the value that the scan reads at a position. -/
def readAt (args : List String) (index : Nat) (token : String) : String × String :=
  let (flag, separator, inline) := Text.partition token '='
  (flag, if separator then inline else peek args (index + 1))

/-- The flag of a token. -/
theorem isFlag_iff {flag : String} (plain : '=' ∉ flag.toList) (args : List String) (index : Nat)
    (token : String) : (readAt args index token).1 = flag ↔ IsFlag token flag := by
  constructor
  · intro read
    rcases partition_cases token with ⟨-, whole⟩ | ⟨front, inline, -, rfl, whole⟩
    · rw [readAt, whole] at read
      exact .inl read
    · rw [readAt, whole] at read
      exact .inr ⟨inline, by rw [← read]⟩
  · rintro (rfl | ⟨value, rfl⟩)
    · rw [readAt, (partition_flag plain).1]
    · rw [readAt, (partition_flag plain).2]

/-- A value is read for an option from the next token, or after an equals sign. -/
theorem readAt_iff (plain : '=' ∉ option.toList) (args : List String) (index : Nat)
    (token value : String) :
    readAt args index token = (option, value) ↔
      token = option ++ "=" ++ value ∨ token = option ∧ peek args (index + 1) = value := by
  constructor
  · intro read
    rcases partition_cases token with ⟨-, whole⟩ | ⟨front, inline, -, rfl, whole⟩
    · rw [readAt, whole] at read
      exact .inr ⟨congrArg Prod.fst read, congrArg Prod.snd read⟩
    · rw [readAt, whole] at read
      obtain ⟨rfl, rfl⟩ := Prod.mk.inj read
      exact .inl rfl
  · rintro (rfl | ⟨rfl, rfl⟩)
    · rw [readAt, (partition_flag plain).2]
      rfl
    · rw [readAt, (partition_flag plain).1]
      rfl

/-- A token starts as a dangerous flag exactly when its flag does. -/
theorem startsWith_dangerously (args : List String) (index : Nat) (token : String) :
    Text.startsWith (readAt args index token).1 "--dangerously" =
      Text.startsWith token "--dangerously" := by
  have solid : '=' ∉ "--dangerously".toList := by decide
  rcases partition_cases token with ⟨-, whole⟩ | ⟨front, inline, -, rfl, whole⟩
  · rw [readAt, whole]
  · rw [readAt, whole, Bool.eq_iff_iff, Text.startsWith, Text.startsWith,
      List.isPrefixOf_iff_prefix, List.isPrefixOf_iff_prefix, String.toList_append,
      String.toList_append, List.append_assoc]
    constructor
    · exact fun start => start.trans (List.prefix_append _ _)
    · intro start
      rcases List.prefix_or_prefix_of_prefix start (List.prefix_append _ _) with
        here | ⟨more, longer⟩
      · exact here
      · rw [← longer, List.prefix_append_right_inj] at start
        cases more with
        | nil => rw [← longer, List.append_nil]
        | cons letter more =>
            obtain ⟨rest, same⟩ := start
            refine absurd ?_ solid
            rw [← longer, (List.cons.inj same).1]
            exact List.mem_append_right _ List.mem_cons_self

/-! ## A vector -/

/-- A token is refused for its flag, or for the value of its option. -/
theorem forbiddenReason_ne_none (args : List String) (index : Nat) (token : String) :
    forbiddenReason args index token ≠ none ↔
      Text.startsWith token "--dangerously" = true ∨ (∃ flag ∈ forbiddenFlags, IsFlag token flag) ∨
        (∃ option ∈ sandboxFlags, readAt args index token = (option, forbiddenSandboxValue) ∨
          readAt args index token = (option, "")) ∨
        readAt args index token = (permissionModeFlag, bypassPermissionMode) := by
  have flags : ∀ flag ∈ forbiddenFlags, '=' ∉ flag.toList := by decide
  have listed : (readAt args index token).1 ∈ forbiddenFlags ↔
      ∃ flag ∈ forbiddenFlags, IsFlag token flag := by
    constructor
    · exact fun among => ⟨_, among, (isFlag_iff (flags _ among) args index token).mp rfl⟩
    · rintro ⟨flag, among, named⟩
      rw [(isFlag_iff (flags flag among) args index token).mpr named]
      exact among
  obtain ⟨flag, flagged⟩ : ∃ flag, (readAt args index token).1 = flag := ⟨_, rfl⟩
  obtain ⟨value, valued⟩ : ∃ value, (readAt args index token).2 = value := ⟨_, rfl⟩
  have reads : forbiddenReason args index token =
      if Text.startsWith flag "--dangerously" || decide (flag ∈ forbiddenFlags) then
        some s!"flag {Text.repr token} {bypassReason}"
      else if flag ∈ sandboxFlags then
        if value = forbiddenSandboxValue then
          some s!"--sandbox {Text.repr forbiddenSandboxValue} grants full access (no isolation)"
        else if value = "" then
          some s!"{flag} requires a sandbox value (none given)"
        else none
      else if flag = permissionModeFlag && value = bypassPermissionMode then
        some (s!"--permission-mode {Text.repr bypassPermissionMode} disables permission prompts " ++
          "(no isolation)")
      else none := by
    rw [← flagged, ← valued]
    rfl
  rw [reads, ← listed, ← startsWith_dangerously args index token,
    show readAt args index token = (flag, value) from Prod.ext flagged valued]
  by_cases dangerous : Text.startsWith flag "--dangerously" = true
  · rw [dangerous, Bool.true_or, if_pos rfl]
    exact iff_of_true (Option.some_ne_none _) (.inl rfl)
  · by_cases forbidden : flag ∈ forbiddenFlags
    · rw [decide_eq_true forbidden, Bool.or_true, if_pos rfl]
      exact iff_of_true (Option.some_ne_none _) (.inr (.inl forbidden))
    · rw [Bool.not_eq_true _ |>.mp dangerous, decide_eq_false forbidden, Bool.or_false,
        if_neg Bool.false_ne_true]
      simp only [Bool.false_eq_true, forbidden, false_or, Prod.mk.injEq]
      by_cases sandbox : flag ∈ sandboxFlags
      · have other : flag ≠ permissionModeFlag := by
          rintro rfl
          exact absurd sandbox (by decide)
        rw [if_pos sandbox]
        by_cases full : value = forbiddenSandboxValue
        · rw [if_pos full]
          exact iff_of_true (Option.some_ne_none _) (.inl ⟨flag, sandbox, .inl ⟨rfl, full⟩⟩)
        · rw [if_neg full]
          by_cases blank : value = ""
          · rw [if_pos blank]
            exact iff_of_true (Option.some_ne_none _) (.inl ⟨flag, sandbox, .inr ⟨rfl, blank⟩⟩)
          · rw [if_neg blank]
            refine iff_of_false (not_not_intro rfl) ?_
            rintro (⟨option, -, ⟨-, same⟩ | ⟨-, same⟩⟩ | ⟨same, -⟩)
            · exact full same
            · exact blank same
            · exact other same
      · have none : ¬∃ option ∈ sandboxFlags, flag = option ∧ value = forbiddenSandboxValue ∨
            flag = option ∧ value = "" := by
          rintro ⟨option, among, ⟨rfl, -⟩ | ⟨rfl, -⟩⟩ <;> exact sandbox among
        rw [if_neg sandbox, or_iff_right none]
        by_cases mode : flag = permissionModeFlag ∧ value = bypassPermissionMode
        · rw [if_pos (by rw [decide_eq_true mode.1, decide_eq_true mode.2]; rfl)]
          exact iff_of_true (Option.some_ne_none _) mode
        · rw [if_neg (by
            rw [Bool.and_eq_true, decide_eq_true_eq, decide_eq_true_eq]
            exact mode)]
          exact iff_of_false (not_not_intro rfl) mode

/-- A vector is refused for one of its tokens. -/
theorem findForbiddenArgs_ne_nil (args : List String) :
    findForbiddenArgs args ≠ [] ↔
      ∃ index token, args[index]? = some token ∧ forbiddenReason args index token ≠ none := by
  rw [findForbiddenArgs, Ne, List.filterMap_eq_nil_iff]
  constructor
  · intro some
    by_contra clear
    refine some fun entry among => ?_
    by_contra reason
    exact clear ⟨entry.2, entry.1, List.mem_zipIdx_iff_getElem?.mp among, reason⟩
  · rintro ⟨index, token, here, reason⟩ clear
    exact reason (clear (token, index) (List.mem_zipIdx_iff_getElem?.mpr here))

/-- A value is read somewhere exactly when it is spelled so, or the vector ends at the option. -/
theorem exists_readAt_iff (plain : '=' ∉ option.toList) (value : String) :
    (∃ index token, args[index]? = some token ∧ readAt args index token = (option, value)) ↔
      Spelled args option value ∨ value = "" ∧ args.getLast? = some option := by
  constructor
  · rintro ⟨index, token, here, read⟩
    rcases (readAt_iff plain args index token value).mp read with rfl | ⟨rfl, later⟩
    · exact .inl (.joined (List.mem_of_getElem? here))
    · obtain ⟨below, same⟩ := List.getElem?_eq_some_iff.mp here
      have whole : args = args.take index ++ token :: args.drop (index + 1) := by
        rw [← same, ← List.drop_eq_getElem_cons below, List.take_append_drop]
      rw [peek, List.getD_eq_getElem?_getD] at later
      cases after : args[index + 1]? with
      | none =>
          rw [after, Option.getD_none] at later
          refine .inr ⟨later.symm, ?_⟩
          rw [whole, List.drop_eq_nil_of_le (List.getElem?_eq_none_iff.mp after),
            List.getLast?_concat]
      | some next =>
          rw [after, Option.getD_some] at later
          obtain ⟨within, there⟩ := List.getElem?_eq_some_iff.mp after
          refine .inl (.next ⟨args.take index, args.drop (index + 1 + 1), ?_⟩)
          rw [List.append_assoc]
          conv_rhs => rw [whole, List.drop_eq_getElem_cons within, there, later]
          rfl
  · rintro ((⟨before, after, rfl⟩ | whole) | ⟨rfl, last⟩)
    · refine ⟨before.length, option, ?_, (readAt_iff plain _ _ _ _).mpr (.inr ⟨rfl, ?_⟩)⟩
      · rw [List.append_assoc, List.getElem?_append_right (Nat.le_refl _), Nat.sub_self]
        rfl
      · rw [peek, List.getD_eq_getElem?_getD, List.append_assoc,
          List.getElem?_append_right (Nat.le_add_right _ _), Nat.add_sub_cancel_left]
        rfl
    · obtain ⟨index, here⟩ := List.mem_iff_getElem?.mp whole
      exact ⟨index, _, here, (readAt_iff plain _ _ _ _).mpr (.inl rfl)⟩
    · obtain ⟨front, rfl⟩ := List.getLast?_eq_some_iff.mp last
      refine ⟨front.length, option, ?_, (readAt_iff plain _ _ _ _).mpr (.inr ⟨rfl, ?_⟩)⟩
      · rw [List.getElem?_append_right (Nat.le_refl _), Nat.sub_self]
        rfl
      · rw [peek, List.getD_eq_getElem?_getD, List.getElem?_eq_none (by
          rw [List.length_append]
          exact Nat.le_refl _), Option.getD_none]

/-- The scan finds what it refuses. -/
theorem findForbiddenArgs_iff (args : List String) :
    findForbiddenArgs args ≠ [] ↔ Refused args := by
  have plain : ∀ option ∈ sandboxFlags, '=' ∉ option.toList := by decide
  rw [findForbiddenArgs_ne_nil]
  constructor
  · rintro ⟨index, token, here, reason⟩
    have among := List.mem_of_getElem? here
    rcases (forbiddenReason_ne_none args index token).mp reason with
      dangerous | ⟨flag, listed, named⟩ | ⟨option, sandbox, full | blank⟩ | mode
    · exact .inr (.inr (.inr ⟨token, among, .inl dangerous⟩))
    · exact .inr (.inr (.inr ⟨token, among, .inr ⟨flag, listed, named⟩⟩))
    · refine .inl ⟨option, sandbox, ?_⟩
      exact ((exists_readAt_iff (plain option sandbox) _).mp
        ⟨index, token, here, full⟩).resolve_right
        fun blank => absurd blank.1 (by decide)
    · refine .inr (.inl ⟨option, sandbox, ?_⟩)
      exact ((exists_readAt_iff (plain option sandbox) _).mp ⟨index, token, here, blank⟩).imp_right
        And.right
    · refine .inr (.inr (.inl ?_))
      exact ((exists_readAt_iff (by decide) _).mp ⟨index, token, here, mode⟩).resolve_right
        fun blank => absurd blank.1 (by decide)
  · rintro (⟨option, sandbox, full⟩ | ⟨option, sandbox, blank⟩ | mode |
      ⟨token, among, flags⟩)
    · obtain ⟨index, token, here, read⟩ :=
        (exists_readAt_iff (plain option sandbox) _).mpr (.inl full)
      exact ⟨index, token, here, (forbiddenReason_ne_none args index token).mpr
        (.inr (.inr (.inl ⟨option, sandbox, .inl read⟩)))⟩
    · obtain ⟨index, token, here, read⟩ :=
        (exists_readAt_iff (plain option sandbox) "").mpr (blank.imp_right fun last => ⟨rfl, last⟩)
      exact ⟨index, token, here, (forbiddenReason_ne_none args index token).mpr
        (.inr (.inr (.inl ⟨option, sandbox, .inr read⟩)))⟩
    · obtain ⟨index, token, here, read⟩ := (exists_readAt_iff (by decide) _).mpr (.inl mode)
      exact ⟨index, token, here, (forbiddenReason_ne_none args index token).mpr
        (.inr (.inr (.inr read)))⟩
    · obtain ⟨index, here⟩ := List.mem_iff_getElem?.mp among
      exact ⟨index, token, here, (forbiddenReason_ne_none args index token).mpr
        (flags.imp_right .inl)⟩

/-- A bypass is found, unless it is spelled by a value attached to the short option and by nothing
that the scan refuses. -/
theorem bypass_found_iff (args : List String) :
    (Bypasses args → findForbiddenArgs args ≠ []) ↔ attachedSandbox ∉ args ∨ Refused args := by
  rw [findForbiddenArgs_iff]
  constructor
  · intro found
    by_cases attached : attachedSandbox ∈ args
    · exact .inr (found (.inl (.inr attached)))
    · exact .inl attached
  · rintro (absent | refused) bypasses
    · rcases bypasses with (full | attached) | mode | flag
      · exact .inl full
      · exact absurd attached absent
      · exact .inr (.inr (.inl mode))
      · exact .inr (.inr (.inr flag))
    · exact refused

/-- The full-access value attached to the short option passes. -/
theorem not_bypass_found_attached :
    ¬(Bypasses ["--model", "gpt-5", "-sdanger-full-access"] →
      findForbiddenArgs ["--model", "gpt-5", "-sdanger-full-access"] ≠ []) := by
  intro found
  refine found (.inl (.inr ?_)) ?_
  · decide +kernel
  · decide +kernel

end Orchestrator.Security
