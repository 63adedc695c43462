import Orchestrator.Hitl.DangerousDiff

/-! # The entries of the dangerous-diff gate

What `git diff --name-status -z` prints of a checkout against the gate's reference, and what
`changed_code_entries` reads of it. A rename has one record with two paths, and the artifact
filter looks at the new one alone.
-/

namespace Orchestrator.Git

open Orchestrator.Foundation
open Orchestrator.Hitl (ChangedPath deletedPaths)

/-! ## Records and their text -/

/-- A record of `git diff --name-status`; a rename and a copy have a similarity. -/
inductive DiffRecord where
  | added (path : String)
  | deleted (path : String)
  | modified (path : String)
  | retyped (path : String)
  | renamed (similarity : Nat) (old new : String)
  | copied (similarity : Nat) (old new : String)

/-- A similarity in three digits. -/
def similarityDigits (similarity : Nat) : List Char := (Nat.toDigits 10 (1000 + similarity)).tail

namespace DiffRecord

def letter : DiffRecord → Char
  | added _ => 'A'
  | deleted _ => 'D'
  | modified _ => 'M'
  | retyped _ => 'T'
  | renamed _ _ _ => 'R'
  | copied _ _ _ => 'C'

def digits : DiffRecord → List Char
  | renamed similarity _ _ | copied similarity _ _ => similarityDigits similarity
  | _ => []

def status (record : DiffRecord) : String := String.ofList (record.letter :: record.digits)

/-- The paths of a record, the old one first. -/
def paths : DiffRecord → List String
  | added path | deleted path | modified path | retyped path => [path]
  | renamed _ old new | copied _ old new => [old, new]

def path : DiffRecord → String
  | added path | deleted path | modified path | retyped path => path
  | renamed _ _ new | copied _ _ new => new

def previous : DiffRecord → Option String
  | renamed _ old _ | copied _ old _ => some old
  | _ => none

def tokens (record : DiffRecord) : List String := record.status :: record.paths

end DiffRecord

/-- What git prints with `-z`: each token with a NUL after it. -/
def printZ (tokens : List String) : String :=
  String.ofList (tokens.flatMap fun token => token.toList ++ ['\x00'])

/-- `_parse_name_only_z`. -/
def parseNameOnlyZ (output : String) : List String :=
  (Text.split output '\x00').filter fun token => token ≠ ""

def isTwoPath (status : String) : Bool :=
  status.toList.head? = some 'R' || status.toList.head? = some 'C'

/-- The loop of `_parse_name_status_z` over the tokens. -/
def nameStatusEntries : List String → List (String × String × Option String)
  | status :: first :: second :: rest =>
      if isTwoPath status then (status, second, some first) :: nameStatusEntries rest
      else (status, first, none) :: nameStatusEntries (second :: rest)
  | [status, path] => [(status, path, none)]
  | _ => []

/-- `_parse_name_status_z`. -/
def parseNameStatusZ (output : String) : List (String × String × Option String) :=
  nameStatusEntries (parseNameOnlyZ output)

/-- `changed_code_entries`, of what `git diff` and `git ls-files` print. -/
def changedCodeEntries (tasksDir tracked untracked : String) : List ChangedPath :=
  ((parseNameStatusZ tracked).filter fun (_, path, _) => !isArtifactPath tasksDir path).map
      (fun (status, path, previous) => ⟨status, path, previous⟩) ++
    ((parseNameOnlyZ untracked).filter fun path => !isArtifactPath tasksDir path).map
      fun path => ⟨"??", path, none⟩

/-! ## A checkout against the reference -/

/-- A path that git prints: with a letter, and without a NUL. -/
def IsGitPath (path : String) : Prop := path ≠ "" ∧ '\x00' ∉ path.toList

/-- A gate reference's tree and a working tree over it. -/
structure Checkout (Entry : Type) where
  reference : Dict Entry
  tree : WorkTree Entry
  reference_paths : ∀ path ∈ reference.keys, IsGitPath path
  index_paths : ∀ path ∈ tree.index, IsGitPath path
  file_paths : ∀ path ∈ tree.files.keys, IsGitPath path

structure Rename where
  similarity : Nat
  old : String
  new : String

variable {Entry : Type} [DecidableEq Entry]

/-- What git makes of the differences: each rename takes a deleted path to an added one, and
no path is in two renames; an added path may be the copy of another. -/
structure Pairing (checkout : Checkout Entry) where
  renames : List Rename
  copies : String → Option (Nat × String)
  retyped : String → Bool
  old_deleted : ∀ rename ∈ renames,
    rename.old ∈ (deletedEntries checkout.reference checkout.tree).map Prod.fst
  new_added : ∀ rename ∈ renames,
    rename.new ∈ (addedEntries checkout.reference checkout.tree).map Prod.fst
  old_nodup : (renames.map Rename.old).Nodup
  new_nodup : (renames.map Rename.new).Nodup
  copied_paths : ∀ path, ∀ copied ∈ copies path, IsGitPath copied.2

section Diff

variable (checkout : Checkout Entry) (pairing : Pairing checkout)

/-- The record of a path that differs; the old end of a rename has none of its own. -/
def diffRecord (path : String) : Option DiffRecord :=
  match checkout.reference.lookup path, checkout.tree.tracked path with
  | some _, none =>
      if path ∈ pairing.renames.map Rename.old then none else some (.deleted path)
  | none, some _ =>
      match pairing.renames.find? fun rename => rename.new = path, pairing.copies path with
      | some rename, _ => some (.renamed rename.similarity rename.old path)
      | none, some (similarity, old) => some (.copied similarity old path)
      | none, none => some (.added path)
  | some _, some _ => some (if pairing.retyped path then .retyped path else .modified path)
  | none, none => none

def diffRecords : List DiffRecord :=
  (trackedChanges checkout.reference checkout.tree).filterMap (diffRecord checkout pairing)

/-- `git diff --name-status -z reference --`. -/
def diffNameStatus : String := printZ ((diffRecords checkout pairing).flatMap DiffRecord.tokens)

/-- `git ls-files --others --exclude-standard -z`. -/
def listOthers : String := printZ checkout.tree.untracked

/-- The entries that the gate is shown. -/
def gateEntries (tasksDir : String) : List ChangedPath :=
  changedCodeEntries tasksDir (diffNameStatus checkout pairing) (listOthers checkout)

/-- A path of the reference that is no longer on disk. -/
def Gone (path : String) : Prop :=
  checkout.reference.lookup path ≠ none ∧ checkout.tree.files.lookup path = none

end Diff

/-! ## Reading back what git prints -/

theorem parseNameOnlyZ_printZ {tokens : List String} (fine : ∀ token ∈ tokens, IsGitPath token) :
    parseNameOnlyZ (printZ tokens) = tokens := by
  have cut : ∀ tokens : List String, (∀ token ∈ tokens, '\x00' ∉ token.toList) →
      (tokens.flatMap fun token => token.toList ++ ['\x00']).splitOn '\x00' =
        tokens.map String.toList ++ [[]] := by
    intro tokens plain
    induction tokens with
    | nil => rfl
    | cons token tokens ih =>
        rw [List.flatMap_cons, List.append_assoc, List.singleton_append,
          List.splitOn_append_cons_self, List.splitOn_eq_singleton (plain token List.mem_cons_self),
          ih fun other among => plain other (List.mem_cons_of_mem _ among)]
        rfl
  have same : (tokens.map String.toList).map String.ofList = tokens := by
    rw [List.map_map]
    exact List.map_id'' (fun token => String.ofList_toList) tokens
  have kept : tokens.filter (fun token => token ≠ "") = tokens :=
    List.filter_eq_self.mpr fun token among => decide_eq_true (fine token among).1
  rw [parseNameOnlyZ, printZ, Text.split, String.toList_ofList,
    cut tokens fun token among => (fine token among).2, List.map_append, same, List.filter_append,
    kept]
  exact List.append_nil tokens

theorem isGitPath_status (record : DiffRecord) : IsGitPath record.status := by
  have digit : ∀ similarity, ∀ letter ∈ similarityDigits similarity, letter.isDigit = true :=
    fun similarity letter among => Nat.isDigit_of_mem_toDigits (by decide) (by decide)
      (List.mem_of_mem_tail among)
  have digits : ∀ letter ∈ record.digits, letter.isDigit = true := by
    cases record with
    | renamed similarity old new => exact digit similarity
    | copied similarity old new => exact digit similarity
    | _ => exact fun _ among => absurd among List.not_mem_nil
  refine ⟨fun empty => ?_, fun among => ?_⟩
  · have letters := congrArg String.toList empty
    rw [DiffRecord.status, String.toList_ofList] at letters
    cases letters
  · rw [DiffRecord.status, String.toList_ofList] at among
    rcases List.mem_cons.mp among with same | isDigit
    · have plain : record.letter ≠ '\x00' := by
        cases record <;> rw [DiffRecord.letter] <;> decide
      exact plain same.symm
    · exact absurd (digits _ isDigit) (by decide)

theorem isTwoPath_status (record : DiffRecord) :
    isTwoPath record.status = (record.letter = 'R' || record.letter = 'C') := by
  rw [isTwoPath, DiffRecord.status, String.toList_ofList, List.head?_cons]
  simp only [Option.some.injEq]

/-- A record is read back, whatever follows it. -/
theorem nameStatusEntries_tokens (record : DiffRecord) (rest : List String) :
    nameStatusEntries (record.tokens ++ rest) =
      (record.status, record.path, record.previous) :: nameStatusEntries rest := by
  have single : ∀ (status path : String), isTwoPath status = false →
      nameStatusEntries (status :: path :: rest) =
        (status, path, none) :: nameStatusEntries rest := by
    intro status path one
    cases rest with
    | nil => rfl
    | cons next rest => rw [nameStatusEntries, if_neg (by rw [one]; exact Bool.false_ne_true)]
  cases record with
  | renamed similarity old new =>
      exact (nameStatusEntries.eq_1 _ _ _ _).trans (if_pos (isTwoPath_status _))
  | copied similarity old new =>
      exact (nameStatusEntries.eq_1 _ _ _ _).trans (if_pos (isTwoPath_status _))
  | _ => exact single _ _ (isTwoPath_status _)

theorem nameStatusEntries_flatMap (records : List DiffRecord) :
    nameStatusEntries (records.flatMap DiffRecord.tokens) =
      records.map fun record => (record.status, record.path, record.previous) := by
  induction records with
  | nil => rfl
  | cons record records ih =>
      rw [List.flatMap_cons, nameStatusEntries_tokens, ih, List.map_cons]

/-- What git prints of its records is read back. -/
theorem parseNameStatusZ_printZ {records : List DiffRecord}
    (fine : ∀ record ∈ records, ∀ path ∈ record.paths, IsGitPath path) :
    parseNameStatusZ (printZ (records.flatMap DiffRecord.tokens)) =
      records.map fun record => (record.status, record.path, record.previous) := by
  rw [parseNameStatusZ, parseNameOnlyZ_printZ, nameStatusEntries_flatMap]
  intro token among
  obtain ⟨record, listed, isToken⟩ := List.mem_flatMap.mp among
  rcases List.mem_cons.mp isToken with rfl | isPath
  · exact isGitPath_status record
  · exact fine record listed token isPath

/-! ## What the gate is shown -/

/-- The path that a record removes. -/
def DiffRecord.removed : DiffRecord → Option String
  | .deleted path => some path
  | .renamed _ old _ => some old
  | _ => none

theorem removed_eq (record : DiffRecord) :
    (⟨record.status, record.path, record.previous⟩ : ChangedPath).removed = record.removed := by
  have upper : (Text.upper record.status).toList.head? = some record.letter.toUpper := by
    rw [Text.upper, DiffRecord.status, String.toList_ofList, String.toList_ofList]
    rfl
  rw [ChangedPath.removed, upper]
  cases record <;> rfl

/-- What the entries remove, of what is printed and of what is not tracked. -/
theorem mem_deletedPaths_changedCodeEntries {tasksDir untracked path : String}
    {records : List DiffRecord}
    (fine : ∀ record ∈ records, ∀ path ∈ record.paths, IsGitPath path) :
    path ∈ deletedPaths (changedCodeEntries tasksDir
        (printZ (records.flatMap DiffRecord.tokens)) untracked) ↔
      ∃ record ∈ records, isArtifactPath tasksDir record.path = false ∧
        record.removed = some path := by
  have others : ∀ paths : List String,
      (paths.map fun path => (⟨"??", path, none⟩ : ChangedPath)).filterMap ChangedPath.removed =
        [] := by
    intro paths
    refine List.filterMap_eq_nil_iff.mpr fun entry among => ?_
    obtain ⟨path, -, rfl⟩ := List.mem_map.mp among
    have upper : (Text.upper "??").toList.head? = some '?' := by decide
    rw [ChangedPath.removed, upper]
    rfl
  rw [deletedPaths, changedCodeEntries, List.filterMap_append, others, List.append_nil,
    parseNameStatusZ_printZ fine, List.mem_filterMap]
  constructor
  · rintro ⟨entry, among, removed⟩
    obtain ⟨_, kept, rfl⟩ := List.mem_map.mp among
    obtain ⟨listed, code⟩ := List.mem_filter.mp kept
    obtain ⟨record, isRecord, rfl⟩ := List.mem_map.mp listed
    rw [removed_eq] at removed
    exact ⟨record, isRecord, by simpa using code, removed⟩
  · rintro ⟨record, isRecord, code, removed⟩
    refine ⟨⟨record.status, record.path, record.previous⟩, List.mem_map.mpr
      ⟨_, List.mem_filter.mpr ⟨List.mem_map_of_mem isRecord, ?_⟩, rfl⟩, ?_⟩
    · dsimp only
      rw [code]
      rfl
    · rw [removed_eq, removed]

section Gate

variable {checkout : Checkout Entry} {pairing : Pairing checkout} {tasksDir path : String}

omit [DecidableEq Entry] in
theorem isGitPath_of_reference (found : checkout.reference.lookup path ≠ none) :
    IsGitPath path := by
  obtain ⟨entry, isEntry⟩ := Option.ne_none_iff_exists'.mp found
  exact checkout.reference_paths path (Dict.mem_keys_of_lookup isEntry)

theorem isGitPath_of_trackedChanges
    (among : path ∈ trackedChanges checkout.reference checkout.tree) : IsGitPath path := by
  rw [trackedChanges, List.mem_filter, List.mem_dedup, List.mem_append] at among
  rcases among.1 with inReference | inIndex
  · exact checkout.reference_paths path inReference
  · exact checkout.index_paths path inIndex

/-- A record is of its own path, and removes that path or the old end of its rename. -/
theorem diffRecord_cases {record : DiffRecord}
    (made : diffRecord checkout pairing path = some record) :
    record.path = path ∧ (∀ old ∈ record.previous, IsGitPath old) ∧
      ∀ gone ∈ record.removed, (gone = path ∧ path ∉ pairing.renames.map Rename.old) ∨
        ∃ rename ∈ pairing.renames, rename.old = gone ∧ rename.new = path := by
  rw [diffRecord] at made
  split at made
  · split at made
    · cases made
    · next unpaired =>
      cases made
      refine ⟨rfl, fun _ none => (by cases none), fun gone same => .inl ⟨?_, unpaired⟩⟩
      cases same
      rfl
  · split at made
    · next rename found =>
      cases made
      have listed := List.mem_of_find?_eq_some found
      have new : rename.new = path := by simpa using List.find?_some found
      refine ⟨rfl, fun old same => ?_, fun gone same => .inr ⟨rename, listed, ?_, new⟩⟩
      · cases same
        exact isGitPath_of_reference (mem_deletedEntries.mp (pairing.old_deleted rename listed)).1
      · cases same
        rfl
    · next similarity old _ copied =>
      cases made
      refine ⟨rfl, fun other same => ?_, fun gone none => (by cases none)⟩
      cases same
      exact pairing.copied_paths path (similarity, old) copied
    · cases made
      exact ⟨rfl, fun _ none => (by cases none), fun _ none => (by cases none)⟩
  · cases made
    split <;> exact ⟨rfl, fun _ none => (by cases none), fun _ none => (by cases none)⟩
  · cases made

theorem isGitPath_of_mem_paths {record : DiffRecord}
    (among : record ∈ diffRecords checkout pairing) (isPath : path ∈ record.paths) :
    IsGitPath path := by
  obtain ⟨own, listed, made⟩ := List.mem_filterMap.mp among
  obtain ⟨same, previous, -⟩ := diffRecord_cases made
  have ends : path = record.path ∨ path ∈ record.previous := by
    cases record with
    | renamed similarity old new =>
        rcases List.mem_cons.mp isPath with isOld | isNew
        · exact .inr (congrArg some isOld.symm)
        · exact .inl (List.mem_singleton.mp isNew)
    | copied similarity old new =>
        rcases List.mem_cons.mp isPath with isOld | isNew
        · exact .inr (congrArg some isOld.symm)
        · exact .inl (List.mem_singleton.mp isNew)
    | _ => exact .inl (List.mem_singleton.mp isPath)
  rcases ends with isNew | isOld
  · rw [isNew, same]
    exact isGitPath_of_trackedChanges listed
  · exact previous path isOld

theorem diffRecord_new {rename : Rename} (listed : rename ∈ pairing.renames) :
    rename.new ∈ trackedChanges checkout.reference checkout.tree ∧
      diffRecord checkout pairing rename.new =
        some (.renamed rename.similarity rename.old rename.new) := by
  obtain ⟨absent, present⟩ := mem_addedEntries.mp (pairing.new_added rename listed)
  obtain ⟨entry, isEntry⟩ := Option.ne_none_iff_exists'.mp present
  refine ⟨mem_trackedChanges.mpr (by rw [absent]; exact Ne.symm present), ?_⟩
  have first : (pairing.renames.find? fun other => other.new = rename.new) = some rename := by
    cases found : pairing.renames.find? fun other => other.new = rename.new with
    | none => exact absurd (decide_eq_true rfl) (List.find?_eq_none.mp found rename listed)
    | some other =>
        have same : other.new = rename.new := by simpa using List.find?_some found
        rw [List.inj_on_of_nodup_map pairing.new_nodup (List.mem_of_find?_eq_some found) listed
          same]
  rw [diffRecord, absent, isEntry, first]

/-- A code path that is gone is reported as removed exactly when no rename takes it into an
artifact directory. -/
theorem gone_reported_iff (gone : Gone checkout path)
    (code : isArtifactPath tasksDir path = false) :
    path ∈ deletedPaths (gateEntries checkout pairing tasksDir) ↔
      ∀ rename ∈ pairing.renames, rename.old = path →
        isArtifactPath tasksDir rename.new = false := by
  have untracked : checkout.tree.tracked path = none := by
    rw [WorkTree.tracked, gone.2, ite_self]
  rw [gateEntries, diffNameStatus, mem_deletedPaths_changedCodeEntries
    fun _ among _ isPath => isGitPath_of_mem_paths among isPath]
  constructor
  · rintro ⟨record, among, visible, removed⟩ rename listed isOld
    obtain ⟨own, _, made⟩ := List.mem_filterMap.mp among
    obtain ⟨same, -, removes⟩ := diffRecord_cases made
    rcases removes path removed with ⟨itself, unpaired⟩ | ⟨other, otherListed, otherOld, otherNew⟩
    · rw [← itself, ← isOld] at unpaired
      exact absurd (List.mem_map_of_mem listed) unpaired
    · have only : other = rename := List.inj_on_of_nodup_map pairing.old_nodup otherListed listed
        (otherOld.trans isOld.symm)
      rw [← only, otherNew, ← same]
      exact visible
  · intro kept
    by_cases paired : path ∈ pairing.renames.map Rename.old
    · obtain ⟨rename, listed, isOld⟩ := List.mem_map.mp paired
      obtain ⟨changed, made⟩ := diffRecord_new listed
      refine ⟨_, List.mem_filterMap.mpr ⟨rename.new, changed, made⟩, kept rename listed isOld, ?_⟩
      exact congrArg some isOld
    · obtain ⟨entry, isEntry⟩ := Option.ne_none_iff_exists'.mp gone.1
      have made : diffRecord checkout pairing path = some (.deleted path) := by
        rw [diffRecord, isEntry, untracked]
        dsimp only
        rw [if_neg paired]
      refine ⟨_, List.mem_filterMap.mpr ⟨path, ?_, made⟩, code, rfl⟩
      rw [mem_trackedChanges, untracked]
      exact gone.1

end Gate

/-! ## A moved file -/

section Moved

variable (new : String)

/-- A file of the reference, moved to a new path. -/
def movedCheckout (fine : IsGitPath new) : Checkout String where
  reference := Dict.ofList [("app.py", "main()")]
  tree := ⟨[new], Dict.ofList [(new, "main()")], fun _ => false⟩
  reference_paths := by
    intro path among
    rw [List.mem_singleton.mp among]
    exact ⟨by decide, by decide⟩
  index_paths := by
    intro path among
    rw [List.mem_singleton.mp among]
    exact fine
  file_paths := by
    intro path among
    rw [List.mem_singleton.mp among]
    exact fine

variable {new} in
theorem lookup_moved (path value : String) :
    (Dict.ofList [(new, value)]).lookup path = if path = new then some value else none := by
  rw [Dict.ofList, AList.lookup_to_alist]
  by_cases same : path = new
  · subst same
    rw [if_pos rfl]
    exact List.dlookup_cons_eq _ _ _
  · rw [if_neg same]
    exact List.dlookup_cons_ne _ _ same

/-- The pairing of the old path with the new one. -/
def movedPairing (fine : IsGitPath new) (other : new ≠ "app.py") :
    Pairing (movedCheckout new fine) where
  renames := [⟨100, "app.py", new⟩]
  copies _ := none
  retyped _ := false
  old_deleted := by
    intro rename among
    rw [List.mem_singleton.mp among]
    refine mem_deletedEntries.mpr ⟨?_, ?_⟩
    · rw [movedCheckout, lookup_moved, if_pos rfl]
      exact Option.some_ne_none _
    · exact if_neg fun tracked => other (List.mem_singleton.mp tracked).symm
  new_added := by
    intro rename among
    rw [List.mem_singleton.mp among]
    refine mem_addedEntries.mpr ⟨?_, ?_⟩
    · rw [movedCheckout, lookup_moved, if_neg other]
    · rw [WorkTree.tracked, movedCheckout, if_pos List.mem_cons_self, lookup_moved, if_pos rfl]
      exact Option.some_ne_none _
  old_nodup := List.nodup_singleton _
  new_nodup := List.nodup_singleton _
  copied_paths := fun _ _ none => by cases none

theorem moved_gone (fine : IsGitPath new) (other : new ≠ "app.py") :
    Gone (movedCheckout new fine) "app.py" := by
  refine ⟨?_, ?_⟩
  · rw [movedCheckout, lookup_moved, if_pos rfl]
    exact Option.some_ne_none _
  · rw [movedCheckout, lookup_moved, if_neg (Ne.symm other)]

end Moved

theorem moved_within_code_reported :
    "app.py" ∈ deletedPaths (gateEntries (movedCheckout "lib/app.py" ⟨by decide, by decide⟩)
      (movedPairing "lib/app.py" ⟨by decide, by decide⟩ (by decide)) "tasks") := by
  refine (gone_reported_iff (moved_gone _ _ (by decide)) (by decide)).mpr ?_
  intro rename among _
  rw [List.mem_singleton.mp among]
  decide

/-- A file moved into the task directory is gone, and the gate is shown nothing. -/
theorem moved_into_tasks_hidden :
    Gone (movedCheckout "tasks/app.py" ⟨by decide, by decide⟩) "app.py" ∧
      isArtifactPath "tasks" "app.py" = false ∧
        gateEntries (movedCheckout "tasks/app.py" ⟨by decide, by decide⟩)
          (movedPairing "tasks/app.py" ⟨by decide, by decide⟩ (by decide)) "tasks" = [] :=
  ⟨moved_gone _ _ (by decide), by decide, by decide +kernel⟩

end Orchestrator.Git
