import Mathlib.Data.List.AList
import Mathlib.Data.List.Induction
import Mathlib.Data.List.Nodup

/-! # Dictionaries in insertion order

A dictionary is the list of its items, with distinct keys. A key that is set again keeps its place.
-/

namespace Orchestrator.Foundation

/-- A dictionary that keeps the order of insertion. -/
structure OrderedDict (κ β : Type) where
  items : List (κ × β)
  distinct : (items.map Prod.fst).Nodup
  deriving DecidableEq

namespace OrderedDict

variable {κ β γ : Type} [DecidableEq κ]

/-- The items after a key is set. -/
def setItem (key : κ) (value : β) : List (κ × β) → List (κ × β)
  | [] => [(key, value)]
  | (other, old) :: rest =>
      if other = key then (key, value) :: rest else (other, old) :: setItem key value rest

theorem mem_keys_setItem {key other : κ} {value : β} {items : List (κ × β)}
    (among : other ∈ (setItem key value items).map Prod.fst) :
    other = key ∨ other ∈ items.map Prod.fst := by
  induction items with
  | nil => exact .inl (List.mem_singleton.mp among)
  | cons item rest ih =>
      rw [setItem] at among
      by_cases same : item.1 = key
      · rw [if_pos same] at among
        rcases List.mem_cons.mp among with here | later
        · exact .inl here
        · exact .inr (List.mem_cons_of_mem _ later)
      · rw [if_neg same] at among
        rcases List.mem_cons.mp among with here | later
        · exact .inr (List.mem_cons.mpr (.inl here))
        · apply (ih later).imp_right
          exact List.mem_cons_of_mem _

theorem nodup_setItem (key : κ) (value : β) {items : List (κ × β)}
    (distinct : (items.map Prod.fst).Nodup) : ((setItem key value items).map Prod.fst).Nodup := by
  induction items with
  | nil => exact List.nodup_singleton _
  | cons item rest ih =>
      obtain ⟨fresh, others⟩ := List.nodup_cons.mp distinct
      rw [setItem]
      by_cases same : item.1 = key
      · rw [if_pos same, List.map_cons, ← same]
        exact distinct
      · rw [if_neg same, List.map_cons]
        refine List.nodup_cons.mpr ⟨fun among => ?_, ih others⟩
        rcases mem_keys_setItem among with here | later
        · exact same here
        · exact fresh later

theorem mem_setItem {key : κ} {value : β} {items : List (κ × β)} {item : κ × β}
    (among : item ∈ setItem key value items) : item = (key, value) ∨ item ∈ items := by
  induction items with
  | nil => exact .inl (List.mem_singleton.mp among)
  | cons first rest ih =>
      rw [setItem] at among
      by_cases same : first.1 = key
      · rw [if_pos same] at among
        rcases List.mem_cons.mp among with here | later
        · exact .inl here
        · exact .inr (List.mem_cons_of_mem _ later)
      · rw [if_neg same] at among
        rcases List.mem_cons.mp among with here | later
        · exact .inr (List.mem_cons.mpr (.inl here))
        · apply (ih later).imp_right
          exact List.mem_cons_of_mem _

/-- The key that is set is there, and so are the keys before. -/
theorem keys_setItem (key : κ) (value : β) (items : List (κ × β)) {other : κ}
    (among : other = key ∨ other ∈ items.map Prod.fst) :
    other ∈ (setItem key value items).map Prod.fst := by
  induction items with
  | nil =>
      rcases among with rfl | none
      · exact List.mem_cons_self
      · cases none
  | cons first rest ih =>
      rw [setItem]
      by_cases same : first.1 = key
      · rw [if_pos same, List.map_cons, ← same]
        rw [List.map_cons, ← same] at among
        rcases among with rfl | before
        · exact List.mem_cons_self
        · exact before
      · rw [if_neg same, List.map_cons]
        rw [List.map_cons] at among
        rcases among with here | before
        · exact List.mem_cons_of_mem _ (ih (.inl here))
        · rcases List.mem_cons.mp before with front | later
          · exact List.mem_cons.mpr (.inl front)
          · exact List.mem_cons_of_mem _ (ih (.inr later))

/-- `dict[key] = value`. -/
def set (dict : OrderedDict κ β) (key : κ) (value : β) : OrderedDict κ β :=
  ⟨setItem key value dict.items, nodup_setItem key value dict.distinct⟩

/-- `{}`. -/
def empty : OrderedDict κ β := ⟨[], List.nodup_nil⟩

/-- `dict(items)`: the last item of a key counts, in the place of the first. -/
def ofItems (items : List (κ × β)) : OrderedDict κ β :=
  items.foldl (fun dict item => dict.set item.1 item.2) empty

/-- `dict.get(key)`. -/
def get? (dict : OrderedDict κ β) (key : κ) : Option β :=
  (dict.items.find? fun item => item.1 = key).map Prod.snd

theorem find?_setItem (key other : κ) (value : β) (items : List (κ × β)) :
    ((setItem key value items).find? fun item => item.1 = other).map Prod.snd =
      if other = key then some value
      else (items.find? fun item => item.1 = other).map Prod.snd := by
  induction items with
  | nil =>
      rw [setItem, List.find?_singleton]
      by_cases same : other = key
      · rw [if_pos (decide_eq_true same.symm), if_pos same, Option.map_some]
      · rw [if_neg (by simpa using Ne.symm same), if_neg same]
        rfl
  | cons first rest ih =>
      rw [setItem]
      by_cases here : first.1 = key
      · rw [if_pos here, List.find?_cons, List.find?_cons, here]
        by_cases same : other = key
        · rw [decide_eq_true same.symm, if_pos same]
          rfl
        · rw [decide_eq_false (Ne.symm same), if_neg same]
      · rw [if_neg here, List.find?_cons, List.find?_cons]
        by_cases front : first.1 = other
        · rw [decide_eq_true front, if_neg (fun same => here (front.trans same))]
        · rw [decide_eq_false front]
          exact ih

/-- A key that was set has the value it was set to; the others have theirs. -/
theorem get?_set (dict : OrderedDict κ β) (key other : κ) (value : β) :
    (dict.set key value).get? other = if other = key then some value else dict.get? other :=
  find?_setItem key other value dict.items

theorem setItem_of_notMem {key : κ} (value : β) {items : List (κ × β)}
    (fresh : key ∉ items.map Prod.fst) : setItem key value items = items ++ [(key, value)] := by
  induction items with
  | nil => rfl
  | cons item rest ih =>
      rw [List.map_cons, List.mem_cons, not_or] at fresh
      rw [setItem, if_neg (Ne.symm fresh.1), ih fresh.2, List.cons_append]

theorem items_foldl_set {items : List (κ × β)} (dict : OrderedDict κ β)
    (distinct : ((dict.items ++ items).map Prod.fst).Nodup) :
    (items.foldl (fun dict item => dict.set item.1 item.2) dict).items = dict.items ++ items := by
  induction items generalizing dict with
  | nil => exact (List.append_nil _).symm
  | cons item rest ih =>
      have fresh : item.1 ∉ dict.items.map Prod.fst := by
        intro among
        rw [List.map_append] at distinct
        exact List.disjoint_of_nodup_append distinct among List.mem_cons_self
      have appended : (dict.set item.1 item.2).items = dict.items ++ [item] :=
        setItem_of_notMem item.2 fresh
      rw [List.foldl_cons, ih, appended, List.append_assoc, List.singleton_append]
      rw [appended, List.append_assoc, List.singleton_append]
      exact distinct

/-- A dictionary is the one of its items. -/
theorem ofItems_items (dict : OrderedDict κ β) : ofItems dict.items = dict := by
  obtain ⟨items, distinct⟩ := dict
  have listed : (ofItems items).items = items := items_foldl_set empty distinct
  cases built : ofItems items with
  | mk others _ =>
      rw [built] at listed
      subst listed
      rfl

/-- `{key: change(value)}`. -/
def mapValues (change : β → γ) (dict : OrderedDict κ β) : OrderedDict κ γ :=
  ⟨dict.items.map fun item => (item.1, change item.2), by
    rw [List.map_map]
    exact dict.distinct⟩

theorem setItem_map (change : β → γ) (key : κ) (value : β) (items : List (κ × β)) :
    setItem key (change value) (items.map fun item => (item.1, change item.2)) =
      (setItem key value items).map fun item => (item.1, change item.2) := by
  induction items with
  | nil => rfl
  | cons item rest ih =>
      rw [List.map_cons, setItem, setItem]
      by_cases same : item.1 = key
      · rw [if_pos same, if_pos same, List.map_cons]
      · rw [if_neg same, if_neg same, List.map_cons, ih]

theorem set_mapValues (change : β → γ) (dict : OrderedDict κ β) (key : κ) (value : β) :
    (dict.mapValues change).set key (change value) = (dict.set key value).mapValues change := by
  unfold set mapValues
  congr 1
  exact setItem_map change key value dict.items

/-- The values of a dictionary can be changed before it is built. -/
theorem ofItems_map (change : β → γ) (items : List (κ × β)) :
    ofItems (items.map fun item => (item.1, change item.2)) = (ofItems items).mapValues change := by
  have general : ∀ dict : OrderedDict κ β,
      (items.map fun item => (item.1, change item.2)).foldl
          (fun dict item => dict.set item.1 item.2) (dict.mapValues change) =
        (items.foldl (fun dict item => dict.set item.1 item.2) dict).mapValues change := by
    induction items with
    | nil => exact fun _ => rfl
    | cons item rest ih =>
        intro dict
        rw [List.map_cons, List.foldl_cons, List.foldl_cons, set_mapValues, ih]
  exact general empty

/-- The items after a key is set: its own, and those of the other keys. -/
theorem mem_set_iff (dict : OrderedDict κ β) {key : κ} {value : β} {item : κ × β} :
    item ∈ (dict.set key value).items ↔ item = (key, value) ∨ item.1 ≠ key ∧ item ∈ dict.items := by
  obtain ⟨items, distinct⟩ := dict
  change item ∈ setItem key value items ↔ _
  induction items with
  | nil => simp [setItem]
  | cons first rest ih =>
      obtain ⟨fresh, others⟩ := List.nodup_cons.mp distinct
      rw [setItem]
      by_cases same : first.1 = key
      · have outside (among : item ∈ rest) : item.1 ≠ key := fun named =>
          fresh (same.trans named.symm ▸ List.mem_map_of_mem among)
        rw [if_pos same, List.mem_cons]
        apply or_congr_right
        constructor
        · exact fun among => ⟨outside among, List.mem_cons_of_mem _ among⟩
        · rintro ⟨other, among⟩
          rcases List.mem_cons.mp among with rfl | later
          · exact absurd same other
          · exact later
      · rw [if_neg same, List.mem_cons, ih others, List.mem_cons]
        constructor
        · rintro (rfl | rfl | ⟨other, among⟩)
          · exact .inr ⟨same, .inl rfl⟩
          · exact .inl rfl
          · exact .inr ⟨other, .inr among⟩
        · rintro (rfl | ⟨other, rfl | among⟩)
          · exact .inr (.inl rfl)
          · exact .inl rfl
          · exact .inr (.inr ⟨other, among⟩)

/-- Of the items of a key the last is kept. -/
theorem mem_ofItems_iff {items : List (κ × β)} {item : κ × β} :
    item ∈ (ofItems items).items ↔
      ∃ before after, items = before ++ item :: after ∧ item.1 ∉ after.map Prod.fst := by
  induction items using List.reverseRecOn with
  | nil =>
      refine iff_of_false List.not_mem_nil ?_
      rintro ⟨before, after, same, -⟩
      exact List.append_ne_nil_of_right_ne_nil before (List.cons_ne_nil _ _) same.symm
  | append_singleton others last ih =>
      rw [ofItems, List.foldl_append, List.foldl_cons, List.foldl_nil, ← ofItems, mem_set_iff, ih]
      constructor
      · rintro (rfl | ⟨other, before, after, rfl, none⟩)
        · exact ⟨others, [], rfl, List.not_mem_nil⟩
        · refine ⟨before, after ++ [last], by simp, ?_⟩
          rw [List.map_append, List.mem_append, List.map_singleton, List.mem_singleton]
          exact not_or.mpr ⟨none, other⟩
      · rintro ⟨before, after, same, none⟩
        rcases List.eq_nil_or_concat after with rfl | ⟨front, final, rfl⟩
        · exact .inl (List.append_inj_right' same rfl |> List.cons.inj |>.1).symm
        · rw [List.concat_eq_append] at same none
          rw [List.map_append, List.mem_append, List.map_singleton, List.mem_singleton,
            not_or] at none
          rw [← List.cons_append, ← List.append_assoc] at same
          obtain ⟨listed, same⟩ := List.append_inj' same rfl
          cases same
          exact .inr ⟨none.2, before, front, listed, none.1⟩

/-! ### Keys and their values -/

section Keys

variable {dict other : OrderedDict κ β} {key : κ} {value : β}

/-- An item is a key with its value. -/
theorem mem_items_iff {item : κ × β} : item ∈ dict.items ↔ dict.get? item.1 = some item.2 := by
  obtain ⟨items, distinct⟩ := dict
  change item ∈ items ↔ (items.find? fun other => other.1 = item.1).map Prod.snd = some item.2
  induction items with
  | nil => simp
  | cons first rest ih =>
      obtain ⟨fresh, others⟩ := List.nodup_cons.mp distinct
      rw [List.find?_cons]
      by_cases same : first.1 = item.1
      · rw [decide_eq_true same, List.mem_cons]
        constructor
        · rintro (rfl | among)
          · rfl
          · exact absurd (same ▸ List.mem_map_of_mem among) fresh
        · intro value
          exact .inl (Prod.ext same.symm (Option.some.inj value).symm)
      · rw [decide_eq_false same, List.mem_cons]
        constructor
        · rintro (rfl | among)
          · exact absurd rfl same
          · exact (ih others).mp among
        · exact fun value => .inr ((ih others).mpr value)

/-- The keys are those with a value. -/
theorem mem_keys_iff : key ∈ dict.items.map Prod.fst ↔ ∃ value, dict.get? key = some value := by
  rw [List.mem_map]
  constructor
  · rintro ⟨item, among, rfl⟩
    exact ⟨item.2, mem_items_iff.mp among⟩
  · rintro ⟨value, known⟩
    exact ⟨(key, value), mem_items_iff.mpr known, rfl⟩

/-- Setting a key keeps the keys in their places. -/
theorem keys_set : (dict.set key value).items.map Prod.fst =
    if key ∈ dict.items.map Prod.fst then dict.items.map Prod.fst
    else dict.items.map Prod.fst ++ [key] := by
  obtain ⟨items, distinct⟩ := dict
  change (setItem key value items).map Prod.fst = _
  induction items with
  | nil => rfl
  | cons first rest ih =>
      obtain ⟨-, others⟩ := List.nodup_cons.mp distinct
      rw [setItem]
      by_cases same : first.1 = key
      · rw [if_pos same, List.map_cons, List.map_cons, ← same, if_pos List.mem_cons_self]
      · rw [if_neg same, List.map_cons, ih others, List.map_cons]
        by_cases among : key ∈ rest.map Prod.fst
        · rw [if_pos among, if_pos (List.mem_cons_of_mem _ among)]
        · have fresh : key ∉ first.1 :: rest.map Prod.fst :=
            List.not_mem_cons_of_ne_of_not_mem (Ne.symm same) among
          rw [if_neg among, if_neg fresh, List.cons_append]

theorem keys_set_congr {new : β} (keys : dict.items.map Prod.fst = other.items.map Prod.fst) :
    (dict.set key value).items.map Prod.fst = (other.set key new).items.map Prod.fst := by
  rw [keys_set, keys_set, keys]

theorem mem_keys_set {found : κ} : found ∈ (dict.set key value).items.map Prod.fst ↔
    found = key ∨ found ∈ dict.items.map Prod.fst := by
  constructor
  · exact mem_keys_setItem
  · exact keys_setItem key value dict.items

/-- Dictionaries of the same keys and values are the same. -/
theorem eq_of_get? (keys : dict.items.map Prod.fst = other.items.map Prod.fst)
    (values : ∀ key ∈ dict.items.map Prod.fst, dict.get? key = other.get? key) : dict = other := by
  have listed : dict.items = other.items := by
    apply List.ext_getElem
    · simpa using congrArg List.length keys
    · intro index here there
      have first : dict.items[index].1 = other.items[index].1 := by
        have same := congrArg (fun keys => keys[index]?) keys
        simpa [here, there] using same
      have known := mem_items_iff.mp (List.getElem_mem here)
      have otherKnown := mem_items_iff.mp (List.getElem_mem there)
      rw [values _ (List.mem_map_of_mem (List.getElem_mem here)), first, otherKnown] at known
      exact Prod.ext first (Option.some.inj known).symm
  cases dict
  cases other
  cases listed
  rfl

end Keys

end OrderedDict

end Orchestrator.Foundation

/-! ## String-keyed dictionaries

A Python `dict` with string keys is an association list with distinct keys; the
insertion order, which nothing observes, is not kept by updates.
-/

namespace Orchestrator.Foundation

/-- A dictionary with string keys. -/
abbrev Dict (β : Type) := AList fun _ : String => β

namespace Dict

variable {β : Type}

/-- The dictionary of a list of items with distinct keys. -/
def ofList (items : List (String × β)) : Dict β :=
  (items.map fun item => (⟨item.1, item.2⟩ : Sigma fun _ : String => β)).toAList

/-- `dict.get(key, default)`. -/
def get (dict : Dict β) (key : String) (default : β) : β := (dict.lookup key).getD default

theorem get_insert_self (dict : Dict β) (key : String) (value default : β) :
    get (dict.insert key value) key default = value := by
  unfold get
  rw [AList.lookup_insert, Option.getD_some]

theorem get_insert_of_ne (dict : Dict β) {key other : String} (ne : other ≠ key)
    (value default : β) : get (dict.insert key value) other default = get dict other default := by
  unfold get
  rw [AList.lookup_insert_ne ne]

theorem get_erase_self (dict : Dict β) (key : String) (default : β) :
    get (dict.erase key) key default = default := by
  unfold get
  rw [AList.lookup_erase, Option.getD_none]

theorem get_erase_of_ne (dict : Dict β) {key other : String} (ne : other ≠ key) (default : β) :
    get (dict.erase key) other default = get dict other default := by
  unfold get
  rw [AList.lookup_erase_ne ne]

theorem mem_keys_of_lookup {dict : Dict β} {key : String} {value : β}
    (found : dict.lookup key = some value) : key ∈ dict.keys := by
  rw [← AList.mem_keys, ← AList.lookup_isSome, found]
  rfl

/-- A dictionary rebuilt from its items, in any order, has the same values. -/
theorem get_ofList_of_perm (dict : Dict β) {items : List (String × β)}
    (same : items.Perm (dict.entries.map fun item => (item.1, item.2))) (key : String)
    (default : β) : get (ofList items) key default = get dict key default := by
  have perm : (items.map fun item => (⟨item.1, item.2⟩ : Sigma fun _ : String => β)).Perm
      dict.entries := by
    have mapped := same.map fun item => (⟨item.1, item.2⟩ : Sigma fun _ : String => β)
    simpa only [List.map_map, Function.comp_def, Sigma.eta, List.map_id'] using mapped
  unfold get ofList
  rw [AList.lookup_to_alist,
    List.perm_dlookup key ((List.perm_nodupKeys perm).mpr dict.nodupKeys) perm]
  rfl

/-- Of the items that a function of key and value keeps, a key has what the function makes of its
value. -/
theorem lookup_filterMap {γ : Type} (dict : Dict β) (keep : String → β → Option γ) (key : String) :
    (dict.entries.filterMap fun item =>
        (keep item.1 item.2).map fun value => (item.1, value)).lookup key =
      (dict.lookup key).bind (keep key) := by
  obtain ⟨entries, nodup⟩ := dict
  unfold AList.lookup
  dsimp only
  induction entries with
  | nil => rfl
  | cons item rest ih =>
      obtain ⟨first, value⟩ := item
      obtain ⟨absent, others⟩ := List.nodupKeys_cons.mp nodup
      by_cases same : key = first
      · subst same
        rw [List.dlookup_cons_eq, Option.bind_some]
        cases kept : keep key value with
        | some made => rw [List.filterMap_cons_some (by rw [kept]; rfl), List.lookup_cons_self]
        | none =>
            rw [List.filterMap_cons_none (by rw [kept]; rfl), ih others,
              List.dlookup_eq_none.mpr absent, Option.bind_none]
      · rw [List.dlookup_cons_ne _ _ same, ← ih others]
        cases kept : keep first value with
        | none => rw [List.filterMap_cons_none (by rw [kept]; rfl)]
        | some made =>
            rw [List.filterMap_cons_some (by rw [kept]; rfl), List.lookup_cons,
              beq_eq_false_iff_ne.mpr same]

end Dict

end Orchestrator.Foundation
