import Mathlib.Data.List.Induction
import Mathlib.Data.List.Nodup

/-!
# Insertion-ordered dictionaries

A `Dict` keeps its entries in the order in which their keys were first set, one
entry for each key. Setting a present key replaces its value in place; setting
an absent key appends. `get?_set` and `get?_erase` say that each update changes
exactly one key, and are all that most callers need.
-/

namespace Zulip

universe u v

/-- A finite map that remembers the order in which its keys were added. -/
structure Dict (K : Type u) (V : Type v) where
  entries : List (K × V)
  nodupKeys : (entries.map Prod.fst).Nodup

namespace Dict

variable {K : Type u} {V : Type v}

/-- Dictionaries are equal exactly when their entry lists are. -/
@[ext] theorem ext {left right : Dict K V} (entries : left.entries = right.entries) :
    left = right := by
  cases left
  cases right
  cases entries
  rfl

instance [DecidableEq K] [DecidableEq V] : DecidableEq (Dict K V) := fun left right =>
  decidable_of_iff (left.entries = right.entries)
    ⟨Dict.ext, fun equal => congrArg Dict.entries equal⟩

/-- The dictionary without entries. -/
def empty : Dict K V := ⟨[], List.nodup_nil⟩

/-- The keys, oldest first. -/
def keys (dict : Dict K V) : List K := dict.entries.map Prod.fst

/-- The values, in key order. -/
def values (dict : Dict K V) : List V := dict.entries.map Prod.snd

theorem keys_nodup (dict : Dict K V) : dict.keys.Nodup := dict.nodupKeys

@[simp] theorem keys_empty : (empty : Dict K V).keys = [] := rfl

@[simp] theorem values_empty : (empty : Dict K V).values = [] := rfl

@[simp] theorem entries_empty : (empty : Dict K V).entries = [] := rfl

theorem mem_values {dict : Dict K V} {value : V} :
    value ∈ dict.values ↔ ∃ key, (key, value) ∈ dict.entries := by
  simp [values]

variable [DecidableEq K]

/-- The value stored under a key, if there is one. -/
def get? (dict : Dict K V) (key : K) : Option V :=
  (dict.entries.find? fun entry => entry.1 = key).map Prod.snd

@[simp] theorem get?_empty (key : K) : (empty : Dict K V).get? key = none := rfl

/-- A lookup finds exactly the entries of the dictionary. -/
theorem get?_eq_some_iff {dict : Dict K V} {key : K} {value : V} :
    dict.get? key = some value ↔ (key, value) ∈ dict.entries := by
  constructor
  · intro found
    obtain ⟨entry, foundEntry, rfl⟩ := Option.map_eq_some_iff.mp found
    have member := List.mem_of_find?_eq_some foundEntry
    have sameKey : entry.1 = key := by simpa using List.find?_some foundEntry
    rwa [← sameKey]
  · intro member
    cases located : dict.entries.find? fun entry => entry.1 = key with
    | none =>
        have absent := List.find?_eq_none.mp located (key, value) member
        simp at absent
    | some entry =>
        have entryMember := List.mem_of_find?_eq_some located
        have sameKey : entry.1 = key := by simpa using List.find?_some located
        have same : entry = (key, value) :=
          List.inj_on_of_nodup_map dict.nodupKeys entryMember member sameKey
        simp [get?, located, same]

/-- A key is listed exactly when a lookup of it succeeds. -/
theorem mem_keys_iff {dict : Dict K V} {key : K} :
    key ∈ dict.keys ↔ ∃ value, dict.get? key = some value := by
  simp [keys, get?_eq_some_iff]

theorem get?_eq_none_iff {dict : Dict K V} {key : K} :
    dict.get? key = none ↔ key ∉ dict.keys := by
  rw [mem_keys_iff, ← Option.isSome_iff_exists]
  simp

theorem mem_keys_of_get? {dict : Dict K V} {key : K} {value : V}
    (found : dict.get? key = some value) : key ∈ dict.keys :=
  mem_keys_iff.mpr ⟨value, found⟩

instance (dict : Dict K V) (key : K) : Decidable (key ∈ dict.keys) :=
  inferInstanceAs (Decidable (key ∈ dict.entries.map Prod.fst))

/-- Store a value under a key: in place when the key is present, at the end
otherwise. -/
def set (dict : Dict K V) (key : K) (value : V) : Dict K V :=
  if present : key ∈ dict.keys then
    ⟨dict.entries.map fun entry => if entry.1 = key then (key, value) else entry, by
      have sameKeys : (dict.entries.map fun entry =>
          if entry.1 = key then (key, value) else entry).map Prod.fst = dict.keys := by
        rw [List.map_map, keys]
        apply List.map_congr_left
        intro entry _
        by_cases same : entry.1 = key <;> simp [same]
      rw [sameKeys]
      exact dict.nodupKeys⟩
  else
    ⟨dict.entries ++ [(key, value)], by
      rw [List.map_append, List.map_singleton, List.nodup_append']
      exact ⟨dict.nodupKeys, List.nodup_singleton key,
        List.disjoint_singleton.mpr present⟩⟩

theorem mem_entries_set {dict : Dict K V} {key : K} {value : V} {entry : K × V} :
    entry ∈ (dict.set key value).entries ↔
      entry = (key, value) ∨ (entry ∈ dict.entries ∧ entry.1 ≠ key) := by
  unfold set
  split
  · rename_i present
    obtain ⟨previous, stored⟩ := mem_keys_iff.mp present
    have storedMember := get?_eq_some_iff.mp stored
    simp only [List.mem_map]
    constructor
    · rintro ⟨other, member, rfl⟩
      by_cases same : other.1 = key <;> simp [same, member]
    · rintro (rfl | ⟨member, different⟩)
      · exact ⟨(key, previous), storedMember, by simp⟩
      · exact ⟨entry, member, by simp [different]⟩
  · rename_i absent
    have different : entry ∈ dict.entries → entry.1 ≠ key := by
      rintro member rfl
      exact absent (List.mem_map.mpr ⟨_, member, rfl⟩)
    simp only [List.mem_append, List.mem_singleton]
    tauto

/-- Setting a key changes exactly the lookup of that key. -/
theorem get?_set (dict : Dict K V) (key other : K) (value : V) :
    (dict.set key value).get? other = if other = key then some value else dict.get? other := by
  apply Option.ext
  intro found
  rw [get?_eq_some_iff, mem_entries_set]
  by_cases same : other = key
  · simp [same, eq_comm]
  · simp [same, get?_eq_some_iff]

@[simp] theorem get?_set_self (dict : Dict K V) (key : K) (value : V) :
    (dict.set key value).get? key = some value := by
  simp [get?_set]

theorem get?_set_ne (dict : Dict K V) {key other : K} (value : V) (different : other ≠ key) :
    (dict.set key value).get? other = dict.get? other := by
  simp [get?_set, different]

@[simp] theorem mem_keys_set {dict : Dict K V} {key other : K} {value : V} :
    other ∈ (dict.set key value).keys ↔ other = key ∨ other ∈ dict.keys := by
  rw [mem_keys_iff, mem_keys_iff, get?_set]
  by_cases same : other = key <;> simp [same]

/-- Setting a key to the value that it has changes nothing. -/
theorem set_of_get? {dict : Dict K V} {key : K} {value : V} (found : dict.get? key = some value) :
    dict.set key value = dict := by
  have present := mem_keys_of_get? found
  apply Dict.ext
  rw [set, dif_pos present]
  conv_rhs => rw [← List.map_id dict.entries]
  apply List.map_congr_left
  intro entry member
  split
  · rename_i same
    have stored := get?_eq_some_iff.mp found
    exact List.inj_on_of_nodup_map dict.nodupKeys stored member same.symm
  · rfl

/-- Setting a key that is there keeps the dictionary only when it sets the value that is there. -/
theorem set_eq_self_iff {dict : Dict K V} {key : K} {value entry : V}
    (found : dict.get? key = some entry) : dict.set key value = dict ↔ value = entry := by
  constructor
  · intro same
    have stored := dict.get?_set_self key value
    rw [same, found] at stored
    exact (Option.some.inj stored).symm
  · rintro rfl
    exact set_of_get? found

/-- Setting an absent key appends its entry. -/
theorem entries_set_of_not_mem {dict : Dict K V} {key : K} (value : V)
    (absent : key ∉ dict.keys) : (dict.set key value).entries = dict.entries ++ [(key, value)] := by
  simp [set, absent]

/-- Remove a key; an absent key leaves the dictionary as it is. -/
def erase (dict : Dict K V) (key : K) : Dict K V :=
  ⟨dict.entries.filter fun entry => entry.1 ≠ key,
    dict.nodupKeys.sublist (List.filter_sublist.map Prod.fst)⟩

theorem mem_entries_erase {dict : Dict K V} {key : K} {entry : K × V} :
    entry ∈ (dict.erase key).entries ↔ entry ∈ dict.entries ∧ entry.1 ≠ key := by
  simp [erase]

/-- Erasing a key changes exactly the lookup of that key. -/
theorem get?_erase (dict : Dict K V) (key other : K) :
    (dict.erase key).get? other = if other = key then none else dict.get? other := by
  apply Option.ext
  intro found
  rw [get?_eq_some_iff, mem_entries_erase]
  by_cases same : other = key
  · simp [same]
  · simp [same, get?_eq_some_iff]

@[simp] theorem get?_erase_self (dict : Dict K V) (key : K) :
    (dict.erase key).get? key = none := by
  simp [get?_erase]

theorem get?_erase_ne (dict : Dict K V) {key other : K} (different : other ≠ key) :
    (dict.erase key).get? other = dict.get? other := by
  simp [get?_erase, different]

@[simp] theorem mem_keys_erase {dict : Dict K V} {key other : K} :
    other ∈ (dict.erase key).keys ↔ other ≠ key ∧ other ∈ dict.keys := by
  rw [mem_keys_iff, mem_keys_iff, get?_erase]
  by_cases same : other = key <;> simp [same]

/-- Change the value under a key in place; an absent key leaves the dictionary as it is. -/
def modify (dict : Dict K V) (key : K) (change : V → V) : Dict K V :=
  match dict.get? key with
  | none => dict
  | some value => dict.set key (change value)

theorem get?_modify (dict : Dict K V) (key other : K) (change : V → V) :
    (dict.modify key change).get? other =
      if other = key then (dict.get? key).map change else dict.get? other := by
  unfold modify
  cases found : dict.get? key with
  | none =>
      by_cases same : other = key
      · simp [same, found]
      · simp [same]
  | some value => rw [get?_set, Option.map_some]

/-- The value under a key, or a default for an absent key. -/
def getD (dict : Dict K V) (key : K) (default : V) : V := (dict.get? key).getD default

@[simp] theorem getD_empty (key : K) (default : V) :
    (empty : Dict K V).getD key default = default := rfl

theorem getD_set (dict : Dict K V) (key other : K) (value default : V) :
    (dict.set key value).getD other default =
      if other = key then value else dict.getD other default := by
  unfold getD
  rw [get?_set]
  split <;> rfl

/-- Indexing items by a key that tells them apart: a lookup finds the item with
that key, and otherwise what the dictionary held before. -/
theorem get?_index {index : V → K} {items : List V}
    (distinct : ∀ left ∈ items, ∀ right ∈ items, index left = index right → left = right)
    (start : Dict K V) {key : K} {value : V} :
    (items.foldl (fun dict item => dict.set (index item) item) start).get? key = some value ↔
      (value ∈ items ∧ index value = key) ∨
        ((∀ item ∈ items, index item ≠ key) ∧ start.get? key = some value) := by
  induction items generalizing start with
  | nil => simp
  | cons head tail inductionHypothesis =>
      have tailDistinct : ∀ left ∈ tail, ∀ right ∈ tail, index left = index right → left = right :=
        fun left leftMember right rightMember => distinct left (List.mem_cons_of_mem _ leftMember)
          right (List.mem_cons_of_mem _ rightMember)
      rw [List.foldl_cons, inductionHypothesis tailDistinct, get?_set]
      by_cases same : key = index head
      · subst same
        have onlyHead : ∀ item ∈ tail, index item = index head → item = head :=
          fun item member equal => distinct item (List.mem_cons_of_mem _ member) head
            List.mem_cons_self equal
        constructor
        · rintro (⟨member, equal⟩ | ⟨_, found⟩)
          · exact Or.inl ⟨List.mem_cons_of_mem _ member, equal⟩
          · rw [if_pos rfl] at found
            cases found
            exact Or.inl ⟨List.mem_cons_self, rfl⟩
        · rintro (⟨member, equal⟩ | ⟨absent, _⟩)
          · rcases List.mem_cons.mp member with rfl | later
            · by_cases again : value ∈ tail
              · exact Or.inl ⟨again, rfl⟩
              · refine Or.inr ⟨fun item itemMember itemSame => again ?_, by simp⟩
                rwa [← onlyHead item itemMember itemSame]
            · exact Or.inl ⟨later, equal⟩
          · exact absurd rfl (absent head List.mem_cons_self)
      · have headDiffers : index head ≠ key := fun equal => same equal.symm
        rw [if_neg same]
        simp only [List.mem_cons, forall_eq_or_imp, headDiffers, ne_eq, not_false_eq_true, true_and]
        constructor
        · rintro (⟨member, equal⟩ | kept)
          · exact Or.inl ⟨Or.inr member, equal⟩
          · exact Or.inr kept
        · rintro (⟨rfl | member, equal⟩ | kept)
          · exact absurd equal headDiffers
          · exact Or.inl ⟨member, equal⟩
          · exact Or.inr kept

/-- The items of each key, in order. -/
def groupBy {Item : Type*} (index : Item → K) (items : List Item) : Dict K (List Item) :=
  items.foldl (fun groups item => groups.set (index item) (groups.getD (index item) [] ++ [item]))
    empty

theorem get?_groupBy {Item : Type*} (index : Item → K) (items : List Item) (key : K) :
    (groupBy index items).get? key =
      if key ∈ items.map index then some (items.filter fun item => index item = key) else none := by
  unfold groupBy
  induction items using List.reverseRecOn with
  | nil => rfl
  | append_singleton items item inductionHypothesis =>
      rw [List.foldl_concat, get?_set, getD, List.map_append, List.filter_append]
      by_cases same : key = index item
      · subst same
        rw [if_pos rfl, if_pos (by simp), inductionHypothesis]
        by_cases earlier : index item ∈ items.map index
        · rw [if_pos earlier]
          simp
        · have none : items.filter (fun other => index other = index item) = [] :=
            List.filter_eq_nil_iff.mpr fun other member equal =>
              earlier (List.mem_map.mpr ⟨other, member, of_decide_eq_true equal⟩)
          rw [if_neg earlier, none]
          simp
      · have differs : ¬index item = key := fun equal => same equal.symm
        rw [if_neg same, inductionHypothesis]
        simp [same, differs]

/-- Build a dictionary from pairs; of two pairs with one key the later wins. -/
def ofList (pairs : List (K × V)) : Dict K V :=
  pairs.foldl (fun dict pair => dict.set pair.1 pair.2) empty

/-- Pairs of different keys become the entries. -/
theorem entries_ofList {pairs : List (K × V)} (distinct : (pairs.map Prod.fst).Nodup) :
    (ofList pairs).entries = pairs := by
  unfold ofList
  induction pairs using List.reverseRecOn with
  | nil => rfl
  | append_singleton pairs pair inductionHypothesis =>
      rw [List.map_append, List.map_singleton] at distinct
      obtain ⟨earlierDistinct, _, apart⟩ := List.nodup_append'.mp distinct
      have earlier := inductionHypothesis earlierDistinct
      have absent : pair.1 ∉ (pairs.foldl (fun dict pair => dict.set pair.1 pair.2)
          (empty : Dict K V)).keys := by
        unfold keys
        rw [earlier]
        exact fun member => apart member (List.mem_singleton_self _)
      rw [List.foldl_concat, entries_set_of_not_mem _ absent, earlier]

/-- Dictionaries with the same values under all keys have the same entries, in some order. -/
theorem entries_perm {first second : Dict K V} (same : ∀ key, first.get? key = second.get? key) :
    first.entries.Perm second.entries := by
  rw [List.perm_ext_iff_of_nodup (List.Nodup.of_map Prod.fst first.nodupKeys)
    (List.Nodup.of_map Prod.fst second.nodupKeys)]
  intro entry
  rw [← get?_eq_some_iff, ← get?_eq_some_iff, same]

end Dict

end Zulip
